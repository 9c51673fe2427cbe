import Resumable.Http.Exchange

namespace Resumable.Scripted

open Resumable.Http (Conversation Sent)

structure PeerReply where
  delayMs : Nat
  bytes : List UInt8
  lingerMs : Nat

namespace PeerReply

/-- The bytes of an answer with a body of which some bytes are held back. -/
def answerBytes (status : Nat) (fields : List (String × ByteArray)) (body : ByteArray)
    (missing : Nat) :
    List UInt8 :=
  let line (name : String) (value : List UInt8) : List UInt8 :=
    name.toUTF8.toList ++ [58, 32] ++ value ++ [13, 10]
  let known :=
    [("content-length", toString (body.size + missing)), ("connection", "close")]
  s!"HTTP/1.1 {status} Scripted\r\n".toUTF8.toList ++
    fields.flatMap (fun f => line f.1 f.2.toList) ++
    known.flatMap (fun f => line f.1 f.2.toUTF8.toList) ++ [13, 10] ++ body.toList

end PeerReply

structure SeenRequest where
  line : String
  fields : List (String × String)
  body : ByteArray

/-- `closed` is what comes of connecting when nothing is left to answer; `seen` has
the last first. -/
structure Peer where
  replies : List PeerReply
  closed : Conversation
  seen : List SeenRequest

namespace Peer

def fieldBefore (a b : String × String) : Bool :=
  if a.1 = b.1 then decide (a.2 < b.2) || a.2 == b.2 else a.1 < b.1

def fieldsSeen (s : Sent) : List (String × String) :=
  let length : List (String × String) :=
    if s.body.isEmpty || s.fields.has "content-length" then []
    else [("content-length", toString s.body.size)]
  let trimmed := s.fields.map fun f => (f.1, f.2.trimAscii.toString)
  ((trimmed ++ length).filter fun f => f.1 != "host" && f.1 != "referer").mergeSort
    fieldBefore

def converse (s : Sent) (p : Peer) : Conversation × Peer :=
  match p.replies with
  | [] => (p.closed, p)
  | reply :: rest =>
      let seen : SeenRequest :=
        ⟨s!"{s.method} {s.target} HTTP/1.1", fieldsSeen s, s.body⟩
      (.bytes reply.delayMs reply.bytes reply.lingerMs,
        { p with replies := rest, seen := seen :: p.seen })

end Peer

end Resumable.Scripted
