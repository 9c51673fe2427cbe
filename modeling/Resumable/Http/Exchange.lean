import Resumable.Abi.Errno
import Resumable.Config.Host
import Resumable.Http.Answer
import Resumable.Http.Redirect
import Resumable.Text.Hidden
import Resumable.Text.Lossy

namespace Resumable.Http

structure Client where
  userAgent : Option String
  timeoutMs : Nat

def Client.ofConfig (c : NetworkConfig) : Client :=
  ⟨some c.userAgent, 1000 * c.timeoutSeconds⟩

/-- What comes of a request on the wire: no connection, or bytes after a time and the
end of the connection after another. -/
inductive Conversation where
  | refused
  | unresolved
  | broken
  | bytes (delayMs : Nat) (bytes : List UInt8) (lingerMs : Nat)

/-- An answer with its body, and why the body is not whole. -/
structure Fetched where
  status : Nat
  headers : Headers
  body : ByteArray
  failed : Option Errno

namespace Fetched

def quotedList (vs : List String) : String :=
  "[" ++ ", ".intercalate (vs.map Text.visible) ++ "]"

def summary (f : Fetched) : String :=
  let entries := f.headers.map fun (name, vs) => Text.visible name ++
    ": " ++ quotedList vs
  "HttpResponse \x7b status: " ++ toString f.status ++ ", headers: \x7b" ++
    ", ".intercalate entries ++ "\x7d, .. \x7d"

end Fetched

def failure (origin : Url) : Conversation → NetworkError
  | .refused => .connectionRefused (origin.hostText?.getD "")
  | .unresolved => .hostNotFound (origin.hostText?.getD "")
  | _ => .other s!"error sending request for url ({origin.text})"

namespace Client

/-- Fields that are sent unless the request has its own. -/
def defaults (c : Client) (fields : Fields String) : Fields String :=
  let fields := fields.orElse "accept" "*/*"
  match c.userAgent with
  | some agent => fields.orElse "user-agent" agent
  | none => fields

def bodyOf (c : Client) (framing : Framing) (began lingerMs : Nat) (bs : List UInt8) :
    ByteArray × Option Errno :=
  let (body, finish) := readBody framing bs
  let late := c.timeoutMs ≤ began + lingerMs
  let failed : Option Errno :=
    match finish with
    | .whole => none
    | .wrong => some .io
    | .unbounded => if late then some .timedOut else none
    | .cut => some (if late then .timedOut else .io)
  (⟨body.toArray⟩, failed)

/-- What became of a conversation: an error, or a head with the time at which it came,
how the body is framed, the bytes behind it and how long the connection stays open. -/
inductive Heard where
  | failed (e : NetworkError)
  | answer (began : Nat) (head : Head) (framing : Framing) (rest : List UInt8)
      (lingerMs : Nat)

def hear (c : Client) (origin : Url) (method : String) (now : Nat)
    (talk : Conversation) : Heard :=
  match talk with
  | .bytes delayMs bytes lingerMs =>
      let began := now + delayMs
      if c.timeoutMs ≤ began then .failed .timeout
      else
        match readHead (bytes.length + 1) bytes with
        | .wrong => .failed (failure origin .broken)
        | .short =>
            .failed (if c.timeoutMs ≤ began + lingerMs then .timeout else
              failure origin .broken)
        | .value head rest =>
            match framing? method head with
            | none => .failed (failure origin .broken)
            | some framing => .answer began head framing rest lingerMs
  | other => .failed (failure origin other)

/-- Send a request and those that redirections lead to. -/
def send {W : Type} (c : Client) (converse : Sent → W → Conversation × W)
    (origin : Url) :
    Nat → Nat → Nat → Sent → Fields String → W → Except NetworkError Fetched × W
  | 0, _, _, _, _, w => (.error .timeout, w)
  | fuel + 1, hops, now, s, sentFields, w =>
      let (talk, w) := converse { s with fields := sentFields } w
      match c.hear origin s.method now talk with
      | .failed e => (.error e, w)
      | .answer began head framing rest lingerMs =>
          let location := (head.fields.first? "location").bind fun b =>
            String.fromUTF8? b
          match redirection origin hops s head.status location with
          | .refused e => (.error e, w)
          | .next after =>
              send c converse origin fuel (hops + 1) began after (s.fieldsFor after) w
          | .none =>
              let (body, failed) := c.bodyOf framing began lingerMs rest
              let headers :=
                Fields.gather (head.fields.map fun f => (f.1, Text.lossy f.2))
              (.ok ⟨head.status, headers, body, failed⟩, w)

def fetch {W : Type} (c : Client) (converse : Sent → W → Conversation × W)
    (request : HttpRequest) (w : W) : Except NetworkError Fetched × W :=
  match Outbound.ofRequest request with
  | .error refusal => (.error refusal.toNetworkError, w)
  | .ok o =>
      let fields := c.defaults o.fields
      let s := Sent.ofOutbound o fields
      c.send converse o.url (redirectLimit + 2) 0 0 s fields w

end Client

end Resumable.Http
