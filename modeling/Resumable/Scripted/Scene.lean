import Resumable.Scripted.Document
import Resumable.Service.Task

namespace Resumable.Scripted

/-- A file. The image of a core is handed over in one piece. -/
structure ScenicFile where
  data : ByteArray
  isImage : Bool
  openErrno : Option Errno
  readErrno : Option Errno
  writeErrno : Option Errno
  closeErrno : Option Errno
  writeMax : Option Nat

structure ScenicStream where
  path : String
  file : ScenicFile
  position : Nat

inductive Reply where
  | response (status : Nat) (headers : Headers) (body : Chunks)
  | failed (error : NetworkError)

/-- A line of the journal. How many bytes of an image were read is not told. -/
inductive Entry where
  | remark (line : Remark)
  | fileExists (path : String) (found : Bool)
  | fileOpen (path : String) (flags : OpenFlags) (result : Except Errno Unit)
  | fileRead (path : String) (max : Nat) (result : Except Errno (Option Nat))
  | fileWrite (path : String) (offered : ByteArray) (result : Except Errno Nat)
  | fileClose (path : String) (result : Except Errno Unit)
  | fetch (request : HttpRequest)
  | pulled (item : Pull)
  | timerSet (id delayMs : Nat)
  | timerCleared (id : Nat)
  | persisted (kind : EventKind) (events : List String)

structure PendingTimer where
  id : Nat
  generation : Nat

/-- `journal` has the last entry first; `issued` are the fetches by ticket, the
last first. -/
structure Scene where
  files : List (String × ScenicFile)
  replies : List Reply
  storeFull : Bool
  streams : List ScenicStream := []
  issued : List (Nat × Reply) := []
  bodies : List Chunks := []
  nextTimer : Nat := 1
  pending : List PendingTimer := []
  journal : List Entry := []

namespace Scene

/-- No files, and an event store that keeps what it is given. -/
def bare (replies : List Reply) : Scene :=
  { files := [], replies := replies, storeFull := false }

def note (s : Scene) (e : Entry) : Scene := { s with journal := e :: s.journal }

def file? (s : Scene) (path : String) : Option ScenicFile :=
  (s.files.find? (·.1 == path)).map (·.2)

def putFile (s : Scene) (path : String) (file : ScenicFile) : Scene :=
  { s with files := s.files.map fun f => if f.1 == path then (path, file) else f }

def putStream (s : Scene) (id : Nat) (stream : ScenicStream) : Scene :=
  { s with streams := s.streams.set id stream }

def openFile (s : Scene) (path : String) (flags : OpenFlags) :
    Except Errno Nat × Scene :=
  match s.file? path with
  | none => (.error .noEnt, s.note (.fileOpen path flags (.error .noEnt)))
  | some file =>
      match file.openErrno with
      | some errno => (.error errno, s.note (.fileOpen path flags (.error errno)))
      | none =>
          let opened : Scene := { s with streams := s.streams ++ [⟨path, file, 0⟩] }
          (.ok s.streams.length, opened.note (.fileOpen path flags (.ok ())))

def read (s : Scene) (id max : Nat) : Except Errno ByteArray × Scene :=
  match s.streams[id]? with
  | none => (.error .badF, s)
  | some stream =>
      match stream.file.readErrno with
      | some errno => (.error errno, s.note (.fileRead stream.path max (.error errno)))
      | none =>
          let limit := if stream.file.isImage then stream.file.data.size else max
          let piece :=
            stream.file.data.extract stream.position (stream.position + limit)
          let told := if stream.file.isImage then none else some piece.size
          (.ok piece,
            (s.putStream id
              { stream with position := stream.position + piece.size }).note
                (.fileRead stream.path max (.ok told)))

def write (s : Scene) (id : Nat) (bytes : ByteArray) : Except Errno Nat × Scene :=
  match s.streams[id]? with
  | none => (.error .badF, s)
  | some stream =>
      match stream.file.writeErrno with
      | some errno =>
          (.error errno, s.note (.fileWrite stream.path bytes (.error errno)))
      | none =>
          let accepted := bytes.extract 0 (stream.file.writeMax.getD bytes.size)
          let file := { stream.file with data := stream.file.data ++ accepted }
          (.ok accepted.size,
            ((s.putStream id { stream with file := file }).putFile
              stream.path file).note (.fileWrite stream.path bytes (.ok accepted.size)))

def close (s : Scene) (id : Nat) : Except Errno Unit × Scene :=
  match s.streams[id]? with
  | none => (.error .badF, s)
  | some stream =>
      let result : Except Errno Unit :=
        match stream.file.closeErrno with
        | some errno => .error errno
        | none => .ok ()
      (result, s.note (.fileClose stream.path result))

def issue (s : Scene) (ticket : Nat) (request : HttpRequest) : Scene :=
  let s := s.note (.fetch request)
  match s.replies with
  | [] =>
      { s with issued := (ticket, .failed (.other "no response scripted")) :: s.issued }
  | reply :: rest => { s with issued := (ticket, reply) :: s.issued, replies := rest }

def response (s : Scene) (ticket : Nat) : Except NetworkError HttpHead × Scene :=
  match s.issued.find? (·.1 == ticket) with
  | none => (.error (.other "no response scripted"), s)
  | some (_, .failed e) => (.error e, s)
  | some (_, .response status headers body) =>
      (.ok ⟨status, headers, s.bodies.length⟩, { s with bodies := s.bodies ++ [body] })

def pull (s : Scene) (body : Nat) : Pull × Scene :=
  let (item, rest) := ((s.bodies[body]?).getD []).pull
  (item, { s with bodies := s.bodies.set body rest }.note (.pulled item))

def serve : (r : Request) → Scene → r.Response × Scene
  | .emit (.remark line), s => ((), s.note (.remark line))
  | .emit (.fetch ticket request), s => ((), s.issue ticket request)
  | .fileExists path, s =>
      let found := (s.file? path).isSome
      (found, s.note (.fileExists path found))
  | .openFile path flags, s => s.openFile path flags
  | .readFile id max, s => s.read id max
  | .writeFile id bytes, s => s.write id bytes
  | .closeFile id, s => s.close id
  | .response ticket, s => s.response ticket
  | .pullBody body, s => s.pull body
  | .persist kind events, s =>
      (if s.storeFull then .error "disk full" else .ok (),
        s.note (.persisted kind events))
  | .setTimer delay generation, s =>
      let id := s.nextTimer
      let set : Scene :=
        { s with nextTimer := id + 1, pending := s.pending ++ [⟨id, generation⟩] }
      (id, set.note (.timerSet id delay))
  | .clearTimer id, s =>
      let cleared : Scene := { s with pending := s.pending.filter (·.id != id) }
      ((), cleared.note (.timerCleared id))

def takeTimers (s : Scene) : List PendingTimer × Scene :=
  (s.pending, { s with pending := [] })

end Scene

end Resumable.Scripted
