import Resumable.Config.Host
import Resumable.Files.Open
import Resumable.Http.Exchange
import Resumable.Service.EventStore
import Resumable.Service.Timers

namespace Resumable

/-- `N` is the network behind the client. `answers` are the fetches by ticket,
`remarks` has the last one first, and `storeAt` is nothing for an event store
without a file. -/
structure LocalServices (N : Type) where
  files : FileTree
  here : Place
  client : Http.Client
  network : N
  storeAt : Option Place
  store : EventStore := .empty
  opened : List OpenFile := []
  answers : List (Nat × Except NetworkError Http.Fetched) := []
  bodies : List Chunks := []
  timers : Timers Nat := .idle
  remarks : List Remark := []

inductive ServicesError where
  | client
  | store (path : String)
  deriving DecidableEq, Repr

namespace ServicesError

def message : ServicesError → String
  | .client => "failed to build HTTP client"
  | .store path => s!"failed to open event store at {path}"

end ServicesError

namespace EventStore

def mark : ByteArray := "SQLite format 3\x00".toUTF8

def directoryNames (path : String) : List String :=
  ((PathWalk.namesOf path).filter (· ≠ ".")).dropLast

/-- Open the file of an event store, with the directories above it. A file that holds
something else is refused. -/
def openAt? (files : FileTree) (here : Place) (path : String) :
    Option (Place × FileTree) :=
  let start : Place := if path.startsWith "/" then [] else here
  match files.makeDirectories start (directoryNames path) with
  | .error _ => none
  | .ok files =>
      match files.openFile here path
        { read := true, write := true, create := true } with
      | .error _ => none
      | .ok (file, files) =>
          let data := (files.data? file.place).getD .empty
          if data.isEmpty || data.extract 0 mark.size == mark then
            some (file.place,
              files.put file.place (.file (if data.isEmpty then mark else data)))
          else none

def isTransient (path : String) : Bool := path.isEmpty || path == ":memory:"

end EventStore

namespace LocalServices

variable {N : Type}

def ofConfig (home : String) (files : FileTree) (here : Place) (config : HostConfig)
    (network : N) : Except ServicesError (LocalServices N) :=
  let path := config.resolvedDb home
  let client := Http.Client.ofConfig config.network
  if !Http.isValue config.network.userAgent then .error .client
  else if EventStore.isTransient path then
    .ok { files, here, client, network, storeAt := none }
  else
    match EventStore.openAt? files here path with
    | none => .error (.store path)
    | some (place, files) => .ok { files, here, client, network, storeAt := some place }

def fetch (converse : Http.Sent → N → Http.Conversation × N) (ticket : Nat)
    (request : HttpRequest) (s : LocalServices N) : LocalServices N :=
  let (answer, network) := s.client.fetch converse request s.network
  { s with answers := (ticket, answer) :: s.answers, network := network }

/-- Hand an answer over; its body is one chunk. -/
def response (ticket : Nat) (s : LocalServices N) :
    Except NetworkError HttpHead × LocalServices N :=
  match s.answers.find? (·.1 == ticket) with
  | none => (.error (.other "no such fetch"), s)
  | some (_, .error e) => (.error e, s)
  | some (_, .ok f) =>
      let body : Chunks :=
        (if f.body.isEmpty then [] else [.ok f.body]) ++
        (f.failed.toList.map Except.error)
      (.ok ⟨f.status, f.headers, s.bodies.length⟩,
        { s with bodies := s.bodies ++ [body] })

def openFile (path : String) (flags : OpenFlags) (s : LocalServices N) :
    Except Errno Nat × LocalServices N :=
  match s.files.openFile s.here path flags with
  | .error errno => (.error errno, s)
  | .ok (file, files) =>
      (.ok s.opened.length, { s with opened := s.opened ++ [file], files := files })

def withFile {α : Type} (id : Nat) (s : LocalServices N)
    (use : OpenFile → Except Errno α × OpenFile × FileTree) :
    Except Errno α × LocalServices N :=
  match s.opened[id]? with
  | none => (.error .badF, s)
  | some file =>
      let (result, file, files) := use file
      (result, { s with opened := s.opened.set id file, files := files })

def serve (converse : Http.Sent → N → Http.Conversation × N) :
    (r : Request) → LocalServices N → r.Response × LocalServices N
  | .emit (.remark line), s => ((), { s with remarks := line :: s.remarks })
  | .emit (.fetch ticket request), s => ((), s.fetch converse ticket request)
  | .fileExists path, s => (s.files.exists? s.here path, s)
  | .openFile path flags, s => s.openFile path flags
  | .readFile id max, s =>
      s.withFile id fun f => let (r, f) := f.read s.files max; (r, f, s.files)
  | .writeFile id bytes, s => s.withFile id fun f => f.write s.files bytes
  | .closeFile id, s => s.withFile id fun f => let (r, f) := f.close; (r, f, s.files)
  | .response ticket, s => s.response ticket
  | .pullBody body, s =>
      let (item, rest) := ((s.bodies[body]?).getD []).pull
      (item, { s with bodies := s.bodies.set body rest })
  | .persist kind events, s => (.ok (), { s with store := s.store.persist kind events })
  | .setTimer delay generation, s =>
      let (id, timers) := s.timers.set delay generation
      (id, { s with timers := timers })
  | .clearTimer id, s => ((), { s with timers := s.timers.clear id })

/-- Let time pass; the generations of the timers that fire. -/
def wait (duration : Nat) (s : LocalServices N) : List Nat × LocalServices N :=
  let (fired, timers) := s.timers.wait duration
  (fired.map (·.2), { s with timers := timers })

end LocalServices

def noNetwork (_ : Http.Sent) (u : Unit) : Http.Conversation × Unit := (.broken, u)

end Resumable
