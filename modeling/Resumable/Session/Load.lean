import Resumable.Session.Slot

namespace Resumable

namespace Slot

variable {G : Type}

def install (core : Core G) (s : Slot G) : Except LoadError Unit × Slot G :=
  match s.lifecycle with
  | .tornDown => (.error .destroyed, s)
  | .ready => (.error .alreadyInitialized, s)
  | .unloaded | .compiled =>
      (.ok (), { s with compiled := some core, lifecycle := .compiled })

end Slot

namespace Setup

variable {G : Type}

def compileCore (setup : Setup G) (bytes : ByteArray) : Except LoadError (Core G) :=
  match setup.compile bytes with
  | some core => .ok core
  | none => .error .compile

def readChunk : Nat := 65536

/-- Read a file up to its first empty piece. -/
def readAll (file : Nat) : Nat → ByteArray → Task (Except Errno ByteArray)
  | 0, _ => .never
  | fuel + 1, read => do
      match ← Task.request (.readFile file readChunk) with
      | .error errno => return .error errno
      | .ok piece =>
          if piece.isEmpty then return .ok read else readAll file fuel (read ++ piece)

def readFile (fuel : Nat) (path : String) : Task (Except LoadError ByteArray) := do
  if !(← Task.request (.fileExists path)) then return .error (.notFound path)
  match ← Task.request (.openFile path { read := true }) with
  | .error errno => return .error (.read path errno)
  | .ok file =>
      match ← readAll file fuel .empty with
      | .error errno => return .error (.read path errno)
      | .ok bytes =>
          match ← Task.request (.closeFile file) with
          | .error errno => return .error (.read path errno)
          | .ok () => return .ok bytes

def load (setup : Setup G) (bytes : ByteArray) (s : Slot G) :
    Except LoadError Unit × Slot G :=
  match setup.compileCore bytes with
  | .error e => (.error e, s)
  | .ok core => s.install core

def loadFrom (setup : Setup G) (path : String) (s : Slot G) :
    Task (Except LoadError Unit × Slot G) := do
  match ← readFile setup.fuel path with
  | .error e => return (.error e, s)
  | .ok bytes => return setup.load bytes s

end Setup

end Resumable
