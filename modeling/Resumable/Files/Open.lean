import Resumable.Files.Tree
import Resumable.Message.Incoming

namespace Resumable

structure FileAccess where
  readable : Bool
  writable : Bool
  appends : Bool
  deriving DecidableEq, Repr

/-- What opening may create or throw away. -/
inductive Creation where
  | keep
  | create
  | truncate
  | createOrTruncate
  | createNew
  deriving DecidableEq, Repr

namespace OpenFlags

def access? (f : OpenFlags) : Option FileAccess :=
  if f.append then some ⟨f.read, true, true⟩
  else if f.read || f.write then some ⟨f.read, f.write, false⟩
  else none

/-- Nothing is created or thrown away without writing, and an appended file is not
truncated unless it is new. -/
def creation? (f : OpenFlags) : Option Creation :=
  if !f.write && !f.append && (f.truncate || f.create || f.createNew) then none
  else if f.append && f.truncate && !f.createNew then none
  else if f.createNew then some .createNew
  else if f.create then some (if f.truncate then .createOrTruncate else .create)
  else if f.truncate then some .truncate
  else some .keep

end OpenFlags

namespace Creation

def creates : Creation → Bool
  | .create => true
  | .createOrTruncate => true
  | .createNew => true
  | _ => false

def truncates : Creation → Bool
  | .truncate => true
  | .createOrTruncate => true
  | _ => false

end Creation

/-- `late` is the fault of the last write, not told yet; `kept` one that a read
has come upon. -/
structure OpenFile where
  place : Place
  access : FileAccess
  position : Nat
  late : Option Errno
  kept : Option Errno
  closed : Bool

namespace OpenFile

def ofPlace (place : Place) (access : FileAccess) : OpenFile :=
  ⟨place, access, 0, none, none, false⟩

def readLimit : Nat := 1048576

def writeLimit : Nat := 2097152

def read (t : FileTree) (max : Nat) (f : OpenFile) :
    Except Errno ByteArray × OpenFile :=
  if f.closed then (.error .badF, f)
  else
    let f :=
      match f.late with
      | some _ => { f with late := none, kept := some (.ofKind .uncategorised) }
      | none => f
    if max = 0 then (.ok .empty, f)
    else
      match t.get? f.place with
      | some (.file data) =>
          if f.access.readable then
            let piece := data.extract f.position (f.position + min max readLimit)
            (.ok piece, { f with position := f.position + piece.size })
          else (.error .badF, f)
      | _ => (.error FileTree.isDirectoryErrno, f)

/-- Bytes with others written over them at a position; a gap is filled with zeros. -/
def overwrite (data : ByteArray) (position : Nat) (bytes : ByteArray) : ByteArray :=
  let front := data.extract 0 position
  let gap : ByteArray := ⟨Array.replicate (position - front.size) 0⟩
  front ++ gap ++ bytes ++ data.extract (position + bytes.size) data.size

def store (t : FileTree) (bytes : ByteArray) (f : OpenFile) : OpenFile × FileTree :=
  if bytes.isEmpty then (f, t)
  else if !f.access.writable then ({ f with late := some .badF }, t)
  else
    let data := (t.data? f.place).getD .empty
    let start := if f.access.appends then data.size else f.position
    ({ f with position := start + bytes.size },
      t.put f.place (.file (overwrite data start bytes)))

def takeFault (f : OpenFile) : Option (Errno × OpenFile) :=
  match f.kept, f.late with
  | some e, _ => some (e, { f with kept := none })
  | none, some e => some (e, { f with late := none })
  | none, none => none

def write (t : FileTree) (bytes : ByteArray) (f : OpenFile) :
    Except Errno Nat × OpenFile × FileTree :=
  if f.closed then (.error .badF, f, t)
  else
    match f.takeFault with
    | some (e, f) => (.error e, f, t)
    | none =>
        let accepted := bytes.extract 0 writeLimit
        let (f, t) := f.store t accepted
        (.ok accepted.size, f, t)

/-- Close a file. It is closed from here on, whatever is told. -/
def close (f : OpenFile) : Except Errno Unit × OpenFile :=
  if f.closed then (.error .badF, f)
  else
    match f.takeFault with
    | some (e, f) => (.error e, { f with closed := true })
    | none => (.ok (), { f with closed := true })

end OpenFile

namespace FileTree

def openFound (t : FileTree) (place : Place) (access : FileAccess)
    (creation : Creation) : Except Errno (OpenFile × FileTree) :=
  if creation = .createNew then .error .exist
  else
    match t.get? place with
    | some (.file _) =>
        .ok (.ofPlace place access,
          if creation.truncates then t.put place (.file .empty) else t)
    | _ =>
        if access.writable || creation.creates then .error isDirectoryErrno
        else .ok (.ofPlace place access, t)

def openNamed (t : FileTree) (here : Place) (name : String) (slash : Bool)
    (access : FileAccess) (creation : Creation) : Except Errno (OpenFile × FileTree) :=
  if !t.isDirectory here then .error notDirectory
  else if slash && creation.creates then .error isDirectoryErrno
  else
    match t.step here name with
    | .ok place =>
        if slash && !t.isDirectory place then .error notDirectory
        else t.openFound place access creation
    | .error .noEnt =>
        if creation.creates then
          let place := here ++ [name]
          .ok (.ofPlace place access, t.put place (.file .empty))
        else .error .noEnt
    | .error e => .error e

/-- Open a path that is seen from a directory. -/
def openFile (t : FileTree) (here : Place) (path : String) (flags : OpenFlags) :
    Except Errno (OpenFile × FileTree) :=
  match PathWalk.of here path, flags.access?, flags.creation? with
  | .error .inval, _, _ => .error .inval
  | _, none, _ => .error .inval
  | _, _, none => .error .inval
  | .error e, _, _ => .error e
  | .ok w, some access, some creation => do
      let above ← t.walk w.start w.names.dropLast
      match w.names.getLast? with
      | none => t.openFound above access creation
      | some "." => t.openFound (← t.step above ".") access creation
      | some ".." => t.openFound (← t.step above "..") access creation
      | some name => t.openNamed above name w.slash access creation

end FileTree

end Resumable
