import Resumable.Abi.Errno

namespace Resumable

abbrev Place := List String

inductive FileEntry where
  | file (data : ByteArray)
  | directory

/-- The root is a directory without being listed. -/
structure FileTree where
  entries : List (Place × FileEntry)

namespace FileTree

def empty : FileTree := ⟨[]⟩

def notDirectory : Errno := .ofCode 20

def isDirectoryErrno : Errno := .ofCode 21

def nameTooLong : Errno := .ofCode 36

def get? (t : FileTree) (place : Place) : Option FileEntry :=
  if place.isEmpty then some .directory else (t.entries.find? (·.1 == place)).map (·.2)

def isDirectory (t : FileTree) (place : Place) : Bool :=
  match t.get? place with
  | some .directory => true
  | _ => false

def data? (t : FileTree) (place : Place) : Option ByteArray :=
  match t.get? place with
  | some (.file data) => some data
  | _ => none

def put (t : FileTree) (place : Place) (entry : FileEntry) : FileTree :=
  ⟨(place, entry) :: t.entries.filter (·.1 != place)⟩

def step (t : FileTree) (here : Place) (name : String) : Except Errno Place :=
  if !t.isDirectory here then .error notDirectory
  else if name = "." then .ok here
  else if name = ".." then .ok here.dropLast
  else if 255 < name.utf8ByteSize then .error nameTooLong
  else if (t.get? (here ++ [name])).isSome then .ok (here ++ [name])
  else .error .noEnt

def walk (t : FileTree) (here : Place) (names : List String) : Except Errno Place :=
  names.foldlM t.step here

end FileTree

/-- A path, taken apart: where it starts, its names, and whether a slash ends it. -/
structure PathWalk where
  start : Place
  names : List String
  slash : Bool

namespace PathWalk

def namesOf (path : String) : List String := (path.splitOn "/").filter (· ≠ "")

/-- Take a path apart that is seen from a directory. A path must not be empty, hold a
zero character or have 4096 bytes. -/
def of (here : Place) (path : String) : Except Errno PathWalk :=
  if path.toList.contains '\x00' then .error .inval
  else if path.isEmpty then .error .noEnt
  else if 4096 ≤ path.utf8ByteSize then .error FileTree.nameTooLong
  else .ok ⟨if path.startsWith "/" then [] else here, namesOf path, path.endsWith "/"⟩

end PathWalk

namespace FileTree

def locate (t : FileTree) (here : Place) (path : String) : Except Errno Place := do
  let w ← PathWalk.of here path
  let place ← t.walk w.start w.names
  if w.slash && !t.isDirectory place then throw notDirectory
  return place

def exists? (t : FileTree) (here : Place) (path : String) : Bool :=
  match t.locate here path with
  | .ok _ => true
  | .error _ => false

/-- Make a directory and those above it where there are none. -/
def makeDirectories (t : FileTree) : Place → List String → Except Errno FileTree
  | _, [] => .ok t
  | here, name :: rest => do
      match t.step here name with
      | .ok place =>
          if t.isDirectory place then makeDirectories t place rest else throw .exist
      | .error .noEnt =>
          makeDirectories (t.put (here ++ [name]) .directory) (here ++ [name]) rest
      | .error e => throw e

def putFile (t : FileTree) (place : Place) (data : ByteArray) : FileTree :=
  let above := (List.range place.length).foldl (fun t n =>
    let here := place.take n
    if t.isDirectory here then t else t.put here .directory) t
  above.put place (.file data)

end FileTree

end Resumable
