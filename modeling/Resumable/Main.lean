import Resumable.Command.Run
import Resumable.Scripted.Document

namespace Resumable.Main

structure Session where
  services : LocalServices Unit
  onDisk : FileTree

def placeOf (here : Place) (path : String) : Place :=
  (if path.startsWith "/" then [] else here) ++ PathWalk.namesOf path

def pathOf (place : Place) : String := "/" ++ "/".intercalate place

def look (place : Place) : IO (Option FileEntry) := do
  try return some (.file (← IO.FS.readBinFile (pathOf place)))
  catch _ =>
    try
      let _ ← IO.FS.Handle.mk (pathOf place) .read
      return some .directory
    catch _ => return none

def readPlace (t : FileTree) (place : Place) : IO FileTree :=
  (List.range place.length).foldlM (fun t n => do
    let above := place.take (n + 1)
    if (t.get? above).isSome then return t
    match ← look above with
    | some entry => return t.put above entry
    | none => return t) t

/-- Carry a task out on the services; a path is read from disk before it is
first used. -/
def carryOut {α : Type} : Task α → Session → IO (Option α × Session)
  | .done a, s => return (some a, s)
  | .never, s => return (none, s)
  | .ask r k, s => do
      let path : Option String :=
        match r with
        | .fileExists path => some path
        | .openFile path _ => some path
        | _ => none
      let files ←
        match path with
        | some path => readPlace s.services.files (placeOf s.services.here path)
        | none => pure s.services.files
      let fresh := files.entries.filter fun e => (s.services.files.get? e.1).isNone
      let services : LocalServices Unit := { s.services with files := files }
      let (answer, services) := LocalServices.serve noNetwork r services
      carryOut (k answer) ⟨services, ⟨fresh ++ s.onDisk.entries⟩⟩

/-- Write what is new or changed, directories first. -/
def writeBack (before after : FileTree) (except : Option Place) : IO Unit := do
  for (place, entry) in after.entries.reverse do
    if some place != except then
      match entry, before.get? place with
      | .directory, none => IO.FS.createDirAll (pathOf place)
      | .file data, some (.file old) =>
          if data != old then IO.FS.writeBinFile (pathOf place) data
      | .file data, _ => IO.FS.writeBinFile (pathOf place) data
      | _, _ => pure ()

def storeLines (store : EventStore) : String :=
  String.join (store.rows.reverse.map fun row =>
    (Json.arr [.int row.id, .str row.kind.name, .str row.payload]).text ++ "\n")

def environmentOf (text : String) : IO Environment := do
  let names := ((text.splitOn "$\x7b").drop 1).map fun s =>
    (s.takeWhile (· ≠ '\x7d')).toString
  let found ← names.mapM fun name => return (name, ← IO.getEnv name)
  return found.filterMap fun (name, value) => value.map fun v => (name, v)

def surroundings : IO Surroundings := do
  let home := (← IO.getEnv "HOME").getD ""
  let here := PathWalk.namesOf (← IO.currentDir).toString
  let input ← (← IO.getStdin).readBinToEnd
  let paths := Path.configFile home :: logPaths home
  let files ← paths.foldlM (fun t path => readPlace t (placeOf here path))
    (← readPlace .empty here)
  let config := (files.data? (placeOf here (Path.configFile home))).getD .empty
  let env ← environmentOf ((String.fromUTF8? config).getD "")
  return { home, env, here, files, input }

def run : IO UInt32 := do
  let s ← surroundings
  let s ←
    match (s.prepare).2 with
    | .ok (plan, _) =>
        let files ← readPlace s.files (placeOf s.here (plan.config.resolvedDb s.home))
        pure { s with files := files }
    | .error _ => pure s
  match s.prepare with
  | (files, .error e) =>
      writeBack s.files files none
      IO.eprintln ("Error: " ++ e.message)
      return 2
  | (_, .ok (plan, services)) =>
      let setup : Setup Scripted.Registers :=
        ⟨plan.config.runtime, Scripted.compile, 100000⟩
      let (result, done) ← carryOut (plan.session setup) ⟨services, s.files⟩
      writeBack done.onDisk done.services.files services.storeAt
      if let some place := services.storeAt then
        let kept := (services.files.data? place).getD .empty
        IO.FS.writeBinFile (pathOf place)
          (kept ++ (storeLines done.services.store).toUTF8)
      let ending := Ending.ofResult (result.getD (.error (.load plan.corePath)))
      if let some output := ending.output then IO.println output.text
      if let some complaint := ending.complaint then IO.eprintln complaint
      return ending.exitCode.toUInt32

end Resumable.Main

def main : IO UInt32 := Resumable.Main.run
