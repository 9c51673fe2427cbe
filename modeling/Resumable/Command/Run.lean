import Resumable.Command.Plan

namespace Resumable

/-- Where the log may lie: in the data directory or, failing that, below the
working directory. -/
def logPaths (home : String) : List String :=
  [ Path.join (Path.join (Path.dataDir home) "logs") "corehost.log",
    ".corehost/logs/corehost.log" ]

namespace FileTree

/-- Open the first log that can be opened. Directories made for another stay. -/
def openLog (here : Place) : List String → FileTree → FileTree
  | [], t => t
  | path :: rest, t =>
      let start : Place := if path.startsWith "/" then [] else here
      match t.makeDirectories start (PathWalk.namesOf path).dropLast with
      | .error _ => openLog here rest t
      | .ok made =>
          match made.openFile here path { append := true, create := true } with
          | .ok (_, t) => t
          | .error _ => openLog here rest made

/-- What a file holds that a path leads to; nothing if it leads nowhere. -/
def content? (t : FileTree) (here : Place) (path : String) :
    Option (Except Errno ByteArray) :=
  match t.locate here path with
  | .error _ => none
  | .ok place =>
      match t.data? place with
      | some data => some (.ok data)
      | none => some (.error isDirectoryErrno)

end FileTree

/-- Where the command is run: the user's home, the environment, the working directory,
the files and the standard input. -/
structure Surroundings where
  home : String
  env : Environment
  here : Place
  files : FileTree
  input : ByteArray

namespace Surroundings

/-- Open the log, plan the run and have the services ready. The files are those
after that. -/
def prepare (s : Surroundings) :
    FileTree × Except CommandError (CommandPlan × LocalServices Unit) :=
  let files := s.files.openLog s.here (logPaths s.home)
  let configFile := files.content? s.here (Path.configFile s.home)
  match CommandPlan.make s.home s.env configFile s.input with
  | .error e => (files, .error e)
  | .ok plan =>
      match LocalServices.ofConfig s.home files s.here plan.config () with
      | .error cause => (files, .error (.services cause))
      | .ok services => (services.files, .ok (plan, services))

/-- Run the command. What is left are the files and, if there was one, the event store
with its place. -/
def run {G : Type} (compile : ByteArray → Option (Core G)) (fuel : Nat)
    (s : Surroundings) : Ending × FileTree × Option (Place × EventStore) :=
  match s.prepare with
  | (files, .error e) => (.ofResult (.error e), files, none)
  | (files, .ok (plan, services)) =>
      match (plan.session ⟨plan.config.runtime, compile, fuel⟩).run
        (LocalServices.serve noNetwork)
          services with
      | none => (.ofResult (.error (.load plan.corePath)), files, none)
      | some (result, services) =>
          (.ofResult result, services.files,
            services.storeAt.map fun place => (place, services.store))

end Surroundings

end Resumable
