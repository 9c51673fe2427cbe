import Resumable.Config.Host
import Resumable.Message.PerformRequest
import Resumable.Service.Local
import Resumable.Session.Load
import Resumable.Session.Perform

namespace Resumable

inductive CommandError where
  | config (path : String) (cause : ConfigError)
  | noCore (configPath : String)
  | inputNotText
  | notARequest
  | services (cause : ServicesError)
  | load (path : String)

namespace CommandError

def message : CommandError → String
  | .config path cause => cause.message path
  | .noCore configPath => s!"no core configured; set [core] path in {configPath}"
  | .inputNotText => "failed to read perform request from stdin"
  | .notARequest => "stdin is not a valid perform request"
  | .services cause => cause.message
  | .load path => s!"failed to load core from {path}"

end CommandError

/-- What a run of the command leaves: its exit code, what it writes, and what it
complains of. -/
structure Ending where
  exitCode : Nat
  output : Option Json
  complaint : Option String

structure CommandPlan where
  config : HostConfig
  corePath : String
  request : PerformRequest

namespace CommandPlan

def readRequest (input : ByteArray) : Except CommandError PerformRequest :=
  match String.fromUTF8? input with
  | none => .error .inputNotText
  | some _ =>
      match PerformRequest.read? input.toList with
      | none => .error .notARequest
      | some request => .ok request

/-- Plan a run from what the configuration file and standard input hold. The
configuration is looked at first. -/
def make (home : String) (env : Environment)
    (configFile : Option (Except Errno ByteArray)) (input : ByteArray) :
    Except CommandError CommandPlan := do
  let config ←
    match HostConfig.load env configFile with
    | .ok config => pure (config.getD {})
    | .error cause => throw (.config (Path.configFile home) cause)
  let corePath ←
    match config.resolvedCore home with
    | some path => pure path
    | none => throw (.noCore (Path.configFile home))
  let request ← readRequest input
  return { config, corePath, request }

/-- The session of a plan: load the core, set it up, perform, and tear it down
whatever came of that. -/
def session {G : Type} (plan : CommandPlan) (setup : Setup G) :
    Task (Except CommandError (Except PerformError Json)) := do
  match ← setup.loadFrom plan.corePath .empty with
  | (.error _, _) => return .error (.load plan.corePath)
  | (.ok (), slot) =>
      match ← setup.init slot with
      | (.error e, slot) =>
          let _ ← setup.destroy slot
          return .ok (.error e)
      | (.ok (), slot) =>
          let (result, slot) ← setup.perform plan.request slot
          let _ ← setup.destroy slot
          return .ok result

end CommandPlan

namespace Ending

def rendered : Except PerformError Json → Json
  | .ok result => .object [("ok", result)]
  | .error (.domain value) =>
      .object [("error", .object [("kind", .str "domain"), ("value", value)])]
  | .error (.validation code message) =>
      .object [("error", .object
        [("kind", .str "validation"), ("code", .str code), ("message", .str message)])]
  | .error (.unexpected kind message) =>
      .object [("error", .object
        [("kind", .str "unexpected"), ("category", .str kind.describe),
         ("message", .str message), ("requires_reload", .bool kind.requiresReload)])]

def ofResult : Except CommandError (Except PerformError Json) → Ending
  | .error e => ⟨2, none, some ("Error: " ++ e.message)⟩
  | .ok (.ok result) => ⟨0, some (rendered (.ok result)), none⟩
  | .ok (.error e) => ⟨1, some (rendered (.error e)), none⟩

end Ending

end Resumable
