import Resumable.Abi.Errno
import Resumable.Config.Environment
import Resumable.Config.Runtime
import Resumable.Toml.Document

namespace Resumable

namespace Path

/-- Go on from a directory; an absolute path starts over. -/
def join (base path : String) : String :=
  if path.startsWith "/" || base.isEmpty then path
  else if base.endsWith "/" then base ++ path
  else base ++ "/" ++ path

/-- Replace a leading `~/` by the home directory. -/
def resolve (home path : String) : String :=
  if path.startsWith "~/" then join home (path.drop 2).toString else path

def dataDir (home : String) : String := join home ".corehost"

def configFile (home : String) : String := join (dataDir home) "config.toml"

end Path

structure NetworkConfig where
  userAgent : String := "corehost/0.0.0"
  timeoutSeconds : Nat := 30

structure HostConfig where
  corePath : Option String := none
  runtime : RuntimeConfig := {}
  network : NetworkConfig := {}
  dbPath : Option String := none

inductive ConfigError where
  | read (cause : Option Errno)
  | parse
  deriving DecidableEq, Repr

namespace ConfigError

def message (path : String) : ConfigError → String
  | .read (some errno) => s!"failed to read config at {path}: {errno.systemText}"
  | .read none =>
      s!"failed to read config at {path}: stream did not contain valid UTF-8"
  | .parse => s!"failed to parse config at {path}"

end ConfigError

namespace Toml

/-- Look up the fields of a section: by name in a table, by position in an array. A
date has no fields that are known here. -/
def section? (fields : List String) : Toml → Option (String → Option Toml)
  | .table _ entries => some fun name => TomlEntries.get? entries name
  | .array items => some fun name => ((fields.zip items).find? (·.1 == name)).map (·.2)
  | .tables rows => some fun name => ((fields.zip rows).find? (·.1 == name)).map (·.2)
  | .datetime _ => some fun _ => none
  | _ => none

def isEmpty : Toml → Bool
  | .table _ [] => true
  | .array [] => true
  | _ => false

/-- A setting's value. What no setting takes is null. -/
def setting : Toml → Json
  | .string s => .str s
  | .integer n => .int n
  | .boolean b => .bool b
  | .table _ [(name, v)] => if v.isEmpty then .obj [(name, .null)] else .null
  | _ => .null

end Toml

namespace HostConfig

def section? {α : Type} (e : TomlEntries) (name : String) (fields : List String)
    (read : (String → Option Toml) → Option α) : Option α :=
  match TomlEntries.get? e name with
  | none => read fun _ => none
  | some v => (v.section? fields).bind read

def text? (get : String → Option Toml) (name : String) : Option (Option String) :=
  match get name with
  | none => some none
  | some (.string s) => some (some s)
  | some _ => none

def network? (get : String → Option Toml) : Option NetworkConfig := do
  let absent : NetworkConfig := {}
  let userAgent ← text? get "user_agent"
  let timeoutSeconds ←
    match get "timeout_seconds" with
    | none => some absent.timeoutSeconds
    | some v => v.setting.asNat? 9223372036854775807
  return { userAgent := userAgent.getD absent.userAgent, timeoutSeconds }

def ofEntries? (e : TomlEntries) : Option HostConfig := do
  let corePath ← section? e "core" ["path"] fun get => text? get "path"
  let runtime ← section? e "runtime" RuntimeConfig.fields fun get =>
    RuntimeConfig.ofLookup? 9223372036854775807 fun name => (get name).map Toml.setting
  let network ← section? e "network" ["user_agent", "timeout_seconds"] network?
  let dbPath ← section? e "persistence" ["db_path"] fun get => text? get "db_path"
  return { corePath, runtime, network, dbPath }

def ofText? (env : Environment) (text : String) : Option HostConfig :=
  (Toml.document? (env.expand text)).bind ofEntries?

/-- Read a configuration from what its file holds: nothing if there is no file, or why
it cannot be read. -/
def load (env : Environment) :
    Option (Except Errno ByteArray) → Except ConfigError (Option HostConfig)
  | none => .ok none
  | some (.error errno) => .error (.read (some errno))
  | some (.ok bytes) =>
      match String.fromUTF8? bytes with
      | none => .error (.read none)
      | some text =>
          match ofText? env text with
          | none => .error .parse
          | some config => .ok (some config)

def resolvedCore (home : String) (c : HostConfig) : Option String :=
  c.corePath.map (Path.resolve home)

/-- The event store; by default it lies in the data directory. -/
def resolvedDb (home : String) (c : HostConfig) : String :=
  match c.dbPath with
  | some path => Path.resolve home path
  | none => Path.join (Path.dataDir home) "events.db"

end HostConfig

end Resumable
