import Resumable.Abi.Errno
import Resumable.Perform.Outcome

namespace Resumable

inductive Lifecycle where
  | unloaded
  | compiled
  | ready
  | tornDown
  deriving DecidableEq, Repr

namespace Lifecycle

def refusal : Lifecycle → String
  | .unloaded => "no core has been loaded"
  | .compiled => "core is not initialized"
  | .ready => "core is unavailable"
  | .tornDown => "runtime has been destroyed"

def notReady (l : Lifecycle) : PerformError := .unexpected .lifecycle l.refusal

end Lifecycle

inductive LoadError where
  | notFound (path : String)
  | read (path : String) (errno : Errno)
  | compile
  | alreadyInitialized
  | destroyed
  deriving DecidableEq, Repr

namespace LoadError

def message : LoadError → String
  | .notFound path => s!"core file not found: {path}"
  | .read path errno => s!"failed to read core file {path}: {errno.message}"
  | .compile => "failed to compile core"
  | .alreadyInitialized => "a core is already initialized"
  | .destroyed => "runtime has been destroyed"

end LoadError

end Resumable
