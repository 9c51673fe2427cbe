import Resumable.Json.Text
import Resumable.Message.Incoming
import Resumable.Message.PerformRequest

namespace Resumable

inductive UnexpectedKind where
  | exception (code : String)
  | trap
  | bridgeViolation
  | missingOutcome
  | lifecycle
  | host
  deriving DecidableEq, Repr

namespace UnexpectedKind

def describe : UnexpectedKind → String
  | .exception code => "exception " ++ code
  | .trap => "core trap"
  | .bridgeViolation => "bridge violation"
  | .missingOutcome => "missing outcome"
  | .lifecycle => "lifecycle"
  | .host => "host"

/-- Only a trap or a broken bridge leaves the core unusable. -/
def requiresReload : UnexpectedKind → Bool
  | .trap => true
  | .bridgeViolation => true
  | _ => false

end UnexpectedKind

inductive PerformError where
  | domain (value : Json)
  | validation (code message : String)
  | unexpected (kind : UnexpectedKind) (message : String)

namespace PerformError

def message : PerformError → String
  | .domain value => "use case failed: " ++ value.text
  | .validation code message => s!"validation failed: {code}: {message}"
  | .unexpected kind message => s!"unexpected error: [{kind.describe}] {message}"

def requiresReload : PerformError → Bool
  | .unexpected kind _ => kind.requiresReload
  | _ => false

/-- An exception whose code ends in `ValidationError` is a validation failure. -/
def ofException (e : CoreException) : PerformError :=
  if e.code.endsWith "ValidationError" then .validation e.code e.message
  else .unexpected (.exception e.code) e.message

end PerformError

inductive Outcome where
  | result (value : Json)
  | error (value : Json)
  | exception (exception : CoreException)

structure PerformState where
  request : PerformRequest
  outcome : Option Outcome := none

namespace PerformState

/-- Keep the first outcome; a later one is handed back. -/
def report (p : PerformState) (outcome : Outcome) : Except Outcome PerformState :=
  match p.outcome with
  | none => .ok { p with outcome := some outcome }
  | some _ => .error outcome

def result (p : PerformState) : Except PerformError Json :=
  match p.outcome with
  | some (.result value) => .ok value
  | some (.error value) => .error (.domain value)
  | some (.exception e) => .error (.ofException e)
  | none =>
      .error (.unexpected .missingOutcome
        s!"use case {p.request.usecase} finished without an outcome")

end PerformState

end Resumable
