import Resumable.Session.Slot

/-!
# Giving an instance up

A failed call ends its instance. What it has recorded is saved: the instance is
brought back to the normal state, its handles are released, then the developer dump
and the metrics are read and forwarded. Neither can fail the other, and the error
answered is that of the failed call.
-/

namespace Resumable

/-- Forward events, if there are any. A failure to keep them is nobody's
business here. -/
def EventKind.forward (kind : EventKind) (events : List String) : Task Unit := do
  if events.isEmpty then return ()
  let _ ← Task.request (.persist kind events)
  return ()

namespace Instance

variable {G : Type}

def eventsOf (r : Except CallError (List String)) : List String :=
  match r with
  | .ok events => events
  | .error _ => []

def salvage (i : Instance G) (e : CallError) : Task PerformError := do
  let (_, i) ← i.act abandonSuspension
  let i := i.release
  let (dump, i) ← i.act readDeveloperDump
  let (metrics, _) ← i.act readMetrics
  EventKind.developerDump.forward (eventsOf dump)
  EventKind.metrics.forward (eventsOf metrics)
  return .unexpected e.kind (CallError.message e)

/-- Read, clear and forward the pending metrics. They are cleared before they
are forwarded. -/
def flushMetrics (i : Instance G) : Task (Except CallError Unit × Instance G) := do
  match ← i.act readMetrics with
  | (.error e, i) => return (.error e, i)
  | (.ok events, i) =>
      match ← i.act clearMetrics with
      | (.error e, i) => return (.error e, i)
      | (.ok (), i) =>
          EventKind.metrics.forward events
          return (.ok (), i)

end Instance

end Resumable
