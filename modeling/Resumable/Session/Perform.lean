import Resumable.Session.Salvage

/-!
# Working with a session

`init` makes an instance live, `perform` runs a use case on it, `destroy` ends the
session, and `flushFromTimer` is what an armed timer does. Each runs under the gate,
so a slot goes in and comes out.
-/

namespace Resumable

namespace Slot

variable {G : Type}

def cancelTimer (s : Slot G) : Task (Slot G) := do
  match s.timer with
  | none => return s
  | some timer =>
      Task.request (.clearTimer timer.id)
      return { s with timer := none }

def armTimer (config : RuntimeConfig) (s : Slot G) : Task (Slot G) := do
  match s.timer with
  | some _ => return s
  | none =>
      let generation := s.nextGeneration
      let id ← Task.request (.setTimer config.metricsFlushMs generation)
      return { s with timer := some ⟨id, generation⟩, nextGeneration := generation + 1 }

end Slot

namespace Setup

variable {G : Type}

/-- Instantiate the compiled core and set it up; nothing to do if an
instance is live. -/
def init (setup : Setup G) (s : Slot G) : Task (Except PerformError Unit × Slot G) := do
  match s.lifecycle, s.compiled with
  | .ready, _ => return (.ok (), s)
  | .compiled, some core =>
      match ← core.instantiate setup.config with
      | .error e => return (.error (.unexpected .host e.message), s)
      | .ok i =>
          match ← i.setup setup.fuel with
          | (.ok (), i) =>
              return (.ok (), { s with live := some i, lifecycle := .ready })
          | (.error e, i) => return (.error (← i.salvage e), s)
  | .compiled, none => return (.error Lifecycle.unloaded.notReady, s)
  | other, _ => return (.error other.notReady, s)

/-- Run a use case. A perform that came to its end arms the metrics timer, whatever it
reported; a failed call gives the instance up. -/
def perform (setup : Setup G) (request : PerformRequest) (s : Slot G) :
    Task (Except PerformError Json × Slot G) := do
  match request.firstBlank?, s.live with
  | some field, _ =>
      return (.error
        (.validation "PerformRequestValidationError" s!"{field} must not be empty"), s)
  | none, none => return (.error s.lifecycle.notReady, s)
  | none, some i =>
      match ← i.perform setup.fuel request with
      | (.ok state, i) =>
          let s ← { s with live := some i }.armTimer setup.config
          return (state.result, s)
      | (.error e, i) =>
          let s ← s.cancelTimer
          let answer ← i.salvage e
          return (.error answer, { s with live := none, lifecycle := .compiled })

def finish (setup : Setup G) (i : Instance G) :
    Task (Except CallError Unit × Instance G) := do
  match ← i.flushMetrics with
  | (.error e, i) => return (.error e, i)
  | (.ok (), i) => i.teardown setup.fuel

def destroy (setup : Setup G) (s : Slot G) :
    Task (Except PerformError Unit × Slot G) := do
  if s.lifecycle = .tornDown then return (.ok (), s)
  let s ← s.cancelTimer
  let gone : Slot G := { s with live := none, compiled := none, lifecycle := .tornDown }
  match s.live with
  | none => return (.ok (), gone)
  | some i =>
      match ← setup.finish i with
      | (.ok (), _) => return (.ok (), gone)
      | (.error e, i) => return (.error (← i.salvage e), gone)

/-- Flush the metrics for the timer of a generation. A timer that is no longer the
armed one does nothing. -/
def flushFromTimer (generation : Nat) (s : Slot G) : Task (Slot G) := do
  if s.timer.map ArmedTimer.generation ≠ some generation then return s
  let s := { s with timer := none }
  match s.live with
  | none => return s
  | some i =>
      match ← i.flushMetrics with
      | (.ok (), i) => return { s with live := some i }
      | (.error e, i) =>
          let _ ← i.salvage e
          return { s with live := none, lifecycle := .compiled }

end Setup

end Resumable
