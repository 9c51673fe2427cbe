import Resumable.Proofs.Service.Ending
import Resumable.Session.Load
import Resumable.Session.Perform

namespace Resumable

namespace Slot

variable {G : Type}

def installed (s : Slot G) (core : Core G) : Slot G :=
  { s with compiled := some core, lifecycle := .compiled }

def initialized (s : Slot G) (i : Instance G) : Slot G :=
  { s with live := some i, lifecycle := .ready }

def discarded (s : Slot G) : Slot G :=
  { s with live := none, timer := none, lifecycle := .compiled }

def gone (s : Slot G) : Slot G :=
  { s with live := none, compiled := none, timer := none, lifecycle := .tornDown }

/-- The slot once a timer is armed: the one that was armed already, or a new one. -/
inductive Armed (s : Slot G) : Slot G → Prop where
  | before (timer : ArmedTimer) (h : s.timer = some timer) : Armed s s
  | now (h : s.timer = none) (id : Nat) :
      Armed s { s with timer := some ⟨id, s.nextGeneration⟩, nextGeneration :=
        s.nextGeneration + 1 }

end Slot

namespace Instance

variable {G : Type}

/-- The error that is answered for a failed call is that of the call. -/
theorem ends_salvage {i : Instance G} {e : CallError} {answer : PerformError}
    (h : (i.salvage e).Ends answer) :
    answer = .unexpected e.kind (CallError.message e) := by
  unfold salvage at h
  obtain ⟨_, _, h⟩ := Task.ends_bind.mp h
  obtain ⟨_, _, h⟩ := Task.ends_bind.mp h
  obtain ⟨_, _, h⟩ := Task.ends_bind.mp h
  obtain ⟨_, _, h⟩ := Task.ends_bind.mp h
  obtain ⟨_, _, h⟩ := Task.ends_bind.mp h
  exact h

end Instance

namespace Setup

/-- A timer may fire late, and more than once. -/
inductive Operation where
  | load (bytes : ByteArray)
  | loadFrom (path : String)
  | init
  | perform (request : PerformRequest)
  | destroy
  | fire (generation : Nat)

inductive Answer where
  | loaded (result : Except LoadError Unit)
  | initialized (result : Except PerformError Unit)
  | performed (result : Except PerformError Json)
  | destroyed (result : Except PerformError Unit)
  | fired

variable {G : Type}

def carryOut (setup : Setup G) : Operation → Slot G → Task (Answer × Slot G)
  | .load bytes, s => return (.loaded (setup.load bytes s).1, (setup.load bytes s).2)
  | .loadFrom path, s => do
      let (result, s) ← setup.loadFrom path s
      return (.loaded result, s)
  | .init, s => do
      let (result, s) ← setup.init s
      return (.initialized result, s)
  | .perform request, s => do
      let (result, s) ← setup.perform request s
      return (.performed result, s)
  | .destroy, s => do
      let (result, s) ← setup.destroy s
      return (.destroyed result, s)
  | .fire generation, s => do
      let s ← flushFromTimer generation s
      return (.fired, s)

inductive Source (setup : Setup G) : Operation → ByteArray → Prop where
  | given (bytes : ByteArray) : Source setup (.load bytes) bytes
  | read {path : String} {bytes : ByteArray}
      (h : (readFile setup.fuel path).Ends (.ok bytes)) :
      Source setup (.loadFrom path) bytes

inductive Step (setup : Setup G) : Operation → Answer → Slot G → Slot G → Prop where
  | unreadable {path : String} {e : LoadError} {s : Slot G}
      (h : (readFile setup.fuel path).Ends (.error e)) :
      Step setup (.loadFrom path) (.loaded (.error e)) s s
  | uncompiled {operation : Operation} {bytes : ByteArray} {s : Slot G}
      (h : setup.Source operation bytes) (hcompile : setup.compile bytes = none) :
      Step setup operation (.loaded (.error .compile)) s s
  | rejected {operation : Operation} {bytes : ByteArray} {core : Core G} {s : Slot G}
      {e : LoadError} (h : setup.Source operation bytes)
      (hcompile : setup.compile bytes = some core)
      (hl : s.lifecycle = .ready ∧ e = .alreadyInitialized ∨ s.lifecycle = .tornDown ∧
        e = .destroyed) : Step setup operation (.loaded (.error e)) s s
  | installed {operation : Operation} {bytes : ByteArray} {core : Core G} {s : Slot G}
      (h : setup.Source operation bytes) (hcompile : setup.compile bytes = some core)
      (hl : s.lifecycle = .unloaded ∨ s.lifecycle = .compiled) :
      Step setup operation (.loaded (.ok ())) s (s.installed core)
  | readyAlready {s : Slot G} (hl : s.lifecycle = .ready) :
      Step setup .init (.initialized (.ok ())) s s
  | initialized {s : Slot G} {core : Core G} {i i' : Instance G}
      (hl : s.lifecycle = .compiled) (hcore : s.compiled = some core)
      (hmade : (core.instantiate setup.config).Ends (.ok i))
      (hcall : (i.setup setup.fuel).Ends (.ok (), i')) :
      Step setup .init (.initialized (.ok ())) s (s.initialized i')
  | uninitialized {s : Slot G} {e : PerformError} (hl : s.lifecycle ≠ .ready)
      (he : s.lifecycle = .compiled ∨ e = s.lifecycle.notReady) :
      Step setup .init (.initialized (.error e)) s s
  | blank {s : Slot G} {request : PerformRequest} {field : String}
      (hblank : request.firstBlank? = some field) :
      Step setup (.perform request)
        (.performed (.error (.validation "PerformRequestValidationError"
          s!"{field} must not be empty"))) s s
  | notLive {s : Slot G} {request : PerformRequest}
      (hblank : request.firstBlank? = none) (hlive : s.live = none) :
      Step setup (.perform request) (.performed (.error s.lifecycle.notReady)) s s
  | performed {s s' : Slot G} {request : PerformRequest} {i i' : Instance G}
      {state : PerformState} (hblank : request.firstBlank? = none)
      (hlive : s.live = some i)
      (hcall : (i.perform setup.fuel request).Ends (.ok state, i'))
      (harm : { s with live := some i' }.Armed s') :
      Step setup (.perform request) (.performed state.result) s s'
  | failed {s : Slot G} {request : PerformRequest} {i i' : Instance G} {e : CallError}
      (hblank : request.firstBlank? = none) (hlive : s.live = some i)
      (hcall : (i.perform setup.fuel request).Ends (.error e, i')) :
      Step setup (.perform request)
        (.performed (.error (.unexpected e.kind (CallError.message e)))) s s.discarded
  | goneAlready {s : Slot G} (hl : s.lifecycle = .tornDown) :
      Step setup .destroy (.destroyed (.ok ())) s s
  | goneIdle {s : Slot G} (hl : s.lifecycle ≠ .tornDown) (hlive : s.live = none) :
      Step setup .destroy (.destroyed (.ok ())) s s.gone
  | gone {s : Slot G} {i i' : Instance G} (hl : s.lifecycle ≠ .tornDown)
      (hlive : s.live = some i) (hfinish : (setup.finish i).Ends (.ok (), i')) :
      Step setup .destroy (.destroyed (.ok ())) s s.gone
  | goneFailing {s : Slot G} {i i' : Instance G} {e : CallError}
      (hl : s.lifecycle ≠ .tornDown) (hlive : s.live = some i)
      (hfinish : (setup.finish i).Ends (.error e, i')) :
      Step setup .destroy
        (.destroyed (.error (.unexpected e.kind (CallError.message e)))) s s.gone
  | stale {s : Slot G} {generation : Nat}
      (h : s.timer.map ArmedTimer.generation ≠ some generation) :
      Step setup (.fire generation) .fired s s
  | firedIdle {s : Slot G} {timer : ArmedTimer} (htimer : s.timer = some timer)
      (hlive : s.live = none) :
      Step setup (.fire timer.generation) .fired s
        { s with live := none, timer := none }
  | flushed {s : Slot G} {timer : ArmedTimer} {i i' : Instance G}
      (htimer : s.timer = some timer) (hlive : s.live = some i)
      (hflush : i.flushMetrics.Ends (.ok (), i')) :
      Step setup (.fire timer.generation) .fired s
        { s with live := some i', timer := none }
  | unflushed {s : Slot G} {timer : ArmedTimer} {i i' : Instance G} {e : CallError}
      (htimer : s.timer = some timer) (hlive : s.live = some i)
      (hflush : i.flushMetrics.Ends (.error e, i')) :
      Step setup (.fire timer.generation) .fired s s.discarded

variable {s : Slot G}

theorem perform_of_blank {request : PerformRequest} {field : String}
    (h : request.firstBlank? = some field) (setup : Setup G) (s : Slot G) :
    setup.perform request s = return (.error
      (.validation "PerformRequestValidationError" s!"{field} must not be empty"),
        s) := by
  unfold perform
  rw [h]

theorem perform_of_none {request : PerformRequest} (h : request.firstBlank? = none)
    (hlive : s.live = none) (setup : Setup G) :
    setup.perform request s = return (.error s.lifecycle.notReady, s) := by
  unfold perform
  rw [h, hlive]

theorem destroy_of_tornDown (h : s.lifecycle = .tornDown) (setup : Setup G) :
    setup.destroy s = return (.ok (), s) := by
  unfold destroy
  rw [if_pos h]

end Setup

end Resumable
