import Resumable.Proofs.Bridge.Rest
import Resumable.Proofs.Host.Halves
import Resumable.Proofs.Session.History
import Resumable.Scripted.Scene

namespace Resumable

namespace Instance

variable {G : Type} {i i' : Instance G}

/-- Nothing is pending, and the core has just reported the normal state. -/
def AtRest (i : Instance G) : Prop :=
  i.host.bridge.pending = none ∧ ∃ core, i.exports.getState core = (.ok 0, i.core)

theorem atRest_of_rested (h : control.Rested i) : i.AtRest := by
  obtain ⟨hidle, j, hj⟩ := h
  change (Live.control fun x s => x.getState s).on j = (.ok 0, i) at hj
  obtain ⟨hstate, hexports⟩ := Live.control_on_ok hj
  rw [← hexports] at hstate
  exact ⟨hidle, j.core, hstate⟩

/-- An export that has returned through the bridge leaves its instance at rest. -/
theorem call_atRest {fuel : Nat} {entry : Exports G → CoreState G → Activation G Unit}
    (h : (i.call fuel entry).Ends (.ok (), i')) : i'.AtRest := by
  obtain ⟨outcome, hrun, h⟩ := Task.ends_bind.mp h
  obtain ⟨⟨result, j⟩, houtcome, h⟩ := Task.ends_bind.mp h
  rw [Task.ends_ofOption.mp houtcome] at hrun
  obtain ⟨k, hflush, h⟩ := Task.ends_bind.mp h
  cases ends_flush hflush
  cases h
  have hrest := atRest_of_rested (Control.rested_of_run fuel hrun)
  exact hrest

theorem perform_atRest {fuel : Nat} {request : PerformRequest} {state : PerformState}
    (h : (i.perform fuel request).Ends (.ok state, i')) : i'.AtRest := by
  obtain ⟨⟨result, j⟩, hcall, h⟩ := Task.ends_bind.mp h
  rcases result with e | _
  · cases h
  · have hrest := call_atRest hcall
    rcases j with ⟨core, exports,
      ⟨config, bridge, _ | state', streams, responses, messages, tickets, outbox⟩⟩
    · cases h
    · cases h
      exact hrest

def ReadsState (i : Instance G) : Prop := ∀ core, (i.exports.getState core).2 = core

theorem AtRest.enter_on (h : i.AtRest) (hreads : i.ReadsState) {R : Type}
    (invoke : Live G R) : (control.enter invoke).on i =
    (do control.resetData; control.settle invoke).on i := by
  obtain ⟨hidle, core, hcore⟩ := h
  have hsame : i.core = core := by rw [← hreads core, hcore]
  rw [← hsame] at hcore
  have hraw : control.rawState.on i = (.ok 0, i) := Live.control_on hcore
  have hisIdle : control.isIdle.on i = (.ok true, i) := by
    rw [Control.isIdle, Act.on_read]
    change (Except.ok i.host.bridge.isIdle, i) = _
    rw [Bridge.isIdle, hidle]
    rfl
  rw [Control.enter, Act.on_bind_ok (Control.state_on hraw rfl)]
  change (control.isIdle >>= _).on i = _
  rw [Act.on_bind_ok hisIdle]
  rfl

end Instance

namespace Setup

variable {G : Type} {setup : Setup G} {s s' : Slot G} {operation : Operation}
  {answer : Answer}

/-- Tearing down reports a suspension that a flush before it has left. -/
theorem finish_atRest {i i' : Instance G} (h : (setup.finish i).Ends (.ok (), i')) :
    i'.AtRest := by
  obtain ⟨⟨flushed, j⟩, _, h⟩ := Task.ends_bind.mp h
  cases flushed with
  | error e => cases h
  | ok _ => exact Instance.call_atRest h

inductive Flushed (setup : Setup G) : Slot G → Prop where
  | left {s : Slot G} {timer : ArmedTimer} {i i' : Instance G} (h : setup.Reachable s)
      (htimer : s.timer = some timer) (hlive : s.live = some i) (hrest : i.AtRest)
      (hflush : i.flushMetrics.Ends (.ok (), i')) :
      Flushed setup { s with live := some i', timer := none }

/-- An instance is at rest, unless a flush by the timer was the last thing to
happen to it. -/
def RestsOrFlushed (setup : Setup G) (s : Slot G) : Prop :=
  (∀ i, s.live = some i → i.AtRest) ∨ setup.Flushed s

theorem Step.restsOrFlushed (hstep : setup.Step operation answer s s')
    (hs : setup.Reachable s) (h : setup.RestsOrFlushed s) :
    setup.RestsOrFlushed s' := by
  cases hstep with
  | unreadable | uncompiled | rejected | readyAlready | uninitialized | blank
      | notLive | goneAlready
  | stale => exact h
  | installed _ _ hl =>
      refine .inl ?_
      intro i hlive
      have hready := hs.consistent.ready_of_live hlive
      rw [hready] at hl
      simp at hl
  | initialized _ _ _ hcall =>
      refine .inl ?_
      intro i hlive
      cases hlive
      exact Instance.call_atRest hcall
  | performed _ _ hcall harm =>
      refine .inl ?_
      intro i hi
      cases harm with
      | before timer htimer =>
          cases hi
          exact Instance.perform_atRest hcall
      | now htimer id =>
          cases hi
          exact Instance.perform_atRest hcall
  | failed | goneIdle | gone | goneFailing | firedIdle | unflushed =>
      exact .inl fun i hlive => by cases hlive
  | flushed htimer hlive hflush =>
      rcases h with h | h
      · exact .inr (.left hs htimer hlive (h _ hlive) hflush)
      · cases h
        cases htimer

theorem Reachable.restsOrFlushed (h : setup.Reachable s) : setup.RestsOrFlushed s := by
  induction h with
  | empty => exact .inl fun i hlive => by cases hlive
  | step hs ends ih => exact (carryOut_step ends).restsOrFlushed hs ih

theorem Flushed.reachable (h : setup.Flushed s) : setup.Reachable s := by
  cases h with
  | @left s timer i i' hs htimer hlive hrest hflush =>
      have hfire : (flushFromTimer timer.generation s).Ends
          { s with live := some i', timer := none } := by
        unfold flushFromTimer
        rw [if_neg (by simp [htimer])]
        simp only [hlive]
        exact Task.ends_bind.mpr ⟨(.ok (), i'), hflush, rfl⟩
      have hends : (setup.carryOut (.fire timer.generation) s).Ends
          (.fired, { s with live := some i', timer := none }) :=
        Task.ends_bind.mpr ⟨_, hfire, rfl⟩
      exact .step hs hends

/-- Live instances are at rest just if no flush by the timer that succeeds leaves one
that is not; the slot of such an instance is one that a flush has just left. Setup,
perform and teardown do not succeed without having brought their instance to rest, and
at rest an export gets past its entry. -/
theorem atRest_iff_flushed_atRest (setup : Setup G) :
    ((∀ s i, setup.Reachable s → s.live = some i → i.AtRest) ↔
        ∀ s i, setup.Flushed s → s.live = some i → i.AtRest) ∧
      (∀ s i, setup.Reachable s → s.live = some i → i.AtRest ∨ setup.Flushed s) ∧
      (∀ i i' : Instance G, (i.setup setup.fuel).Ends (.ok (), i') → i'.AtRest) ∧
      (∀ (i i' : Instance G) request state,
        (i.perform setup.fuel request).Ends (.ok state, i') → i'.AtRest) ∧
      (∀ i i' : Instance G, (setup.finish i).Ends (.ok (), i') → i'.AtRest) ∧
      ∀ i : Instance G, i.AtRest → i.ReadsState → ∀ (R : Type) (invoke : Live G R),
        (Instance.control.enter invoke).on i =
          (do Instance.control.resetData; Instance.control.settle invoke).on i := by
  refine ⟨⟨?_, ?_⟩, ?_, ?_, ?_, ?_, ?_⟩
  · intro h s i hs hlive
    exact h s i hs.reachable hlive
  · intro h s i hs hlive
    rcases hs.restsOrFlushed with hrest | hflushed
    · exact hrest i hlive
    · exact h s i hflushed hlive
  · intro s i hs hlive
    rcases hs.restsOrFlushed with hrest | hflushed
    · exact .inl (hrest i hlive)
    · exact .inr hflushed
  · intro i i' h
    exact Instance.call_atRest h
  · intro i i' request state h
    exact Instance.perform_atRest h
  · intro i i' h
    exact finish_atRest h
  · intro i hrest hreads R invoke
    exact hrest.enter_on hreads invoke

section Leak

def leakyCore : Core Int32 where
  create := .ok
    ⟨⟨65536, Memory.zeros 32 ++
      "\x7b\"kind\":\"file-open\",\"path\":\"m\",\"read\":true\x7d".toUTF8⟩, 0⟩
  start := none
  exports := .ok
    { getState := fun s => (.ok s.globals, s)
      startUnwind := fun _ s => (.ok (), { s with globals := 1 })
      stopUnwind := fun s => (.ok (), { s with globals := 0 })
      startRewind := fun _ s => (.ok (), { s with globals := 2 })
      stopRewind := fun s => (.ok (), { s with globals := 0 })
      setup := fun s => .finish s ()
      teardown := fun s => .finish s ()
      perform := fun s => .finish s ()
      getMetrics :=
        fun s => .call s (.messageExchange 32 43 8192 256) fun s _ => .finish s 0
      clearMetrics := fun s => .finish s ()
      getDeveloperDump := fun s => .finish s 0 }

def leaky : Setup Int32 := ⟨{}, fun _ => some leakyCore, 0⟩

def leakyRequest : PerformRequest :=
  { profileUrl := "p", providerUrl := "v", mapUrl := "m", usecase := "u" }

def hasLeaked : Slot G × Except PerformError Json → Bool
  | (⟨.ready, _, some i, _, _⟩, .error (.unexpected .bridgeViolation message)) =>
      i.host.bridge.pending.isSome && message == "export entered while Unwinding"
  | _ => false

theorem of_hasLeaked {r : Except PerformError Json} (h : hasLeaked (s, r) = true) :
    ∃ i, s.lifecycle = .ready ∧ s.live = some i ∧ ¬ i.AtRest ∧
      r = .error (.unexpected .bridgeViolation "export entered while Unwinding") := by
  unfold hasLeaked at h
  split at h
  · next compiled i timer nextGeneration message heq =>
      cases heq
      obtain ⟨hpending, hmessage⟩ := Bool.and_eq_true_iff.mp h
      cases eq_of_beq hmessage
      refine ⟨i, rfl, rfl, ?_, rfl⟩
      intro hrest
      rw [hrest.1] at hpending
      cases hpending
  · cases h

/-- Stated for any session, since the run of a given one is costly to unfold. -/
theorem unnoticed_of_run {W : Type} {serve : (r : Request) → W → r.Response × W} {w : W}
    {operations : List Operation} {request : PerformRequest}
    (h : (((setup.answerAfter operations request).run serve w).any
      fun ended => hasLeaked ended.1) = true) :
    ∃ s i s', setup.Reachable s ∧ s.lifecycle = .ready ∧ s.live = some i ∧ ¬ i.AtRest ∧
      (setup.perform request s).Ends
        (.error (.unexpected .bridgeViolation "export entered while Unwinding"),
          s') := by
  obtain ⟨⟨s, r⟩, hends, hleaked⟩ := Task.exists_ends_of_run h
  obtain ⟨hs, s', hperform⟩ := reachable_of_answerAfter hends
  obtain ⟨i, hl, hlive, hrest, rfl⟩ := of_hasLeaked hleaked
  exact ⟨s, i, s', hs, hl, hlive, hrest, hperform⟩

/-- A suspension that a flush has left goes unnoticed, and is blamed on the perform
that comes next. -/
theorem leaky_flush_unnoticed :
    ∃ s i s', leaky.Reachable s ∧ s.lifecycle = .ready ∧ s.live = some i ∧ ¬ i.AtRest ∧
      (leaky.perform leakyRequest s).Ends
        (.error (.unexpected .bridgeViolation "export entered while Unwinding"),
          s') := by
  have hrun : (((leaky.answerAfter [.load .empty, .init, .perform leakyRequest, .fire 0]
      leakyRequest).run Scripted.Scene.serve (.bare [])).any
        fun ended => hasLeaked ended.1) = true := by
    decide +kernel
  exact unnoticed_of_run hrun

end Leak

end Setup

end Resumable
