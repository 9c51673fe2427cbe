import Resumable.Proofs.Host.Requests
import Resumable.Proofs.Session.Steps

namespace Resumable

namespace Slot

variable {G : Type} {s t : Slot G} {log : List Exchange}

def clearing (s : Slot G) : List Exchange :=
  match s.timer with
  | none => []
  | some timer => [⟨.clearTimer timer.id, ()⟩]

theorem runs_cancelTimer (h : s.cancelTimer.Runs log t) :
    log = s.clearing ∧ t = { s with timer := none } := by
  unfold cancelTimer at h
  unfold clearing
  rcases s with ⟨lifecycle, compiled, live, _ | timer, nextGeneration⟩
  · exact h
  · obtain ⟨_, _, _, rfl, hclear, rfl, rfl⟩ := Task.runs_bind.mp h
    cases Task.runs_request.mp hclear
    exact ⟨rfl, rfl⟩

theorem runs_armTimer {config : RuntimeConfig} (h : (s.armTimer config).Runs log t) :
    ((∃ timer, s.timer = some timer) ∧ log = [] ∧ t = s) ∨
      s.timer = none ∧ ∃ id,
        log = [⟨.setTimer config.metricsFlushMs s.nextGeneration, id⟩] ∧
        t = { s with timer := some ⟨id, s.nextGeneration⟩, nextGeneration :=
          s.nextGeneration + 1 } := by
  unfold armTimer at h
  split at h
  · next timer htimer => exact .inl ⟨⟨timer, htimer⟩, h⟩
  · next htimer =>
      obtain ⟨id, _, _, rfl, hset, rfl, rfl⟩ := Task.runs_bind.mp h
      cases Task.runs_request.mp hset
      exact .inr ⟨htimer, id, rfl, rfl⟩

theorem armed_of_runs {config : RuntimeConfig} (h : (s.armTimer config).Runs log t) :
    s.Armed t := by
  obtain ⟨⟨timer, htimer⟩, -, rfl⟩ | ⟨htimer, id, -, rfl⟩ := runs_armTimer h
  · exact .before timer htimer
  · exact .now htimer id

end Slot

namespace Setup

variable {G : Type}

/-- Bytes that a core may be loaded from, and how they were come by. -/
inductive Sourced (setup : Setup G) : Operation → List Exchange → ByteArray → Prop where
  | given (bytes : ByteArray) : Sourced setup (.load bytes) [] bytes
  | read {path : String} {log : List Exchange} {bytes : ByteArray}
      (h : (readFile setup.fuel path).Runs log (.ok bytes)) :
      Sourced setup (.loadFrom path) log bytes

inductive Course (setup : Setup G) :
    Operation → List Exchange → Answer → Slot G → Slot G → Prop where
  | unreadable {path : String} {log : List Exchange} {e : LoadError} {s : Slot G}
      (h : (readFile setup.fuel path).Runs log (.error e)) :
      Course setup (.loadFrom path) log (.loaded (.error e)) s s
  | uncompiled {operation : Operation} {log : List Exchange}
      {bytes : ByteArray} {s : Slot G} (h : setup.Sourced operation log bytes)
      (hcompile : setup.compile bytes = none) :
      Course setup operation log (.loaded (.error .compile)) s s
  | rejected {operation : Operation} {log : List Exchange} {bytes : ByteArray}
      {core : Core G} {s : Slot G} {e : LoadError}
      (h : setup.Sourced operation log bytes)
      (hcompile : setup.compile bytes = some core)
      (hl : s.lifecycle = .ready ∧ e = .alreadyInitialized ∨ s.lifecycle = .tornDown ∧
        e = .destroyed) : Course setup operation log (.loaded (.error e)) s s
  | installed {operation : Operation} {log : List Exchange} {bytes : ByteArray}
      {core : Core G} {s : Slot G} (h : setup.Sourced operation log bytes)
      (hcompile : setup.compile bytes = some core)
      (hl : s.lifecycle = .unloaded ∨ s.lifecycle = .compiled) :
      Course setup operation log (.loaded (.ok ())) s (s.installed core)
  | readyAlready {s : Slot G} (hl : s.lifecycle = .ready) :
      Course setup .init [] (.initialized (.ok ())) s s
  | initialized {log₁ log₂ : List Exchange} {s : Slot G} {core : Core G}
      {i i' : Instance G} (hl : s.lifecycle = .compiled)
      (hcore : s.compiled = some core)
      (hmade : (core.instantiate setup.config).Runs log₁ (.ok i))
      (hcall : (i.setup setup.fuel).Runs log₂ (.ok (), i')) :
      Course setup .init (log₁ ++ log₂) (.initialized (.ok ())) s (s.initialized i')
  | unmade {log : List Exchange} {s : Slot G} {core : Core G} {e : InstantiateError}
      (hl : s.lifecycle = .compiled) (hcore : s.compiled = some core)
      (hmade : (core.instantiate setup.config).Runs log (.error e)) :
      Course setup .init log (.initialized (.error (.unexpected .host e.message))) s s
  | stillborn {log₁ log₂ log₃ : List Exchange} {s : Slot G} {core : Core G}
      {i i' : Instance G} {e : CallError} {answer : PerformError}
      (hl : s.lifecycle = .compiled) (hcore : s.compiled = some core)
      (hmade : (core.instantiate setup.config).Runs log₁ (.ok i))
      (hcall : (i.setup setup.fuel).Runs log₂ (.error e, i'))
      (hsalvage : (i'.salvage e).Runs log₃ answer) :
      Course setup .init (log₁ ++ (log₂ ++ log₃)) (.initialized (.error answer)) s s
  | unprepared {s : Slot G} {e : PerformError}
      (hl : s.lifecycle = .compiled ∧ s.compiled = none ∨
        s.lifecycle ≠ .compiled ∧ s.lifecycle ≠ .ready ∧ e = s.lifecycle.notReady) :
      Course setup .init [] (.initialized (.error e)) s s
  | blank {s : Slot G} {request : PerformRequest} {field : String}
      (hblank : request.firstBlank? = some field) :
      Course setup (.perform request) []
        (.performed (.error (.validation "PerformRequestValidationError"
          s!"{field} must not be empty"))) s s
  | notLive {s : Slot G} {request : PerformRequest}
      (hblank : request.firstBlank? = none) (hlive : s.live = none) :
      Course setup (.perform request) [] (.performed (.error s.lifecycle.notReady)) s s
  | performed {log₁ log₂ : List Exchange} {s s' : Slot G} {request : PerformRequest}
      {i i' : Instance G} {state : PerformState} (hblank : request.firstBlank? = none)
      (hlive : s.live = some i)
      (hcall : (i.perform setup.fuel request).Runs log₁ (.ok state, i'))
      (harm : ({ s with live := some i' }.armTimer setup.config).Runs log₂ s') :
      Course setup (.perform request) (log₁ ++ log₂) (.performed state.result) s s'
  | failed {log₁ log₂ : List Exchange} {s : Slot G} {request : PerformRequest}
      {i i' : Instance G} {e : CallError} {answer : PerformError}
      (hblank : request.firstBlank? = none) (hlive : s.live = some i)
      (hcall : (i.perform setup.fuel request).Runs log₁ (.error e, i'))
      (hsalvage : (i'.salvage e).Runs log₂ answer) :
      Course setup (.perform request) (log₁ ++ (s.clearing ++ log₂))
        (.performed (.error answer)) s s.discarded
  | goneAlready {s : Slot G} (hl : s.lifecycle = .tornDown) :
      Course setup .destroy [] (.destroyed (.ok ())) s s
  | goneIdle {s : Slot G} (hl : s.lifecycle ≠ .tornDown) (hlive : s.live = none) :
      Course setup .destroy s.clearing (.destroyed (.ok ())) s s.gone
  | gone {log : List Exchange} {s : Slot G} {i i' : Instance G}
      (hl : s.lifecycle ≠ .tornDown) (hlive : s.live = some i)
      (hfinish : (setup.finish i).Runs log (.ok (), i')) :
      Course setup .destroy (s.clearing ++ log) (.destroyed (.ok ())) s s.gone
  | goneFailing {log₁ log₂ : List Exchange} {s : Slot G} {i i' : Instance G}
      {e : CallError} {answer : PerformError} (hl : s.lifecycle ≠ .tornDown)
      (hlive : s.live = some i) (hfinish : (setup.finish i).Runs log₁ (.error e, i'))
      (hsalvage : (i'.salvage e).Runs log₂ answer) :
      Course setup .destroy (s.clearing ++ (log₁ ++ log₂))
        (.destroyed (.error answer)) s s.gone
  | stale {s : Slot G} {generation : Nat}
      (h : s.timer.map ArmedTimer.generation ≠ some generation) :
      Course setup (.fire generation) [] .fired s s
  | firedIdle {s : Slot G} {timer : ArmedTimer} (htimer : s.timer = some timer)
      (hlive : s.live = none) :
      Course setup (.fire timer.generation) [] .fired s
        { s with live := none, timer := none }
  | flushed {log : List Exchange} {s : Slot G} {timer : ArmedTimer} {i i' : Instance G}
      (htimer : s.timer = some timer) (hlive : s.live = some i)
      (hflush : i.flushMetrics.Runs log (.ok (), i')) :
      Course setup (.fire timer.generation) log .fired s
        { s with live := some i', timer := none }
  | unflushed {log₁ log₂ : List Exchange} {s : Slot G} {timer : ArmedTimer}
      {i i' : Instance G} {e : CallError} {answer : PerformError}
      (htimer : s.timer = some timer) (hlive : s.live = some i)
      (hflush : i.flushMetrics.Runs log₁ (.error e, i'))
      (hsalvage : (i'.salvage e).Runs log₂ answer) :
      Course setup (.fire timer.generation) (log₁ ++ log₂) .fired s s.discarded

variable {setup : Setup G} {s s' : Slot G} {log : List Exchange}

theorem load_course (setup : Setup G) {operation : Operation} {bytes : ByteArray}
    (h : setup.Sourced operation log bytes) (s : Slot G) :
    setup.Course operation log (.loaded (setup.load bytes s).1) s
      (setup.load bytes s).2 := by
  cases hcompile : setup.compile bytes with
  | none =>
      have hload : setup.load bytes s = (.error .compile, s) := by
        rw [load, compileCore, hcompile]
      rw [hload]
      exact .uncompiled h hcompile
  | some core =>
      have hload : setup.load bytes s = s.install core := by
        rw [load, compileCore, hcompile]
      rw [hload, Slot.install]
      cases hl : s.lifecycle with
      | unloaded => exact .installed h hcompile (.inl hl)
      | compiled => exact .installed h hcompile (.inr hl)
      | ready => exact .rejected h hcompile (.inl ⟨hl, rfl⟩)
      | tornDown => exact .rejected h hcompile (.inr ⟨hl, rfl⟩)

theorem loadFrom_course {path : String} {r : Except LoadError Unit}
    (h : (setup.loadFrom path s).Runs log (r, s')) :
    setup.Course (.loadFrom path) log (.loaded r) s s' := by
  obtain ⟨read, log₁, log₂, rfl, hread, h⟩ := Task.runs_bind.mp h
  cases read with
  | error e =>
      obtain ⟨rfl, hr⟩ := h
      cases hr
      rw [List.append_nil]
      exact .unreadable hread
  | ok bytes =>
      obtain ⟨rfl, hload⟩ := h
      have hcourse := setup.load_course (.read hread) s
      rw [← hload] at hcourse
      rw [List.append_nil]
      exact hcourse

theorem init_course {r : Except PerformError Unit}
    (h : (setup.init s).Runs log (r, s')) :
    setup.Course .init log (.initialized r) s s' := by
  unfold init at h
  split at h
  · next hl =>
      obtain ⟨rfl, hr⟩ := h
      cases hr
      exact .readyAlready hl
  · next core hl hcore =>
      obtain ⟨made, log₁, log₂, rfl, hmade, h⟩ := Task.runs_bind.mp h
      cases made with
      | error e =>
          obtain ⟨rfl, hr⟩ := h
          cases hr
          rw [List.append_nil]
          exact .unmade hl hcore hmade
      | ok i =>
          obtain ⟨⟨called, i'⟩, log₂, log₃, rfl, hcall, h⟩ := Task.runs_bind.mp h
          cases called with
          | ok _ =>
              obtain ⟨rfl, hr⟩ := h
              cases hr
              rw [List.append_nil]
              exact .initialized hl hcore hmade hcall
          | error e =>
              obtain ⟨answer, log₃, log₄, rfl, hsalvage, rfl, hr⟩ := Task.runs_bind.mp h
              cases hr
              rw [List.append_nil]
              exact .stillborn hl hcore hmade hcall hsalvage
  · next hl hcore =>
      obtain ⟨rfl, hr⟩ := h
      cases hr
      exact .unprepared (.inl ⟨hl, hcore⟩)
  · next hready hcompiled hnone =>
      obtain ⟨rfl, hr⟩ := h
      cases hr
      refine .unprepared (.inr ⟨?_, hready, rfl⟩)
      intro hl
      cases hcore : s.compiled with
      | none => exact hnone hl hcore
      | some core => exact hcompiled core hl hcore

theorem perform_course {request : PerformRequest} {r : Except PerformError Json}
    (h : (setup.perform request s).Runs log (r, s')) :
    setup.Course (.perform request) log (.performed r) s s' := by
  cases hblank : request.firstBlank? with
  | some field =>
      rw [perform_of_blank hblank] at h
      obtain ⟨rfl, hr⟩ := h
      cases hr
      exact .blank hblank
  | none =>
      cases hlive : s.live with
      | none =>
          rw [perform_of_none hblank hlive] at h
          obtain ⟨rfl, hr⟩ := h
          cases hr
          exact .notLive hblank hlive
      | some i =>
          unfold perform at h
          rw [hblank, hlive] at h
          obtain ⟨⟨called, i'⟩, log₁, log₂, rfl, hcall, h⟩ := Task.runs_bind.mp h
          cases called with
          | ok state =>
              obtain ⟨t, log₂, log₃, rfl, harm, rfl, hr⟩ := Task.runs_bind.mp h
              cases hr
              rw [List.append_nil]
              exact .performed hblank hlive hcall harm
          | error e =>
              obtain ⟨t, log₂, log₃, rfl, hcancel, h⟩ := Task.runs_bind.mp h
              obtain ⟨answer, log₃, log₄, rfl, hsalvage, rfl, hr⟩ := Task.runs_bind.mp h
              obtain ⟨rfl, rfl⟩ := Slot.runs_cancelTimer hcancel
              cases hr
              rw [List.append_nil]
              exact .failed hblank hlive hcall hsalvage

theorem destroy_course {r : Except PerformError Unit}
    (h : (setup.destroy s).Runs log (r, s')) :
    setup.Course .destroy log (.destroyed r) s s' := by
  by_cases hl : s.lifecycle = .tornDown
  · rw [destroy_of_tornDown hl] at h
    obtain ⟨rfl, hr⟩ := h
    cases hr
    exact .goneAlready hl
  · unfold destroy at h
    rw [if_neg hl] at h
    obtain ⟨t, log₁, log₂, rfl, hcancel, h⟩ := Task.runs_bind.mp h
    obtain ⟨rfl, rfl⟩ := Slot.runs_cancelTimer hcancel
    cases hlive : s.live with
    | none =>
        rw [hlive] at h
        obtain ⟨rfl, hr⟩ := h
        cases hr
        rw [List.append_nil]
        exact .goneIdle hl hlive
    | some i =>
        rw [hlive] at h
        obtain ⟨⟨finished, i'⟩, log₁, log₂, rfl, hfinish, h⟩ := Task.runs_bind.mp h
        cases finished with
        | ok _ =>
            obtain ⟨rfl, hr⟩ := h
            cases hr
            rw [List.append_nil]
            exact .gone hl hlive hfinish
        | error e =>
            obtain ⟨answer, log₂, log₃, rfl, hsalvage, rfl, hr⟩ := Task.runs_bind.mp h
            cases hr
            rw [List.append_nil]
            exact .goneFailing hl hlive hfinish hsalvage

theorem flushFromTimer_course {generation : Nat}
    (h : (flushFromTimer generation s).Runs log s') :
    setup.Course (.fire generation) log .fired s s' := by
  by_cases hstale : s.timer.map ArmedTimer.generation ≠ some generation
  · unfold flushFromTimer at h
    rw [if_pos hstale] at h
    obtain ⟨rfl, rfl⟩ := h
    exact .stale hstale
  · obtain ⟨timer, htimer, rfl⟩ := Option.map_eq_some_iff.mp
      (Decidable.not_not.mp hstale)
    unfold flushFromTimer at h
    rw [if_neg hstale] at h
    cases hlive : s.live with
    | none =>
        rw [hlive] at h
        obtain ⟨rfl, rfl⟩ := h
        exact .firedIdle htimer hlive
    | some i =>
        rw [hlive] at h
        obtain ⟨⟨flushed, i'⟩, log₁, log₂, rfl, hflush, h⟩ := Task.runs_bind.mp h
        cases flushed with
        | ok _ =>
            obtain ⟨rfl, rfl⟩ := h
            rw [List.append_nil]
            exact .flushed htimer hlive hflush
        | error e =>
            obtain ⟨answer, log₂, log₃, rfl, hsalvage, rfl, rfl⟩ := Task.runs_bind.mp h
            rw [List.append_nil]
            exact .unflushed htimer hlive hflush hsalvage

theorem Sourced.source {operation : Operation} {bytes : ByteArray}
    (h : setup.Sourced operation log bytes) : setup.Source operation bytes := by
  cases h with
  | given => exact .given bytes
  | read hread => exact .read hread.ends

theorem Course.step {operation : Operation} {answer : Answer}
    (h : setup.Course operation log answer s s') :
    setup.Step operation answer s s' := by
  cases h with
  | unreadable hread => exact .unreadable hread.ends
  | uncompiled hsource hcompile => exact .uncompiled hsource.source hcompile
  | rejected hsource hcompile hl => exact .rejected hsource.source hcompile hl
  | installed hsource hcompile hl => exact .installed hsource.source hcompile hl
  | readyAlready hl => exact .readyAlready hl
  | initialized hl hcore hmade hcall =>
      exact .initialized hl hcore hmade.ends hcall.ends
  | unmade hl => exact .uninitialized (by simp [hl]) (.inl hl)
  | stillborn hl => exact .uninitialized (by simp [hl]) (.inl hl)
  | unprepared hl =>
      rcases hl with ⟨hl, -⟩ | ⟨-, hready, he⟩
      · exact .uninitialized (by simp [hl]) (.inl hl)
      · exact .uninitialized hready (.inr he)
  | blank hblank => exact .blank hblank
  | notLive hblank hlive => exact .notLive hblank hlive
  | performed hblank hlive hcall harm =>
      exact .performed hblank hlive hcall.ends (Slot.armed_of_runs harm)
  | failed hblank hlive hcall hsalvage =>
      cases Instance.ends_salvage hsalvage.ends
      exact .failed hblank hlive hcall.ends
  | goneAlready hl => exact .goneAlready hl
  | goneIdle hl hlive => exact .goneIdle hl hlive
  | gone hl hlive hfinish => exact .gone hl hlive hfinish.ends
  | goneFailing hl hlive hfinish hsalvage =>
      cases Instance.ends_salvage hsalvage.ends
      exact .goneFailing hl hlive hfinish.ends
  | stale h => exact .stale h
  | firedIdle htimer hlive => exact .firedIdle htimer hlive
  | flushed htimer hlive hflush => exact .flushed htimer hlive hflush.ends
  | unflushed htimer hlive hflush => exact .unflushed htimer hlive hflush.ends

/-- An operation that comes to its end has taken a course. -/
theorem carryOut_course {operation : Operation} {answer : Answer}
    (h : (setup.carryOut operation s).Runs log (answer, s')) :
    setup.Course operation log answer s s' := by
  cases operation with
  | load bytes =>
      obtain ⟨rfl, hr⟩ := h
      cases hr
      exact setup.load_course (.given bytes) s
  | loadFrom path =>
      obtain ⟨⟨r, t⟩, log₁, log₂, rfl, hruns, rfl, hr⟩ := Task.runs_bind.mp h
      cases hr
      rw [List.append_nil]
      exact loadFrom_course hruns
  | init =>
      obtain ⟨⟨r, t⟩, log₁, log₂, rfl, hruns, rfl, hr⟩ := Task.runs_bind.mp h
      cases hr
      rw [List.append_nil]
      exact init_course hruns
  | perform request =>
      obtain ⟨⟨r, t⟩, log₁, log₂, rfl, hruns, rfl, hr⟩ := Task.runs_bind.mp h
      cases hr
      rw [List.append_nil]
      exact perform_course hruns
  | destroy =>
      obtain ⟨⟨r, t⟩, log₁, log₂, rfl, hruns, rfl, hr⟩ := Task.runs_bind.mp h
      cases hr
      rw [List.append_nil]
      exact destroy_course hruns
  | fire generation =>
      obtain ⟨t, log₁, log₂, rfl, hruns, rfl, hr⟩ := Task.runs_bind.mp h
      cases hr
      rw [List.append_nil]
      exact flushFromTimer_course hruns

theorem carryOut_step {operation : Operation} {answer : Answer}
    (h : (setup.carryOut operation s).Ends (answer, s')) :
    setup.Step operation answer s s' := by
  obtain ⟨log, hruns⟩ := h.runs
  exact (carryOut_course hruns).step

end Setup

end Resumable
