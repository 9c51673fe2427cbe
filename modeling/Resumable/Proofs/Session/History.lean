import Resumable.Proofs.Session.Courses

namespace Resumable

/-- The parts of a slot agree with how far the session is. -/
structure Slot.Consistent {G : Type} (s : Slot G) : Prop where
  live_iff : s.live.isSome ↔ s.lifecycle = .ready
  compiled_iff : s.compiled.isSome ↔ s.lifecycle = .compiled ∨ s.lifecycle = .ready
  ready_of_timer : s.timer.isSome → s.lifecycle = .ready

namespace Slot.Consistent

variable {G : Type} {s s' : Slot G}

theorem empty : (Slot.empty : Slot G).Consistent where
  live_iff := by simp [Slot.empty]
  compiled_iff := by simp [Slot.empty]
  ready_of_timer := by simp [Slot.empty]

theorem live_of_ready (h : s.Consistent) (hl : s.lifecycle = .ready) :
    ∃ i, s.live = some i :=
  Option.isSome_iff_exists.mp (h.live_iff.mpr hl)

theorem ready_of_live (h : s.Consistent) {i : Instance G} (hlive : s.live = some i) :
    s.lifecycle = .ready :=
  h.live_iff.mp (by rw [hlive]; rfl)

theorem not_live (h : s.Consistent) (hl : s.lifecycle ≠ .ready) : s.live = none := by
  cases hlive : s.live with
  | none => rfl
  | some i => exact absurd (h.ready_of_live hlive) hl

theorem not_armed (h : s.Consistent) (hl : s.lifecycle ≠ .ready) : s.timer = none := by
  cases htimer : s.timer with
  | none => rfl
  | some timer => exact absurd (h.ready_of_timer (by rw [htimer]; rfl)) hl

theorem installed (h : s.Consistent) (hl : s.lifecycle ≠ .ready) (core : Core G) :
    (s.installed core).Consistent where
  live_iff := by simp [Slot.installed, h.not_live hl]
  compiled_iff := by simp [Slot.installed]
  ready_of_timer := by simp [Slot.installed, h.not_armed hl]

theorem initialized (h : s.Consistent) (hl : s.lifecycle = .compiled) (i : Instance G) :
    (s.initialized i).Consistent where
  live_iff := by simp [Slot.initialized]
  compiled_iff := by simp [Slot.initialized, h.compiled_iff, hl]
  ready_of_timer := by simp [Slot.initialized]

theorem discarded (h : s.Consistent) (hl : s.lifecycle = .ready) :
    s.discarded.Consistent where
  live_iff := by simp [Slot.discarded]
  compiled_iff := by simp [Slot.discarded, h.compiled_iff, hl]
  ready_of_timer := by simp [Slot.discarded]

theorem gone : s.gone.Consistent where
  live_iff := by simp [Slot.gone]
  compiled_iff := by simp [Slot.gone]
  ready_of_timer := by simp [Slot.gone]

theorem of_ready (h : s.Consistent) (hl : s.lifecycle = .ready) (i : Instance G)
    (timer : Option ArmedTimer) (nextGeneration : Nat) :
    ({ s with live := some i, timer, nextGeneration } : Slot G).Consistent where
  live_iff := by simp [hl]
  compiled_iff := h.compiled_iff
  ready_of_timer := fun _ => hl

theorem armed (h : s.Consistent) (hl : s.lifecycle = .ready) {i : Instance G}
    (harm : { s with live := some i }.Armed s') : s'.Consistent := by
  cases harm with
  | before timer htimer => exact h.of_ready hl i s.timer s.nextGeneration
  | now htimer id => exact h.of_ready hl i _ _

end Slot.Consistent

namespace PerformError

def ofCall : Except CallError PerformState → Except PerformError Json
  | .ok state => state.result
  | .error e => .error (.unexpected e.kind (CallError.message e))

theorem ofCall_ne_lifecycle (called : Except CallError PerformState)
    (message : String) : ofCall called ≠ .error (.unexpected .lifecycle message) := by
  rcases called with (v | fault) | ⟨request, _ | value | value | exception⟩
  · simp [ofCall, Failure.kind]
  · simp [ofCall, Failure.kind]
  · simp [ofCall, PerformState.result]
  · simp [ofCall, PerformState.result]
  · simp [ofCall, PerformState.result]
  · simp only [ofCall, PerformState.result, PerformError.ofException]
    split <;> simp

end PerformError

namespace Setup

variable {G : Type} {setup : Setup G} {s s' : Slot G} {operation : Operation}
  {answer : Answer}

/-- The slots that a session may come to have. -/
inductive Reachable (setup : Setup G) : Slot G → Prop where
  | empty : Reachable setup .empty
  | step {s s' : Slot G} {operation : Operation} {answer : Answer}
      (h : Reachable setup s)
      (ends : (setup.carryOut operation s).Ends (answer, s')) : Reachable setup s'

def carryOutAll (setup : Setup G) : List Operation → Slot G → Task (Slot G)
  | [], s => return s
  | operation :: rest, s => do
      let (_, s) ← setup.carryOut operation s
      setup.carryOutAll rest s

theorem Reachable.all (operations : List Operation) (h : setup.Reachable s)
    (ends : (setup.carryOutAll operations s).Ends s') : setup.Reachable s' := by
  induction operations generalizing s with
  | nil =>
      cases ends
      exact h
  | cons operation rest ih =>
      obtain ⟨⟨answer, t⟩, hfirst, hrest⟩ := Task.ends_bind.mp ends
      exact ih (.step h hfirst) hrest

def answerAfter (setup : Setup G) (operations : List Operation)
    (request : PerformRequest) : Task (Slot G × Except PerformError Json) := do
  let s ← setup.carryOutAll operations .empty
  let (answer, _) ← setup.perform request s
  return (s, answer)

theorem reachable_of_answerAfter {operations : List Operation}
    {request : PerformRequest} {r : Except PerformError Json}
    (h : (setup.answerAfter operations request).Ends (s, r)) :
    setup.Reachable s ∧ ∃ s', (setup.perform request s).Ends (r, s') := by
  obtain ⟨t, hall, h⟩ := Task.ends_bind.mp h
  obtain ⟨⟨answer, s'⟩, hperform, h⟩ := Task.ends_bind.mp h
  cases h
  exact ⟨Reachable.empty.all operations hall, s', hperform⟩

namespace Step

theorem consistent (hstep : setup.Step operation answer s s') (h : s.Consistent) :
    s'.Consistent := by
  cases hstep with
  | unreadable | uncompiled | rejected | readyAlready | uninitialized | blank
      | notLive | goneAlready
  | stale => exact h
  | installed _ _ hl => exact h.installed (by rcases hl with hl | hl <;> simp [hl]) _
  | initialized hl => exact h.initialized hl _
  | performed _ hlive _ harm => exact h.armed (h.ready_of_live hlive) harm
  | failed _ hlive => exact h.discarded (h.ready_of_live hlive)
  | goneIdle | gone | goneFailing => exact .gone
  | firedIdle htimer hlive =>
      have hl := h.ready_of_timer (by rw [htimer]; rfl)
      obtain ⟨i, hi⟩ := h.live_of_ready hl
      rw [hi] at hlive
      cases hlive
  | flushed _ hlive => exact h.of_ready (h.ready_of_live hlive) _ _ _
  | unflushed _ hlive => exact h.discarded (h.ready_of_live hlive)

theorem of_tornDown (hstep : setup.Step operation answer s s') (h : s.Consistent)
    (hl : s.lifecycle = .tornDown) : s' = s := by
  have hlive : s.live = none := h.not_live (by simp [hl])
  have htimer : s.timer = none := h.not_armed (by simp [hl])
  cases hstep with
  | unreadable | uncompiled | rejected | readyAlready | uninitialized | blank
      | notLive | goneAlready
  | stale => rfl
  | installed _ _ hl' => simp [hl] at hl'
  | initialized hl' => simp [hl] at hl'
  | performed _ hlive' => simp [hlive] at hlive'
  | failed _ hlive' => simp [hlive] at hlive'
  | goneIdle hl' => exact absurd hl hl'
  | gone hl' => exact absurd hl hl'
  | goneFailing hl' => exact absurd hl hl'
  | firedIdle htimer' => simp [htimer] at htimer'
  | flushed htimer' => simp [htimer] at htimer'
  | unflushed htimer' => simp [htimer] at htimer'

theorem becomes_ready (hstep : setup.Step operation answer s s') (h : s.Consistent)
    (hl : s.lifecycle ≠ .ready) (hl' : s'.lifecycle = .ready) :
    operation = .init ∧ answer = .initialized (.ok ()) := by
  have hlive : s.live = none := h.not_live hl
  have htimer : s.timer = none := h.not_armed hl
  cases hstep with
  | unreadable | uncompiled | rejected | readyAlready | uninitialized | blank
      | notLive | goneAlready
  | stale => exact absurd hl' hl
  | installed => simp [Slot.installed] at hl'
  | initialized => exact ⟨rfl, rfl⟩
  | performed _ hlive' => simp [hlive] at hlive'
  | failed _ hlive' => simp [hlive] at hlive'
  | goneIdle | gone | goneFailing => simp [Slot.gone] at hl'
  | firedIdle htimer' => simp [htimer] at htimer'
  | flushed htimer' => simp [htimer] at htimer'
  | unflushed htimer' => simp [htimer] at htimer'

end Step

theorem Reachable.consistent (h : setup.Reachable s) : s.Consistent := by
  induction h with
  | empty => exact .empty
  | step _ ends ih => exact (carryOut_step ends).consistent ih

structure Closed (setup : Setup G) (s : Slot G) : Prop where
  unchanged : ∀ operation answer s', (setup.carryOut operation s).Ends (answer, s') →
    s' = s
  init : setup.init s =
    return (.error (.unexpected .lifecycle "runtime has been destroyed"), s)
  perform : ∀ request, request.firstBlank? = none →
    setup.perform request s =
      return (.error (.unexpected .lifecycle "runtime has been destroyed"), s)
  load : ∀ bytes core, setup.compile bytes = some core →
    setup.load bytes s = (.error .destroyed, s)
  loadFrom : ∀ path, setup.loadFrom path s = do
    match ← readFile setup.fuel path with
    | .error e => return (.error e, s)
    | .ok bytes =>
        return (.error
          (if (setup.compile bytes).isSome then .destroyed else .compile), s)
  destroy : setup.destroy s = return (.ok (), s)

theorem load_of_tornDown (hl : s.lifecycle = .tornDown) (setup : Setup G)
    (bytes : ByteArray) : setup.load bytes s =
      (.error (if (setup.compile bytes).isSome then .destroyed else .compile), s) := by
  rw [Setup.load, compileCore]
  cases setup.compile bytes with
  | none => rfl
  | some core =>
      change s.install core = _
      rw [Slot.install, hl]
      rfl

theorem closed_of_tornDown (h : s.Consistent) (hl : s.lifecycle = .tornDown)
    (setup : Setup G) : setup.Closed s where
  unchanged := fun _ _ _ ends => (carryOut_step ends).of_tornDown h hl
  init := by
    rw [Setup.init, hl]
    rfl
  perform := by
    intro request hblank
    rw [perform_of_none hblank (h.not_live (by simp [hl])), hl]
    rfl
  load := by
    intro bytes core hcompile
    rw [load_of_tornDown hl, hcompile]
    rfl
  loadFrom := by
    intro path
    refine congrArg _ (funext fun read => ?_)
    cases read with
    | error e => rfl
    | ok bytes =>
        change pure (setup.load bytes s) = _
        rw [load_of_tornDown hl]
  destroy := destroy_of_tornDown hl setup

/-- A perform runs on an instance and answers what that comes to. -/
def HandsOver (setup : Setup G) (request : PerformRequest) (s : Slot G)
    (i : Instance G) : Prop :=
  ∃ rest, setup.perform request s = i.perform setup.fuel request >>= rest ∧
    ∀ called i' r s', (rest (called, i')).Ends (r, s') → r = PerformError.ofCall called

theorem handsOver_of_live {request : PerformRequest} {i : Instance G}
    (hblank : request.firstBlank? = none) (hlive : s.live = some i) :
    setup.HandsOver request s i := by
  unfold HandsOver perform
  rw [hblank, hlive]
  refine ⟨_, rfl, ?_⟩
  intro called i' r s' h
  cases called with
  | ok state =>
      obtain ⟨_, _, h⟩ := Task.ends_bind.mp h
      cases h
      rfl
  | error e =>
      obtain ⟨_, _, h⟩ := Task.ends_bind.mp h
      obtain ⟨answer, hsalvage, h⟩ := Task.ends_bind.mp h
      cases Instance.ends_salvage hsalvage
      cases h
      rfl

theorem HandsOver.result_eq {request : PerformRequest} {i : Instance G}
    {r : Except PerformError Json} (h : setup.HandsOver request s i)
    (ends : (setup.perform request s).Ends (r, s')) :
    ∃ called, r = PerformError.ofCall called := by
  obtain ⟨rest, hperform, hrest⟩ := h
  rw [hperform] at ends
  obtain ⟨⟨called, i'⟩, _, ends⟩ := Task.ends_bind.mp ends
  exact ⟨called, hrest called i' r s' ends⟩

/-- Wherever a session gets to, its slot is consistent. Once it is torn down nothing
changes any more and everything is refused. A request with a blank locator is refused
for that, however far the session is; any other runs on the live instance of a ready
session, and is refused for want of one elsewhere. Only a successful initialization
makes a session ready. -/
theorem reachable_lifecycle (h : setup.Reachable s) :
    s.Consistent ∧
      (s.lifecycle = .tornDown → setup.Closed s) ∧
      (∀ (request : PerformRequest) (field : String), request.firstBlank? = some field →
        setup.perform request s = return (.error
          (.validation "PerformRequestValidationError" s!"{field} must not be empty"),
            s)) ∧
      (∀ request : PerformRequest, request.firstBlank? = none →
        (s.lifecycle = .ready → ∃ i, s.live = some i ∧ setup.HandsOver request s i) ∧
        (s.lifecycle ≠ .ready →
          setup.perform request s = return (.error s.lifecycle.notReady, s)) ∧
        ∀ r s', (setup.perform request s).Ends (r, s') →
          ((∃ message, r = .error (.unexpected .lifecycle message)) ↔
            s.lifecycle ≠ .ready)) ∧
      ∀ operation answer s', (setup.carryOut operation s).Ends (answer, s') →
        s.lifecycle ≠ .ready → s'.lifecycle = .ready →
          operation = .init ∧ answer = .initialized (.ok ()) := by
  have hs := h.consistent
  refine ⟨hs, fun hl => closed_of_tornDown hs hl setup, ?_, ?_, ?_⟩
  · intro request field hblank
    exact perform_of_blank hblank setup s
  · intro request hblank
    have hrefused (hl : s.lifecycle ≠ .ready) :
        setup.perform request s = return (.error s.lifecycle.notReady, s) :=
      perform_of_none hblank (hs.not_live hl) setup
    have hhanded (hl : s.lifecycle = .ready) : ∃ i, s.live = some i ∧
        setup.HandsOver request s i := by
      obtain ⟨i, hlive⟩ := hs.live_of_ready hl
      exact ⟨i, hlive, handsOver_of_live hblank hlive⟩
    refine ⟨hhanded, hrefused, ?_⟩
    intro r s' ends
    constructor
    · rintro ⟨message, rfl⟩ hl
      obtain ⟨i, _, hover⟩ := hhanded hl
      obtain ⟨called, hr⟩ := hover.result_eq ends
      exact PerformError.ofCall_ne_lifecycle called message hr.symm
    · intro hl
      rw [hrefused hl] at ends
      cases ends
      exact ⟨_, rfl⟩
  · intro operation answer s' ends hl hl'
    exact (carryOut_step ends).becomes_ready hs hl hl'

def quietCore : Core Unit where
  create := .ok ⟨.ofPages 1, ()⟩
  start := none
  exports := .ok
    { getState := fun s => (.ok 0, s)
      startUnwind := fun _ s => (.ok (), s)
      stopUnwind := fun s => (.ok (), s)
      startRewind := fun _ s => (.ok (), s)
      stopRewind := fun s => (.ok (), s)
      setup := fun s => .finish s ()
      teardown := fun s => .finish s ()
      perform := fun s => .finish s ()
      getMetrics := fun s => .finish s 0
      clearMetrics := fun s => .finish s ()
      getDeveloperDump := fun s => .finish s 0 }

def quiet : Setup Unit := ⟨{}, fun _ => some quietCore, 0⟩

theorem quiet_ready_consistent :
    ∃ i, quiet.Reachable ((Slot.empty.installed quietCore).initialized i) ∧
      ((Slot.empty.installed quietCore).initialized i).Consistent ∧
      quiet.perform
        { profileUrl := "p", providerUrl := "", mapUrl := "m", usecase := "u" }
          ((Slot.empty.installed quietCore).initialized i) =
        return (.error (.validation "PerformRequestValidationError"
          "provider_url must not be empty"),
            (Slot.empty.installed quietCore).initialized i) := by
  have hload : (quiet.carryOut (.load .empty) .empty).Ends
      (.loaded (.ok ()), Slot.empty.installed quietCore) := rfl
  obtain ⟨i, hinit⟩ : ∃ i, (quiet.carryOut .init (Slot.empty.installed quietCore)).Ends
      (.initialized (.ok ()), (Slot.empty.installed quietCore).initialized i) :=
        ⟨_, rfl⟩
  have hready : quiet.Reachable ((Slot.empty.installed quietCore).initialized i) :=
    .step (.step .empty hload) hinit
  obtain ⟨hconsistent, -, hblank, -⟩ := reachable_lifecycle hready
  exact ⟨i, hready, hconsistent, hblank _ "provider_url" (by decide +kernel)⟩

/-- A request with a blank locator is refused for that, also by a session that
is torn down. -/
theorem tornDown_refuses_blank_first :
    ¬ ∀ s, quiet.Reachable s → s.lifecycle = .tornDown →
      ∀ request r s', (quiet.perform request s).Ends (r, s') →
        ∃ message, r = .error (.unexpected .lifecycle message) := by
  intro h
  have hdestroy :
      (quiet.carryOut .destroy .empty).Ends (.destroyed (.ok ()), Slot.empty.gone) :=
      rfl
  have hgone : quiet.Reachable Slot.empty.gone := .step .empty hdestroy
  obtain ⟨message, hmessage⟩ := h _ hgone rfl
    { profileUrl := "", providerUrl := "v", mapUrl := "m", usecase := "u" } _ _ rfl
  cases hmessage

end Setup

end Resumable
