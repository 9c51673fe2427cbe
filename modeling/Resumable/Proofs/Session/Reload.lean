import Resumable.Proofs.Session.Story
import Resumable.Scripted.Scene

namespace Resumable

theorem EventKind.total_forward (kind : EventKind) (events : List String) :
    (kind.forward events).Total := by
  unfold forward
  split
  · trivial
  · exact (Task.total_request _).bind fun _ => Task.total_pure _

namespace Instance

variable {G : Type}

theorem total_salvage (i : Instance G) (e : CallError) : (i.salvage e).Total := by
  refine (i.total_act _).bind fun reset => (total_act _ _).bind fun dump => ?_
  refine (total_act _ _).bind fun metrics => ?_
  exact (EventKind.total_forward _ _).bind fun _ =>
    (EventKind.total_forward _ _).bind fun _ => trivial

end Instance

namespace Slot

variable {G : Type}

theorem total_cancelTimer (s : Slot G) : s.cancelTimer.Total := by
  unfold cancelTimer
  split
  · trivial
  · exact (Task.total_request _).bind fun _ => Task.total_pure _

theorem total_armTimer (config : RuntimeConfig) (s : Slot G) :
    (s.armTimer config).Total := by
  unfold armTimer
  split
  · trivial
  · exact (Task.total_request _).bind fun _ => Task.total_pure _

/-- A session that was ready has given its instance up, and has cleared the timer
that was armed. -/
structure Discards (s : Slot G) (log : List Exchange) (s' : Slot G) : Prop where
  ready : s.lifecycle = .ready
  live : s.live.isSome
  lifecycle : s'.lifecycle = .compiled
  compiled : s'.compiled = s.compiled
  given_up : s'.live = none
  unarmed : s'.timer = none
  cleared : ∀ timer, s.timer = some timer → ⟨.clearTimer timer.id, ()⟩ ∈ log

theorem mem_clearing {s : Slot G} {timer : ArmedTimer} (h : s.timer = some timer) :
    ⟨.clearTimer timer.id, ()⟩ ∈ s.clearing := by
  rw [clearing, h]
  exact List.mem_singleton_self _

end Slot

namespace PerformState

theorem requiresReload_of_result {state : PerformState} {e : PerformError}
    (h : state.result = .error e) : e.requiresReload = false := by
  unfold result at h
  split at h
  · cases h
  · cases h
    rfl
  · cases h
    unfold PerformError.ofException
    split <;> rfl
  · cases h
    rfl

end PerformState

namespace Setup

variable {G : Type} {setup : Setup G} {request : PerformRequest} {s s' : Slot G}
  {log : List Exchange} {r : Except PerformError Json}

/-- A perform has called into the live instance; what the call came to, and what it
made of the instance. -/
def Called (setup : Setup G) (request : PerformRequest) (s : Slot G)
    (log : List Exchange) (called : Except CallError PerformState)
    (i' : Instance G) : Prop :=
  request.firstBlank? = none ∧ ∃ i log₁ log₂, s.live = some i ∧ log = log₁ ++ log₂ ∧
    (i.perform setup.fuel request).Runs log₁ (called, i')

theorem Called.unique {called called' : Except CallError PerformState}
    {i i' : Instance G} (h : setup.Called request s log called i)
    (h' : setup.Called request s log called' i') : called = called' ∧ i = i' := by
  obtain ⟨-, j, log₁, log₂, hlive, hlog, hcall⟩ := h
  obtain ⟨-, j', log₁', log₂', hlive', hlog', hcall'⟩ := h'
  rw [hlive] at hlive'
  cases hlive'
  obtain ⟨-, heq, -⟩ := hcall.eq_of_append hcall' (hlog.symm.trans hlog')
  cases heq
  exact ⟨rfl, rfl⟩

theorem Called.accepted {called : Except CallError PerformState} {i : Instance G}
    (h : setup.Called request s log called i) :
    request.firstBlank? = none ∧ s.live.isSome := by
  obtain ⟨hblank, j, _, _, hlive, -⟩ := h
  rw [hlive]
  exact ⟨hblank, rfl⟩

theorem total_perform
    (h : ∀ i, s.live = some i → (i.perform setup.fuel request).Total) :
    (setup.perform request s).Total := by
  cases hblank : request.firstBlank? with
  | some field =>
      rw [perform_of_blank hblank]
      trivial
  | none =>
      cases hlive : s.live with
      | none =>
          rw [perform_of_none hblank hlive]
          trivial
      | some i =>
          unfold perform
          rw [hblank, hlive]
          refine (h i hlive).bind fun called => ?_
          rcases called with ⟨e | state, i'⟩
          · refine s.total_cancelTimer.bind fun _ => ?_
            exact (i'.total_salvage e).bind fun _ => Task.total_pure _
          · exact (Slot.total_armTimer _ _).bind fun _ => Task.total_pure _

/-- The ways in which a perform comes to its end: it is refused, its call completes,
or its call fails. -/
inductive Performs (setup : Setup G) (request : PerformRequest) (s : Slot G)
    (log : List Exchange) : Except PerformError Json → Slot G → Prop where
  | refused {e : PerformError} (he : e.requiresReload = false)
      (hrefused : ¬ (request.firstBlank? = none ∧ s.live.isSome)) :
      Performs setup request s log (.error e) s
  | completed {state : PerformState} {i' : Instance G} {s' : Slot G}
      (hcalled : setup.Called request s log (.ok state) i')
      (hlifecycle : s'.lifecycle = s.lifecycle) (hcompiled : s'.compiled = s.compiled)
      (hlive : s'.live = some i') (harmed : s'.timer.isSome) :
      Performs setup request s log state.result s'
  | failed {e : CallError} {i' : Instance G}
      (hcalled : setup.Called request s log (.error e) i') (hlive : s.live.isSome)
      (hcleared : ∀ timer, s.timer = some timer → ⟨.clearTimer timer.id, ()⟩ ∈ log) :
      Performs setup request s log (.error (.unexpected e.kind (CallError.message e)))
        s.discarded

theorem performs_of_runs (h : (setup.perform request s).Runs log (r, s')) :
    setup.Performs request s log r s' := by
  cases perform_course h with
  | blank hblank => exact .refused rfl (by simp [hblank])
  | notLive hblank hlive => exact .refused rfl (by simp [hlive])
  | @performed log₁ log₂ _ _ _ i i' state hblank hlive hcall harm =>
      have hcalled : setup.Called request s (log₁ ++ log₂) (.ok state) i' :=
        ⟨hblank, i, log₁, log₂, hlive, rfl, hcall⟩
      obtain ⟨⟨timer, htimer⟩, rfl, rfl⟩ | ⟨-, id, rfl, rfl⟩ := Slot.runs_armTimer harm
      · exact .completed hcalled rfl rfl rfl (by rw [htimer]; rfl)
      · exact .completed hcalled rfl rfl rfl rfl
  | failed hblank hlive hcall hsalvage =>
      cases Instance.ends_salvage hsalvage.ends
      refine .failed ⟨hblank, _, _, _, hlive, rfl, hcall⟩ (by rw [hlive]; rfl) ?_
      intro timer htimer
      exact List.mem_append_right _ (List.mem_append_left _ (Slot.mem_clearing htimer))

theorem requiresReload_of_failed (e : CallError) :
    (PerformError.unexpected e.kind (CallError.message e)).requiresReload = true := by
  cases e <;> rfl

/-- A perform that is accepted and does not ask for a new core has
completed its call. -/
theorem called_of_accepted (hruns : (setup.perform request s).Runs log (r, s'))
    (h : request.firstBlank? = none ∧ s.live.isSome)
    (hr : ∀ e, r = .error e → e.requiresReload = false) :
    ∃ state i, setup.Called request s log (.ok state) i := by
  cases performs_of_runs hruns with
  | refused _ hrefused => exact absurd h hrefused
  | completed hcalled => exact ⟨_, _, hcalled⟩
  | failed =>
      have := hr _ rfl
      rw [requiresReload_of_failed] at this
      cases this

theorem discarded_of_requiresReload {e : PerformError}
    (hruns : (setup.perform request s).Runs log (.error e, s'))
    (he : e.requiresReload = true) : s' = s.discarded := by
  generalize hr : (Except.error e : Except PerformError Json) = r at hruns
  cases performs_of_runs hruns with
  | refused he' =>
      cases hr
      rw [he] at he'
      cases he'
  | completed =>
      rw [PerformState.requiresReload_of_result hr.symm] at he
      cases he
  | failed => rfl

namespace Performs

variable {i' : Instance G}

theorem reload_iff (hs : s.Consistent) (h : setup.Performs request s log r s') :
    (∃ e, r = .error e ∧ e.requiresReload = true) ↔ s.Discards log s' := by
  cases h with
  | refused he =>
      refine ⟨?_, ?_⟩
      · rintro ⟨_, ⟨⟩, hreload⟩
        rw [he] at hreload
        cases hreload
      · intro hd
        have := hd.lifecycle
        rw [hd.ready] at this
        cases this
  | completed _ _ _ hlive =>
      refine ⟨?_, ?_⟩
      · rintro ⟨e, hr, hreload⟩
        rw [PerformState.requiresReload_of_result hr] at hreload
        cases hreload
      · intro hd
        have := hd.given_up
        rw [hlive] at this
        cases this
  | @failed e _ _ hlive hcleared =>
      obtain ⟨i, hi⟩ := Option.isSome_iff_exists.mp hlive
      exact ⟨fun _ => ⟨hs.ready_of_live hi, hlive, rfl, rfl, rfl, rfl, hcleared⟩,
        fun _ => ⟨_, rfl, requiresReload_of_failed e⟩⟩

theorem unchanged (h : setup.Performs request s log r s')
    (hr : ∀ e, r = .error e → e.requiresReload = false) :
    s'.lifecycle = s.lifecycle ∧ s'.compiled = s.compiled ∧
      (s'.live = s.live ∨ ∃ state i', setup.Called request s log (.ok state) i' ∧
        s'.live = some i') := by
  cases h with
  | refused => exact ⟨rfl, rfl, .inl rfl⟩
  | completed hcalled hlifecycle hcompiled hlive =>
      exact ⟨hlifecycle, hcompiled, .inr ⟨_, _, hcalled, hlive⟩⟩
  | @failed e =>
      have := hr _ rfl
      rw [requiresReload_of_failed e] at this
      cases this

theorem answer (h : setup.Performs request s log r s')
    {called : Except CallError PerformState}
    (hcalled : setup.Called request s log called i') :
    r = PerformError.ofCall called := by
  cases h with
  | refused _ hrefused => exact absurd hcalled.accepted hrefused
  | completed hcalled' | failed hcalled' =>
      cases (hcalled.unique hcalled').1
      rfl

/-- An answer of a kind that asks for a new core comes from a failed call
of that kind. -/
theorem called_of_kind (h : setup.Performs request s log r s') {kind : UnexpectedKind}
    {message : String} (hkind : kind.requiresReload = true)
    (hr : r = .error (.unexpected kind message)) :
    ∃ e i', setup.Called request s log (.error e) i' ∧ e.kind = kind := by
  cases h with
  | refused he =>
      cases hr
      rw [PerformError.requiresReload, hkind] at he
      cases he
  | completed =>
      have := PerformState.requiresReload_of_result hr
      rw [PerformError.requiresReload, hkind] at this
      cases this
  | failed hcalled =>
      cases hr
      exact ⟨_, _, hcalled, rfl⟩

end Performs

/-- A perform comes to its end if its call into the core does. Its answer asks for
a new instance just if the session was ready and has given its instance up.
Otherwise the session is as before, the instance being that which a completed call
has left. A failed call is answered as a bridge violation if it was one, as a trap
if not, whatever the use case had reported by then; what a completed call reported
is the answer. -/
theorem requiresReload_iff_discards (h : setup.Reachable s) (request : PerformRequest) :
    ((∀ i, s.live = some i → (i.perform setup.fuel request).Total) →
        (setup.perform request s).Total) ∧
      ∀ log r s', (setup.perform request s).Runs log (r, s') →
        ((∃ e, r = .error e ∧ e.requiresReload = true) ↔ s.Discards log s') ∧
        ((∀ e, r = .error e → e.requiresReload = false) →
          s'.lifecycle = s.lifecycle ∧ s'.compiled = s.compiled ∧
            (s'.live = s.live ∨ ∃ state i', setup.Called request s log (.ok state) i' ∧
              s'.live = some i')) ∧
        ((∃ message, r = .error (.unexpected .bridgeViolation message)) ↔
          ∃ v i', setup.Called request s log (.error (.violation v)) i') ∧
        ((∃ message, r = .error (.unexpected .trap message)) ↔
          ∃ fault i', setup.Called request s log (.error (.other fault)) i') ∧
        (∀ e i', setup.Called request s log (.error e) i' →
          r = .error (.unexpected e.kind (CallError.message e))) ∧
        ∀ state i', setup.Called request s log (.ok state) i' → r = state.result := by
  refine ⟨total_perform, ?_⟩
  intro log r s' hruns
  have hperforms := performs_of_runs hruns
  refine ⟨hperforms.reload_iff h.consistent, hperforms.unchanged, ⟨?_, ?_⟩,
    ⟨?_, ?_⟩, ?_, ?_⟩
  · rintro ⟨message, hr⟩
    obtain ⟨e, i', hcalled, hkind⟩ := hperforms.called_of_kind rfl hr
    cases e with
    | violation v => exact ⟨v, i', hcalled⟩
    | other fault => cases hkind
  · rintro ⟨v, i', hcalled⟩
    exact ⟨_, hperforms.answer hcalled⟩
  · rintro ⟨message, hr⟩
    obtain ⟨e, i', hcalled, hkind⟩ := hperforms.called_of_kind rfl hr
    cases e with
    | violation v => cases hkind
    | other fault => exact ⟨fault, i', hcalled⟩
  · rintro ⟨fault, i', hcalled⟩
    exact ⟨_, hperforms.answer hcalled⟩
  · intro e i' hcalled
    exact hperforms.answer hcalled
  · intro state i' hcalled
    exact hperforms.answer hcalled

def tiringCore : Core Bool where
  create := .ok ⟨.ofPages 1, false⟩
  start := none
  exports := .ok
    { getState := fun s => (.ok 0, s)
      startUnwind := fun _ s => (.ok (), s)
      stopUnwind := fun s => (.ok (), s)
      startRewind := fun _ s => (.ok (), s)
      stopRewind := fun s => (.ok (), s)
      setup := fun s => .finish s ()
      teardown := fun s => .finish s ()
      perform := fun s => if s.globals then .trap s .unreachable
        else .finish { s with globals := true } ()
      getMetrics := fun s => .finish s 0
      clearMetrics := fun s => .finish s ()
      getDeveloperDump := fun s => .finish s 0 }

def tiring : Setup Bool := ⟨{}, fun _ => some tiringCore, 0⟩

def wantsReload : Except PerformError Json → Bool
  | .ok _ => false
  | .error e => e.requiresReload

/-- The second perform traps, gives the instance up and clears the timer that the
first has armed. -/
theorem tiring_discards_at_second_perform :
    ∃ s r log s', tiring.Reachable s ∧ s.timer.isSome ∧
      (tiring.perform
        { profileUrl := "p", providerUrl := "v", mapUrl := "m", usecase := "u" }
        s).Runs log (r, s') ∧ s.Discards log s' := by
  let request : PerformRequest :=
    { profileUrl := "p", providerUrl := "v", mapUrl := "m", usecase := "u" }
  have hrun : (((tiring.answerAfter [.load .empty, .init, .perform request] request).run
      Scripted.Scene.serve (.bare [])).any
        fun ended => ended.1.1.timer.isSome && wantsReload ended.1.2) = true := by
    decide +kernel
  obtain ⟨past, s, r, log, s', hstory, hruns, hcheck⟩ :=
    exists_story_of_run (p := fun s r => s.timer.isSome && wantsReload r) hrun
  obtain ⟨htimer, hwants⟩ := Bool.and_eq_true_iff.mp hcheck
  have hreload :=
    ((requiresReload_iff_discards hstory.reachable request).2 log r s' hruns).1
  cases r with
  | ok value => cases hwants
  | error e =>
      exact ⟨s, _, log, s', hstory.reachable, htimer, hruns,
        hreload.mp ⟨e, rfl, hwants⟩⟩

end Setup

end Resumable
