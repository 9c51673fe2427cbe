import Resumable.Proofs.Service.Timers
import Resumable.Proofs.Service.Exchanges

namespace Resumable

namespace Timers

variable {A : Type}

namespace Moment

/-- A moment at which a timer fires or is cleared: its entry is not in the
table any more. -/
def ends (id : Nat) : Moment A → Bool
  | cleared k found => found && k == id
  | detached k _ => k == id
  | _ => false

def starts (id : Nat) : Moment A → Bool
  | started k _ => k == id
  | _ => false

/-- The timers that have been set and have neither fired nor been cleared. -/
def waiting (past : List (Moment A)) : List Nat :=
  ((settings past).map Prod.fst).filter fun id => !past.any (ends id)

variable {id : Nat} {past : List (Moment A)}

theorem any_ends_eq_false :
    past.any (ends id) = false ↔ .cleared id true ∉ past ∧ ∀ found,
    .detached id found ∉ past := by
  rw [List.any_eq_false]
  constructor
  · refine fun h =>
      ⟨fun hmem => h _ hmem ?_, fun found hmem => h _ hmem ?_⟩ <;> simp [ends]
  · rintro ⟨hcleared, hdetached⟩ e he hends
    cases e with
    | cleared k found =>
        obtain ⟨rfl, hk⟩ := Bool.and_eq_true_iff.mp hends
        exact hcleared (beq_iff_eq.mp hk ▸ he)
    | detached k found => exact hdetached found (beq_iff_eq.mp hends ▸ he)
    | _ => cases hends

theorem mem_waiting :
    id ∈ waiting past ↔ (∃ action, .entered id action ∈ past) ∧
    .cleared id true ∉ past ∧
      ∀ found, .detached id found ∉ past := by
  have hset : id ∈ (settings past).map Prod.fst ↔
      ∃ action, .entered id action ∈ past := by
    simp only [List.mem_map, Prod.exists, exists_and_right,
      exists_eq_right, mem_settings]
  rw [waiting, List.mem_filter, hset, Bool.not_eq_true', any_ends_eq_false]

theorem mem_course (e : Moment A) (he : e.ofTask id = true) :
    e ∈ past ↔ e ∈ course id past := by
  rw [course, List.mem_filter, and_iff_left he]

theorem mem_of_mem_course {e : Moment A} (h : e ∈ course id past) : e ∈ past :=
  (List.mem_filter.mp h).1

theorem mem_clearing (e : Moment A) (he : e.ofClear id = true) :
    e ∈ past ↔ e ∈ clearing id past := by
  rw [clearing, List.mem_filter, and_iff_left he]

theorem countP_starts :
    past.countP (starts id) = (course id past).countP (starts id) := by
  rw [course, List.countP_filter]
  refine List.countP_congr fun e _ => ?_
  cases e <;> simp [starts, ofTask]

end Moment

namespace Shared

variable {past earlier later : List (Moment A)} {s : Shared A} {e : Moment A}
  {id : Nat} {action : A}

theorem Ran.exists_before (h : Ran (earlier ++ e :: later) s) :
    ∃ s₀ s₁, Ran earlier s₀ ∧ Step s₀ e s₁ := by
  generalize hpast : earlier ++ e :: later = past at h
  induction h generalizing later with
  | start => cases earlier <;> cases hpast
  | step h hstep ih =>
      obtain ⟨rfl, rfl, rfl⟩ | ⟨rest, rfl, rfl⟩ := snoc_eq_append_cons hpast.symm
      · exact ⟨_, _, h, hstep⟩
      · exact ih rfl

namespace Course

variable {c : Clearing} {moments : List (Moment A)} {stage : TimerStage}
  {found : Bool} {other : A}

theorem of_started (h : Course id action c moments stage)
    (hmem : .started id other ∈ moments) :
    other = action ∧ .detached id (c = .untouched) ∈ moments := by
  cases h <;> simp at hmem <;> simp [hmem]

theorem of_stopped (h : Course id action c moments stage)
    (hmem : .stopped id ∈ moments) : c = .aborted := by
  cases h <;> simp at hmem
  rfl

theorem of_missed (h : Course id action c moments stage)
    (hmem : .detached id false ∈ moments) :
    c ≠ .untouched ∧ (stage = .detached ∨ .started id action ∈ moments) := by
  cases h <;> simp at hmem ⊢ <;> exact hmem

theorem of_sleeping (h : Course id action c moments .sleeping) : c ≠ .aborted := by
  cases h
  assumption

theorem of_awake (h : Course id action c moments .awake) : .woke id ∈ moments := by
  cases h
  exact List.mem_singleton_self _

theorem before_detached (h : Course id action c moments stage) (hc : c = .untouched) :
    stage = .sleeping ∨ stage = .awake ↔ ∀ found, .detached id found ∉ moments := by
  cases h <;> simp_all

theorem countP_starts (h : Course id action c moments stage) :
    moments.countP (Moment.starts id) ≤ 1 := by
  cases h <;> simp [Moment.starts]

end Course

section Placed

variable {timer : TimerTask A} {c : Clearing}

theorem Placed.cleared_iff (h : Placed past s id timer c) :
    .cleared id true ∈ past ↔ c ≠ .untouched := by
  rw [Moment.mem_clearing (.cleared id true) (beq_self_eq_true id), h.clearing]
  cases c <;> simp [Clearing.moments]

theorem Placed.aborted_iff (h : Placed past s id timer c) :
    .aborted id ∈ past ↔ c = .aborted := by
  rw [Moment.mem_clearing (.aborted id) (beq_self_eq_true id), h.clearing]
  cases c <;> simp [Clearing.moments]

theorem Ran.placed_of_mem (h : Ran past s) (hmem : e ∈ past) (he : e.ofTask id = true) :
    ∃ timer c, Placed past s id timer c ∧ e ∈ Moment.course id past := by
  have hcourse := (Moment.mem_course e he).mp hmem
  cases h.told.stands id with
  | unset hunset => exact absurd (hunset.course ▸ hcourse) List.not_mem_nil
  | placed hplaced => exact ⟨_, _, hplaced, hcourse⟩

/-- A task that is aborted before it wakes never does. -/
theorem Ran.woke (h : Ran (earlier ++ .woke id :: later) s) :
    .aborted id ∉ earlier := by
  obtain ⟨s₀, s₁, hran, hstep⟩ := h.exists_before
  cases hstep with
  | wake htask hstage =>
      obtain ⟨c, hplaced⟩ := (hran.told.stands id).exists_placed htask
      rw [hplaced.aborted_iff]
      exact (hstage ▸ hplaced.course).of_sleeping

/-- A task that does not find its entry has woken and has lost it to one who clears
the timer, and who has aborted it, if at all, after it had woken. -/
theorem Ran.missed (h : Ran (earlier ++ .detached id false :: later) s) :
    .cleared id true ∈ earlier ∧
      ∃ before between, earlier = before ++ .woke id :: between ∧
      .aborted id ∉ before := by
  obtain ⟨s₀, s₁, hran, hstep⟩ := h.exists_before
  generalize hfound : false = found at hstep
  cases hstep with
  | detach htask hstage =>
      obtain ⟨c, hplaced⟩ := (hran.told.stands id).exists_placed htask
      -- The entry would still be there if nobody had taken it out.
      have hgone : c ≠ .untouched := by
        rintro rfl
        have hmem := hplaced.table.mpr ⟨rfl, .inr hstage⟩
        rw [← takeEntry_found, ← hfound] at hmem
        cases hmem
      have hwoke : .woke id ∈ earlier := by
        rw [Moment.mem_course (.woke id) (beq_self_eq_true id)]
        exact (hstage ▸ hplaced.course).of_awake
      obtain ⟨before, between, rfl⟩ := List.append_of_mem hwoke
      exact ⟨hplaced.cleared_iff.mpr hgone, before, between, rfl, hran.woke⟩

theorem Ran.listed (h : Ran past s) :
    id ∈ s.timers.table ↔ id ∈ Moment.waiting past := by
  rw [Moment.mem_waiting]
  cases h.told.stands id with
  | unset hunset =>
      exact iff_of_false hunset.table fun ⟨⟨action, hset⟩, _⟩ => hunset.set action hset
  | placed hplaced =>
      have hset : ∃ action, .entered id action ∈ past := ⟨_, hplaced.set⟩
      rw [hplaced.table, hplaced.cleared_iff, not_not, and_iff_right hset]
      refine and_congr_right fun hc => ?_
      have hdetached :
          ∀ found, (.detached id found ∈ past ↔ .detached id found ∈
            Moment.course id past) :=
        fun found => Moment.mem_course _ (beq_self_eq_true id)
      simp only [hdetached]
      exact hplaced.course.before_detached hc

/-- A timer that has started, and whose task had found its entry, was
cleared by nobody. -/
theorem Ran.exact (h : Ran past s) (hfound : .detached id false ∉ past)
    (hmem : .started id action ∈ past) :
    .cleared id true ∉ past ∧ .aborted id ∉ past ∧ .stopped id ∉ past := by
  obtain ⟨timer, c, hplaced, hcourse⟩ := h.placed_of_mem hmem (beq_self_eq_true id)
  obtain ⟨-, hdetached⟩ := hplaced.course.of_started hcourse
  have hc : c = .untouched := by
    by_contra hne
    rw [decide_eq_false hne] at hdetached
    exact hfound (Moment.mem_of_mem_course hdetached)
  refine ⟨fun hcleared => hplaced.cleared_iff.mp hcleared hc, fun haborted => ?_,
    fun hstopped => ?_⟩
  · cases hc.symm.trans (hplaced.aborted_iff.mp haborted)
  · rw [Moment.mem_course (.stopped id) (beq_self_eq_true id)] at hstopped
    cases hc.symm.trans (hplaced.course.of_stopped hstopped)

end Placed

/-- What has happened to timers, whatever came between what: `numbers` to `idle` say
that they are counted and cleared as they should be, the rest how the clearing of a
timer can miss. -/
structure Accounted (past : List (Moment A)) (s : Shared A) : Prop where
  numbers : Moment.numbers past = List.range' 1 s.timers.count
  set_once : ((Moment.settings past).map Prod.fst).Nodup
  drawn : ∀ id action, .entered id action ∈ past → .drew id ∈ past
  starts_once : ∀ id, past.countP (Moment.starts id) ≤ 1
  starts_own : ∀ id action, .started id action ∈ past → .entered id action ∈ past
  listed : ∀ id, id ∈ s.timers.table ↔ id ∈ Moment.waiting past
  pending : s.timers.pending = (Moment.waiting past).length
  /-- Clearing a timer that is not set, has fired or has been cleared
  changes nothing. -/
  idle : ∀ id, id ∉ Moment.waiting past →
    s.timers.takeEntry id = (false, s.timers) ∧ s.timers.clear id = s.timers
  /-- As long as its task has not found the entry gone, a timer that has started has
  not been cleared, nor has it been aborted or stopped, and one that has been cleared
  has not started. -/
  exact : ∀ id, .detached id false ∉ past → ∀ action, .started id action ∈ past →
    .cleared id true ∉ past ∧ .aborted id ∉ past ∧ .stopped id ∉ past
  /-- A task finds its entry gone only if someone has taken it out to clear the timer,
  and had not aborted the task by the time at which it woke. -/
  missed : ∀ earlier id later, past = earlier ++ .detached id false :: later →
    .cleared id true ∈ earlier ∧
      ∃ before between, earlier = before ++ .woke id :: between ∧ .aborted id ∉ before
  /-- A task that has found its entry gone starts its action all the same. -/
  starts_anyway : ∀ id, .detached id false ∈ past →
    ∃ action, .started id action ∈ past ∨ (s.timers.start id).1 = some action

theorem Ran.timers_accounted (h : Ran past s) : Accounted past s where
  numbers := h.told.numbers
  set_once := h.told.distinct
  drawn := fun id action hmem => by
    cases h.told.stands id with
    | unset hunset => exact absurd hmem (hunset.set action)
    | placed hplaced => exact hplaced.drew
  starts_once := fun id => by
    rw [Moment.countP_starts]
    cases h.told.stands id with
    | unset hunset => rw [hunset.course]; exact Nat.zero_le 1
    | placed hplaced => exact hplaced.course.countP_starts
  starts_own := fun id action hmem => by
    obtain ⟨timer, c, hplaced, hcourse⟩ := h.placed_of_mem hmem (beq_self_eq_true id)
    obtain ⟨rfl, -⟩ := hplaced.course.of_started hcourse
    exact hplaced.set
  listed := fun id => h.listed
  pending := by
    have hwaiting : (Moment.waiting past).Nodup := h.told.distinct.filter _
    exact ((List.perm_ext_iff_of_nodup h.told.nodup hwaiting).mpr fun id =>
      h.listed).length_eq
  idle := fun id hid => by
    have hmem := h.listed.not.mpr hid
    exact ⟨takeEntry_of_notMem _ hmem, clear_of_notMem _ hmem⟩
  exact := fun id hfound action hmem => h.exact hfound hmem
  missed := fun earlier id later hpast => (hpast ▸ h).missed
  starts_anyway := fun id hmem => by
    obtain ⟨timer, c, hplaced, hcourse⟩ := h.placed_of_mem hmem (beq_self_eq_true id)
    obtain ⟨-, hstage | hstarted⟩ := hplaced.course.of_missed hcourse
    · refine ⟨timer.action, .inr ?_⟩
      unfold Timers.start
      rw [hplaced.task]
      exact congrArg Prod.fst (if_pos hstage)
    · exact ⟨timer.action, .inl (Moment.mem_of_mem_course hstarted)⟩

/-- A timer fires while another thread has taken out the entry of the next one, which
is aborted in its sleep. -/
def sideBySide : List (Moment String) :=
  [.drew 1, .entered 1 "a", .drew 2, .entered 2 "b", .cleared 2 true, .woke 1,
    .detached 1 true, .aborted 2, .started 1 "a"]

theorem sideBySide_accounted : ∃ s, Ran sideBySide s ∧ Accounted sideBySide s := by
  have h : Ran (A := String) [] ⟨⟨[], [], 0, 0⟩, [], []⟩ := .start
  have h : Ran (A := String) _ ⟨⟨[], [], 1, 0⟩, [1], []⟩ := h.step (.draw _)
  have h : Ran _ ⟨⟨[⟨1, 0, "a", .sleeping, false⟩], [1], 1, 0⟩, [], []⟩ :=
    h.step (.enter (by decide) 0 "a")
  have h : Ran _ ⟨⟨[⟨1, 0, "a", .sleeping, false⟩], [1], 2, 0⟩, [2], []⟩ :=
    h.step (.draw _)
  have h : Ran _
      ⟨⟨[⟨1, 0, "a", .sleeping, false⟩, ⟨2, 5, "b", .sleeping, false⟩], [1, 2], 2, 0⟩,
        [], []⟩ :=
    h.step (.enter (by decide) 5 "b")
  have h : Ran _
      ⟨⟨[⟨1, 0, "a", .sleeping, false⟩, ⟨2, 5, "b", .sleeping, false⟩], [1], 2, 0⟩,
        [], [2]⟩ :=
    h.step (.clear _ 2)
  have h : Ran _
      ⟨⟨[⟨1, 0, "a", .awake, false⟩, ⟨2, 5, "b", .sleeping, false⟩], [1], 2, 0⟩, [],
        [2]⟩ :=
    h.step (e := .woke 1) (.wake rfl rfl (Nat.le_refl 0))
  have h : Ran _
      ⟨⟨[⟨1, 0, "a", .detached, false⟩, ⟨2, 5, "b", .sleeping, false⟩], [], 2, 0⟩, [],
        [2]⟩ :=
    h.step (e := .detached 1 true) (.detach rfl rfl)
  have h : Ran _
      ⟨⟨[⟨1, 0, "a", .detached, false⟩, ⟨2, 5, "b", .dropped, true⟩], [], 2, 0⟩, [],
        []⟩ :=
    h.step (e := .aborted 2) (.abort (by decide))
  have h : Ran _
      ⟨⟨[⟨1, 0, "a", .started, false⟩, ⟨2, 5, "b", .dropped, true⟩], [], 2, 0⟩, [],
        []⟩ :=
    h.step (e := .started 1 "a") (.start rfl)
  exact ⟨_, h, h.timers_accounted⟩

/-- A timer that has been cleared starts its action all the same, and is stopped in
the middle of it. -/
theorem started_though_cleared :
    ∃ s : Shared String,
      Ran [.drew 1, .entered 1 "a", .cleared 1 true, .woke 1, .detached 1 false,
        .started 1 "a", .aborted 1, .stopped 1] s := by
  have h : Ran (A := String) [] ⟨⟨[], [], 0, 0⟩, [], []⟩ := .start
  have h : Ran (A := String) _ ⟨⟨[], [], 1, 0⟩, [1], []⟩ := h.step (.draw _)
  have h : Ran _ ⟨⟨[⟨1, 0, "a", .sleeping, false⟩], [1], 1, 0⟩, [], []⟩ :=
    h.step (.enter (by decide) 0 "a")
  have h : Ran _ ⟨⟨[⟨1, 0, "a", .sleeping, false⟩], [], 1, 0⟩, [], [1]⟩ :=
    h.step (.clear _ 1)
  have h : Ran _ ⟨⟨[⟨1, 0, "a", .awake, false⟩], [], 1, 0⟩, [], [1]⟩ :=
    h.step (e := .woke 1) (.wake rfl rfl (Nat.le_refl 0))
  have h : Ran _ ⟨⟨[⟨1, 0, "a", .detached, false⟩], [], 1, 0⟩, [], [1]⟩ :=
    h.step (e := .detached 1 false) (.detach rfl rfl)
  have h : Ran _ ⟨⟨[⟨1, 0, "a", .started, false⟩], [], 1, 0⟩, [], [1]⟩ :=
    h.step (e := .started 1 "a") (.start rfl)
  have h : Ran _ ⟨⟨[⟨1, 0, "a", .started, true⟩], [], 1, 0⟩, [], []⟩ :=
    h.step (e := .aborted 1) (.abort (by decide))
  have h : Ran _ ⟨⟨[⟨1, 0, "a", .dropped, true⟩], [], 1, 0⟩, [], []⟩ :=
    h.step (e := .stopped 1) (.stop rfl rfl rfl)
  exact ⟨_, h⟩

end Shared

end Timers

end Resumable
