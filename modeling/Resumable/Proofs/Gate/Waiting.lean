import Resumable.Proofs.Gate.Exclusion

namespace Resumable

namespace Gate

section Counter

variable {Id : Type} {g : Gate Id} {id : Id} {gone : Nat}

/-- Besides those who wait, so many are counted that do not. -/
def Counts (g : Gate Id) (gone : Nat) : Prop := g.waiting = g.queue.length + gone

theorem idle_counts : (idle : Gate Id).Counts 0 := rfl

theorem handOver_waiting (g : Gate Id) : g.handOver.waiting = g.waiting := by
  unfold handOver
  cases g.line <;> rfl

theorem Counts.release (h : g.Counts gone) (hg : g.Sound) (hheld : g.holder = some id) :
    g.release.Counts gone := by
  obtain ⟨-, -, hqueue⟩ := release_sound hg hheld
  rw [Counts, hqueue]
  exact (handOver_waiting g).trans h

theorem Counts.arrive (h : g.Counts gone) (id : Id) : (g.arrive id).Counts gone := by
  unfold Gate.arrive
  split
  · exact h
  · have hqueue : g.promised.toList ++ (g.line ++ [id]) = g.queue ++ [id] :=
      (List.append_assoc _ _ _).symm
    change g.waiting + 1 = (g.promised.toList ++ (g.line ++ [id])).length + gone
    rw [hqueue, List.length_append, List.length_singleton, h]
    exact Nat.add_right_comm _ _ _

variable [DecidableEq Id]

theorem Counts.poll (h : g.Counts gone) (id : Id) : (g.poll id).Counts gone := by
  unfold Gate.poll
  split
  · next hpromised =>
      have hqueue : g.queue = id :: g.line := by rw [queue, hpromised]; rfl
      rw [Counts, hqueue, List.length_cons] at h
      change g.waiting - 1 = g.line.length + gone
      omega
  · exact h

/-- Who gives up stays counted. -/
theorem Counts.abandon (h : g.Counts gone) (hnodup : g.queue.Nodup)
    (hmem : id ∈ g.queue) : (g.abandon id).Counts (gone + 1) := by
  have hwaiting : (g.abandon id).waiting = g.waiting := by
    unfold Gate.abandon
    split
    · exact handOver_waiting g
    · rfl
  have hlength : (g.queue.filter (· ≠ id)).length + 1 = g.queue.length := by
    have herase : g.queue.erase id = g.queue.filter (· ≠ id) := by
      rw [hnodup.erase_eq_filter]
      exact List.filter_congr fun k _ => by rw [decide_not]; rfl
    rw [← herase, List.length_erase_of_mem hmem]
    exact Nat.sub_add_cancel (List.length_pos_of_mem hmem)
  rw [Counts, hwaiting, abandon_queue hnodup, h]
  omega

end Counter

variable {T R : Type}

namespace Happening

def givenUp (past : List (Happening T R)) : List String :=
  past.filterMap fun
    | .gaveUp id => some id
    | _ => none

theorem givenUp_append (past more : List (Happening T R)) :
    givenUp (past ++ more) = givenUp past ++ givenUp more :=
  List.filterMap_append

theorem givenUp_going (id : String) (v : T) (operation : Operation T R) :
    givenUp (going id v operation) = [] := by
  cases operation <;> rfl

end Happening

namespace Guarded

variable {g : Guarded T R} {id : String} {gone : Nat}

theorem givenUp_entering (g : Guarded T R) (id : String)
    (operation : Option (Operation T R)) :
    Happening.givenUp (g.entering id operation) = [] := by
  unfold entering
  split
  · cases operation with
    | none => rfl
    | some operation => exact Happening.givenUp_going id g.value operation
  · rfl

theorem givenUp_polling (g : Guarded T R) (id : String) :
    Happening.givenUp (g.polling id) = [] := by
  unfold polling
  split
  · exact Happening.givenUp_going id g.value _
  · exact givenUp_entering _ id _
  · rfl

theorem counts_proceed (h : g.gate.Counts gone) (hg : g.gate.Sound)
    (hheld : g.gate.holder = some id) (operation : Operation T R) :
    (g.proceed id operation).2.gate.Counts gone := by
  cases operation with
  | pause act rest => exact h
  | finish act => exact h.release hg hheld

theorem counts_enter (h : g.gate.Counts gone) (hg : g.gate.Sound)
    (operation : Option (Operation T R)) :
    (g.enter id operation).2.gate.Counts gone := by
  by_cases hheld : g.gate.holder = some id
  · rw [enter_of_held g id hheld]
    cases operation with
    | none => exact h
    | some operation => exact counts_proceed h hg hheld operation
  · rw [enter_of_out g id hheld]
    exact h

/-- A step adds to those that are counted and do not wait just those who give up. -/
theorem Told.counts_step {v w : T} {past more : List (Happening T R)}
    {g g' : Guarded T R} {done : List (Tenure T R)} {now : Option (Tenure T R)}
    (htold : Told v past g done now w) (h : g.gate.Counts gone)
    (hstep : g.Step more g') :
    g'.gate.Counts (gone + (Happening.givenUp more).length) := by
  cases hstep with
  | @started id hnew operation =>
      have hmore := givenUp_entering { g with gate := g.gate.arrive id } id operation
      rw [Happening.givenUp, List.filterMap_cons_none rfl, ← Happening.givenUp, hmore]
      exact counts_enter (h.arrive _) (arrive_sound htold.sound _).1 operation
  | polled id =>
      rw [givenUp_polling]
      unfold Guarded.poll
      rcases hid : g.caller? id with _ | operation | _ | operation
      · exact h
      · exact counts_enter (h.poll id) (poll_sound htold.sound id).1 operation
      · exact h
      · have hheld := htold.holder.trans (htold.inside id (.inr ⟨operation, hid⟩))
        exact counts_proceed h htold.sound hheld operation
  | modified hmodify =>
      unfold modify? at hmodify
      split at hmodify
      · cases hmodify
        exact h
      · cases hmodify
  | @dropped id _ hguard hdrop =>
      have hheld := htold.holder.trans (htold.inside id hguard)
      have hg' : g' = { g with gate := g.gate.release }.forget id := by
        unfold drop? at hdrop
        obtain hid | ⟨operation, hid⟩ := hguard <;> rw [hid] at hdrop <;>
          exact (Option.some.inj hdrop).symm
      rw [hg']
      exact h.release htold.sound hheld
  | @gaveUp id operation _ hlining hdrop =>
      have hmem : id ∈ g.gate.queue :=
        htold.queue ▸ List.mem_map_of_mem ((htold.lining id operation).mpr hlining)
      unfold drop? at hdrop
      rw [hlining] at hdrop
      cases hdrop
      exact h.abandon (htold.queue ▸ htold.nodup) hmem

theorem Ran.counts {v : T} {past : List (Happening T R)} {g : Guarded T R}
    (h : Ran v past g) : g.gate.Counts (Happening.givenUp past).length := by
  induction h with
  | start => exact idle_counts
  | step h hstep ih =>
      obtain ⟨_, _, _, htold⟩ := h.told
      rw [Happening.givenUp_append, List.length_append]
      exact htold.counts_step ih hstep

/-- What the counter of a gate says of the callers in its line, whatever has
happened there. -/
structure Counted (past : List (Happening T R)) (g : Guarded T R) : Prop where
  /-- The callers in line are those that are pending and have not been let in, each
  of them once. -/
  lining : ∀ id operation,
    (id, operation) ∈ Happening.queued past ↔ g.caller? id = some (.lining operation)
  once : ((Happening.queued past).map Prod.fst).Nodup
  total : g.gate.waiting =
    (Happening.queued past).length + (Happening.givenUp past).length
  exact_iff : g.gate.waiting = (Happening.queued past).length ↔
    Happening.givenUp past = []
  zero_iff : g.gate.waiting = 0 ↔
    Happening.queued past = [] ∧ Happening.givenUp past = []
  /-- The poll that lets a caller in lowers the counter by one, and never from zero. -/
  lowered : ∀ id, g.gate.promised = some id →
    (g.gate.poll id).waiting + 1 = g.gate.waiting

/-- However callers are started, polled and dropped, the counter is right just as long
as none of them has given up: it stays one too high for each that has, and never goes
below zero. -/
theorem Ran.waiting_counted {v : T} {past : List (Happening T R)} {g : Guarded T R}
    (h : Ran v past g) :
    Counted past g := by
  obtain ⟨_, _, _, htold⟩ := h.told
  have hcounts := h.counts
  have htotal : g.gate.waiting = (Happening.queued past).length +
      (Happening.givenUp past).length := by
    rw [hcounts, htold.queue, List.length_map]
  refine ⟨htold.lining, htold.nodup, htotal, ?_, ?_, fun id hpromised => ?_⟩
  · rw [htotal, ← List.length_eq_zero_iff]
    omega
  · rw [htotal, ← List.length_eq_zero_iff, ← List.length_eq_zero_iff]
    omega
  · have hqueue : g.gate.queue = id :: g.gate.line := by rw [queue, hpromised]; rfl
    rw [Counts, hqueue, List.length_cons] at hcounts
    rw [Gate.poll, if_pos hpromised]
    change g.gate.waiting - 1 + 1 = g.gate.waiting
    omega

/-- One holds the gate, one waits, and one has given up: two are counted. -/
theorem abandoned_line_counted :
    ∃ past g, Ran (R := Nat) (0 : Nat) past g ∧ g.gate.isHeld = true ∧
      (Happening.queued past).map Prod.fst = ["b"] ∧ Happening.givenUp past = ["c"] ∧
      g.gate.waiting = 2 ∧ Counted past g := by
  have h : Ran (R := Nat) 0 _ _ := .start
  have h := h.step (@Step.started _ _ _ "a" rfl none)
  have h := h.step (@Step.started _ _ _ "b" rfl none)
  have h := h.step (@Step.started _ _ _ "c" rfl none)
  have h := h.step (@Step.gaveUp _ _ _ "c" none _ rfl rfl)
  exact ⟨_, _, h, rfl, rfl, rfl, rfl, h.waiting_counted⟩

/-- A caller that gives up while another one is inside is counted as waiting though
nobody waits any more. -/
theorem gaveUp_counted_as_waiting :
    ∃ past g, Ran (R := Nat) ([] : List String) past g ∧ Happening.queued past = [] ∧
      (∀ id operation, g.caller? id ≠ some (.lining operation)) ∧
      g.gate.waiting = 1 := by
  have h : Ran (R := Nat) ([] : List String) _ _ := .start
  have h := h.step (@Step.started _ _ _ "a" rfl none)
  have h := h.step (@Step.started _ _ _ "b" rfl none)
  have h := h.step (@Step.gaveUp _ _ _ "b" none _ rfl rfl)
  obtain ⟨_, _, _, htold⟩ := h.told
  refine ⟨_, _, h, rfl, fun id operation hlining => ?_, rfl⟩
  exact absurd ((htold.lining id operation).mpr hlining) List.not_mem_nil

end Guarded

end Gate

end Resumable
