import Resumable.Gate.Basic

namespace Resumable

namespace Gate

variable {Id : Type} {g : Gate Id} {id : Id}

/-- The gate is either held, or promised, or neither. If neither then nobody
is in line. -/
structure Sound (g : Gate Id) : Prop where
  exclusive : g.holder = none ∨ g.promised = none
  idle : g.holder = none → g.promised = none → g.line = []

def queue (g : Gate Id) : List Id := g.promised.toList ++ g.line

theorem idle_sound : (idle : Gate Id).Sound := ⟨.inl rfl, fun _ _ => rfl⟩

theorem handOver_sound (g : Gate Id) :
    g.handOver.Sound ∧ g.handOver.holder = none ∧ g.handOver.queue = g.line := by
  unfold handOver queue
  cases hline : g.line with
  | nil => exact ⟨⟨.inl rfl, fun _ _ => rfl⟩, rfl, rfl⟩
  | cons => exact ⟨⟨.inl rfl, nofun⟩, rfl, rfl⟩

theorem release_sound (hg : g.Sound) (hheld : g.holder = some id) :
    g.release.Sound ∧ g.release.holder = none ∧ g.release.queue = g.queue := by
  have hpromised : g.promised = none := hg.exclusive.resolve_left (by simp [hheld])
  have hqueue : g.queue = g.line := by
    rw [queue, hpromised]
    rfl
  rw [hqueue]
  exact g.handOver_sound

/-- Who arrives walks in if nobody is inside or waits, and lines up else. -/
theorem arrive_sound (hg : g.Sound) (id : Id) : (g.arrive id).Sound ∧
    (g.holder = none ∧ (g.arrive id).holder = some id ∧ g.queue = [] ∧
      (g.arrive id).queue = [] ∨ (g.arrive id).holder = g.holder ∧
      (g.arrive id).queue = g.queue ++ [id]) := by
  unfold arrive
  split
  · next hfree =>
      rw [Option.isNone_iff_eq_none, Option.isNone_iff_eq_none] at hfree
      have hline := hg.idle hfree.1 hfree.2
      have hqueue : g.queue = [] := by
        rw [queue, hfree.2, hline, Option.toList_none, List.append_nil]
      exact ⟨⟨.inr hfree.2, nofun⟩, .inl ⟨hfree.1, rfl, hqueue, hqueue⟩⟩
  · next htaken =>
      refine ⟨⟨hg.exclusive, fun hholder hpromised => ?_⟩,
        .inr ⟨rfl, (List.append_assoc _ _ _).symm⟩⟩
      rw [Option.isNone_iff_eq_none, Option.isNone_iff_eq_none] at htaken
      exact absurd ⟨hholder, hpromised⟩ htaken

/-- While nobody holds the gate, it is promised to the first of those who wait. -/
theorem promised_eq_head? (hg : g.Sound) (hfree : g.holder = none) :
    g.promised = g.queue.head? := by
  unfold queue
  rcases hpromised : g.promised with _ | k
  · rw [hg.idle hfree hpromised]
    rfl
  · rfl

variable [DecidableEq Id]

/-- The one that is polled gets in if it is the first of those that wait, and else
nothing happens. -/
theorem poll_sound (hg : g.Sound) (id : Id) : (g.poll id).Sound ∧
    (g.holder = none ∧ (g.poll id).holder = some id ∧
      g.queue = id :: (g.poll id).queue ∨ g.poll id = g) := by
  unfold poll
  split
  · next hpromised =>
      have hholder : g.holder = none := hg.exclusive.resolve_right (by simp [hpromised])
      refine ⟨⟨.inr rfl, nofun⟩, .inl ⟨hholder, rfl, ?_⟩⟩
      rw [queue, hpromised]
      rfl
  · exact ⟨hg, .inr rfl⟩

theorem abandon_sound (hg : g.Sound) (id : Id) : (g.abandon id).Sound ∧
    (g.abandon id).holder = g.holder ∧ (g.abandon id).queue.Sublist g.queue := by
  unfold abandon
  split
  · next hpromised =>
      have hholder : g.holder = none := hg.exclusive.resolve_right (by simp [hpromised])
      obtain ⟨hsound, hnone, hqueue⟩ := g.handOver_sound
      rw [hnone, hqueue, hholder]
      exact ⟨hsound, rfl, List.sublist_append_right _ _⟩
  · refine ⟨⟨hg.exclusive, fun hholder hpromised => ?_⟩, rfl, ?_⟩
    · rw [hg.idle hholder hpromised]
      rfl
    · exact List.filter_sublist.append_left _

/-- Who gives up is gone from the queue, and the others stay as they are. -/
theorem abandon_queue (hg : g.queue.Nodup) (id : Id) :
    (g.abandon id).queue = g.queue.filter (· ≠ id) := by
  unfold abandon
  split
  · next hpromised =>
      have hqueue : g.queue = id :: g.line := by rw [queue, hpromised]; rfl
      rw [hqueue, List.nodup_cons] at hg
      rw [(g.handOver_sound).2.2, hqueue, List.filter_cons_of_neg (by simp),
        List.filter_eq_self.mpr]
      intro k hk
      simpa using fun h : k = id => hg.1 (h ▸ hk)
  · next hpromised =>
      rw [queue, queue, List.filter_append]
      congr 1
      rcases hother : g.promised with _ | k
      · rfl
      · rw [hother, Option.some_inj] at hpromised
        simp [hpromised]

end Gate

end Resumable
