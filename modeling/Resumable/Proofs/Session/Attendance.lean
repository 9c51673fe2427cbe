import Resumable.Proofs.Gate.Line
import Resumable.Proofs.Session.Callers

namespace Resumable

namespace Occurrence

def arrived? : Occurrence → Option Nat
  | .arrived id => some id
  | _ => none

def entered? : Occurrence → Option Nat
  | .entered id => some id
  | _ => none

def arrivals (past : List Occurrence) : List Nat := past.filterMap arrived?

def entrances (past : List Occurrence) : List Nat := past.filterMap entered?

theorem arrivals_append (past more : List Occurrence) :
    arrivals (past ++ more) = arrivals past ++ arrivals more :=
  List.filterMap_append

theorem entrances_append (past more : List Occurrence) :
    entrances (past ++ more) = entrances past ++ entrances more :=
  List.filterMap_append

end Occurrence

open Occurrence

namespace Stage

variable {G : Type}

def Arrived : Stage G → Prop
  | .approaching _ => False
  | _ => True

def Within : Stage G → Prop
  | .inside _ => True
  | _ => False

end Stage

namespace Callers

variable {G : Type} {setup : Setup G} {past more : List Occurrence}
  {c c' : Callers G} {id : Nat} {call : Call} {stage : Stage G}

def Inside (c : Callers G) (id : Nat) : Prop :=
  ∃ call stage, c.callers id = some ⟨call, stage⟩ ∧ stage.Within

/-- The gate and the callers go together. -/
structure Attended (past : List Occurrence) (c : Callers G) : Prop where
  sound : c.gate.Sound
  holder : ∀ id, c.gate.holder = some id ↔ c.Inside id
  fifo : (entrances past ++ c.gate.queue).Sublist (arrivals past)
  nodup : (arrivals past).Nodup
  arrived : ∀ id ∈ arrivals past, ∃ call stage, c.callers id = some ⟨call, stage⟩ ∧
    stage.Arrived

theorem put_self (c : Callers G) (id : Nat) (call : Call) (stage : Stage G) :
    (c.put id call stage).callers id = some ⟨call, stage⟩ := if_pos rfl

theorem put_of_ne {n : Nat} (hn : n ≠ id) :
    (c.put id call stage).callers n = c.callers n := if_neg hn

theorem inside_put {n : Nat} :
    (c.put id call stage).Inside n ↔ n = id ∧ stage.Within ∨ n ≠ id ∧ c.Inside n := by
  unfold Inside
  by_cases hn : n = id
  · subst hn
    rw [put_self]
    constructor
    · rintro ⟨_, _, h, hstage⟩
      cases h
      exact .inl ⟨rfl, hstage⟩
    · rintro (⟨-, hstage⟩ | ⟨hn, -⟩)
      · exact ⟨_, _, rfl, hstage⟩
      · exact absurd rfl hn
  · rw [put_of_ne hn]
    exact ⟨fun h => .inr ⟨hn, h⟩, fun h => (h.resolve_left fun h => hn h.1).2⟩

theorem inside_iff (hid : c.callers id = some ⟨call, stage⟩) :
    c.Inside id ↔ stage.Within := by
  constructor
  · rintro ⟨_, _, hid', hstage⟩
    cases hid.symm.trans hid'
    exact hstage
  · exact fun hstage => ⟨_, _, hid, hstage⟩

namespace Attended

theorem put (h : Attended past c) (hinside : stage.Within ↔ c.Inside id)
    (harrived : (∃ call stage, c.callers id = some ⟨call, stage⟩ ∧ stage.Arrived) →
      stage.Arrived)
    (hmore : arrivals more = [] ∧ entrances more = []) :
    Attended (past ++ more) (c.put id call stage) where
  sound := h.sound
  holder := by
    intro n
    refine (h.holder n).trans ?_
    rw [inside_put]
    by_cases hn : n = id
    · subst hn
      simp [hinside]
    · simp [hn]
  fifo := by
    rw [arrivals_append, entrances_append, hmore.1, hmore.2, List.append_nil,
      List.append_nil]
    exact h.fifo
  nodup := by
    rw [arrivals_append, hmore.1, List.append_nil]
    exact h.nodup
  arrived := by
    intro n hn
    rw [arrivals_append, hmore.1, List.append_nil] at hn
    by_cases heq : n = id
    · subst heq
      exact ⟨_, _, put_self .., harrived (h.arrived n hn)⟩
    · rw [put_of_ne heq]
      exact h.arrived n hn

section Gate

variable (h : Attended past c)

include h

theorem holder_put_inside (hnone : c.gate.holder = none) (hstage : stage.Within)
    (call : Call) (n : Nat) : some id = some n ↔ (c.put id call stage).Inside n := by
  rw [inside_put, ← h.holder, hnone, Option.some_inj]
  constructor
  · rintro rfl
    exact .inl ⟨rfl, hstage⟩
  · rintro (⟨rfl, -⟩ | ⟨-, h⟩)
    · rfl
    · cases h

theorem holder_put_outside (hstage : ¬ stage.Within) (hid : ¬ c.Inside id)
    (call : Call) (n : Nat) :
    c.gate.holder = some n ↔ (c.put id call stage).Inside n := by
  rw [inside_put, h.holder]
  constructor
  · intro hn
    refine .inr ⟨?_, hn⟩
    rintro rfl
    exact hid hn
  · rintro (⟨-, h⟩ | ⟨-, h⟩)
    · exact absurd h hstage
    · exact h

theorem holder_put_left (hheld : c.gate.holder = some id)
    (hstage : ¬ stage.Within) (call : Call) (n : Nat) :
    none = some n ↔ (c.put id call stage).Inside n := by
  rw [inside_put, ← h.holder, hheld, Option.some_inj]
  constructor
  · rintro ⟨⟩
  · rintro (⟨-, h⟩ | ⟨hn, h⟩)
    · exact absurd h hstage
    · exact absurd h.symm hn

theorem move {gate : Gate Nat} (slot : Slot G) (hsound : gate.Sound)
    (hholder : ∀ n, gate.holder = some n ↔ (c.put id call stage).Inside n)
    (hfifo : (entrances past ++ (entrances more ++ gate.queue)).Sublist
      (arrivals past ++ arrivals more))
    (hnodup : (arrivals past ++ arrivals more).Nodup) (harrived : stage.Arrived)
    (hmore : ∀ n ∈ arrivals more, n = id) :
    Attended (past ++ more)
      { c.put id call stage with slot := slot, gate := gate } where
  sound := hsound
  holder := hholder
  fifo := by
    rw [entrances_append, arrivals_append, List.append_assoc]
    exact hfifo
  nodup := by
    rw [arrivals_append]
    exact hnodup
  arrived := by
    intro n hn
    change ∃ call' stage', (c.put id call stage).callers n = some ⟨call', stage'⟩ ∧
      stage'.Arrived
    by_cases heq : n = id
    · subst heq
      exact ⟨_, _, put_self .., harrived⟩
    · rw [put_of_ne heq]
      rw [arrivals_append] at hn
      exact h.arrived n ((List.mem_append.mp hn).resolve_right fun h => heq (hmore n h))

theorem nodup_snoc {task : Task (Approach G)}
    (hid : c.callers id = some ⟨call, .approaching task⟩) :
    (arrivals past ++ [id]).Nodup := by
  refine List.nodup_append.mpr ⟨h.nodup, List.pairwise_singleton _ _, ?_⟩
  rintro n hn _ hn' rfl
  cases List.mem_singleton.mp hn'
  obtain ⟨_, _, hid', harrived⟩ := h.arrived _ hn
  cases hid.symm.trans hid'
  exact harrived

end Gate

theorem step (h : Attended past c) (hstep : c.Step setup more c') :
    Attended (past ++ more) c' := by
  cases hstep with
  | called hnew call =>
      refine h.put ⟨False.elim, ?_⟩ ?_ ⟨rfl, rfl⟩
      · rintro ⟨_, _, hid, -⟩
        cases hnew.symm.trans hid
      · rintro ⟨_, _, hid, -⟩
        cases hnew.symm.trans hid
  | approached hid answer =>
      refine h.put (inside_iff hid).symm ?_ ⟨rfl, rfl⟩
      rintro ⟨_, _, hid', harrived⟩
      cases hid.symm.trans hid'
      exact harrived
  | refused hid => exact h.put (inside_iff hid).symm (fun _ => trivial) ⟨rfl, rfl⟩
  | exchanged hid answer =>
      exact h.put (inside_iff hid).symm (fun _ => trivial) ⟨rfl, rfl⟩
  | @polled id _ _ hid htaken =>
      obtain ⟨-, ⟨-, hin, -⟩ | hsame⟩ := Gate.poll_sound h.sound id
      · exact absurd hin htaken
      · rw [List.append_nil, hsame]
        exact h
  | @walkedIn id call work hid hfree =>
      obtain ⟨hsound, ⟨hnone, hheld, hqueue, hqueue'⟩ | ⟨hsame, -⟩⟩ :=
        Gate.arrive_sound h.sound id
      · refine h.move c.slot hsound ?_ ?_ (h.nodup_snoc hid) trivial fun n =>
          List.mem_singleton.mp
        · rw [hheld]
          refine h.holder_put_inside hnone ?_ call
          trivial
        · have hfifo := h.fifo
          -- Nobody waits, so the latest to come may be the latest to get in.
          rw [hqueue, List.append_nil] at hfifo
          rw [hqueue', List.append_nil]
          exact hfifo.append (.refl [id])
      · rw [hsame] at hfree
        exact ((inside_iff hid).mp ((h.holder id).mp hfree)).elim
  | @linedUp id call work hid htaken =>
      obtain ⟨hsound, ⟨-, hheld, -⟩ | ⟨hsame, hqueue⟩⟩ := Gate.arrive_sound h.sound id
      · exact absurd hheld htaken
      · refine h.move c.slot hsound ?_ ?_ (h.nodup_snoc hid) trivial fun n =>
          List.mem_singleton.mp
        · rw [hsame]
          refine h.holder_put_outside ?_ (inside_iff hid).mp call
          exact not_false
        · rw [hqueue]
          change (entrances past ++ (c.gate.queue ++ [id])).Sublist
            (arrivals past ++ [id])
          rw [← List.append_assoc]
          exact h.fifo.append (.refl [id])
  | @entered id call work hid hfree =>
      obtain ⟨hsound, ⟨hnone, hheld, hqueue⟩ | hsame⟩ := Gate.poll_sound h.sound id
      · refine h.move c.slot hsound ?_ ?_ ?_ trivial nofun
        · rw [hheld]
          refine h.holder_put_inside hnone ?_ call
          trivial
        · have hfifo := h.fifo
          rw [hqueue] at hfifo
          rw [show arrivals [.entered id] = [] from rfl, List.append_nil]
          exact hfifo
        · rw [show arrivals [.entered id] = [] from rfl, List.append_nil]
          exact h.nodup
      · rw [hsame] at hfree
        exact ((inside_iff hid).mp ((h.holder id).mp hfree)).elim
  | @left id call reply s hid =>
      have hheld := (h.holder id).mpr ((inside_iff hid).mpr trivial)
      obtain ⟨hsound, hnone, hqueue⟩ := Gate.release_sound h.sound hheld
      refine h.move s hsound ?_ ?_ ?_ trivial nofun
      · rw [hnone]
        refine h.holder_put_left hheld ?_ call
        exact not_false
      · rw [hqueue, show arrivals [.left id reply] = [] from rfl, List.append_nil]
        exact h.fifo
      · rw [show arrivals [.left id reply] = [] from rfl, List.append_nil]
        exact h.nodup
  | @gaveUp id call work hid =>
      obtain ⟨hsound, hsame, hqueue⟩ := Gate.abandon_sound h.sound id
      refine h.move c.slot hsound ?_ ?_ ?_ trivial nofun
      · rw [hsame]
        refine h.holder_put_outside ?_ (inside_iff hid).mp call
        exact not_false
      · rw [show arrivals [.gaveUp id] = [] from rfl, List.append_nil]
        exact (hqueue.append_left (entrances past)).trans h.fifo
      · rw [show arrivals [.gaveUp id] = [] from rfl, List.append_nil]
        exact h.nodup

end Attended

end Callers

theorem Setup.Shared.attended {G : Type} {setup : Setup G} {past : List Occurrence}
    {c : Callers G} (h : setup.Shared past c) : c.Attended past := by
  induction h with
  | start =>
      refine ⟨Gate.idle_sound, fun id => ⟨nofun, ?_⟩, .refl _, List.nodup_nil, nofun⟩
      rintro ⟨_, _, h, -⟩
      cases h
  | step _ hstep ih => exact ih.step hstep

end Resumable
