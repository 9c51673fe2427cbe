import Mathlib.Data.Set.Card
import Resumable.Proofs.Handle.Table

namespace Resumable

namespace HandleTable

/-- What is done with a table, and what it answers. -/
inductive Use (α : Type) where
  | insert (a : α) (answer : Option Handle)
  | get (h : Handle) (answer : Option α)
  | remove (h : Handle) (answer : Option α)
  | drain (answer : List (Handle × α))

variable {α : Type}

/-- What was stored under the handle earlier is not there any more. -/
def Use.Ends (h : Handle) : Use α → Prop
  | .insert _ answer => answer = some h
  | .get _ _ => False
  | .remove k _ => k = h
  | .drain _ => True

/-- The value is the last that was stored under the handle, and is still there. -/
def Holds (past : List (Use α)) (h : Handle) (a : α) : Prop :=
  ∃ before since, past = before ++ .insert a (some h) :: since ∧
  ∀ use ∈ since, ¬ use.Ends h

def Live (past : List (Use α)) (h : Handle) : Prop := ∃ a, Holds past h a

inductive Step : HandleTable α → Use α → HandleTable α → Prop where
  | insert (t : HandleTable α) (a : α) :
      Step t (.insert a (t.insert a).1) (t.insert a).2
  | get (t : HandleTable α) (h : Handle) : Step t (.get h (t.get? h)) t
  | remove (t : HandleTable α) (h : Handle) :
      Step t (.remove h (t.remove h).1) (t.remove h).2
  | drain (t : HandleTable α) : Step t (.drain t.drain.1) t.drain.2

/-- A table is used: what is done, and the table behind it. -/
inductive Used (t₀ : HandleTable α) : List (Use α) → HandleTable α → Prop where
  | start : Used t₀ [] t₀
  | snoc {past : List (Use α)} {t t' : HandleTable α} {use : Use α}
      (before : Used t₀ past t) (step : Step t use t') : Used t₀ (past ++ [use]) t'

variable {past early late : List (Use α)} {use : Use α} {t₀ t t' : HandleTable α}
  {limit h : Handle} {a : α}

theorem not_holds_nil : ¬ Holds [] h a := by
  rintro ⟨before, since, hnil, -⟩
  simp at hnil

theorem holds_snoc :
    Holds (past ++ [use]) h a ↔ use = .insert a (some h) ∨ Holds past h a ∧
    ¬ use.Ends h := by
  constructor
  · rintro ⟨before, since, hpast, hsince⟩
    rcases List.eq_nil_or_concat since with rfl | ⟨earlier, last, rfl⟩
    · exact .inl (List.head_eq_of_cons_eq (List.append_inj' hpast rfl).2)
    · rw [List.concat_eq_append] at hpast hsince
      rw [← List.cons_append, ← List.append_assoc] at hpast
      obtain ⟨hearlier, hlast⟩ := List.append_inj' hpast rfl
      rw [List.head_eq_of_cons_eq hlast]
      exact .inr
        ⟨⟨before, earlier, hearlier,
          fun u hu => hsince u (List.mem_append_left _ hu)⟩, hsince last (by simp)⟩
  · rintro (rfl | ⟨⟨before, since, rfl, hsince⟩, huse⟩)
    · exact ⟨past, [], rfl, by simp⟩
    · refine ⟨before, since ++ [use], by simp, fun u hu => ?_⟩
      rcases List.mem_append.mp hu with hu | hu
      · exact hsince u hu
      · rwa [List.mem_singleton.mp hu]

namespace Step

theorem insert_eq {answer : Option Handle} (hstep : Step t (.insert a answer) t') :
    t.insert a = (answer, t') := by
  cases hstep
  rfl

theorem limit_eq (hstep : Step t use t') : t'.limit = t.limit := by
  cases hstep with
  | insert => exact insert_limit t _
  | remove => exact remove_limit t _
  | get | drain => rfl

theorem inOrder (hstep : Step t use t') (ht : t.InOrder) : t'.InOrder := by
  cases hstep with
  | insert a => exact insert_inOrder ht a
  | get => exact ht
  | remove h => exact remove_inOrder ht h
  | drain => exact ⟨ht.pos, ht.le⟩

theorem arranged (hstep : Step t use t') (ht : t.InOrder) (ha : t.Arranged) :
    t'.Arranged := by
  cases hstep with
  | insert a => exact insert_arranged ht ha a
  | get => exact ha
  | remove h => exact remove_arranged ha h
  | drain => exact t.drain_arranged

theorem size_le (hstep : Step t use t') (hsize : t.size ≤ t.limit.toNat) :
    t'.size ≤ t'.limit.toNat := by
  rw [hstep.limit_eq]
  cases hstep with
  | insert a => exact size_insert_le_limit hsize a
  | get => exact hsize
  | remove h => exact (size_remove_le t h).trans hsize
  | drain => exact Nat.zero_le _

/-- A use leaves under a handle what it has stored there itself, or what was there and
has not been ended. -/
theorem get?_eq_some_iff (hstep : Step t use t') (ht : t.InOrder) :
    t'.get? h = some a ↔ use = .insert a (some h) ∨ t.get? h = some a ∧
    ¬ use.Ends h := by
  cases hstep with
  | insert b =>
      rcases hinsert : t.insert b with ⟨_ | k, t'⟩
      · rw [eq_of_insert_none ht hinsert]
        simp [Use.Ends]
      · rw [(inserted_of_insert ht hinsert).get? h]
        by_cases hk : h = k
        · simp [Use.Ends, hk, eq_comm]
        · simp [Use.Ends, hk, Ne.symm hk]
  | get => simp [Use.Ends]
  | remove k =>
      rw [get?_remove]
      by_cases hk : h = k
      · simp [Use.Ends, hk]
      · simp [Use.Ends, hk, Ne.symm hk]
  | drain => simp [Use.Ends, HandleTable.drain, get?]

end Step

namespace Used

theorem limit_eq (hused : Used t₀ past t) : t.limit = t₀.limit := by
  induction hused with
  | start => rfl
  | snoc before step ih => exact step.limit_eq.trans ih

theorem inOrder (hused : Used t₀ past t) (ht : t₀.InOrder) : t.InOrder := by
  induction hused with
  | start => exact ht
  | snoc before step ih => exact step.inOrder ih

theorem arranged (hused : Used t₀ past t) (ht : t₀.InOrder) (ha : t₀.Arranged) :
    t.Arranged := by
  induction hused with
  | start => exact ha
  | snoc before step ih => exact step.arranged (before.inOrder ht) ih

theorem size_le (hused : Used t₀ past t) (hsize : t₀.size ≤ t₀.limit.toNat) :
    t.size ≤ t.limit.toNat := by
  induction hused with
  | start => exact hsize
  | snoc before step ih => exact step.size_le ih

theorem append (hearly : Used t₀ early t) (hlate : Used t late t') :
    Used t₀ (early ++ late) t' := by
  induction hlate with
  | start => rwa [List.append_nil]
  | snoc before step ih =>
      rw [← List.append_assoc]
      exact .snoc ih step

theorem exists_last (hused : Used t₀ (past ++ [use]) t') :
    ∃ t, Used t₀ past t ∧ Step t use t' := by
  generalize hwhole : past ++ [use] = whole at hused
  cases hused with
  | start => simp at hwhole
  | @snoc earlier t _ last before step =>
      obtain ⟨rfl, hlast⟩ := List.append_inj' hwhole rfl
      obtain rfl := List.head_eq_of_cons_eq hlast
      exact ⟨t, before, step⟩

theorem exists_between (hused : Used t₀ (early ++ late) t') :
    ∃ t, Used t₀ early t ∧ Used t late t' := by
  induction late using List.reverseRecOn generalizing t' with
  | nil =>
      rw [List.append_nil] at hused
      exact ⟨t', hused, .start⟩
  | append_singleton late use ih =>
      rw [← List.append_assoc] at hused
      obtain ⟨last, hbefore, step⟩ := hused.exists_last
      obtain ⟨t, hearly, hlate⟩ := ih hbefore
      exact ⟨t, hearly, hlate.snoc step⟩

section New

variable (hused : Used (withLimit limit) past t)

include hused

theorem limit_toNat : t.limit.toNat = max limit.toNat 1 := by
  rw [hused.limit_eq, toNat_withLimit_limit]

theorem get?_eq_some_iff_holds : t.get? h = some a ↔ Holds past h a := by
  induction hused with
  | start => exact iff_of_false (by simp [HandleTable.get?, withLimit]) not_holds_nil
  | snoc before step ih =>
      rw [step.get?_eq_some_iff (before.inOrder (withLimit_inOrder limit)),
        holds_snoc, ih]

theorem live_iff : Live past h ↔ t.isLive h := by
  rw [isLive_iff]
  exact exists_congr fun a => hused.get?_eq_some_iff_holds.symm

theorem ncard_live : {h | Live past h}.ncard = t.size := by
  have harranged := hused.arranged (withLimit_inOrder limit) (withLimit_arranged limit)
  have hnodup : (t.entries.map Prod.fst).Nodup :=
    List.pairwise_map.mpr (harranged.ascending.imp UInt32.ne_of_lt)
  have hkeys : {h | Live past h} =
      ((t.entries.map Prod.fst).toFinset : Set Handle) := by
    ext h
    exact hused.live_iff.trans (by simp [isLive])
  rw [hkeys, Set.ncard_coe_finset, List.toFinset_card_of_nodup hnodup,
    List.length_map, size]

end New

end Used

/-- The table answers as a map would that holds what the past tells, under handles up
to the limit. -/
structure Refines (limit : Handle) (past : List (Use α))
    (t : HandleTable α) : Prop where
  next : 1 ≤ t.next.toNat ∧ t.next.toNat ≤ max limit.toNat 1
  live : ∀ h, Live past h → 1 ≤ h.toNat ∧ h.toNat ≤ max limit.toNat 1
  get? : ∀ h a, t.get? h = some a ↔ Holds past h a
  zero : t.get? 0 = none
  full : ∀ a, (t.insert a).1 = none ↔ {h | Live past h}.ncard = max limit.toNat 1
  refused : ∀ a, (t.insert a).1 = none → (t.insert a).2 = t
  inserted : ∀ a h t', t.insert a = (some h, t') → ¬ Live past h ∧
    (∃ passed < max limit.toNat 1, t.Meets t.next passed h) ∧
      t'.get? h = some a ∧ ∀ k, k ≠ h → t'.get? k = t.get? k
  removed : ∀ h, (t.remove h).1 = t.get? h ∧ (t.remove h).2.get? h = none ∧
    ∀ k, k ≠ h → (t.remove h).2.get? k = t.get? k
  drained : t.drain.1.Pairwise (fun e f => e.1 < f.1) ∧
    (∀ h a, (h, a) ∈ t.drain.1 ↔ Holds past h a) ∧ ∀ h, t.drain.2.get? h = none

theorem Used.refines_map (hused : Used (withLimit limit) past t) :
    Refines limit past t := by
  have hlimit := hused.limit_toNat
  have hinOrder := hused.inOrder (withLimit_inOrder limit)
  have harranged := hused.arranged (withLimit_inOrder limit) (withLimit_arranged limit)
  have hsize := hused.size_le (Nat.zero_le _)
  have hlive (h : Handle) (hh : Live past h) : t.InRange h := by
    obtain ⟨a, hholds⟩ := hh
    have hmem :=
      (get?_eq_some_iff harranged).mp (hused.get?_eq_some_iff_holds.mpr hholds)
    exact harranged.inRange _ hmem
  refine ⟨⟨hinOrder.pos, hlimit ▸ hinOrder.le⟩,
    fun h hh => ⟨(hlive h hh).pos, hlimit ▸ (hlive h hh).le⟩,
    fun _ _ => hused.get?_eq_some_iff_holds, ?_, ?_, ?_, ?_, ?_, ?_⟩
  · rw [get?_eq_none_iff, ← Bool.not_eq_true, ← hused.live_iff]
    intro hzero
    exact absurd (hlive 0 hzero).pos (by decide)
  · intro a
    rw [hused.ncard_live, ← hlimit, insert_eq_none_iff hinOrder]
    exact ⟨fun hfull => Nat.le_antisymm hsize hfull, Nat.le_of_eq ∘ Eq.symm⟩
  · intro a hnone
    exact eq_of_insert_none hinOrder (Prod.ext hnone rfl)
  · intro a h t' hinsert
    have hinserted := inserted_of_insert hinOrder hinsert
    obtain ⟨hroom, ⟨passed, hpassed, hmeets⟩, -⟩ := insert_eq_some_iff.mp hinsert
    refine ⟨?_, ⟨passed, hlimit ▸ Nat.lt_of_le_of_lt hpassed hroom, hmeets⟩, ?_, ?_⟩
    · rw [hused.live_iff, hmeets.free]
      exact Bool.false_ne_true
    · rw [hinserted.get?, if_pos rfl]
    · intro k hk
      rw [hinserted.get?, if_neg hk]
  · intro h
    refine ⟨fst_remove t h, by rw [get?_remove, if_pos rfl], fun k hk => ?_⟩
    rw [get?_remove, if_neg hk]
  · refine ⟨harranged.ascending, fun h a => ?_, fun _ => rfl⟩
    rw [← hused.get?_eq_some_iff_holds, get?_eq_some_iff harranged]
    rfl

/-- A table of two handles that is filled, refuses a value, and starts over. -/
theorem crowded_refines :
    Used (withLimit 2) [.insert 'a' (some 1), .insert 'b' (some 2), .insert 'c' none,
      .remove 1 (some 'a'), .insert 'd' (some 1)] ⟨2, 2, [(1, 'd'), (2, 'b')]⟩ ∧
    Refines 2 [.insert 'a' (some 1), .insert 'b' (some 2), .insert 'c' none,
      .remove 1 (some 'a'), .insert 'd' (some 1)] ⟨2, 2, [(1, 'd'), (2, 'b')]⟩ := by
  have hused :
      Used (withLimit 2) [.insert 'a' (some 1), .insert 'b' (some 2),
        .insert 'c' none, .remove 1 (some 'a'), .insert 'd' (some 1)]
          ⟨2, 2, [(1, 'd'), (2, 'b')]⟩ :=
    ((((Used.start.snoc (.insert _ 'a')).snoc (.insert _ 'b')).snoc
      (.insert _ 'c')).snoc (.remove _ 1)).snoc (.insert _ 'd')
  exact ⟨hused, hused.refines_map⟩

end HandleTable

end Resumable
