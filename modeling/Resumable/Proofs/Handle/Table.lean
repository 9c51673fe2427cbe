import Mathlib.Data.Int.ModEq
import Mathlib.Data.List.Nodup
import Mathlib.Data.List.Perm.Subperm
import Mathlib.Logic.Function.Iterate
import Resumable.Handle.Table

namespace Resumable

namespace HandleTable

variable {α : Type} {t : HandleTable α} {h k : Handle} {a : α}

/-- A handle of the table, whether or not it is live. -/
structure InRange (t : HandleTable α) (h : Handle) : Prop where
  pos : 1 ≤ h.toNat
  le : h.toNat ≤ t.limit.toNat

def InOrder (t : HandleTable α) : Prop := t.InRange t.next

theorem toNat_withLimit_limit (limit : Handle) :
    (withLimit limit : HandleTable α).limit.toNat = max limit.toNat 1 := by
  change (if limit ≤ 1 then 1 else limit).toNat = max limit.toNat 1
  split
  · next hle => exact (Nat.max_eq_right (UInt32.le_iff_toNat_le.mp hle)).symm
  · next hlt =>
      exact (Nat.max_eq_left
        (Nat.le_of_lt (UInt32.lt_iff_toNat_lt.mp (UInt32.not_le.mp hlt)))).symm

theorem withLimit_inOrder (limit : Handle) :
    (withLimit limit : HandleTable α).InOrder := by
  refine ⟨Nat.le_refl 1, ?_⟩
  rw [toNat_withLimit_limit]
  exact Nat.le_max_right _ _

theorem successor_congr {t' : HandleTable α} (hlimit : t.limit = t'.limit) :
    t.successor = t'.successor := by
  funext h
  simp only [successor, hlimit]

theorem toNat_successor (hh : t.InRange h) :
    (t.successor h).toNat = h.toNat % t.limit.toNat + 1 := by
  have hle := hh.le
  unfold successor
  split
  · next hlast =>
      rw [Nat.le_antisymm hle (UInt32.le_iff_toNat_le.mp hlast), Nat.mod_self]
      rfl
  · next hnotLast =>
      have hlt := UInt32.lt_iff_toNat_lt.mp (UInt32.not_le.mp hnotLast)
      have hlimit := t.limit.toNat_lt
      rw [Nat.mod_eq_of_lt hlt, UInt32.toNat_add]
      exact Nat.mod_eq_of_lt (by simp; omega)

theorem successor_inRange (hh : t.InRange h) : t.InRange (t.successor h) := by
  have hmod := Nat.mod_lt h.toNat (Nat.lt_of_lt_of_le hh.pos hh.le)
  refine ⟨?_, ?_⟩ <;> rw [toNat_successor hh] <;> omega

theorem toNat_iterate_successor (n : Nat) (hh : t.InRange h) :
    (t.successor^[n] h).toNat = (h.toNat - 1 + n) % t.limit.toNat + 1 := by
  induction n generalizing h with
  | zero =>
      have := hh.pos
      have := hh.le
      rw [Nat.mod_eq_of_lt (by omega)]
      change h.toNat = _
      omega
  | succ n ih =>
      have hpos := hh.pos
      rw [Function.iterate_succ_apply, ih (successor_inRange hh), toNat_successor hh,
        Nat.add_sub_cancel, Nat.mod_add_mod, show h.toNat - 1 + (n + 1) =
        h.toNat + n by omega]

theorem iterate_successor_injective (hh : t.InRange h) {m n : Nat}
    (hm : m < t.limit.toNat) (hn : n < t.limit.toNat)
    (heq : t.successor^[m] h = t.successor^[n] h) : m = n := by
  have hmod := congrArg UInt32.toNat heq
  rw [toNat_iterate_successor m hh, toNat_iterate_successor n hh,
    Nat.add_right_cancel_iff] at hmod
  have hcancel : m ≡ n [MOD t.limit.toNat] := Nat.ModEq.add_left_cancel' _ hmod
  rwa [Nat.ModEq, Nat.mod_eq_of_lt hm, Nat.mod_eq_of_lt hn] at hcancel

theorem exists_iterate_successor (hh : t.InRange h) (hk : t.InRange k) (hne : k ≠ h) :
    ∃ n, n + 1 < t.limit.toNat ∧ t.successor^[n] (t.successor h) = k := by
  have hhpos := hh.pos
  have hhle := hh.le
  have hkpos := hk.pos
  have hkle := hk.le
  have hreach (n : Nat) (hn : (h.toNat - 1 + (n + 1)) % t.limit.toNat = k.toNat - 1) :
      t.successor^[n] (t.successor h) = k := by
    rw [← Function.iterate_succ_apply]
    apply UInt32.toNat_inj.mp
    rw [toNat_iterate_successor _ hh, hn, Nat.sub_add_cancel hkpos]
  rcases Nat.lt_or_gt_of_ne (mt UInt32.toNat_inj.mp hne) with hbehind | hahead
  · refine ⟨t.limit.toNat - h.toNat + k.toNat - 1, by omega, hreach _ ?_⟩
    rw [show h.toNat - 1 + (t.limit.toNat - h.toNat + k.toNat - 1 + 1) = k.toNat -
      1 + t.limit.toNat by omega, Nat.add_mod_right, Nat.mod_eq_of_lt (by omega)]
  · refine ⟨k.toNat - h.toNat - 1, by omega, hreach _ ?_⟩
    rw [show h.toNat - 1 + (k.toNat - h.toNat - 1 + 1) = k.toNat -
      1 by omega, Nat.mod_eq_of_lt (by omega)]

theorem limit_le_of_iterate_eq {n : Nat} (hh : t.InRange h)
    (heq : t.successor^[n + 1] h = h) : t.limit.toNat ≤ n + 1 := by
  by_contra hlt
  have hzero :=
    iterate_successor_injective hh (Nat.not_le.mp hlt)
      (Nat.lt_of_lt_of_le hh.pos hh.le) heq
  exact Nat.succ_ne_zero n hzero

theorem firstFree?_eq_none {n : Nat} (hnone : t.firstFree? n h = none) :
    ∀ m < n, t.isLive (t.successor^[m] h) := by
  induction n generalizing h with
  | zero => exact fun m hm => absurd hm (Nat.not_lt_zero m)
  | succ n ih =>
      unfold firstFree? at hnone
      split at hnone
      · next hlive =>
          intro m hm
          cases m with
          | zero => exact hlive
          | succ m => exact ih hnone m (Nat.lt_of_succ_lt_succ hm)
      · cases hnone

/-- From `h` on, `n` live handles are tried before `k`, which is free. -/
structure Meets (t : HandleTable α) (h : Handle) (n : Nat) (k : Handle) : Prop where
  reaches : t.successor^[n] h = k
  passes : ∀ m < n, t.isLive (t.successor^[m] h)
  free : t.isLive k = false

theorem meets_zero : t.Meets h 0 k ↔ h = k ∧ t.isLive k = false := by
  constructor
  · intro hmeets
    exact ⟨hmeets.reaches, hmeets.free⟩
  · rintro ⟨rfl, hfree⟩
    exact ⟨rfl, by simp, hfree⟩

theorem meets_succ {n : Nat} :
    t.Meets h (n + 1) k ↔ t.isLive h ∧ t.Meets (t.successor h) n k := by
  constructor
  · intro hmeets
    exact ⟨hmeets.passes 0 (Nat.succ_pos n), hmeets.reaches,
      fun m hm => hmeets.passes (m + 1) (Nat.succ_lt_succ hm), hmeets.free⟩
  · rintro ⟨hlive, hmeets⟩
    refine ⟨hmeets.reaches, fun m hm => ?_, hmeets.free⟩
    cases m with
    | zero => exact hlive
    | succ m => exact hmeets.passes m (Nat.lt_of_succ_lt_succ hm)

theorem firstFree?_eq_some_iff {n : Nat} :
    t.firstFree? n h = some k ↔ ∃ m < n, t.Meets h m k := by
  induction n generalizing h with
  | zero => simp [firstFree?]
  | succ n ih =>
      rw [firstFree?, Nat.exists_lt_succ_left]
      simp only [meets_zero, meets_succ]
      by_cases hlive : t.isLive h
      · have hdead : ¬ (h = k ∧ t.isLive k = false) := by
          rintro ⟨rfl, hfree⟩
          simp [hlive] at hfree
        simp [hlive, hdead, ih]
      · rw [if_neg hlive, Option.some.injEq]
        simp only [hlive]
        constructor
        · rintro rfl
          exact .inl ⟨rfl, by simpa using hlive⟩
        · rintro (⟨heq, -⟩ | ⟨m, -, hfalse, -⟩)
          · exact heq
          · exact absurd hfalse (by simp)

theorem Meets.inRange {n : Nat} (hmeets : t.Meets h n k) (hh : t.InRange h) :
    t.InRange k := by
  rw [← hmeets.reaches]
  exact Nat.rec hh
    (fun m ih => by rw [Function.iterate_succ_apply']; exact successor_inRange ih) n

theorem firstFree?_isSome (ht : t.InOrder) (hroom : t.size < t.limit.toNat) :
    (t.firstFree? (t.size + 1) t.next).isSome := by
  rw [Option.isSome_iff_ne_none]
  intro hnone
  have hlive := firstFree?_eq_none hnone
  have htried :
      ((List.range (t.size + 1)).map fun n => t.successor^[n] t.next).Nodup := by
    refine List.Nodup.map_on ?_ List.nodup_range
    intro m hm n hn heq
    rw [List.mem_range] at hm hn
    exact iterate_successor_injective ht (by omega) (by omega) heq
  have hsub : ((List.range (t.size + 1)).map fun n => t.successor^[n] t.next) ⊆
      t.entries.map Prod.fst := by
    intro x hx
    obtain ⟨n, hn, rfl⟩ := List.mem_map.mp hx
    obtain ⟨e, he, heq⟩ := List.any_eq_true.mp (hlive n (List.mem_range.mp hn))
    exact List.mem_map.mpr ⟨e, he, eq_of_beq heq⟩
  have hle := (List.subperm_of_subset htried hsub).length_le
  rw [List.length_map, List.length_map, List.length_range] at hle
  exact absurd hle (Nat.not_le.mpr (Nat.lt_succ_self _))

theorem get?_eq_none_iff : t.get? h = none ↔ t.isLive h = false := by
  simp [get?, isLive]

theorem isLive_iff : t.isLive h ↔ ∃ a, t.get? h = some a := by
  rw [← Option.ne_none_iff_exists', Ne, get?_eq_none_iff, Bool.not_eq_false]

theorem find?_place {l : List (Handle × α)} (hfree : l.any (·.1 == h) = false) :
    ((place h a l).find? (·.1 == k)).map Prod.snd =
      if k = h then some a else (l.find? (·.1 == k)).map Prod.snd := by
  induction l with
  | nil =>
      by_cases hk : k = h
      · simp [place, hk]
      · simp [place, hk, Ne.symm hk]
  | cons e rest ih =>
      rw [List.any_cons, Bool.or_eq_false_iff] at hfree
      have hne : e.1 ≠ h := by simpa using hfree.1
      unfold place
      split
      · by_cases hk : h = k
        · simp [hk]
        · simp [hk, Ne.symm hk]
      · by_cases hk : e.1 = k
        · subst hk
          simp [hne]
        · simp only [List.find?_cons, beq_eq_false_iff_ne.mpr hk]
          exact ih hfree.2

/-- All that an insertion can come to: a free handle is met and given, or every
handle is live. -/
theorem insert_eq_some_iff {t' : HandleTable α} : t.insert a = (some h, t') ↔
    t.size < t.limit.toNat ∧ (∃ n ≤ t.size, t.Meets t.next n h) ∧
      { t with next := t.successor h, entries := place h a t.entries } = t' := by
  unfold insert
  split
  · next hfull => simp [Nat.not_lt.mpr hfull]
  · next hroom =>
      simp only [Nat.not_le.mp hroom, true_and, ← Nat.lt_succ_iff,
        ← firstFree?_eq_some_iff]
      cases t.firstFree? (t.size + 1) t.next with
      | none => simp
      | some k =>
          simp only [Prod.mk.injEq, Option.some.injEq]
          constructor
          · rintro ⟨rfl, heq⟩
            exact ⟨rfl, heq⟩
          · rintro ⟨rfl, heq⟩
            exact ⟨rfl, heq⟩

theorem insert_of_full (hfull : t.limit.toNat ≤ t.size) (a : α) :
    t.insert a = (none, t) := by
  rw [insert, if_pos hfull]

structure Inserted (t : HandleTable α) (a : α) (h : Handle)
    (t' : HandleTable α) : Prop where
  inRange : t.InRange h
  fresh : t.get? h = none
  limit : t'.limit = t.limit
  inOrder : t'.InOrder
  get? : ∀ k, t'.get? k = if k = h then some a else t.get? k

theorem inserted_of_insert (ht : t.InOrder) {t' : HandleTable α}
    (h' : t.insert a = (some h, t')) : t.Inserted a h t' := by
  obtain ⟨-, ⟨n, -, hmeets⟩, rfl⟩ := insert_eq_some_iff.mp h'
  have hrange := hmeets.inRange ht
  have hnext := successor_inRange hrange
  exact ⟨hrange, get?_eq_none_iff.mpr hmeets.free, rfl, ⟨hnext.pos, hnext.le⟩,
    fun k => find?_place hmeets.free⟩

theorem insert_of_room (ht : t.InOrder) (hroom : t.size < t.limit.toNat) (a : α) :
    ∃ h t', t.insert a = (some h, t') ∧ t.Inserted a h t' := by
  obtain ⟨h, hh⟩ := Option.isSome_iff_exists.mp (firstFree?_isSome ht hroom)
  obtain ⟨n, hn, hmeets⟩ := firstFree?_eq_some_iff.mp hh
  have hinsert : t.insert a = (some h, _) :=
    insert_eq_some_iff.mpr ⟨hroom, ⟨n, Nat.le_of_lt_succ hn, hmeets⟩, rfl⟩
  exact ⟨h, _, hinsert, inserted_of_insert ht hinsert⟩

theorem insert_eq_none_iff (ht : t.InOrder) :
    (t.insert a).1 = none ↔ t.limit.toNat ≤ t.size := by
  rcases Nat.lt_or_ge t.size t.limit.toNat with hroom | hfull
  · obtain ⟨h, t', hinsert, -⟩ := insert_of_room ht hroom a
    simp [hinsert, Nat.not_le.mpr hroom]
  · simp [insert_of_full hfull, hfull]

theorem full_of_insert (ht : t.InOrder) {t' : HandleTable α}
    (hinsert : t.insert a = (none, t')) : t.limit.toNat ≤ t.size :=
  (insert_eq_none_iff ht).mp (congrArg Prod.fst hinsert)

theorem eq_of_insert_none (ht : t.InOrder) {t' : HandleTable α}
    (hinsert : t.insert a = (none, t')) : t' = t := by
  rw [insert_of_full (full_of_insert ht hinsert)] at hinsert
  exact (congrArg Prod.snd hinsert).symm

theorem fst_remove (t : HandleTable α) (h : Handle) : (t.remove h).1 = t.get? h := by
  unfold remove
  split
  · next hnone => exact hnone.symm
  · next hsome => exact hsome.symm

theorem get?_remove (t : HandleTable α) (h k : Handle) :
    (t.remove h).2.get? k = if k = h then none else t.get? k := by
  unfold remove
  split
  · next hnone =>
      split
      · next hk => rw [hk, hnone]
      · rfl
  · simp only [get?, List.find?_filter]
    split
    · next hk =>
        rw [hk, List.find?_eq_none.mpr fun e _ => by simp, Option.map_none]
    · next hk =>
        refine congrArg (fun p => (t.entries.find? p).map Prod.snd) (funext fun e => ?_)
        by_cases he : e.1 = k
        · simp [he, hk]
        · simp [he]

theorem remove_limit (t : HandleTable α) (h : Handle) :
    (t.remove h).2.limit = t.limit := by
  unfold remove
  split <;> rfl

theorem remove_next (t : HandleTable α) (h : Handle) :
    (t.remove h).2.next = t.next := by
  unfold remove
  split <;> rfl

theorem remove_inOrder (ht : t.InOrder) (h : Handle) : (t.remove h).2.InOrder := by
  unfold remove
  split
  · exact ht
  · exact ⟨ht.pos, ht.le⟩

theorem insert_limit (t : HandleTable α) (a : α) : (t.insert a).2.limit = t.limit := by
  unfold insert
  split
  · rfl
  · split <;> rfl

theorem insert_inOrder (ht : t.InOrder) (a : α) : (t.insert a).2.InOrder := by
  rcases Nat.lt_or_ge t.size t.limit.toNat with hroom | hfull
  · obtain ⟨h, t', hinsert, hinserted⟩ := insert_of_room ht hroom a
    rw [hinsert]
    exact hinserted.inOrder
  · rw [insert_of_full hfull]
    exact ht

theorem get?_modify (t : HandleTable α) (h k : Handle) (f : α → α) :
    (t.modify h f).get? k = if k = h then (t.get? h).map f else t.get? k := by
  rcases t with ⟨limit, next, entries⟩
  simp only [get?, modify, List.find?_map, Option.map_map]
  have hkey :
      ((fun e : Handle × α => e.1 == k) ∘ fun e => if e.1 == h then (e.1, f e.2) else
        e) = fun e => e.1 == k := by
    funext e
    simp only [Function.comp_apply]
    split <;> rfl
  rw [hkey]
  split
  · next hk =>
      subst hk
      cases hfound : entries.find? fun e => e.1 == k with
      | none => rfl
      | some e =>
          have he : e.1 = k := by simpa using List.find?_some hfound
          simp [he]
  · next hk =>
      cases hfound : entries.find? fun e => e.1 == k with
      | none => rfl
      | some e =>
          have he : e.1 = k := by simpa using List.find?_some hfound
          simp [he, hk]

/-- No handle is live twice, and 0 never is. -/
structure Distinct (t : HandleTable α) : Prop where
  nodup : (t.entries.map Prod.fst).Nodup
  ne_zero : ∀ h ∈ t.entries.map Prod.fst, h ≠ 0

theorem withLimit_distinct (limit : Handle) :
    (withLimit limit : HandleTable α).Distinct :=
  ⟨List.nodup_nil, fun _ hh => nomatch hh⟩

theorem place_perm (h : Handle) (a : α) (l : List (Handle × α)) :
    (place h a l).Perm ((h, a) :: l) := by
  induction l with
  | nil => exact .refl _
  | cons e rest ih =>
      unfold place
      split
      · exact .refl _
      · exact (ih.cons e).trans (.swap _ _ _)

theorem length_place (h : Handle) (a : α) (l : List (Handle × α)) :
    (place h a l).length = l.length + 1 :=
  (place_perm h a l).length_eq

theorem size_insert_le (t : HandleTable α) (a : α) :
    (t.insert a).2.size ≤ t.size + 1 := by
  unfold insert
  split
  · exact Nat.le_succ _
  · split
    · exact Nat.le_succ _
    · exact (length_place _ _ _).le

theorem size_remove_le (t : HandleTable α) (h : Handle) :
    (t.remove h).2.size ≤ t.size := by
  unfold remove
  split
  · exact Nat.le_refl _
  · exact List.length_filter_le _ _

theorem size_insert_le_limit (hsize : t.size ≤ t.limit.toNat) (a : α) :
    (t.insert a).2.size ≤ t.limit.toNat := by
  rcases Nat.lt_or_ge t.size t.limit.toNat with hroom | hfull
  · exact (size_insert_le t a).trans hroom
  · rwa [insert_of_full hfull]

theorem insert_distinct (ht : t.InOrder) (hd : t.Distinct) (a : α) :
    (t.insert a).2.Distinct := by
  rcases Nat.lt_or_ge t.size t.limit.toNat with hroom | hfull
  · obtain ⟨h, t', hinsert, hinserted⟩ := insert_of_room ht hroom a
    obtain ⟨-, -, rfl⟩ := insert_eq_some_iff.mp hinsert
    have hkeys :
        ((place h a t.entries).map Prod.fst).Perm (h :: t.entries.map Prod.fst) :=
      (place_perm h a t.entries).map Prod.fst
    have hnew : h ∉ t.entries.map Prod.fst := by
      have hfree := get?_eq_none_iff.mp hinserted.fresh
      rw [isLive, List.any_eq_false] at hfree
      intro hmem
      obtain ⟨e, he, rfl⟩ := List.mem_map.mp hmem
      exact hfree e he (beq_self_eq_true _)
    rw [hinsert]
    refine ⟨hkeys.nodup_iff.mpr (List.nodup_cons.mpr ⟨hnew, hd.nodup⟩), fun k hk => ?_⟩
    obtain rfl | hk := List.mem_cons.mp (hkeys.mem_iff.mp hk)
    · rintro rfl
      exact absurd hinserted.inRange.pos (by decide)
    · exact hd.ne_zero k hk
  · rw [insert_of_full hfull]
    exact hd

theorem remove_distinct (hd : t.Distinct) (h : Handle) : (t.remove h).2.Distinct := by
  unfold remove
  split
  · exact hd
  · have hsub :=
      (List.filter_sublist (l := t.entries) (p := fun e => e.1 != h)).map Prod.fst
    exact ⟨hd.nodup.sublist hsub, fun k hk => hd.ne_zero k (hsub.subset hk)⟩

theorem modify_distinct (hd : t.Distinct) (h : Handle) (f : α → α) :
    (t.modify h f).Distinct := by
  have hkeys : (t.modify h f).entries.map Prod.fst = t.entries.map Prod.fst := by
    rw [modify, List.map_map]
    refine List.map_congr_left fun e _ => ?_
    rw [Function.comp_apply]
    split <;> rfl
  exact ⟨hkeys ▸ hd.nodup, hkeys ▸ hd.ne_zero⟩

structure Sound (t : HandleTable α) : Prop where
  inOrder : t.InOrder
  distinct : t.Distinct

theorem withLimit_sound (limit : Handle) : (withLimit limit : HandleTable α).Sound :=
  ⟨withLimit_inOrder limit, withLimit_distinct limit⟩

theorem insert_sound (ht : t.Sound) (a : α) : (t.insert a).2.Sound :=
  ⟨insert_inOrder ht.inOrder a, insert_distinct ht.inOrder ht.distinct a⟩

theorem remove_sound (ht : t.Sound) (h : Handle) : (t.remove h).2.Sound :=
  ⟨remove_inOrder ht.inOrder h, remove_distinct ht.distinct h⟩

theorem modify_sound (ht : t.Sound) (h : Handle) (f : α → α) : (t.modify h f).Sound :=
  ⟨⟨ht.inOrder.pos, ht.inOrder.le⟩, modify_distinct ht.distinct h f⟩

theorem drain_sound (ht : t.Sound) : t.drain.2.Sound :=
  ⟨⟨ht.inOrder.pos, ht.inOrder.le⟩, List.nodup_nil, fun _ hh => nomatch hh⟩

/-- The entries ascend, under handles of the table. -/
structure Arranged (t : HandleTable α) : Prop where
  ascending : t.entries.Pairwise fun e f => e.1 < f.1
  inRange : ∀ e ∈ t.entries, t.InRange e.1

theorem withLimit_arranged (limit : Handle) :
    (withLimit limit : HandleTable α).Arranged :=
  ⟨.nil, fun _ he => nomatch he⟩

theorem place_ascending {l : List (Handle × α)} (hl : l.Pairwise fun e f => e.1 < f.1)
    (hfree : l.any (·.1 == h) = false) :
    (place h a l).Pairwise fun e f => e.1 < f.1 := by
  induction l with
  | nil => exact List.pairwise_singleton _ _
  | cons e rest ih =>
      rw [List.any_cons, Bool.or_eq_false_iff] at hfree
      rw [List.pairwise_cons] at hl
      unfold place
      split
      · next hlt =>
          refine List.pairwise_cons.mpr ⟨?_, List.pairwise_cons.mpr hl⟩
          intro f hf
          rcases List.mem_cons.mp hf with rfl | hf
          · exact hlt
          · exact UInt32.lt_trans hlt (hl.1 f hf)
      · next hnotLt =>
          have hne : e.1 ≠ h := by simpa using hfree.1
          have hlt : e.1 < h := UInt32.lt_of_le_of_ne (UInt32.not_lt.mp hnotLt) hne
          refine List.pairwise_cons.mpr ⟨?_, ih hl.2 hfree.2⟩
          intro f hf
          rcases List.mem_cons.mp ((place_perm h a rest).mem_iff.mp hf) with rfl | hf
          · exact hlt
          · exact hl.1 f hf

theorem insert_arranged (ht : t.InOrder) (ha : t.Arranged) (a : α) :
    (t.insert a).2.Arranged := by
  rcases Nat.lt_or_ge t.size t.limit.toNat with hroom | hfull
  · obtain ⟨h, t', hinsert, hinserted⟩ := insert_of_room ht hroom a
    obtain ⟨-, -, rfl⟩ := insert_eq_some_iff.mp hinsert
    rw [hinsert]
    refine ⟨place_ascending ha.ascending (get?_eq_none_iff.mp hinserted.fresh),
      fun e he => ?_⟩
    rcases List.mem_cons.mp ((place_perm h a t.entries).mem_iff.mp he) with rfl | he
    · exact ⟨hinserted.inRange.pos, hinserted.inRange.le⟩
    · exact ⟨(ha.inRange e he).pos, (ha.inRange e he).le⟩
  · rw [insert_of_full hfull]
    exact ha

theorem remove_arranged (ha : t.Arranged) (h : Handle) : (t.remove h).2.Arranged := by
  unfold remove
  split
  · exact ha
  · refine ⟨ha.ascending.filter _, fun e he => ?_⟩
    have hrange := ha.inRange e (List.mem_of_mem_filter he)
    exact ⟨hrange.pos, hrange.le⟩

theorem drain_arranged (t : HandleTable α) : t.drain.2.Arranged :=
  ⟨.nil, fun _ he => nomatch he⟩

theorem get?_eq_some_iff (ha : t.Arranged) :
    t.get? h = some a ↔ (h, a) ∈ t.entries := by
  have hentries := ha.ascending
  unfold get?
  generalize t.entries = entries at hentries ⊢
  induction entries with
  | nil => simp
  | cons e rest ih =>
      rw [List.pairwise_cons] at hentries
      by_cases he : e.1 = h
      · have hlater : (h, a) ∉ rest := by
          intro hmem
          have hlt := hentries.1 (h, a) hmem
          rw [he] at hlt
          exact UInt32.lt_irrefl h hlt
        subst he
        simp [hlater, Prod.ext_iff, eq_comm]
      · have hother : (h, a) ≠ e := by
          rintro rfl
          exact he rfl
        simp only [List.find?_cons, beq_eq_false_iff_ne.mpr he, List.mem_cons,
          hother, false_or]
        exact ih hentries.2

end HandleTable

end Resumable
