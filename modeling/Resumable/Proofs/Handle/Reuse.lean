import Resumable.Proofs.Handle.History

/-!
# How late a handle comes again

The handle to try next goes round the handles of the table and passes over those that
are live. Before it has come round to one again, all others have been live; and on its
first round it gives them one after the other.
-/

namespace Resumable

namespace HandleTable

variable {α : Type} {past before since : List (Use α)} {use : Use α}
  {t t₀ t₁ t₂ : HandleTable α} {limit h k : Handle} {a b : α} {n : Nat}

/-- With `before` behind it, the handle is live at some moment of `since`, be it at
its start or its end. -/
def LiveWithin (before since : List (Use α)) (h : Handle) : Prop :=
  ∃ early late, since = early ++ late ∧ Live (before ++ early) h

theorem liveWithin_of_live (hlive : Live (before ++ since) h) :
    LiveWithin before since h :=
  ⟨since, [], (List.append_nil since).symm, hlive⟩

theorem LiveWithin.snoc (hwithin : LiveWithin before since h) (use : Use α) :
    LiveWithin before (since ++ [use]) h := by
  obtain ⟨early, late, rfl, hlive⟩ := hwithin
  exact ⟨early, late ++ [use], List.append_assoc _ _ _, hlive⟩

def Use.given? : Use α → Option Handle
  | .insert _ answer => answer
  | .get _ _ | .remove _ _ | .drain _ => none

def given (past : List (Use α)) : List Handle := past.filterMap Use.given?

theorem given_snoc (past : List (Use α)) (use : Use α) :
    given (past ++ [use]) = given past ++ use.given?.toList := by
  rw [given, List.filterMap_append]
  cases hgiven : use.given? <;> simp [given, hgiven]

theorem mem_given_of_live (hlive : Live past h) : h ∈ given past := by
  obtain ⟨a, before, since, rfl, -⟩ := hlive
  exact List.mem_filterMap.mpr ⟨.insert a (some h), by simp, rfl⟩

/-- Only a handle that is given moves the handle to try next, past itself and the live
ones before it. -/
theorem Step.next_cases (hstep : Step t₁ use t₂) (ht : t₁.InOrder) :
    (use.given? = none ∧ t₂.next = t₁.next) ∨
      ∃ n h, use.given? = some h ∧ t₁.Meets t₁.next n h ∧ t₂.next = t₁.successor h ∧
      t₂.isLive h := by
  cases hstep with
  | insert a =>
      rcases hinsert : t₁.insert a with ⟨_ | h, t₂⟩
      · exact .inl ⟨rfl, by rw [eq_of_insert_none ht hinsert]⟩
      · obtain ⟨-, ⟨n, -, hmeets⟩, rfl⟩ := insert_eq_some_iff.mp hinsert
        refine .inr ⟨n, h, rfl, hmeets, rfl, isLive_iff.mpr ⟨a, ?_⟩⟩
        rw [(inserted_of_insert ht hinsert).get?, if_pos rfl]
  | get => exact .inl ⟨rfl, rfl⟩
  | remove h => exact .inl ⟨rfl, remove_next t₁ h⟩
  | drain => exact .inl ⟨rfl, rfl⟩

theorem Step.passes (hstep : Step t₁ use t₂) (ht : t₁.InOrder) :
    ∃ n, t₂.next = t₁.successor^[n] t₁.next ∧
      ∀ m < n, t₁.isLive (t₁.successor^[m] t₁.next) ∨
      t₂.isLive (t₁.successor^[m] t₁.next) := by
  rcases hstep.next_cases ht with ⟨-, hnext⟩ | ⟨n, h, -, hmeets, hnext, hlive⟩
  · exact ⟨0, hnext, fun m hm => absurd hm (Nat.not_lt_zero m)⟩
  · refine ⟨n + 1, ?_, fun m hm => ?_⟩
    · rw [hnext, ← hmeets.reaches, ← Function.iterate_succ_apply' t₁.successor]
    · rcases Nat.lt_succ_iff_lt_or_eq.mp hm with hm | rfl
      · exact .inl (hmeets.passes m hm)
      · exact .inr (hmeets.reaches.symm ▸ hlive)

/-- The handles that are passed meanwhile have been live, each at its moment. -/
theorem Used.passes (hbefore : Used (withLimit limit) before t₁)
    (hsince : Used t₁ since t₂) : ∃ n, t₂.next = t₁.successor^[n] t₁.next ∧
      ∀ m < n, LiveWithin before since (t₁.successor^[m] t₁.next) := by
  induction hsince with
  | start => exact ⟨0, rfl, fun m hm => absurd hm (Nat.not_lt_zero m)⟩
  | @snoc since t t₂ use earlier step ih =>
      obtain ⟨d, hnext, hwithin⟩ := ih
      have hthen := hbefore.append earlier
      have hafter : Used (withLimit limit) (before ++ (since ++ [use])) t₂ :=
        List.append_assoc before since [use] ▸ hthen.snoc step
      obtain ⟨n, hlast, hlive⟩ := step.passes (hthen.inOrder (withLimit_inOrder limit))
      rw [successor_congr earlier.limit_eq, hnext] at hlast hlive
      refine ⟨n + d, by rw [hlast, Function.iterate_add_apply], fun m hm => ?_⟩
      rcases Nat.lt_or_ge m d with hpassed | hlater
      · exact (hwithin m hpassed).snoc use
      · obtain ⟨i, rfl⟩ := Nat.exists_eq_add_of_le' hlater
        have hi := hlive i (Nat.lt_of_add_lt_add_right hm)
        rw [← Function.iterate_add_apply] at hi
        rcases hi with hi | hi
        · exact (liveWithin_of_live (hthen.live_iff.mpr hi)).snoc use
        · exact liveWithin_of_live (hafter.live_iff.mpr hi)

/-- Between two times that a handle is given, every other handle of the table
has been live. -/
theorem Used.liveWithin
    (hused : Used (withLimit limit) (before ++ .insert a (some h) :: since) t)
    (hagain : (t.insert b).1 = some h) (hk : t.InRange k) (hne : k ≠ h) :
    LiveWithin (before ++ [.insert a (some h)]) since k := by
  obtain ⟨-, ⟨n, -, hmeets⟩, -⟩ := insert_eq_some_iff.mp (Prod.ext hagain rfl)
  have hh := hmeets.inRange (hused.inOrder (withLimit_inOrder limit))
  rw [List.append_cons] at hused
  obtain ⟨t₁, hbefore, hsince⟩ := hused.exists_between
  obtain ⟨t₀, -, hgiven⟩ := hbefore.exists_last
  obtain ⟨-, -, hleft⟩ := insert_eq_some_iff.mp hgiven.insert_eq
  obtain ⟨d, hround, hwithin⟩ := hbefore.passes hsince
  have hnext : t₁.next = t.successor h := by
    rw [← hleft, successor_congr (hsince.limit_eq.trans hgiven.limit_eq)]
  rw [← successor_congr hsince.limit_eq, hnext] at hround hwithin
  have hturn : t.limit.toNat ≤ n + d + 1 := by
    apply limit_le_of_iterate_eq hh
    rw [Function.iterate_succ_apply, Function.iterate_add_apply, ← hround,
      hmeets.reaches]
  obtain ⟨m, hm, rfl⟩ := exists_iterate_successor hh hk hne
  rcases Nat.lt_or_ge m d with hpassed | hlast
  · exact hwithin m hpassed
  · obtain ⟨j, rfl⟩ := Nat.exists_eq_add_of_le' hlast
    apply liveWithin_of_live
    rw [hused.live_iff, Function.iterate_add_apply, ← hround]
    exact hmeets.passes j (by omega)

/-- As long as not all handles have been given, the one to try next is the first
that has not. -/
structure FirstRound (past : List (Use α)) (t : HandleTable α) : Prop where
  inTurn : ∀ i h, (given past)[i]? = some h → i < t.limit.toNat → h.toNat = i + 1
  next : (given past).length < t.limit.toNat → t.next.toNat = (given past).length + 1

/-- Nothing is passed over on the first round: what is live has been given,
and is behind. -/
theorem FirstRound.next_eq (hfirst : FirstRound past t)
    (hused : Used (withLimit limit) past t)
    (hround : (given past).length < t.limit.toNat) (hmeets : t.Meets t.next n h) :
    t.next = h := by
  cases n with
  | zero => exact (meets_zero.mp hmeets).1
  | succ n =>
      have hlive := hused.live_iff.mpr (meets_succ.mp hmeets).1
      obtain ⟨i, hi⟩ := List.mem_iff_getElem?.mp (mem_given_of_live hlive)
      have hlt : i < (given past).length := (List.getElem?_eq_some_iff.mp hi).1
      have hturn := hfirst.inTurn i _ hi (hlt.trans hround)
      have hnext := hfirst.next hround
      omega

theorem FirstRound.snoc (hfirst : FirstRound past t₁)
    (hused : Used (withLimit limit) past t₁) (hstep : Step t₁ use t₂) :
    FirstRound (past ++ [use]) t₂ := by
  have ht := hused.inOrder (withLimit_inOrder limit)
  rcases hstep.next_cases ht with ⟨hnone, hnext⟩ | ⟨n, h, hgiven, hmeets, hnext, -⟩
  · have hsame : given (past ++ [use]) = given past := by simp [given_snoc, hnone]
    refine ⟨?_, ?_⟩
    · rw [hsame, hstep.limit_eq]
      exact hfirst.inTurn
    · rw [hsame, hstep.limit_eq, hnext]
      exact hfirst.next
  · have hmore : given (past ++ [use]) =
        given past ++ [h] := by simp [given_snoc, hgiven]
    have hturn (hround : (given past).length < t₁.limit.toNat) :
        h.toNat = (given past).length + 1 := by
      rw [← hfirst.next_eq hused hround hmeets, hfirst.next hround]
    refine ⟨?_, ?_⟩
    · rw [hmore, hstep.limit_eq]
      intro i k hk hi
      rcases Nat.lt_trichotomy i (given past).length with hold | rfl | hbeyond
      · rw [List.getElem?_append_left hold] at hk
        exact hfirst.inTurn i k hk hi
      · rw [List.getElem?_concat_length, Option.some.injEq] at hk
        rw [← hk, hturn hi]
      · rw [List.getElem?_eq_none (by simp; omega)] at hk
        cases hk
    · rw [hmore, hstep.limit_eq, hnext, List.length_append, List.length_singleton]
      intro hround
      rw [toNat_successor (hmeets.inRange ht), hturn (Nat.lt_of_succ_lt hround),
        Nat.mod_eq_of_lt hround]

theorem Used.firstRound (hused : Used (withLimit limit) past t) :
    FirstRound past t := by
  induction hused with
  | start => exact ⟨by simp [given], fun _ => rfl⟩
  | snoc before step ih => exact ih.snoc before step

/-- No handle comes again before its turn. -/
structure ReusesLate (limit : Handle) (past : List (Use α))
    (t : HandleTable α) : Prop where
  again : ∀ before a h since b behind,
    past = before ++ .insert a (some h) :: (since ++ .insert b (some h) :: behind) →
      ∀ k : Handle, 1 ≤ k.toNat → k.toNat ≤ max limit.toNat 1 → k ≠ h →
        LiveWithin (before ++ [.insert a (some h)]) since k
  -- The other handle has been free since this one was given, and not only since it
  -- was removed.
  stale : ∀ before a h since, past = before ++ .insert a (some h) :: since →
    ∀ k : Handle, 1 ≤ k.toNat → k.toNat ≤ max limit.toNat 1 → k ≠ h →
      ¬ LiveWithin (before ++ [.insert a (some h)]) since k →
      ∀ b, (t.insert b).1 ≠ some h
  firstRound : ∀ i h, (given past)[i]? = some h → i < max limit.toNat 1 →
    h.toNat = i + 1

theorem Used.reuse_delayed (hused : Used (withLimit limit) past t) :
    ReusesLate limit past t := by
  refine ⟨?_, ?_, ?_⟩
  · rintro before a h since b behind rfl k hpos hle hne
    rw [← List.cons_append, ← List.append_assoc, List.append_cons] at hused
    obtain ⟨t₂, hupTo, -⟩ := hused.exists_between
    obtain ⟨t₁, hthen, hagain⟩ := hupTo.exists_last
    exact hthen.liveWithin (congrArg Prod.fst hagain.insert_eq)
      ⟨hpos, hthen.limit_toNat ▸ hle⟩ hne
  · rintro before a h since rfl k hpos hle hne hfree b hagain
    exact hfree (hused.liveWithin hagain ⟨hpos, hused.limit_toNat ▸ hle⟩ hne)
  · intro i h hi hlt
    exact hused.firstRound.inTurn i h hi (hused.limit_toNat ▸ hlt)

/-- The handle 1 comes again while 2 is free, for 2 has been live since 1 was given. -/
theorem rotated_reuses_late :
    Used (withLimit 3) [.insert 'a' (some 1), .insert 'b' (some 2),
      .remove 2 (some 'b'), .insert 'c' (some 3), .remove 1 (some 'a'),
      .insert 'd' (some 1)] ⟨3, 2, [(1, 'd'), (3, 'c')]⟩ ∧
    ReusesLate 3 [.insert 'a' (some 1), .insert 'b' (some 2), .remove 2 (some 'b'),
      .insert 'c' (some 3), .remove 1 (some 'a'), .insert 'd' (some 1)]
        ⟨3, 2, [(1, 'd'), (3, 'c')]⟩ ∧
    LiveWithin [.insert 'a' (some 1)] [.insert 'b' (some 2), .remove 2 (some 'b'),
      .insert 'c' (some 3), .remove 1 (some 'a')] 2 := by
  have hused :
      Used (withLimit 3) [.insert 'a' (some 1), .insert 'b' (some 2),
        .remove 2 (some 'b'), .insert 'c' (some 3), .remove 1 (some 'a'),
        .insert 'd' (some 1)] ⟨3, 2, [(1, 'd'), (3, 'c')]⟩ :=
    (((((Used.start.snoc (.insert _ 'a')).snoc (.insert _ 'b')).snoc
      (.remove _ 2)).snoc (.insert _ 'c')).snoc (.remove _ 1)).snoc (.insert _ 'd')
  have hlate := hused.reuse_delayed
  exact ⟨hused, hlate,
    hlate.again [] 'a' 1 _ 'd' [] rfl 2 (by decide) (by decide) (by decide)⟩

end HandleTable

end Resumable
