import Resumable.Proofs.Config.Multiline
import Resumable.Proofs.Config.Progress

namespace Resumable

open Toml Environment

namespace Toml

variable {env : Environment} {long : Bool} {t r front back : List Char} {v : Toml}
  {p : Char → Bool}

theorem dollar_of_digits (hp : p '$' = false) {ds : List Char}
    (h : digits? p t = some ds) : '$' ∉ t := by
  have hne : ∀ c, p c = true → '$' ≠ c := by
    rintro c hc rfl
    rw [hp] at hc
    cases hc
  induction t using digits?.induct p generalizing ds with
  | case1 => exact List.not_mem_nil
  | case2 c hc => simpa using hne c hc
  | case3 c hc => simp [digits?, hc] at h
  | case4 c d rest hc ih =>
      rw [digits?, if_pos hc] at h
      obtain ⟨ds', hds, -⟩ := Option.map_eq_some_iff.mp h
      have hrest := ih hds
      simpa [hne c hc] using hrest
  | case5 c d rest hc => simp [digits?, hc] at h
  | case6 c d rest hunderscore hc ih =>
      rw [digits?, if_pos hc] at h
      · obtain ⟨ds', hds, -⟩ := Option.map_eq_some_iff.mp h
        have hrest := ih hds
        rw [List.mem_cons, not_or]
        exact ⟨hne c hc, hrest⟩
      · exact hunderscore
  | case7 c d rest hunderscore hc =>
      rw [digits?, if_neg hc] at h
      · cases h
      · exact hunderscore

theorem dollar_of_splitSign (h : '$' ∉ (splitSign t).2) : '$' ∉ t := by
  unfold splitSign at h
  split at h
  · simpa using h
  · simpa using h
  · exact h

theorem dollar_of_decimal {ds : List Char} (h : decimal? t = some ds) : '$' ∉ t := by
  rw [decimal?] at h
  split at h
  · cases h
  · exact dollar_of_digits (by decide) h

theorem dollar_of_integer (h : integer? t = some v) : '$' ∉ t := by
  have hbase : ∀ (p : Char → Bool) base mark rest, p '$' = false → '$' ≠ mark →
      ((digits? p rest).bind fun ds => inRange (ofDigits base ds)) = some v →
      '$' ∉ '0' :: mark :: rest := by
    intro p base mark rest hp hmark h
    obtain ⟨ds, hds, -⟩ := Option.bind_eq_some_iff.mp h
    have hrest := dollar_of_digits hp hds
    simp [hmark, hrest]
  unfold integer? at h
  split at h
  · exact hbase isHex 16 'x' _ (by decide) (by decide) h
  · exact hbase isOctal 8 'o' _ (by decide) (by decide) h
  · exact hbase isBinary 2 'b' _ (by decide) (by decide) h
  · obtain ⟨ds, hds, -⟩ := Option.bind_eq_some_iff.mp h
    exact dollar_of_splitSign (dollar_of_decimal hds)

theorem splitAt_eq_some (h : splitAt? p t = some (front, back)) :
    ∃ c, p c = true ∧ t = front ++ c :: back := by
  rw [splitAt?, List.span_eq_takeWhile_dropWhile] at h
  split at h
  · cases h
  · next c _ heq =>
      cases h
      obtain ⟨rfl, hdrop⟩ := Prod.mk.inj heq
      refine ⟨c, ?_, by rw [← hdrop, List.takeWhile_append_dropWhile]⟩
      have hstop := List.head?_dropWhile_not (!p ·) t
      rw [hdrop] at hstop
      simpa using hstop

theorem dollar_of_splitAt (hp : p '$' = false) (h : splitAt? p t = some (front, back))
    (hfront : '$' ∉ front) (hback : '$' ∉ back) : '$' ∉ t := by
  obtain ⟨c, hc, rfl⟩ := splitAt_eq_some h
  have hne : '$' ≠ c := by
    rintro rfl
    rw [hp] at hc
    cases hc
  simp [hfront, hback, hne]

theorem dollar_of_exponent {n : Int} (h : exponent? t = some n) : '$' ∉ t := by
  rw [exponent?] at h
  obtain ⟨ds, hds, -⟩ := Option.map_eq_some_iff.mp h
  exact dollar_of_splitSign (dollar_of_digits (by decide) hds)

theorem dollar_of_point {a b : List Char}
    (h : splitAt? (· == '.') t = some (front, back))
    (hfront : decimal? front = some a) (hback : digits? Char.isDigit back = some b) :
    '$' ∉ t :=
  dollar_of_splitAt (by decide) h (dollar_of_decimal hfront)
    (dollar_of_digits (by decide) hback)

theorem dollar_of_finiteFloat {found : Nat × Int} (h : finiteFloat? t = some found) :
    '$' ∉ t := by
  rw [finiteFloat?] at h
  cases hsplit : splitAt? (fun c => c == 'e' || c == 'E') t with
  | none =>
      simp only [hsplit, bind, Option.bind_some, pure] at h
      split at h
      · cases h
      · next hpoint =>
          obtain ⟨a, ha, h⟩ := Option.bind_eq_some_iff.mp h
          obtain ⟨b, hb, -⟩ := Option.bind_eq_some_iff.mp h
          exact dollar_of_point hpoint ha hb
  | some parts =>
      obtain ⟨m, e⟩ := parts
      simp only [hsplit, bind, Option.bind_some, pure] at h
      obtain ⟨scale, hscale, h⟩ := Option.bind_eq_some_iff.mp h
      refine dollar_of_splitAt (by decide) hsplit ?_ (dollar_of_exponent hscale)
      split at h
      · obtain ⟨a, ha, -⟩ := Option.bind_eq_some_iff.mp h
        exact dollar_of_decimal ha
      · next hpoint =>
          obtain ⟨a, ha, h⟩ := Option.bind_eq_some_iff.mp h
          obtain ⟨b, hb, -⟩ := Option.bind_eq_some_iff.mp h
          exact dollar_of_point hpoint ha hb

theorem dollar_of_float (h : float? t = some v) : '$' ∉ t := by
  rw [float?] at h
  apply dollar_of_splitSign
  cases hsign : splitSign t with
  | mk negative magnitude =>
      simp only [hsign] at h ⊢
      split at h
      · next hword =>
          rcases hword with rfl | rfl <;> decide
      split at h
      · next hfound => exact dollar_of_finiteFloat hfound
      · cases h

theorem dollar_of_fixed {count n : Nat} (h : fixed? count t = some (n, r))
    (hr : '$' ∉ r) : '$' ∉ t := by
  rw [fixed?] at h
  split at h
  · next hfront =>
      cases h
      intro hmem
      rw [← List.take_append_drop count t, List.mem_append] at hmem
      rcases hmem with hmem | hmem
      · exact absurd (List.all_eq_true.mp hfront.2 _ hmem) (by decide)
      · exact hr hmem
  · cases h

theorem dollar_of_expect {c : Char} (hc : c ≠ '$') (h : expect? c t = some r)
    (hr : '$' ∉ r) : '$' ∉ t := by
  unfold expect? at h
  split at h
  · split at h
    · next heq =>
        cases h
        subst heq
        simp [hr, Ne.symm hc]
    · cases h
  · cases h

theorem dollar_of_date (h : date? t = some r) (hr : '$' ∉ r) : '$' ∉ t := by
  rw [date?] at h
  obtain ⟨⟨year, t₁⟩, h₁, h⟩ := Option.bind_eq_some_iff.mp h
  obtain ⟨t₂, h₂, h⟩ := Option.bind_eq_some_iff.mp h
  obtain ⟨⟨month, t₃⟩, h₃, h⟩ := Option.bind_eq_some_iff.mp h
  obtain ⟨t₄, h₄, h⟩ := Option.bind_eq_some_iff.mp h
  obtain ⟨⟨day, t₅⟩, h₅, h⟩ := Option.bind_eq_some_iff.mp h
  dsimp only at *
  split at h
  · cases h
    exact dollar_of_fixed h₁ (dollar_of_expect (by decide) h₂ (dollar_of_fixed h₃
      (dollar_of_expect (by decide) h₄ (dollar_of_fixed h₅ hr))))
  · cases h

theorem dollar_of_seconds (h : seconds? t = some r) (hr : '$' ∉ r) : '$' ∉ t := by
  unfold seconds? at h
  split at h
  · next text =>
      obtain ⟨⟨second, t'⟩, hfixed, h⟩ := Option.bind_eq_some_iff.mp h
      have ht : '$' ∉ t' := by
        dsimp only at h
        split at h
        · cases h
        split at h
        · next rest =>
            rw [List.span_eq_takeWhile_dropWhile] at h
            split at h
            · cases h
            · cases h
              intro hmem
              rw [List.mem_cons,
                ← List.takeWhile_append_dropWhile (p := Char.isDigit) (l := rest),
                List.mem_append] at hmem
              rcases hmem with hmem | hmem | hmem
              · cases hmem
              · exact absurd (List.all_eq_true.mp List.all_takeWhile _ hmem) (by decide)
              · exact hr hmem
        · cases h
          exact hr
      have hrest := dollar_of_fixed hfixed ht
      simp [hrest]
  · cases h
    exact hr

theorem dollar_of_time (h : time? t = some r) (hr : '$' ∉ r) : '$' ∉ t := by
  rw [time?] at h
  obtain ⟨⟨hour, t₁⟩, h₁, h⟩ := Option.bind_eq_some_iff.mp h
  obtain ⟨t₂, h₂, h⟩ := Option.bind_eq_some_iff.mp h
  obtain ⟨⟨minute, t₃⟩, h₃, h⟩ := Option.bind_eq_some_iff.mp h
  dsimp only at *
  split at h
  · cases h
  · exact dollar_of_fixed h₁
      (dollar_of_expect (by decide) h₂ (dollar_of_fixed h₃ (dollar_of_seconds h hr)))

theorem dollar_of_offset (h : isOffset t = true) : '$' ∉ t := by
  unfold isOffset at h
  split at h
  · exact List.not_mem_nil
  · decide
  · decide
  · next c rest _ _ =>
      split at h
      · next hsign =>
          have hc : '$' ≠ c := by
            rintro rfl
            exact absurd hsign (by decide)
          split at h
          · next hour more hfixed =>
              split at h
              · next minute hminute =>
                  have hmore := dollar_of_fixed hminute List.not_mem_nil
                  have hrest := dollar_of_fixed hfixed (by simp [hmore])
                  simp [hc, hrest]
              · cases h
          · cases h
      · cases h

theorem dollar_of_datetime (h : isDatetime t = true) : '$' ∉ t := by
  rw [isDatetime] at h
  split at h
  · next hdate => exact dollar_of_date hdate List.not_mem_nil
  · next c rest hdate =>
      rw [Bool.and_eq_true] at h
      obtain ⟨hmark, h⟩ := h
      have hc : '$' ≠ c := by
        rintro rfl
        exact absurd hmark (by decide)
      split at h
      · next offset htime =>
          have hrest := dollar_of_time htime (dollar_of_offset h)
          exact dollar_of_date hdate (by simp [hc, hrest])
      · cases h
  · exact dollar_of_time (by simpa using h) List.not_mem_nil

theorem dollar_of_scalar (h : scalar? t = some v) : '$' ∉ t := by
  rw [scalar?] at h
  split at h
  · next hword =>
      rw [hword]
      decide
  split at h
  · next hword =>
      rw [hword]
      decide
  split at h
  · next hdate => exact dollar_of_datetime hdate
  split at h
  · next hinteger => exact dollar_of_integer hinteger
  · exact dollar_of_float h

theorem span_expandChars {word : List Char} (h : t.span p = (word, r))
    (hword : '$' ∉ word) (hr : r.head? ≠ some '$') :
    (env.expandChars t).span p = (word, env.expandChars r) := by
  obtain ⟨rfl, htaken, hstop⟩ := span_eq h
  rw [expandChars_append hword]
  apply span_append htaken
  rw [head?_expandChars hr]
  exact hstop

theorem Ends.of_blank (h : Ends (' ' :: r)) : Ends r := h

theorem bare_expands (ht : Sober env long t) (h : bare? t = some (v, r))
    (hends : Ends r) : bare? (env.expandChars t) = some (v, env.expandChars r) ∧
    Sober env long r := by
  rcases bare_eq_some h with ⟨word, c, more, time, hspan, hdate, hc, htime, hscalar⟩
    | ⟨word, hspan, hno, hscalar⟩
  · obtain ⟨htext, -, -⟩ := span_eq hspan
    obtain ⟨hmore, -, -⟩ := span_eq htime
    have hfree := dollar_of_scalar hscalar
    have hword : '$' ∉ word := fun hmem => hfree (by simp [hmem])
    have hin : '$' ∉ time := fun hmem => hfree (by simp [hmem])
    have hdollar : c ≠ '$' := by
      rintro rfl
      exact absurd hc (by decide)
    have hmore' : env.expandChars (c :: more) = c :: env.expandChars more :=
      expandChars_cons fun h => absurd h hdollar
    have hspan' : (env.expandChars t).span (!endsScalar ·) =
        (word, ' ' :: c :: env.expandChars more) := by
      rw [span_expandChars hspan hword (by simp),
        expandChars_cons fun h => absurd h (by decide), hmore']
    have htime' : (c :: env.expandChars more).span (!endsScalar ·) =
        (time, env.expandChars r) := by
      rw [← hmore']
      exact span_expandChars htime hin (hends.head_ne (.inl rfl))
    rw [bare_time hspan' hdate hc htime', hscalar]
    refine ⟨rfl, ?_⟩
    rw [htext, hmore] at ht
    exact ((ht.of_append hword).of_cons (by decide)).of_append hin
  · obtain ⟨htext, -, -⟩ := span_eq hspan
    have hword := dollar_of_scalar hscalar
    have hspan' : (env.expandChars t).span (!endsScalar ·) =
        (word, env.expandChars r) :=
      span_expandChars hspan hword (hends.head_ne (.inl rfl))
    have hno' : date? word = some [] →
        ∀ c more, env.expandChars r = ' ' :: c :: more → c.isDigit = false := by
      intro hdate c more hexpand
      have hhead : r.head? = some ' ' := by
        rw [← head?_expandChars (hends.head_ne (.inl rfl)), hexpand]
        rfl
      obtain ⟨r', rfl⟩ := List.head?_eq_some_iff.mp hhead
      rw [expandChars_cons fun h => absurd h (by decide)] at hexpand
      have hnext : r'.head? = some c := by
        rw [← head?_expandChars (hends.of_blank.head_ne (.inl rfl)),
          (List.cons.inj hexpand).2]
        rfl
      obtain ⟨more', rfl⟩ := List.head?_eq_some_iff.mp hnext
      exact hno hdate c more' rfl
    rw [bare_word hspan' hno', hscalar]
    refine ⟨rfl, ?_⟩
    rw [htext] at ht
    exact ht.of_append hword

theorem head_of_bare (h : bare? t = some (v, r)) : t.head? ≠ some '$' := by
  intro hhead
  obtain ⟨rest, rfl⟩ := List.head?_eq_some_iff.mp hhead
  have hfirst : ∀ {word u}, ('$' :: rest).span (!endsScalar ·) = (word, u) →
      '$' ∈ word := by
    intro word u hspan
    obtain ⟨htext, -, hstop⟩ := span_eq hspan
    cases word with
    | nil =>
        exact absurd (hstop '$' (by rw [← List.nil_append u, ← htext]; rfl)) (by decide)
    | cons c word =>
        cases (List.cons.inj htext).1
        exact List.mem_cons_self ..
  rcases bare_eq_some h with ⟨word, c, more, time, hspan, -, -, -, hscalar⟩
    | ⟨word, hspan, -, hscalar⟩
  · exact dollar_of_scalar hscalar (List.mem_append_left _ (hfirst hspan))
  · exact dollar_of_scalar hscalar (hfirst hspan)

end Toml

end Resumable
