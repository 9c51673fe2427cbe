import Resumable.Proofs.Config.Strings

namespace Resumable

open Toml Environment

namespace Toml

variable {env : Environment} {long : Bool} {t u pre rest q r : List Char}
  {c mark : Char} {n : Nat}

theorem head_expandChars (ht : Fits env true t) :
    (env.expandChars t).head? = t.head? ∨
      t.head? = some '$' ∧
        ∃ c, (env.expandChars t).head? = some c ∧ isPlain c = true ∧
        isBlank c = false := by
  cases ht with
  | nil => exact .inl (by rw [expandChars_nil])
  | char hopen _ =>
      rw [expandChars_cons hopen]
      exact .inl rfl
  | @placeholder name rest hname hvalue _ =>
      right
      rw [expandChars_placeholder fun c hc => (hname c hc).2]
      obtain ⟨hnonempty, hhead⟩ := hvalue.long rfl
      obtain ⟨c, value, hcons⟩ := List.exists_cons_of_ne_nil hnonempty
      refine ⟨rfl,
        c, by
        rw [hcons]; rfl, hvalue.plain c (by simp [hcons]), hhead c (by rw [hcons]; rfl)⟩

theorem head_expandChars_ne (ht : Fits env true t)
    (hc : isPlain c = false ∨ isBlank c = true) (hhead : t.head? ≠ some c) :
    (env.expandChars t).head? ≠ some c := by
  intro h
  rcases head_expandChars ht with hsame | ⟨-, d, hd, hplain, hblank⟩
  · exact hhead (hsame ▸ h)
  · rw [h] at hd
    cases hd
    rcases hc with hc | hc
    · rw [hc] at hplain
      cases hplain
    · rw [hc] at hblank
      cases hblank

theorem exists_marks (mark : Char) (t : List Char) :
    ∃ k u, t = List.replicate k mark ++ u ∧ u.head? ≠ some mark := by
  induction t with
  | nil => exact ⟨0, [], rfl, by simp⟩
  | cons c t ih =>
      by_cases hc : c = mark
      · subst hc
        obtain ⟨k, u, rfl, hu⟩ := ih
        exact ⟨k + 1, u, rfl, hu⟩
      · exact ⟨0, c :: t, rfl, by simpa using hc⟩

theorem closing_marks (k : Nat) (hu : u.head? ≠ some mark) :
    closing? mark (List.replicate k mark ++ u) =
      if k < 3 then none
      else some (List.replicate (min (k - 3) 2) mark,
        List.replicate (k - (min (k - 3) 2 + 3)) mark ++ u) := by
  have htake : (List.replicate k mark ++ u).takeWhile (· == mark) =
      List.replicate k mark := by
    rw [List.takeWhile_append_of_pos (by simp +contextual [List.mem_replicate])]
    cases u with
    | nil => simp
    | cons c u =>
        have hc : c ≠ mark := by simpa using hu
        simp [hc]
  rw [closing?]
  simp only [htake, List.length_replicate]
  split
  · rfl
  · rw [List.drop_append_of_le_length (by rw [List.length_replicate]; omega),
      List.drop_replicate]

theorem closing_expandChars (hplain : isPlain mark = false) (ht : Fits env true t) :
    closing? mark (env.expandChars t) = (closing? mark t).map fun q =>
    (q.1, env.expandChars q.2) := by
  have hmark : mark ≠ '$' := by
    rintro rfl
    exact absurd hplain (by decide)
  have hfree : ∀ k, '$' ∉ List.replicate k mark := fun k hmem =>
    hmark (List.eq_of_mem_replicate hmem).symm
  obtain ⟨k, u, rfl, hu⟩ := exists_marks mark t
  have hfits := ht.of_append (hfree k)
  rw [expandChars_append (hfree k), closing_marks k hu,
    closing_marks k (head_expandChars_ne hfits (.inl hplain) hu)]
  split
  · rfl
  · rw [Option.map_some, expandChars_append (hfree _)]

theorem closing_eq_some (h : closing? mark t = some (q, r)) :
    ∃ k, q = List.replicate k mark ∧ t = List.replicate (k + 3) mark ++ r := by
  obtain ⟨k, u, rfl, hu⟩ := exists_marks mark t
  rw [closing_marks k hu] at h
  split at h
  · cases h
  · cases h
    refine ⟨_, rfl, ?_⟩
    rw [← List.append_assoc, List.replicate_append_replicate]
    congr 2
    omega

theorem lineEnd_return :
    lineEnd? ('\r' :: rest) = if rest.head? = some '\n' then some 2 else none := by
  split
  · next h =>
      obtain ⟨more, rfl⟩ := List.head?_eq_some_iff.mp h
      rfl
  · next h =>
      unfold lineEnd?
      split
      · next heq => cases heq
      · next heq =>
          cases heq
          exact absurd rfl h
      · rfl

theorem lineEnd_eq_none (hnewline : t.head? ≠ some '\n')
    (hreturn : t.head? ≠ some '\r') : lineEnd? t = none := by
  unfold lineEnd?
  split
  · exact absurd rfl hnewline
  · exact absurd rfl hreturn
  · rfl

theorem lineEnd_eq_some (h : lineEnd? t = some n) :
    ∃ pre more, t = pre ++ more ∧ pre.length = n ∧ '$' ∉ pre ∧
    ∀ u, lineEnd? (pre ++ u) = some n := by
  unfold lineEnd? at h
  split at h
  · cases h
    exact ⟨['\n'], _, rfl, rfl, by decide, fun _ => rfl⟩
  · cases h
    exact ⟨['\r', '\n'], _, rfl, rfl, by decide, fun _ => rfl⟩
  · cases h

theorem lineEnd_expandChars (ht : Fits env true t) :
    lineEnd? (env.expandChars t) = lineEnd? t := by
  by_cases hnewline : t.head? = some '\n'
  · obtain ⟨rest, rfl⟩ := List.head?_eq_some_iff.mp hnewline
    rw [expandChars_cons fun h => absurd h (by decide)]
    rfl
  by_cases hreturn : t.head? = some '\r'
  · obtain ⟨rest, rfl⟩ := List.head?_eq_some_iff.mp hreturn
    have hrest : Fits env true rest := ht.of_cons (by decide)
    rw [expandChars_cons fun h => absurd h (by decide), lineEnd_return, lineEnd_return]
    by_cases hhead : rest.head? = some '\n'
    · obtain ⟨more, rfl⟩ := List.head?_eq_some_iff.mp hhead
      rw [expandChars_cons fun h => absurd h (by decide)]
      rfl
    · rw [if_neg hhead, if_neg (head_expandChars_ne hrest (.inl (by decide)) hhead)]
  · rw [lineEnd_eq_none hnewline hreturn]
    exact lineEnd_eq_none (head_expandChars_ne ht (.inl (by decide)) hnewline)
      (head_expandChars_ne ht (.inl (by decide)) hreturn)

theorem exists_blanks (t : List Char) :
    ∃ pre, t = pre ++ t.dropWhile isBlank ∧ ∀ c ∈ pre, isBlank c = true :=
  ⟨t.takeWhile isBlank, List.takeWhile_append_dropWhile.symm,
    fun _ hc => List.all_eq_true.mp List.all_takeWhile _ hc⟩

theorem dollar_not_mem_of_blank (hpre : ∀ c ∈ pre, isBlank c = true) : '$' ∉ pre :=
  fun h => absurd (hpre _ h) (by decide)

theorem dropWhile_expandChars
    (hstop : ∀ c, (env.expandChars (t.dropWhile isBlank)).head? = some c →
      isBlank c = false) :
    (env.expandChars t).dropWhile isBlank = env.expandChars (t.dropWhile isBlank) := by
  obtain ⟨pre, ht, hpre⟩ := exists_blanks t
  generalize t.dropWhile isBlank = u at ht hstop
  rw [ht, expandChars_append (dollar_not_mem_of_blank hpre),
    List.dropWhile_append_of_pos hpre]
  cases hu : env.expandChars u with
  | nil => rfl
  | cons c rest => rw [List.dropWhile_cons_of_neg (by simp [hstop c (by rw [hu]; rfl)])]

theorem dropWhile_expandChars_of_fits (ht : Fits env true t) :
    (env.expandChars t).dropWhile isBlank = env.expandChars (t.dropWhile isBlank) := by
  apply dropWhile_expandChars
  intro c hc
  obtain ⟨pre, htext, hpre⟩ := exists_blanks t
  have hfits : Fits env true (t.dropWhile isBlank) :=
    (htext ▸ ht).of_append (dollar_not_mem_of_blank hpre)
  cases hblank : isBlank c with
  | false => rfl
  | true =>
      refine absurd hc (head_expandChars_ne hfits (.inr hblank) ?_)
      intro hhead
      obtain ⟨rest, hrest⟩ := List.head?_eq_some_iff.mp hhead
      have hstop := List.head?_dropWhile_not isBlank t
      rw [hrest] at hstop
      simp [hblank] at hstop

theorem gapLength_cons (hc : c = '\n' ∨ isBlank c = true) :
    gapLength (c :: rest) = gapLength rest + 1 := by
  rw [gapLength]
  · rw [if_pos (by simpa using hc)]
  · rintro _ rfl
    exact absurd hc (by decide)

theorem gapLength_eq_zero (hend : lineEnd? t = none)
    (hblank : ∀ c, t.head? = some c → isBlank c = false) : gapLength t = 0 := by
  unfold gapLength
  split
  · cases hend
  · next c rest _ =>
      have hc : c ≠ '\n' := by
        rintro rfl
        cases hend
      simp [hc, hblank c rfl]
  · rfl

theorem gap_expandChars (ht : Fits env true t) :
    ∃ pre more, t = pre ++ more ∧ pre.length = gapLength t ∧ '$' ∉ pre ∧
      gapLength (env.expandChars t) = gapLength t := by
  induction t using gapLength.induct with
  | case1 rest ih =>
      obtain ⟨pre, more, hrest, hlength, hpre, hgap⟩ :=
        ih ((ht.of_cons (by decide)).of_cons (by decide))
      refine ⟨'\r' :: '\n' :: pre,
        more, by rw [hrest]; rfl, ?_, by simpa using hpre, ?_⟩
      · rw [gapLength, ← hlength]
        rfl
      · rw [expandChars_cons fun h => absurd h (by decide),
          expandChars_cons fun h => absurd h (by decide), gapLength, hgap, gapLength]
  | case2 c rest _ hc ih =>
      have hc : c = '\n' ∨ isBlank c = true := by simpa using hc
      have hdollar : c ≠ '$' := by
        rintro rfl
        exact absurd hc (by decide)
      obtain ⟨pre, more, hrest, hlength, hpre, hgap⟩ := ih (ht.of_cons hdollar)
      refine ⟨c :: pre, more, by rw [hrest]; rfl, ?_, ?_, ?_⟩
      · rw [gapLength_cons hc, ← hlength]
        rfl
      · rw [List.mem_cons, not_or]
        exact ⟨Ne.symm hdollar, hpre⟩
      · rw [expandChars_cons fun h => absurd h hdollar, gapLength_cons hc,
          gapLength_cons hc, hgap]
  | case3 c rest hreturn hc =>
      have hc : c ≠ '\n' ∧ isBlank c = false := by simpa using hc
      have hend : lineEnd? (c :: rest) = none := by
        unfold lineEnd?
        split
        · next heq =>
            cases heq
            exact absurd rfl hc.1
        · next heq =>
            cases heq
            exact absurd rfl (hreturn _ rfl)
        · rfl
      have hzero : gapLength (c :: rest) = 0 := by
        apply gapLength_eq_zero hend
        rintro d hd
        cases hd
        exact hc.2
      refine ⟨[], c :: rest, rfl, by rw [hzero]; rfl, List.not_mem_nil, ?_⟩
      rw [hzero]
      apply gapLength_eq_zero (by rw [lineEnd_expandChars ht, hend])
      intro d hd
      cases hblank : isBlank d with
      | false => rfl
      | true =>
          refine absurd hd (head_expandChars_ne ht (.inr hblank) ?_)
          rintro h
          cases h
          rw [hc.2] at hblank
          cases hblank
  | case4 => exact ⟨[], [], rfl, rfl, List.not_mem_nil, by rw [expandChars_nil]⟩

theorem lineGap_expandChars (ht : Fits env true t) :
    lineGap? (env.expandChars t) = lineGap? t := by
  obtain ⟨pre, htext, hpre⟩ := exists_blanks t
  have hfits : Fits env true (t.dropWhile isBlank) :=
    (htext ▸ ht).of_append (dollar_not_mem_of_blank hpre)
  obtain ⟨-, -, -, -, -, hgap⟩ := gap_expandChars ht
  rw [lineGap?, lineGap?, dropWhile_expandChars_of_fits ht,
    lineEnd_expandChars hfits, hgap]

theorem lineGap_eq_some (h : lineGap? t = some n) : n = gapLength t := by
  rw [lineGap?] at h
  split at h
  · cases h
    rfl
  · cases h

theorem multiline_skip (hlength : pre.length = n) :
    multiline? mark n (pre ++ t) = multiline? mark 0 t := by
  induction pre generalizing n with
  | nil =>
      subst hlength
      rfl
  | cons c pre ih =>
      subst hlength
      exact ih rfl

theorem multiline_cons (hmark : c ≠ mark) (hescape : ¬ (c = '\\' ∧ mark = '"'))
    (hnewline : c ≠ '\n') (hreturn : c ≠ '\r') :
    multiline? mark 0 (c :: rest) =
      if isForbidden c then none else (multiline? mark 0 rest).map (Quoted.push c) := by
  rw [multiline?, if_neg hmark, if_neg hescape, if_neg hnewline,
    if_neg fun h => hreturn h.1]

theorem multiline_newline (hmark : '\n' ≠ mark) :
    multiline? mark 0 ('\n' :: rest) =
    (multiline? mark 0 rest).map (Quoted.push '\n') := by
  rw [multiline?, if_neg hmark, if_neg fun h => absurd h.1 (by decide), if_pos rfl]

theorem multiline_return (hmark : '\r' ≠ mark) :
    multiline? mark 0 ('\r' :: rest) =
      if rest.head? = some '\n' then (multiline? mark 0 (rest.drop 1)).map
        (Quoted.push '\n') else none := by
  rw [multiline?, if_neg hmark, if_neg fun h => absurd h.1 (by decide),
    if_neg (by decide)]
  split
  · next h =>
      obtain ⟨more, rfl⟩ := List.head?_eq_some_iff.mp h.2
      rfl
  · next h => rw [if_neg fun hhead => h ⟨rfl, hhead⟩, if_pos (by decide)]

theorem multiline_mark :
    multiline? mark 0 (mark :: rest) =
      match closing? mark (mark :: rest) with
      | some q => some q
      | none => (multiline? mark 0 rest).map (Quoted.push mark) := by
  rw [multiline?]
  exact if_pos rfl

theorem multiline_escape :
    multiline? '"' 0 ('\\' :: rest) =
      match lineGap? rest with
      | some gap => multiline? '"' gap rest
      | none =>
          match escape? rest with
          | some (e, used) => (multiline? '"' used rest).map (Quoted.push e)
          | none => none := by
  rw [multiline?, if_neg (by decide)]
  exact if_pos ⟨rfl, rfl⟩

section

variable (hm : mark = '"' ∨ mark = '\'')

include hm

theorem mark_not_plain : isPlain mark = false := by
  rcases hm with rfl | rfl <;> decide

theorem mark_ne (hplain : isPlain c = true) : c ≠ mark := by
  rintro rfl
  rw [mark_not_plain hm] at hplain
  cases hplain

theorem multiline_readsPlain : ReadsPlain (multiline? mark 0) where
  nil := rfl
  plain := by
    intro c rest hc
    obtain ⟨hforbidden, -, -, hescape⟩ := isPlain_iff.mp hc
    have hnewline : c ≠ '\n' ∧ c ≠ '\r' := by
      constructor <;>
      · rintro rfl
        exact absurd hforbidden (by decide)
    rw [multiline_cons (mark_ne hm hc) (fun h => hescape h.1) hnewline.1
      hnewline.2, hforbidden]
    rfl
  brace := by
    intro t q r h
    have hbrace : mark ≠ '\x7b' := by rcases hm with rfl | rfl <;> decide
    cases t with
    | nil => cases h
    | cons c rest =>
        by_cases hmark : c = mark
        · subst hmark
          rw [multiline_mark] at h
          split at h
          · next found hclosing =>
              cases h
              obtain ⟨k, hk, -⟩ := closing_eq_some hclosing
              exact absurd
                (List.eq_of_mem_replicate (hk ▸ List.mem_cons_self ..)).symm hbrace
          · obtain ⟨q', -, hq⟩ := map_push_eq_some.mp h
            cases hq
            exact absurd rfl hbrace
        by_cases hescape : c = '\\'
        · exact .inr (by rw [hescape]; rfl)
        by_cases hnewline : c = '\n'
        · subst hnewline
          rw [multiline_newline hmark] at h
          obtain ⟨q', -, hq⟩ := map_push_eq_some.mp h
          cases hq
        by_cases hreturn : c = '\r'
        · subst hreturn
          rw [multiline_return hmark] at h
          split at h
          · obtain ⟨q', -, hq⟩ := map_push_eq_some.mp h
            cases hq
          · cases h
        · rw [multiline_cons hmark (fun h => hescape h.1) hnewline hreturn] at h
          split at h
          · cases h
          · obtain ⟨q', -, hq⟩ := map_push_eq_some.mp h
            cases hq
            exact .inl rfl

theorem multiline_expands_mark (hsober : Sober env true (mark :: rest))
    (hrest : Expands env true (multiline? mark 0) rest) :
    Expands env true (multiline? mark 0) (mark :: rest) := by
  intro q r h
  have hc : mark ≠ '$' := by rcases hm with rfl | rfl <;> decide
  have hcons : env.expandChars (mark :: rest) = mark :: env.expandChars rest :=
    expandChars_cons fun hd => absurd hd hc
  have hclosing := closing_expandChars (mark_not_plain hm) hsober.fits
  rw [hcons] at hclosing
  rw [multiline_mark] at h
  rw [hcons, multiline_mark, hclosing]
  cases hfound : closing? mark (mark :: rest) with
  | none =>
      simp only [hfound] at h
      exact push_expands hc h fun q' hq' => hrest q' r hq'
  | some found =>
      simp only [hfound] at h
      cases h
      obtain ⟨k, rfl, htext⟩ := closing_eq_some hfound
      have hfree : ∀ n, '$' ∉ List.replicate n mark := fun n hmem =>
        hc (List.eq_of_mem_replicate hmem).symm
      rw [htext] at hsober
      refine ⟨?_, hsober.of_append (hfree (k + 3))⟩
      rw [expandChars_eq_self (hfree k)]
      rfl

omit hm in
theorem multiline_expands_escape (hsober : Sober env true ('\\' :: rest))
    (hshorter : ∀ u, u.length ≤ rest.length → Sober env true u →
      Expands env true (multiline? '"' 0) u) :
    Expands env true (multiline? '"' 0) ('\\' :: rest) := by
  intro q r h
  have hrest : Sober env true rest := hsober.of_cons (by decide)
  rw [multiline_escape] at h
  rw [expandChars_cons fun h => absurd h (by decide), multiline_escape,
    lineGap_expandChars hrest.fits]
  cases hgap : lineGap? rest with
  | some gap =>
      simp only [hgap] at h ⊢
      obtain ⟨pre, more, rfl, hlength, hpre, -⟩ := gap_expandChars hrest.fits
      have hskip : pre.length = gap := by rw [hlength, lineGap_eq_some hgap]
      rw [expandChars_append hpre, multiline_skip hskip]
      rw [multiline_skip hskip] at h
      exact hshorter more (by simp) (hrest.of_append hpre) q r h
  | none =>
      cases hread : escape? rest with
      | none => simp [hgap, hread] at h
      | some found =>
          obtain ⟨e, used⟩ := found
          have he : e ≠ '$' := hsober.escapes rest e used (List.suffix_refl _) hread
          simp only [hgap, hread] at h
          obtain ⟨pre, more, rfl, hlength, hpre, hagain⟩ := escape_eq_some hread
          simp only [expandChars_append hpre, hagain, multiline_skip hlength]
          rw [multiline_skip hlength] at h
          apply push_expands he h
          intro q' hq'
          exact hshorter more (by simp) (hrest.of_append hpre) q' r hq'

theorem multiline_expands (ht : Sober env true t) :
    Expands env true (multiline? mark 0) t := by
  apply (multiline_readsPlain hm).expands_of_special ?_ ht
  intro c rest hplain hsober hshorter
  have hc : c ≠ '$' := by
    rintro rfl
    exact absurd hplain (by decide)
  have hrest := hsober.of_cons hc
  by_cases hmark : c = mark
  · subst hmark
    exact multiline_expands_mark hm hsober (hshorter rest (Nat.le_refl _) hrest)
  by_cases hescape : c = '\\' ∧ mark = '"'
  · obtain ⟨rfl, rfl⟩ := hescape
    exact multiline_expands_escape hsober hshorter
  intro q r h
  rw [expandChars_cons fun hd => absurd hd hc]
  by_cases hnewline : c = '\n'
  · subst hnewline
    rw [multiline_newline hmark] at h ⊢
    exact push_expands hc h fun q' hq' => hshorter rest (Nat.le_refl _) hrest q' r hq'
  by_cases hreturn : c = '\r'
  · subst hreturn
    rw [multiline_return hmark] at h
    split at h
    · next hhead =>
        obtain ⟨more, rfl⟩ := List.head?_eq_some_iff.mp hhead
        rw [expandChars_cons fun h => absurd h (by decide), multiline_return hmark,
          if_pos List.head?_cons]
        apply push_expands (by decide) h
        intro q' hq'
        exact hshorter more (Nat.le_succ _) (hrest.of_cons (by decide)) q' r hq'
    · cases h
  · rw [multiline_cons hmark hescape hnewline hreturn] at h ⊢
    split at h
    · cases h
    · next hforbidden =>
        rw [if_neg hforbidden]
        exact push_expands hc h fun q' hq' =>
          hshorter rest (Nat.le_refl _) hrest q' r hq'

theorem multilineBody_expands (ht : Sober env true t) :
    Expands env true (multilineBody? mark) t := by
  intro q r h
  rw [multilineBody?] at h
  rw [multilineBody?, lineEnd_expandChars ht.fits]
  cases hend : lineEnd? t with
  | none =>
      rw [hend] at h
      exact multiline_expands hm ht q r h
  | some n =>
      obtain ⟨pre, more, rfl, hlength, hpre, -⟩ := lineEnd_eq_some hend
      rw [hend, Option.getD_some, List.drop_left' hlength] at h
      rw [Option.getD_some, expandChars_append hpre, List.drop_left' hlength]
      exact multiline_expands hm (ht.of_append hpre) q r h

end

/-- What stands behind a string or a scalar does not run on from it. -/
def Ends (r : List Char) : Prop :=
  ∀ c, (r.dropWhile isBlank).head? = some c → c ≠ '$' ∧ c ≠ '"' ∧ c ≠ '\''

theorem Ends.head_ne (h : Ends r) (hc : c = '$' ∨ c = '"' ∨ c = '\'') :
    r.head? ≠ some c := by
  intro hhead
  obtain ⟨rest, rfl⟩ := List.head?_eq_some_iff.mp hhead
  have hblank : isBlank c = false := by rcases hc with rfl | rfl | rfl <;> rfl
  obtain ⟨hdollar, hquote, hsingle⟩ :=
    h c (by rw [List.dropWhile_cons_of_neg (by simp [hblank])]; rfl)
  rcases hc with hc | hc | hc
  · exact hdollar hc
  · exact hquote hc
  · exact hsingle hc

theorem quoted_basic (h : ¬ ['"', '"'] <+: rest) :
    quoted? ('"' :: rest) = basic? 0 rest := by
  unfold quoted?
  split
  · next more heq =>
      cases heq
      exact absurd (List.prefix_append ['"', '"'] more) h
  · next heq => cases heq
  · next heq =>
      cases heq
      rfl
  · next heq => cases heq
  · next hbasic _ => exact absurd rfl (hbasic rest)

theorem quoted_literal (h : ¬ ['\'', '\''] <+: rest) :
    quoted? ('\'' :: rest) = literal? rest := by
  unfold quoted?
  split
  · next heq => cases heq
  · next more heq =>
      cases heq
      exact absurd (List.prefix_append ['\'', '\''] more) h
  · next heq => cases heq
  · next heq =>
      cases heq
      rfl
  · next hliteral => exact absurd rfl (hliteral rest)

theorem not_prefix_of_ends (hmark : mark = '"' ∨ mark = '\'')
    {read : List Char → Option Quoted}
    (hempty : ∀ more, read (mark :: more) = some ([], more))
    (h : read u = some (q, env.expandChars r)) (hends : Ends r) :
    ¬ [mark, mark] <+: u := by
  rintro ⟨more, rfl⟩
  have hr : env.expandChars r = mark :: more := by
    have hsome := h.symm.trans (hempty (mark :: more))
    exact congrArg Prod.snd (Option.some.inj hsome)
  have hhead : (env.expandChars r).head? = some mark := by rw [hr]; rfl
  rw [head?_expandChars (hends.head_ne (.inl rfl))] at hhead
  exact hends.head_ne (.inr hmark) hhead

theorem marks_free (hmark : mark = '"' ∨ mark = '\'') : '$' ∉ [mark, mark, mark] := by
  rcases hmark with rfl | rfl <;> decide

theorem expandChars_marks (hmark : mark = '"' ∨ mark = '\'') :
    env.expandChars (mark :: mark :: mark :: rest) =
    mark :: mark :: mark :: env.expandChars rest :=
  expandChars_append (marks_free hmark)

theorem sober_of_marks (hmark : mark = '"' ∨ mark = '\'')
    (ht : Sober env long (mark :: mark :: mark :: rest)) :
    Sober env long rest :=
  Sober.of_append ht (marks_free hmark)

theorem long_of_marks (hmark : mark = '"' ∨ mark = '\'')
    (ht : Sober env long (mark :: mark :: mark :: rest)) : long = true := by
  cases hlong : long with
  | true => rfl
  | false =>
      exact absurd (List.prefix_append [mark, mark, mark] rest).isInfix
        (ht.short hlong mark hmark)

theorem quoted_expands (ht : Sober env long t) (h : quoted? t = some (q, r))
    (hends : Ends r) :
    quoted? (env.expandChars t) = some (env.expandChars q, env.expandChars r) ∧
    Sober env long r := by
  unfold quoted? at h
  split at h
  · next rest =>
      obtain rfl := long_of_marks (.inl rfl) ht
      rw [expandChars_marks (.inl rfl)]
      exact multilineBody_expands (.inl rfl) (sober_of_marks (.inl rfl) ht) q r h
  · next rest =>
      obtain rfl := long_of_marks (.inr rfl) ht
      rw [expandChars_marks (.inr rfl)]
      exact multilineBody_expands (.inr rfl) (sober_of_marks (.inr rfl) ht) q r h
  · next rest _ =>
      obtain ⟨hexpand, hsober⟩ := basic_expands (ht.of_cons (by decide)) q r h
      rw [expandChars_cons fun h => absurd h (by decide),
        quoted_basic (not_prefix_of_ends (.inl rfl) (fun _ => rfl) hexpand hends)]
      exact ⟨hexpand, hsober⟩
  · next rest _ =>
      obtain ⟨hexpand, hsober⟩ := literal_expands (ht.of_cons (by decide)) q r h
      rw [expandChars_cons fun h => absurd h (by decide),
        quoted_literal (not_prefix_of_ends (.inr rfl) (fun _ => rfl) hexpand hends)]
      exact ⟨hexpand, hsober⟩
  · cases h

end Toml

end Resumable
