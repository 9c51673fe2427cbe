import Resumable.Proofs.Config.Placeholders

namespace Resumable

open Toml Environment

namespace Toml

variable {env : Environment} {long : Bool} {t pre rest q r name : List Char}
  {c : Char} {n : Nat}

/-- A reader of string contents takes plain characters as they are. -/
structure ReadsPlain (read : List Char → Option Quoted) : Prop where
  nil : read [] = none
  plain : ∀ c rest, isPlain c = true →
    read (c :: rest) = (read rest).map (Quoted.push c)
  /-- A brace is read only where one stands, or an escape. -/
  brace : ∀ t q r, read t = some ('\x7b' :: q, r) →
    t.head? = some '\x7b' ∨ t.head? = some '\\'

/-- A text can be expanded before or after it is read. -/
def Expands (env : Environment) (long : Bool) (read : List Char → Option Quoted)
    (t : List Char) : Prop :=
  ∀ q r, read t = some (q, r) →
    read (env.expandChars t) = some (env.expandChars q, env.expandChars r) ∧
    Sober env long r

section

variable {read : List Char → Option Quoted}

theorem map_push_eq_some {o : Option Quoted} :
    o.map (Quoted.push c) = some (q, r) ↔ ∃ q', o = some (q', r) ∧ q = c :: q' := by
  constructor
  · intro h
    obtain ⟨⟨q', r'⟩, ho, hp⟩ := Option.map_eq_some_iff.mp h
    cases hp
    exact ⟨q', ho, rfl⟩
  · rintro ⟨q', rfl, rfl⟩
    rfl

namespace ReadsPlain

variable (hread : ReadsPlain read)

include hread

theorem append (hpre : ∀ c ∈ pre, isPlain c = true) :
    read (pre ++ t) = (read t).map fun q => (pre ++ q.1, q.2) := by
  induction pre with
  | nil => simp
  | cons c pre ih =>
      rw [List.cons_append, hread.plain c _ (hpre c (List.mem_cons_self ..)),
        ih fun d hd => hpre d (List.mem_cons_of_mem _ hd), Option.map_map]
      rfl

theorem append_eq_some (hpre : ∀ c ∈ pre, isPlain c = true) :
    read (pre ++ t) = some (q, r) ↔ ∃ q', read t = some (q', r) ∧ q = pre ++ q' := by
  rw [hread.append hpre, Option.map_eq_some_iff]
  constructor
  · rintro ⟨⟨q', r'⟩, h, he⟩
    cases he
    exact ⟨q', h, rfl⟩
  · rintro ⟨q', h, rfl⟩
    exact ⟨(q', r), h, rfl⟩

theorem expands_placeholder (hname : ∀ c ∈ name, isPlain c = true ∧ c ≠ '\x7d')
    (hvalue : Safe long (env.value name)) (hrest : Expands env long read rest) :
    Expands env long read ('$' :: '\x7b' :: (name ++ '\x7d' :: rest)) := by
  intro q r h
  have hbrace : ∀ c ∈ name, c ≠ '\x7d' := fun c hc => (hname c hc).2
  obtain ⟨front, hsplit, hpre⟩ := exists_placeholder hname
  rw [hsplit] at h
  obtain ⟨q', hq', rfl⟩ := (hread.append_eq_some hpre).mp h
  obtain ⟨hexpand, hsober⟩ := hrest q' r hq'
  refine ⟨?_, hsober⟩
  rw [← hsplit, expandChars_placeholder hbrace, expandChars_placeholder hbrace]
  exact (hread.append_eq_some hvalue.plain).mpr ⟨_, hexpand, rfl⟩

theorem expands_char (hc : isPlain c = true)
    (hopen : c = '$' → rest.head? ≠ some '\x7b')
    (hescape : c = '$' → rest.head? ≠ some '\\')
    (hrest : Expands env long read rest) : Expands env long read (c :: rest) := by
  intro q r h
  rw [hread.plain c _ hc] at h
  obtain ⟨q', hq', rfl⟩ := map_push_eq_some.mp h
  obtain ⟨hexpand, hsober⟩ := hrest q' r hq'
  refine ⟨?_, hsober⟩
  have hbrace : c = '$' → q'.head? ≠ some '\x7b' := by
    intro hd hhead
    obtain ⟨q'', rfl⟩ := List.head?_eq_some_iff.mp hhead
    rcases hread.brace rest q'' r hq' with h | h
    · exact hopen hd h
    · exact hescape hd h
  rw [expandChars_cons hopen, expandChars_cons hbrace, hread.plain c _ hc]
  exact map_push_eq_some.mpr ⟨_, hexpand, rfl⟩

/-- By induction on the text: it is enough to look at characters that are not plain. -/
theorem expands_of_special
    (hspecial : ∀ c rest, isPlain c = false → Sober env long (c :: rest) →
      (∀ u, u.length ≤ rest.length → Sober env long u → Expands env long read u) →
      Expands env long read (c :: rest))
    (ht : Sober env long t) : Expands env long read t := by
  induction hn : t.length using Nat.strongRecOn generalizing t with
  | _ n ih =>
      subst hn
      have hshorter : ∀ u, u.length < t.length → Sober env long u →
          Expands env long read u :=
        fun u hu hs => ih u.length hu hs rfl
      have hfits := ht.fits
      cases hfits with
      | nil =>
          intro q r h
          rw [hread.nil] at h
          cases h
      | @char c rest hopen hrest =>
          have hlt : rest.length < (c :: rest).length := Nat.lt_succ_self _
          cases hplain : isPlain c with
          | true =>
              apply hread.expands_char hplain hopen
              · rintro rfl hhead
                obtain ⟨more, rfl⟩ := List.head?_eq_some_iff.mp hhead
                exact ht.backslash (List.prefix_append ['$', '\\'] more).isInfix
              · exact hshorter rest hlt (ht.of_suffix (List.suffix_cons c rest) hrest)
          | false =>
              exact hspecial c rest hplain ht fun u hu hs =>
                hshorter u (by simpa using Nat.lt_succ_of_le hu) hs
      | @placeholder name rest hname hvalue hrest =>
          apply hread.expands_placeholder hname hvalue
          obtain ⟨front, hsplit, -⟩ := exists_placeholder hname
          have hsuffix : rest <:+ '$' :: '\x7b' :: (name ++ '\x7d' :: rest) :=
            ⟨front, (hsplit rest).symm⟩
          apply hshorter rest
          · simp
            omega
          · exact ht.of_suffix hsuffix hrest

end ReadsPlain

theorem push_expands (hc : c ≠ '$') {o o' : Option Quoted}
    (h : o.map (Quoted.push c) = some (q, r))
    (hrest : ∀ q', o = some (q', r) →
      o' = some (env.expandChars q', env.expandChars r) ∧ Sober env long r) :
    o'.map (Quoted.push c) = some (env.expandChars q, env.expandChars r) ∧
    Sober env long r := by
  obtain ⟨q', hq', rfl⟩ := map_push_eq_some.mp h
  obtain ⟨hexpand, hsober⟩ := hrest q' hq'
  refine ⟨?_, hsober⟩
  rw [expandChars_cons fun hd => absurd hd hc]
  exact map_push_eq_some.mpr ⟨_, hexpand, rfl⟩

end

theorem literal_readsPlain : ReadsPlain literal? where
  nil := rfl
  plain := by
    intro c rest hc
    obtain ⟨hforbidden, -, hquote, -⟩ := isPlain_iff.mp hc
    rw [literal?]
    · rw [hforbidden]
      rfl
    · exact hquote
  brace := by
    intro t q r h
    cases t with
    | nil => cases h
    | cons c rest =>
        by_cases hquote : c = '\''
        · subst hquote
          cases h
        · rw [literal?] at h
          · split at h
            · cases h
            · obtain ⟨q', -, hq⟩ := map_push_eq_some.mp h
              cases hq
              exact .inl rfl
          · exact hquote

theorem literal_expands (ht : Sober env long t) : Expands env long literal? t := by
  apply literal_readsPlain.expands_of_special ?_ ht
  intro c rest hplain hsober hshorter q r h
  have hc : c ≠ '$' := by
    rintro rfl
    exact absurd hplain (by decide)
  have hrest := hsober.of_cons hc
  rw [expandChars_cons fun hd => absurd hd hc]
  by_cases hquote : c = '\''
  · subst hquote
    cases h
    exact ⟨by rw [expandChars_nil]; rfl, hrest⟩
  · rw [literal?] at h ⊢
    · split at h
      · cases h
      · next hforbidden =>
          rw [if_neg hforbidden]
          exact push_expands hc h fun q' hq' =>
            hshorter rest (Nat.le_refl _) hrest q' r hq'
    · exact hquote
    · exact hquote

theorem mem_of_foldlM_hexValue {front : List Char} {a b : Nat}
    (h : front.foldlM (fun n c => (hexValue? c).map fun d => n * 16 + d) a = some b)
    (hc : c ∈ front) : (hexValue? c).isSome := by
  induction front generalizing a with
  | nil => cases hc
  | cons d front ih =>
      rw [List.foldlM_cons] at h
      obtain ⟨a', hd, hfront⟩ := Option.bind_eq_some_iff.mp h
      rcases List.mem_cons.mp hc with rfl | hc
      · obtain ⟨v, hv, -⟩ := Option.map_eq_some_iff.mp hd
        rw [hv]
        rfl
      · exact ih hfront hc

theorem codePoint_append (hlength : pre.length = n) :
    codePoint? n (pre ++ t) = codePoint? n pre := by
  subst hlength
  simp [codePoint?]

theorem codePoint_eq_some (h : codePoint? n t = some c) :
    ∃ pre rest, t = pre ++ rest ∧ pre.length = n ∧ '$' ∉ pre := by
  rw [codePoint?] at h
  dsimp only [bind] at h
  by_cases hlength : (t.take n).length = n
  · rw [if_neg (not_not_intro hlength)] at h
    obtain ⟨b, hdigits, -⟩ := Option.bind_eq_some_iff.mp h
    refine ⟨t.take n, t.drop n, (List.take_append_drop n t).symm, hlength, ?_⟩
    intro hmem
    exact absurd (mem_of_foldlM_hexValue hdigits hmem) (by decide)
  · rw [if_pos hlength] at h
    cases h

/-- An escape is read from characters none of which is a `$`, whatever follows them. -/
theorem escape_eq_some (h : escape? rest = some (c, n)) :
    ∃ pre more, rest = pre ++ more ∧ pre.length = n ∧ '$' ∉ pre ∧
      ∀ u, escape? (pre ++ u) = some (c, n) := by
  have hcode : ∀ mark count more, mark ≠ '$' →
      (∀ u, escape? (mark :: u) = (codePoint? count u).map fun c => (c, count + 1)) →
      (codePoint? count more).map (fun c => (c, count + 1)) = some (c, n) →
      ∃ pre more', mark :: more = pre ++ more' ∧ pre.length = n ∧ '$' ∉ pre ∧
        ∀ u, escape? (pre ++ u) = some (c, n) := by
    intro mark count more hmark hread hsome
    obtain ⟨c', hc', he⟩ := Option.map_eq_some_iff.mp hsome
    cases he
    obtain ⟨pre, more', rfl, hlength, hpre⟩ := codePoint_eq_some hc'
    refine ⟨mark :: pre, more', rfl, by rw [List.length_cons, hlength], ?_, ?_⟩
    · rw [List.mem_cons, not_or]
      exact ⟨Ne.symm hmark, hpre⟩
    · intro u
      rw [codePoint_append hlength] at hc'
      rw [List.cons_append, hread, codePoint_append hlength, hc']
      rfl
  unfold escape? at h
  split at h
  case h_9 more => exact hcode 'x' 2 more (by decide) (fun _ => rfl) h
  case h_10 more => exact hcode 'u' 4 more (by decide) (fun _ => rfl) h
  case h_11 more => exact hcode 'U' 8 more (by decide) (fun _ => rfl) h
  case h_12 => cases h
  all_goals
    cases h
    exact ⟨[_], _, rfl, rfl, by decide, fun _ => rfl⟩

theorem basic_skip (hlength : pre.length = n) : basic? n (pre ++ t) = basic? 0 t := by
  induction pre generalizing n with
  | nil =>
      subst hlength
      rfl
  | cons c pre ih =>
      subst hlength
      exact ih rfl

theorem basic_cons (hquote : c ≠ '"') (hescape : c ≠ '\\') :
    basic? 0 (c :: rest) = if isForbidden c then none
      else (basic? 0 rest).map (Quoted.push c) := by
  rw [basic?]
  · exact hquote
  · exact hescape

theorem basic_escape (h : escape? rest = some (c, n)) :
    basic? 0 ('\\' :: rest) = (basic? n rest).map (Quoted.push c) := by
  rw [basic?, h]

theorem basic_readsPlain : ReadsPlain (basic? 0) where
  nil := rfl
  plain := by
    intro c rest hc
    obtain ⟨hforbidden, hquote, -, hescape⟩ := isPlain_iff.mp hc
    rw [basic_cons hquote hescape, hforbidden]
    rfl
  brace := by
    intro t q r h
    cases t with
    | nil => cases h
    | cons c rest =>
        by_cases hquote : c = '"'
        · subst hquote
          cases h
        · by_cases hescape : c = '\\'
          · exact .inr (by rw [hescape]; rfl)
          · rw [basic_cons hquote hescape] at h
            split at h
            · cases h
            · obtain ⟨q', -, hq⟩ := map_push_eq_some.mp h
              cases hq
              exact .inl rfl

theorem basic_expands (ht : Sober env long t) : Expands env long (basic? 0) t := by
  apply basic_readsPlain.expands_of_special ?_ ht
  intro c rest hplain hsober hshorter q r h
  have hc : c ≠ '$' := by
    rintro rfl
    exact absurd hplain (by decide)
  have hrest := hsober.of_cons hc
  rw [expandChars_cons fun hd => absurd hd hc]
  by_cases hquote : c = '"'
  · subst hquote
    cases h
    exact ⟨by rw [expandChars_nil]; rfl, hrest⟩
  by_cases hescape : c = '\\'
  · subst hescape
    cases hread : escape? rest with
    | none =>
        rw [basic?, hread] at h
        cases h
    | some found =>
        obtain ⟨e, used⟩ := found
        have he : e ≠ '$' := hsober.escapes rest e used (List.suffix_refl _) hread
        rw [basic_escape hread] at h
        obtain ⟨pre, more, rfl, hlength, hpre, hagain⟩ := escape_eq_some hread
        rw [expandChars_append hpre, basic_escape (hagain _), basic_skip hlength]
        rw [basic_skip hlength] at h
        apply push_expands he h
        intro q' hq'
        exact hshorter more (by simp) (hrest.of_append hpre) q' r hq'
  · rw [basic_cons hquote hescape] at h ⊢
    split at h
    · cases h
    · next hforbidden =>
        rw [if_neg hforbidden]
        exact push_expands hc h fun q' hq' =>
          hshorter rest (Nat.le_refl _) hrest q' r hq'

end Toml

end Resumable
