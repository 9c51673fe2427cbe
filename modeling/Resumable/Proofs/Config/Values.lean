import Resumable.Proofs.Config.Trees
import Resumable.Proofs.Config.Words

namespace Resumable

open Toml Environment

namespace Toml

variable {env : Environment} {long : Bool} {t u r : List Char} {c : Char}
  {n f f' d : Nat} {name : String} {names : List String} {v : Toml} {l : List Toml}
  {e e' : TomlEntries}

theorem skipBlanks_expands (ht : Sober env long t)
    (h : (skipBlanks t).head? ≠ some '$') :
    skipBlanks (env.expandChars t) = env.expandChars (skipBlanks t) ∧
    Sober env long (skipBlanks t) := by
  obtain ⟨pre, htext, hpre⟩ := exists_blanks t
  constructor
  · apply dropWhile_expandChars
    intro c hc
    have hhead : (t.dropWhile isBlank).head? = some c := by
      rw [← hc]
      exact (head?_expandChars h).symm
    have hstop := List.head?_dropWhile_not isBlank t
    rw [hhead] at hstop
    simpa using hstop
  · rw [htext] at ht
    exact ht.of_append (dollar_not_mem_of_blank hpre)

def inLine (c : Char) : Bool := c != '\n' && c != '\r'

theorem inLine_of_plain (hc : isPlain c = true) : inLine c = true := by
  have hforbidden := (isPlain_iff.mp hc).1
  simp only [inLine, Bool.and_eq_true, bne_iff_ne]
  constructor <;>
  · rintro rfl
    exact absurd hforbidden (by decide)

theorem span_append_all {p : Char → Bool} {pre : List Char}
    (hpre : ∀ c ∈ pre, p c = true) :
    (pre ++ t).span p = (pre ++ (t.span p).1, (t.span p).2) := by
  rw [List.span_eq_takeWhile_dropWhile, List.span_eq_takeWhile_dropWhile,
    List.takeWhile_append_of_pos hpre, List.dropWhile_append_of_pos hpre]

theorem line_expands (ht : Fits env long t)
    (hbody : (t.span inLine).1.any isForbidden = false) :
    Fits env long (t.span inLine).2 ∧
    ((env.expandChars t).span inLine).2 = env.expandChars (t.span inLine).2 ∧
      ((env.expandChars t).span inLine).1.any isForbidden = false := by
  have hplain : ∀ {pre : List Char}, (∀ c ∈ pre, isPlain c = true) →
      (∀ c ∈ pre, inLine c = true) ∧ pre.any isForbidden = false := by
    intro pre hpre
    refine ⟨fun c hc => inLine_of_plain (hpre c hc), ?_⟩
    rw [List.any_eq_false]
    intro c hc
    simp [(isPlain_iff.mp (hpre c hc)).1]
  induction ht with
  | nil =>
      rw [expandChars_nil]
      exact ⟨.nil,
        by rw [List.span_eq_takeWhile_dropWhile]; exact expandChars_nil.symm, rfl⟩
  | @char c rest hopen hrest ih =>
      rw [expandChars_cons hopen]
      by_cases hc : inLine c = true
      · have hone : ∀ d ∈ [c], inLine d = true := by simpa using hc
        have hcons : ∀ u, (c :: u).span inLine =
            (c :: (u.span inLine).1, (u.span inLine).2) := fun u =>
          span_append_all hone
        rw [hcons, List.any_cons, Bool.or_eq_false_iff] at hbody
        obtain ⟨hfits, hexpand, hclean⟩ := ih hbody.2
        rw [hcons, hcons]
        exact ⟨hfits, hexpand, by rw [List.any_cons, hbody.1, hclean]; rfl⟩
      · have hcons : ∀ u, (c :: u).span inLine = ([], c :: u) := by
          intro u
          rw [List.span_eq_takeWhile_dropWhile, List.takeWhile_cons_of_neg hc,
            List.dropWhile_cons_of_neg hc]
        rw [hcons, hcons]
        exact ⟨.char hopen hrest, (expandChars_cons hopen).symm, rfl⟩
  | @placeholder name rest hname hvalue hrest ih =>
      have hbrace : ∀ c ∈ name, c ≠ '\x7d' := fun c hc => (hname c hc).2
      obtain ⟨front, hsplit, hpre⟩ := exists_placeholder hname
      rw [expandChars_placeholder hbrace]
      rw [hsplit, span_append_all (hplain hpre).1] at hbody ⊢
      rw [List.any_append, Bool.or_eq_false_iff] at hbody
      obtain ⟨hfits, hexpand, hclean⟩ := ih hbody.2
      rw [span_append_all (hplain hvalue.plain).1]
      exact ⟨hfits,
        hexpand, by rw [List.any_append, (hplain hvalue.plain).2, hclean]; rfl⟩

theorem skipComment_expands (ht : Sober env long t) (h : skipComment? t = some r)
    (hhead : t.head? ≠ some '$') :
    skipComment? (env.expandChars t) = some (env.expandChars r) ∧ Sober env long r ∧
    r.head? ≠ some '$' := by
  by_cases hcomment : t.head? = some '#'
  · obtain ⟨rest, rfl⟩ := List.head?_eq_some_iff.mp hcomment
    have hread : ∀ u : List Char, skipComment? ('#' :: u) =
        if (u.span inLine).1.any isForbidden then none else some (u.span inLine).2 :=
          fun u => rfl
    have hrest : Sober env long rest := ht.of_cons (by decide)
    rw [hread] at h
    split at h
    · cases h
    · next hclean =>
        cases h
        obtain ⟨hfits, hexpand, hclean'⟩ := line_expands hrest.fits
          (Bool.eq_false_iff.mpr hclean)
        rw [expandChars_cons fun h => absurd h (by decide), hread, hclean', hexpand]
        have hspan : rest.span inLine =
            ((rest.span inLine).1, (rest.span inLine).2) := rfl
        obtain ⟨htext, -, hstop⟩ := span_eq hspan
        refine ⟨rfl, hrest.of_suffix ⟨_, htext.symm⟩ hfits, ?_⟩
        intro hdollar
        exact absurd (hstop '$' hdollar) (by decide)
  · have hread : ∀ {u : List Char}, u.head? ≠ some '#' → skipComment? u = some u := by
      intro u hu
      unfold skipComment?
      split
      · exact absurd rfl hu
      · rfl
    rw [hread hcomment] at h
    cases h
    refine ⟨hread ?_, ht, hhead⟩
    rw [head?_expandChars hhead]
    exact hcomment

theorem lineEnd_expands (ht : Sober env long t) (h : lineEnd? t = some n) :
    lineEnd? (env.expandChars t) = some n ∧
    (env.expandChars t).drop n = env.expandChars (t.drop n) ∧
      Sober env long (t.drop n) := by
  obtain ⟨pre, more, rfl, hlength, hpre, hagain⟩ := lineEnd_eq_some h
  rw [expandChars_append hpre, List.drop_left' hlength, List.drop_left' hlength]
  exact ⟨hagain _, rfl, ht.of_append hpre⟩

theorem lineEnd_expands_none (h : lineEnd? t = none) (hdollar : t.head? ≠ some '$')
    (hreturn : t.head? ≠ some '\r') : lineEnd? (env.expandChars t) = none := by
  apply lineEnd_eq_none
  · rw [head?_expandChars hdollar]
    intro hnewline
    obtain ⟨rest, rfl⟩ := List.head?_eq_some_iff.mp hnewline
    cases h
  · rw [head?_expandChars hdollar]
    exact hreturn

theorem head_of_gaps (h : skipGaps? (f + 1) t = some r) (hr : r.head? ≠ some '$') :
    (skipBlanks t).head? ≠ some '$' := by
  intro hhead
  obtain ⟨rest, hrest⟩ := List.head?_eq_some_iff.mp hhead
  obtain ⟨w, hw, h⟩ := gaps_succ.mp h
  rw [hrest] at hw
  cases hw
  rcases h with ⟨n, hn, -⟩ | ⟨-, -, rfl⟩
  · cases hn
  · exact hr rfl

theorem gaps_expands_of_lt (hf : t.length < f) (hf' : (env.expandChars t).length < f')
    (ht : Sober env long t) (h : skipGaps? f t = some r) (hr : r.head? ≠ some '$') :
    skipGaps? f' (env.expandChars t) = some (env.expandChars r) ∧ Sober env long r := by
  induction f generalizing t f' with
  | zero => omega
  | succ f ih =>
      cases f' with
      | zero => omega
      | succ f' =>
          have hhead := head_of_gaps h hr
          obtain ⟨hblanks, hsober⟩ := skipBlanks_expands ht hhead
          obtain ⟨w, hw, h⟩ := gaps_succ.mp h
          obtain ⟨hw', hsober, hdollar⟩ := skipComment_expands hsober hw hhead
          rcases h with ⟨n, hn, h⟩ | ⟨hend, hreturn, rfl⟩
          · obtain ⟨hn', hdrop, hsober⟩ := lineEnd_expands hsober hn
            have hle := skipBlanks_le t
            have hle' := skipBlanks_le (env.expandChars t)
            have hcomment := skipComment_le hw
            have hcomment' := skipComment_le hw'
            rw [← hblanks] at hcomment'
            have hbounds := lineEnd_bounds hn
            have hbounds' := lineEnd_bounds hn'
            have hlength : (env.expandChars (w.drop n)).length < f' := by
              rw [← hdrop, List.length_drop]
              omega
            obtain ⟨hmore, hsober⟩ := ih (by rw [List.length_drop]; omega)
              hlength hsober h
            exact ⟨gaps_succ.mpr
              ⟨_, by rw [hblanks, hw'], .inl ⟨n, hn', by rw [hdrop, hmore]⟩⟩, hsober⟩
          · refine ⟨gaps_succ.mpr ⟨_, by rw [hblanks, hw'], .inr ⟨?_, ?_, rfl⟩⟩, hsober⟩
            · exact lineEnd_expands_none hend hdollar hreturn
            · rw [head?_expandChars hdollar]
              exact hreturn

theorem gaps_expands (ht : Sober env long t) (h : skipGaps? t.length t = some r)
    (hr : r.head? ≠ some '$') :
    skipGaps? (env.expandChars t).length (env.expandChars t) =
    some (env.expandChars r) ∧ Sober env long r := by
  have hmore := gaps_enough (Nat.le_refl _) (Nat.le_succ _) h
  obtain ⟨hexpand, hsober⟩ := gaps_expands_of_lt (Nat.lt_succ_self _)
    (Nat.lt_succ_self _) ht hmore hr
  exact ⟨gaps_enough (Nat.le_succ _) (Nat.le_refl _) hexpand, hsober⟩

theorem gaps_expands_cons (ht : Sober env long t)
    (h : skipGaps? t.length t = some (c :: r)) (hc : c ≠ '$') :
    skipGaps? (env.expandChars t).length (env.expandChars t) =
    some (c :: env.expandChars r) ∧
      Sober env long r := by
  obtain ⟨hexpand, hsober⟩ := gaps_expands ht h (by simpa using hc)
  rw [expandChars_cons fun h => absurd h hc] at hexpand
  exact ⟨hexpand, hsober.of_cons hc⟩

/-- What a comma or a bracket follows, behind blanks and comments, ends there. -/
theorem ends_of_gaps (h : skipGaps? t.length t = some (c :: r))
    (hc : c ≠ '$' ∧ c ≠ '"' ∧ c ≠ '\'') : Ends t := by
  obtain ⟨hdollar, hbasic, hliteral⟩ := hc
  have hmore := gaps_enough (Nat.le_refl _) (Nat.le_succ _) h
  obtain ⟨w, hw, h⟩ := gaps_succ.mp hmore
  intro d hd
  have hsame : d = '$' ∨ d = '"' ∨ d = '\'' → c = d := by
    intro hspecial
    obtain ⟨rest, hrest⟩ := List.head?_eq_some_iff.mp hd
    have hw' : w = d :: rest := by
      rw [skipBlanks, hrest] at hw
      rcases hspecial with rfl | rfl | rfl <;>
      · cases hw
        rfl
    subst hw'
    rcases h with ⟨n, hn, -⟩ | ⟨-, -, hend⟩
    · rcases hspecial with rfl | rfl | rfl <;> cases hn
    · exact (List.cons.inj hend).1
  refine ⟨?_, ?_, ?_⟩
  · rintro rfl
    exact hdollar (hsame (.inl rfl))
  · rintro rfl
    exact hbasic (hsame (.inr (.inl rfl)))
  · rintro rfl
    exact hliteral (hsame (.inr (.inr rfl)))

theorem expand_ofList (q : List Char) :
    env.expand (String.ofList q) = String.ofList (env.expandChars q) := by
  rw [expand, String.toList_ofList]

theorem simpleKey_expands (ht : Sober env long t) (h : simpleKey? t = some (name, r))
    (hr : r.head? ≠ some '$') :
    simpleKey? (env.expandChars t) = some (env.expand name, env.expandChars r) ∧
    Sober env long r := by
  rcases simpleKey_eq_some h with ⟨rest, q, rfl, hq, rfl⟩ | ⟨rest, q, rfl, hq, rfl⟩
    | ⟨word, hspan, hword, rfl⟩
  · obtain ⟨hexpand, hsober⟩ := basic_expands (ht.of_cons (by decide)) q r hq
    rw [expandChars_cons fun h => absurd h (by decide), expand_ofList]
    refine ⟨?_, hsober⟩
    change (basic? 0 (env.expandChars rest)).map _ = _
    rw [hexpand]
    rfl
  · obtain ⟨hexpand, hsober⟩ := literal_expands (ht.of_cons (by decide)) q r hq
    rw [expandChars_cons fun h => absurd h (by decide), expand_ofList]
    refine ⟨?_, hsober⟩
    change (literal? (env.expandChars rest)).map _ = _
    rw [hexpand]
    rfl
  · obtain ⟨htext, htaken, -⟩ := span_eq hspan
    have hfree : '$' ∉ word := fun hmem => absurd (htaken _ hmem) (by decide)
    rw [expand_ofList, expandChars_eq_self hfree]
    refine ⟨simpleKey_bare (span_expandChars hspan hfree hr) hword, ?_⟩
    rw [htext] at ht
    exact ht.of_append hfree

theorem head_of_simpleKey (h : simpleKey? t = some (name, r)) : t.head? ≠ some '$' := by
  rcases simpleKey_eq_some h with ⟨rest, q, rfl, -, -⟩ | ⟨rest, q, rfl, -, -⟩
    | ⟨word, hspan, hword, -⟩
  · simp
  · simp
  · obtain ⟨c, rest, rfl⟩ := List.exists_cons_of_ne_nil hword
    obtain ⟨rfl, htaken, -⟩ := span_eq hspan
    intro hhead
    cases hhead
    exact absurd (htaken '$' (List.mem_cons_self ..)) (by decide)

theorem head_of_key (h : key? f t = some (names, r)) :
    (skipBlanks t).head? ≠ some '$' := by
  cases f with
  | zero => cases h
  | succ f =>
      obtain ⟨part, rest, hpart, -⟩ := key_succ.mp h
      exact head_of_simpleKey hpart

theorem head_of_blanks (h : (skipBlanks t).head? ≠ some '$') : t.head? ≠ some '$' := by
  intro hhead
  obtain ⟨rest, rfl⟩ := List.head?_eq_some_iff.mp hhead
  exact h rfl

theorem key_expands_same (ht : Sober env long t) (h : key? f t = some (names, r))
    (hr : r.head? ≠ some '$') :
    key? f (env.expandChars t) = some (names.map env.expand, env.expandChars r) ∧
    Sober env long r := by
  induction f generalizing t names with
  | zero => cases h
  | succ f ih =>
      obtain ⟨part, rest, hpart, h⟩ := key_succ.mp h
      obtain ⟨hblanks, hsober⟩ := skipBlanks_expands ht (head_of_simpleKey hpart)
      have hbehind : (skipBlanks rest).head? ≠ some '$' := by
        rcases h with ⟨more, parts, hdot, -, -⟩ | ⟨-, rfl, -⟩
        · rw [hdot]
          simp
        · exact hr
      obtain ⟨hpart', hsober⟩ := simpleKey_expands hsober hpart (head_of_blanks hbehind)
      obtain ⟨hrest', hsober⟩ := skipBlanks_expands hsober hbehind
      rw [← hblanks] at hpart'
      rcases h with ⟨more, parts, hdot, hmore, rfl⟩ | ⟨hdot, rfl, rfl⟩
      · rw [hdot] at hsober hrest'
        obtain ⟨hmore', hsober⟩ := ih (hsober.of_cons (by decide)) hmore
        refine ⟨key_succ.mpr ⟨_, _, hpart', .inl ⟨_, _, ?_, hmore', rfl⟩⟩, hsober⟩
        rw [hrest', expandChars_cons fun h => absurd h (by decide)]
      · refine ⟨key_succ.mpr ⟨_, _, hpart', .inr ⟨?_, hrest'.symm, rfl⟩⟩, hsober⟩
        rw [hrest', head?_expandChars hbehind]
        exact hdot

theorem key_expands (ht : Sober env long t) (h : key? t.length t = some (names, r))
    (hr : r.head? ≠ some '$') : key? (env.expandChars t).length (env.expandChars t) =
    some (names.map env.expand, env.expandChars r) ∧
      Sober env long r := by
  obtain ⟨hexpand, hsober⟩ := key_expands_same ht h hr
  exact ⟨key_enough hexpand (Nat.le_add_right _ _), hsober⟩

theorem mem_splitKey (h : name ∈ names) :
    name ∈ (splitKey names).1 ∨ name = (splitKey names).2 := by
  have hne : names ≠ [] := List.ne_nil_of_mem h
  rw [← List.dropLast_concat_getLast hne, List.mem_append, List.mem_singleton] at h
  rcases h with h | h
  · exact .inl h
  · exact .inr (by rw [h, splitKey, List.getLast?_eq_some_getLast hne]; rfl)

theorem map_expand_eq_self (h : ∀ name ∈ names, env.expand name = name) :
    names.map env.expand = names := by
  rw [List.map_congr_left h, List.map_id']

theorem head_of_value (h : value? f d t = some (v, r)) : t.head? ≠ some '$' := by
  cases f with
  | zero => cases h
  | succ f =>
      rcases value_succ.mp h with ⟨rest, l, rfl, -⟩ | ⟨rest, e, rfl, -⟩
        | ⟨q, hhead | hhead, -⟩ | ⟨-, hbare⟩
      · simp
      · simp
      · simp [hhead]
      · simp [hhead]
      · exact head_of_bare hbare

def Keeps (env : Environment) (e : TomlEntries) : Prop :=
  ∀ key, e.HasKey key → env.expand key = key

def ValuesExpand (env : Environment) (long : Bool) (f : Nat) : Prop :=
  ∀ d t v r, Sober env long t → value? f d t = some (v, r) → Ends r →
    (∀ key, v.HasKey key → env.expand key = key) →
    value? f d (env.expandChars t) = some (v.mapText env.expand, env.expandChars r) ∧
    Sober env long r

def ItemsExpand (env : Environment) (long : Bool) (f : Nat) : Prop :=
  ∀ d t l r, Sober env long t → items? f d t = some (l, r) →
    (∀ v ∈ l, ∀ key, v.HasKey key → env.expand key = key) →
    items? f d (env.expandChars t) = some (mapItems env.expand l, env.expandChars r) ∧
    Sober env long r

def MembersExpand (env : Environment) (long : Bool) (f : Nat) : Prop :=
  ∀ d e t e' r, Sober env long t → members? f d e t = some (e', r) → Keeps env e' →
    members? f d (mapEntries env.expand e) (env.expandChars t) =
      some (mapEntries env.expand e', env.expandChars r) ∧ Sober env long r

theorem mapText_of_integer {g : String → String} (h : integer? t = some v) :
    v.mapText g = v := by
  have hrange : ∀ n : Int, inRange n = some v → v.mapText g = v := by
    intro n hn
    rw [inRange] at hn
    split at hn <;> cases hn
    rfl
  unfold integer? at h
  split at h <;>
  · obtain ⟨ds, -, hn⟩ := Option.bind_eq_some_iff.mp h
    exact hrange _ hn

theorem mapText_of_float {g : String → String} (h : float? t = some v) :
    v.mapText g = v := by
  rw [float?] at h
  dsimp only at h
  split at h
  · cases h
    rfl
  split at h
  · split at h <;> cases h
    rfl
  · cases h

theorem mapText_of_scalar {g : String → String} (h : scalar? t = some v) :
    v.mapText g = v := by
  rw [scalar?] at h
  split at h
  · cases h
    rfl
  split at h
  · cases h
    rfl
  split at h
  · cases h
    rfl
  split at h
  · next hinteger =>
      cases h
      exact mapText_of_integer hinteger
  · exact mapText_of_float h

theorem value_expands_succ (hitems : ItemsExpand env long f)
    (hmembers : MembersExpand env long f) : ValuesExpand env long (f + 1) := by
  intro d t v r ht h hends hkeys
  rcases value_succ.mp h with ⟨rest, l, rfl, hdepth, hl, rfl⟩
    | ⟨rest, e, rfl, hdepth, he, rfl⟩ |
      ⟨q, hhead, hq, rfl⟩ | ⟨hhead, hbare⟩
  · obtain ⟨hexpand, hsober⟩ := hitems (d + 1) rest l r (ht.of_cons (by decide)) hl
      fun v hv key hkey => hkeys key (.item hv hkey)
    rw [expandChars_cons fun h => absurd h (by decide)]
    exact ⟨value_succ.mpr (.inl ⟨_, _, rfl, hdepth, hexpand, rfl⟩), hsober⟩
  · obtain ⟨hexpand, hsober⟩ := hmembers (d + 1) [] rest e r (ht.of_cons (by decide)) he
      fun key hkey => hkeys key (TomlEntries.hasKey_table.mpr hkey)
    rw [expandChars_cons fun h => absurd h (by decide)]
    exact ⟨value_succ.mpr (.inr (.inl ⟨_, _, rfl, hdepth, hexpand, rfl⟩)), hsober⟩
  · obtain ⟨hexpand, hsober⟩ := quoted_expands ht hq hends
    have hdollar := head_of_value h
    refine ⟨value_succ.mpr (.inr (.inr (.inl ⟨_, ?_, hexpand, ?_⟩))), hsober⟩
    · rw [head?_expandChars hdollar]
      exact hhead
    · rw [mapText, expand_ofList]
  · obtain ⟨hexpand, hsober⟩ := bare_expands ht hbare hends
    have hdollar := head_of_bare hbare
    refine ⟨value_succ.mpr (.inr (.inr (.inr ⟨?_, ?_⟩))), hsober⟩
    · rw [head?_expandChars hdollar]
      exact hhead
    · have hscalar : ∃ word, scalar? word = some v := by
        rcases bare_eq_some hbare with ⟨_, _, _, _, -, -, -, -, hscalar⟩
          | ⟨_, -, -, hscalar⟩
        · exact ⟨_, hscalar⟩
        · exact ⟨_, hscalar⟩
      obtain ⟨word, hscalar⟩ := hscalar
      rw [mapText_of_scalar hscalar]
      exact hexpand

theorem element_expands (hvalues : ValuesExpand env long f) {w rest : List Char}
    (ht : Sober env long u) (hv : value? f d u = some (v, rest))
    (hw : skipGaps? rest.length rest = some (c :: w))
    (hc : c ≠ '$' ∧ c ≠ '"' ∧ c ≠ '\'')
    (hkeys : ∀ key, v.HasKey key → env.expand key = key) :
    value? f d (env.expandChars u) = some (v.mapText env.expand, env.expandChars rest) ∧
      skipGaps? (env.expandChars rest).length (env.expandChars rest) =
      some (c :: env.expandChars w) ∧
      Sober env long w := by
  obtain ⟨hvalue, hsober⟩ := hvalues d u v rest ht hv (ends_of_gaps hw hc) hkeys
  exact ⟨hvalue, gaps_expands_cons hsober hw hc.1⟩

theorem items_expands_succ (hvalues : ValuesExpand env long f)
    (hitems : ItemsExpand env long f) : ItemsExpand env long (f + 1) := by
  intro d t l r ht h hkeys
  obtain ⟨u, hu, h⟩ := items_succ.mp h
  rcases h with ⟨rfl, rfl⟩ | ⟨hclose, v, rest, w, hv, hw, h⟩
  · obtain ⟨hu', hsober⟩ := gaps_expands_cons ht hu (by decide)
    exact ⟨items_succ.mpr ⟨_, hu', .inl ⟨rfl, rfl⟩⟩, hsober⟩
  · have hdollar := head_of_value hv
    obtain ⟨hu', hsober⟩ := gaps_expands ht hu hdollar
    have hclose' : (env.expandChars u).head? ≠ some ']' := by
      rw [head?_expandChars hdollar]
      exact hclose
    rcases h with ⟨w', more, rfl, hmore, rfl⟩ | ⟨rfl, rfl⟩
    · obtain ⟨hvalue, hw', hsober⟩ := element_expands hvalues hsober hv hw (by decide)
        (hkeys v (List.mem_cons_self ..))
      obtain ⟨hmore', hsober⟩ := hitems d w' more r hsober hmore fun v hv =>
        hkeys v (List.mem_cons_of_mem _ hv)
      exact ⟨items_succ.mpr
        ⟨_, hu', .inr ⟨hclose', _, _, _, hvalue, hw', .inl ⟨_, _, rfl, hmore', rfl⟩⟩⟩,
        hsober⟩
    · obtain ⟨hvalue, hw', hsober⟩ := element_expands hvalues hsober hv hw (by decide)
        (hkeys v (List.mem_cons_self ..))
      exact ⟨items_succ.mpr
        ⟨_, hu', .inr ⟨hclose', _, _, _, hvalue, hw', .inr ⟨rfl, rfl⟩⟩⟩, hsober⟩

theorem members_keep (h : members? f d e t = some (e', r)) {key : String}
    (hkey : e.HasKey key) : e'.HasKey key := by
  induction f generalizing e t with
  | zero => cases h
  | succ f ih =>
      obtain ⟨u, -, h⟩ := members_succ.mp h
      rcases h with ⟨-, rfl⟩ | ⟨-, names, more, v, rest, e₁, w, -, -, he, -, h⟩
      · exact hkey
      · have hadded := TomlEntries.grows_addDotted e e₁ he key (.inl hkey)
        rcases h with ⟨w', -, h⟩ | ⟨-, rfl⟩
        · exact ih h hadded
        · exact hadded

theorem members_expands_succ (hvalues : ValuesExpand env long f)
    (hmembers : MembersExpand env long f) : MembersExpand env long (f + 1) := by
  intro d e t e' r ht h hkeys
  obtain ⟨u, hu, h⟩ := members_succ.mp h
  rcases h with ⟨rfl, rfl⟩ | ⟨hclose, names, more, v, rest, e₁, w, hkey, hv, he, hw, h⟩
  · obtain ⟨hu', hsober⟩ := gaps_expands_cons ht hu (by decide)
    exact ⟨members_succ.mpr ⟨_, hu', .inl ⟨rfl, rfl⟩⟩, hsober⟩
  · have hlater : Keeps env e₁ := by
      intro key hkey
      rcases h with ⟨w', -, h⟩ | ⟨-, rfl⟩
      · exact hkeys key (members_keep h hkey)
      · exact hkeys key hkey
    have hadded := TomlEntries.grows_addDotted e e₁ he
    have hnames : names.map env.expand = names := by
      apply map_expand_eq_self
      intro name hname
      apply hlater name
      rcases mem_splitKey hname with hpath | hlast
      · exact hadded name (.inr (.inl hpath))
      · exact hadded name (.inr (.inr (.inl hlast)))
    have hv' : ∀ key, v.HasKey key → env.expand key = key := fun key hkey =>
      hlater key (hadded key (.inr (.inr (.inr hkey))))
    have he' := (TomlEntries.natural_addDotted (g := env.expand)).eq_some he
    have hdollar := head_of_blanks (head_of_key hkey)
    obtain ⟨hu', hsober⟩ := gaps_expands ht hu hdollar
    have hclose' : (env.expandChars u).head? ≠ some '\x7d' := by
      rw [head?_expandChars hdollar]
      exact hclose
    obtain ⟨hkey', hsober⟩ := key_expands hsober hkey (by simp)
    rw [expandChars_cons fun h => absurd h (by decide), hnames] at hkey'
    obtain ⟨hblanks, hsober⟩ := skipBlanks_expands (hsober.of_cons (by decide))
      (head_of_value hv)
    rcases h with ⟨w', rfl, hmore⟩ | ⟨rfl, rfl⟩
    · obtain ⟨hvalue, hw', hsober⟩ := element_expands hvalues hsober hv hw
        (by decide) hv'
      obtain ⟨hmore', hsober⟩ := hmembers d e₁ w' e' r hsober hmore hkeys
      rw [← hblanks] at hvalue
      exact ⟨members_succ.mpr
        ⟨_, hu', .inr ⟨hclose', _, _, _, _, _, _, hkey', hvalue, he', hw',
          .inl ⟨_, rfl, hmore'⟩⟩⟩, hsober⟩
    · obtain ⟨hvalue, hw', hsober⟩ := element_expands hvalues hsober hv hw
        (by decide) hv'
      rw [← hblanks] at hvalue
      exact ⟨members_succ.mpr
        ⟨_, hu', .inr ⟨hclose', _, _, _, _, _, _, hkey', hvalue, he', hw',
          .inr ⟨rfl, rfl⟩⟩⟩, hsober⟩

/-- By induction on the calls that are left, for values, arrays and inline
tables at once. -/
theorem values_expand (f : Nat) : ValuesExpand env long f := by
  have hall : ValuesExpand env long f ∧ ItemsExpand env long f ∧
      MembersExpand env long f := by
    induction f with
    | zero =>
        refine ⟨?_, ?_, ?_⟩
        · intro d t v r _ h
          cases h
        · intro d t l r _ h
          cases h
        · intro d e t e' r _ h
          cases h
    | succ f ih =>
        obtain ⟨hvalues, hitems, hmembers⟩ := ih
        exact ⟨value_expands_succ hitems hmembers, items_expands_succ hvalues hitems,
          members_expands_succ hvalues hmembers⟩
  exact hall.1

end Toml

end Resumable
