import Resumable.Proofs.Config.Values

namespace Resumable

open Toml Environment

namespace Toml

variable {env : Environment} {long : Bool} {t u r : List Char} {f f' : Nat}

/-- What stands in front of the end of a line ends there. -/
theorem ends_of_line (h : skipComment? (skipBlanks r) = some u)
    (hu : u = [] ∨ ∃ n, lineEnd? u = some n) :
    Ends r := by
  intro d hd
  have hspecial : ¬ (d = '$' ∨ d = '"' ∨ d = '\'') := by
    intro hspecial
    obtain ⟨rest, hrest⟩ := List.head?_eq_some_iff.mp hd
    have hu' : u = d :: rest := by
      rw [skipBlanks, hrest] at h
      rcases hspecial with rfl | rfl | rfl <;>
      · cases h
        rfl
    subst hu'
    rcases hu with hu | ⟨n, hn⟩
    · cases hu
    · rcases hspecial with rfl | rfl | rfl <;> cases hn
  simpa [not_or] using hspecial

namespace Draft

variable {a b : Draft}

def expand (env : Environment) (a : Draft) : Draft :=
  ⟨mapEntries env.expand a.entries, a.here⟩

theorem header_expands (ht : Sober env long t) (h : a.header? t = some (b, r))
    (hkeys : Keeps env b.entries) : (a.expand env).header? (env.expandChars t) =
    some (b.expand env, env.expandChars r) ∧ Sober env long r := by
  obtain ⟨hkey, hentries⟩ := header_eq_some.mp h
  have hgrows :=
    TomlEntries.grows_modifyAt TomlEntries.grows_define a.entries b.entries hentries
  have hnames : b.here.map env.expand = b.here := by
    apply map_expand_eq_self
    intro name hname
    exact hkeys name (hgrows name (.inr (mem_splitKey hname)))
  obtain ⟨hkey', hsober⟩ := key_expands ht hkey (by simp)
  rw [expandChars_cons fun h => absurd h (by decide), hnames] at hkey'
  refine ⟨header_eq_some.mpr ⟨hkey', ?_⟩, hsober.of_cons (by decide)⟩
  exact (TomlEntries.natural_modifyAt TomlEntries.natural_define).eq_some hentries

theorem rowHeader_expands (ht : Sober env long t) (h : a.rowHeader? t = some (b, r))
    (hkeys : Keeps env b.entries) : (a.expand env).rowHeader? (env.expandChars t) =
    some (b.expand env, env.expandChars r) ∧ Sober env long r := by
  obtain ⟨hkey, hentries⟩ := rowHeader_eq_some.mp h
  have hgrows :=
    TomlEntries.grows_modifyAt TomlEntries.grows_addRow a.entries b.entries hentries
  have hnames : b.here.map env.expand = b.here := by
    apply map_expand_eq_self
    intro name hname
    exact hkeys name (hgrows name (.inr (mem_splitKey hname)))
  obtain ⟨hkey', hsober⟩ := key_expands ht hkey (by simp)
  rw [expandChars_cons fun h => absurd h (by decide),
    expandChars_cons fun h => absurd h (by decide), hnames] at hkey'
  refine ⟨rowHeader_eq_some.mpr ⟨hkey', ?_⟩,
    (hsober.of_cons (by decide)).of_cons (by decide)⟩
  exact (TomlEntries.natural_modifyAt TomlEntries.natural_addRow).eq_some hentries

theorem pair_expands (ht : Sober env long t) (h : a.pair? t = some (b, r))
    (hends : Ends r) (hkeys : Keeps env b.entries) :
    (a.expand env).pair? (env.expandChars t) =
    some (b.expand env, env.expandChars r) ∧ Sober env long r := by
  obtain ⟨names, more, v, hkey, hv, hentries, hhere⟩ := pair_eq_some.mp h
  have hgrows :=
    TomlEntries.grows_modifyAt TomlEntries.grows_addDotted a.entries b.entries hentries
  have hnames : names.map env.expand = names := by
    apply map_expand_eq_self
    intro name hname
    apply hkeys name
    rcases mem_splitKey hname with hpath | hlast
    · exact hgrows name (.inr (.inr (.inl hpath)))
    · exact hgrows name (.inr (.inr (.inr (.inl hlast))))
  obtain ⟨hkey', hsober⟩ := key_expands ht hkey (by simp)
  rw [expandChars_cons fun h => absurd h (by decide), hnames] at hkey'
  obtain ⟨hblanks, hsober⟩ := skipBlanks_expands (hsober.of_cons (by decide))
    (head_of_value hv)
  obtain ⟨hvalue, hsober⟩ := values_expand _ 0 _ v r hsober hv hends
    fun key hkey => hkeys key (hgrows key (.inr (.inr (.inr (.inr hkey)))))
  rw [← hblanks] at hvalue
  have henough :=
    (value_enough _ 0 _ _ _ hvalue).2 ((skipBlanks (env.expandChars more)).length + 1)
      (by omega)
  refine ⟨pair_eq_some.mpr ⟨names, _, _, hkey', henough, ?_, hhere⟩, hsober⟩
  exact (TomlEntries.natural_modifyAt TomlEntries.natural_addDotted).eq_some hentries

theorem head_of_statement (h : a.statement? t = some (b, r)) : t.head? ≠ some '$' := by
  rcases statement_eq_some.mp h with ⟨hend, -, -⟩ | ⟨rest, rfl, -⟩ | ⟨rest, rfl, -, -⟩
    | ⟨c, -, -, -, -, -, h⟩
  · intro hhead
    exact absurd (hend '$' hhead) (by decide)
  · simp
  · simp
  · obtain ⟨names, more, v, hkey, -⟩ := pair_eq_some.mp h
    exact head_of_blanks (head_of_key hkey)

theorem statement_keeps (h : a.statement? t = some (b, r)) {key : String}
    (hkey : a.entries.HasKey key) : b.entries.HasKey key := by
  rcases statement_eq_some.mp h with ⟨-, rfl, -⟩ | ⟨rest, rfl, h⟩ | ⟨rest, rfl, -, h⟩
    | ⟨c, -, -, -, -, -, h⟩
  · exact hkey
  · exact TomlEntries.grows_modifyAt TomlEntries.grows_addRow _ _
      (rowHeader_eq_some.mp h).2 key (.inl hkey)
  · exact TomlEntries.grows_modifyAt TomlEntries.grows_define _ _
      (header_eq_some.mp h).2 key (.inl hkey)
  · obtain ⟨names, more, v, -, -, hentries, -⟩ := pair_eq_some.mp h
    exact TomlEntries.grows_modifyAt TomlEntries.grows_addDotted _ _ hentries
      key (.inl hkey)

theorem statement_expands (ht : Sober env long t) (h : a.statement? t = some (b, r))
    (hends : Ends r) (hkeys : Keeps env b.entries) :
    (a.expand env).statement? (env.expandChars t) =
    some (b.expand env, env.expandChars r) ∧ Sober env long r := by
  have hdollar := head_of_statement h
  have hhead : (env.expandChars t).head? = t.head? := head?_expandChars hdollar
  rcases statement_eq_some.mp h with ⟨hend, rfl, rfl⟩ | ⟨rest, rfl, h⟩
    | ⟨rest, rfl, hrow, h⟩ |
      ⟨c, hc, hheader, hcomment, hnewline, hreturn, h⟩
  · exact ⟨statement_eq_some.mpr (.inl ⟨by rwa [hhead], rfl, rfl⟩), ht⟩
  · obtain ⟨hexpand, hsober⟩ :=
      rowHeader_expands ((ht.of_cons (by decide)).of_cons (by decide)) h hkeys
    rw [expandChars_cons fun h => absurd h (by decide),
      expandChars_cons fun h => absurd h (by decide)]
    exact ⟨statement_eq_some.mpr (.inr (.inl ⟨_, rfl, hexpand⟩)), hsober⟩
  · obtain ⟨hexpand, hsober⟩ := header_expands (ht.of_cons (by decide)) h hkeys
    have hrest : rest.head? ≠ some '$' :=
      head_of_blanks (head_of_key (header_eq_some.mp h).1)
    rw [expandChars_cons fun h => absurd h (by decide)]
    refine ⟨statement_eq_some.mpr (.inr (.inr (.inl ⟨_, rfl, ?_, hexpand⟩))), hsober⟩
    rw [head?_expandChars hrest]
    exact hrow
  · obtain ⟨hexpand, hsober⟩ := pair_expands ht h hends hkeys
    exact ⟨statement_eq_some.mpr
      (.inr (.inr
        (.inr ⟨c,
          by rw [hhead, hc], hheader, hcomment, hnewline, hreturn, hexpand⟩))), hsober⟩

theorem lines_keep (h : lines? f a t = some b) {key : String}
    (hkey : a.entries.HasKey key) : b.entries.HasKey key := by
  induction f generalizing a t with
  | zero =>
      cases h
      exact hkey
  | succ f ih =>
      obtain ⟨a', rest, w, hstatement, -, h⟩ := lines_succ.mp h
      have hafter := statement_keeps hstatement hkey
      rcases h with ⟨-, rfl⟩ | ⟨-, n, -, h⟩
      · exact hafter
      · exact ih h hafter

/-- By induction on the lines: each is expanded before or after it is read. -/
theorem lines_expand (hf : t.length < f) (hf' : (env.expandChars t).length < f')
    (ht : Sober env long t) (h : lines? f a t = some b) (hkeys : Keeps env b.entries) :
    lines? f' (a.expand env) (env.expandChars t) = some (b.expand env) := by
  induction f generalizing t a f' with
  | zero => omega
  | succ f ih =>
      cases f' with
      | zero => omega
      | succ f' =>
          obtain ⟨a', rest, w, hstatement, hw, h⟩ := lines_succ.mp h
          have hends : Ends rest := by
            apply ends_of_line hw
            rcases h with ⟨hw, -⟩ | ⟨-, n, hn, -⟩
            · exact .inl hw
            · exact .inr ⟨n, hn⟩
          have hafter : Keeps env a'.entries := by
            intro key hkey
            rcases h with ⟨-, rfl⟩ | ⟨-, n, -, h⟩
            · exact hkeys key hkey
            · exact hkeys key (lines_keep h hkey)
          obtain ⟨hblanks, hsober⟩ := skipBlanks_expands ht
            (head_of_statement hstatement)
          obtain ⟨hstatement', hsober⟩ := statement_expands hsober
            hstatement hends hafter
          rw [← hblanks] at hstatement'
          have hdollar : (skipBlanks rest).head? ≠ some '$' :=
            fun hhead => (hends '$' hhead).1 rfl
          obtain ⟨hblanks', hsober⟩ := skipBlanks_expands hsober hdollar
          obtain ⟨hw', hsober, hdollar⟩ := skipComment_expands hsober hw hdollar
          rw [← hblanks'] at hw'
          apply lines_succ.mpr
          refine ⟨_, _, _, hstatement', hw', ?_⟩
          rcases h with ⟨rfl, rfl⟩ | ⟨hne, n, hn, h⟩
          · exact .inl ⟨expandChars_nil, rfl⟩
          · obtain ⟨hn', hdrop, hsober⟩ := lineEnd_expands hsober hn
            refine .inr ⟨?_, n, hn', ?_⟩
            · intro hnil
              rw [hnil] at hn'
              cases hn'
            · rw [hdrop]
              have hstep := statement_le hstatement
              have hstep' := statement_le hstatement'
              have hcomment := skipComment_le hw
              have hcomment' := skipComment_le hw'
              have hle₁ := skipBlanks_le t
              have hle₂ := skipBlanks_le rest
              have hle₃ := skipBlanks_le (env.expandChars t)
              have hle₄ := skipBlanks_le (env.expandChars rest)
              have hbounds := lineEnd_bounds hn
              have hbounds' := lineEnd_bounds hn'
              apply ih _ _ hsober h
              · rw [List.length_drop]
                omega
              · rw [← hdrop, List.length_drop]
                omega

end Draft

def unmarked : List Char → List Char
  | '\uFEFF' :: rest => rest
  | all => all

theorem document_eq (text : String) : document? text =
    (Draft.lines? ((unmarked text.toList).length + 1) ⟨[], []⟩
      (unmarked text.toList)).map Draft.entries := rfl

theorem unmarked_expands (ht : Sober env long t) (hhead : t.head? ≠ some '$') :
    unmarked (env.expandChars t) = env.expandChars (unmarked t) ∧
    Sober env long (unmarked t) := by
  have hsame : ∀ {u : List Char}, u.head? ≠ some '\uFEFF' → unmarked u = u := by
    intro u hu
    unfold unmarked
    split
    · exact absurd rfl hu
    · rfl
  by_cases hmark : t.head? = some '\uFEFF'
  · obtain ⟨rest, rfl⟩ := List.head?_eq_some_iff.mp hmark
    rw [expandChars_cons fun h => absurd h (by decide)]
    exact ⟨rfl, ht.of_cons (by decide)⟩
  · rw [hsame hmark, hsame (by rwa [head?_expandChars hhead])]
    exact ⟨rfl, ht⟩

/-- A document can be expanded before or after it is read. -/
theorem document_expands {text : String} {entries : TomlEntries}
    (ht : Sober env long text.toList) (h : document? text = some entries)
    (hkeys : Keeps env entries) :
    document? (env.expand text) = some (mapEntries env.expand entries) := by
  rw [document_eq] at h
  obtain ⟨b, hlines, rfl⟩ := Option.map_eq_some_iff.mp h
  have hhead : text.toList.head? ≠ some '$' := by
    intro hdollar
    obtain ⟨rest, hrest⟩ := List.head?_eq_some_iff.mp hdollar
    rw [hrest] at hlines
    obtain ⟨a', more, w, hstatement, -⟩ := Draft.lines_succ.mp hlines
    exact Draft.head_of_statement hstatement rfl
  obtain ⟨hmark, hsober⟩ := unmarked_expands ht hhead
  have hexpand :=
    Draft.lines_expand (Nat.lt_succ_self _) (Nat.lt_succ_self _) hsober hlines hkeys
  rw [document_eq, expand, String.toList_ofList, hmark]
  exact Option.map_eq_some_iff.mpr ⟨_, hexpand, rfl⟩

end Toml

end Resumable
