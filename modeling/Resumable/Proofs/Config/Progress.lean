import Resumable.Proofs.Config.Steps

namespace Resumable

namespace Toml

variable {t r q : List Char} {c mark : Char} {n f f' d : Nat} {name : String}
  {names : List String} {v : Toml}

theorem push_shorter {o : Option Quoted} (h : o.map (Quoted.push c) = some (q, r))
    (ho : ∀ q', o = some (q', r) → r.length < n) : r.length < n := by
  obtain ⟨⟨q', r'⟩, hread, he⟩ := Option.map_eq_some_iff.mp h
  cases he
  exact ho q' hread

theorem basic_shorter (h : basic? n t = some (q, r)) : r.length < t.length := by
  induction t generalizing n q with
  | nil => cases n <;> cases h
  | cons c rest ih =>
      have hrest : ∀ {n q}, basic? n rest = some (q, r) →
          r.length < (c :: rest).length :=
        fun h => Nat.lt_succ_of_lt (ih h)
      unfold basic? at h
      split at h
      · cases h
      · next heq =>
          cases heq
          exact hrest h
      · next heq =>
          cases heq
          cases h
          exact Nat.lt_succ_self _
      · next heq =>
          cases heq
          split at h
          · exact push_shorter h fun q' => hrest
          · cases h
      · next heq =>
          cases heq
          split at h
          · cases h
          · exact push_shorter h fun q' => hrest

theorem literal_shorter (h : literal? t = some (q, r)) : r.length < t.length := by
  induction t generalizing q with
  | nil => cases h
  | cons c rest ih =>
      unfold literal? at h
      split at h
      · cases h
      · next heq =>
          cases heq
          cases h
          exact Nat.lt_succ_self _
      · next heq =>
          cases heq
          split at h
          · cases h
          · exact push_shorter h fun q' h => Nat.lt_succ_of_lt (ih h)

theorem closing_shorter (h : closing? mark t = some (q, r)) : r.length < t.length := by
  rw [closing?] at h
  dsimp only at h
  split at h
  · cases h
  · next hmarks =>
      cases h
      have hlength := (List.takeWhile_sublist (· == mark) (l := t)).length_le
      rw [List.length_drop]
      omega

theorem multiline_shorter (h : multiline? mark n t = some (q, r)) :
    r.length < t.length := by
  induction t generalizing n q with
  | nil => cases n <;> cases h
  | cons c rest ih =>
      have hrest : ∀ {n q}, multiline? mark n rest = some (q, r) →
          r.length < (c :: rest).length :=
        fun h => Nat.lt_succ_of_lt (ih h)
      cases n with
      | succ n => exact hrest h
      | zero =>
          rw [multiline?] at h
          split at h
          · split at h
            · next hclosing =>
                cases h
                exact closing_shorter hclosing
            · exact push_shorter h fun q' => hrest
          split at h
          · split at h
            · exact hrest h
            · split at h
              · exact push_shorter h fun q' => hrest
              · cases h
          split at h
          · exact push_shorter h fun q' => hrest
          split at h
          · exact push_shorter h fun q' => hrest
          split at h
          · cases h
          · exact push_shorter h fun q' => hrest

theorem multilineBody_shorter (h : multilineBody? mark t = some (q, r)) :
    r.length < t.length := by
  rw [multilineBody?] at h
  have hdrop := multiline_shorter h
  rw [List.length_drop] at hdrop
  omega

theorem quoted_shorter (h : quoted? t = some (q, r)) : r.length < t.length := by
  unfold quoted? at h
  split at h
  · have hbody := multilineBody_shorter h
    simp only [List.length_cons]
    omega
  · have hbody := multilineBody_shorter h
    simp only [List.length_cons]
    omega
  · exact Nat.lt_succ_of_lt (basic_shorter h)
  · exact Nat.lt_succ_of_lt (literal_shorter h)
  · cases h

theorem bare_shorter (h : bare? t = some (v, r)) : r.length < t.length := by
  rcases bare_eq_some h with ⟨word, c, more, time, hspan, -, -, htime, -⟩
    | ⟨word, hspan, -, hscalar⟩
  · obtain ⟨rfl, -, -⟩ := span_eq hspan
    obtain ⟨hmore, -, -⟩ := span_eq htime
    rw [hmore]
    simp only [List.length_append, List.length_cons]
    omega
  · obtain ⟨rfl, -, -⟩ := span_eq hspan
    have hword := List.length_pos_iff.mpr (ne_nil_of_scalar hscalar)
    rw [List.length_append]
    omega

theorem skipBlanks_le (t : List Char) : (skipBlanks t).length ≤ t.length :=
  (List.dropWhile_sublist isBlank).length_le

theorem skipComment_le (h : skipComment? t = some r) : r.length ≤ t.length := by
  unfold skipComment? at h
  split at h
  · next rest =>
      dsimp only at h
      split at h
      · cases h
      · cases h
        rw [List.span_eq_takeWhile_dropWhile]
        exact Nat.le_succ_of_le (List.dropWhile_sublist _).length_le
  · cases h
    exact Nat.le_refl _

theorem lineEnd_bounds (h : lineEnd? t = some n) : 0 < n ∧ n ≤ t.length := by
  unfold lineEnd? at h
  split at h <;> cases h <;> simp

theorem gaps_le (h : skipGaps? f t = some r) : r.length ≤ t.length := by
  induction f generalizing t with
  | zero =>
      cases h
      exact Nat.le_refl _
  | succ f ih =>
      obtain ⟨w, hw, h⟩ := gaps_succ.mp h
      have hblanks := skipBlanks_le t
      have hcomment := skipComment_le hw
      rcases h with ⟨n, hn, h⟩ | ⟨-, -, rfl⟩
      · have hmore := ih h
        rw [List.length_drop] at hmore
        omega
      · omega

theorem gaps_enough (hf : t.length ≤ f) (hf' : t.length ≤ f')
    (h : skipGaps? f t = some r) : skipGaps? f' t = some r := by
  have hnil : ∀ n, skipGaps? n [] = some [] := fun n => by cases n <;> rfl
  induction f generalizing t f' with
  | zero =>
      obtain rfl := List.eq_nil_of_length_eq_zero (Nat.le_zero.mp hf)
      rw [hnil] at h ⊢
      exact h
  | succ f ih =>
      cases f' with
      | zero =>
          obtain rfl := List.eq_nil_of_length_eq_zero (Nat.le_zero.mp hf')
          rw [hnil] at h
          exact h
      | succ f' =>
          obtain ⟨w, hw, h⟩ := gaps_succ.mp h
          apply gaps_succ.mpr
          refine ⟨w, hw, ?_⟩
          rcases h with ⟨n, hn, h⟩ | hend
          · have hblanks := skipBlanks_le t
            have hcomment := skipComment_le hw
            have hbounds := lineEnd_bounds hn
            exact .inl
              ⟨n, hn, ih (by rw [List.length_drop]; omega)
                (by rw [List.length_drop]; omega) h⟩
          · exact .inr hend

theorem simpleKey_shorter (h : simpleKey? t = some (name, r)) :
    r.length < t.length := by
  rcases simpleKey_eq_some h with ⟨rest, q, rfl, hq, -⟩ | ⟨rest, q, rfl, hq, -⟩
    | ⟨word, hspan, hword, -⟩
  · exact Nat.lt_succ_of_lt (basic_shorter hq)
  · exact Nat.lt_succ_of_lt (literal_shorter hq)
  · obtain ⟨rfl, -, -⟩ := span_eq hspan
    have hlength := List.length_pos_iff.mpr hword
    rw [List.length_append]
    omega

theorem key_shorter (h : key? f t = some (names, r)) : r.length < t.length := by
  induction f generalizing t names with
  | zero => cases h
  | succ f ih =>
      obtain ⟨part, rest, hpart, h⟩ := key_succ.mp h
      have hblanks := skipBlanks_le t
      have hshorter := simpleKey_shorter hpart
      have hrest := skipBlanks_le rest
      rcases h with ⟨more, parts, hdot, hmore, -⟩ | ⟨-, rfl, -⟩
      · have hlater := ih hmore
        rw [hdot, List.length_cons] at hrest
        omega
      · omega

theorem key_enough (h : key? f t = some (names, r)) (hf : t.length ≤ f' + r.length) :
    key? f' t = some (names, r) := by
  induction f generalizing t names f' with
  | zero => cases h
  | succ f ih =>
      have hall := key_shorter h
      cases f' with
      | zero => omega
      | succ f' =>
          obtain ⟨part, rest, hpart, h⟩ := key_succ.mp h
          apply key_succ.mpr
          refine ⟨part, rest, hpart, ?_⟩
          rcases h with ⟨more, parts, hdot, hmore, rfl⟩ | hend
          · have hblanks := skipBlanks_le t
            have hshorter := simpleKey_shorter hpart
            have hrest := skipBlanks_le rest
            rw [hdot, List.length_cons] at hrest
            exact .inl ⟨more, parts, hdot, ih hmore (by omega), rfl⟩
          · exact .inr hend

variable {l : List Toml} {e e' : TomlEntries}

/-- A reader that counts its calls takes something, and needs no more calls than it
takes characters. -/
def Enough {α : Type} (read : Nat → List Char → Option (α × List Char))
    (f : Nat) : Prop :=
  ∀ t v r, read f t = some (v, r) →
    r.length < t.length ∧ ∀ f', t.length ≤ f' + r.length → read f' t = some (v, r)

theorem items_enough (hvalue : ∀ d, Enough (fun f => value? f d) f)
    (hitems : ∀ d, Enough (fun f => items? f d) f) :
    Enough (fun f => items? f d) (f + 1) := by
  intro t l r h
  obtain ⟨u, hu, h⟩ := items_succ.mp h
  have hgap := gaps_le hu
  rcases h with ⟨rfl, rfl⟩ | ⟨hclose, v, rest, w, hv, hw, h⟩
  · rw [List.length_cons] at hgap
    refine ⟨hgap, ?_⟩
    intro f' hf'
    obtain ⟨f', rfl⟩ : ∃ n, f' = n + 1 := ⟨f' - 1, by omega⟩
    exact items_succ.mpr ⟨_, hu, .inl ⟨rfl, rfl⟩⟩
  · obtain ⟨hshorter, henough⟩ := hvalue d u v rest hv
    have hbehind := gaps_le hw
    rcases h with ⟨w', more, rfl, hmore, rfl⟩ | ⟨rfl, rfl⟩
    · obtain ⟨hlater, hagain⟩ := hitems d w' more r hmore
      rw [List.length_cons] at hbehind
      refine ⟨by omega, ?_⟩
      intro f' hf'
      obtain ⟨f', rfl⟩ : ∃ n, f' = n + 1 := ⟨f' - 1, by omega⟩
      exact items_succ.mpr ⟨u, hu, .inr ⟨hclose, v, rest, _, henough f' (by omega), hw,
        .inl ⟨w', more, rfl, hagain f' (by omega), rfl⟩⟩⟩
    · rw [List.length_cons] at hbehind
      refine ⟨by omega, ?_⟩
      intro f' hf'
      obtain ⟨f', rfl⟩ : ∃ n, f' = n + 1 := ⟨f' - 1, by omega⟩
      exact items_succ.mpr
        ⟨u, hu, .inr ⟨hclose, v, rest, _, henough f' (by omega), hw, .inr ⟨rfl, rfl⟩⟩⟩

theorem members_enough (hvalue : ∀ d, Enough (fun f => value? f d) f)
    (hmembers : ∀ d e, Enough (fun f => members? f d e) f) :
    Enough (fun f => members? f d e) (f + 1) := by
  intro t e' r h
  obtain ⟨u, hu, h⟩ := members_succ.mp h
  have hgap := gaps_le hu
  rcases h with ⟨rfl, rfl⟩ | ⟨hclose, key, more, v, rest, e₁, w, hkey, hv, he, hw, h⟩
  · rw [List.length_cons] at hgap
    refine ⟨hgap, ?_⟩
    intro f' hf'
    obtain ⟨f', rfl⟩ : ∃ n, f' = n + 1 := ⟨f' - 1, by omega⟩
    exact members_succ.mpr ⟨_, hu, .inl ⟨rfl, rfl⟩⟩
  · have hname := key_shorter hkey
    have hblanks := skipBlanks_le more
    obtain ⟨hshorter, henough⟩ := hvalue d (skipBlanks more) v rest hv
    have hbehind := gaps_le hw
    rw [List.length_cons] at hname
    rcases h with ⟨w', rfl, hmore⟩ | ⟨rfl, rfl⟩
    · obtain ⟨hlater, hagain⟩ := hmembers d e₁ w' e' r hmore
      rw [List.length_cons] at hbehind
      refine ⟨by omega, ?_⟩
      intro f' hf'
      obtain ⟨f', rfl⟩ : ∃ n, f' = n + 1 := ⟨f' - 1, by omega⟩
      exact members_succ.mpr
        ⟨u, hu, .inr ⟨hclose, key, more, v, rest, e₁, _, hkey, henough f' (by omega),
          he, hw, .inl ⟨w', rfl, hagain f' (by omega)⟩⟩⟩
    · rw [List.length_cons] at hbehind
      refine ⟨by omega, ?_⟩
      intro f' hf'
      obtain ⟨f', rfl⟩ : ∃ n, f' = n + 1 := ⟨f' - 1, by omega⟩
      exact members_succ.mpr
        ⟨u, hu, .inr ⟨hclose, key, more, v, rest, _, _, hkey, henough f' (by omega),
          he, hw, .inr ⟨rfl, rfl⟩⟩⟩

theorem value_enough_succ (hitems : ∀ d, Enough (fun f => items? f d) f)
    (hmembers : ∀ d e, Enough (fun f => members? f d e) f) :
    Enough (fun f => value? f d) (f + 1) := by
  intro t v r h
  rcases value_succ.mp h with ⟨rest, l, rfl, hdepth, hl, rfl⟩
    | ⟨rest, e, rfl, hdepth, hm, rfl⟩ |
      ⟨q, hhead, hq, rfl⟩ | ⟨hhead, hbare⟩
  · obtain ⟨hshorter, henough⟩ := hitems (d + 1) rest l r hl
    refine ⟨Nat.lt_succ_of_lt hshorter, ?_⟩
    intro f' hf'
    rw [List.length_cons] at hf'
    obtain ⟨f', rfl⟩ : ∃ n, f' = n + 1 := ⟨f' - 1, by omega⟩
    exact value_succ.mpr (.inl ⟨rest, l, rfl, hdepth, henough f' (by omega), rfl⟩)
  · obtain ⟨hshorter, henough⟩ := hmembers (d + 1) [] rest e r hm
    refine ⟨Nat.lt_succ_of_lt hshorter, ?_⟩
    intro f' hf'
    rw [List.length_cons] at hf'
    obtain ⟨f', rfl⟩ : ∃ n, f' = n + 1 := ⟨f' - 1, by omega⟩
    exact value_succ.mpr
      (.inr (.inl ⟨rest, e, rfl, hdepth, henough f' (by omega), rfl⟩))
  · have hshorter := quoted_shorter hq
    refine ⟨hshorter, ?_⟩
    intro f' hf'
    obtain ⟨f', rfl⟩ : ∃ n, f' = n + 1 := ⟨f' - 1, by omega⟩
    exact value_succ.mpr (.inr (.inr (.inl ⟨q, hhead, hq, rfl⟩)))
  · have hshorter := bare_shorter hbare
    refine ⟨hshorter, ?_⟩
    intro f' hf'
    obtain ⟨f', rfl⟩ : ∃ n, f' = n + 1 := ⟨f' - 1, by omega⟩
    exact value_succ.mpr (.inr (.inr (.inr ⟨hhead, hbare⟩)))

/-- By induction on the calls, for values, arrays and inline tables at once. -/
theorem value_enough (f : Nat) : ∀ d, Enough (fun f => value? f d) f := by
  have hall : (∀ d, Enough (fun f => value? f d) f) ∧
      (∀ d, Enough (fun f => items? f d) f) ∧
      ∀ d e, Enough (fun f => members? f d e) f := by
    induction f with
    | zero =>
        refine ⟨?_, ?_, ?_⟩
        · intro d t v r h
          cases h
        · intro d t l r h
          cases h
        · intro d e t e' r h
          cases h
    | succ f ih =>
        obtain ⟨hvalue, hitems, hmembers⟩ := ih
        exact ⟨fun d => value_enough_succ hitems hmembers,
          fun d => items_enough hvalue hitems,
          fun d e => members_enough hvalue hmembers⟩
  exact hall.1

namespace Draft

variable {a b : Draft}

/-- A line leaves no more than there was. -/
theorem statement_le (h : a.statement? t = some (b, r)) : r.length ≤ t.length := by
  rcases statement_eq_some.mp h with ⟨-, -, rfl⟩ | ⟨rest, rfl, h⟩ | ⟨rest, rfl, -, h⟩
    | ⟨c, -, -, -, -, -, h⟩
  · exact Nat.le_refl _
  · have hkey := key_shorter (rowHeader_eq_some.mp h).1
    simp only [List.length_cons] at hkey ⊢
    omega
  · have hkey := key_shorter (header_eq_some.mp h).1
    simp only [List.length_cons] at hkey ⊢
    omega
  · obtain ⟨key, more, v, hkey, hv, -, -⟩ := pair_eq_some.mp h
    have hname := key_shorter hkey
    have hblanks := skipBlanks_le more
    have hvalue := (value_enough _ 0 _ v r hv).1
    rw [List.length_cons] at hname
    omega

end Draft

end Toml

end Resumable
