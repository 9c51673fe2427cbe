import Mathlib.Logic.ExistsUnique
import Resumable.Proofs.Config.Placeholders

/-!
# Texts as pieces with placeholders between them

A text is a `Template` in one way. To replace its placeholders is to put the values of
their names in between the same pieces, so texts can be replaced one by one where no
placeholder goes across the seam.
-/

namespace Resumable

namespace Template

def opening : List Char := ['$', '\x7b']

/-- A text in which no placeholder begins. -/
def Free (s : List Char) : Prop := ¬ opening <:+: s

end Template

open Template in

/-- The pieces of a text and the names of the placeholders between them. Behind the
last piece there may be a placeholder that is not closed, which has the rest of the
text for its tail. -/
inductive Template where
  | piece (s : List Char) (free : Free s)
  | unclosed (s tail : List Char) (free : Free s) (closeless : '\x7d' ∉ tail)
  | mark (s name : List Char) (free : Free s) (closeless : '\x7d' ∉ name) (t : Template)

namespace Template

variable {env : Environment}

section Pieces

variable {s x y : List Char} {c : Char}

theorem free_of_cons (h : Free (c :: s)) : Free s :=
  fun hinside => h (hinside.trans (List.suffix_cons c s).isInfix)

theorem not_free_append : ¬ Free (s ++ opening ++ x) :=
  fun h => h ⟨s, x, rfl⟩

theorem Free.head?_ne (h : Free (c :: s)) : c = '$' → s.head? ≠ some '\x7b' := by
  rintro rfl hhead
  obtain ⟨x, rfl⟩ := List.head?_eq_some_iff.mp hhead
  exact h (List.prefix_append opening x).isInfix

theorem append_opening_inj {s' : List Char} (hs : Free s) (hs' : Free s')
    (h : s ++ opening ++ x = s' ++ opening ++ y) : s = s' ∧ x = y := by
  induction s generalizing s' with
  | nil =>
    cases s' with
    | nil => exact ⟨rfl, List.append_cancel_left h⟩
    | cons c s' =>
      obtain ⟨hc, hrest⟩ := List.cons.inj h
      refine absurd ?_ (hs'.head?_ne hc.symm)
      cases s' with
      | nil => simp [opening] at hrest
      | cons d s' => exact congrArg some (List.cons.inj hrest).1.symm
  | cons c s ih =>
    cases s' with
    | nil =>
      obtain ⟨hc, hrest⟩ := List.cons.inj h
      refine absurd ?_ (hs.head?_ne hc)
      cases s with
      | nil => simp [opening] at hrest
      | cons d s => exact congrArg some (List.cons.inj hrest).1
    | cons d s' =>
      obtain ⟨rfl, hrest⟩ := List.cons.inj h
      obtain ⟨rfl, hxy⟩ := ih (free_of_cons hs) (free_of_cons hs') hrest
      exact ⟨rfl, hxy⟩

theorem append_close_inj {name name' : List Char} (hname : '\x7d' ∉ name)
    (hname' : '\x7d' ∉ name') (h : name ++ '\x7d' :: x = name' ++ '\x7d' :: y) :
    name = name' ∧ x = y := by
  have hsplit : splitAtBrace? (name ++ '\x7d' :: x) = some (name, x) :=
    Environment.splitAtBrace?_append fun c hc => ne_of_mem_of_not_mem hc hname
  rw [h, Environment.splitAtBrace?_append fun c hc => ne_of_mem_of_not_mem hc hname']
    at hsplit
  simpa [eq_comm] using hsplit

theorem exists_piece (x : List Char) :
    Free x ∨ ∃ s y, Free s ∧ x = s ++ opening ++ y := by
  induction x with
  | nil => exact .inl (by simp [Free, opening])
  | cons c x ih =>
    by_cases hopening : opening <+: c :: x
    · obtain ⟨y, hy⟩ := hopening
      exact .inr ⟨[], y, by simp [Free, opening], hy.symm⟩
    · have hcons {s : List Char} (hs : Free s) (hbefore : s <+: x) : Free (c :: s) := by
        intro hinside
        rcases List.infix_cons_iff.mp hinside with hbegins | hinside
        · exact hopening (hbegins.trans (List.cons_prefix_cons.mpr ⟨rfl, hbefore⟩))
        · exact hs hinside
      rcases ih with hx | ⟨s, y, hs, rfl⟩
      · exact .inl (hcons hx List.prefix_rfl)
      · exact .inr ⟨c :: s, y, hcons hs (by simp), rfl⟩

theorem exists_name (x : List Char) :
    '\x7d' ∉ x ∨ ∃ name y, '\x7d' ∉ name ∧ x = name ++ '\x7d' :: y := by
  by_cases hx : '\x7d' ∈ x
  · obtain ⟨name, y, rfl, hname⟩ := List.eq_append_cons_of_mem hx
    exact .inr ⟨name, y, hname, rfl⟩
  · exact .inl hx

theorem expandChars_free_append (hs : Free s)
    (hseam : ¬ (s.getLast? = some '$' ∧ x.head? = some '\x7b')) :
    env.expandChars (s ++ x) = s ++ env.expandChars x := by
  induction s with
  | nil => rfl
  | cons c s ih =>
    have hopen : c = '$' → (s ++ x).head? ≠ some '\x7b' := by
      intro hc hhead
      cases s with
      | nil => exact hseam ⟨congrArg some hc, hhead⟩
      | cons d s => exact hs.head?_ne hc hhead
    have hbehind : ¬ (s.getLast? = some '$' ∧ x.head? = some '\x7b') := by
      rintro ⟨hlast, hhead⟩
      exact hseam ⟨by rw [List.getLast?_cons, hlast, Option.getD_some], hhead⟩
    rw [List.cons_append, Environment.expandChars_cons hopen,
      ih (free_of_cons hs) hbehind, List.cons_append]

theorem expandChars_free (hs : Free s) : env.expandChars s = s := by
  have happend : env.expandChars (s ++ []) = s ++ env.expandChars [] :=
    expandChars_free_append hs (by simp)
  rwa [Environment.expandChars_nil, List.append_nil] at happend

theorem splitAtBrace?_eq_none (hx : '\x7d' ∉ x) : splitAtBrace? x = none := by
  induction x with
  | nil => rfl
  | cons c x ih =>
    rw [List.mem_cons, not_or] at hx
    rw [splitAtBrace?, if_neg (Ne.symm hx.1), ih hx.2, Option.map_none]

theorem expandChars_unclosed (hx : '\x7d' ∉ x) :
    env.expandChars (opening ++ x) = opening ++ x := by
  change env.expandChars ('$' :: '\x7b' :: x) = '$' :: '\x7b' :: x
  rw [Environment.expandChars]
  split
  · rfl
  · next hsome => simp [splitAtBrace?_eq_none hx] at hsome

theorem expandChars_mark {name : List Char} (hs : Free s) (hname : '\x7d' ∉ name) :
    env.expandChars (s ++ opening ++ (name ++ '\x7d' :: x)) = s ++ env.value name ++
      env.expandChars x := by
  have hplaceholder : env.expandChars (opening ++ (name ++ '\x7d' :: x)) =
      env.value name ++ env.expandChars x :=
    Environment.expandChars_placeholder fun c hc => ne_of_mem_of_not_mem hc hname
  rw [List.append_assoc, expandChars_free_append hs (by simp [opening]), hplaceholder,
    List.append_assoc]

end Pieces

def chars : Template → List Char
  | piece s _ => s
  | unclosed s tail .. => s ++ opening ++ tail
  | mark s name _ _ t => s ++ opening ++ (name ++ '\x7d' :: t.chars)

def text (t : Template) : String := String.ofList t.chars

/-- The pieces with values between them, in place of the names. -/
def fill (env : Environment) : Template → List Char
  | piece s _ => s
  | unclosed s tail .. => s ++ opening ++ tail
  | mark s name _ _ t => s ++ env.value name ++ t.fill env

def Closed : Template → Prop
  | piece .. => True
  | unclosed .. => False
  | mark _ _ _ _ t => t.Closed

theorem chars_injective : Function.Injective chars := by
  intro t u h
  -- One text with and one without a placeholder differ; where both have one, the
  -- first is the same in both.
  induction t generalizing u with
  | piece s hs =>
    cases u with
    | piece s' hs' => cases h; rfl
    | unclosed | mark => cases h; exact absurd hs not_free_append
  | unclosed s tail hs htail =>
    cases u with
    | piece s' hs' => cases h; exact absurd hs' not_free_append
    | unclosed s' tail' hs' htail' =>
      obtain ⟨rfl, rfl⟩ := append_opening_inj hs hs' h
      rfl
    | mark s' name hs' hname u =>
      obtain ⟨rfl, rfl⟩ := append_opening_inj hs hs' h
      exact absurd (by simp) htail
  | mark s name hs hname t ih =>
    cases u with
    | piece s' hs' => cases h; exact absurd hs' not_free_append
    | unclosed s' tail' hs' htail' =>
      obtain ⟨rfl, rfl⟩ := append_opening_inj hs hs' h
      exact absurd (by simp) htail'
    | mark s' name' hs' hname' u =>
      obtain ⟨rfl, hrest⟩ := append_opening_inj hs hs' h
      obtain ⟨rfl, hchars⟩ := append_close_inj hname hname' hrest
      cases ih hchars
      rfl

theorem exists_chars_eq (x : List Char) : ∃ t : Template, t.chars = x := by
  rcases exists_piece x with hx | ⟨s, y, hs, hx⟩
  · exact ⟨.piece x hx, rfl⟩
  · rcases exists_name y with hy | ⟨name, z, hname, hy⟩
    · exact ⟨.unclosed s y hs hy, hx.symm⟩
    · have hlt : z.length < x.length := by
        simp only [hx, hy, List.length_append, List.length_cons]
        omega
      obtain ⟨t, ht⟩ := exists_chars_eq z
      exact ⟨.mark s name hs hname t, by rw [chars, ht, hx, hy]⟩
termination_by x.length

/-- A text is a template in one way. -/
theorem existsUnique_text (s : String) : ∃! t : Template, t.text = s := by
  obtain ⟨t, ht⟩ := exists_chars_eq s.toList
  refine ⟨t, String.ext (by simp [text, ht]), fun u hu => chars_injective ?_⟩
  simpa [text, ← ht] using congrArg String.toList hu

/-- Placeholders are replaced in a text that leaves none open, whatever
comes behind it. -/
theorem expandChars_chars_append {t : Template} {x : List Char} (ht : t.Closed)
    (hseam : ¬ (t.chars.getLast? = some '$' ∧ x.head? = some '\x7b')) :
    env.expandChars (t.chars ++ x) = t.fill env ++ env.expandChars x := by
  induction t with
  | piece s hs => exact expandChars_free_append hs hseam
  | unclosed => exact ht.elim
  | mark s name hs hname t ih =>
    have hbehind : ¬ (t.chars.getLast? = some '$' ∧ x.head? = some '\x7b') := by
      rintro ⟨hlast, hhead⟩
      exact hseam ⟨by simp [chars, List.getLast?_cons, hlast], hhead⟩
    have hchars : chars (mark s name hs hname t) ++ x =
        s ++ opening ++ (name ++ '\x7d' :: (t.chars ++ x)) := by
      simp [chars]
    rw [hchars, expandChars_mark hs hname, ih ht hbehind, fill,
      List.append_assoc _ (t.fill env)]

theorem expandChars_chars (t : Template) : env.expandChars t.chars = t.fill env := by
  induction t with
  | piece s hs => exact expandChars_free hs
  | unclosed s tail hs htail =>
    rw [chars, List.append_assoc, expandChars_free_append hs (by simp [opening]),
      expandChars_unclosed htail, ← List.append_assoc, fill]
  | mark s name hs hname t ih => rw [chars, expandChars_mark hs hname, ih, fill]

end Template

end Resumable
