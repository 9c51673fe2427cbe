import Resumable.Config.Environment
import Resumable.Toml.Quoted

namespace Resumable

open Toml

/-- A character that stands for itself in every kind of string, and in a comment. -/
def isPlain (c : Char) : Bool := !isForbidden c && c != '"' && c != '\'' && c != '\\'

theorem isPlain_iff {c : Char} :
    isPlain c = true ↔ isForbidden c = false ∧ c ≠ '"' ∧ c ≠ '\'' ∧ c ≠ '\\' := by
  simp [isPlain, and_assoc]

namespace Environment

variable {env : Environment} {long : Bool} {t rest pre name : List Char} {c : Char}

/-- A value that can stand in a string. Where strings may have several lines, it
must not let the quotes around it come together, nor be swallowed with the blanks
behind a backslash. -/
structure Safe (long : Bool) (value : List Char) : Prop where
  plain : ∀ c ∈ value, isPlain c = true
  long : long = true → value ≠ [] ∧ ∀ c, value.head? = some c → isBlank c = false

/-- Each `$` with a brace behind it begins a placeholder, with a plain name and a
safe value. -/
inductive Fits (env : Environment) (long : Bool) : List Char → Prop where
  | nil : Fits env long []
  | char {c : Char} {rest : List Char} (hopen : c = '$' → rest.head? ≠ some '\x7b')
      (hrest : Fits env long rest) : Fits env long (c :: rest)
  | placeholder {name rest : List Char}
      (hname : ∀ c ∈ name, isPlain c = true ∧ c ≠ '\x7d')
      (hvalue : Safe long (env.value name)) (hrest : Fits env long rest) :
      Fits env long ('$' :: '\x7b' :: (name ++ '\x7d' :: rest))

theorem splitAtBrace?_append (hname : ∀ c ∈ name, c ≠ '\x7d') :
    splitAtBrace? (name ++ '\x7d' :: rest) = some (name, rest) := by
  induction name with
  | nil => rfl
  | cons c name ih =>
      rw [List.cons_append, splitAtBrace?, if_neg (hname c (List.mem_cons_self ..)),
        ih fun d hd => hname d (List.mem_cons_of_mem _ hd)]
      rfl

theorem expandChars_nil : env.expandChars [] = [] := by
  rw [expandChars]

theorem expandChars_cons (hopen : c = '$' → rest.head? ≠ some '\x7b') :
    env.expandChars (c :: rest) = c :: env.expandChars rest := by
  rw [expandChars]
  rintro more rfl rfl
  exact hopen rfl rfl

theorem expandChars_placeholder (hname : ∀ c ∈ name, c ≠ '\x7d') :
    env.expandChars ('$' :: '\x7b' :: (name ++ '\x7d' :: rest)) =
    env.value name ++ env.expandChars rest := by
  rw [expandChars]
  split
  · next hnone => simp [splitAtBrace?_append hname] at hnone
  · next name' after hsome =>
      rw [splitAtBrace?_append hname] at hsome
      cases hsome
      rfl

theorem exists_placeholder (hname : ∀ c ∈ name, isPlain c = true ∧ c ≠ '\x7d') :
    ∃ front, (∀ rest, '$' :: '\x7b' :: (name ++ '\x7d' :: rest) = front ++ rest) ∧
      ∀ c ∈ front, isPlain c = true := by
  refine ⟨['$', '\x7b'] ++ name ++ ['\x7d'], by simp, ?_⟩
  intro c hc
  simp only [List.mem_append, List.mem_cons, List.not_mem_nil, or_false] at hc
  obtain ((rfl | rfl) | hc) | rfl := hc
  · decide
  · decide
  · exact (hname c hc).1
  · decide

theorem expandChars_append (hpre : '$' ∉ pre) :
    env.expandChars (pre ++ t) = pre ++ env.expandChars t := by
  induction pre with
  | nil => rfl
  | cons c pre ih =>
      rw [List.mem_cons, not_or] at hpre
      rw [List.cons_append, expandChars_cons fun h => absurd h.symm hpre.1, ih hpre.2,
        List.cons_append]

theorem expandChars_eq_self (ht : '$' ∉ t) : env.expandChars t = t := by
  have happend : env.expandChars (t ++ []) = t ++ env.expandChars [] :=
    expandChars_append ht
  rwa [List.append_nil, expandChars_nil, List.append_nil] at happend

namespace Fits

theorem of_cons (h : Fits env long (c :: rest)) (hc : c ≠ '$') :
    Fits env long rest := by
  cases h with
  | char _ hrest => exact hrest
  | placeholder => exact absurd rfl hc

theorem of_append (h : Fits env long (pre ++ t)) (hpre : '$' ∉ pre) :
    Fits env long t := by
  induction pre with
  | nil => exact h
  | cons c pre ih =>
      rw [List.mem_cons, not_or] at hpre
      exact ih (h.of_cons fun hc => hpre.1 hc.symm) hpre.2

theorem append (hpre : '$' ∉ pre) (h : Fits env long t) : Fits env long (pre ++ t) := by
  induction pre with
  | nil => exact h
  | cons c pre ih =>
      rw [List.mem_cons, not_or] at hpre
      exact .char (fun hc => absurd hc.symm hpre.1) (ih hpre.2)

theorem of_free (ht : '$' ∉ t) : Fits env long t := by
  rw [← List.append_nil t]
  exact append ht .nil

end Fits

theorem head?_expandChars (ht : t.head? ≠ some '$') :
    (env.expandChars t).head? = t.head? := by
  cases t with
  | nil => rw [expandChars_nil]
  | cons c rest =>
      rw [expandChars_cons fun hc => absurd (congrArg some hc) ht]
      rfl

/-- A text in which nothing but quotes and placeholders is to be looked at. -/
structure Sober (env : Environment) (long : Bool) (t : List Char) : Prop where
  fits : Fits env long t
  /-- Unless values are safe for strings of several lines there are none. -/
  short : long = false → ∀ mark, mark = '"' ∨ mark = '\'' → ¬ [mark, mark, mark] <:+: t
  /-- No escape stands for a `$`. -/
  escapes : ∀ rest c n, '\\' :: rest <:+ t → escape? rest = some (c, n) → c ≠ '$'
  /-- No backslash comes right behind a `$`. -/
  backslash : ¬ ['$', '\\'] <:+: t

namespace Sober

theorem of_suffix (h : Sober env long t) (hsuffix : rest <:+ t)
    (hfits : Fits env long rest) : Sober env long rest where
  fits := hfits
  short := fun hlong mark hmark hinside =>
    h.short hlong mark hmark (hinside.trans hsuffix.isInfix)
  escapes := fun more c n hmore => h.escapes more c n (hmore.trans hsuffix)
  backslash := fun hinside => h.backslash (hinside.trans hsuffix.isInfix)

theorem of_append (h : Sober env long (pre ++ t)) (hpre : '$' ∉ pre) :
    Sober env long t :=
  h.of_suffix (List.suffix_append pre t) (h.fits.of_append hpre)

theorem of_cons (h : Sober env long (c :: rest)) (hc : c ≠ '$') : Sober env long rest :=
  h.of_suffix (List.suffix_cons c rest) (h.fits.of_cons hc)

theorem of_fits (hfits : Fits env true t) (hescape : '\\' ∉ t) : Sober env true t where
  fits := hfits
  short := nofun
  escapes :=
    fun _ _ _ hsuffix => absurd (hsuffix.subset (List.mem_cons_self ..)) hescape
  backslash := fun hinside => hescape (hinside.subset (by simp))

end Sober

end Environment

end Resumable
