import Mathlib.Tactic.FieldSimp
import Mathlib.Tactic.Ring
import Mathlib.Algebra.Order.Field.Rat
import Resumable.Number.Shortest

namespace Resumable

/-- The parts of a written decimal: digits before and behind the point, and
the exponent. -/
structure Parts where
  whole : List Char
  fraction : List Char
  exponent : Option Int

namespace Parts

def exponentChars : Option Int → List Char
  | none => []
  | some e => 'e' :: (if e < 0 then '-' else '+') :: Nat.toDigits 10 e.natAbs

def fractionChars (fraction : List Char) : List Char :=
  if fraction = [] then [] else '.' :: fraction

def chars (p : Parts) : List Char :=
  p.whole ++ (fractionChars p.fraction ++ exponentChars p.exponent)

def value (p : Parts) : ℚ :=
  Nat.ofDigitChars 10 (p.whole ++ p.fraction) 0 *
    10 ^ (p.exponent.getD 0 - p.fraction.length)

structure Sound (p : Parts) : Prop where
  whole_ne : p.whole ≠ []
  whole_digits : ∀ c ∈ p.whole, c.isDigit = true
  fraction_digits : ∀ c ∈ p.fraction, c.isDigit = true
  marked : p.fraction ≠ [] ∨ p.exponent ≠ none

theorem takeWhile_append_stop {α : Type} {P : α → Bool} {a r : List α}
    (ha : ∀ c ∈ a, P c = true) (hr : ∀ c ∈ r.head?, P c = false) :
    (a ++ r).takeWhile P = a := by
  rw [List.takeWhile_append_of_pos ha]
  cases r with
  | nil => simp
  | cons c r => simp [hr c rfl]

theorem append_inj_of_stop {α : Type} {P : α → Bool} {a b r s : List α}
    (ha : ∀ c ∈ a, P c = true) (hb : ∀ c ∈ b, P c = true)
    (hr : ∀ c ∈ r.head?, P c = false) (hs : ∀ c ∈ s.head?, P c = false)
    (h : a ++ r = b ++ s) : a = b ∧ r = s := by
  have hab : a = b := by
    rw [← takeWhile_append_stop ha hr, h, takeWhile_append_stop hb hs]
  exact ⟨hab, List.append_cancel_left (hab ▸ h)⟩

theorem exponentChars_stop (e : Option Int) :
    ∀ c ∈ (exponentChars e).head?, c.isDigit = false := by
  cases e <;> simp [exponentChars]

theorem fractionChars_stop (fraction : List Char) (e : Option Int) :
    ∀ c ∈ (fractionChars fraction ++ exponentChars e).head?, c.isDigit = false := by
  rw [fractionChars]
  split
  · exact exponentChars_stop e
  · simp

theorem exponentChars_injective {e e' : Option Int}
    (h : exponentChars e = exponentChars e') : e = e' := by
  cases e with
  | none =>
    cases e' with
    | none => rfl
    | some e' => cases h
  | some e =>
    cases e' with
    | none => cases h
    | some e' =>
      simp only [exponentChars, List.cons.injEq, true_and] at h
      obtain ⟨hsign, hdigits⟩ := h
      have habs : e.natAbs = e'.natAbs := by
        have := congrArg (Nat.ofDigitChars 10 · 0) hdigits
        simpa only [Nat.ofDigitChars_ten_toDigits] using this
      have hneg : e < 0 ↔ e' < 0 := by
        split_ifs at hsign with hneg hneg' hneg'
        · exact iff_of_true hneg hneg'
        · exact absurd hsign (by decide)
        · exact absurd hsign (by decide)
        · exact iff_of_false hneg hneg'
      rw [Option.some.injEq]
      omega

theorem fractionChars_inj {a b : List Char} {e e' : Option Int}
    (ha : ∀ c ∈ a, c.isDigit = true) (hb : ∀ c ∈ b, c.isDigit = true)
    (h : fractionChars a ++ exponentChars e = fractionChars b ++ exponentChars e') :
    a = b ∧ e = e' := by
  have hexponent (e : Option Int) (c : List Char) : exponentChars e ≠ '.' :: c := by
    cases e <;> simp [exponentChars]
  simp only [fractionChars] at h
  split_ifs at h with hnone hnone' hnone'
  · exact ⟨hnone.trans hnone'.symm, exponentChars_injective h⟩
  · exact absurd h (hexponent e _)
  · exact absurd h.symm (hexponent e' _)
  · obtain ⟨hdigits, hrest⟩ := append_inj_of_stop ha hb (exponentChars_stop e)
      (exponentChars_stop e') (List.cons.inj h).2
    exact ⟨hdigits, exponentChars_injective hrest⟩

theorem chars_inj {p q : Parts} (hp : p.Sound) (hq : q.Sound)
    (h : p.chars = q.chars) : p = q := by
  obtain ⟨hwhole, hrest⟩ := append_inj_of_stop hp.whole_digits hq.whole_digits
    (fractionChars_stop p.fraction p.exponent)
    (fractionChars_stop q.fraction q.exponent) h
  obtain ⟨hfraction, hexponent⟩ := fractionChars_inj hp.fraction_digits
    hq.fraction_digits hrest
  cases p
  cases q
  simp_all

theorem Sound.chars_head {p : Parts} (hp : p.Sound) :
    ∃ c cs, p.chars = c :: cs ∧ c.isDigit = true := by
  obtain ⟨c, cs, hc⟩ := List.exists_cons_of_ne_nil hp.whole_ne
  exact ⟨c, _, by rw [chars, hc]; rfl, hp.whole_digits c (by simp [hc])⟩

def isDecimalChar (c : Char) : Bool := c.isDigit || c == '.' || c == 'e' || c ==
    '+' || c == '-'

theorem isDecimalChar_of_isDigit {c : Char} (h : c.isDigit = true) :
    isDecimalChar c = true := by
  simp [isDecimalChar, h]

theorem exponentChars_decimal (e : Option Int) :
    ∀ c ∈ exponentChars e, isDecimalChar c = true := by
  cases e with
  | none => simp [exponentChars]
  | some e =>
    simp only [exponentChars, List.forall_mem_cons]
    refine ⟨rfl, ?_, fun c hc => isDecimalChar_of_isDigit
      (Nat.isDigit_of_mem_toDigits (by decide) (by decide) hc)⟩
    split_ifs <;> rfl

theorem fractionChars_decimal {fraction : List Char}
    (h : ∀ c ∈ fraction, c.isDigit = true) :
    ∀ c ∈ fractionChars fraction, isDecimalChar c = true := by
  rw [fractionChars]
  split_ifs
  · simp
  · rw [List.forall_mem_cons]
    exact ⟨rfl, fun c hc => isDecimalChar_of_isDigit (h c hc)⟩

theorem Sound.chars_decimal {p : Parts} (hp : p.Sound) :
    ∀ c ∈ p.chars, isDecimalChar c = true := by
  rw [chars, List.forall_mem_append, List.forall_mem_append]
  exact ⟨fun c hc => isDecimalChar_of_isDigit (hp.whole_digits c hc),
    fractionChars_decimal hp.fraction_digits, exponentChars_decimal p.exponent⟩

/-- A point or an exponent is always there. -/
theorem Sound.exists_mark {p : Parts} (hp : p.Sound) :
    '.' ∈ p.chars ∨ 'e' ∈ p.chars := by
  rcases hp.marked with h | h
  · exact .inl (by simp [chars, fractionChars, h])
  · obtain ⟨e, he⟩ := Option.ne_none_iff_exists'.mp h
    exact .inr (by simp [chars, exponentChars, he])

theorem ofDigitChars_zeros (d zeros : Nat) :
    Nat.ofDigitChars 10 (Nat.toDigits 10 d ++ List.replicate zeros '0') 0 =
    10 ^ zeros * d := by
  rw [Nat.ofDigitChars_append, Nat.ofDigitChars_ten_toDigits,
    Nat.ofDigitChars_replicate_zero]

theorem zeros_ofDigitChars (d zeros : Nat) :
    Nat.ofDigitChars 10 (List.replicate zeros '0' ++ Nat.toDigits 10 d) 0 = d := by
  rw [Nat.ofDigitChars_append, Nat.ofDigitChars_replicate_zero, Nat.mul_zero,
    Nat.ofDigitChars_ten_toDigits]

theorem isDigit_of_mem_toDigits {d : Nat} : ∀ c ∈ Nat.toDigits 10 d, c.isDigit = true :=
  fun _ hc => Nat.isDigit_of_mem_toDigits (by decide) (by decide) hc

theorem isDigit_of_mem_zeros {n : Nat} :
    ∀ c ∈ List.replicate n '0', c.isDigit = true := by
  intro c hc
  rw [List.eq_of_mem_replicate hc]
  rfl

/-- The parts make up the text and write `digits * 10 ^ exponent`. -/
structure Writes (p : Parts) (text : String) (digits : Nat)
    (exponent : Int) : Prop where
  text_eq : text.toList = p.chars
  sound : p.Sound
  value_eq : p.value = digits * 10 ^ exponent

theorem value_of_digits {p : Parts} {digits : Nat} {exponent : Int} (zeros : Nat)
    (hdigits : Nat.ofDigitChars 10 (p.whole ++ p.fraction) 0 = 10 ^ zeros * digits)
    (hexponent : p.exponent.getD 0 - p.fraction.length = exponent - zeros) :
    p.value = digits * 10 ^ exponent := by
  rw [value, hdigits, hexponent, zpow_sub₀ (by norm_num), zpow_natCast]
  push_cast
  field_simp

end Parts

open Parts

namespace DecimalLayout

theorem toList_zeros (n : Nat) : (zeros n).toList = List.replicate n '0' :=
  String.toList_ofList

section Layouts

variable {digits : Nat} {exponent : Int}

theorem small_writes (h : ((Nat.toDigits 10 digits).length : Int) + exponent ≤ 0) :
    Writes
      ⟨['0'], List.replicate ((Nat.toDigits 10 digits).length + exponent).natAbs '0' ++
        Nat.toDigits 10 digits, none⟩
      ("0." ++ zeros ((Nat.toDigits 10 digits).length + exponent).natAbs ++
        String.ofList (Nat.toDigits 10 digits)) digits exponent where
  text_eq := by
    simp [chars, fractionChars, exponentChars, toList_zeros]
  sound :=
    { whole_ne := by simp
      whole_digits := by simp
      fraction_digits := by
        rw [List.forall_mem_append]
        exact ⟨isDigit_of_mem_zeros, isDigit_of_mem_toDigits⟩
      marked := by simp }
  value_eq := value_of_digits _
    (by
      show Nat.ofDigitChars 10 ('0' :: _) 0 = 10 ^ 0 * digits
      rw [Nat.ofDigitChars_cons, Nat.mul_zero, Nat.zero_add, Nat.pow_zero, Nat.one_mul]
      exact zeros_ofDigitChars digits _)
    (by simp only [Option.getD_none, List.length_append, List.length_replicate]; omega)

theorem whole_writes (h : 0 ≤ exponent) :
    Writes
      ⟨Nat.toDigits 10 digits ++
        List.replicate ((Nat.toDigits 10 digits).length + exponent -
          (Nat.toDigits 10 digits).length).natAbs '0', ['0'], none⟩
      (String.ofList (Nat.toDigits 10 digits) ++
        zeros ((Nat.toDigits 10 digits).length + exponent -
          (Nat.toDigits 10 digits).length).natAbs ++ ".0")
      digits exponent where
  text_eq := by
    simp [chars, fractionChars, exponentChars, toList_zeros]
  sound :=
    { whole_ne := by simp
      whole_digits := by
        rw [List.forall_mem_append]
        exact ⟨isDigit_of_mem_toDigits, isDigit_of_mem_zeros⟩
      fraction_digits := by simp
      marked := by simp }
  value_eq := value_of_digits _
    (by
      rw [List.append_assoc, ← List.replicate_succ']
      exact ofDigitChars_zeros digits _)
    (by simp only [Option.getD_none, List.length_cons, List.length_nil]; omega)

theorem pointed_writes (hpos : 0 < ((Nat.toDigits 10 digits).length : Int) + exponent)
    (hneg : exponent < 0) :
    Writes
      ⟨(Nat.toDigits 10 digits).take
        ((Nat.toDigits 10 digits).length + exponent).natAbs,
        (Nat.toDigits 10 digits).drop
        ((Nat.toDigits 10 digits).length + exponent).natAbs, none⟩
      (String.ofList
          ((Nat.toDigits 10 digits).take
            ((Nat.toDigits 10 digits).length + exponent).natAbs) ++
        "." ++ String.ofList
          ((Nat.toDigits 10 digits).drop
            ((Nat.toDigits 10 digits).length + exponent).natAbs))
      digits exponent := by
  have hdrop : (Nat.toDigits 10 digits).drop
      ((Nat.toDigits 10 digits).length + exponent).natAbs ≠ [] := by
    rw [Ne, List.drop_eq_nil_iff]
    omega
  refine ⟨?_, ⟨?_, fun c hc => isDigit_of_mem_toDigits c (List.mem_of_mem_take hc),
    fun c hc => isDigit_of_mem_toDigits c (List.mem_of_mem_drop hc), .inl hdrop⟩,
    value_of_digits 0 ?_ ?_⟩
  · simp only [chars, fractionChars, exponentChars, if_neg hdrop, String.toList_append,
      String.toList_ofList, List.append_nil, List.append_assoc]
    rfl
  · rw [Ne, List.take_eq_nil_iff]
    have := Nat.toDigits_ne_nil (b := 10) (n := digits)
    simp [this]
    omega
  · rw [List.take_append_drop, Nat.ofDigitChars_ten_toDigits, Nat.pow_zero, Nat.one_mul]
  · simp only [Option.getD_none, List.length_drop]
    omega

theorem exponent_writes :
    Writes
      ⟨(Nat.toDigits 10 digits).take 1, (Nat.toDigits 10 digits).drop 1,
        some ((Nat.toDigits 10 digits).length + exponent - 1)⟩
      (String.ofList ((Nat.toDigits 10 digits).take 1) ++
        (if ((Nat.toDigits 10 digits).drop 1).isEmpty then ""
          else "." ++ String.ofList ((Nat.toDigits 10 digits).drop 1)) ++ "e" ++
        (if ((Nat.toDigits 10 digits).length : Int) + exponent - 1 < 0 then "-"
          else wire.positiveMark) ++
        toString ((Nat.toDigits 10 digits).length + exponent - 1).natAbs)
      digits exponent := by
  have hlength : 0 < (Nat.toDigits 10 digits).length := Nat.length_toDigits_pos
  refine ⟨?_, ⟨?_, fun c hc => isDigit_of_mem_toDigits c (List.mem_of_mem_take hc),
    fun c hc => isDigit_of_mem_toDigits c (List.mem_of_mem_drop hc), .inr (by simp)⟩,
    value_of_digits 0 ?_ ?_⟩
  · simp only [chars, fractionChars, exponentChars, String.toList_append,
      String.toList_ofList, Nat.toString_eq_ofList_toDigits, List.isEmpty_iff,
      List.append_assoc]
    split_ifs <;> simp [wire]
  · rw [Ne, List.take_eq_nil_iff]
    simp [List.length_pos_iff.mp hlength]
  · rw [List.take_append_drop, Nat.ofDigitChars_ten_toDigits, Nat.pow_zero, Nat.one_mul]
  · simp only [Option.getD_some, List.length_drop]
    omega

end Layouts

theorem exists_parts (digits : Nat) (exponent : Int) :
    ∃ p : Parts, p.Writes (wire.write digits exponent) digits exponent := by
  rw [write]
  split
  · rename_i hzero
    refine ⟨⟨['0'], ['0'], none⟩, rfl, ⟨by simp, by simp, by simp, by simp⟩, ?_⟩
    rw [hzero, value, show Nat.ofDigitChars 10 (['0'] ++ ['0']) 0 = 0 from rfl]
    simp
  · split
    · split
      · rename_i hsmall
        exact ⟨_, small_writes hsmall⟩
      · split
        · rename_i hlarge
          exact ⟨_, whole_writes (by omega)⟩
        · rename_i hpos hlarge
          exact ⟨_, pointed_writes (by omega) (by omega)⟩
    · exact ⟨_, exponent_writes⟩

end DecimalLayout

end Resumable
