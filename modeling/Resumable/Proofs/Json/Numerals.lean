import Resumable.Proofs.Json.Quoting

namespace Resumable.Json

open Machine

/-- The number that the bytes write from where a number stands, if they write it
to its end. -/
def numeralFrom? (n : Numeral) (part : NumeralPart) : List UInt8 → Option Json
  | [] => (numeralEnd part).bind (numeralValue? (closeNumeral n part))
  | b :: rest =>
      match numeralStep n part b with
      | .more n part => numeralFrom? n part rest
      | _ => none

def numeralStart? (b : UInt8) : Option (Numeral × NumeralPart) :=
  if b = 45 then some (⟨true, 0, 0⟩, .sign)
  else if b = 48 then some (⟨false, 0, 0⟩, .zero)
  else if isDigit b then some (⟨false, digitValue b, 0⟩, .whole)
  else none

def numeral? : List UInt8 → Option Json
  | [] => none
  | b :: rest => (numeralStart? b).bind fun start => numeralFrom? start.1 start.2 rest

theorem numeralStep_delimiter {part : NumeralPart} {isInteger : Bool}
    (h : numeralEnd part = some isInteger) (n : Numeral) {b : UInt8}
    (hb : b ∈ delimiters) : numeralStep n part b = .done isInteger := by
  simp only [delimiters, List.mem_cons, List.not_mem_nil, or_false] at hb
  rcases hb with rfl | rfl | rfl <;>
    cases part <;> simp_all [numeralEnd, numeralStep, afterDigits, isDigit]

section Machine

variable {n : Numeral} {part : NumeralPart} {isInteger : Bool}
  {stack : List Frame} {v : Json}

theorem endNumeral_within (h : numeralValue? n isInteger = some v)
    (mode : Mode) (p : Place) :
    endNumeral ((within mode stack).movedTo p) n isInteger =
    .ok ((landed stack v).movedTo p) := by
  rw [endNumeral, h, ← deliver_within mode, ← deliver_movedTo]

/-- A number that may end has been delivered as far as a delimiter or the
end can tell. -/
theorem settles_numeral (hend : numeralEnd part = some isInteger)
    (hvalue : numeralValue? (closeNumeral n part) isInteger = some v) :
    (within (.numeral n part) stack).Settles (landed stack v) := by
  refine ⟨fun p b hb => ?_, fun p => ?_⟩
  · have hnumeral : step .wire ((within (.numeral n part) stack).movedTo p) b =
        ((landed stack v).movedTo p).behindValue b (p.after b) := by
      rw [step, movedTo_mode]
      simp only [within, numeralStep_delimiter hend n hb]
      rw [← within, endNumeral_within hvalue]
      rfl
    rw [hnumeral, step, movedTo_mode, landed_mode]
    rfl
  · rw [finish, finish, movedTo_mode, movedTo_mode, landed_mode]
    simp only [within, hend]
    rw [← within, endNumeral_within hvalue]
    rfl

theorem passes_numeral (stack : List Frame) {bytes : List UInt8}
    (h : numeralFrom? n part bytes = some v) :
    ∃ m, (within (.numeral n part) stack).Passes bytes m ∧
    m.Settles (landed stack v) := by
  induction bytes generalizing n part with
  | nil =>
    obtain ⟨isInteger, hend, hvalue⟩ := Option.bind_eq_some_iff.mp h
    exact ⟨_, .refl _, settles_numeral hend hvalue⟩
  | cons b rest ih =>
    rw [numeralFrom?] at h
    split at h
    · rename_i n₁ part₁ hstep
      obtain ⟨m, hpasses, hsettles⟩ := ih h
      refine ⟨m,
        .cons (within (.numeral n₁ part₁) stack) (fun p => ?_) hpasses, hsettles⟩
      simp only [step, movedTo_mode, within, hstep]
      rfl
    · cases h

end Machine

theorem step_numeralStart {b : UInt8} {n : Numeral} {part : NumeralPart}
    (h : numeralStart? b = some (n, part)) {mode : Mode} (hmode : Due mode)
    (stack : List Frame) (p : Place) :
    step .wire ((within mode stack).movedTo p) b =
      .ok ((within (.numeral n part) stack).movedTo (p.after b)) := by
  rw [numeralStart?] at h
  split at h
  · subst b
    cases h
    rw [step_due hmode stack p (by decide) (by decide)]
    rfl
  · split at h
    · subst b
      cases h
      rw [step_due hmode stack p (by decide) (by decide)]
      rfl
    · split at h
      · rename_i hminus hzero hdigit
        cases h
        have hne (c : UInt8) (hc : isDigit c = false) : b ≠ c := by
          rintro rfl
          simp [hc] at hdigit
        have hblank : isBlank b = false := by
          simp [isBlank, hne 32 rfl, hne 10 rfl, hne 9 rfl, hne 13 rfl]
        rw [step_due hmode stack p hblank (hne 93 rfl)]
        simp [beginValue, hne 110 rfl, hne 116 rfl, hne 102 rfl, hne 34 rfl, hne 91 rfl,
          hne 123 rfl, hminus, hzero, hdigit, movedTo, within]
      · cases h

theorem spells_numeral {bytes : List UInt8} {v : Json} (h : numeral? bytes = some v) :
    Spells 0 bytes v := by
  intro mode stack hmode _
  cases bytes with
  | nil => cases h
  | cons b rest =>
    obtain ⟨⟨n, part⟩, hstart, hrest⟩ := Option.bind_eq_some_iff.mp h
    obtain ⟨m, hpasses, hsettles⟩ := passes_numeral stack hrest
    exact ⟨m, .cons _ (step_numeralStart hstart hmode stack) hpasses, hsettles⟩

theorem toNat_of_isDigit {c : Char} (hc : c.isDigit = true) :
    48 ≤ c.toNat ∧ c.toNat ≤ 57 := by
  simp only [Char.isDigit, Bool.and_eq_true, decide_eq_true_eq] at hc
  exact ⟨UInt32.le_iff_toNat_le.mp hc.1, UInt32.le_iff_toNat_le.mp hc.2⟩

theorem utf8EncodeChar_isDigit {c : Char} (hc : c.isDigit = true) :
    String.utf8EncodeChar c = [UInt8.ofNat c.toNat] :=
  utf8EncodeChar_ascii (by have := toNat_of_isDigit hc; omega)

theorem digitByte {c : Char} (hc : c.isDigit = true) :
    isDigit (UInt8.ofNat c.toNat) = true ∧
      digitValue (UInt8.ofNat c.toNat) = c.toNat - '0'.toNat := by
  obtain ⟨hlow, hhigh⟩ := toNat_of_isDigit hc
  have htoNat : (UInt8.ofNat c.toNat).toNat = c.toNat := by
    rw [UInt8.toNat_ofNat']
    omega
  refine ⟨?_, by rw [digitValue, htoNat]; rfl⟩
  simpa [isDigit, UInt8.le_iff_toNat_le, htoNat] using ⟨hlow, hhigh⟩

theorem le_ofDigitChars (cs : List Char) (init : Nat) :
    init ≤ Nat.ofDigitChars 10 cs init := by
  rw [Nat.ofDigitChars_eq_ofDigitChars_zero]
  have := Nat.le_mul_of_pos_left init
    (Nat.pow_pos (n := cs.length) (show 0 < 10 by decide))
  omega

theorem numeralFrom?_digits (n : Numeral) (cs : List Char)
    (hdigits : ∀ c ∈ cs, c.isDigit = true)
    (hfits : Nat.ofDigitChars 10 cs n.digits < 18446744073709551616) :
    numeralFrom? n .whole (utf8 cs) =
      numeralValue? { n with digits := Nat.ofDigitChars 10 cs n.digits } true := by
  induction cs generalizing n with
  | nil => rfl
  | cons c cs ih =>
    rw [List.forall_mem_cons] at hdigits
    obtain ⟨hisDigit, hvalue⟩ := digitByte hdigits.1
    rw [Nat.ofDigitChars_cons] at hfits ⊢
    have hpush : pushDigit n (UInt8.ofNat c.toNat) =
        some { n with digits := 10 * n.digits + (c.toNat - '0'.toNat) } := by
      have := Nat.lt_of_le_of_lt (le_ofDigitChars cs _) hfits
      rw [pushDigit, hvalue, if_pos (by omega), Nat.mul_comm]
    rw [utf8_cons, utf8EncodeChar_isDigit hdigits.1,
      List.singleton_append, numeralFrom?]
    simp only [numeralStep, hisDigit, if_true, hpush]
    exact ih _ hdigits.2 hfits

theorem digitChar_ne_zero : ∀ d < 10, 0 < d → Nat.digitChar d ≠ '0' := by
  decide

theorem toDigits_head {k : Nat} (hk : 0 < k) :
    ∃ c cs, Nat.toDigits 10 k = c :: cs ∧ c ≠ '0' := by
  induction k using Nat.strongRecOn with
  | _ k ih =>
    rw [Nat.toDigits_eq_if (by decide)]
    split
    · rename_i hsmall
      exact ⟨_, _, rfl, digitChar_ne_zero k hsmall hk⟩
    · obtain ⟨c, cs, hcs, hc⟩ := ih (k / 10) (by omega) (by omega)
      exact ⟨c, _, by rw [hcs]; rfl, hc⟩

theorem numeralFrom?_toDigits {k : Nat} (hk : 0 < k)
    (hfits : k < 18446744073709551616) :
    ∃ b rest, utf8 (Nat.toDigits 10 k) = b :: rest ∧ isDigit b = true ∧ b ≠ 48 ∧
      ∀ negative, numeralFrom? ⟨negative, digitValue b, 0⟩ .whole rest =
        numeralValue? ⟨negative, k, 0⟩ true := by
  obtain ⟨c, cs, hcs, hc⟩ := toDigits_head hk
  have hdigits : ∀ c' ∈ c :: cs, c'.isDigit = true := fun c' hc' =>
    Nat.isDigit_of_mem_toDigits (by decide) (by decide) (hcs ▸ hc')
  rw [List.forall_mem_cons] at hdigits
  obtain ⟨hisDigit, hvalue⟩ := digitByte hdigits.1
  have hk' : Nat.ofDigitChars 10 cs (digitValue (UInt8.ofNat c.toNat)) = k := by
    rw [hvalue, ← Nat.ofDigitChars_ten_toDigits (n := k), hcs, Nat.ofDigitChars_cons]
    simp
  refine ⟨UInt8.ofNat c.toNat, utf8 cs, ?_, hisDigit, ?_, fun negative => ?_⟩
  · rw [hcs, utf8_cons, utf8EncodeChar_isDigit hdigits.1]
    rfl
  · intro hzero
    have := toNat_of_isDigit hdigits.1
    have := congrArg UInt8.toNat hzero
    rw [UInt8.toNat_ofNat'] at this
    exact hc (Char.toNat_inj.mp (by simp at this ⊢; omega))
  · rw [numeralFrom?_digits _ _ hdigits.2 (by rw [hk']; exact hfits), hk']

theorem toList_toString_of_nonneg (k : Nat) :
    (toString (k : Int)).toList = Nat.toDigits 10 k := by
  show (Int.repr k).toList = _
  rw [Int.repr_eq_if, if_pos (Int.natCast_nonneg k), Int.toNat_natCast,
    Nat.repr_eq_ofList_toDigits, String.toList_ofList]

theorem toList_toString_of_neg {k : Nat} (hk : 0 < k) :
    (toString (-(k : Int))).toList = '-' :: Nat.toDigits 10 k := by
  show (Int.repr (-k)).toList = _
  rw [Int.repr_eq_if, if_neg (by omega), Int.neg_neg, Int.toNat_natCast,
    Nat.repr_eq_ofList_toDigits, String.toList_append]
  exact congrArg ('-' :: ·) String.toList_ofList

theorem toString_int (n : Int) :
    (∃ k : Nat, n = k ∧ (toString n).toList = Nat.toDigits 10 k) ∨
      ∃ k : Nat, 0 < k ∧ n = -k ∧ (toString n).toList = '-' :: Nat.toDigits 10 k := by
  rcases Int.lt_or_le n 0 with hneg | hpos
  · obtain ⟨k, rfl⟩ : ∃ k : Nat, n = -k := ⟨n.natAbs, by omega⟩
    have hk : 0 < k := by omega
    exact .inr ⟨k, hk, rfl, toList_toString_of_neg hk⟩
  · obtain ⟨k, rfl⟩ : ∃ k : Nat, n = k := ⟨n.toNat, by omega⟩
    exact .inl ⟨k, rfl, toList_toString_of_nonneg k⟩

theorem numeral?_nat {k : Nat} (hfits : k < 18446744073709551616) :
    numeral? (utf8 (Nat.toDigits 10 k)) = some (.int k) := by
  rcases Nat.eq_zero_or_pos k with rfl | hk
  · rfl
  · obtain ⟨b, rest, hbytes, hdigit, hzero, hread⟩ := numeralFrom?_toDigits hk hfits
    have hminus : b ≠ 45 := by
      rintro rfl
      exact absurd hdigit (by decide)
    rw [hbytes, numeral?, numeralStart?, if_neg hminus, if_neg hzero, if_pos hdigit,
      Option.bind_some, hread false, numeralValue?, if_pos ⟨rfl, rfl, hfits⟩]

theorem numeral?_neg {k : Nat} (hk : 0 < k) (hfits : k ≤ 9223372036854775808) :
    numeral? (utf8 ('-' :: Nat.toDigits 10 k)) = some (.int (-k)) := by
  obtain ⟨b, rest, hbytes, hdigit, hzero, hread⟩ := numeralFrom?_toDigits hk (by omega)
  have hbegin : utf8 ('-' :: Nat.toDigits 10 k) = 45 :: b :: rest := by
    rw [utf8_cons, hbytes]
    rfl
  rw [hbegin, numeral?, numeralStart?, if_pos rfl, Option.bind_some, numeralFrom?]
  simp only [numeralStep, hzero, if_false, hdigit, if_true]
  rw [hread true, numeralValue?, if_neg (by simp), if_pos ⟨rfl, rfl, hk, hfits⟩]

/-- An integer of 64 bits is read back. -/
theorem numeral?_int {n : Int} (hlow : -9223372036854775808 ≤ n)
    (hhigh : n < 18446744073709551616) :
    numeral? (utf8 (toString n).toList) = some (.int n) := by
  rcases toString_int n with ⟨k, rfl, hchars⟩ | ⟨k, hk, rfl, hchars⟩
  · rw [hchars]
    exact numeral?_nat (by omega)
  · rw [hchars]
    exact numeral?_neg hk (by omega)

theorem numeralFrom?_of_run {n : Numeral} {part : NumeralPart}
    {bytes : List UInt8} {p : Place} {m : Machine} {v : Json}
    (hblank : ∀ b ∈ bytes, isBlank b = false)
    (hrun : run .wire ((within (.numeral n part) []).movedTo p) bytes = .ok m)
    (hfinish : m.finish = .ok v) : numeralFrom? n part bytes = some v := by
  induction bytes generalizing n part p with
  | nil =>
    obtain rfl : (within (.numeral n part) []).movedTo p = m := by
      simpa [run] using hrun
    rw [finish] at hfinish
    simp only [within, movedTo] at hfinish
    split at hfinish
    · cases hfinish
    · rename_i isInteger hend
      rw [numeralFrom?, hend, Option.bind_some]
      rw [endNumeral] at hfinish
      cases hvalue : numeralValue? (closeNumeral n part) isInteger with
      | none => simp [hvalue] at hfinish
      | some w => simpa [hvalue, deliver] using hfinish
  | cons b bytes ih =>
    rw [List.forall_mem_cons] at hblank
    rw [run, step] at hrun
    simp only [within, movedTo] at hrun
    rw [numeralFrom?]
    cases hstep : numeralStep n part b with
    | more n₁ part₁ =>
      simp only [hstep] at hrun
      exact ih hblank.2 hrun
    | refused problem => simp [hstep] at hrun
    | done isInteger =>
      simp only [hstep, endNumeral] at hrun
      cases hvalue : numeralValue? (closeNumeral n part) isInteger with
      | none => simp [hvalue] at hrun
      | some w => simp [hvalue, deliver, behindValue, hblank.1] at hrun

theorem numeral?_of_read {b : UInt8} {bytes : List UInt8} {v : Json}
    (hb : b = 45 ∨ isDigit b = true) (hblank : ∀ c ∈ bytes, isBlank c = false)
    (h : read .wire (b :: bytes) = .ok v) : numeral? (b :: bytes) = some v := by
  obtain ⟨⟨n, part⟩, hstart⟩ : ∃ start, numeralStart? b = some start := by
    rw [numeralStart?]
    split_ifs <;> simp_all
  rw [read] at h
  split at h
  · cases h
  · rename_i m hrun
    rw [run, show Machine.start = (within .value []).movedTo .start from rfl,
      step_numeralStart hstart .value] at hrun
    rw [numeral?, hstart, Option.bind_some]
    exact numeralFrom?_of_run hblank hrun h

theorem normalize_of_numeralValue? {n : Numeral} {isInteger : Bool} {v : Json}
    (h : numeralValue? n isInteger = some v) : v.normalize = v := by
  rw [numeralValue?] at h
  split at h
  · cases h
    rfl
  · split at h
    · cases h
      rfl
    · obtain ⟨x, -, rfl⟩ := Option.map_eq_some_iff.mp h
      rfl

theorem normalize_of_numeralFrom? {n : Numeral} {part : NumeralPart}
    {bytes : List UInt8} {v : Json} (h : numeralFrom? n part bytes = some v) :
    v.normalize = v := by
  induction bytes generalizing n part with
  | nil =>
    obtain ⟨isInteger, -, hvalue⟩ := Option.bind_eq_some_iff.mp h
    exact normalize_of_numeralValue? hvalue
  | cons b bytes ih =>
    rw [numeralFrom?] at h
    split at h
    · exact ih h
    · cases h

theorem normalize_of_numeral? {bytes : List UInt8} {v : Json}
    (h : numeral? bytes = some v) : v.normalize = v := by
  cases bytes with
  | nil => cases h
  | cons b rest =>
    obtain ⟨start, -, hrest⟩ := Option.bind_eq_some_iff.mp h
    exact normalize_of_numeralFrom? hrest

end Resumable.Json
