import Mathlib.Tactic.FieldSimp
import Mathlib.Tactic.Linarith
import Mathlib.Tactic.Positivity
import Mathlib.Algebra.Order.Field.Rat
import Resumable.Proofs.Number.Layout

namespace Resumable

namespace Shortest

/-- A quarter of the step of the doubles with the given exponent, the unit of
`Interval`. -/
def quarter (q : Nat) : ℚ := 2 ^ ((q : Int) - 1074) / 4

theorem quarter_pos (q : Nat) : 0 < quarter q :=
  div_pos (zpow_pos (by norm_num) _) (by norm_num)

/-- The numbers between the ends of an interval, in quarter steps. -/
def Interval.Holds (i : Interval) (v : ℚ) : Prop :=
  if i.closed then (i.low : ℚ) ≤ v ∧ v ≤ i.high else (i.low : ℚ) < v ∧ v < i.high

theorem zpow_of_neg (b : ℚ) {n : Int} (h : n < 0) : b ^ n = (b ^ n.natAbs)⁻¹ := by
  rw [← zpow_natCast, ← zpow_neg]
  congr 1
  omega

theorem zpow_of_nonneg (b : ℚ) {n : Int} (h : 0 ≤ n) : b ^ n = b ^ n.natAbs := by
  rw [← zpow_natCast]
  congr 1
  omega

theorem quarter_ratio (q : Nat) :
    ((if q < 1074 then 1 else Nat.pow 2 (q - 1074) : Nat) : ℚ) =
      ((4 * if q < 1074 then Nat.pow 2 (1074 - q) else 1 : Nat) : ℚ) * quarter q := by
  unfold quarter
  split_ifs with hq
  · rw [zpow_of_neg 2 (by omega), show ((q : Int) - 1074).natAbs = 1074 -
      q by omega, Nat.pow_eq]
    push_cast
    field_simp
  · rw [zpow_of_nonneg 2 (by omega), show ((q : Int) - 1074).natAbs = q - 1074 by omega,
      Nat.pow_eq]
    push_cast
    ring

/-- The unit of a grid with a step of `10 ^ -shift`, as a ratio. -/
theorem unitRatio_eq (q : Nat) (shift : Int) :
    0 < (unitRatio q shift).2 ∧
      ((unitRatio q shift).1 : ℚ) = (unitRatio q shift).2 *
        (quarter q * 10 ^ shift) := by
  have hden : 0 < 4 * (if q < 1074 then Nat.pow 2 (1074 - q) else 1) := by
    split_ifs
    · exact Nat.mul_pos (by decide) (Nat.pow_pos (by decide))
    · decide
  have hten : 0 < Nat.pow 10 shift.natAbs := Nat.pow_pos (by decide)
  have hratio := quarter_ratio q
  have hcast : ((Nat.pow 10 shift.natAbs : Nat) : ℚ) = 10 ^ shift.natAbs := by
    rw [Nat.pow_eq]
    push_cast
    rfl
  rcases lt_or_ge shift 0 with hshift | hshift
  · simp only [unitRatio, if_pos hshift]
    refine ⟨Nat.mul_pos hden hten, ?_⟩
    rw [zpow_of_neg 10 hshift, Nat.cast_mul, hratio, hcast]
    field_simp
  · simp only [unitRatio, if_neg (not_lt.mpr hshift)]
    refine ⟨hden, ?_⟩
    rw [zpow_of_nonneg 10 hshift, Nat.cast_mul, hratio, hcast]
    ring

/-- A grid point inside an interval, as a number. -/
theorem inside_holds {i : Interval} {num den p : Nat} {unit : ℚ} (hden : 0 < den)
    (hunit : 0 < unit) (hnum : (num : ℚ) = den * unit)
    (h : inside i num den p = true) : i.Holds (p / unit) := by
  have hden' : (0 : ℚ) < den := by exact_mod_cast hden
  have hle (a : Nat) : a * num ≤ p * den ↔ (a : ℚ) ≤ p / unit := by
    rw [le_div_iff₀ hunit, ← mul_le_mul_iff_of_pos_right hden', ← @Nat.cast_le ℚ]
    push_cast
    rw [hnum]
    ring_nf
  have hge (a : Nat) : p * den ≤ a * num ↔ p / unit ≤ (a : ℚ) := by
    rw [div_le_iff₀ hunit, ← mul_le_mul_iff_of_pos_right hden', ← @Nat.cast_le ℚ]
    push_cast
    rw [hnum]
    ring_nf
  unfold Interval.Holds
  cases hclosed : i.closed with
  | true => simpa [inside, hclosed, hle, hge] using h
  | false =>
    have hlt := (hge i.low).not
    have hgt := (hle i.high).not
    simp only [not_le] at hlt hgt
    simpa [inside, hclosed, hlt, hgt] using h

theorem pointOn_holds {i : Interval} {q : Nat} {shift : Int} {p : Nat}
    (h : pointOn i q shift = some p) : i.Holds (p / (quarter q * 10 ^ shift)) := by
  obtain ⟨hden, hnum⟩ := unitRatio_eq q shift
  have hunit : 0 < quarter q * 10 ^ shift :=
    mul_pos (quarter_pos q) (zpow_pos (by norm_num) _)
  have hinside : inside i (unitRatio q shift).1 (unitRatio q shift).2 p = true := by
    rw [pointOn] at h
    simp only at h
    split at h
    · cases h
    · rename_i hbelow _
      cases h
      exact hbelow
    · rename_i _ habove
      cases h
      exact habove
    · rename_i hbelow habove
      split_ifs at h <;> cases h
      · exact hbelow
      · exact habove
      · exact hbelow
      · exact habove
  exact inside_holds hden hunit hnum hinside

theorem inside_above {m q num den : Nat} (hden : 0 < den) (hfine : den < 2 * num) :
    inside (intervalOf m q) num den (4 * m * num / den + 1) = true := by
  have hlow : (intervalOf m q).low ≤ 4 * m := by
    simp only [intervalOf]
    split_ifs <;> omega
  have hbelow : 4 * m * num / den * den ≤ 4 * m * num := Nat.div_mul_le_self _ _
  have habove : 4 * m * num < (4 * m * num / den + 1) * den := by
    rw [Nat.mul_comm _ den]
    exact Nat.lt_mul_div_succ _ hden
  have hlt : (intervalOf m q).low * num < (4 * m * num / den + 1) * den :=
    (Nat.mul_le_mul_right num hlow).trans_lt habove
  have hhigh : (4 * m * num / den + 1) * den < (intervalOf m q).high * num := by
    simp only [intervalOf, Nat.add_mul]
    omega
  rw [inside]
  split_ifs
  · simpa using ⟨hlt.le, hhigh.le⟩
  · simpa using ⟨hlt, hhigh⟩

/-- A grid with a step below half of the double's step has a point that reads back. -/
theorem pointOn_of_fine (m q : Nat) {shift : Int}
    (hfine : 1 < 2 * (quarter q * 10 ^ shift))
    (hsize : 1 ≤ 4 * m * (quarter q * 10 ^ shift)) :
    ∃ p, pointOn (intervalOf m q) q shift = some p ∧ 0 < p := by
  obtain ⟨hden, hnum⟩ := unitRatio_eq q shift
  have hden' : (0 : ℚ) < (unitRatio q shift).2 := by exact_mod_cast hden
  have hfine' : (unitRatio q shift).2 < 2 * (unitRatio q shift).1 := by
    rw [← @Nat.cast_lt ℚ]
    push_cast
    rw [hnum]
    nlinarith
  have hsize' : (unitRatio q shift).2 ≤ 4 * m * (unitRatio q shift).1 := by
    rw [← @Nat.cast_le ℚ]
    push_cast
    rw [hnum]
    nlinarith
  have hbelow : 0 < 4 * m * (unitRatio q shift).1 / (unitRatio q shift).2 :=
    Nat.div_pos hsize' hden
  have habove := inside_above (m := m) (q := q) hden hfine'
  rw [pointOn]
  simp only [show (intervalOf m q).middle = 4 * m from rfl, habove]
  split
  · simp_all
  · exact ⟨_, rfl, hbelow⟩
  · exact ⟨_, rfl, Nat.succ_pos _⟩
  · split_ifs <;> exact ⟨_, rfl, by omega⟩

theorem search_holds {i : Interval} {q : Nat} {lead : Int} {more digits : Nat}
    {p : Nat} {e : Int} (h : search i q lead more digits = some (p, e)) :
    p ≠ 0 ∧ i.Holds (p * 10 ^ e / quarter q) := by
  induction more generalizing digits with
  | zero => cases h
  | succ more ih =>
    rw [search] at h
    split at h
    · rename_i p' hpoint
      split_ifs at h with hzero
      · exact ih h
      · cases h
        refine ⟨hzero, ?_⟩
        have hholds := pointOn_holds hpoint
        rwa [← div_div, div_right_comm, div_eq_mul_inv _ (10 ^ _), ← zpow_neg] at hholds
    · exact ih h

theorem search_ne_none {i : Interval} {q : Nat} {lead : Int} {more digits k : Nat}
    (hk : k < more)
    (h : ∃ p, pointOn i q ((digits + k : Nat) - 1 - lead) = some p ∧ 0 < p) :
    search i q lead more digits ≠ none := by
  induction more generalizing digits k with
  | zero => omega
  | succ more ih =>
    -- A grid that gives nothing, or only zero, is not the one with a point.
    have hrest (hpos : 0 < k) : search i q lead more (digits + 1) ≠ none := by
      refine ih (k := k - 1) (by omega) ?_
      rwa [show digits + 1 + (k - 1) = digits + k by omega]
    rw [search]
    split
    · rename_i p' hpoint
      split_ifs with hzero
      · refine hrest (Nat.pos_of_ne_zero fun hk0 => ?_)
        obtain ⟨p, hp, hpos⟩ := h
        rw [hk0, Nat.add_zero, hpoint, Option.some.injEq] at hp
        omega
      · exact Option.some_ne_none _
    · rename_i hpoint
      refine hrest (Nat.pos_of_ne_zero fun hk0 => ?_)
      obtain ⟨p, hp, -⟩ := h
      rw [hk0, Nat.add_zero, hpoint] at hp
      cases hp

theorem tenTo_le_of_nonneg : ∀ n < 1025, 10 ^ (n * 30103 / 100000) ≤ 5 * 2 ^ n := by
  decide +kernel

theorem tenTo_le_of_neg :
    ∀ n < 1075, 2 ^ n ≤ 5 * 10 ^ ((n * 30103 + 99999) / 100000) := by
  decide +kernel

theorem tenTo_le {e : Int} (hlow : -1074 ≤ e) (hhigh : e ≤ 1024) :
    (10 : ℚ) ^ (e * 30103 / 100000) ≤ 5 * 2 ^ e := by
  rcases lt_or_ge e 0 with hneg | hpos
  · have h := tenTo_le_of_neg e.natAbs (by omega)
    have hexponent : (e * 30103 / 100000).natAbs =
        (e.natAbs * 30103 + 99999) / 100000 := by omega
    rw [zpow_of_neg 10 (by omega), zpow_of_neg 2 hneg, hexponent]
    have h' : (2 : ℚ) ^ e.natAbs ≤ 5 * 10 ^ ((e.natAbs * 30103 + 99999) / 100000) := by
      exact_mod_cast h
    rw [inv_le_iff_one_le_mul₀ (by positivity), mul_assoc, mul_comm, mul_assoc,
      ← div_eq_inv_mul, le_div_iff₀ (by positivity), one_mul, mul_comm]
    exact h'
  · have h := tenTo_le_of_nonneg e.natAbs (by omega)
    have hexponent : (e * 30103 / 100000).natAbs = e.natAbs * 30103 / 100000 := by omega
    rw [zpow_of_nonneg 10 (by omega), zpow_of_nonneg 2 hpos, hexponent]
    exact_mod_cast h

/-- The leading exponent is at most that of five times the double. -/
theorem tenTo_leadingExponent {m q : Nat} (hm : 0 < m) (hm' : m < 9007199254740992)
    (hq : q ≤ 2046) :
    (10 : ℚ) ^ leadingExponent m q ≤ 5 * (4 * m * quarter q) := by
  have hlog : m.log2 ≤ 52 := by
    have := (Nat.log2_lt (by omega)).mpr (show m < 2 ^ 53 by omega)
    omega
  have hquarter := quarter_pos q
  have hvalue : (0 : ℚ) < 4 * m * quarter q := by positivity
  rw [leadingExponent]
  simp only
  split_ifs with hlead
  -- The estimate goes up by one only where ten times its power is not above the double.
  · set guess : Int := ((m.log2 : Int) + q - 1074) * 30103 / 100000
    obtain ⟨hden, hnum⟩ := unitRatio_eq q (-(guess + 1))
    have hden' : (0 : ℚ) < (unitRatio q (-(guess + 1))).2 := by exact_mod_cast hden
    have hle : ((unitRatio q (-(guess + 1))).2 : ℚ) ≤
        4 * m * (unitRatio q (-(guess + 1))).1 := by exact_mod_cast hlead
    rw [hnum, zpow_neg] at hle
    have hten : (0 : ℚ) < 10 ^ (guess + 1) := zpow_pos (by norm_num) _
    have hone : 1 ≤ 4 * m * quarter q * (10 ^ (guess + 1))⁻¹ := by
      refine le_of_mul_le_mul_left ?_ hden'
      linarith
    rw [← div_eq_mul_inv, le_div_iff₀ hten, one_mul] at hone
    linarith
  · have hle := tenTo_le (e := (m.log2 : Int) + q - 1074) (by omega) (by omega)
    have htwo : (2 : ℚ) ^ ((m.log2 : Int) + q - 1074) ≤ 4 * m * quarter q := by
      have hpow : ((2 ^ m.log2 : Nat) : ℚ) ≤ m := by
        exact_mod_cast Nat.log2_self_le hm.ne'
      have hsplit : (2 : ℚ) ^ ((m.log2 : Int) + q - 1074) =
          ((2 ^ m.log2 : Nat) : ℚ) * (4 * quarter q) := by
        rw [add_sub_assoc, zpow_add₀ (by norm_num), zpow_natCast, quarter]
        push_cast
        ring
      rw [hsplit]
      nlinarith
    linarith

theorem search_isSome {m q : Nat} (hm : 0 < m) (hm' : m < 9007199254740992)
    (hq : q ≤ 2046) : search (intervalOf m q) q (leadingExponent m q) 18 1 ≠ none := by
  have hlead := tenTo_leadingExponent hm hm' hq
  have hquarter := quarter_pos q
  have hten : (0 : ℚ) < 10 ^ leadingExponent m q := zpow_pos (by norm_num) _
  have hshift : (10 : ℚ) ^ (((1 + 17 : Nat) : Int) - 1 - leadingExponent m q) =
      10 ^ 17 / 10 ^ leadingExponent m q := by
    rw [zpow_sub₀ (by norm_num)]
    norm_num
  have hm₁ : (1 : ℚ) ≤ m := by exact_mod_cast hm
  have hm₂ : (m : ℚ) ≤ 9007199254740992 := by exact_mod_cast hm'.le
  -- With 18 digits the grid is finer than half of a step of 53 bits.
  refine search_ne_none (k := 17) (by decide) (pointOn_of_fine m q ?_ ?_)
  · rw [hshift, mul_div_assoc', mul_div_assoc', lt_div_iff₀ hten, one_mul]
    nlinarith
  · rw [hshift, mul_div_assoc', mul_div_assoc', le_div_iff₀ hten, one_mul]
    nlinarith

theorem trim_value (steps : Nat) {p : Nat} {e : Int} (hp : p ≠ 0) :
    (trim steps p e).1 ≠ 0 ∧
      ((trim steps p e).1 : ℚ) * 10 ^ (trim steps p e).2 = p * 10 ^ e := by
  induction steps generalizing p e with
  | zero => exact ⟨hp, rfl⟩
  | succ steps ih =>
    rw [trim]
    split_ifs with hten
    · obtain ⟨hne, hvalue⟩ := ih (p := p / 10) (e := e + 1) (by omega)
      refine ⟨hne, ?_⟩
      have hdiv : p = p / 10 * 10 := by omega
      have hp10 : (p : ℚ) = (p / 10 : Nat) * 10 := by exact_mod_cast hdiv
      rw [hvalue, hp10, zpow_add_one₀ (by norm_num)]
      ring
    · exact ⟨hp, rfl⟩

theorem magnitude_lt (x : Binary64) : x.magnitude < 9223372036854775808 :=
  Nat.mod_lt _ (by decide)

theorem scaled_bounds (x : Binary64) :
    x.scaled.1 < 9007199254740992 ∧ x.scaled.2 ≤ 2046 := by
  have := magnitude_lt x
  rw [Binary64.scaled]
  split_ifs <;> simp only <;> omega

theorem scaled_eq_zero_iff (x : Binary64) : x.scaled.1 = 0 ↔ x.magnitude = 0 := by
  rw [Binary64.scaled]
  split_ifs <;> simp only <;> omega

/-- The shortest decimal of a double reads back. -/
theorem decimal_holds {x : Binary64} (hx : x.magnitude ≠ 0) :
    (decimal x).1 ≠ 0 ∧ (intervalOf x.scaled.1 x.scaled.2).Holds
      ((decimal x).1 * 10 ^ (decimal x).2 / quarter x.scaled.2) := by
  obtain ⟨hm, hq⟩ := scaled_bounds x
  have hpos : x.scaled.1 ≠ 0 := (scaled_eq_zero_iff x).not.mpr hx
  rw [decimal]
  simp only [if_neg hpos]
  split
  · rename_i p e hsearch
    obtain ⟨hp, hholds⟩ := search_holds hsearch
    obtain ⟨hne, hvalue⟩ := trim_value 20 (e := e) hp
    exact ⟨hne, by rwa [hvalue]⟩
  · rename_i hsearch
    exact absurd hsearch (search_isSome (Nat.pos_of_ne_zero hpos) hm hq)

theorem decimal_zero {x : Binary64} (hx : x.magnitude = 0) : decimal x = (0, 0) := by
  rw [decimal]
  simp only [if_pos ((scaled_eq_zero_iff x).mpr hx)]

def position (n : Nat) : Nat × Nat :=
  if n / 4503599627370496 = 0 then (n % 4503599627370496, 0)
  else (4503599627370496 + n % 4503599627370496, n / 4503599627370496 - 1)

def interval (n : Nat) : Interval := intervalOf (position n).1 (position n).2

/-- The ends of a magnitude's interval, all in the same unit. -/
def lowEnd (n : Nat) : Nat := (interval n).low * 2 ^ (position n).2

def highEnd (n : Nat) : Nat := (interval n).high * 2 ^ (position n).2

theorem closed_iff (n : Nat) : (interval n).closed = true ↔ n % 2 = 0 := by
  simp only [interval, intervalOf, position, beq_iff_eq]
  split_ifs <;> simp only <;> omega

theorem position_succ {n : Nat} (h : n % 4503599627370496 + 1 < 4503599627370496) :
    position (n + 1) = ((position n).1 + 1, (position n).2) := by
  rw [position, position, show (n + 1) / 4503599627370496 =
    n / 4503599627370496 by omega,
    show (n + 1) % 4503599627370496 = n % 4503599627370496 + 1 by omega]
  split_ifs <;> rfl

theorem position_carry {n : Nat} (h : n % 4503599627370496 + 1 = 4503599627370496) :
    position (n + 1) = (4503599627370496, n / 4503599627370496) := by
  rw [position, show (n + 1) / 4503599627370496 = n / 4503599627370496 + 1 by omega,
    show (n + 1) % 4503599627370496 = 0 by omega]
  rfl

theorem highEnd_eq (n : Nat) : highEnd n = lowEnd (n + 1) := by
  rw [highEnd, lowEnd, interval, interval]
  by_cases hcarry : n % 4503599627370496 + 1 = 4503599627370496
  · rw [position_carry hcarry, position]
    split_ifs with hfield
    · simp only [intervalOf, hfield]
      rw [if_neg (by omega)]
      omega
    · obtain ⟨field, hf⟩ : ∃ field, n / 4503599627370496 = field + 1 :=
        Nat.exists_eq_succ_of_ne_zero hfield
      have hfraction : n % 4503599627370496 = 4503599627370495 := by omega
      simp only [intervalOf, hf, hfraction]
      rw [if_pos ⟨trivial, Nat.succ_pos field⟩, Nat.add_sub_cancel, Nat.pow_succ]
      omega
  · rw [position_succ (by omega)]
    have hinner : ¬ ((position n).1 + 1 = 4503599627370496 ∧ 0 < (position n).2) := by
      rw [position]
      split_ifs <;> simp only <;> omega
    simp only [intervalOf, if_neg hinner]
    rw [show 4 * ((position n).1 + 1) - 2 = 4 * (position n).1 + 2 by omega]

theorem lowEnd_lt_highEnd (n : Nat) : lowEnd n < highEnd n := by
  refine Nat.mul_lt_mul_of_pos_right ?_ (Nat.pow_pos (by decide))
  simp only [interval, intervalOf]
  split_ifs <;> omega

theorem lowEnd_strictMono : StrictMono lowEnd :=
  strictMono_nat_of_lt_succ fun n => highEnd_eq n ▸ lowEnd_lt_highEnd n

theorem holds_ends {n : Nat} {v : ℚ}
    (h : (interval n).Holds (v / quarter (position n).2)) :
    (lowEnd n : ℚ) ≤ v / quarter 0 ∧ v / quarter 0 ≤ highEnd n ∧
      (n % 2 = 1 → (lowEnd n : ℚ) < v / quarter 0 ∧ v / quarter 0 < highEnd n) := by
  have hscale : v / quarter 0 = v / quarter (position n).2 * 2 ^ (position n).2 := by
    have hquarter : quarter (position n).2 = quarter 0 * 2 ^ (position n).2 := by
      rw [quarter, quarter, sub_eq_add_neg, zpow_add₀ (by norm_num), zpow_natCast,
        Nat.cast_zero, zero_sub]
      ring
    have := quarter_pos 0
    rw [hquarter]
    field_simp
  have hpow : (0 : ℚ) < 2 ^ (position n).2 := by positivity
  rw [hscale, lowEnd, highEnd]
  push_cast
  rw [Interval.Holds] at h
  split_ifs at h with hclosed
  · refine ⟨mul_le_mul_of_nonneg_right h.1 hpow.le,
      mul_le_mul_of_nonneg_right h.2 hpow.le, fun hodd => ?_⟩
    have := (closed_iff n).mp hclosed
    omega
  · exact ⟨mul_le_mul_of_nonneg_right h.1.le hpow.le,
      mul_le_mul_of_nonneg_right h.2.le hpow.le,
      fun _ => ⟨mul_lt_mul_of_pos_right h.1 hpow, mul_lt_mul_of_pos_right h.2 hpow⟩⟩

theorem not_lt_of_holds {n n' : Nat} {v : ℚ}
    (h : (interval n).Holds (v / quarter (position n).2))
    (h' : (interval n').Holds (v / quarter (position n').2)) : ¬ n < n' := by
  intro hlt
  obtain ⟨-, hhigh, hodd⟩ := holds_ends h
  obtain ⟨hlow', -, hodd'⟩ := holds_ends h'
  have hends : lowEnd n' ≤ highEnd n := by exact_mod_cast hlow'.trans hhigh
  -- The intervals meet, so the magnitudes are neighbours and one of them is odd.
  have hsucc : n' = n + 1 := by
    rw [highEnd_eq] at hends
    have := lowEnd_strictMono.le_iff_le.mp hends
    omega
  have hmeet : lowEnd n' = highEnd n := by rw [hsucc, highEnd_eq]
  rcases Nat.mod_two_eq_zero_or_one n with heven | hodd₁
  · have := (hodd' (by omega)).1
    rw [hmeet] at this
    linarith
  · have := (hodd hodd₁).2
    rw [← hmeet] at this
    linarith

theorem eq_of_holds {n n' : Nat} {v : ℚ}
    (h : (interval n).Holds (v / quarter (position n).2))
    (h' : (interval n').Holds (v / quarter (position n').2)) : n = n' :=
  Nat.le_antisymm (Nat.not_lt.mp (not_lt_of_holds h' h))
    (Nat.not_lt.mp (not_lt_of_holds h h'))

/-- Doubles whose shortest decimals are equal numbers have equal magnitudes. -/
theorem magnitude_eq {x y : Binary64}
    (h : ((decimal x).1 * 10 ^ (decimal x).2 : ℚ) = (decimal y).1 *
      10 ^ (decimal y).2) :
    x.magnitude = y.magnitude := by
  have hne {z : Binary64} (hz : z.magnitude ≠ 0) :
      ((decimal z).1 * 10 ^ (decimal z).2 : ℚ) ≠ 0 :=
    mul_ne_zero (Nat.cast_ne_zero.mpr (decimal_holds hz).1)
      (zpow_ne_zero _ (by norm_num))
  by_cases hx : x.magnitude = 0
  · by_cases hy : y.magnitude = 0
    · rw [hx, hy]
    · rw [decimal_zero hx, Nat.cast_zero, zero_mul] at h
      exact absurd h.symm (hne hy)
  · by_cases hy : y.magnitude = 0
    · rw [decimal_zero hy, Nat.cast_zero, zero_mul] at h
      exact absurd h (hne hx)
    · have hholds := (decimal_holds hx).2
      have hholds' := (decimal_holds hy).2
      rw [← h] at hholds'
      exact eq_of_holds hholds hholds'

end Shortest

namespace Binary64

theorem isNegative_iff (x : Binary64) :
    x.isNegative = true ↔ 9223372036854775808 ≤ x.bits.toNat := by
  have hlt := x.bits.toNat_lt
  rw [isNegative, beq_iff_eq, ← UInt64.toNat_inj, UInt64.toNat_shiftRight]
  simp only [UInt64.reduceToNat, Nat.reduceMod, Nat.shiftRight_eq_div_pow]
  omega

theorem eq_of_magnitude {x y : Binary64} (h : x.magnitude = y.magnitude)
    (hsign : x.isNegative = y.isNegative) : x = y := by
  have hx := x.bits.toNat_lt
  have hy := y.bits.toNat_lt
  have hiff : 9223372036854775808 ≤ x.bits.toNat ↔
      9223372036854775808 ≤ y.bits.toNat := by
    rw [← isNegative_iff, ← isNegative_iff, hsign]
  have hbits : x.bits = y.bits := by
    rw [← UInt64.toNat_inj]
    simp only [magnitude] at h
    omega
  cases x
  cases y
  exact congrArg Binary64.mk hbits

def signChars (x : Binary64) : List Char := if x.isNegative then ['-'] else []

/-- A double's text is its sign with the parts of its decimal. -/
theorem exists_text_parts (x : Binary64) :
    ∃ p : Parts, x.text.toList = x.signChars ++ p.chars ∧ p.Sound ∧
      p.value = (Shortest.decimal x).1 * 10 ^ (Shortest.decimal x).2 := by
  obtain ⟨p, hp⟩ := DecimalLayout.exists_parts (Shortest.decimal x).1
    (Shortest.decimal x).2
  refine ⟨p, ?_, hp.sound, hp.value_eq⟩
  rw [text, signChars, ← hp.text_eq, String.toList_append]
  split_ifs <;> rfl

theorem text_decimal (x : Binary64) :
    ∀ c ∈ x.text.toList, Parts.isDecimalChar c = true := by
  obtain ⟨p, hp, hsound, -⟩ := exists_text_parts x
  rw [hp, List.forall_mem_append, signChars]
  refine ⟨?_, hsound.chars_decimal⟩
  split_ifs <;> simp [Parts.isDecimalChar]

theorem text_mark (x : Binary64) : '.' ∈ x.text.toList ∨ 'e' ∈ x.text.toList := by
  obtain ⟨p, hp, hsound, -⟩ := exists_text_parts x
  rw [hp, List.mem_append, List.mem_append]
  exact hsound.exists_mark.imp .inr .inr

theorem text_head (x : Binary64) :
    ∃ c cs, x.text.toList = c :: cs ∧ (c = '-' ∨ c.isDigit = true) := by
  obtain ⟨p, hp, hsound, -⟩ := exists_text_parts x
  rw [hp, signChars]
  split_ifs
  · exact ⟨'-', _, rfl, .inl rfl⟩
  · obtain ⟨c, cs, hc, hdigit⟩ := hsound.chars_head
    exact ⟨c, cs, hc, .inr hdigit⟩

theorem text_injective : Function.Injective text := by
  intro x y h
  obtain ⟨p, hp, hpsound, hpvalue⟩ := exists_text_parts x
  obtain ⟨q, hq, hqsound, hqvalue⟩ := exists_text_parts y
  rw [h, hq] at hp
  have hunsigned {r : Parts} (hr : r.Sound) (cs : List Char) : '-' :: cs ≠ r.chars := by
    obtain ⟨c, _, hc, hdigit⟩ := hr.chars_head
    rw [hc]
    intro hcons
    rw [← (List.cons.inj hcons).1] at hdigit
    exact absurd hdigit (by decide)
  have hsign : x.isNegative = y.isNegative ∧ p.chars = q.chars := by
    simp only [signChars] at hp
    split_ifs at hp with hy hx hx
    · exact ⟨hx.trans hy.symm, (List.append_cancel_left hp).symm⟩
    · exact absurd hp (hunsigned hpsound _)
    · exact absurd hp.symm (hunsigned hqsound _)
    · exact ⟨by simp_all, hp.symm⟩
  refine eq_of_magnitude (Shortest.magnitude_eq ?_) hsign.1
  rw [← hpvalue, ← hqvalue, Parts.chars_inj hpsound hqsound hsign.2]

end Binary64

end Resumable
