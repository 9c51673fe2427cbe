import Resumable.Number.Binary64

/-!
# Shortest decimals

The fewest decimal digits that read back as a given double, and among those the
nearest. The double is `m * 2 ^ (q - 1074)`; all decimals that round to it form an
interval whose ends belong to it when `m` is even. For 1, 2, ..., 17 digits the two
neighbours of the double on that decimal grid are tried in exact arithmetic. `Layout`
says how digits and exponent are written.
-/

namespace Resumable

namespace Shortest

/-- Twice the distance from the double to the middle of its lower gap, in units of its
step: half of a step, or a quarter below a power of two. All bounds are given over the
common denominator 4. -/
structure Interval where
  low : Nat
  middle : Nat
  high : Nat
  closed : Bool

/-- The interval of `m * 2 ^ q`, four times enlarged. -/
def intervalOf (m q : Nat) : Interval where
  low := if m = 4503599627370496 ∧ 0 < q then 4 * m - 1 else 4 * m - 2
  middle := 4 * m
  high := 4 * m + 2
  closed := m % 2 == 0

/-- A quarter of the double's step as a ratio, times `10 ^ shift` or divided by
`10 ^ -shift`. -/
def unitRatio (q : Nat) (shift : Int) : Nat × Nat :=
  let num := if q < 1074 then 1 else Nat.pow 2 (q - 1074)
  let den := 4 * (if q < 1074 then Nat.pow 2 (1074 - q) else 1)
  if shift < 0 then (num, den * Nat.pow 10 shift.natAbs)
    else (num * Nat.pow 10 shift.natAbs, den)

/-- Whether the grid point `p` lies in the interval, with `p * den` compared to the
ends times `num`. -/
def inside (i : Interval) (num den p : Nat) : Bool :=
  if i.closed then decide (i.low * num ≤ p * den ∧ p * den ≤ i.high * num)
  else decide (i.low * num < p * den ∧ p * den < i.high * num)

/-- The point of the grid of step `10 ^ -shift` that reads back, if one of the two
neighbours does; of two the nearer, the even one at a tie. -/
def pointOn (i : Interval) (q : Nat) (shift : Int) : Option Nat :=
  let (num, den) := unitRatio q shift
  let below := i.middle * num / den
  let above := below + 1
  match inside i num den below, inside i num den above with
  | false, false => none
  | true, false => some below
  | false, true => some above
  | true, true =>
      let toBelow := i.middle * num - below * den
      let toAbove := above * den - i.middle * num
      if toBelow < toAbove then some below
      else if toAbove < toBelow then some above
      else if below % 2 = 0 then some below else some above

/-- The exponent of the leading decimal digit, from an estimate that is at most
one too small. -/
def leadingExponent (m q : Nat) : Int :=
  let e2 : Int := (m.log2 : Int) + (q : Int) - 1074
  let guess := e2 * 30103 / 100000
  let (num, den) := unitRatio q (-(guess + 1))
  if den ≤ 4 * m * num then guess + 1 else guess

def search (i : Interval) (q : Nat) (lead : Int) : Nat → Nat → Option (Nat × Int)
  | 0, _ => none
  | more + 1, digits =>
      let shift := (digits : Int) - 1 - lead
      match pointOn i q shift with
      | some p => if p = 0 then search i q lead more (digits + 1) else some (p, -shift)
      | none => search i q lead more (digits + 1)

/-- Drop trailing zeros: `p * 10 ^ e` with `p` not a multiple of ten, unless
it is zero. -/
def trim : Nat → Nat → Int → Nat × Int
  | 0, p, e => (p, e)
  | steps + 1, p, e =>
      if p ≠ 0 ∧ p % 10 = 0 then trim steps (p / 10) (e + 1) else (p, e)

/-- Digits and exponent of the shortest decimal of a magnitude: `digits * 10
^ exponent`. -/
def decimal (x : Binary64) : Nat × Int :=
  let (m, q) := x.scaled
  if m = 0 then (0, 0)
  else
    match search (intervalOf m q) q (leadingExponent m q) 18 1 with
    | some (p, e) => trim 20 p e
    | none => (m, 0)

end Shortest

/-- How a decimal is written: the decimal point of the digits may lie `positionalFrom`
places before up to `positionalTo` places after their start, beyond that an exponent
is written. -/
structure DecimalLayout where
  positionalFrom : Int
  positionalTo : Int
  positiveMark : String

namespace DecimalLayout

/-- Doubles in wire text: a fraction digit always, exponents from 1e16 up and below
1e-5, written `e+16` and `e-7`. -/
def wire : DecimalLayout := ⟨-4, 16, "+"⟩

def zeros (n : Nat) : String := String.ofList (List.replicate n '0')

/-- Write `digits * 10 ^ exponent`. `point` is the place of the decimal point counted
from the first digit. -/
def write (l : DecimalLayout) (digits : Nat) (exponent : Int) : String :=
  let text := (Nat.toDigits 10 digits)
  let count := text.length
  let point : Int := (count : Int) + exponent
  if digits = 0 then "0.0"
  else if l.positionalFrom ≤ point ∧ point ≤ l.positionalTo then
    if point ≤ 0 then "0." ++ zeros point.natAbs ++ String.ofList text
    else if (count : Int) ≤ point then
      String.ofList text ++ zeros (point - count).natAbs ++ ".0"
    else
      String.ofList (text.take point.natAbs) ++ "." ++
        String.ofList (text.drop point.natAbs)
  else
    let e := point - 1
    let mark := if e < 0 then "-" else l.positiveMark
    let lead := String.ofList (text.take 1)
    let tail := text.drop 1
    lead ++ (if tail.isEmpty then "" else "." ++ String.ofList tail) ++ "e" ++ mark ++
      toString e.natAbs

end DecimalLayout

namespace Binary64

def text (x : Binary64) : String :=
  let (digits, exponent) := Shortest.decimal x
  (if x.isNegative then "-" else "") ++ DecimalLayout.wire.write digits exponent

end Binary64

end Resumable
