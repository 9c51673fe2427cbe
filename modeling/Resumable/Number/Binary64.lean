namespace Resumable

/-- A double, held as its bits: sign, eleven exponent bits, 52 fraction bits. -/
structure Binary64 where
  bits : UInt64
  deriving DecidableEq, Repr

namespace Binary64

def zero : Binary64 := ⟨0⟩

def isNegative (x : Binary64) : Bool := x.bits >>> 63 == 1

def neg (x : Binary64) : Binary64 := ⟨x.bits ^^^ 0x8000000000000000⟩

def magnitude (x : Binary64) : Nat := x.bits.toNat % 9223372036854775808

/-- The magnitude as `m * 2 ^ (q - 1074)`. -/
def scaled (x : Binary64) : Nat × Nat :=
  let field := x.magnitude / 4503599627370496
  let fraction := x.magnitude % 4503599627370496
  if field = 0 then (fraction, 0) else (4503599627370496 + fraction, field - 1)

/-- `num / den` on the grid of step `2 ^ (q - 1074)`, rounded to nearest with
ties to even. -/
def onGrid (num den q : Nat) : Nat :=
  let (n, d) := if q < 1074 then (num <<< (1074 - q), den)
    else (num, den <<< (q - 1074))
  let whole := n / d
  let rest := n % d
  if 2 * rest > d ∨ (2 * rest = d ∧ whole % 2 = 1) then whole + 1 else whole

/-- The finest grid on which `num / den` keeps at most 53 bits before rounding. -/
def gridOf (num den : Nat) : Nat :=
  let guess := num.log2 + 1022 - den.log2
  if guess = 0 then 0
  else
    let (n, d) :=
      if guess < 1074 then (num <<< (1074 - guess), den)
        else (num, den <<< (guess - 1074))
    if n / d < 4503599627370496 then guess - 1 else guess

/-- The double nearest to `num / den`; `none` past the largest one. -/
def ofRatio (num den : Nat) : Option Binary64 :=
  if num = 0 then some zero
  else
    let q := gridOf num den
    let m := onGrid num den q
    let (m, q) := if m = 9007199254740992 then (4503599627370496, q + 1) else (m, q)
    if q > 2045 then none
    else if m < 4503599627370496 then some ⟨UInt64.ofNat m⟩
    else some ⟨UInt64.ofNat ((q + 1) * 4503599627370496 + (m - 4503599627370496))⟩

def ofNat (n : Nat) : Option Binary64 := ofRatio n 1

def ratio (x : Binary64) : Nat × Nat :=
  let (m, q) := x.scaled
  if q < 1074 then (m, Nat.pow 2 (1074 - q)) else (m * Nat.pow 2 (q - 1074), 1)

def mul (x y : Binary64) : Option Binary64 :=
  ofRatio (x.ratio.1 * y.ratio.1) (x.ratio.2 * y.ratio.2)

def div (x y : Binary64) : Option Binary64 :=
  ofRatio (x.ratio.1 * y.ratio.2) (x.ratio.2 * y.ratio.1)

def tenTo (k : Nat) : Option Binary64 := ofRatio (Nat.pow 10 k) 1

/-- Divide by `10 ^ 308` as often as told, then by `10 ^ rest`, rounding
after each step. -/
def scaleDown : Nat → Nat → Binary64 → Option Binary64
  | 0, rest, x => (tenTo rest).bind x.div
  | more + 1, rest, x =>
      if x.magnitude = 0 then some x
      else
        match (tenTo 308).bind x.div with
        | none => none
        | some y => scaleDown more rest y

/-- A decimal `digits * 10 ^ exponent` whose digits fit in 64 bits: the digits are
rounded first, then scaled by a rounded power of ten. `none` where it is too large. -/
def ofDecimal (digits : Nat) (exponent : Int) : Option Binary64 :=
  match ofNat digits with
  | none => none
  | some x =>
      if exponent < 0 then
        let times := (exponent.natAbs - 1) / 308
        scaleDown times (exponent.natAbs - 308 * times) x
      else if exponent.natAbs ≤ 308 then (tenTo exponent.natAbs).bind x.mul
      else if x.magnitude = 0 then some x
      else none

end Binary64

end Resumable
