namespace Resumable.Punycode

def digit (d : Nat) : Char := if d < 26 then Char.ofNat (97 + d)
    else Char.ofNat (22 + d)

def digitValue? (c : Char) : Option Nat :=
  let n := c.toNat
  if 97 ≤ n ∧ n ≤ 122 then some (n - 97)
  else if 65 ≤ n ∧ n ≤ 90 then some (n - 65)
  else if 48 ≤ n ∧ n ≤ 57 then some (n - 22)
  else none

def threshold (place bias : Nat) : Nat :=
  if place ≤ bias then 1 else if bias + 26 ≤ place then 26 else place - bias

theorem threshold_pos (place bias : Nat) : 1 ≤ threshold place bias := by
  unfold threshold
  split
  · omega
  · split <;> omega

/-- Divide a distance down to at most 455; the bias so far and what is left. -/
def shrink (delta bias : Nat) : Nat × Nat :=
  if 455 < delta then shrink (delta / 35) (bias + 36) else (bias, delta)
termination_by delta
decreasing_by exact Nat.div_lt_self (by omega) (by omega)

def adapt (delta placed : Nat) (first : Bool) : Nat :=
  let scaled := if first then delta / 700 else delta / 2
  let (bias, rest) := shrink (scaled + scaled / placed) 0
  bias + 36 * rest / (rest + 38)

/-- Write a number, the least digit first. -/
def writeNumber (bias place n : Nat) : List Char :=
  let t := threshold place bias
  if n < t then [digit n]
  else digit (t + (n - t) % (36 - t)) ::
    writeNumber bias (place + 36) ((n - t) / (36 - t))
termination_by n
decreasing_by
  have := threshold_pos place bias
  calc (n - threshold place bias) / (36 - threshold place bias)
      ≤ n - threshold place bias := Nat.div_le_self _ _
    _ < n := by omega

structure Writing where
  delta : Nat
  bias : Nat
  placed : Nat
  written : List Char

/-- Pass a character of the text while characters of a code point are being placed. -/
def pass (basic point : Nat) (w : Writing) (c : Char) : Writing :=
  if c.toNat < point then { w with delta := w.delta + 1 }
  else if c.toNat = point then
    { delta := 0, bias := adapt w.delta (w.placed + 1) (w.placed == basic),
      placed := w.placed + 1
      written := w.written ++ writeNumber w.bias 36 w.delta }
  else w

/-- Place the characters of one code point after another; the points ascend
from `next` on. -/
def place (text : List Char) (basic : Nat) : List Nat → Nat → Writing → Writing
  | [], _, w => w
  | point :: rest, next, w =>
      let w := { w with delta := w.delta + (point - next) * (w.placed + 1) }
      let w := text.foldl (pass basic point) w
      place text basic rest (point + 1) { w with delta := w.delta + 1 }

def isBasic (c : Char) : Bool := c.toNat < 128

def encode (text : List Char) : List Char :=
  let basic := text.filter isBasic
  let points := (text.filter (!isBasic ·)).map Char.toNat
  let ascending := (points.mergeSort (· ≤ ·)).eraseReps
  let w := place text basic.length ascending 128 ⟨0, 72, basic.length, []⟩
  basic ++ (if basic.isEmpty then [] else ['-']) ++ w.written

/-- Read a number onto `sum`: the new sum and the characters behind it. -/
def readNumber? (bias : Nat) : List Char → Nat → Nat → Nat → Option (Nat × List Char)
  | [], _, _, _ => none
  | c :: rest, place, weight, sum =>
      match digitValue? c with
      | none => none
      | some d =>
          if d < threshold place bias then some (sum + d * weight, rest)
          else
            readNumber? bias rest (place + 36) (weight * (36 - threshold place bias))
              (sum + d * weight)

theorem readNumber?_length {bias place weight sum : Nat} {cs : List Char}
    {r : Nat × List Char} (h : readNumber? bias cs place weight sum = some r) :
    r.2.length < cs.length := by
  induction cs generalizing place weight sum with
  | nil => simp [readNumber?] at h
  | cons c rest ih =>
      rw [readNumber?] at h
      split at h
      · simp at h
      · split at h
        · cases h
          simp
        · have := ih h
          simp only [List.length_cons]
          omega

def insertAll? (bias next sum : Nat) (text : List Char) : List Char → Option (List Char)
  | [] => some text
  | c :: cs =>
      match _h : readNumber? bias (c :: cs) 36 1 sum with
      | none => none
      | some (total, rest) =>
          let size := text.length + 1
          let point := next + total / size
          if point < 0xD800 ∨ (0xDFFF < point ∧ point < 0x110000) then
            insertAll? (adapt (total - sum) size (sum == 0)) point (total % size + 1)
              (text.insertIdx (total % size) (Char.ofNat point)) rest
          else none
termination_by cs => cs.length
decreasing_by exact readNumber?_length _h

/-- Read a label. What stands before its last hyphen is copied. -/
def decode? (label : List Char) : Option (List Char) :=
  let numbers := (label.reverse.takeWhile (· ≠ '-')).reverse
  let basic := (label.take (label.length - numbers.length)).dropLast
  if label.all isBasic then insertAll? 72 128 0 basic numbers else none

end Resumable.Punycode
