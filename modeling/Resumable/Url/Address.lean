namespace Resumable.Address

/-- A number of an address: not a number, one that is too large, or its value. -/
inductive Part where
  | word
  | huge
  | value (n : Nat)
  deriving DecidableEq, Repr

def isOctal (c : Char) : Bool := '0' ≤ c && c ≤ '7'

def isHex (c : Char) : Bool := c.isDigit || ('a' ≤ c && c ≤ 'f') || ('A' ≤ c && c ≤ 'F')

def hexDigitValue (c : Char) : Nat :=
  if c.isDigit then c.toNat - 48 else if 'a' ≤ c then c.toNat - 87 else c.toNat - 55

def numeral (base : Nat) (cs : List Char) : Nat :=
  cs.foldl (fun n c => base * n + hexDigitValue c) 0

def partOf (base : Nat) (digits : Char → Bool) (cs : List Char) : Part :=
  if !cs.all digits then .word
  else
    let n := numeral base cs
    if n < 4294967296 then .value n else .huge

/-- Read one number. A leading zero makes it octal, `0x` hexadecimal. -/
def part : List Char → Part
  | [] => .word
  | '0' :: 'x' :: cs => partOf 16 isHex cs
  | '0' :: 'X' :: cs => partOf 16 isHex cs
  | '0' :: c :: cs => partOf 8 isOctal (c :: cs)
  | cs => partOf 10 Char.isDigit cs

def labels (name : List Char) : List (List Char) := name.splitOn '.'

def trimmed (ls : List (List Char)) : List (List Char) :=
  if ls.getLast? = some [] then ls.dropLast else ls

/-- Whether a name has to be an address: its last label is a number. -/
def endsInNumber (name : List Char) : Bool :=
  match (trimmed (labels name)).getLast? with
  | none => false
  | some last => (!last.isEmpty && last.all Char.isDigit) || part last != .word

def four? (name : List Char) : Option Nat := do
  let parts := trimmed (labels name)
  if 4 < parts.length then none
  let numbers ← parts.mapM fun p =>
    match part p with
    | .value n => some n
    | _ => none
  let last ← numbers.getLast?
  let front := numbers.dropLast
  if Nat.pow 256 (4 - front.length) ≤ last ∨ front.any (255 < ·) then none
  return last + (front.zipIdx.foldl (fun sum (n, i) => sum + n * Nat.pow 256 (3 - i)) 0)

def fourText (address : Nat) : String :=
  ".".intercalate ([3, 2, 1, 0].map fun i => toString (address / Nat.pow 256 i % 256))

/-- One byte of four inside an address of eight words, in plain decimal. -/
def byte? (cs : List Char) : Option Nat :=
  if cs.isEmpty || !cs.all Char.isDigit ||
    (1 < cs.length && cs.head? == some '0') then none
  else
    let n := numeral 10 cs
    if n ≤ 255 then some n else none

def word? (cs : List Char) : Option Nat :=
  if cs.isEmpty || 4 < cs.length || !cs.all isHex then none else some (numeral 16 cs)

/-- Words between colons; the last may be written as four bytes. -/
def words? : List (List Char) → Bool → Option (List Nat)
  | [], _ => some []
  | [last], true =>
      if last.contains '.' then do
        match ← (labels last).mapM byte? with
        | [a, b, c, d] => some [256 * a + b, 256 * c + d]
        | _ => none
      else (word? last).map fun w => [w]
  | w :: rest, fourLast => do
      let n ← word? w
      let ns ← words? rest fourLast
      return n :: ns

def side? (cs : List Char) (fourLast : Bool) : Option (List Nat) :=
  if cs.isEmpty then some [] else words? (cs.splitOn ':') fourLast

def splitGap? : List Char → Option (List Char × List Char)
  | ':' :: ':' :: rest => some ([], rest)
  | c :: rest => (splitGap? rest).map fun (a, b) => (c :: a, b)
  | [] => none

/-- Read an address of eight words. A gap stands for at least one of them. -/
def eight? (cs : List Char) : Option (List Nat) :=
  match splitGap? cs with
  | none =>
      match words? (cs.splitOn ':') true with
      | some ws => if ws.length = 8 then some ws else none
      | none => none
  | some (a, b) => do
      let front ← side? a false
      let back ← side? b true
      if front.length + back.length < 8 then
        return front ++ List.replicate (8 - front.length - back.length) 0 ++ back
      else none

/-- The start and length of the longest run of zeros, the first of several. -/
def longestZeros (ws : List Nat) : Nat × Nat :=
  (List.range ws.length).foldl (fun best i =>
    let n := ((ws.drop i).takeWhile (· == 0)).length
    if best.2 < n then (i, n) else best) (0, 0)

def wordsText (ws : List Nat) : String :=
  ":".intercalate (ws.map fun w => String.ofList (Nat.toDigits 16 w))

def eightText (ws : List Nat) : String :=
  let (start, length) := longestZeros ws
  if length < 2 then wordsText ws
  else wordsText (ws.take start) ++ "::" ++ wordsText (ws.drop (start + length))

end Resumable.Address
