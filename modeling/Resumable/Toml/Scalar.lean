import Resumable.Toml.Value

namespace Resumable.Toml

/-- Digits of a base with single underscores between them; the digits alone. -/
def digits? (isDigit : Char → Bool) : List Char → Option (List Char)
  | [] => none
  | [c] => if isDigit c then some [c] else none
  | c :: '_' :: d :: rest =>
      if isDigit c then (digits? isDigit (d :: rest)).map (c :: ·) else none
  | c :: d :: rest =>
      if isDigit c then (digits? isDigit (d :: rest)).map (c :: ·) else none

def digitValue (c : Char) : Nat :=
  if c.isDigit then c.toNat - 48 else if 'a' ≤ c then c.toNat - 87 else c.toNat - 55

def ofDigits (base : Nat) (ds : List Char) : Nat :=
  ds.foldl (fun n c => n * base + digitValue c) 0

def isHex (c : Char) : Bool := c.isDigit || ('a' ≤ c && c ≤ 'f') || ('A' ≤ c && c ≤ 'F')

def isOctal (c : Char) : Bool := '0' ≤ c && c ≤ '7'

def isBinary (c : Char) : Bool := c == '0' || c == '1'

def splitSign : List Char → Bool × List Char
  | '+' :: rest => (false, rest)
  | '-' :: rest => (true, rest)
  | rest => (false, rest)

def decimal? (text : List Char) : Option (List Char) :=
  match digits? Char.isDigit text with
  | some ('0' :: _ :: _) => none
  | other => other

def inRange (n : Int) : Option Toml :=
  if -9223372036854775808 ≤ n ∧ n < 9223372036854775808 then some (.integer n) else none

def integer? : List Char → Option Toml
  | '0' :: 'x' :: rest => (digits? isHex rest).bind fun ds => inRange (ofDigits 16 ds)
  | '0' :: 'o' :: rest => (digits? isOctal rest).bind fun ds => inRange (ofDigits 8 ds)
  | '0' :: 'b' :: rest => (digits? isBinary rest).bind fun ds => inRange (ofDigits 2 ds)
  | text =>
      let (negative, magnitude) := splitSign text
      (decimal? magnitude).bind fun ds =>
        let n : Int := ofDigits 10 ds
        inRange (if negative then -n else n)

/-- Whether `digits * 10 ^ exponent` rounds to a finite double. -/
def isFinite (digits : Nat) (exponent : Int) : Bool :=
  let limit := Nat.pow 2 1024 - Nat.pow 2 970
  if digits = 0 then true
  else if exponent < 0 then
    decide (digits < limit * Nat.pow 10 (min exponent.natAbs 5000)) || exponent < -5000
  else exponent ≤ 400 && decide (digits * Nat.pow 10 exponent.natAbs < limit)

def splitAt? (p : Char → Bool) (text : List Char) : Option (List Char × List Char) :=
  match text.span (!p ·) with
  | (_, []) => none
  | (front, _ :: back) => some (front, back)

def exponent? (text : List Char) : Option Int :=
  let (negative, magnitude) := splitSign text
  (digits? Char.isDigit magnitude).map fun ds =>
    let n : Int := ofDigits 10 (ds.dropWhile (· == '0') |>.take 7)
    if negative then -n else n

def finiteFloat? (text : List Char) : Option (Nat × Int) := do
  let (mantissa, exponent) ←
    match splitAt? (fun c => c == 'e' || c == 'E') text with
    | none => some (text, none)
    | some (mantissa, exponent) => some (mantissa, some exponent)
  let scale ← match exponent with
    | none => some 0
    | some e => exponent? e
  match splitAt? (· == '.') mantissa with
  | none =>
      if exponent.isNone then none
      let whole ← decimal? mantissa
      return (ofDigits 10 whole, scale)
  | some (whole, fraction) =>
      let whole ← decimal? whole
      let fraction ← digits? Char.isDigit fraction
      return (ofDigits 10 (whole ++ fraction), scale - fraction.length)

def float? (text : List Char) : Option Toml :=
  let (_, magnitude) := splitSign text
  if magnitude = ['i', 'n', 'f'] ∨ magnitude = ['n', 'a', 'n'] then
    some (.float (String.ofList text))
  else
    match finiteFloat? magnitude with
    | some (digits, exponent) =>
        if isFinite digits exponent then some (.float (String.ofList text)) else none
    | none => none

def fixed? (count : Nat) (text : List Char) : Option (Nat × List Char) :=
  let front := text.take count
  if front.length = count ∧ front.all Char.isDigit then
    some (ofDigits 10 front, text.drop count)
  else none

def isLeap (year : Nat) : Bool := year % 4 == 0 && (year % 100 != 0 || year % 400 == 0)

def daysIn (year month : Nat) : Nat :=
  if month = 2 then if isLeap year then 29 else 28
  else if month = 4 ∨ month = 6 ∨ month = 9 ∨ month = 11 then 30
  else 31

def expect? (c : Char) : List Char → Option (List Char)
  | d :: rest => if c = d then some rest else none
  | [] => none

def date? (text : List Char) : Option (List Char) := do
  let (year, text) ← fixed? 4 text
  let text ← expect? '-' text
  let (month, text) ← fixed? 2 text
  let text ← expect? '-' text
  let (day, text) ← fixed? 2 text
  if 1 ≤ month ∧ month ≤ 12 ∧ 1 ≤ day ∧ day ≤ daysIn year month then some text else none

def seconds? : List Char → Option (List Char)
  | ':' :: text => do
      let (second, text) ← fixed? 2 text
      if 60 < second then none
      match text with
      | '.' :: rest =>
          let (fraction, rest) := rest.span Char.isDigit
          if fraction.isEmpty then none else some rest
      | rest => some rest
  | text => some text

def time? (text : List Char) : Option (List Char) := do
  let (hour, text) ← fixed? 2 text
  let text ← expect? ':' text
  let (minute, text) ← fixed? 2 text
  if 23 < hour ∨ 59 < minute then none
  seconds? text

def isOffset : List Char → Bool
  | [] => true
  | ['Z'] => true
  | ['z'] => true
  | c :: rest =>
      if c == '+' || c == '-' then
        match fixed? 2 rest with
        | some (hour, ':' :: rest) =>
            match fixed? 2 rest with
            | some (minute, []) => hour ≤ 23 && minute ≤ 59
            | _ => false
        | _ => false
      else false

def isDatetime (text : List Char) : Bool :=
  match date? text with
  | some [] => true
  | some (c :: rest) =>
      (c == 'T' || c == 't' || c == ' ') &&
        match time? rest with
        | some offset => isOffset offset
        | none => false
  | none => time? text == some []

def scalar? (text : List Char) : Option Toml :=
  if text = ['t', 'r', 'u', 'e'] then some (.boolean true)
  else if text = ['f', 'a', 'l', 's', 'e'] then some (.boolean false)
  else if isDatetime text then some (.datetime (String.ofList text))
  else
    match integer? text with
    | some v => some v
    | none => float? text

end Resumable.Toml
