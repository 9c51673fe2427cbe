import Resumable.Json.Value

/-!
# Reading JSON text

One pass over the bytes by a pushdown machine: `step` takes the machine past one byte,
`finish` says what the end of the text makes of it. A problem is reported at the byte
that reveals it, that byte counted in: lines from 1, columns in bytes since the last
line feed. A number ends at the byte behind it, so a number out of range is reported
before that byte.

`Scope` says how deep brackets may nest, and which members of an outermost object are
read with care. The values of the others are only passed over: their shape is checked,
their numbers, characters and depth are not.
-/

namespace Resumable.Json

inductive Problem where
  | eofValue
  | eofList
  | eofObject
  | eofString
  | expectedValue
  | expectedIdent
  | keyNotString
  | expectedColon
  | expectedCommaOrBrace
  | expectedCommaOrBracket
  | trailingComma
  | trailingCharacters
  | invalidNumber
  | numberOutOfRange
  | controlCharacter
  | invalidEscape
  | unfinishedHexEscape
  | loneSurrogate
  | invalidCodePoint
  | tooDeep
  deriving DecidableEq, Repr

namespace Problem

def message : Problem → String
  | .eofValue => "EOF while parsing a value"
  | .eofList => "EOF while parsing a list"
  | .eofObject => "EOF while parsing an object"
  | .eofString => "EOF while parsing a string"
  | .expectedValue => "expected value"
  | .expectedIdent => "expected ident"
  | .keyNotString => "key must be a string"
  | .expectedColon => "expected `:`"
  | .expectedCommaOrBrace => "expected `,` or `\x7d`"
  | .expectedCommaOrBracket => "expected `,` or `]`"
  | .trailingComma => "trailing comma"
  | .trailingCharacters => "trailing characters"
  | .invalidNumber => "invalid number"
  | .numberOutOfRange => "number out of range"
  | .controlCharacter =>
      "control character (\\u0000-\\u001F) found while parsing a string"
  | .invalidEscape => "invalid escape"
  | .unfinishedHexEscape => "unexpected end of hex escape"
  | .loneSurrogate => "lone leading surrogate in hex escape"
  | .invalidCodePoint => "invalid unicode code point"
  | .tooDeep => "recursion limit exceeded"

end Problem

structure Place where
  line : Nat
  column : Nat
  deriving DecidableEq, Repr

namespace Place

def start : Place := ⟨1, 0⟩

def after (p : Place) (b : UInt8) : Place :=
  if b = 10 then ⟨p.line + 1, 0⟩ else ⟨p.line, p.column + 1⟩

end Place

structure ReadError where
  problem : Problem
  place : Place
  deriving DecidableEq, Repr

namespace ReadError

def message (e : ReadError) : String :=
  s!"{e.problem.message} at line {e.place.line} column {e.place.column}"

end ReadError

structure Scope where
  depth : Nat
  careful : String → Bool

namespace Scope

/-- At most 127 open brackets, everything read with care. -/
def wire : Scope := ⟨127, fun _ => true⟩

/-- A document with the given members; others are passed over. -/
def document (members : List String) : Scope := ⟨127, members.contains⟩

end Scope

/-- An open bracket with what has been read behind it, last first. -/
inductive Frame where
  | list (items : List Json)
  | object (members : List (String × Json)) (key : String)

/-- A number read so far. `digits` holds the leading digits that fit in 64 bits,
`exponent` the power of ten that the others and the fraction leave. -/
structure Numeral where
  negative : Bool
  digits : Nat
  exponent : Int

inductive NumeralPart where
  | sign
  | zero
  | whole
  | wholeRest
  | point
  | fraction
  | fractionRest
  | exponentMark
  | exponentSign (down : Bool)
  | exponentDigits (down : Bool) (size : Nat)
  | exponentRest

inductive StringPart where
  | plain
  | escape
  | hex (lead : Option Nat) (digits : List UInt8)
  | secondBackslash (lead : Nat)
  | secondU (lead : Nat)

inductive Mode where
  | value
  | firstItem
  | nextItem
  | firstKey
  | nextKey
  | colon
  | afterValue
  | ident (rest : List UInt8) (v : Json)
  | numeral (n : Numeral) (part : NumeralPart)
  | string (isKey : Bool) (text : List UInt8) (part : StringPart)

structure Machine where
  mode : Mode
  stack : List Frame
  result : Option Json
  casual : Bool
  place : Place

namespace Machine

def start : Machine := ⟨.value, [], none, false, .start⟩

def isBlank (b : UInt8) : Bool := b = 32 || b = 10 || b = 9 || b = 13

def isDigit (b : UInt8) : Bool := 48 ≤ b && b ≤ 57

def digitValue (b : UInt8) : Nat := b.toNat - 48

def hexValue? (b : UInt8) : Option Nat :=
  if 48 ≤ b ∧ b ≤ 57 then some (b.toNat - 48)
  else if 97 ≤ b ∧ b ≤ 102 then some (b.toNat - 87)
  else if 65 ≤ b ∧ b ≤ 70 then some (b.toNat - 55)
  else none

def hexNumber? (digits : List UInt8) : Option Nat :=
  digits.foldl (fun n b => n.bind fun n => (hexValue? b).map (16 * n + ·)) (some 0)

/-- Take a finished value to its place: the innermost open bracket, or the result.
Behind a member of the outermost object all is read with care again. -/
def deliver (m : Machine) (v : Json) : Machine :=
  match m.stack with
  | [] => { m with mode := .afterValue, result := some v, casual := false }
  | .list items :: rest =>
      { m with mode := .afterValue, stack := .list (v :: items) :: rest }
  | .object members key :: rest =>
      { m with mode := .afterValue, stack := .object ((key, v) :: members) "" :: rest
               casual := m.casual && !rest.isEmpty }

/-- The value of a finished number. An integer that fits in 64 bits stays one, except
negative zero. -/
def numeralValue? (n : Numeral) (isInteger : Bool) : Option Json :=
  if isInteger ∧ !n.negative ∧ n.digits < 18446744073709551616 then some (.int n.digits)
  else if isInteger ∧ n.negative ∧ 0 < n.digits ∧ n.digits ≤ 9223372036854775808 then
    some (.int (-(n.digits : Int)))
  else
    (Binary64.ofDecimal n.digits n.exponent).map fun x =>
      .double (if n.negative then x.neg else x)

/-- End a number in front of the next byte. -/
def endNumeral (m : Machine) (n : Numeral) (isInteger : Bool) :
    Except ReadError Machine :=
  match numeralValue? n isInteger with
  | some v => .ok (m.deliver v)
  | none =>
      if m.casual then .ok (m.deliver .null) else .error ⟨.numberOutOfRange, m.place⟩

/-- What a byte does to a number: it continues it, ends it, or is refused. -/
inductive NumeralStep where
  | more (n : Numeral) (part : NumeralPart)
  | done (isInteger : Bool)
  | refused (problem : Problem)

/-- A digit is kept while the digits fit in 64 bits. -/
def pushDigit (n : Numeral) (b : UInt8) : Option Numeral :=
  if n.digits * 10 + digitValue b < 18446744073709551616 then
    some { n with digits := n.digits * 10 + digitValue b }
  else none

def afterDigits (n : Numeral) (b : UInt8) (isInteger : Bool) : NumeralStep :=
  if b = 46 ∧ isInteger then .more n .point
  else if b = 101 ∨ b = 69 then .more n .exponentMark
  else .done isInteger

def exponentDigit (n : Numeral) (down : Bool) (size : Nat) (b : UInt8) : NumeralStep :=
  let size := size * 10 + digitValue b
  if size < 2147483648 then .more n (.exponentDigits down size)
  else if n.digits ≠ 0 ∧ !down then .refused .numberOutOfRange
  else .more { n with digits := 0, exponent := 0 } .exponentRest

def numeralStep (n : Numeral) (part : NumeralPart) (b : UInt8) : NumeralStep :=
  match part with
  | .sign =>
      if b = 48 then .more n .zero
      else if isDigit b then .more { n with digits := digitValue b } .whole
      else .refused .invalidNumber
  | .zero => if isDigit b then .refused .invalidNumber else afterDigits n b true
  | .whole =>
      if isDigit b then
        match pushDigit n b with
        | some n => .more n .whole
        | none => .more { n with exponent := n.exponent + 1 } .wholeRest
      else afterDigits n b true
  | .wholeRest =>
      if isDigit b then .more { n with exponent := n.exponent + 1 } .wholeRest
      else if b = 46 then .more n .point
      else afterDigits n b false
  | .point =>
      if isDigit b then
        match pushDigit n b with
        | some n => .more { n with exponent := n.exponent - 1 } .fraction
        | none => .more n .fractionRest
      else .refused .invalidNumber
  | .fraction =>
      if isDigit b then
        match pushDigit n b with
        | some n => .more { n with exponent := n.exponent - 1 } .fraction
        | none => .more n .fractionRest
      else afterDigits n b false
  | .fractionRest => if isDigit b then .more n .fractionRest else afterDigits n b false
  | .exponentMark =>
      if b = 43 then .more n (.exponentSign false)
      else if b = 45 then .more n (.exponentSign true)
      else if isDigit b then .more n (.exponentDigits false (digitValue b))
      else .refused .invalidNumber
  | .exponentSign down =>
      if isDigit b then .more n (.exponentDigits down (digitValue b))
        else .refused .invalidNumber
  | .exponentDigits down size =>
      if isDigit b then exponentDigit n down size b else .done false
  | .exponentRest => if isDigit b then .more n .exponentRest else .done false

/-- The number with its exponent counted in, where its digits end. -/
def closeNumeral (n : Numeral) : NumeralPart → Numeral
  | .exponentDigits down size =>
      { n with exponent := if down then n.exponent - size else n.exponent + size }
  | _ => n

/-- Whether a number may end here, and then whether it is an integer. -/
def numeralEnd : NumeralPart → Option Bool
  | .zero => some true
  | .whole => some true
  | .wholeRest => some false
  | .fraction => some false
  | .fractionRest => some false
  | .exponentDigits _ _ => some false
  | .exponentRest => some false
  | _ => none

/-- End a string at its closing quote. `text` holds its bytes, last first. -/
def endString (m : Machine) (scope : Scope) (isKey : Bool) (text : List UInt8)
    (place : Place) :
    Except ReadError Machine :=
  match String.fromUTF8? ⟨text.reverse.toArray⟩ with
  | some s =>
      if isKey then
        match m.stack with
        | .object members _ :: rest =>
            .ok { m with
              mode := .colon, stack := .object members s :: rest, place := place
              casual := m.casual || (rest.isEmpty && !scope.careful s) }
        | _ => .ok { m with mode := .colon, place := place }
      else .ok { m.deliver (.str s) with place := place }
  | none =>
      if m.casual then
        if isKey then .ok { m with mode := .colon, place := place }
        else .ok { m.deliver .null with place := place }
      else .error ⟨.invalidCodePoint, m.place⟩

/-- Put the bytes of a code point behind a text that is held last byte first. -/
def pushCodePoint (text : List UInt8) (n : Nat) : List UInt8 :=
  (String.utf8EncodeChar (Char.ofNat n)).reverse ++ text

def stringStep (m : Machine) (scope : Scope) (isKey : Bool) (text : List UInt8)
    (part : StringPart) (b : UInt8) (place : Place) : Except ReadError Machine :=
  let stay (text : List UInt8) (part : StringPart) : Except ReadError Machine :=
    .ok { m with mode := .string isKey text part, place := place }
  let refuse (p : Problem) : Except ReadError Machine := .error ⟨p, place⟩
  match part with
  | .plain =>
      if b = 34 then m.endString scope isKey text place
      else if b = 92 then stay text .escape
      else if b < 32 then refuse .controlCharacter
      else stay (b :: text) .plain
  | .escape =>
      if b = 34 ∨ b = 92 ∨ b = 47 then stay (b :: text) .plain
      else if b = 98 then stay (8 :: text) .plain
      else if b = 102 then stay (12 :: text) .plain
      else if b = 110 then stay (10 :: text) .plain
      else if b = 114 then stay (13 :: text) .plain
      else if b = 116 then stay (9 :: text) .plain
      else if b = 117 then stay text (.hex none [])
      else refuse .invalidEscape
  | .hex lead digits =>
      let digits := digits ++ [b]
      if digits.length < 4 then stay text (.hex lead digits)
      else
        match hexNumber? digits, lead with
        | none, _ => refuse .invalidEscape
        | some n, none =>
            if 0xDC00 ≤ n ∧ n ≤ 0xDFFF then
              if m.casual then stay text .plain else refuse .loneSurrogate
            else if 0xD800 ≤ n ∧ n ≤ 0xDBFF then
              if m.casual then stay text .plain else stay text (.secondBackslash n)
            else stay (pushCodePoint text n) .plain
        | some n, some lead =>
            if 0xDC00 ≤ n ∧ n ≤ 0xDFFF then
              stay (pushCodePoint text
                (0x10000 + (lead - 0xD800) * 1024 + (n - 0xDC00))) .plain
            else refuse .loneSurrogate
  | .secondBackslash lead =>
      if b = 92 then stay text (.secondU lead) else refuse .unfinishedHexEscape
  | .secondU lead =>
      if b = 117 then stay text (.hex (some lead) []) else refuse .unfinishedHexEscape

def openBracket (m : Machine) (scope : Scope) (frame : Frame) (mode : Mode)
    (place : Place) :
    Except ReadError Machine :=
  if !m.casual ∧ scope.depth ≤ m.stack.length then .error ⟨.tooDeep, place⟩
  else .ok { m with mode := mode, stack := frame :: m.stack, place := place }

def beginValue (m : Machine) (scope : Scope) (b : UInt8) (place : Place) :
    Except ReadError Machine :=
  let stay (mode : Mode) : Except ReadError Machine :=
    .ok { m with mode := mode, place := place }
  if b = 110 then stay (.ident [117, 108, 108] .null)
  else if b = 116 then stay (.ident [114, 117, 101] (.bool true))
  else if b = 102 then stay (.ident [97, 108, 115, 101] (.bool false))
  else if b = 34 then stay (.string false [] .plain)
  else if b = 91 then m.openBracket scope (.list []) .firstItem place
  else if b = 123 then m.openBracket scope (.object [] "") .firstKey place
  else if b = 45 then stay (.numeral ⟨true, 0, 0⟩ .sign)
  else if b = 48 then stay (.numeral ⟨false, 0, 0⟩ .zero)
  else if isDigit b then stay (.numeral ⟨false, digitValue b, 0⟩ .whole)
  else .error ⟨.expectedValue, place⟩

def closeBracket (m : Machine) (place : Place) : Machine :=
  match m.stack with
  | [] => m
  | .list items :: rest =>
      { deliver { m with stack := rest } (.arr items.reverse) with place := place }
  | .object members _ :: rest =>
      { deliver { m with stack := rest } (.obj members.reverse) with place := place }

def behindValue (m : Machine) (b : UInt8) (place : Place) : Except ReadError Machine :=
  if isBlank b then .ok { m with place := place }
  else
    match m.stack with
    | [] => .error ⟨.trailingCharacters, place⟩
    | .list _ :: _ =>
        if b = 44 then .ok { m with mode := .nextItem, place := place }
        else if b = 93 then .ok (m.closeBracket place)
        else .error ⟨.expectedCommaOrBracket, place⟩
    | .object _ _ :: _ =>
        if b = 44 then .ok { m with mode := .nextKey, place := place }
        else if b = 125 then .ok (m.closeBracket place)
        else .error ⟨.expectedCommaOrBrace, place⟩

def keyStep (m : Machine) (b : UInt8) (atClose : Except ReadError Machine)
    (place : Place) :
    Except ReadError Machine :=
  if isBlank b then .ok { m with place := place }
  else if b = 34 then .ok { m with mode := .string true [] .plain, place := place }
  else if b = 125 then atClose
  else .error ⟨.keyNotString, place⟩

def step (scope : Scope) (m : Machine) (b : UInt8) : Except ReadError Machine :=
  let place := m.place.after b
  match m.mode with
  | .value =>
      if isBlank b then .ok { m with place := place } else m.beginValue scope b place
  | .firstItem =>
      if isBlank b then .ok { m with place := place }
      else if b = 93 then .ok (m.closeBracket place)
      else m.beginValue scope b place
  | .nextItem =>
      if isBlank b then .ok { m with place := place }
      else if b = 93 then .error ⟨.trailingComma, place⟩
      else m.beginValue scope b place
  | .firstKey => m.keyStep b (.ok (m.closeBracket place)) place
  | .nextKey => m.keyStep b (.error ⟨.trailingComma, place⟩) place
  | .colon =>
      if isBlank b then .ok { m with place := place }
      else if b = 58 then .ok { m with mode := .value, place := place }
      else .error ⟨.expectedColon, place⟩
  | .afterValue => m.behindValue b place
  | .ident rest v =>
      match rest with
      | [] => .error ⟨.expectedIdent, place⟩
      | [c] =>
          if b = c then .ok { m.deliver v with place := place }
            else .error ⟨.expectedIdent, place⟩
      | c :: more =>
          if b = c then .ok { m with mode := .ident more v, place := place }
          else .error ⟨.expectedIdent, place⟩
  | .numeral n part =>
      match numeralStep n part b with
      | .more n part => .ok { m with mode := .numeral n part, place := place }
      | .refused p =>
          if p = .numberOutOfRange ∧ m.casual then
            .ok { m with mode := .numeral ⟨false, 0, 0⟩ .exponentRest, place := place }
          else .error ⟨p, place⟩
      | .done isInteger =>
          match m.endNumeral (closeNumeral n part) isInteger with
          | .error e => .error e
          | .ok m => m.behindValue b place
  | .string isKey text part => m.stringStep scope isKey text part b place

def finish (m : Machine) : Except ReadError Json :=
  let refuse (p : Problem) : Except ReadError Json := .error ⟨p, m.place⟩
  let whole (m : Machine) : Except ReadError Json :=
    match m.stack, m.result with
    | [], some v => .ok v
    | [], none => refuse .eofValue
    | .list _ :: _, _ => refuse .eofList
    | .object _ _ :: _, _ => refuse .eofObject
  match m.mode with
  | .afterValue => whole m
  | .value | .nextItem | .nextKey | .ident _ _ => refuse .eofValue
  | .firstItem => refuse .eofList
  | .firstKey | .colon => refuse .eofObject
  | .string _ _ _ => refuse .eofString
  | .numeral n part =>
      match numeralEnd part with
      | none => refuse .eofValue
      | some isInteger =>
          match m.endNumeral (closeNumeral n part) isInteger with
          | .error e => .error e
          | .ok m => whole m

def run (scope : Scope) : Machine → List UInt8 → Except ReadError Machine
  | m, [] => .ok m
  | m, b :: rest =>
      match step scope m b with
      | .error e => .error e
      | .ok m => run scope m rest

end Machine

/-- The tree that a text writes, members in document order. -/
def read (scope : Scope) (bytes : List UInt8) : Except ReadError Json :=
  match Machine.run scope .start bytes with
  | .error e => .error e
  | .ok m => m.finish

def ofBytes (bytes : List UInt8) : Except ReadError Json :=
  (read .wire bytes).map normalize

end Resumable.Json
