import Resumable.Http.Token
import Resumable.Message.Outgoing

namespace Resumable.Http

/-- What reading some bytes comes to: they are too few, they are wrong, or there is a
value and a rest. -/
inductive Reading (α : Type) where
  | short
  | wrong
  | value (a : α) (rest : List UInt8)

namespace Reading

variable {α β : Type}

def bind : Reading α → (α → List UInt8 → Reading β) → Reading β
  | .short, _ => .short
  | .wrong, _ => .wrong
  | .value a rest, f => f a rest

end Reading

structure Head where
  minor : Nat
  status : Nat
  fields : Fields ByteArray

def readExactly : List UInt8 → List UInt8 → Reading Unit
  | [], bs => .value () bs
  | _ :: _, [] => .short
  | a :: as, b :: bs => if a == b then readExactly as bs else .wrong

/-- Read the end of a line, whose carriage return may be left out. -/
def readLineEnd : List UInt8 → Reading Unit
  | [] => .short
  | 10 :: bs => .value () bs
  | 13 :: 10 :: bs => .value () bs
  | [13] => .short
  | _ => .wrong

def skipLines : List UInt8 → List UInt8
  | 10 :: bs => skipLines bs
  | 13 :: 10 :: bs => skipLines bs
  | bs => bs

def readText (bs : List UInt8) : Reading (List UInt8) :=
  (readLineEnd (bs.dropWhile isValueByte)).bind fun _ rest =>
    .value (bs.takeWhile isValueByte) rest

def digit? (b : UInt8) : Option Nat :=
  if 48 ≤ b && b ≤ 57 then some (b.toNat - 48) else none

def readStatus : List UInt8 → Reading Nat
  | a :: b :: c :: rest =>
      match digit? a, digit? b, digit? c with
      | some x, some y, some z =>
          let n := 100 * x + 10 * y + z
          if 100 ≤ n then .value n rest else .wrong
      | _, _, _ => .wrong
  | _ => .short

/-- The first eight bytes of an answer, up to the digit that is left. -/
def versionMark : List UInt8 := "HTTP/1.".toUTF8.toList

/-- Read a status line: the version's last digit and the status. What follows is
not looked at. -/
def readStatusLine (bs : List UInt8) : Reading (Nat × Nat) :=
  (readExactly versionMark (skipLines bs)).bind fun _ rest =>
    match rest with
    | [] => .short
    | d :: rest =>
        if d != 48 && d != 49 then .wrong
        else
          (readExactly [32] rest).bind fun _ rest =>
            (readStatus rest).bind fun status rest =>
              match rest with
              | 32 :: reason =>
                  (readText reason).bind fun _ rest =>
                    .value (d.toNat - 48, status) rest
              | _ =>
                  (readLineEnd rest).bind fun _ rest =>
                    .value (d.toNat - 48, status) rest

def isGap (b : UInt8) : Bool := b == 32 || b == 9

def strip (bs : List UInt8) : List UInt8 :=
  ((bs.dropWhile isGap).reverse.dropWhile isGap).reverse

def readField (bs : List UInt8) : Reading (String × ByteArray) :=
  let name := bs.takeWhile isTokenByte
  match bs.dropWhile isTokenByte with
  | [] => .short
  | 58 :: rest =>
      if name.isEmpty then .wrong
      else
        (readText rest).bind fun value rest =>
          .value (lowerName (String.ofList (name.map fun b => Char.ofNat b.toNat)),
            ⟨(strip value).toArray⟩) rest
  | _ => .wrong

def readFields : Nat → List UInt8 → Reading (Fields ByteArray)
  | fuel, bs =>
      match readLineEnd bs with
      | .value _ rest => .value [] rest
      | .short => .short
      | .wrong =>
          match fuel with
          | 0 => .wrong
          | fuel + 1 =>
              (readField bs).bind fun field rest =>
                (readFields fuel rest).bind fun fields rest =>
                  .value (field :: fields) rest

def fieldLimit : Nat := 100

/-- Read a head. Provisional ones are passed over. -/
def readHead : Nat → List UInt8 → Reading Head
  | 0, _ => .short
  | fuel + 1, bs =>
      (readStatusLine bs).bind fun (minor, status) rest =>
        (readFields fieldLimit rest).bind fun fields rest =>
          if status < 200 && status != 101 then readHead fuel rest
          else .value ⟨minor, status, fields⟩ rest

inductive Framing where
  | empty
  | length (n : Nat)
  | chunked
  | untilClosed
  deriving DecidableEq, Repr

def number? (bs : List UInt8) : Option Nat :=
  match (strip bs).mapM digit? with
  | some [] => none
  | some ds => some (ds.foldl (fun n d => 10 * n + d) 0)
  | none => none

/-- The length that all `content-length` fields agree on. -/
def contentLength? (values : List ByteArray) : Option Nat :=
  match (values.flatMap fun v => v.toList.splitOn 44).mapM number? with
  | some (n :: ns) =>
      if ns.all (· == n) && n < 18446744073709551614 then some n else none
  | _ => none

def isChunked (values : List ByteArray) : Bool :=
  match values.getLast? with
  | none => false
  | some v =>
      let last := ((v.toList.splitOn 44).getLast?).getD []
      (strip last).map (fun b => (Char.ofNat b.toNat).toLower) == "chunked".toList

/-- How the body of an answer to a method is framed; nothing if the head
contradicts itself. -/
def framing? (method : String) (h : Head) : Option Framing :=
  if h.status = 101 ∨ h.status = 204 ∨ h.status = 304 ∨ method = "HEAD" then some .empty
  else if method = "CONNECT" ∧ h.status < 300 then some .empty
  else if h.fields.has "transfer-encoding" then
    if h.minor = 0 then none
    else if isChunked (h.fields.values "transfer-encoding") then some .chunked
    else some .untilClosed
  else if h.fields.has "content-length" then
    (contentLength? (h.fields.values "content-length")).map .length
  else some .untilClosed

/-- How the bytes of a body end: it is whole, more must follow, more may follow, or
it is wrong. -/
inductive BodyEnd where
  | whole
  | cut
  | unbounded
  | wrong
  deriving DecidableEq, Repr

def hexDigit? (b : UInt8) : Option Nat :=
  if 48 ≤ b && b ≤ 57 then some (b.toNat - 48)
  else if 65 ≤ b && b ≤ 70 then some (b.toNat - 55)
  else if 97 ≤ b && b ≤ 102 then some (b.toNat - 87)
  else none

def readSize (bs : List UInt8) : Reading Nat :=
  let digits := bs.takeWhile fun b => (hexDigit? b).isSome
  let rest := (bs.dropWhile fun b => (hexDigit? b).isSome).dropWhile isGap
  let size := (digits.filterMap hexDigit?).foldl (fun n d => 16 * n + d) 0
  if digits.isEmpty then if bs.isEmpty then .short else .wrong
  else if 18446744073709551616 ≤ size then .wrong
  else
    match rest with
    | 59 :: extension =>
        let behind := extension.dropWhile fun b => b != 13 && b != 10
        if behind.head? == some 10 then .wrong
        else (readExactly [13, 10] behind).bind fun _ rest => .value size rest
    | _ => (readExactly [13, 10] rest).bind fun _ rest => .value size rest

def trailerEnd : Nat → List UInt8 → BodyEnd
  | 0, _ => .cut
  | fuel + 1, bs =>
      match readExactly [13, 10] bs with
      | .value _ _ => .whole
      | .short => .cut
      | .wrong =>
          match bs.dropWhile (· != 13) with
          | 13 :: 10 :: rest => trailerEnd fuel rest
          | 13 :: _ :: _ => .wrong
          | _ => .cut

def readChunks : Nat → List UInt8 → List UInt8 × BodyEnd
  | 0, _ => ([], .cut)
  | fuel + 1, bs =>
      match readSize bs with
      | .short => ([], .cut)
      | .wrong => ([], .wrong)
      | .value 0 rest => ([], trailerEnd fuel rest)
      | .value size rest =>
          let piece := rest.take size
          if rest.length < size then (piece, .cut)
          else
            match readExactly [13, 10] (rest.drop size) with
            | .short => (piece, .cut)
            | .wrong => (piece, .wrong)
            | .value _ rest =>
                let (more, finish) := readChunks fuel rest
                (piece ++ more, finish)

def readBody (f : Framing) (bs : List UInt8) : List UInt8 × BodyEnd :=
  match f with
  | .empty => ([], .whole)
  | .length n => (bs.take n, if bs.length < n then .cut else .whole)
  | .chunked => readChunks (bs.length + 1) bs
  | .untilClosed => (bs, .unbounded)

def insertValue (name value : String) : Headers → Headers
  | [] => [(name, [value])]
  | (n, vs) :: rest =>
      if n = name then (n, vs ++ [value]) :: rest
      else if name < n then (name, [value]) :: (n, vs) :: rest
      else (n, vs) :: insertValue name value rest

def Fields.gather (fields : Fields String) : Headers :=
  fields.foldl (fun h f => insertValue f.1 f.2 h) []

end Resumable.Http
