import Resumable.Abi.Errno

namespace Resumable

inductive PairEncoding where
  | wide
  | safe
  deriving DecidableEq, Repr

inductive AbiError where
  | halfOutOfRange (value : UInt32) (bits : Nat)
  | invalidPacked (word : UInt64)
  | invalidTag (tag : UInt32)
  deriving DecidableEq, Repr

namespace AbiError

def message : AbiError → String
  | .halfOutOfRange value bits =>
      s!"pair half {value.toNat} does not fit in {bits} bits"
  | .invalidPacked word =>
      "packed value 0x" ++ String.ofList (Nat.toDigits 16 word.toNat) ++
        " is not a valid pair for this encoding"
  | .invalidTag tag => s!"result tag {tag.toNat} is neither ok (0) nor err (1)"

end AbiError

namespace PairEncoding

def firstBits : PairEncoding → Nat
  | .wide => 32
  | .safe => 31

def maxSecond : PairEncoding → UInt32
  | .wide => 4294967295
  | .safe => 4194303

end PairEncoding

structure Pair where
  first : UInt32
  second : UInt32
  deriving DecidableEq, Repr

namespace Pair

/-- Pack two halves. The safe packing refuses a first half of more than 31 bits, then
a second half of more than 22. -/
def encode (encoding : PairEncoding) (p : Pair) : Except AbiError UInt64 :=
  match encoding with
  | .wide => .ok (p.first.toUInt64 ||| (p.second.toUInt64 <<< 32))
  | .safe =>
      if p.first > 2147483647 then .error (.halfOutOfRange p.first 31)
      else if p.second > 4194303 then .error (.halfOutOfRange p.second 22)
      else .ok (p.first.toUInt64 ||| (p.second.toUInt64 <<< 31))

/-- Split a word. The safe packing refuses words of more than 53 bits. -/
def decode (encoding : PairEncoding) (word : UInt64) : Except AbiError Pair :=
  match encoding with
  | .wide => .ok ⟨(word &&& 0xFFFFFFFF).toUInt32, (word >>> 32).toUInt32⟩
  | .safe =>
      if word > 9007199254740991 then .error (.invalidPacked word)
      else .ok ⟨(word &&& 0x7FFFFFFF).toUInt32, (word >>> 31).toUInt32⟩

end Pair

/-- A value or an error code, as an import answers it. -/
inductive AbiResult where
  | ok (value : UInt32)
  | err (errno : Errno)
  deriving DecidableEq, Repr

namespace AbiResult

def ofExcept : Except Errno UInt32 → AbiResult
  | .ok value => .ok value
  | .error errno => .err errno

/-- The pair that stands for a result: the value or code, and the tag. -/
def toPair : AbiResult → Pair
  | .ok value => ⟨value, 0⟩
  | .err errno => ⟨errno.code, 1⟩

def encode (encoding : PairEncoding) (r : AbiResult) : Except AbiError UInt64 :=
  r.toPair.encode encoding

def decode (encoding : PairEncoding) (word : UInt64) : Except AbiError AbiResult :=
  match Pair.decode encoding word with
  | .error e => .error e
  | .ok pair =>
      if pair.second = 0 then .ok (.ok pair.first)
      else if pair.second = 1 then .ok (.err (Errno.ofCode pair.first))
      else .error (.invalidTag pair.second)

end AbiResult

end Resumable
