import Resumable.Config.Runtime

namespace Resumable.Json

def asInt? : Json → Option Int
  | .int n => some n
  | .str s => s.toInt?
  | _ => none

def asItems : Json → List Json
  | .arr items => items
  | _ => []

def asMembers : Json → List (String × Json)
  | .obj members => members
  | _ => []

def asBool : Json → Bool
  | .bool b => b
  | _ => false

def field (v : Json) (name : String) : Json := (v.get? name).getD .null

def textField (v : Json) (name : String) : String := ((v.field name).asString?).getD ""

end Resumable.Json

namespace Resumable.Scripted

def hexDigit (c : Char) : Nat :=
  if c.isDigit then c.toNat - 48 else if 'a' ≤ c ∧ c ≤ 'f' then c.toNat - 87
    else c.toNat - 55

def ofHex : List Char → List UInt8
  | a :: b :: rest => UInt8.ofNat (hexDigit a * 16 + hexDigit b) :: ofHex rest
  | _ => []

def wordOf (v : Json) : UInt32 := UInt32.ofInt (v.asInt?.getD 0)

def namedBytes : String → Json → ByteArray
  | "text", v => (v.asString?.getD "").toUTF8
  | "hex", v => ⟨(ofHex (v.asString?.getD "").toList).toArray⟩
  | "u32", v => ⟨(v.asItems.flatMap fun w => littleEndian (wordOf w)).toArray⟩
  | "fill", .arr [b, n] =>
      ⟨Array.replicate (n.asInt?.getD 0).toNat (UInt8.ofNat (b.asInt?.getD 0).toNat)⟩
  | _, _ => .empty

mutual

def bytes : Json → ByteArray
  | .str s => s.toUTF8
  | .arr items => bytesOfItems items
  | .obj ((name, v) :: _) => namedBytes name v
  | _ => .empty

def bytesOfItems : List Json → ByteArray
  | [] => .empty
  | v :: rest => bytes v ++ bytesOfItems rest

end

end Resumable.Scripted
