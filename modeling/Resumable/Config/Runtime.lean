import Resumable.Abi.Pair
import Resumable.Json.Reader
import Resumable.Message.PerformRequest

namespace Resumable

structure RuntimeConfig where
  metricsFlushMs : Nat := 1000
  pairEncoding : PairEncoding := .wide
  asyncifyDataAddr : UInt32 := 16
  asyncifyDataEnd : UInt32 := 1024
  maxMessageBytes : Nat := 4194304
  maxReadBytes : Nat := 1048576

/-- The four bytes of a word, least first. -/
def littleEndian (w : UInt32) : List UInt8 :=
  [w.toUInt8, (w >>> 8).toUInt8, (w >>> 16).toUInt8, (w >>> 24).toUInt8]

namespace RuntimeConfig

def header (c : RuntimeConfig) : ByteArray :=
  ⟨(littleEndian (c.asyncifyDataAddr + 8) ++ littleEndian c.asyncifyDataEnd).toArray⟩

/-- Whether the header's end can be computed without leaving 32 bits. -/
def headerFits (c : RuntimeConfig) : Bool := c.asyncifyDataAddr.toNat + 8 < 4294967296

def fields : List String :=
  [ "metrics_flush_ms", "pair_encoding", "asyncify_data_addr", "asyncify_data_end"
  , "max_message_bytes", "max_read_bytes" ]

end RuntimeConfig

namespace Json

def asNat? (limit : Nat) : Json → Option Nat
  | .int n => if 0 ≤ n ∧ n.toNat ≤ limit then some n.toNat else none
  | _ => none

end Json

namespace PairEncoding

def ofName? (name : String) : Option PairEncoding :=
  if name = "wide" then some .wide else if name = "safe" then some .safe else none

/-- An encoding is named by a text, or by the only key of an object that
holds nothing. -/
def ofJson? : Json → Option PairEncoding
  | .str name => ofName? name
  | .obj [(name, .null)] => ofName? name
  | _ => none

end PairEncoding

namespace RuntimeConfig

def field? {α : Type} (get : String → Option Json) (name : String)
    (read : Json → Option α) (absent : α) : Option α :=
  match get name with
  | none => some absent
  | some v => read v

/-- Build settings from a look-up by field name. Natural fields hold at
most `largest`. -/
def ofLookup? (largest : Nat) (get : String → Option Json) : Option RuntimeConfig := do
  let absent : RuntimeConfig := {}
  let metricsFlushMs ← field? get "metrics_flush_ms" (Json.asNat? largest)
    absent.metricsFlushMs
  let pairEncoding ← field? get "pair_encoding" PairEncoding.ofJson? absent.pairEncoding
  let addr ← field? get "asyncify_data_addr" (Json.asNat? 4294967295)
    absent.asyncifyDataAddr.toNat
  let dataEnd ← field? get "asyncify_data_end" (Json.asNat? 4294967295)
    absent.asyncifyDataEnd.toNat
  let maxMessageBytes ← field? get "max_message_bytes" (Json.asNat? largest)
    absent.maxMessageBytes
  let maxReadBytes ← field? get "max_read_bytes" (Json.asNat? largest)
    absent.maxReadBytes
  return {
    metricsFlushMs, pairEncoding, maxMessageBytes, maxReadBytes
    asyncifyDataAddr := UInt32.ofNat addr
    asyncifyDataEnd := UInt32.ofNat dataEnd }

/-- Read settings strictly from a JSON document. -/
def read? (bytes : List UInt8) : Option RuntimeConfig :=
  match Json.read (.document fields) bytes with
  | .error _ => none
  | .ok tree => (Json.fieldLookup? fields tree).bind (ofLookup? 18446744073709551615)

end RuntimeConfig

end Resumable
