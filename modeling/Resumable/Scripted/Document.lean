import Resumable.Json.Text
import Resumable.Scripted.Literal
import Resumable.Scripted.Machine

namespace Resumable.Scripted

namespace Operand

def ofJson : Json → Operand
  | .str "last" => .last
  | v => .word (wordOf v)

end Operand

namespace Step

def callOfJson (target : CallStep) (v : Json) : Step :=
  .call target (v.field "rogue").asBool
    ((v.get? "resume").bind fun r => r.asInt?.map Int.toNat)

def ofJson? (v : Json) : Option Step :=
  let operand (name : String) : Operand := .ofJson (v.field name)
  match v.textField "op" with
  | "exchange" =>
      some (callOfJson
        (.exchange (operand "ptr") (operand "len") (operand "out")
          (operand "out_len")) v)
  | "retrieve" =>
      some (callOfJson
        (.retrieve (operand "handle") (operand "out") (operand "out_len")) v)
  | "read" =>
      some (callOfJson (.read (operand "handle") (operand "out") (operand "out_len")) v)
  | "write" =>
      some (callOfJson (.write (operand "handle") (operand "ptr") (operand "len")) v)
  | "close" => some (callOfJson (.close (operand "handle")) v)
  | "store" => some (.store (operand "at") (bytes (v.field "data")))
  | "peek" => some (.peek (operand "at") (operand "len"))
  | "wrap" =>
      some (.wrap (bytes (v.field "prefix")) (bytes (v.field "suffix"))
        (operand "src") (operand "at"))
  | "grow" => some (.grow (operand "pages"))
  | "set_state" => some (.setState (wordOf (v.field "value")).toInt32)
  | "trap" => some .trap
  | "trap_if" => some (.trapIf (operand "at") (wordOf (v.field "byte")).toUInt8)
  | "return" => some .leave
  | _ => none

end Step

namespace Script

def ofJson? (v : Json) : Option Script := v.asItems.mapM Step.ofJson?

end Script

namespace Turn

def ofJson : Json → Turn
  | .str _ => .traps
  | v => .sets (wordOf v).toInt32

end Turn

namespace Turns

def ofJson (v : Json) : Turns :=
  let turn (name : String) (absent : Turn) : Turn :=
    ((v.get? name).map Turn.ofJson).getD absent
  let absent : Turns := {}
  { initial := (wordOf (v.field "init")).toInt32
    startUnwind := turn "start_unwind" absent.startUnwind
    stopUnwind := turn "stop_unwind" absent.stopUnwind
    startRewind := turn "start_rewind" absent.startRewind
    stopRewind := turn "stop_rewind" absent.stopRewind }

end Turns

namespace Getter

def ofJson? (absent : Getter) (v : Json) : Option Getter := do
  let script ← Script.ofJson? (v.field "ops")
  return ⟨((v.get? "ptr").map wordOf).getD absent.ptr, script⟩

end Getter

namespace Machine

/-- An import named in full, or by its name within the host's own module. -/
def foreignName : Json → Option String
  | .str name =>
      some (if (name.splitOn "::").length = 1 then s!"host_unstable::{name}" else name)
  | .bool true => some "host_unstable::print"
  | _ => none

def ofJson? (v : Json) : Option Machine := do
  let absent : Machine := {}
  let pages := ((v.get? "pages").bind fun n => n.asInt?.map Int.toNat).getD absent.pages
  if Memory.pageLimit < pages then none
  let start ← Script.ofJson? (v.field "start")
  let setup ← Script.ofJson? (v.field "setup")
  let teardown ← Script.ofJson? (v.field "teardown")
  let clear ← Script.ofJson? (v.field "clear")
  let performs ← (v.field "perform").asItems.mapM Script.ofJson?
  let metrics ← absent.metrics.ofJson? (v.field "metrics")
  let dump ← absent.dump.ofJson? (v.field "dump")
  return {
    pages, start, setup, teardown, clear, performs, metrics, dump
    data := (v.field "data").asItems.map fun d =>
      ((wordOf (d.field "at")).toNat, bytes (d.field "data"))
    turns := .ofJson (v.field "asyncify")
    absent := (v.field "omit").asItems.filterMap Json.asString?
    foreign := foreignName (v.field "extra_import") }

end Machine

def mark : ByteArray := ⟨#[0, 115, 99, 114]⟩

def encodeImage (v : Json) : ByteArray := mark ++ v.bytes

def compile (image : ByteArray) : Option (Core Registers) :=
  if image.extract 0 mark.size == mark then
    match Json.ofBytes (image.extract mark.size image.size).toList with
    | .ok v => (Machine.ofJson? v).map Machine.core
    | .error _ => none
  else none

end Resumable.Scripted
