import Resumable.Core.Activation

/-!
# Cores that follow scripts

A stand-in for an instrumented core. Each export is a list of steps; the position
reached in it survives an unwind, and a rewind passes over the steps that are done.
Every answer of an import is remarked on while the core is in its normal state, as are
the bytes that a script asks to see.
-/

namespace Resumable.Scripted

/-- Registers: the asyncify state, the position in the running script, the last
answer, and how many performs have begun. -/
structure Registers where
  state : Int32
  position : Nat
  last : UInt64
  performs : Nat

abbrev State := CoreState Registers

/-- A word, or the low 31 bits of the last answer. -/
inductive Operand where
  | word (w : UInt32)
  | last

inductive CallStep where
  | exchange (ptr len out outLen : Operand)
  | retrieve (handle out outLen : Operand)
  | read (handle out outLen : Operand)
  | write (handle ptr len : Operand)
  | close (handle : Operand)

/-- A rogue call goes on although the core is unwinding; another one returns and will
be resumed at `resume`, itself by default. -/
inductive Step where
  | call (target : CallStep) (rogue : Bool) (resume : Option Nat)
  | store (address : Operand) (data : ByteArray)
  | peek (address length : Operand)
  | wrap (front back : ByteArray) (source address : Operand)
  | grow (pages : Operand)
  | setState (raw : Int32)
  | trap
  | trapIf (address : Operand) (byte : UInt8)
  | leave

abbrev Script := List Step

namespace Operand

def value (r : Registers) : Operand → UInt32
  | .word w => w
  | .last => UInt32.ofNat (r.last.toNat % 2147483648)

end Operand

namespace CallStep

def request (r : Registers) : CallStep → ImportCall
  | .exchange ptr len out outLen =>
      .messageExchange (ptr.value r) (len.value r) (out.value r) (outLen.value r)
  | .retrieve handle out outLen =>
      .messageRetrieve (handle.value r) (out.value r) (outLen.value r)
  | .read handle out outLen =>
      .streamRead (handle.value r) (out.value r) (outLen.value r)
  | .write handle ptr len => .streamWrite (handle.value r) (ptr.value r) (len.value r)
  | .close handle => .streamClose (handle.value r)

end CallStep

namespace State

def seek (s : State) (position : Nat) : State :=
  { s with globals := { s.globals with position := position } }

def setLast (s : State) (w : UInt64) : State :=
  { s with globals := { s.globals with last := w } }

def setRaw (s : State) (raw : Int32) : State :=
  { s with globals := { s.globals with state := raw } }

def isNormal (s : State) : Bool := s.globals.state == 0

/-- Write bytes, or trap with the memory as it is. -/
def write? (s : State) (address : UInt32) (data : ByteArray) : Except Trap State :=
  match s.memory.write? address.toNat data with
  | some memory => .ok { s with memory := memory }
  | none => .error .outOfBounds

end State

/-- How a step that calls no import ends: with a new state and perhaps a remark, a
trap, or by leaving the script. -/
inductive Ended where
  | went (s : State) (remark : Option RemarkBody)
  | trapped (s : State) (cause : Trap)
  | left (s : State)

namespace Ended

def ofWrite (before : State) (r : Except Trap State) (next : State → Ended) : Ended :=
  match r with
  | .ok s => next s
  | .error cause => .trapped before cause

end Ended

/-- Put `front` and `back` around the bytes of the last answer's length,
piece by piece. -/
def wrapLast (front back : ByteArray) (source address : UInt32) (s : State) : Ended :=
  let length := Operand.last.value s.globals
  .ofWrite s (s.write? address front) fun s =>
    match s.memory.read? source.toNat length.toNat with
    | none => .trapped s .outOfBounds
    | some middle =>
        let address := address + UInt32.ofNat front.size
        .ofWrite s (s.write? address middle) fun s =>
          .ofWrite s (s.write? (address + length) back) fun s =>
            .went (s.setLast (UInt64.ofNat (front.size + length.toNat + back.size)))
              none

def Step.apply (s : State) : Step → Ended
  | .call _ _ _ => .went s none
  | .store address data =>
      .ofWrite s (s.write? (address.value s.globals) data) fun s => .went s none
  | .peek address length =>
      match s.memory.read? (address.value s.globals).toNat
        (length.value s.globals).toNat with
      | none => .trapped s .unreachable
      | some seen => .went s (some (.bytes seen))
  | .wrap front back source address =>
      wrapLast front back (source.value s.globals) (address.value s.globals) s
  | .grow pages =>
      match s.memory.grow? (pages.value s.globals).toNat with
      | some memory =>
          let before := UInt64.ofNat s.memory.pages
          let grown : State := { s with memory := memory }
          .went (grown.setLast before) (some (.word before))
      | none => .went (s.setLast 4294967295) (some (.word 4294967295))
  | .setState raw => .went (s.setRaw raw) none
  | .trap => .trapped s .unreachable
  | .trapIf address byte =>
      match s.memory.read? (address.value s.globals).toNat 1 with
      | none => .trapped s .outOfBounds
      | some seen =>
          if seen.data.getD 0 0 = byte then .trapped s .unreachable else .went s none
  | .leave => .left s

/-- Remark on something, in the normal state only. -/
def remarkWhenNormal {R : Type} (label : String) (body : RemarkBody) (s : State)
    (rest : Activation Registers R) : Activation Registers R :=
  if s.isNormal then .remark ⟨label, body⟩ rest else rest

/-- Run the steps that are not done yet, then answer `value`. -/
def runSteps {R : Type} (name : String) (value : R) :
    List (Step × Nat) → State → Activation Registers R
  | [], s => .finish s value
  | (step, i) :: rest, s =>
      if i < s.globals.position then runSteps name value rest s
      else
        let s := s.seek i
        match step with
        | .call target rogue resume =>
            .call s (target.request s.globals) fun (s : State) answer =>
              if s.globals.state == 1 &&
                !rogue then .finish (s.seek (resume.getD i)) value
              else
                remarkWhenNormal s!"{name}:{i}" (.word answer) s
                  (runSteps name value rest ((s.setLast answer).seek (i + 1)))
        | other =>
            match other.apply s with
            | .trapped s cause => .trap s cause
            | .left s => .finish s value
            | .went after none => runSteps name value rest (after.seek (i + 1))
            | .went after (some body) =>
                remarkWhenNormal s!"{name}:{i}" body after
                  (runSteps name value rest (after.seek (i + 1)))

/-- Run a script from its start, or in another state from where it was left. -/
def runScript {R : Type} (name : String) (script : Script) (value : R) (s : State) :
    Activation Registers R :=
  runSteps name value script.zipIdx (if s.isNormal then s.seek 0 else s)

inductive Turn where
  | sets (raw : Int32)
  | traps

structure Turns where
  initial : Int32 := 0
  startUnwind : Turn := .sets 1
  stopUnwind : Turn := .sets 0
  startRewind : Turn := .sets 2
  stopRewind : Turn := .sets 0

def Turn.take (s : State) : Turn → Except Trap Unit × State
  | .sets raw => (.ok (), s.setRaw raw)
  | .traps => (.error .unreachable, s)

structure Getter where
  ptr : UInt32
  script : Script

/-- A scripted core. `absent` names exports that it lacks, `foreign` an import that
the host lacks. -/
structure Machine where
  pages : Nat := 1
  data : List (Nat × ByteArray) := []
  start : Script := []
  setup : Script := []
  teardown : Script := []
  clear : Script := []
  performs : List Script := []
  metrics : Getter := ⟨1024, []⟩
  dump : Getter := ⟨1040, []⟩
  turns : Turns := {}
  absent : List String := []
  foreign : Option String := none

namespace Machine

def layOut : List (Nat × ByteArray) → Memory → Option Memory
  | [], m => some m
  | (address, data) :: rest, m => (m.write? address data).bind (layOut rest)

def create (m : Machine) : Except LinkError State :=
  match m.foreign with
  | some name => .error (.unknownImport name)
  | none =>
      match layOut m.data (.ofPages m.pages) with
      | none => .error .dataOutside
      | some memory => .ok ⟨memory, ⟨m.turns.initial, 0, 0, 0⟩⟩

/-- The script of a perform that begins or goes on; the last one is used
from then on. -/
def runPerform (m : Machine) (s : State) : Activation Registers Unit :=
  let performs := if s.isNormal then s.globals.performs + 1 else s.globals.performs
  let s : State := { s with globals := { s.globals with performs := performs } }
  let index := min performs m.performs.length - 1
  match m.performs[index]? with
  | none => .finish s ()
  | some script => runScript s!"perform{index}" script () s

def exports (m : Machine) : Exports Registers where
  getState := fun s => (.ok s.globals.state, s)
  startUnwind := fun _ s => m.turns.startUnwind.take s
  stopUnwind := fun s => m.turns.stopUnwind.take s
  startRewind := fun _ s => m.turns.startRewind.take s
  stopRewind := fun s => m.turns.stopRewind.take s
  setup := runScript "setup" m.setup ()
  teardown := runScript "teardown" m.teardown ()
  perform := m.runPerform
  getMetrics := runScript "metrics" m.metrics.script m.metrics.ptr
  clearMetrics := runScript "clear" m.clear ()
  getDeveloperDump := runScript "dump" m.dump.script m.dump.ptr

/-- The exports of a core, in the order in which they are looked up. -/
def exportNames : List String :=
  [ "memory", "asyncify_get_state", "asyncify_start_unwind", "asyncify_stop_unwind"
  , "asyncify_start_rewind", "asyncify_stop_rewind", "core_setup", "core_teardown",
    "core_perform"
  , "core_get_metrics", "core_clear_metrics", "core_get_developer_dump" ]

def core (m : Machine) : Core Registers where
  create := m.create
  start := if m.start.isEmpty then none else some (runScript "start" m.start ())
  exports :=
    match exportNames.find? m.absent.contains with
    | none => .ok m.exports
    | some "memory" => .error .noMemory
    | some name => .error (.noFunction name)

end Machine

end Resumable.Scripted
