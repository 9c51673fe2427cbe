import Resumable.Bridge.Basic

namespace Resumable.Scripted

inductive ControlRule where
  | sets (raw : Int32)
  | fails (message : String)

structure ControlRules where
  startUnwind : ControlRule := .sets 1
  stopUnwind : ControlRule := .sets 0
  startRewind : ControlRule := .sets 2
  stopRewind : ControlRule := .sets 0
  resetData : Option ControlRule := none

inductive HostAnswer where
  | ready
  | suspend
  | fail (message : String)

structure HostAct where
  answer : HostAnswer
  value : String
  finishFail : Option String
  rogue : Bool
  resume : Option Nat

inductive Act where
  | setState (raw : Int32)
  | fail (message : String)
  | clear
  | host (call : HostAct)

/-- The state that a scripted export and its controls work on. The journal is kept
last line first. -/
structure Stage where
  raw : Int32
  bridge : Bridge String String
  step : Nat
  journal : List String

namespace Stage

def ofRaw (raw : Int32) : Stage := ⟨raw, .idle, 0, []⟩

def log (line : String) : Resumable.Act Stage String Unit :=
  Resumable.Act.modify fun s => { s with journal := line :: s.journal }

def obey : ControlRule → Resumable.Act Stage String Unit
  | .sets raw => Resumable.Act.modify fun s => { s with raw := raw }
  | .fails message => Resumable.Act.fail message

def control (rules : ControlRules) : Control Stage String String String where
  rawState := do
    let raw ← Resumable.Act.read Stage.raw
    log s!"state={raw.toInt}"
    return raw
  startUnwind := do log "start_unwind"; obey rules.startUnwind
  stopUnwind := do log "stop_unwind"; obey rules.stopUnwind
  startRewind := do log "start_rewind"; obey rules.startRewind
  stopRewind := do log "stop_rewind"; obey rules.stopRewind
  resetData := do
    log "reset_data"
    match rules.resetData with
    | none => return ()
    | some rule => obey rule
  getBridge := Stage.bridge
  setBridge := fun b s => { s with bridge := b }

def setStep (step : Nat) : Resumable.Act Stage String Unit :=
  Resumable.Act.modify fun s => { s with step := step }

def call (rules : ControlRules) (index : Nat) (act : HostAct) :
    Resumable.Act Stage String String :=
  (control rules).hostCall "placeholder"
    (do
      log s!"start {index}"
      match act.answer with
      | .ready => return .ready act.value
      | .suspend => return .suspend act.value
      | .fail message => Resumable.Act.fail message)
    (fun value => do
      log s!"finish {index} {value}"
      match act.finishFail with
      | none => return value
      | some message => Resumable.Act.fail message)

/-- Play the acts behind the position reached. A host call that left the core
unwinding ends the invocation, unless the act is rogue. -/
def play (rules : ControlRules) :
    List (Nat × Act) → List String → Resumable.Act Stage String (List String)
  | [], values => return values.reverse
  | (index, act) :: rest, values => do
      match act with
      | .setState raw =>
          Resumable.Act.modify fun s => { s with raw := raw }
          setStep (index + 1)
          play rules rest values
      | .fail message => Resumable.Act.fail message
      | .clear =>
          Resumable.Act.modify fun s => { s with bridge := s.bridge.clear }
          setStep (index + 1)
          play rules rest values
      | .host h =>
          let value ← call rules index h
          let raw ← Resumable.Act.read Stage.raw
          if raw = 1 ∧ !h.rogue then
            setStep (h.resume.getD index)
            return ["unwound"]
          else
            setStep (index + 1)
            play rules rest (value :: values)

def invoke (rules : ControlRules) (script : List Act) :
    Resumable.Act Stage String (List String) := do
  log "invoke"
  let step ← Resumable.Act.read Stage.step
  play rules (((List.range script.length).zip script).drop step) []

def run (rules : ControlRules) (script : List Act) (fuel : Nat) (s : Stage) :
    Option (Except (Failure String) (List String) × Stage) :=
  (control rules).run (m := Id) (invoke rules script)
  (fun value s => pure (value, s)) fuel
    { s with step := 0, journal := [] }

end Stage

end Resumable.Scripted
