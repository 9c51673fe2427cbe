/-!
# The suspension bridge

A core cannot pause, so a host call that has to wait unwinds the core's stack. The
bridge is the one slot in which the awaited operation is parked, and later its value
is left for the call that is resumed.

`hostCall` runs one host call, `enter` and `resume` run an export until it is finished
or waits. Core and host state are one state `σ`, reached through a `Control`; `F` is
an operation to be awaited, `V` what it comes to, `E` what else may go wrong. `drive`
awaits and resumes until the export is finished.
-/

namespace Resumable

inductive SuspendState where
  | normal
  | unwinding
  | rewinding
  deriving DecidableEq, Repr

namespace SuspendState

def name : SuspendState → String
  | .normal => "Normal"
  | .unwinding => "Unwinding"
  | .rewinding => "Rewinding"

def ofRaw? (raw : Int32) : Option SuspendState :=
  if raw = 0 then some .normal
  else if raw = 1 then some .unwinding
  else if raw = 2 then some .rewinding
  else none

end SuspendState

/-- A departure from the cycle normal, unwinding, normal, rewinding, normal. -/
inductive Violation where
  | unknownState (raw : Int32)
  | notNormalAtEntry (state : SuspendState)
  | unwindingAtHostCall
  | overlappingSuspension
  | nothingInFlight
  | nothingResolved
  | resolvedMismatch
  | notNormalAfterUnwind (state : SuspendState)
  | returnedWhileRewinding
  | pendingLeftBehind
  deriving DecidableEq, Repr

namespace Violation

def message : Violation → String
  | .unknownState raw => s!"core reported unknown asyncify state {raw.toInt}"
  | .notNormalAtEntry state => s!"export entered while {state.name}"
  | .unwindingAtHostCall => "host call made while the core is unwinding"
  | .overlappingSuspension => "host call suspended while another operation is pending"
  | .nothingInFlight => "core unwound without a pending host operation"
  | .nothingResolved => "rewind reached a host call with no resolved value"
  | .resolvedMismatch => "resolved value does not belong to the resuming host call"
  | .notNormalAfterUnwind state => s!"state is {state.name} after stopping the unwind"
  | .returnedWhileRewinding => "export returned while still rewinding"
  | .pendingLeftBehind => "export returned with a host operation still pending"

end Violation

inductive Failure (E : Type) where
  | violation (v : Violation)
  | other (e : E)

inductive Pending (F V : Type) where
  | inFlight (operation : F)
  | resolved (value : V)

/-- The slot, and how many suspensions it has served. -/
structure Bridge (F V : Type) where
  pending : Option (Pending F V)
  suspensions : Nat

/-- A step on the state that may fail; what it did to the state before it
failed stays. -/
abbrev Act (σ E α : Type) := ExceptT (Failure E) (StateM σ) α

/-- The core's asyncify controls and the slot of its instance. -/
structure Control (σ E F V : Type) where
  rawState : Act σ E Int32
  startUnwind : Act σ E Unit
  stopUnwind : Act σ E Unit
  startRewind : Act σ E Unit
  stopRewind : Act σ E Unit
  /-- Write the header of a fresh unwind buffer. -/
  resetData : Act σ E Unit
  getBridge : σ → Bridge F V
  setBridge : Bridge F V → σ → σ

/-- The first half of a host call: an answer, or an operation to await. -/
inductive HostStep (R F : Type) where
  | ready (answer : R)
  | suspend (operation : F)

/-- An export so far: it has returned, or it waits. -/
inductive Progress (R F : Type) where
  | returned (value : R)
  | waiting (operation : F)

namespace Act

variable {σ E α : Type}

def violate (v : Violation) : Act σ E α := throw (.violation v)

def fail (e : E) : Act σ E α := throw (.other e)

def modify (f : σ → σ) : Act σ E Unit := fun s => (.ok (), f s)

def read (f : σ → α) : Act σ E α := fun s => (.ok (f s), s)

def on (a : Act σ E α) (s : σ) : Except (Failure E) α × σ :=
  StateT.run (ExceptT.run a) s

end Act

namespace Bridge

variable {F V : Type}

def idle : Bridge F V := ⟨none, 0⟩

def isIdle (b : Bridge F V) : Bool := b.pending.isNone

def park? (b : Bridge F V) (operation : F) : Option (Bridge F V) :=
  match b.pending with
  | none => some { b with pending := some (.inFlight operation) }
  | some _ => none

/-- Take a parked operation; a resolved value stays. -/
def takeInFlight? (b : Bridge F V) : Option (F × Bridge F V) :=
  match b.pending with
  | some (.inFlight operation) => some (operation, { b with pending := none })
  | _ => none

def resolve (b : Bridge F V) (value : V) : Bridge F V :=
  ⟨some (.resolved value), b.suspensions + 1⟩

/-- Take a resolved value; a parked operation stays. -/
def takeResolved? (b : Bridge F V) : Option (V × Bridge F V) :=
  match b.pending with
  | some (.resolved value) => some (value, { b with pending := none })
  | _ => none

def clear (b : Bridge F V) : Bridge F V := { b with pending := none }

def describe (b : Bridge F V) : String :=
  match b.pending with
  | none => "idle"
  | some (.inFlight _) => "in-flight"
  | some (.resolved _) => "resolved"

end Bridge

namespace Control

variable {σ E F V R : Type}

def state (c : Control σ E F V) : Act σ E SuspendState := do
  let raw ← c.rawState
  match SuspendState.ofRaw? raw with
  | some s => return s
  | none => Act.violate (.unknownState raw)

def isIdle (c : Control σ E F V) : Act σ E Bool :=
  Act.read fun s => (c.getBridge s).isIdle

def park (c : Control σ E F V) (operation : F) : Act σ E Unit := do
  match (← Act.read c.getBridge).park? operation with
  | some b => Act.modify (c.setBridge b)
  | none => Act.violate .overlappingSuspension

def takeInFlight (c : Control σ E F V) : Act σ E F := do
  match (← Act.read c.getBridge).takeInFlight? with
  | some (operation, b) =>
      Act.modify (c.setBridge b)
      return operation
  | none => Act.violate .nothingInFlight

def takeResolved (c : Control σ E F V) : Act σ E V := do
  match (← Act.read c.getBridge).takeResolved? with
  | some (value, b) =>
      Act.modify (c.setBridge b)
      return value
  | none => Act.violate .nothingResolved

def resolve (c : Control σ E F V) (value : V) : Act σ E Unit :=
  Act.modify fun s => c.setBridge ((c.getBridge s).resolve value) s

/-- Run one host call. In the normal state it starts: an operation to await is parked,
the core is told to unwind, and a placeholder is answered. While rewinding, the
resolved value is finished instead. -/
def hostCall (c : Control σ E F V) (placeholder : R) (start : Act σ E (HostStep R F))
    (finish : V → Act σ E R) : Act σ E R := do
  match ← c.state with
  | .normal =>
      match ← start with
      | .ready answer => return answer
      | .suspend operation =>
          c.park operation
          c.startUnwind
          return placeholder
  | .rewinding =>
      let value ← c.takeResolved
      c.stopRewind
      finish value
  | .unwinding => Act.violate .unwindingAtHostCall

/-- Invoke an export and see how it came back. -/
def settle (c : Control σ E F V) (invoke : Act σ E R) : Act σ E (Progress R F) := do
  let value ← invoke
  match ← c.state with
  | .normal =>
      if ← c.isIdle then return .returned value else Act.violate .pendingLeftBehind
  | .unwinding =>
      c.stopUnwind
      let operation ← c.takeInFlight
      return .waiting operation
  | .rewinding => Act.violate .returnedWhileRewinding

def enter (c : Control σ E F V) (invoke : Act σ E R) : Act σ E (Progress R F) := do
  let s ← c.state
  if s ≠ .normal then Act.violate (.notNormalAtEntry s)
  if !(← c.isIdle) then Act.violate .pendingLeftBehind
  c.resetData
  c.settle invoke

/-- Go on with an export whose operation came to `value`. -/
def resume (c : Control σ E F V) (invoke : Act σ E R) (value : V) :
    Act σ E (Progress R F) := do
  let s ← c.state
  if s ≠ .normal then Act.violate (.notNormalAfterUnwind s)
  c.resolve value
  c.startRewind
  c.settle invoke

/-- Await and resume until the export has returned or failed. `none` means that it
waits again after `fuel` resumptions. -/
def drive {m : Type → Type} [Monad m] (c : Control σ E F V) (invoke : Act σ E R)
    (await : F → σ → m (V × σ)) :
    Nat → Except (Failure E) (Progress R F) × σ → m (Option (Except (Failure E) R × σ))
  | _, (.error e, s) => pure (some (.error e, s))
  | _, (.ok (.returned value), s) => pure (some (.ok value, s))
  | 0, (.ok (.waiting _), _) => pure none
  | fuel + 1, (.ok (.waiting operation), s) => do
      let (value, s) ← await operation s
      drive c invoke await fuel ((c.resume invoke value).on s)

/-- Run an export, serving every suspension it makes. -/
def run {m : Type → Type} [Monad m] (c : Control σ E F V) (invoke : Act σ E R)
    (await : F → σ → m (V × σ)) (fuel : Nat) (s : σ) :
    m (Option (Except (Failure E) R × σ)) :=
  c.drive invoke await fuel ((c.enter invoke).on s)

end Control

end Resumable
