import Resumable.Host.Import

namespace Resumable

namespace Arena

def segments : List UInt8 → List (List UInt8)
  | [] => [[]]
  | b :: rest =>
      if b = 0 then [] :: segments rest
      else
        match segments rest with
        | [] => [[b]]
        | s :: more => (b :: s) :: more

def textOf? (bytes : List UInt8) : Option String := String.fromUTF8? ⟨bytes.toArray⟩

def events (bytes : List UInt8) : List String :=
  ((segments bytes).filter (!·.isEmpty)).filterMap textOf?

def wordAt (descriptor : ByteArray) (index : Nat) : Nat :=
  let byte (k : Nat) : Nat := (descriptor.data.getD (4 * index + k) 0).toNat
  byte 0 + 256 * byte 1 + 65536 * byte 2 + 16777216 * byte 3

/-- The bytes of one range; an empty one is not looked at. -/
def readRange (m : Memory) (start length : Nat) : Except ArenaError ByteArray :=
  if length = 0 then .ok .empty
  else
    match m.read? start length with
    | some bytes => .ok bytes
    | none => .error (.rangeOutside start length)

def read (m : Memory) (ptr : UInt32) : Except ArenaError (List String) :=
  match m.read? ptr.toNat 16 with
  | none => .error .descriptorOutside
  | some d => do
      let first ← readRange m (wordAt d 0) (wordAt d 1)
      let second ← readRange m (wordAt d 2) (wordAt d 3)
      return events (first ++ second).toList

end Arena

namespace Instance

variable {G : Type}

/-- The pending metrics. The getter runs outside the bridge. -/
def readMetrics : Live G (List String) := do
  let ptr ← invoke fun x s => x.getMetrics s
  match Arena.read (← Act.read fun i => i.core.memory) ptr with
  | .ok events => return events
  | .error e => Act.fail (.metricsArena e)

def clearMetrics : Live G Unit := invoke fun x s => x.clearMetrics s

def readDeveloperDump : Live G (List String) := do
  let ptr ← invoke fun x s => x.getDeveloperDump s
  match Arena.read (← Act.read fun i => i.core.memory) ptr with
  | .ok events => return events
  | .error e => Act.fail (.dumpArena e)

/-- Bring the core back to the normal state after a failed call, as far as it
lets itself be. -/
def abandonSuspension : Live G Unit := do
  match ← control.state with
  | .unwinding => control.stopUnwind
  | .rewinding => control.stopRewind
  | .normal => return ()

end Instance

end Resumable
