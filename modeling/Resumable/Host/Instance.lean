import Resumable.Host.Dispatch
import Resumable.Host.Fault

namespace Resumable

structure Instance (G : Type) where
  core : CoreState G
  exports : Exports G
  host : HostState

abbrev Live (G α : Type) := Act (Instance G) Fault α

namespace Live

variable {G α : Type}

def control (call : Exports G → CoreState G → Except Trap α × CoreState G) :
    Live G α := fun i =>
  let (result, core) := call i.exports i.core
  let result : Except CallError α :=
    match result with
    | .ok value => .ok value
    | .error trap => .error (.other (.trap trap))
  (result, { i with core := core })

def host (f : HostState → α × HostState) : Live G α := fun i =>
  let (value, h) := f i.host
  (.ok value, { i with host := h })

def config : Live G RuntimeConfig := Act.read fun i => i.host.config

def readMemory? (ptr len : UInt32) : Live G (Option ByteArray) :=
  Act.read fun i => i.core.memory.read? ptr.toNat len.toNat

/-- Copy bytes into the core's memory; whether the range was accepted. -/
def writeMemory (ptr : UInt32) (bytes : ByteArray) : Live G Bool := fun i =>
  match i.core.memory.write? ptr.toNat bytes with
  | some memory => (.ok true, { i with core := { i.core with memory := memory } })
  | none => (.ok false, i)

def ofAbi (r : Except AbiError UInt64) : Live G UInt64 :=
  match r with
  | .ok word => return word
  | .error e => Act.fail (.abi e)

end Live

namespace Instance

variable {G R : Type}

def control : Control (Instance G) Fault Deferred Resolved where
  rawState := Live.control fun x s => x.getState s
  startUnwind := do
    let c ← Live.config
    Live.control fun x s => x.startUnwind c.asyncifyDataAddr s
  stopUnwind := Live.control fun x s => x.stopUnwind s
  startRewind := do
    let c ← Live.config
    Live.control fun x s => x.startRewind c.asyncifyDataAddr s
  stopRewind := Live.control fun x s => x.stopRewind s
  resetData := do
    let c ← Live.config
    if !(← Live.writeMemory c.asyncifyDataAddr c.header) then Act.fail .headerOutside
  getBridge := fun i => i.host.bridge
  setBridge := fun b i => { i with host := { i.host with bridge := b } }

/-- Run an activation. Between calls its state is the instance's. -/
def run (imports : ImportCall → Live G UInt64) : Activation G R → Live G R
  | .finish core value => do
      Act.modify fun i => { i with core := core }
      return value
  | .trap core trap => do
      Act.modify fun i => { i with core := core }
      Act.fail (.trap trap)
  | .call core request resume => do
      Act.modify fun i => { i with core := core }
      let word ← imports request
      let core ← Act.read Instance.core
      run imports (resume core word)
  | .remark line rest => do
      Act.modify fun i => { i with host := i.host.emit (.remark line) }
      run imports rest

end Instance

end Resumable
