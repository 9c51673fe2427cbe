import Resumable.Host.Arena

/-!
# Calls into an instance

Between two suspensions an instance runs without waiting; the effects it caused are
passed on before anything else is asked for. `serve` carries out the operation that a
suspended call waits for, `call` runs an export to its end, and `act` runs a step that
never waits.
-/

namespace Resumable

namespace HostState

def emitAll : List Effect → Task Unit
  | [] => .done ()
  | e :: rest => .ask (.emit e) fun _ => emitAll rest

def flush (h : HostState) : Task HostState := do
  emitAll h.outbox.reverse
  return { h with outbox := [] }

end HostState

namespace Stream

/-- Read from a stream. Reading a body may ask its source for up to `fuel` chunks. -/
def read (fuel max : Nat) : Stream → Task (Except Errno ByteArray × Stream)
  | .file id => do
      let result ← Task.request (.readFile id max)
      return (result, .file id)
  | .body reader => do
      let pull (source : Nat) : Task (Pull × Nat) := do
        let item ← Task.request (.pullBody source)
        return (item, source)
      let (result, reader) ← Task.ofOption (← reader.read pull fuel max)
      return (result, .body reader)

def write (bytes : ByteArray) : Stream → Task (Except Errno Nat)
  | .file id => Task.request (.writeFile id bytes)
  | .body reader => return (reader.write bytes).1

def close : Stream → Task (Except Errno Unit)
  | .file id => Task.request (.closeFile id)
  | .body reader => return reader.close.1

end Stream

namespace Deferred

/-- Carry out an operation. A stream that was read is put back as it is now. -/
def serve (fuel : Nat) (h : HostState) : Deferred → Task (Resolved × HostState)
  | .openFile path flags => do
      let result ← Task.request (.openFile path flags)
      return (.message (.fileOpened result), h)
  | .head ticket => do
      let result ← Task.request (.response ticket)
      return (.message (.httpHead result), h)
  | .read handle stream max => do
      let (result, stream) ← stream.read fuel max
      return (.read result,
        { h with streams := h.streams.modify handle fun _ => stream })
  | .write stream bytes => do
      let result ← stream.write bytes
      return (.write result, h)
  | .close stream => do
      let result ← stream.close
      return (.close result, h)

end Deferred

namespace Instance

variable {G α : Type}

def flush (i : Instance G) : Task (Instance G) := do
  let host ← i.host.flush
  return { i with host := host }

def act (step : Live G α) (i : Instance G) :
    Task (Except CallError α × Instance G) := do
  let (result, i) := step.on i
  return (result, ← i.flush)

def await (fuel : Nat) (operation : Deferred) (i : Instance G) :
    Task (Resolved × Instance G) := do
  let h ← i.host.flush
  let (value, h) ← operation.serve fuel h
  return (value, { i with host := h })

/-- Run an export to its end, through at most `fuel` suspensions. -/
def call (fuel : Nat) (entry : Exports G → CoreState G → Activation G Unit)
    (i : Instance G) : Task (Except CallError Unit × Instance G) := do
  let (result, i) ← Task.ofOption (← control.run (invoke entry) (await fuel) fuel i)
  return (result, ← i.flush)

def setup (fuel : Nat) (i : Instance G) : Task (Except CallError Unit × Instance G) :=
  i.call fuel fun x s => x.setup s

def teardown (fuel : Nat) (i : Instance G) :
    Task (Except CallError Unit × Instance G) :=
  i.call fuel fun x s => x.teardown s

/-- Run one use case. The perform in progress is over when the export is,
however it ends. -/
def perform (fuel : Nat) (request : PerformRequest) (i : Instance G) :
    Task (Except CallError PerformState × Instance G) := do
  let i := { i with host := { i.host with perform := some { request } } }
  let (result, i) ← i.call fuel fun x s => x.perform s
  let finished := i.host.perform
  let i := { i with host := { i.host with perform := none } }
  match result, finished with
  | .error e, _ => return (.error e, i)
  | .ok (), some state => return (.ok state, i)
  | .ok (), none => return (.error (.other .performLost), i)

def suspensions (i : Instance G) : Nat := i.host.bridge.suspensions

def release (i : Instance G) : Instance G := { i with host := i.host.release.2 }

end Instance

namespace Activation

variable {G R : Type}

/-- Run what a core runs by itself before it is bound to the host. It cannot
call an import. -/
def alone : Activation G R → List Remark × Except Fault (CoreState G)
  | .finish state _ => ([], .ok state)
  | .trap _ cause => ([], .error (.trap cause))
  | .call _ _ _ => ([], .error .unbound)
  | .remark line rest =>
      let (lines, result) := rest.alone
      (line :: lines, result)

end Activation

namespace Core

variable {G : Type}

/-- Bring a core to life: lay out its memory, run what it starts with, then look up
its exports. -/
def instantiate (c : Core G) (config : RuntimeConfig) :
    Task (Except InstantiateError (Instance G)) := do
  match c.create with
  | .error e => return .error (.link e)
  | .ok fresh =>
      let (lines, started) : List Remark × Except Fault (CoreState G) :=
        match c.start with
        | none => ([], .ok fresh)
        | some start => (start fresh).alone
      HostState.emitAll (lines.map .remark)
      match started, c.exports with
      | .error fault, _ => return .error (.start (.other fault))
      | .ok _, .error e => return .error (.exports e)
      | .ok state, .ok exports => return .ok ⟨state, exports, .ofConfig config⟩

end Core

end Resumable
