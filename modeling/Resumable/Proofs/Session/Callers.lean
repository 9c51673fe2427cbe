import Resumable.Gate.Basic
import Resumable.Proofs.Host.Requests
import Resumable.Proofs.Service.Progress
import Resumable.Proofs.Session.Steps

namespace Resumable

inductive Call where
  | carry (operation : Setup.Operation)
  | lifecycle
  | suspensions

inductive Reply where
  | carried (answer : Setup.Answer)
  | lifecycle (lifecycle : Lifecycle)
  | suspensions (count : Nat)

/-- What a call comes to before the gate: an answer, or work that needs the slot. -/
inductive Approach (G : Type) where
  | answered (reply : Reply)
  | gated (work : Slot G → Task (Reply × Slot G))

def Approach.goOn {G : Type} : Approach G → Slot G → Task (Reply × Slot G)
  | .answered reply, s => return (reply, s)
  | .gated work, s => work s

namespace Setup

variable {G : Type}

def serve (setup : Setup G) : Call → Slot G → Task (Reply × Slot G)
  | .carry operation, s => do
      let (answer, s) ← setup.carryOut operation s
      return (.carried answer, s)
  | .lifecycle, s => return (.lifecycle s.lifecycle, s)
  | .suspensions, s => return (.suspensions s.suspensions, s)

def approachLoad (setup : Setup G) (bytes : ByteArray) : Approach G :=
  match setup.compileCore bytes with
  | .error e => .answered (.carried (.loaded (.error e)))
  | .ok core =>
      .gated fun s => return (.carried (.loaded (s.install core).1), (s.install core).2)

def approachPerform (setup : Setup G) (request : PerformRequest) : Approach G :=
  match request.firstBlank? with
  | some field => .answered (.carried (.performed
      (.error (.validation "PerformRequestValidationError"
        s!"{field} must not be empty"))))
  | none => .gated (setup.serve (.carry (.perform request)))

def approach (setup : Setup G) : Call → Task (Approach G)
  | .carry (.load bytes) => return setup.approachLoad bytes
  | .carry (.loadFrom path) => do
      match ← readFile setup.fuel path with
      | .error e => return .answered (.carried (.loaded (.error e)))
      | .ok bytes => return setup.approachLoad bytes
  | .carry (.perform request) => return setup.approachPerform request
  | call => return .gated (setup.serve call)

theorem goOn_approachLoad (setup : Setup G) (bytes : ByteArray) (s : Slot G) :
    (setup.approachLoad bytes).goOn s =
      return (.carried (.loaded (setup.load bytes s).1), (setup.load bytes s).2) := by
  unfold approachLoad load
  cases setup.compileCore bytes <;> rfl

theorem goOn_approachPerform (setup : Setup G) (request : PerformRequest) (s : Slot G) :
    (setup.approachPerform request).goOn s =
    setup.serve (.carry (.perform request)) s := by
  unfold approachPerform
  rcases hblank : request.firstBlank? with _ | field
  · rfl
  · simp only [serve, carryOut, perform_of_blank hblank]
    rfl

/-- A call is what it does before the gate, and what it then does with the slot. -/
theorem serve_eq_approach (setup : Setup G) (call : Call) (s : Slot G) :
    setup.serve call s = setup.approach call >>= fun approach => approach.goOn s := by
  cases call with
  | lifecycle | suspensions => rfl
  | carry operation =>
      cases operation with
      | init | destroy | fire => rfl
      | load bytes => exact (setup.goOn_approachLoad bytes s).symm
      | perform request => exact (setup.goOn_approachPerform request s).symm
      -- Here the file is read before the gate, so the binds have to be taken
      -- apart to meet.
      | loadFrom path =>
          change ((Task.bind (Task.bind _ _) _).bind _) = Task.bind (Task.bind _ _) _
          rw [Task.bind_assoc, Task.bind_assoc, Task.bind_assoc]
          refine congrArg _ (funext fun read => ?_)
          cases read with
          | error e => rfl
          | ok bytes => exact (setup.goOn_approachLoad bytes s).symm

theorem outward_approach (setup : Setup G) (call : Call) :
    (setup.approach call).Outward := by
  cases call with
  | lifecycle | suspensions => exact Task.only_pure _
  | carry operation =>
      cases operation with
      | load | init | perform | destroy | fire => exact Task.only_pure _
      | loadFrom path =>
          refine (outward_readFile setup.fuel path).bind fun read => ?_
          cases read <;> exact Task.only_pure _

end Setup

inductive Stage (G : Type) where
  | approaching (task : Task (Approach G))
  | lining (work : Slot G → Task (Reply × Slot G))
  | inside (task : Task (Reply × Slot G))
  | answered (reply : Reply)
  | gone

structure Caller (G : Type) where
  call : Call
  stage : Stage G

structure Callers (G : Type) where
  gate : Gate Nat
  slot : Slot G
  callers : Nat → Option (Caller G)

/-- What happens among callers. `approached` are exchanges before the gate,
`exchanged` those inside. -/
inductive Occurrence where
  | called (id : Nat) (call : Call)
  | approached (id : Nat) (e : Exchange)
  | refused (id : Nat) (reply : Reply)
  | arrived (id : Nat)
  | entered (id : Nat)
  | exchanged (id : Nat) (e : Exchange)
  | left (id : Nat) (reply : Reply)
  | gaveUp (id : Nat)

namespace Callers

variable {G : Type}

def new : Callers G := ⟨.idle, .empty, fun _ => none⟩

def put (c : Callers G) (id : Nat) (call : Call) (stage : Stage G) : Callers G :=
  { c with callers := fun n => if n = id then some ⟨call, stage⟩ else c.callers n }

/-- One caller makes a step. A pending one is polled, and may be polled in vain. -/
inductive Step (setup : Setup G) (c : Callers G) :
    List Occurrence → Callers G → Prop where
  | called {id : Nat} (hnew : c.callers id = none) (call : Call) :
      Step setup c [.called id call]
        (c.put id call (.approaching (setup.approach call)))
  | approached {id : Nat} {call : Call} {r : Request}
      {k : r.Response → Task (Approach G)}
      (h : c.callers id = some ⟨call, .approaching (.ask r k)⟩)
      (answer : r.Response) :
      Step setup c [.approached id ⟨r, answer⟩]
        (c.put id call (.approaching (k answer)))
  | refused {id : Nat} {call : Call} {reply : Reply}
      (h : c.callers id = some ⟨call, .approaching (.done (.answered reply))⟩) :
      Step setup c [.refused id reply] (c.put id call (.answered reply))
  | walkedIn {id : Nat} {call : Call} {work : Slot G → Task (Reply × Slot G)}
      (h : c.callers id = some ⟨call, .approaching (.done (.gated work))⟩)
      (hfree : (c.gate.arrive id).holder = some id) :
      Step setup c [.arrived id, .entered id]
        { c.put id call (.inside (work c.slot)) with gate := c.gate.arrive id }
  | linedUp {id : Nat} {call : Call} {work : Slot G → Task (Reply × Slot G)}
      (h : c.callers id = some ⟨call, .approaching (.done (.gated work))⟩)
      (htaken : (c.gate.arrive id).holder ≠ some id) :
      Step setup c [.arrived id]
        { c.put id call (.lining work) with gate := c.gate.arrive id }
  | entered {id : Nat} {call : Call} {work : Slot G → Task (Reply × Slot G)}
      (h : c.callers id = some ⟨call, .lining work⟩)
      (hfree : (c.gate.poll id).holder = some id) :
      Step setup c [.entered id]
        { c.put id call (.inside (work c.slot)) with gate := c.gate.poll id }
  | polled {id : Nat} {call : Call} {work : Slot G → Task (Reply × Slot G)}
      (h : c.callers id = some ⟨call, .lining work⟩)
      (htaken : (c.gate.poll id).holder ≠ some id) :
      Step setup c [] { c with gate := c.gate.poll id }
  | exchanged {id : Nat} {call : Call} {r : Request}
      {k : r.Response → Task (Reply × Slot G)}
      (h : c.callers id = some ⟨call, .inside (.ask r k)⟩) (answer : r.Response) :
      Step setup c [.exchanged id ⟨r, answer⟩] (c.put id call (.inside (k answer)))
  | left {id : Nat} {call : Call} {reply : Reply} {s : Slot G}
      (h : c.callers id = some ⟨call, .inside (.done (reply, s))⟩) :
      Step setup c [.left id reply]
        { c.put id call (.answered reply) with slot := s, gate := c.gate.release }
  | gaveUp {id : Nat} {call : Call} {work : Slot G → Task (Reply × Slot G)}
      (h : c.callers id = some ⟨call, .lining work⟩) :
      Step setup c [.gaveUp id] { c.put id call .gone with gate := c.gate.abandon id }

end Callers

/-- What may become of a session and its callers, with all that has happened. -/
inductive Setup.Shared {G : Type} (setup : Setup G) :
    List Occurrence → Callers G → Prop where
  | start : Shared setup [] .new
  | step {past more : List Occurrence} {c c' : Callers G} (h : Shared setup past c)
      (hstep : c.Step setup more c') : Shared setup (past ++ more) c'

end Resumable
