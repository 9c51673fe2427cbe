import Resumable.Gate.Basic

/-!
# Operations under the gate

An operation on the protected value pauses any number of times and ends with a result.
A caller is either still lining up, with the operation it wants to run if any, or
inside. Dropping a caller inside an operation leaves what it has done so far.
-/

namespace Resumable

inductive Operation (T R : Type) where
  | finish (act : T → R × T)
  | pause (act : T → T) (rest : Operation T R)

namespace Gate

inductive Caller (T R : Type) where
  | lining (operation : Option (Operation T R))
  | holding
  | inside (operation : Operation T R)

/-- A gate, the value behind it, and the callers by name. -/
structure Guarded (T R : Type) where
  gate : Gate String
  value : T
  callers : List (String × Caller T R)

inductive Polled (R : Type) where
  | held
  | pending
  | done (result : R)
  | alreadyHeld
  | unknown

namespace Guarded

variable {T R : Type}

def ofValue (value : T) : Guarded T R := ⟨.idle, value, []⟩

def caller? (g : Guarded T R) (id : String) : Option (Caller T R) :=
  (g.callers.find? (·.1 == id)).map (·.2)

def forget (g : Guarded T R) (id : String) : Guarded T R :=
  { g with callers := g.callers.filter (·.1 != id) }

def setCaller (g : Guarded T R) (id : String) (c : Caller T R) : Guarded T R :=
  { g with callers := (id, c) :: g.callers.filter (·.1 != id) }

/-- Run an operation to its next pause or its end; at the end the gate is let go. -/
def proceed (g : Guarded T R) (id : String) : Operation T R → Polled R × Guarded T R
  | .pause act rest =>
      (.pending, { g with value := act g.value }.setCaller id (.inside rest))
  | .finish act =>
      let (result, value) := act g.value
      (.done result, { g with value := value, gate := g.gate.release }.forget id)

def enter (g : Guarded T R) (id : String) (operation : Option (Operation T R)) :
    Polled R × Guarded T R :=
  if g.gate.holder = some id then
    match operation with
    | none => (.held, g.setCaller id .holding)
    | some operation => g.proceed id operation
  else (.pending, g.setCaller id (.lining operation))

def start (g : Guarded T R) (id : String) (operation : Option (Operation T R)) :
    Polled R × Guarded T R :=
  { g with gate := g.gate.arrive id }.enter id operation

def poll (g : Guarded T R) (id : String) : Polled R × Guarded T R :=
  match g.caller? id with
  | none => (.unknown, g)
  | some .holding => (.alreadyHeld, g)
  | some (.inside operation) => g.proceed id operation
  | some (.lining operation) => { g with gate := g.gate.poll id }.enter id operation

def read? (g : Guarded T R) (id : String) : Option T :=
  match g.caller? id with
  | some .holding => some g.value
  | _ => none

def modify? (g : Guarded T R) (id : String) (f : T → T) : Option (Guarded T R) :=
  match g.caller? id with
  | some .holding => some { g with value := f g.value }
  | _ => none

/-- Drop a caller: a guard or an operation lets go of the gate, a pending one
leaves the line. -/
def drop? (g : Guarded T R) (id : String) : Option (Guarded T R) :=
  match g.caller? id with
  | none => none
  | some (.lining _) => some ({ g with gate := g.gate.abandon id }.forget id)
  | some _ => some ({ g with gate := g.gate.release }.forget id)

end Guarded

end Gate

end Resumable
