namespace Resumable

structure Gate (Id : Type) where
  holder : Option Id
  promised : Option Id
  line : List Id
  waiting : Nat

namespace Gate

variable {Id : Type} [DecidableEq Id]

def idle : Gate Id := ⟨none, none, [], 0⟩

def isHeld (g : Gate Id) : Bool := g.holder.isSome

/-- The first poll of a caller: take a free gate, else join the line. -/
def arrive (g : Gate Id) (id : Id) : Gate Id :=
  if g.holder.isNone ∧ g.promised.isNone then { g with holder := some id }
  else { g with line := g.line ++ [id], waiting := g.waiting + 1 }

/-- A later poll of a pending caller: take the gate if it is promised to this one. -/
def poll (g : Gate Id) (id : Id) : Gate Id :=
  if g.promised = some id then
    { g with holder := some id, promised := none, waiting := g.waiting - 1 }
  else g

/-- Promise the free gate to the first in line. -/
def handOver (g : Gate Id) : Gate Id :=
  match g.line with
  | [] => { g with holder := none, promised := none }
  | id :: rest => { g with holder := none, promised := some id, line := rest }

def release (g : Gate Id) : Gate Id := g.handOver

/-- A pending caller gives up; a promise made to it goes to the next. -/
def abandon (g : Gate Id) (id : Id) : Gate Id :=
  if g.promised = some id then g.handOver else { g with line := g.line.filter (· ≠ id) }

end Gate

end Resumable
