import Resumable.Host.Call
import Resumable.Session.Lifecycle

/-!
# What a session holds

The slot behind the gate: how far the session is, the compiled core, the live
instance, and the armed metrics timer. `Setup` is what stays the same throughout a
session.
-/

namespace Resumable

/-- A timer that will flush the metrics. Generations are never given twice. -/
structure ArmedTimer where
  id : Nat
  generation : Nat
  deriving DecidableEq, Repr

structure Slot (G : Type) where
  lifecycle : Lifecycle
  compiled : Option (Core G)
  live : Option (Instance G)
  timer : Option ArmedTimer
  nextGeneration : Nat

/-- `fuel` bounds the suspensions of a call, the chunks of a file and the empty
chunks of a body. -/
structure Setup (G : Type) where
  config : RuntimeConfig
  compile : ByteArray → Option (Core G)
  fuel : Nat

namespace Slot

variable {G : Type}

def empty : Slot G := ⟨.unloaded, none, none, none, 0⟩

def suspensions (s : Slot G) : Nat := (s.live.map Instance.suspensions).getD 0

end Slot

def Failure.kind {E : Type} : Failure E → UnexpectedKind
  | .violation _ => .bridgeViolation
  | .other _ => .trap

end Resumable
