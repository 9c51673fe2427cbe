import Resumable.Abi.Errno
import Resumable.Core.Activation
import Resumable.Message.Outgoing
import Resumable.Stream.ChunkReader

/-!
# Tasks and the services they use

Everything outside the host is asked for: files, responses, timers, the event store. A
task is a plan of such requests, each with what to do with its answer. `never` is a
task that does not come to an end. `run` carries a task out with a given way to serve
requests.
-/

namespace Resumable

inductive EventKind where
  | metrics
  | developerDump
  deriving DecidableEq, Repr

namespace EventKind

def name : EventKind → String
  | .metrics => "metrics"
  | .developerDump => "developer_dump"

end EventKind

/-- What a core caused while it ran. A fetch is issued at once and awaited later by
its ticket. -/
inductive Effect where
  | remark (line : Remark)
  | fetch (ticket : Nat) (request : HttpRequest)

/-- The head of a response, with the number under which its body is pulled. -/
structure HttpHead where
  status : Nat
  headers : Headers
  body : Nat

inductive Request where
  | emit (effect : Effect)
  | fileExists (path : String)
  | openFile (path : String) (flags : OpenFlags)
  | readFile (file max : Nat)
  | writeFile (file : Nat) (bytes : ByteArray)
  | closeFile (file : Nat)
  | response (ticket : Nat)
  | pullBody (body : Nat)
  | persist (kind : EventKind) (events : List String)
  | setTimer (delayMs generation : Nat)
  | clearTimer (timer : Nat)

namespace Request

abbrev Response : Request → Type
  | .emit _ => Unit
  | .fileExists _ => Bool
  | .openFile _ _ => Except Errno Nat
  | .readFile _ _ => Except Errno ByteArray
  | .writeFile _ _ => Except Errno Nat
  | .closeFile _ => Except Errno Unit
  | .response _ => Except NetworkError HttpHead
  | .pullBody _ => Pull
  | .persist _ _ => Except String Unit
  | .setTimer _ _ => Nat
  | .clearTimer _ => Unit

end Request

inductive Task (α : Type) where
  | done (a : α)
  | ask (r : Request) (k : r.Response → Task α)
  | never

namespace Task

variable {α β : Type}

def bind : Task α → (α → Task β) → Task β
  | .done a, f => f a
  | .ask r k, f => .ask r fun answer => (k answer).bind f
  | .never, _ => .never

instance : Monad Task where
  pure := .done
  bind := bind

def request (r : Request) : Task r.Response := .ask r .done

def ofOption : Option α → Task α
  | some a => .done a
  | none => .never

def run {W : Type} (serve : (r : Request) → W → r.Response × W) :
    Task α → W → Option (α × W)
  | .done a, w => some (a, w)
  | .ask r k, w =>
      let (answer, w) := serve r w
      (k answer).run serve w
  | .never, _ => none

theorem bind_assoc {γ : Type} (t : Task α) (f : α → Task β) (g : β → Task γ) :
    (t.bind f).bind g = t.bind fun a => (f a).bind g := by
  induction t with
  | done => rfl
  | ask r k ih => simp only [bind, ih]
  | never => rfl

end Task

end Resumable
