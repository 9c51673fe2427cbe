import Resumable.Gate.Exclusive
import Resumable.Proofs.Gate.Line

namespace Resumable

namespace Operation

variable {T R : Type}

/-- What the operation does to the value, from pause to pause. -/
def acts : Operation T R → List (T → T)
  | .finish act => [fun v => (act v).2]
  | .pause act rest => act :: rest.acts

def run : Operation T R → T → R × T
  | .finish act, v => act v
  | .pause act rest, v => rest.run (act v)

end Operation

namespace Gate

variable {T R : Type}

def valueAfter (v : T) (acts : List (T → T)) : T := acts.foldl (fun v act => act v) v

theorem valueAfter_append (v : T) (acts more : List (T → T)) :
    valueAfter v (acts ++ more) = valueAfter (valueAfter v acts) more :=
  List.foldl_append

theorem valueAfter_acts (operation : Operation T R) (v : T) :
    valueAfter v operation.acts = (operation.run v).2 := by
  induction operation generalizing v with
  | finish act => rfl
  | pause act rest ih => exact ih (act v)

/-- A caller that is dropped inside has its guard or its operation dropped; one that
is pending gives up. -/
inductive Happening (T R : Type) where
  | arrived (id : String) (operation : Option (Operation T R))
  | entered (id : String) (operation : Option (Operation T R))
  | changed (id : String) (act : T → T)
  | finished (id : String) (result : R)
  | dropped (id : String)
  | gaveUp (id : String)

namespace Happening

def gated : Happening T R → Bool
  | .arrived _ _ => false
  | .gaveUp _ => false
  | _ => true

def requeue (queue : List (String × Option (Operation T R))) :
    Happening T R → List (String × Option (Operation T R))
  | .arrived id operation => queue ++ [(id, operation)]
  | .entered id _ => queue.filter (·.1 ≠ id)
  | .gaveUp id => queue.filter (·.1 ≠ id)
  | _ => queue

/-- Who has arrived and neither entered nor given up, in the order of arrival. -/
def queued (past : List (Happening T R)) : List (String × Option (Operation T R)) :=
  past.foldl requeue []

theorem queued_snoc (past : List (Happening T R)) (e : Happening T R) :
    queued (past ++ [e]) = requeue (queued past) e := by
  rw [queued, List.foldl_append]
  rfl

def within : Happening T R → Bool
  | .changed _ _ => true
  | .finished _ _ => true
  | .dropped _ => true
  | _ => false

section Within

variable {more : List (Happening T R)} (hwithin : ∀ e ∈ more, e.within)

include hwithin

theorem queued_append_of_within (past : List (Happening T R)) :
    queued (past ++ more) = queued past := by
  rw [queued, List.foldl_append]
  change more.foldl requeue (queued past) = queued past
  induction more with
  | nil => rfl
  | cons e rest ih =>
      rw [List.forall_mem_cons] at hwithin
      have hsame : requeue (queued past) e = queued past := by
        cases e with
        | arrived | entered | gaveUp => exact absurd hwithin.1 Bool.false_ne_true
        | changed | finished | dropped => rfl
      rw [List.foldl_cons, hsame]
      exact ih hwithin.2

theorem filter_gated_of_within : more.filter gated = more := by
  refine List.filter_eq_self.mpr fun e he => ?_
  cases e with
  | arrived | entered | gaveUp => exact absurd (hwithin _ he) Bool.false_ne_true
  | changed | finished | dropped => rfl

theorem entered_notMem_of_within (id : String) (operation : Option (Operation T R)) :
    Happening.entered id operation ∉ more :=
  fun h => absurd (hwithin _ h) Bool.false_ne_true

end Within

def going (id : String) (v : T) : Operation T R → List (Happening T R)
  | .pause act _ => [.changed id act]
  | .finish act => [.changed id fun v => (act v).2, .finished id (act v).1]

end Happening

def Caller.entered : Option (Operation T R) → Caller T R
  | none => .holding
  | some operation => .inside operation

namespace Guarded

/-- The caller has the gate, by a guard of its own or by that of its operation. -/
def HasGuard (g : Guarded T R) (id : String) : Prop :=
  g.caller? id = some .holding ∨ ∃ operation, g.caller? id = some (.inside operation)

def entering (g : Guarded T R) (id : String) (operation : Option (Operation T R)) :
    List (Happening T R) :=
  if g.gate.holder = some id then
    .entered id operation :: operation.elim [] (Happening.going id g.value)
  else []

def polling (g : Guarded T R) (id : String) : List (Happening T R) :=
  match g.caller? id with
  | some (.inside operation) => Happening.going id g.value operation
  | some (.lining operation) => { g with gate := g.gate.poll id }.entering id operation
  | _ => []

/-- Somebody makes a move: a new caller is started, or one is polled, changes the
value, or is dropped. -/
inductive Step (g : Guarded T R) : List (Happening T R) → Guarded T R → Prop where
  | started {id : String} (hnew : g.caller? id = none)
      (operation : Option (Operation T R)) :
      Step g (.arrived id operation ::
        { g with gate := g.gate.arrive id }.entering id operation)
          (g.start id operation).2
  | polled (id : String) : Step g (g.polling id) (g.poll id).2
  | modified {id : String} {f : T → T} {g' : Guarded T R}
      (hmodify : g.modify? id f = some g') : Step g [.changed id f] g'
  | dropped {id : String} {g' : Guarded T R} (hguard : g.HasGuard id)
      (hdrop : g.drop? id = some g') : Step g [.dropped id] g'
  | gaveUp {id : String} {operation : Option (Operation T R)} {g' : Guarded T R}
      (hlining : g.caller? id = some (.lining operation))
      (hdrop : g.drop? id = some g') : Step g [.gaveUp id] g'

inductive Ran (v : T) : List (Happening T R) → Guarded T R → Prop where
  | start : Ran v [] (.ofValue v)
  | step {past more : List (Happening T R)} {g g' : Guarded T R} (h : Ran v past g)
      (hstep : g.Step more g') : Ran v (past ++ more) g'

end Guarded

/-- What one caller does inside, from a first to a last change. Its operation has a
result if it came to its end. -/
structure Tenure (T R : Type) where
  id : String
  operation : Option (Operation T R)
  acts : List (T → T)
  result : Option R

namespace Tenure

def begun (x : Tenure T R) : List (Happening T R) :=
  .entered x.id x.operation :: x.acts.map (.changed x.id)

def block (x : Tenure T R) : List (Happening T R) :=
  x.begun ++ [x.result.elim (.dropped x.id) (.finished x.id)]

/-- What a tenure that begins with a value may be: any changes through a guard, all of
an operation with its result, or as much of it as was done before it was dropped. -/
inductive Proper (v : T) : Tenure T R → Prop where
  | guard (id : String) (acts : List (T → T)) : Proper v ⟨id, none, acts, none⟩
  | finished (id : String) (operation : Operation T R) :
      Proper v ⟨id, some operation, operation.acts, some (operation.run v).1⟩
  | dropped (id : String) {operation : Operation T R} {acts : List (T → T)}
      (hacts : acts <+: operation.acts) : Proper v ⟨id, some operation, acts, none⟩

/-- Tenures that take a value to another one after the other. -/
inductive Serial (v : T) : List (Tenure T R) → T → Prop where
  | nil : Serial v [] v
  | snoc {tenures : List (Tenure T R)} {w : T} {x : Tenure T R} (h : Serial v tenures w)
      (hproper : x.Proper w) : Serial v (tenures ++ [x]) (valueAfter w x.acts)

/-- How a caller stands whose tenure began with a value and is not over. -/
inductive GoesOn (v : T) : Tenure T R → Caller T R → Prop where
  | holding (id : String) (acts : List (T → T)) :
      GoesOn v ⟨id, none, acts, none⟩ .holding
  | inside (id : String) {operation rest : Operation T R} {acts : List (T → T)}
      (hacts : operation.acts = acts ++ rest.acts)
      (hrun : operation.run v = rest.run (valueAfter v acts)) :
      GoesOn v ⟨id, some operation, acts, none⟩ (.inside rest)

theorem GoesOn.dropped {v : T} {x : Tenure T R} {c : Caller T R} (h : x.GoesOn v c) :
    x.Proper v ∧ x.result = none := by
  cases h with
  | holding id acts => exact ⟨.guard id acts, rfl⟩
  | inside id hacts hrun => exact ⟨.dropped id ⟨_, hacts.symm⟩, rfl⟩

end Tenure

end Gate

end Resumable
