/-!
# Timers

Each timer is a task that sleeps, wakes, takes its entry out of the table of pending
timers, and starts its action. Clearing a timer takes its entry out first and aborts
the task then, so the two can meet half way: the steps are given one by one, and
`clear` and `fire` put together those that nothing comes between.
-/

namespace Resumable

/-- How far a timer's task is. An aborted task is dropped where it next waits. -/
inductive TimerStage where
  | sleeping
  | awake
  | detached
  | started
  | dropped
  deriving DecidableEq, Repr

structure TimerTask (A : Type) where
  id : Nat
  due : Nat
  action : A
  stage : TimerStage
  aborted : Bool

/-- All tasks in the order in which they were set, the numbers in the table, how many
have been set, and the time. -/
structure Timers (A : Type) where
  tasks : List (TimerTask A)
  table : List Nat
  count : Nat
  now : Nat

namespace Timers

variable {A : Type}

def idle : Timers A := ⟨[], [], 0, 0⟩

def pending (t : Timers A) : Nat := t.table.length

def task? (t : Timers A) (id : Nat) : Option (TimerTask A) := t.tasks.find? (·.id == id)

def modifyTask (t : Timers A) (id : Nat) (f : TimerTask A → TimerTask A) : Timers A :=
  { t with tasks := t.tasks.map fun task => if task.id == id then f task else task }

def moveTo (t : Timers A) (id : Nat) (stage : TimerStage) : Timers A :=
  t.modifyTask id fun task => { task with stage := stage }

/-- Set a timer. Numbers count from 1 and are never given twice. -/
def set (t : Timers A) (delay : Nat) (action : A) : Nat × Timers A :=
  let id := t.count + 1
  (id, { t with tasks := t.tasks ++ [⟨id, t.now + delay, action, .sleeping, false⟩]
                table := t.table ++ [id], count := id })

/-- Take an entry out of the table; whether there was one. -/
def takeEntry (t : Timers A) (id : Nat) : Bool × Timers A :=
  (t.table.contains id, { t with table := t.table.filter (· != id) })

/-- Ask a task to stop. A sleeping one is dropped, one that is running goes on
until it waits. -/
def abort (t : Timers A) (id : Nat) : Timers A :=
  t.modifyTask id fun task =>
    { task with aborted := true, stage := if task.stage = .sleeping then
      .dropped else task.stage }

def wake (t : Timers A) (id : Nat) : Timers A :=
  match t.task? id with
  | some task =>
      if task.stage = .sleeping ∧ task.due ≤ t.now then t.moveTo id .awake else t
  | none => t

def detach (t : Timers A) (id : Nat) : Timers A :=
  match t.task? id with
  | some task =>
      if task.stage = .awake then (t.takeEntry id).2.moveTo id .detached else t
  | none => t

def start (t : Timers A) (id : Nat) : Option A × Timers A :=
  match t.task? id with
  | some task =>
      if task.stage = .detached then (some task.action, t.moveTo id .started)
        else (none, t)
  | none => (none, t)

/-- A started action waits for something; if the task was asked to stop, it does. -/
def pause (t : Timers A) (id : Nat) : Timers A :=
  match t.task? id with
  | some task =>
      if task.stage = .started ∧ task.aborted then t.moveTo id .dropped else t
  | none => t

/-- Clear a timer. Nothing is aborted for a number that is not in the table. -/
def clear (t : Timers A) (id : Nat) : Timers A :=
  match t.takeEntry id with
  | (true, t) => t.abort id
  | (false, t) => t

def fire (t : Timers A) (id : Nat) : Option A × Timers A :=
  ((t.wake id).detach id).start id

/-- The sleeping task that is due first; of several the one that was set first. -/
def next? (t : Timers A) : Option (TimerTask A) :=
  (t.tasks.filter (·.stage == .sleeping)).foldl (fun first task =>
    match first with
    | none => some task
    | some f => if task.due < f.due then some task else some f) none

/-- Fire timers up to a time, the earliest first, at most so many. -/
def fireUntil (limit : Nat) : Nat → Timers A → List (Nat × A) × Timers A
  | 0, t => ([], t)
  | fuel + 1, t =>
      match t.next? with
      | none => ([], t)
      | some task =>
          if limit < task.due then ([], t)
          else
            let due : Timers A := { t with now := max t.now task.due }
            match due.fire task.id with
            | (some action, t) =>
                let (fired, t) := fireUntil limit fuel t
                ((task.due, action) :: fired, t)
            | (none, t) => ([], t)

/-- Let time pass. What becomes due fires, also at the very end. -/
def wait (t : Timers A) (duration : Nat) : List (Nat × A) × Timers A :=
  let limit := t.now + duration
  let (fired, t) := t.fireUntil limit t.tasks.length
  (fired, { t with now := limit })

end Timers

end Resumable
