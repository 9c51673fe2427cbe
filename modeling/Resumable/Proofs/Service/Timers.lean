import Resumable.Service.Timers
import Mathlib.Data.List.Nodup

/-!
# Timers shared by threads

Whoever sets a timer draws its number first and enters the timer then, whoever clears
one takes its entry out first and aborts the task then, and the task of a timer wakes,
takes its entry out and starts its action. Other threads may come between any two of
these. A run is a list of such moments, and whatever it is, each timer stands as the
moments tell that are its own.
-/

namespace Resumable

namespace Timers

variable {A : Type}

section Parts

variable (t : Timers A) (id k : Nat)

def draw : Nat × Timers A := (t.count + 1, { t with count := t.count + 1 })

/-- With the number that was drawn for it, a timer is entered in the table, and its
task begins to sleep. -/
def enter (delay : Nat) (action : A) : Timers A :=
  { t with
    tasks := t.tasks ++ [⟨id, t.now + delay, action, .sleeping, false⟩]
    table := t.table ++ [id] }

example (delay : Nat) (action : A) :
    t.set delay action = (t.draw.1, t.draw.2.enter t.draw.1 delay action) := rfl

theorem takeEntry_found : (t.takeEntry id).1 = true ↔ id ∈ t.table :=
  List.contains_iff_mem

theorem mem_takeEntry : k ∈ (t.takeEntry id).2.table ↔ k ∈ t.table ∧ k ≠ id := by
  simp [takeEntry]

variable {id} in
theorem takeEntry_of_notMem (h : id ∉ t.table) : t.takeEntry id = (false, t) := by
  have hfound : t.table.contains id = false := by simpa using h
  have hkept : t.table.filter (· != id) = t.table :=
    List.filter_eq_self.mpr fun k hk => bne_iff_ne.mpr fun heq => h (heq ▸ hk)
  unfold takeEntry
  rw [hfound, hkept]

variable {id} in
theorem clear_of_notMem (h : id ∉ t.table) : t.clear id = t := by
  unfold clear
  rw [takeEntry_of_notMem t h]

theorem task?_enter (delay : Nat) (action : A) :
    (t.enter id delay action).task? k =
      (t.task? k).or
        (if id = k then some ⟨id, t.now + delay, action, .sleeping, false⟩
          else none) := by
  unfold task? enter
  rw [List.find?_append, List.find?_singleton]
  simp only [beq_iff_eq]

theorem mem_enter (delay : Nat) (action : A) :
    k ∈ (t.enter id delay action).table ↔ k ∈ t.table ∨ k = id := by
  rw [enter, List.mem_append, List.mem_singleton]

variable {id} in
theorem task?_id {task : TimerTask A} (h : t.task? id = some task) : task.id = id := by
  have hid : (task.id == id) = true :=
    List.find?_some (p := fun task : TimerTask A => task.id == id) h
  exact beq_iff_eq.mp hid

theorem task?_modifyTask {f : TimerTask A → TimerTask A}
    (hf : ∀ task, (f task).id = task.id) : (t.modifyTask id f).task? k =
    if k = id then (t.task? id).map f else t.task? k := by
  have hid :
      ∀ task : TimerTask A, (if task.id == id then f task else task).id = task.id := by
    intro task
    split
    · exact hf task
    · rfl
  have hfind : (t.modifyTask id f).task? k =
      (t.task? k).map fun task => if task.id == id then f task else task := by
    unfold task? modifyTask
    rw [List.find?_map]
    exact congrArg (fun p => (t.tasks.find? p).map _)
      (funext fun task => congrArg (· == k) (hid task))
  rw [hfind]
  by_cases hk : k = id
  · subst hk
    rw [if_pos rfl]
    exact Option.map_congr fun task htask => if_pos (beq_iff_eq.mpr (task?_id t htask))
  · rw [if_neg hk]
    refine (Option.map_congr fun task htask => if_neg ?_).trans Option.map_id'
    rw [task?_id t htask, beq_iff_eq]
    exact hk

theorem task?_moveTo (stage : TimerStage) :
    (t.moveTo id stage).task? k =
      if k = id then (t.task? id).map fun task => { task with stage := stage }
        else t.task? k :=
  task?_modifyTask t id k fun _ => rfl

theorem task?_abort :
    (t.abort id).task? k =
      if k = id then
        (t.task? id).map fun task =>
          { task with aborted := true, stage := if task.stage = .sleeping then
            .dropped else task.stage }
      else t.task? k :=
  task?_modifyTask t id k fun _ => rfl

variable {t id} {task : TimerTask A}

theorem task?_moveTo_self (htask : t.task? id = some task) (stage : TimerStage) :
    (t.moveTo id stage).task? id = some { task with stage := stage } := by
  rw [task?_moveTo, if_pos rfl, htask, Option.map_some]

theorem wake_of_sleeping (htask : t.task? id = some task)
    (hstage : task.stage = .sleeping) (hdue : task.due ≤ t.now) :
    t.wake id = t.moveTo id .awake := by
  unfold wake
  rw [htask]
  exact if_pos ⟨hstage, hdue⟩

theorem detach_of_awake (htask : t.task? id = some task)
    (hstage : task.stage = .awake) :
    t.detach id = (t.takeEntry id).2.moveTo id .detached := by
  unfold detach
  rw [htask]
  exact if_pos hstage

theorem start_some {action : A} (h : (t.start id).1 = some action) :
    ∃ task, t.task? id = some task ∧ task.stage = .detached ∧ task.action = action ∧
      (t.start id).2 = t.moveTo id .started := by
  unfold start at h ⊢
  split at h
  · next task htask =>
      split at h
      · next hstage =>
          rw [htask]
          exact ⟨task, rfl, hstage, Option.some.inj h,
            congrArg Prod.snd (if_pos hstage)⟩
      · cases h
  · cases h

theorem pause_of_aborted (htask : t.task? id = some task)
    (hstage : task.stage = .started) (haborted : task.aborted = true) :
    t.pause id = t.moveTo id .dropped := by
  unfold pause
  rw [htask]
  exact if_pos ⟨hstage, haborted⟩

end Parts

/-- What happens to timers, one moment after the other. Of a section in which an entry
is taken out, also whether there was one. -/
inductive Moment (A : Type) where
  | drew (id : Nat)
  | entered (id : Nat) (action : A)
  | cleared (id : Nat) (found : Bool)
  | aborted (id : Nat)
  | woke (id : Nat)
  | detached (id : Nat) (found : Bool)
  | started (id : Nat) (action : A)
  | stopped (id : Nat)
  | passed (duration : Nat)

namespace Moment

def id? : Moment A → Option Nat
  | drew id | entered id _ | cleared id _ | aborted id | woke id | detached id _
      | started id _ | stopped id =>
      some id
  | passed _ => none

/-- The moments of a timer's own task. -/
def ofTask (id : Nat) : Moment A → Bool
  | woke k | detached k _ | started k _ | stopped k => k == id
  | _ => false

/-- The moments of the one who takes a timer's entry out to clear it. -/
def ofClear (id : Nat) : Moment A → Bool
  | cleared k found => found && k == id
  | aborted k => k == id
  | _ => false

def numbers (past : List (Moment A)) : List Nat :=
  past.filterMap fun
    | drew id => some id
    | _ => none

def settings (past : List (Moment A)) : List (Nat × A) :=
  past.filterMap fun
    | entered id action => some (id, action)
    | _ => none

def course (id : Nat) (past : List (Moment A)) : List (Moment A) :=
  past.filter (ofTask id)

def clearing (id : Nat) (past : List (Moment A)) : List (Moment A) :=
  past.filter (ofClear id)

section Snoc

variable {id : Nat} {e : Moment A} (past : List (Moment A))

theorem course_snoc :
    course id (past ++ [e]) = course id past ++ if e.ofTask id then [e] else [] := by
  rw [course, List.filter_append, List.filter_singleton, Bool.cond_eq_ite]
  rfl

theorem clearing_snoc : clearing id (past ++ [e]) =
    clearing id past ++ if e.ofClear id then [e] else [] := by
  rw [clearing, List.filter_append, List.filter_singleton, Bool.cond_eq_ite]
  rfl

theorem ofTask_of_ne (h : e.id? ≠ some id) : e.ofTask id = false := by
  cases e <;> simp_all [id?, ofTask]

theorem ofClear_of_ne (h : e.id? ≠ some id) : e.ofClear id = false := by
  cases e <;> simp_all [id?, ofClear]

theorem numbers_append (more : List (Moment A)) :
    numbers (past ++ more) = numbers past ++ numbers more :=
  List.filterMap_append

theorem settings_append (more : List (Moment A)) :
    settings (past ++ more) = settings past ++ settings more :=
  List.filterMap_append

theorem mem_numbers : id ∈ numbers past ↔ .drew id ∈ past := by
  rw [numbers, List.mem_filterMap]
  constructor
  · rintro ⟨e, he, hid⟩
    cases e <;> cases hid
    exact he
  · exact fun h => ⟨_, h, rfl⟩

theorem mem_settings {action : A} :
    (id, action) ∈ settings past ↔ .entered id action ∈ past := by
  rw [settings, List.mem_filterMap]
  constructor
  · rintro ⟨e, he, hid⟩
    cases e <;> cases hid
    exact he
  · exact fun h => ⟨_, h, rfl⟩

end Snoc

/-- A moment that is neither one of a timer's setting nor one of its task nor one of
its clearing. -/
structure Beside (e : Moment A) (id : Nat) : Prop where
  drew : e ≠ .drew id
  entered : ∀ action, e ≠ .entered id action
  task : e.ofTask id = false
  clear : e.ofClear id = false

theorem beside_of_ne {e : Moment A} {id : Nat} (h : e.id? ≠ some id) : e.Beside id := by
  refine ⟨?_, ?_, ofTask_of_ne h, ofClear_of_ne h⟩
  · rintro rfl
    exact h rfl
  · rintro action rfl
    exact h rfl

end Moment

/-- The timers, with the numbers that have been drawn and not been entered yet, and
those whose entry someone has taken out to clear them and has not aborted yet. -/
structure Shared (A : Type) where
  timers : Timers A
  drawn : List Nat
  aborting : List Nat

namespace Shared

def idle : Shared A := ⟨Timers.idle, [], []⟩

/-- One moment of one thread, which may come between any two of the others. Only who
has found a timer's entry goes on to abort its task, and a task that has been aborted
while it ran is stopped where it next waits. -/
inductive Step : Shared A → Moment A → Shared A → Prop where
  | draw (s : Shared A) :
      Step s (.drew s.timers.draw.1)
        { s with timers := s.timers.draw.2, drawn := s.drawn ++ [s.timers.draw.1] }
  | enter {s : Shared A} {id : Nat} (hdrawn : id ∈ s.drawn) (delay : Nat) (action : A) :
      Step s (.entered id action)
        { s with
          timers := s.timers.enter id delay action, drawn := s.drawn.filter (· ≠ id) }
  | clear (s : Shared A) (id : Nat) :
      Step s (.cleared id (s.timers.takeEntry id).1)
        { s with
          timers := (s.timers.takeEntry id).2
          aborting := if (s.timers.takeEntry id).1 then s.aborting ++ [id]
            else s.aborting }
  | abort {s : Shared A} {id : Nat} (haborting : id ∈ s.aborting) :
      Step s (.aborted id)
        { s with timers := s.timers.abort id, aborting := s.aborting.filter (· ≠ id) }
  | wake {s : Shared A} {id : Nat} {task : TimerTask A}
      (htask : s.timers.task? id = some task) (hstage : task.stage = .sleeping)
      (hdue : task.due ≤ s.timers.now) :
      Step s (.woke id) { s with timers := s.timers.wake id }
  | detach {s : Shared A} {id : Nat} {task : TimerTask A}
      (htask : s.timers.task? id = some task) (hstage : task.stage = .awake) :
      Step s (.detached id (s.timers.takeEntry id).1)
        { s with timers := s.timers.detach id }
  | start {s : Shared A} {id : Nat} {action : A}
      (hstart : (s.timers.start id).1 = some action) :
      Step s (.started id action) { s with timers := (s.timers.start id).2 }
  | stop {s : Shared A} {id : Nat} {task : TimerTask A}
      (htask : s.timers.task? id = some task) (hstage : task.stage = .started)
      (haborted : task.aborted = true) :
      Step s (.stopped id) { s with timers := s.timers.pause id }
  | pass (s : Shared A) (duration : Nat) :
      Step s (.passed duration)
        { s with timers := { s.timers with now := s.timers.now + duration } }

/-- What has happened since there were no timers, and how they are now. -/
inductive Ran : List (Moment A) → Shared A → Prop where
  | start : Ran [] idle
  | step {past : List (Moment A)} {s s' : Shared A} {e : Moment A} (h : Ran past s)
      (hstep : Step s e s') : Ran (past ++ [e]) s'

/-- How far the one who clears a timer is. -/
inductive Clearing where
  | untouched
  | taken
  | aborted
  deriving DecidableEq

def Clearing.moments (id : Nat) : Clearing → List (Moment A)
  | untouched => []
  | taken => [.cleared id true]
  | aborted => [.cleared id true, .aborted id]

/-- What a task has done, for each stage that it can be in. It finds its entry just if
nobody was there before it. -/
inductive Course (id : Nat) (action : A) :
    Clearing → List (Moment A) → TimerStage → Prop where
  | sleeping {c : Clearing} (h : c ≠ .aborted) : Course id action c [] .sleeping
  | unwoken : Course id action .aborted [] .dropped
  | awake (c : Clearing) : Course id action c [.woke id] .awake
  | detached (c : Clearing) :
      Course id action c [.woke id, .detached id (c = .untouched)] .detached
  | started (c : Clearing) :
      Course id action c [.woke id, .detached id (c = .untouched),
        .started id action] .started
  | stopped :
      Course id action .aborted [.woke id, .detached id false, .started id action,
        .stopped id] .dropped

/-- No timer has been set yet with this number. -/
structure Unset (past : List (Moment A)) (s : Shared A) (id : Nat) : Prop where
  task : s.timers.task? id = none
  drawn : id ∈ s.drawn ↔ .drew id ∈ past
  set : ∀ action, .entered id action ∉ past
  course : Moment.course id past = []
  clearing : Moment.clearing id past = []
  table : id ∉ s.timers.table
  aborting : id ∉ s.aborting

/-- The timer of this number has been set. -/
structure Placed (past : List (Moment A)) (s : Shared A) (id : Nat)
    (timer : TimerTask A) (c : Clearing) : Prop where
  task : s.timers.task? id = some timer
  drawn : id ∉ s.drawn
  drew : .drew id ∈ past
  set : .entered id timer.action ∈ past
  course : Course id timer.action c (Moment.course id past) timer.stage
  clearing : Moment.clearing id past = c.moments id
  table : id ∈ s.timers.table ↔
    c = .untouched ∧ (timer.stage = .sleeping ∨ timer.stage = .awake)
  aborting : id ∈ s.aborting ↔ c = .taken
  aborted : timer.aborted = true ↔ c = .aborted

/-- How the timer of a number stands. -/
inductive Stands (past : List (Moment A)) (s : Shared A) (id : Nat) : Prop where
  | unset (h : Unset past s id)
  | placed {timer : TimerTask A} {c : Clearing} (h : Placed past s id timer c)

theorem Stands.exists_placed {past : List (Moment A)} {s : Shared A} {id : Nat}
    {timer : TimerTask A} (h : Stands past s id)
    (htask : s.timers.task? id = some timer) : ∃ c, Placed past s id timer c := by
  cases h with
  | unset h => cases htask.symm.trans h.task
  | placed h =>
      cases htask.symm.trans h.task
      exact ⟨_, h⟩

section Steps

variable {past : List (Moment A)} {s s' : Shared A} {e : Moment A} {id k : Nat}
  {task : TimerTask A}

/-- What a moment leaves as it was, of a timer that is not the moment's. -/
structure Keeps (s s' : Shared A) (k : Nat) : Prop where
  task : s'.timers.task? k = s.timers.task? k
  table : k ∈ s'.timers.table ↔ k ∈ s.timers.table
  drawn : k ∈ s'.drawn ↔ k ∈ s.drawn
  aborting : k ∈ s'.aborting ↔ k ∈ s.aborting

theorem Step.keeps (h : Step s e s') (hk : e.id? ≠ some k) : Keeps s s' k := by
  have hne : ∀ id, e.id? = some id → k ≠ id := fun id hid heq => hk (heq ▸ hid)
  have hmove : ∀ id stage, k ≠ id →
      (s.timers.moveTo id stage).task? k = s.timers.task? k :=
    fun id stage hid => (task?_moveTo _ _ _ _).trans (if_neg hid)
  have htake : ∀ id, k ≠ id →
      (k ∈ (s.timers.takeEntry id).2.table ↔ k ∈ s.timers.table) :=
    fun id hid => (mem_takeEntry _ _ _).trans (and_iff_left hid)
  cases h with
  | draw =>
      have hid := hne _ rfl
      exact ⟨rfl, .rfl, by simp [hid], .rfl⟩
  | @enter id hdrawn delay action =>
      have hid := hne id rfl
      refine ⟨?_, (mem_enter _ _ _ _ _).trans (or_iff_left hid), by simp [hid], .rfl⟩
      rw [task?_enter, if_neg (Ne.symm hid), Option.or_none]
  | clear id =>
      have hid := hne id rfl
      refine ⟨rfl, htake id hid, .rfl, ?_⟩
      change k ∈ (if _ then s.aborting ++ [id] else s.aborting) ↔ _
      split
      · simp [hid]
      · exact .rfl
  | @abort id =>
      have hid := hne id rfl
      exact ⟨(task?_abort _ _ _).trans (if_neg hid), .rfl, .rfl, by simp [hid]⟩
  | @wake id _ htask hstage hdue =>
      rw [wake_of_sleeping htask hstage hdue]
      exact ⟨hmove id _ (hne id rfl), .rfl, .rfl, .rfl⟩
  | @detach id _ htask hstage =>
      have hid := hne id rfl
      rw [detach_of_awake htask hstage]
      exact ⟨(task?_moveTo _ _ _ _).trans (if_neg hid), htake id hid, .rfl, .rfl⟩
  | @start id _ hstart =>
      obtain ⟨_, -, -, -, ht⟩ := start_some hstart
      rw [ht]
      exact ⟨hmove id _ (hne id rfl), .rfl, .rfl, .rfl⟩
  | @stop id _ htask hstage haborted =>
      rw [pause_of_aborted htask hstage haborted]
      exact ⟨hmove id _ (hne id rfl), .rfl, .rfl, .rfl⟩
  | pass => exact ⟨rfl, .rfl, .rfl, .rfl⟩

namespace Course

variable {action : A} {c : Clearing} {moments : List (Moment A)} {stage : TimerStage}

theorem clear (h : Course id action .untouched moments stage)
    (hstage : stage = .sleeping ∨ stage = .awake) :
    Course id action .taken moments stage := by
  obtain rfl | rfl := hstage
  · cases h
    exact .sleeping nofun
  · cases h
    exact .awake _

theorem abort (h : Course id action .taken moments stage) :
    Course id action .aborted moments (if stage = .sleeping then
      .dropped else stage) := by
  cases h with
  | sleeping => exact .unwoken
  | awake => exact .awake _
  | detached => exact .detached .aborted
  | started => exact .started .aborted

theorem wake (h : Course id action c moments .sleeping) :
    Course id action c (moments ++ [.woke id]) .awake := by
  cases h
  exact .awake c

theorem detach (h : Course id action c moments .awake) :
    Course id action c (moments ++ [.detached id (c = .untouched)]) .detached := by
  cases h
  exact .detached c

theorem start (h : Course id action c moments .detached) :
    Course id action c (moments ++ [.started id action]) .started := by
  cases h
  exact .started c

theorem stop (h : Course id action .aborted moments .started) :
    Course id action .aborted (moments ++ [.stopped id]) .dropped := by
  cases h
  exact .stopped

end Course

theorem Unset.beside (h : Unset past s id) (he : e.Beside id) (hkeeps : Keeps s s' id) :
    Unset (past ++ [e]) s' id where
  task := hkeeps.task.trans h.task
  drawn := by
    rw [hkeeps.drawn, h.drawn, List.mem_append, List.mem_singleton,
      or_iff_left he.drew.symm]
  set := fun action => by
    rw [List.mem_append, List.mem_singleton, or_iff_left (he.entered action).symm]
    exact h.set action
  course := by simp [Moment.course_snoc, he.task, h.course]
  clearing := by simp [Moment.clearing_snoc, he.clear, h.clearing]
  table := hkeeps.table.not.mpr h.table
  aborting := hkeeps.aborting.not.mpr h.aborting

theorem Placed.beside {c : Clearing} (h : Placed past s id task c) (he : e.Beside id)
    (hkeeps : Keeps s s' id) : Placed (past ++ [e]) s' id task c where
  task := hkeeps.task.trans h.task
  drawn := hkeeps.drawn.not.mpr h.drawn
  drew := List.mem_append_left _ h.drew
  set := List.mem_append_left _ h.set
  course := by simpa [Moment.course_snoc, he.task] using h.course
  clearing := by simpa [Moment.clearing_snoc, he.clear] using h.clearing
  table := hkeeps.table.trans h.table
  aborting := hkeeps.aborting.trans h.aborting
  aborted := h.aborted

namespace Placed

variable {c : Clearing}

/-- The task has gone on to another stage; nothing else has changed but its entry. -/
theorem move (h : Placed past s id task c) {stage : TimerStage} {t : Timers A}
    (he : e.ofTask id = true) (hclear : e.ofClear id = false)
    (hcourse : Course id task.action c (Moment.course id past ++ [e]) stage)
    (htask : t.task? id = some { task with stage := stage })
    (htable : id ∈ t.table ↔ c = .untouched ∧ (stage = .sleeping ∨ stage = .awake)) :
    Placed (past ++ [e]) { s with timers := t } id { task with stage := stage } c where
  task := htask
  drawn := h.drawn
  drew := List.mem_append_left _ h.drew
  set := List.mem_append_left _ h.set
  course := by rw [Moment.course_snoc, he]; exact hcourse
  clearing := by simpa [Moment.clearing_snoc, hclear] using h.clearing
  table := htable
  aborting := h.aborting
  aborted := h.aborted

theorem wake (h : Placed past s id task c) (hstage : task.stage = .sleeping)
    (hdue : task.due ≤ s.timers.now) :
    Placed (past ++ [.woke id]) { s with timers := s.timers.wake id } id
      { task with stage := .awake } c := by
  rw [wake_of_sleeping h.task hstage hdue]
  refine h.move (beq_self_eq_true id) rfl (hstage ▸ h.course).wake
    (task?_moveTo_self h.task _) ?_
  exact h.table.trans (by simp [hstage])

theorem detach (h : Placed past s id task c) (hstage : task.stage = .awake) :
    Placed (past ++ [.detached id (s.timers.takeEntry id).1])
      { s with timers := s.timers.detach id } id
        { task with stage := .detached } c := by
  have hfound : (s.timers.takeEntry id).1 = decide (c = .untouched) := by
    rw [Bool.eq_iff_iff, takeEntry_found, h.table, decide_eq_true_iff, hstage]
    exact and_iff_left (.inr rfl)
  rw [detach_of_awake h.task hstage, hfound]
  refine h.move (beq_self_eq_true id) rfl (hstage ▸ h.course).detach
    (task?_moveTo_self (t := (s.timers.takeEntry id).2) h.task _) ?_
  exact (mem_takeEntry _ _ _).trans (by simp)

theorem start (h : Placed past s id task c) (hstage : task.stage = .detached)
    (hstart : (s.timers.start id).2 = s.timers.moveTo id .started) :
    Placed (past ++ [.started id task.action])
      { s with timers := (s.timers.start id).2 } id
        { task with stage := .started } c := by
  rw [hstart]
  refine h.move (beq_self_eq_true id) rfl (hstage ▸ h.course).start
    (task?_moveTo_self h.task _) ?_
  exact h.table.trans (by simp [hstage])

theorem stop (h : Placed past s id task c) (hstage : task.stage = .started)
    (haborted : task.aborted = true) :
    Placed (past ++ [.stopped id]) { s with timers := s.timers.pause id } id
      { task with stage := .dropped } c := by
  obtain rfl := h.aborted.mp haborted
  rw [pause_of_aborted h.task hstage haborted]
  refine h.move (beq_self_eq_true id) rfl (hstage ▸ h.course).stop
    (task?_moveTo_self h.task _) ?_
  exact h.table.trans (by simp)

theorem clear (h : Placed past s id task c) (hmem : id ∈ s.timers.table) :
    Placed (past ++ [.cleared id true])
      { s with timers := (s.timers.takeEntry id).2, aborting := s.aborting ++ [id] }
        id task .taken := by
  obtain ⟨rfl, hstage⟩ := h.table.mp hmem
  exact {
    task := h.task
    drawn := h.drawn
    drew := List.mem_append_left _ h.drew
    set := List.mem_append_left _ h.set
    course := by simpa [Moment.course_snoc, Moment.ofTask] using h.course.clear hstage
    clearing := by
      simp [Moment.clearing_snoc, Moment.ofClear, h.clearing, Clearing.moments]
    table := (mem_takeEntry _ _ _).trans (by simp)
    aborting := by simp
    aborted := h.aborted.trans (by simp) }

theorem abort (h : Placed past s id task c) (hmem : id ∈ s.aborting) :
    Placed (past ++ [.aborted id])
      { s with timers := s.timers.abort id, aborting := s.aborting.filter (· ≠ id) } id
      { task with aborted := true, stage := if task.stage = .sleeping then
        .dropped else task.stage }
      .aborted := by
  obtain rfl := h.aborting.mp hmem
  exact {
    task := by rw [task?_abort, if_pos rfl, h.task, Option.map_some]
    drawn := h.drawn
    drew := List.mem_append_left _ h.drew
    set := List.mem_append_left _ h.set
    course := by simpa [Moment.course_snoc, Moment.ofTask] using h.course.abort
    clearing := by
      simp [Moment.clearing_snoc, Moment.ofClear, h.clearing, Clearing.moments]
    table := h.table.trans (by simp)
    aborting := by simp
    aborted := by simp }

end Placed

theorem Stands.beside (h : Stands past s id) (he : e.Beside id)
    (hkeeps : Keeps s s' id) : Stands (past ++ [e]) s' id := by
  cases h with
  | unset h => exact .unset (h.beside he hkeeps)
  | placed h => exact .placed (h.beside he hkeeps)

theorem Unset.draw (h : Unset past s s.timers.draw.1) :
    Unset (past ++ [.drew s.timers.draw.1])
      { s with timers := s.timers.draw.2, drawn := s.drawn ++ [s.timers.draw.1] }
        s.timers.draw.1 where
  task := h.task
  drawn := by simp
  set := fun action => by simpa using h.set action
  course := by simp [Moment.course_snoc, Moment.ofTask, h.course]
  clearing := by simp [Moment.clearing_snoc, Moment.ofClear, h.clearing]
  table := h.table
  aborting := h.aborting

theorem Unset.enter (h : Unset past s id) (hdrawn : id ∈ s.drawn) (delay : Nat)
    (action : A) : Placed (past ++ [.entered id action])
      { s with
        timers := s.timers.enter id delay action, drawn := s.drawn.filter (· ≠ id) }
      id ⟨id, s.timers.now + delay, action, .sleeping, false⟩ .untouched where
  task := by rw [task?_enter, if_pos rfl, h.task, Option.none_or]
  drawn := by simp
  drew := List.mem_append_left _ (h.drawn.mp hdrawn)
  set := by simp
  course := by
    have hcourse : Course id action .untouched [] .sleeping := .sleeping nofun
    simpa [Moment.course_snoc, Moment.ofTask, h.course] using hcourse
  clearing := by
    simp [Moment.clearing_snoc, Moment.ofClear, h.clearing, Clearing.moments]
  table := (mem_enter _ _ _ _ _).trans (by simp)
  aborting := by simpa using h.aborting
  aborted := by simp

/-- How the timer of a moment stands after it. -/
theorem Step.stands (h : Stands past s k) (hfresh : .drew s.timers.draw.1 ∉ past)
    (hstep : Step s e s') (hk : e.id? = some k) : Stands (past ++ [e]) s' k := by
  cases hstep with
  | draw =>
      cases hk
      cases h with
      | unset h => exact .unset h.draw
      | placed h => exact absurd h.drew hfresh
  | enter hdrawn delay action =>
      cases hk
      cases h with
      | unset h => exact .placed (h.enter hdrawn delay action)
      | placed h => exact absurd hdrawn h.drawn
  | clear =>
      cases hk
      by_cases hmem : k ∈ s.timers.table
      · rw [(takeEntry_found _ _).mpr hmem]
        cases h with
        | unset h => exact absurd hmem h.table
        | placed h => exact .placed (h.clear hmem)
      · rw [takeEntry_of_notMem _ hmem]
        exact h.beside ⟨nofun, nofun, rfl, rfl⟩ ⟨rfl, .rfl, .rfl, .rfl⟩
  | abort hmem =>
      cases hk
      cases h with
      | unset h => exact absurd hmem h.aborting
      | placed h => exact .placed (h.abort hmem)
  | wake htask hstage hdue =>
      cases hk
      obtain ⟨c, h⟩ := h.exists_placed htask
      exact .placed (h.wake hstage hdue)
  | detach htask hstage =>
      cases hk
      obtain ⟨c, h⟩ := h.exists_placed htask
      exact .placed (h.detach hstage)
  | start hstart =>
      cases hk
      obtain ⟨task, htask, hstage, rfl, hstarted⟩ := start_some hstart
      obtain ⟨c, h⟩ := h.exists_placed htask
      exact .placed (h.start hstage hstarted)
  | stop htask hstage haborted =>
      cases hk
      obtain ⟨c, h⟩ := h.exists_placed htask
      exact .placed (h.stop hstage haborted)
  | pass => cases hk

theorem Step.count (hstep : Step s e s') :
    s'.timers.count = s.timers.count + (Moment.numbers [e]).length := by
  cases hstep with
  | draw | enter | clear | abort | pass => rfl
  | wake htask hstage hdue => rw [wake_of_sleeping htask hstage hdue]; rfl
  | detach htask hstage => rw [detach_of_awake htask hstage]; rfl
  | start hstart =>
      obtain ⟨_, -, -, -, hstart⟩ := start_some hstart
      rw [hstart]
      rfl
  | stop htask hstage haborted => rw [pause_of_aborted htask hstage haborted]; rfl

theorem Step.nodup (h : s.timers.table.Nodup) (hstand : ∀ id, Stands past s id)
    (hstep : Step s e s') : s'.timers.table.Nodup := by
  cases hstep with
  | @enter id hdrawn =>
      have hnew : id ∉ s.timers.table := by
        cases hstand id with
        | unset h => exact h.table
        | placed h => exact absurd hdrawn h.drawn
      exact List.nodup_append_comm.mp (List.nodup_cons.mpr ⟨hnew, h⟩)
  | draw | abort | pass => exact h
  | clear => exact h.filter _
  | wake htask hstage hdue => rw [wake_of_sleeping htask hstage hdue]; exact h
  | detach htask hstage => rw [detach_of_awake htask hstage]; exact h.filter _
  | start hstart =>
      obtain ⟨_, -, -, -, hstart⟩ := start_some hstart
      rw [hstart]
      exact h
  | stop htask hstage haborted => rw [pause_of_aborted htask hstage haborted]; exact h

/-- What has happened to timers, and how they are now. -/
structure Told (past : List (Moment A)) (s : Shared A) : Prop where
  numbers : Moment.numbers past = List.range' 1 s.timers.count
  distinct : ((Moment.settings past).map Prod.fst).Nodup
  nodup : s.timers.table.Nodup
  stands : ∀ id, Stands past s id

theorem Told.idle : Told [] (Shared.idle : Shared A) :=
  ⟨rfl, List.nodup_nil, List.nodup_nil,
    fun _ => .unset ⟨rfl, ⟨nofun, nofun⟩, nofun, rfl, rfl, nofun, nofun⟩⟩

theorem Told.step (h : Told past s) (hstep : Step s e s') : Told (past ++ [e]) s' where
  numbers := by
    rw [Moment.numbers_append, h.numbers, hstep.count, ← List.range'_append_1]
    congr 1
    cases hstep <;> first | rfl | exact congrArg (fun n => [n]) (Nat.add_comm _ _)
  distinct := by
    rw [Moment.settings_append, List.map_append]
    cases hstep with
    | @enter id hdrawn delay action =>
        -- A number that waits to be entered has not been entered before.
        refine List.nodup_append_comm.mp
          (List.nodup_cons.mpr ⟨fun hmem => ?_, h.distinct⟩)
        obtain ⟨⟨_, action⟩, hset, rfl⟩ := List.mem_map.mp hmem
        cases h.stands _ with
        | unset h => exact h.set action ((Moment.mem_settings _).mp hset)
        | placed h => exact h.drawn hdrawn
    | _ => simpa [Moment.settings] using h.distinct
  nodup := hstep.nodup h.nodup h.stands
  stands := fun k => by
    -- The timer of the moment goes on, and all others stand as they stood.
    by_cases hk : e.id? = some k
    · refine hstep.stands (h.stands k) (fun hmem => ?_) hk
      rw [← Moment.mem_numbers, h.numbers, List.mem_range'_1] at hmem
      exact absurd hmem.2 (by simp [draw, Nat.add_comm])
    · exact (h.stands k).beside (Moment.beside_of_ne hk) (hstep.keeps hk)

theorem Ran.told (h : Ran past s) : Told past s := by
  induction h with
  | start => exact .idle
  | step _ hstep ih => exact ih.step hstep

end Steps

end Shared

end Timers

end Resumable
