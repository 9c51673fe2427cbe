import Resumable.Proofs.Session.Reload

/-!
# The metrics timer of a session

What a story has to do with timers: they are set, cleared, and their callbacks run. A
timer is outstanding from when it is set until it is cleared or its callback runs. The
slot holds just the outstanding timer, callbacks of any other generation do nothing,
and a timer is armed while the live instance has performed since its metrics were
flushed.
-/

namespace Resumable

inductive TimerEvent where
  | set (timer : ArmedTimer)
  | cleared (id : Nat)
  | ran (generation : Nat)

namespace TimerEvent

def generation? : TimerEvent → Option Nat
  | .set timer => some timer.generation
  | .cleared _ => none
  | .ran _ => none

/-- The timer is set, and from then on it is not cleared and its callback
does not run. -/
def Outstanding (timer : ArmedTimer) (events : List TimerEvent) : Prop :=
  ∃ earlier later, events = earlier ++ .set timer :: later ∧ .cleared timer.id ∉ later ∧
    .ran timer.generation ∉ later

def generations (events : List TimerEvent) : List Nat := events.filterMap generation?

variable {timer : ArmedTimer} {events : List TimerEvent}

theorem generations_append (events events' : List TimerEvent) :
    generations (events ++ events') = generations events ++ generations events' :=
  List.filterMap_append

theorem not_outstanding_nil : ¬ Outstanding timer [] := by
  rintro ⟨earlier, later, h, -⟩
  simp at h

theorem outstanding_snoc {event : TimerEvent} :
    Outstanding timer (events ++ [event]) ↔
      event = .set timer ∨
        Outstanding timer events ∧ event ≠ .cleared timer.id ∧
        event ≠ .ran timer.generation := by
  constructor
  · rintro ⟨earlier, later, h, hcleared, hran⟩
    obtain ⟨rfl, rfl, hevent⟩ | ⟨rest, rfl, rfl⟩ := snoc_eq_append_cons h
    · exact .inl hevent
    · rw [List.mem_append, List.mem_singleton, not_or] at hcleared hran
      exact .inr ⟨⟨earlier, rest, rfl, hcleared.1, hran.1⟩, Ne.symm hcleared.2,
        Ne.symm hran.2⟩
  · rintro (rfl | ⟨⟨earlier, later, rfl, hcleared, hran⟩, hid, hgeneration⟩)
    · exact ⟨events, [], rfl, List.not_mem_nil, List.not_mem_nil⟩
    · refine ⟨earlier, later ++ [event], by simp, ?_, ?_⟩
      · rw [List.mem_append, List.mem_singleton, not_or]
        exact ⟨hcleared, Ne.symm hid⟩
      · rw [List.mem_append, List.mem_singleton, not_or]
        exact ⟨hran, Ne.symm hgeneration⟩

theorem outstanding_set {timer' : ArmedTimer} :
    Outstanding timer (events ++ [.set timer']) ↔
    timer' = timer ∨ Outstanding timer events := by
  simp [outstanding_snoc]

theorem outstanding_cleared {id : Nat} :
    Outstanding timer (events ++ [.cleared id]) ↔ Outstanding timer events ∧
    id ≠ timer.id := by
  simp [outstanding_snoc]

theorem outstanding_ran {generation : Nat} :
    Outstanding timer (events ++ [.ran generation]) ↔
      Outstanding timer events ∧ generation ≠ timer.generation := by
  simp [outstanding_snoc]

end TimerEvent

namespace Exchange

def timing? : Exchange → Option TimerEvent
  | ⟨.setTimer _ generation, id⟩ => some (.set ⟨id, generation⟩)
  | ⟨.clearTimer id, _⟩ => some (.cleared id)
  | _ => none

def timings (log : List Exchange) : List TimerEvent := log.filterMap timing?

theorem timings_append (log log' : List Exchange) :
    timings (log ++ log') = timings log ++ timings log' :=
  List.filterMap_append

theorem timings_clearing {G : Type} (s : Slot G) :
    timings s.clearing = s.timer.toList.map fun timer => .cleared timer.id := by
  unfold Slot.clearing
  cases s.timer <;> rfl

end Exchange

abbrev Task.Untimed {α : Type} (t : Task α) : Prop := t.Only fun r => r.timed = false

theorem Task.Untimed.timings_eq_nil {α : Type} {t : Task α}
    {log : List Exchange} {a : α} (h : t.Untimed) (hruns : t.Runs log a) :
    Exchange.timings log = [] := by
  refine List.filterMap_eq_nil_iff.mpr fun e he => ?_
  have := h.runs hruns e he
  rcases e with ⟨request, answer⟩
  cases request <;> first | rfl | cases this

theorem Task.ForCore.untimed {α : Type} {t : Task α} (h : t.ForCore) : t.Untimed :=
  h.mono fun _ => Request.untimed_of_forCore

theorem Task.untimed_request {r : Request} (h : r.timed = false) :
    (Task.request r).Untimed :=
  Task.only_request h

theorem EventKind.untimed_forward (kind : EventKind) (events : List String) :
    (kind.forward events).Untimed := by
  unfold forward
  split
  · trivial
  · exact Task.Only.bind (Task.untimed_request rfl) fun _ => Task.only_pure _

namespace Instance

variable {G : Type} (i : Instance G)

theorem untimed_salvage (e : CallError) : (i.salvage e).Untimed := by
  refine (i.forCore_act _).untimed.bind fun reset => ?_
  refine (forCore_act _ _).untimed.bind fun dump =>
    (forCore_act _ _).untimed.bind fun metrics => ?_
  exact (EventKind.untimed_forward _ _).bind fun _ =>
    (EventKind.untimed_forward _ _).bind fun _ => Task.only_pure _

theorem untimed_flushMetrics : i.flushMetrics.Untimed := by
  refine (i.forCore_act _).untimed.bind fun metrics => ?_
  rcases metrics with ⟨e | events, j⟩
  · exact Task.only_pure _
  · refine (j.forCore_act _).untimed.bind fun cleared => ?_
    rcases cleared with ⟨e | _, k⟩
    · exact Task.only_pure _
    · exact (EventKind.untimed_forward _ _).bind fun _ => Task.only_pure _

end Instance

namespace Setup

variable {G : Type} {setup : Setup G} {s s' : Slot G} {operation : Operation}
  {log : List Exchange} {answer : Answer} {past : List (Entry G)}

theorem untimed_finish (setup : Setup G) (i : Instance G) :
    (setup.finish i).Untimed := by
  refine i.untimed_flushMetrics.bind fun flushed => ?_
  rcases flushed with ⟨e | _, j⟩
  · exact Task.only_pure _
  · exact (j.forCore_call _ _).untimed

def Operation.timings : Operation → List TimerEvent
  | .fire generation => [.ran generation]
  | _ => []

namespace Entry

def timings (e : Entry G) : List TimerEvent :=
  Exchange.timings e.log ++ e.operation.timings

def Flushes (e : Entry G) : Prop := ∃ timer, e.before.timer = some timer ∧
    e.operation = .fire timer.generation

def Completes (setup : Setup G) (e : Entry G) : Prop :=
  ∃ request state i, e.operation = .perform request ∧
    setup.Called request e.before e.log (.ok state) i

end Entry

def timings (past : List (Entry G)) : List TimerEvent := past.flatMap Entry.timings

/-- The live instance has performed since its metrics were flushed. -/
def Unflushed (setup : Setup G) (past : List (Entry G)) : Prop :=
  ∃ earlier e later, past = earlier ++ e :: later ∧ e.Completes setup ∧
    ∀ x ∈ later, x.after.live.isSome ∧ ¬ x.Flushes

/-- What an operation does with timers and what it makes of that of the slot. -/
inductive Ticks (s s' : Slot G) : List TimerEvent → Prop where
  | idle (htimer : s'.timer = s.timer)
      (hnext : s'.nextGeneration = s.nextGeneration) : Ticks s s' []
  | set (id : Nat) (h : s.timer = none)
      (htimer : s'.timer = some ⟨id, s.nextGeneration⟩)
      (hnext : s'.nextGeneration = s.nextGeneration + 1) :
      Ticks s s' [.set ⟨id, s.nextGeneration⟩]
  | cleared {timer : ArmedTimer} (h : s.timer = some timer) (htimer : s'.timer = none)
      (hnext : s'.nextGeneration = s.nextGeneration) : Ticks s s' [.cleared timer.id]
  | ran {timer : ArmedTimer} (h : s.timer = some timer) (htimer : s'.timer = none)
      (hnext : s'.nextGeneration = s.nextGeneration) :
      Ticks s s' [.ran timer.generation]
  | ranLate {generation : Nat} (h : s.timer.map ArmedTimer.generation ≠ some generation)
      (htimer : s'.timer = s.timer) (hnext : s'.nextGeneration = s.nextGeneration) :
      Ticks s s' [.ran generation]

theorem Ticks.clearing (htimer : s'.timer = none)
    (hnext : s'.nextGeneration = s.nextGeneration)
    (hoperation : operation.timings = []) :
    Ticks s s' (Exchange.timings s.clearing ++ operation.timings) := by
  rw [Exchange.timings_clearing, hoperation, List.append_nil]
  cases h : s.timer with
  | none => exact .idle (htimer.trans h.symm) hnext
  | some timer => exact .cleared h htimer hnext

theorem Sourced.timings_eq_nil {bytes : ByteArray}
    (h : setup.Sourced operation log bytes) :
    Exchange.timings log ++ operation.timings = [] := by
  cases h with
  | given => rfl
  | read hread =>
      rw [(outward_readFile _ _).forCore.untimed.timings_eq_nil hread]
      rfl

theorem Course.ticks (h : setup.Course operation log answer s s') :
    Ticks s s' (Exchange.timings log ++ operation.timings) := by
  cases h with
  | unreadable hread =>
      rw [(outward_readFile _ _).forCore.untimed.timings_eq_nil hread]
      exact .idle rfl rfl
  | uncompiled hsource | rejected hsource | installed hsource =>
      rw [hsource.timings_eq_nil]
      exact .idle rfl rfl
  | readyAlready | unprepared | blank | notLive | goneAlready => exact .idle rfl rfl
  | initialized _ _ hmade hcall =>
      rw [Exchange.timings_append,
        (Core.forCore_instantiate _ _).untimed.timings_eq_nil hmade,
        (Instance.forCore_call _ _ _).untimed.timings_eq_nil hcall]
      exact .idle rfl rfl
  | unmade _ _ hmade =>
      rw [(Core.forCore_instantiate _ _).untimed.timings_eq_nil hmade]
      exact .idle rfl rfl
  | stillborn _ _ hmade hcall hsalvage =>
      rw [Exchange.timings_append, Exchange.timings_append,
        (Core.forCore_instantiate _ _).untimed.timings_eq_nil hmade,
        (Instance.forCore_call _ _ _).untimed.timings_eq_nil hcall,
        (Instance.untimed_salvage _ _).timings_eq_nil hsalvage]
      exact .idle rfl rfl
  | performed _ _ hcall harm =>
      rw [Exchange.timings_append,
        (Instance.forCore_perform _ _ _).untimed.timings_eq_nil hcall]
      obtain ⟨-, rfl, rfl⟩ | ⟨htimer, id, rfl, rfl⟩ := Slot.runs_armTimer harm
      · exact .idle rfl rfl
      · exact .set id htimer rfl rfl
  | failed _ _ hcall hsalvage =>
      rw [Exchange.timings_append, Exchange.timings_append,
        (Instance.forCore_perform _ _ _).untimed.timings_eq_nil hcall,
        (Instance.untimed_salvage _ _).timings_eq_nil hsalvage, List.nil_append,
        List.append_nil]
      exact .clearing rfl rfl rfl
  | goneIdle => exact .clearing rfl rfl rfl
  | gone _ _ hfinish =>
      rw [Exchange.timings_append, (setup.untimed_finish _).timings_eq_nil hfinish,
        List.append_nil]
      exact .clearing rfl rfl rfl
  | goneFailing _ _ hfinish hsalvage =>
      rw [Exchange.timings_append, Exchange.timings_append,
        (setup.untimed_finish _).timings_eq_nil hfinish,
        (Instance.untimed_salvage _ _).timings_eq_nil hsalvage, List.append_nil,
        List.append_nil]
      exact .clearing rfl rfl rfl
  | stale h => exact .ranLate h rfl rfl
  | firedIdle htimer => exact .ran htimer rfl rfl
  | flushed htimer _ hflush =>
      rw [(Instance.untimed_flushMetrics _).timings_eq_nil hflush]
      exact .ran htimer rfl rfl
  | unflushed htimer _ hflush hsalvage =>
      rw [Exchange.timings_append,
        (Instance.untimed_flushMetrics _).timings_eq_nil hflush,
        (Instance.untimed_salvage _ _).timings_eq_nil hsalvage]
      exact .ran htimer rfl rfl

/-- The slot holds the timer that is outstanding, and counts the timers
that were set. -/
structure Timekeeping (events : List TimerEvent) (s : Slot G) : Prop where
  outstanding : ∀ timer, TimerEvent.Outstanding timer events ↔ s.timer = some timer
  generations : TimerEvent.generations events = List.range s.nextGeneration

namespace Timekeeping

variable {events more : List TimerEvent}

theorem new : Timekeeping [] (Slot.empty : Slot G) where
  outstanding :=
    fun _ => ⟨fun h => absurd h TimerEvent.not_outstanding_nil, fun h => nomatch h⟩
  generations := rfl

theorem next (h : Timekeeping events s) (hticks : Ticks s s' more) :
    Timekeeping (events ++ more) s' where
  outstanding := by
    intro timer
    cases hticks with
    | idle htimer => rw [List.append_nil, htimer, h.outstanding]
    | set id hnone htimer =>
        rw [TimerEvent.outstanding_set, h.outstanding, hnone, htimer]
        simp
    | cleared hsome htimer =>
        rw [TimerEvent.outstanding_cleared, h.outstanding, hsome, htimer]
        refine ⟨?_, fun h => nomatch h⟩
        rintro ⟨⟨⟩, hid⟩
        exact absurd rfl hid
    | ran hsome htimer =>
        rw [TimerEvent.outstanding_ran, h.outstanding, hsome, htimer]
        refine ⟨?_, fun h => nomatch h⟩
        rintro ⟨⟨⟩, hgeneration⟩
        exact absurd rfl hgeneration
    | ranLate hlate htimer =>
        rw [TimerEvent.outstanding_ran, h.outstanding, htimer]
        refine and_iff_left_of_imp fun hsome hgeneration => hlate ?_
        rw [hsome, hgeneration]
        rfl
  generations := by
    rw [TimerEvent.generations_append, h.generations]
    cases hticks with
    | idle _ hnext | cleared _ _ hnext | ran _ _ hnext | ranLate _ _ hnext =>
        rw [hnext]
        exact List.append_nil _
    | set id _ _ hnext =>
        rw [hnext, List.range_succ]
        rfl

end Timekeeping

theorem timings_snoc (past : List (Entry G)) (e : Entry G) :
    timings (past ++ [e]) = timings past ++ e.timings := by
  simp [timings]

theorem Story.timekeeping (h : setup.Story past s) : Timekeeping (timings past) s := by
  induction h with
  | new => exact .new
  | next _ runs ih =>
      rw [timings_snoc]
      exact ih.next (carryOut_course runs).ticks

/-- What keeps the instance and is no flush keeps a timer armed. -/
theorem Course.stays_armed (h : setup.Course operation log answer s s')
    (harmed : s.timer.isSome) (hlive : s'.live.isSome)
    (hflush : ¬ (⟨s, operation, log, answer, s'⟩ : Entry G).Flushes) :
    s'.timer.isSome := by
  cases h with
  | unreadable | uncompiled | rejected | installed | readyAlready | initialized
      | unmade | stillborn
  | unprepared | blank | notLive | goneAlready | stale => exact harmed
  | performed _ _ _ harm =>
      obtain ⟨-, -, rfl⟩ | ⟨-, id, -, rfl⟩ := Slot.runs_armTimer harm
      · exact harmed
      · rfl
  | failed | goneIdle | gone | goneFailing => cases hlive
  | firedIdle htimer | flushed htimer | unflushed htimer =>
      exact absurd ⟨_, htimer, rfl⟩ hflush

theorem armed_of_completes (runs : (setup.carryOut operation s).Runs log (answer, s'))
    (h : (⟨s, operation, log, answer, s'⟩ : Entry G).Completes setup) :
    s'.timer.isSome := by
  obtain ⟨request, state, i, hoperation, hcalled⟩ := h
  cases hoperation
  obtain ⟨⟨r, t⟩, log₁, log₂, rfl, hruns, rfl, hr⟩ := Task.runs_bind.mp runs
  cases hr
  rw [List.append_nil] at hcalled
  cases performs_of_runs hruns with
  | refused _ hrefused => exact absurd hcalled.accepted hrefused
  | completed _ _ _ _ harmed => exact harmed
  | failed hcalled' => cases (hcalled.unique hcalled').1

theorem unflushed_snoc {e : Entry G} (h : Unflushed setup (past ++ [e])) :
    e.Completes setup ∨ Unflushed setup past ∧ e.after.live.isSome ∧ ¬ e.Flushes := by
  obtain ⟨earlier, x, later, hpast, hcompletes, hlater⟩ := h
  obtain ⟨rfl, rfl, rfl⟩ | ⟨rest, rfl, rfl⟩ := snoc_eq_append_cons hpast
  · exact .inl hcompletes
  · rw [List.forall_mem_append, List.forall_mem_singleton] at hlater
    exact .inr ⟨⟨earlier, x, rest, rfl, hcompletes, hlater.1⟩, hlater.2⟩

theorem Story.armed (h : setup.Story past s) (hunflushed : Unflushed setup past) :
    s.timer.isSome := by
  induction h with
  | new =>
      obtain ⟨earlier, x, later, hpast, -⟩ := hunflushed
      simp at hpast
  | next _ runs ih =>
      obtain hcompletes | ⟨hpast, hlive, hflush⟩ := unflushed_snoc hunflushed
      · exact armed_of_completes runs hcompletes
      · exact (carryOut_course runs).stays_armed (ih hpast) hlive hflush

/-- The callback of any but the armed timer does nothing at all. -/
theorem flushFromTimer_of_ne {generation : Nat}
    (h : s.timer.map ArmedTimer.generation ≠ some generation) :
    flushFromTimer generation s = return s := by
  unfold flushFromTimer
  rw [if_pos h]

/-- However a session has come to where it is, the timer of its slot is the one that
is outstanding, of which there is at most one. No generation is given to two timers.
While the live instance has performed since its metrics were flushed, a timer is
armed; and the callback of any other generation than the armed one, or of any
generation if none is armed, leaves the session as it is and asks for nothing. -/
theorem Story.timer_iff_outstanding (h : setup.Story past s) :
    (∀ timer, s.timer = some timer ↔ TimerEvent.Outstanding timer (timings past)) ∧
      (∀ timer timer', TimerEvent.Outstanding timer (timings past) →
        TimerEvent.Outstanding timer' (timings past) → timer = timer') ∧
      (TimerEvent.generations (timings past)).Nodup ∧
      (Unflushed setup past → s.timer.isSome) ∧
      ∀ generation, s.timer.map ArmedTimer.generation ≠ some generation →
        flushFromTimer generation s = return s := by
  have htime := h.timekeeping
  refine ⟨fun timer => (htime.outstanding timer).symm, ?_, ?_, h.armed,
    fun _ => flushFromTimer_of_ne⟩
  · intro timer timer' ht ht'
    rw [htime.outstanding] at ht ht'
    exact Option.some.inj (ht.symm.trans ht')
  · rw [htime.generations]
    exact List.nodup_range

/-- The quiet core has performed, and a timer waits to flush its metrics. -/
theorem quiet_performed_armed :
    ∃ past s, quiet.Story past s ∧ Unflushed quiet past ∧ s.timer.isSome := by
  let request : PerformRequest :=
    { profileUrl := "p", providerUrl := "v", mapUrl := "m", usecase := "u" }
  have hrun : (((quiet.answerAfter [.load .empty, .init] request).run
      Scripted.Scene.serve (.bare [])).any
        fun ended => ended.1.1.live.isSome && !wantsReload ended.1.2) = true := by
    decide +kernel
  obtain ⟨past, s, r, log, s', hstory, hruns, hcheck⟩ :=
    exists_story_of_run (p := fun s r => s.live.isSome && !wantsReload r) hrun
  obtain ⟨hlive, hwants⟩ := Bool.and_eq_true_iff.mp hcheck
  have hr e (he : r = .error e) : e.requiresReload = false := by
    rw [he] at hwants
    exact (Bool.not_eq_true' _).mp hwants
  have hblank : request.firstBlank? = none := by decide +kernel
  obtain ⟨state, i, hcalled⟩ := called_of_accepted hruns ⟨hblank, hlive⟩ hr
  have hnext := hstory.next (runs_carryOut_perform hruns)
  have hunflushed :
      Unflushed quiet (past ++ [⟨s, .perform request, log, .performed r, s'⟩]) :=
    ⟨past, _, [], rfl, ⟨request, state, i, rfl, hcalled⟩, fun _ h => nomatch h⟩
  exact ⟨_, s', hnext, hunflushed,
    (Story.timer_iff_outstanding hnext).2.2.2.1 hunflushed⟩

end Setup

end Resumable
