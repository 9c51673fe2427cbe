import Resumable.Proofs.Session.History

namespace Resumable

namespace Setup

variable {G : Type}

structure Entry (G : Type) where
  before : Slot G
  operation : Operation
  log : List Exchange
  answer : Answer
  after : Slot G

inductive Story (setup : Setup G) : List (Entry G) → Slot G → Prop where
  | new : Story setup [] .empty
  | next {past : List (Entry G)} {s s' : Slot G} {operation : Operation}
      {log : List Exchange} {answer : Answer} (h : Story setup past s)
      (runs : (setup.carryOut operation s).Runs log (answer, s')) :
      Story setup (past ++ [⟨s, operation, log, answer, s'⟩]) s'

variable {setup : Setup G} {past : List (Entry G)} {s : Slot G}

theorem Story.reachable (h : setup.Story past s) : setup.Reachable s := by
  induction h with
  | new => exact .empty
  | next _ runs ih => exact .step ih runs.ends

theorem Reachable.story (h : setup.Reachable s) : ∃ past, setup.Story past s := by
  induction h with
  | empty => exact ⟨[], .new⟩
  | step _ ends ih =>
      obtain ⟨past, hpast⟩ := ih
      obtain ⟨log, runs⟩ := ends.runs
      exact ⟨_, hpast.next runs⟩

/-- A session may get from one slot to another by carrying out the operations
of `later`. -/
inductive Continues (setup : Setup G) (s : Slot G) :
    List (Entry G) → Slot G → Prop where
  | refl : Continues setup s [] s
  | next {later : List (Entry G)} {t t' : Slot G} {operation : Operation}
      {log : List Exchange} {answer : Answer} (h : Continues setup s later t)
      (runs : (setup.carryOut operation t).Runs log (answer, t')) :
      Continues setup s (later ++ [⟨t, operation, log, answer, t'⟩]) t'

theorem Story.continues (h : setup.Story past s) : setup.Continues .empty past s := by
  induction h with
  | new => exact .refl
  | next _ runs ih => exact ih.next runs

/-- A story up to one of its entries, the entry, and what follows. -/
theorem Story.split {earlier later : List (Entry G)} {e : Entry G}
    (h : setup.Story (earlier ++ e :: later) s) :
    setup.Story earlier e.before ∧
    (setup.carryOut e.operation e.before).Runs e.log (e.answer, e.after) ∧
      setup.Continues e.after later s := by
  generalize hpast : earlier ++ e :: later = past at h
  induction h generalizing later with
  | new => exact absurd hpast (by simp)
  | next h runs ih =>
      obtain ⟨rfl, rfl, rfl⟩ | ⟨rest, rfl, rfl⟩ := snoc_eq_append_cons hpast.symm
      · exact ⟨h, runs, .refl⟩
      · obtain ⟨hearlier, hentry, hlater⟩ := ih rfl
        exact ⟨hearlier, hentry, hlater.next runs⟩

theorem runs_carryOut_perform {request : PerformRequest} {r : Except PerformError Json}
    {log : List Exchange} {s' : Slot G}
    (h : (setup.perform request s).Runs log (r, s')) :
    (setup.carryOut (.perform request) s).Runs log (.performed r, s') :=
  Task.runs_bind.mpr ⟨(r, s'), log, [], (List.append_nil _).symm, h, rfl, rfl⟩

/-- Some operations and a perform, carried out by a given service, as a story and what
comes next in it. -/
theorem exists_story_of_run {W : Type}
    {serve : (r : Request) → W → r.Response × W} {w : W} {operations : List Operation}
    {request : PerformRequest} {p : Slot G → Except PerformError Json → Bool}
    (h : (((setup.answerAfter operations request).run serve w).any
      fun ended => p ended.1.1 ended.1.2) = true) :
    ∃ past s r log s', setup.Story past s ∧ (setup.perform request s).Runs log (r, s') ∧
      p s r = true := by
  obtain ⟨⟨s, r⟩, hends, hp⟩ := Task.exists_ends_of_run
    (p := fun ended : Slot G × Except PerformError Json => p ended.1 ended.2) h
  obtain ⟨hreachable, s', hperform⟩ := reachable_of_answerAfter hends
  obtain ⟨past, hstory⟩ := hreachable.story
  obtain ⟨log, hruns⟩ := hperform.runs
  exact ⟨past, s, r, log, s', hstory, hruns, hp⟩

section Tell

variable {W : Type} {serve : (r : Request) → W → r.Response × W}

/-- What becomes of operations if a given service serves them, and the session
behind them. -/
def tell (setup : Setup G) (serve : (r : Request) → W → r.Response × W) :
    List Operation → Slot G → W → Option (List (Entry G) × Slot G)
  | [], s, _ => some ([], s)
  | operation :: rest, s, w => do
      let (log, (answer, s'), w) ← (setup.carryOut operation s).follow serve w
      let (later, t) ← tell setup serve rest s' w
      return (⟨s, operation, log, answer, s'⟩ :: later, t)

theorem Story.tell {operations : List Operation} {later : List (Entry G)}
    {t : Slot G} {w : W} (h : setup.Story past s)
    (htold : setup.tell serve operations s w = some (later, t)) :
    setup.Story (past ++ later) t := by
  induction operations generalizing past s later w with
  | nil =>
      cases htold
      rwa [List.append_nil]
  | cons operation rest ih =>
      obtain ⟨⟨log, ⟨answer, s'⟩, w'⟩, hfollow, htold⟩ :=
        Option.bind_eq_some_iff.mp htold
      obtain ⟨⟨later, t⟩, hrest, htold⟩ := Option.bind_eq_some_iff.mp htold
      cases htold
      have hlater := ih (h.next (Task.runs_of_follow hfollow)) hrest
      rwa [List.append_assoc] at hlater

theorem operations_tell {operations : List Operation} {later : List (Entry G)}
    {t : Slot G} {w : W} (htold : setup.tell serve operations s w = some (later, t)) :
    later.map Entry.operation = operations := by
  induction operations generalizing s later w with
  | nil =>
      cases htold
      rfl
  | cons operation rest ih =>
      obtain ⟨⟨log, ⟨answer, s'⟩, w'⟩, -, htold⟩ := Option.bind_eq_some_iff.mp htold
      obtain ⟨⟨later, t⟩, hrest, htold⟩ := Option.bind_eq_some_iff.mp htold
      cases htold
      rw [List.map_cons, ih hrest]

/-- A given service makes a story of operations. -/
theorem exists_story_of_tell {operations : List Operation} {w : W}
    {p : List (Entry G) → Bool}
    (h : ((setup.tell serve operations .empty w).any fun told => p told.1) = true) :
    ∃ past s, setup.Story past s ∧ past.map Entry.operation = operations ∧
    p past = true := by
  rcases htold : setup.tell serve operations .empty w with _ | ⟨past, s⟩
  · rw [htold] at h
    cases h
  · rw [htold] at h
    exact ⟨past, s, Story.new.tell htold, operations_tell htold, h⟩

end Tell

end Setup

end Resumable
