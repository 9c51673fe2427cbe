import Resumable.Proofs.Host.Arenas
import Resumable.Proofs.Host.Header
import Resumable.Proofs.Host.Journal
import Resumable.Proofs.Session.Instances
import Resumable.Proofs.Session.Reload

/-!
# The metrics that a session forwards

The metrics of an instance are read when the timer flushes them, when the session is
torn down, and when the instance is given up. `passed` is what a story has forwarded
for the live instance. If the cores keep a journal, that is what the instance has
cleared; and when the instance is gone, all that it had recorded has been forwarded,
once and in its order, unless its metrics could not be read any more.
-/

namespace Resumable

namespace Exchange

theorem forwarded_clearing {G : Type} (s : Slot G) : forwarded s.clearing = [] := by
  unfold Slot.clearing
  split <;> rfl

theorem forwarded_clearing_append {G : Type} (s : Slot G) (log : List Exchange) :
    forwarded (s.clearing ++ log) = forwarded log := by
  rw [forwarded_append, forwarded_clearing, List.nil_append]

theorem forwarded_armTimer {G : Type} {config : RuntimeConfig} {s t : Slot G}
    {log : List Exchange} (h : (s.armTimer config).Runs log t) :
    forwarded log = [] := by
  obtain ⟨-, rfl, -⟩ | ⟨-, id, rfl, -⟩ := Slot.runs_armTimer h <;> rfl

end Exchange

theorem Slot.forall_live {G : Type} {s : Slot G} {p : Instance G → Prop}
    {i : Instance G} (hlive : s.live = some i) (h : p i) :
    ∀ j, s.live = some j → p j := by
  intro j hj
  rw [hlive] at hj
  cases hj
  exact h

namespace Setup

variable {G : Type} {setup : Setup G} {s s' : Slot G} {operation : Operation}
  {answer : Answer} {log : List Exchange} {past : List (Entry G)}

theorem Sourced.forwarded_eq_nil {bytes : ByteArray}
    (h : setup.Sourced operation log bytes) : Exchange.forwarded log = [] := by
  cases h with
  | given => rfl
  | read hread => exact (outward_readFile _ _).forCore.forwarded_eq_nil hread

/-- An operation gives an instance up. The last reading of its metrics goes with it. -/
inductive GivesUp (setup : Setup G) (s : Slot G) :
    Operation → List Exchange → Except CallError (List String) × Instance G → Prop where
  | init {log₁ log₂ log₃ : List Exchange} {core : Core G} {i i' : Instance G}
      {e : CallError} {answer : PerformError} (hlive : s.live = none)
      (hcore : s.compiled = some core)
      (hmade : (core.instantiate setup.config).Runs log₁ (.ok i))
      (hcall : (i.setup setup.fuel).Runs log₂ (.error e, i'))
      (hsalvage : (i'.salvage e).Runs log₃ answer) :
      GivesUp setup s .init (log₁ ++ (log₂ ++ log₃)) i'.lastReading
  | perform {log₁ log₂ : List Exchange} {request : PerformRequest} {i i' : Instance G}
      {e : CallError} {answer : PerformError} (hlive : s.live = some i)
      (hcall : (i.perform setup.fuel request).Runs log₁ (.error e, i'))
      (hsalvage : (i'.salvage e).Runs log₂ answer) :
      GivesUp setup s (.perform request) (log₁ ++ (s.clearing ++ log₂)) i'.lastReading
  | destroy {log : List Exchange} {i i' : Instance G} (hlive : s.live = some i)
      (hfinish : (setup.finish i).Runs log (.ok (), i')) :
      GivesUp setup s .destroy (s.clearing ++ log) (Instance.readMetrics.on i)
  | destroyFailing {log₁ log₂ : List Exchange} {i i' : Instance G} {e : CallError}
      {answer : PerformError} (hlive : s.live = some i)
      (hfinish : (setup.finish i).Runs log₁ (.error e, i'))
      (hsalvage : (i'.salvage e).Runs log₂ answer) :
      GivesUp setup s .destroy (s.clearing ++ (log₁ ++ log₂)) i'.lastReading
  | fire {log₁ log₂ : List Exchange} {timer : ArmedTimer} {i i' : Instance G}
      {e : CallError} {answer : PerformError} (htimer : s.timer = some timer)
      (hlive : s.live = some i) (hflush : i.flushMetrics.Runs log₁ (.error e, i'))
      (hsalvage : (i'.salvage e).Runs log₂ answer) :
      GivesUp setup s (.fire timer.generation) (log₁ ++ log₂) i'.lastReading

def Entry.pass (passed : List String) (e : Entry G) : List String :=
  if e.after.live.isSome then passed ++ Exchange.forwarded e.log else []

/-- The metrics forwarded for the live instance, since it was made. -/
def passed (past : List (Entry G)) : List String := past.foldl Entry.pass []

theorem passed_snoc (past : List (Entry G)) (e : Entry G) :
    passed (past ++ [e]) = e.pass (passed past) := by
  simp [passed]

end Setup

namespace Journal

variable {G : Type} {J : Journal G} {setup : Setup G} {s s' : Slot G}
  {log : List Exchange} {past : List (Setup.Entry G)}

/-- The cores that a session may load keep a journal, in which a fresh instance has
cleared nothing. -/
structure Describes (J : Journal G) (setup : Setup G) : Prop where
  made : ∀ bytes core i, setup.compile bytes = some core →
    (core.instantiate setup.config).Ends (.ok i) →
      J.KeptBy setup.fuel setup.config i.exports ∧ J.sound i.core none ∧
      J.cleared i.core = []

/-- What the live instance has cleared; nothing if there is none. -/
def clearedBy (J : Journal G) (s : Slot G) : List String :=
  s.live.elim [] fun i => J.cleared i.core

/-- The live instance keeps a journal, and what it has cleared has been passed on. -/
structure Booked (J : Journal G) (setup : Setup G) (passed : List String)
    (s : Slot G) : Prop where
  compiled : ∀ core, s.compiled = some core → ∃ bytes, setup.compile bytes = some core
  kept : ∀ i, s.live = some i →
    J.KeptBy setup.fuel setup.config i.exports ∧ J.Holds setup.config i.exports i
  passed : passed = J.clearedBy s

theorem clearedBy_of_live {i : Instance G} (h : s.live = some i) :
    J.clearedBy s = J.cleared i.core := by
  rw [clearedBy, h]
  rfl

theorem clearedBy_of_none (h : s.live = none) : J.clearedBy s = [] := by
  rw [clearedBy, h]
  rfl

theorem Describes.fresh (hJ : J.Describes setup) {bytes : ByteArray} {core : Core G}
    {i : Instance G} (hcompile : setup.compile bytes = some core)
    (hmade : (core.instantiate setup.config).Ends (.ok i)) :
    J.KeptBy setup.fuel setup.config i.exports ∧ J.Holds setup.config i.exports i ∧
      J.cleared i.core = [] := by
  obtain ⟨hkept, hsound, hcleared⟩ := hJ.made bytes core i hcompile hmade
  obtain ⟨_, _, rfl⟩ := Core.ends_instantiate hmade
  exact ⟨hkept, ⟨rfl, rfl, hsound⟩, hcleared⟩

namespace KeptBy

variable {config : RuntimeConfig} {x : Exports G} {c c' : CoreState G}
  {i i' : Instance G} {e : CallError}

theorem called (hJ : J.KeptBy setup.fuel config x)
    {entry : Exports G → CoreState G → Activation G Unit}
    (hentry : J.Keeps config x (Instance.invoke entry)) (hi : J.Since config x c i)
    {r : Except CallError Unit} (h : (i.call setup.fuel entry).Runs log (r, i'))
    (hexpects : ∀ e ∈ log, J.expects e) :
    J.Since config x c i' ∧ Exchange.forwarded log = [] :=
  ⟨hJ.since_of_call hentry hi h hexpects, (i.forCore_call _ _).forwarded_eq_nil h⟩

theorem performed (hJ : J.KeptBy setup.fuel config x) (hi : J.Since config x c i)
    {request : PerformRequest} {r : Except CallError PerformState}
    (h : (i.perform setup.fuel request).Runs log (r, i'))
    (hexpects : ∀ e ∈ log, J.expects e) :
    J.Since config x c i' ∧ Exchange.forwarded log = [] :=
  ⟨hJ.since_of_perform hi h hexpects, (i.forCore_perform _ _).forwarded_eq_nil h⟩

theorem finished (hJ : J.KeptBy setup.fuel config x) (hi : J.Since config x c i)
    (h : (setup.finish i).Runs log (.ok (), i')) (hexpects : ∀ e ∈ log, J.expects e) :
    J.recorded c <+: J.recorded (Instance.readMetrics.on i).2.core ∧
      J.cleared c ++ Exchange.forwarded log = J.due (Instance.readMetrics.on i) := by
  obtain ⟨⟨flushed, k⟩, log₁, log₂, rfl, hflush, h⟩ := Task.runs_bind.mp h
  cases flushed with
  | error e =>
      obtain ⟨-, hr⟩ := h
      cases hr
  | ok _ =>
      obtain ⟨events, j, hread, hj, hk, -, -, hforwarded⟩ := hJ.flushed hi hflush
      have hlog₂ :=
        (hJ.called hJ.teardown hk.since h (List.forall_mem_append.mp hexpects).2).2
      rw [hread, Exchange.forwarded_append, hlog₂, List.append_nil]
      exact ⟨hj.grows.recorded, hforwarded⟩

/-- If tearing down fails, the journal is at some point behind which nothing is
cleared or forwarded. -/
theorem unfinished (hJ : J.KeptBy setup.fuel config x) (hi : J.Since config x c i)
    (h : (setup.finish i).Runs log (.error e, i')) (hexpects : ∀ e ∈ log, J.expects e) :
    ∃ c', J.Since config x c' i' ∧ J.recorded c <+: J.recorded c' ∧
      J.cleared c' = J.cleared c ++ Exchange.forwarded log := by
  obtain ⟨⟨flushed, k⟩, log₁, log₂, rfl, hflush, h⟩ := Task.runs_bind.mp h
  cases flushed with
  | error e =>
      obtain ⟨rfl, hr⟩ := h
      cases hr
      obtain ⟨hk, hforwarded⟩ := hJ.unflushed hi hflush
      refine ⟨c, hk, List.prefix_refl _, ?_⟩
      rw [List.append_nil, hforwarded, List.append_nil]
  | ok _ =>
      obtain ⟨events, j, -, hj, hk, hcleared, hrecorded, hforwarded⟩ :=
        hJ.flushed hi hflush
      obtain ⟨hi', hlog₂⟩ := hJ.called hJ.teardown hk.since h
        (List.forall_mem_append.mp hexpects).2
      refine ⟨k.core, hi', ?_, ?_⟩
      · rw [hrecorded]
        exact hj.grows.recorded
      · rw [Exchange.forwarded_append, hlog₂, List.append_nil, hcleared, hforwarded]

/-- An instance is given up from a point behind which nothing is cleared
or forwarded. -/
theorem givenUp (hJ : J.KeptBy setup.fuel config x) (hi : J.Since config x c' i)
    (hrecorded : J.recorded c <+: J.recorded c')
    {log₁ log₂ : List Exchange}
    (hcleared : J.cleared c' = J.cleared c ++ Exchange.forwarded log₁)
    {answer : PerformError} (h : (i.salvage e).Runs log₂ answer) :
    J.recorded c <+: J.recorded i.lastReading.2.core ∧
      J.cleared c ++ Exchange.forwarded (log₁ ++ log₂) = J.due i.lastReading := by
  obtain ⟨hlast, hdue⟩ := hJ.salvaged hi h
  refine ⟨hrecorded.trans hlast.grows.recorded, ?_⟩
  rw [Exchange.forwarded_append, ← List.append_assoc, ← hcleared, hdue]

theorem givenUp_since (hJ : J.KeptBy setup.fuel config x) (hi : J.Since config x c i)
    {log₁ log₂ : List Exchange} (hlog₁ : Exchange.forwarded log₁ = [])
    {answer : PerformError} (h : (i.salvage e).Runs log₂ answer) :
    J.recorded c <+: J.recorded i.lastReading.2.core ∧
      J.cleared c ++ Exchange.forwarded (log₁ ++ log₂) = J.due i.lastReading :=
  hJ.givenUp hi (List.prefix_refl _) (by rw [hlog₁, List.append_nil]) h

end KeptBy

theorem due_of_live {i : Instance G} (hlive : s.live = some i)
    {reading : Except CallError (List String) × Instance G}
    (h : J.recorded i.core <+: J.recorded reading.2.core ∧
      J.cleared i.core ++ Exchange.forwarded log = J.due reading) :
    (∀ i, s.live = some i → J.recorded i.core <+: J.recorded reading.2.core) ∧
      J.clearedBy s ++ Exchange.forwarded log = J.due reading := by
  rw [J.clearedBy_of_live hlive]
  exact ⟨Slot.forall_live hlive h.1, h.2⟩

end Journal

namespace Setup

variable {G : Type} {J : Journal G} {setup : Setup G} {s s' : Slot G}
  {operation : Operation} {answer : Answer} {log : List Exchange}
  {past : List (Entry G)}

/-- When an instance is given up, all that it had recorded before has been forwarded. -/
theorem GivesUp.forwarded (hJ : J.Describes setup) {told : List String}
    (hs : J.Booked setup told s) {reading : Except CallError (List String) × Instance G}
    (h : setup.GivesUp s operation log reading) (hexpects : ∀ e ∈ log, J.expects e) :
    (∀ i, s.live = some i → J.recorded i.core <+: J.recorded reading.2.core) ∧
      told ++ Exchange.forwarded log = J.due reading := by
  rw [hs.passed]
  cases h with
  -- The instance that is given up is not the live one here, so nothing has been
  -- passed on of it.
  | init hlive hcore hmade hcall hsalvage =>
      obtain ⟨bytes, hcompile⟩ := hs.compiled _ hcore
      obtain ⟨hJ, hholds, hcleared⟩ := hJ.fresh hcompile hmade.ends
      have hexpects₂ :=
        (List.forall_mem_append.mp (List.forall_mem_append.mp hexpects).2).1
      obtain ⟨hi, hlog₂⟩ := hJ.called hJ.setup hholds.since hcall hexpects₂
      have hgiven := hJ.givenUp_since hi hlog₂ hsalvage
      rw [hcleared] at hgiven
      rw [J.clearedBy_of_none hlive, Exchange.forwarded_append,
        (Core.forCore_instantiate _ _).forwarded_eq_nil hmade, List.nil_append]
      refine ⟨?_, hgiven.2⟩
      intro i hi
      rw [hlive] at hi
      cases hi
  | perform hlive hcall hsalvage =>
      obtain ⟨hJ, hholds⟩ := hs.kept _ hlive
      obtain ⟨hi, hlog₁⟩ := hJ.performed hholds.since hcall
        (List.forall_mem_append.mp hexpects).1
      rw [Exchange.forwarded_append, Exchange.forwarded_clearing_append,
        ← Exchange.forwarded_append]
      exact Journal.due_of_live hlive (hJ.givenUp_since hi hlog₁ hsalvage)
  | destroy hlive hfinish =>
      obtain ⟨hJ, hholds⟩ := hs.kept _ hlive
      rw [Exchange.forwarded_clearing_append]
      exact Journal.due_of_live hlive
        (hJ.finished hholds.since hfinish (List.forall_mem_append.mp hexpects).2)
  | destroyFailing hlive hfinish hsalvage =>
      obtain ⟨hJ, hholds⟩ := hs.kept _ hlive
      have hexpects₁ :=
        (List.forall_mem_append.mp (List.forall_mem_append.mp hexpects).2).1
      obtain ⟨c', hi, hrecorded, hcleared⟩ := hJ.unfinished hholds.since
        hfinish hexpects₁
      rw [Exchange.forwarded_clearing_append]
      exact Journal.due_of_live hlive (hJ.givenUp hi hrecorded hcleared hsalvage)
  | fire _ hlive hflush hsalvage =>
      obtain ⟨hJ, hholds⟩ := hs.kept _ hlive
      obtain ⟨hi, hlog₁⟩ := hJ.unflushed hholds.since hflush
      exact Journal.due_of_live hlive (hJ.givenUp_since hi hlog₁ hsalvage)

theorem Course.compiled (h : setup.Course operation log answer s s')
    (hs : ∀ core, s.compiled = some core → ∃ bytes, setup.compile bytes = some core) :
    ∀ core, s'.compiled = some core → ∃ bytes, setup.compile bytes = some core := by
  cases h with
  | installed _ hcompile =>
      rintro core ⟨⟩
      exact ⟨_, hcompile⟩
  | performed _ _ _ harm =>
      obtain ⟨-, -, rfl⟩ | ⟨-, id, -, rfl⟩ := Slot.runs_armTimer harm <;> exact hs
  | goneIdle | gone | goneFailing => exact fun _ h => nomatch h
  | _ => exact hs

/-- How an operation goes on from what the live instance has cleared to an
instance behind it. -/
structure Carries (J : Journal G) (setup : Setup G) (s : Slot G) (log : List Exchange)
    (i' : Instance G) : Prop where
  kept : J.KeptBy setup.fuel setup.config i'.exports
  holds : J.Holds setup.config i'.exports i'
  cleared : J.cleared i'.core = J.clearedBy s ++ Exchange.forwarded log
  recorded : ∀ i, s.live = some i → J.recorded i.core <+: J.recorded i'.core

theorem carries_unchanged {told : List String} (hs : J.Booked setup told s)
    {i : Instance G} (hlive : s.live = some i) (hlog : Exchange.forwarded log = []) :
    Carries J setup s log i where
  kept := (hs.kept i hlive).1
  holds := (hs.kept i hlive).2
  cleared := by rw [J.clearedBy_of_live hlive, hlog, List.append_nil]
  recorded := Slot.forall_live hlive (List.prefix_refl _)

theorem carries_since {x : Exports G} {i i' : Instance G}
    (hJ : J.KeptBy setup.fuel setup.config x) (hlive : s.live = some i)
    (hi : J.Since setup.config x i.core i') (hlog : Exchange.forwarded log = []) :
    Carries J setup s log i' := by
  cases hi.exports
  refine ⟨hJ, hi.holds, ?_, Slot.forall_live hlive hi.grows.recorded⟩
  rw [J.clearedBy_of_live hlive, hlog, List.append_nil, hi.grows.cleared]

theorem carries_flushed {x : Exports G} {i i' : Instance G}
    (hJ : J.KeptBy setup.fuel setup.config x) (hlive : s.live = some i)
    (hi : J.Since setup.config x i.core i)
    (h : i.flushMetrics.Runs log (.ok (), i')) : Carries J setup s log i' := by
  obtain ⟨events, j, -, hj, hi', hcleared, hrecorded, hforwarded⟩ := hJ.flushed hi h
  cases hi'.exports
  refine ⟨hJ, hi', ?_, Slot.forall_live hlive ?_⟩
  · rw [J.clearedBy_of_live hlive, hcleared, hforwarded]
  · rw [hrecorded]
    exact hj.grows.recorded

/-- While there is an instance, what is forwarded is what the instance clears. -/
theorem Course.carries (hJ : J.Describes setup) {told : List String}
    (hs : J.Booked setup told s) (hconsistent : s.Consistent)
    (h : setup.Course operation log answer s s') (hexpects : ∀ e ∈ log, J.expects e)
    {i' : Instance G} (hlive' : s'.live = some i') :
    Carries J setup s log i' := by
  cases h with
  | unreadable hread =>
      exact carries_unchanged hs hlive'
        ((outward_readFile _ _).forCore.forwarded_eq_nil hread)
  | uncompiled hsource | rejected hsource | installed hsource =>
      exact carries_unchanged hs hlive' hsource.forwarded_eq_nil
  | readyAlready | unprepared | blank | notLive | goneAlready | stale =>
      exact carries_unchanged hs hlive' rfl
  | initialized hl hcore hmade hcall =>
      cases hlive'
      obtain ⟨bytes, hcompile⟩ := hs.compiled _ hcore
      obtain ⟨hJ, hholds, hcleared⟩ := hJ.fresh hcompile hmade.ends
      obtain ⟨hi, hlog₂⟩ := hJ.called hJ.setup hholds.since hcall
        (List.forall_mem_append.mp hexpects).2
      have hnone := hconsistent.not_live (by simp [hl])
      rw [← hi.exports] at hJ
      refine ⟨hJ, ⟨rfl, hi.config, hi.grows.sound⟩, ?_, ?_⟩
      · rw [J.clearedBy_of_none hnone, Exchange.forwarded_append, hlog₂,
          (Core.forCore_instantiate _ _).forwarded_eq_nil hmade,
          hi.grows.cleared, hcleared]
        rfl
      · intro i hi
        rw [hnone] at hi
        cases hi
  | unmade _ _ hmade =>
      exact carries_unchanged hs hlive'
        ((Core.forCore_instantiate _ _).forwarded_eq_nil hmade)
  | stillborn hl =>
      rw [hconsistent.not_live (by simp [hl])] at hlive'
      cases hlive'
  | @performed log₁ log₂ _ _ _ _ _ _ _ hlive hcall harm =>
      obtain ⟨hJ, hholds⟩ := hs.kept _ hlive
      obtain ⟨hi, hlog₁⟩ := hJ.performed hholds.since hcall
        (List.forall_mem_append.mp hexpects).1
      have hlog : Exchange.forwarded (log₁ ++ log₂) = [] := by
        rw [Exchange.forwarded_append, hlog₁, Exchange.forwarded_armTimer harm]
        rfl
      obtain ⟨-, -, rfl⟩ | ⟨-, id, -, rfl⟩ := Slot.runs_armTimer harm <;>
      · cases hlive'
        exact carries_since hJ hlive hi hlog
  | failed | goneIdle | gone | goneFailing | firedIdle | unflushed => cases hlive'
  | flushed _ hlive hflush =>
      cases hlive'
      obtain ⟨hJ, hholds⟩ := hs.kept _ hlive
      exact carries_flushed hJ hlive hholds.since hflush

/-- Where there is no instance any more, one has been given up, or there was none and
nothing is forwarded. -/
theorem Course.givesUp (h : setup.Course operation log answer s s')
    (hlive' : s'.live = none) : s.live = none ∧ Exchange.forwarded log = [] ∨
    ∃ reading, setup.GivesUp s operation log reading := by
  cases h with
  | unreadable hread =>
      exact .inl ⟨hlive', (outward_readFile _ _).forCore.forwarded_eq_nil hread⟩
  | uncompiled hsource | rejected hsource | installed hsource =>
      exact .inl ⟨hlive', hsource.forwarded_eq_nil⟩
  | readyAlready | unprepared | blank | notLive | goneAlready | stale =>
      exact .inl ⟨hlive', rfl⟩
  | initialized => cases hlive'
  | unmade _ _ hmade =>
      exact .inl ⟨hlive', (Core.forCore_instantiate _ _).forwarded_eq_nil hmade⟩
  | stillborn _ hcore hmade hcall hsalvage =>
      exact .inr ⟨_, .init hlive' hcore hmade hcall hsalvage⟩
  | performed _ _ _ harm =>
      obtain ⟨-, -, rfl⟩ | ⟨-, id, -, rfl⟩ := Slot.runs_armTimer harm <;> cases hlive'
  | failed _ hlive hcall hsalvage => exact .inr ⟨_, .perform hlive hcall hsalvage⟩
  | goneIdle _ hlive => exact .inl ⟨hlive, Exchange.forwarded_clearing s⟩
  | gone _ hlive hfinish => exact .inr ⟨_, .destroy hlive hfinish⟩
  | goneFailing _ hlive hfinish hsalvage =>
      exact .inr ⟨_, .destroyFailing hlive hfinish hsalvage⟩
  | firedIdle _ hlive => exact .inl ⟨hlive, rfl⟩
  | flushed => cases hlive'
  | unflushed htimer hlive hflush hsalvage =>
      exact .inr ⟨_, .fire htimer hlive hflush hsalvage⟩

theorem Story.booked (hJ : J.Describes setup) (h : setup.Story past s)
    (hexpects : ∀ entry ∈ past, ∀ e ∈ entry.log, J.expects e) :
    J.Booked setup (passed past) s := by
  induction h with
  | new => exact ⟨fun _ h => (nomatch h), fun _ h => (nomatch h), rfl⟩
  | @next past s s' operation log answer h runs ih =>
      obtain ⟨hpast, hlast⟩ := List.forall_mem_append.mp hexpects
      have hlog := List.forall_mem_singleton.mp hlast
      have hbooked := ih hpast
      have hcourse := carryOut_course runs
      refine ⟨hcourse.compiled hbooked.compiled, ?_, ?_⟩
      · intro i' hlive'
        have hcarries := hcourse.carries hJ hbooked h.reachable.consistent hlog hlive'
        exact ⟨hcarries.kept, hcarries.holds⟩
      · rw [passed_snoc, Entry.pass]
        cases hlive' : s'.live with
        | none => exact (J.clearedBy_of_none hlive').symm
        | some i' =>
            have hcarries :=
              hcourse.carries hJ hbooked h.reachable.consistent hlog hlive'
            rw [J.clearedBy_of_live hlive', hcarries.cleared, hbooked.passed]
            rfl

/-- If the cores of a session keep a journal while the services answer as it expects,
then whatever is asked of the session, and whether or not the event store keeps what
it is given: what has been forwarded for the live instance is what that has cleared,
each event once and in its order, and no operation loses what is recorded. When an
instance is given up, all that it had recorded has been forwarded, each event once and
in its order; if its metrics could not be read, what it had cleared. An operation that
has no instance and gives none up forwards nothing. -/
theorem Story.metrics_forwarded_once (hJ : J.Describes setup) (h : setup.Story past s)
    (hpast : ∀ entry ∈ past, ∀ e ∈ entry.log, J.expects e) :
    (∀ i, s.live = some i → passed past = J.cleared i.core) ∧
      ∀ operation log answer s', (∀ e ∈ log, J.expects e) →
        (setup.carryOut operation s).Runs log (answer, s') →
          (∀ i i', s.live = some i → s'.live = some i' → J.recorded i.core <+:
            J.recorded i'.core) ∧
          (∀ reading, setup.GivesUp s operation log reading →
            (∀ i, s.live = some i → J.recorded i.core <+: J.recorded reading.2.core) ∧
              passed past ++ Exchange.forwarded log = J.due reading) ∧
          (s'.live = none → (∀ reading, ¬ setup.GivesUp s operation log reading) →
            s.live = none ∧ Exchange.forwarded log = []) := by
  have hbooked := h.booked hJ hpast
  refine ⟨?_, ?_⟩
  · intro i hlive
    rw [hbooked.passed, J.clearedBy_of_live hlive]
  · intro operation log answer s' hexpects runs
    have hcourse := carryOut_course runs
    refine ⟨?_, fun reading hgives => hgives.forwarded hJ hbooked hexpects, ?_⟩
    · intro i i' hlive hlive'
      exact (hcourse.carries hJ hbooked h.reachable.consistent hexpects
        hlive').recorded i hlive
    · intro hlive' hnone
      obtain hidle | ⟨reading, hgives⟩ := hcourse.givesUp hlive'
      · exact hidle
      · exact absurd hgives (hnone reading)

/-- A core that records an event when it performs, and traps if one is
pending already. -/
structure Noted where
  cleared : Nat
  pending : Bool

namespace Noted

def events (pending : Bool) : List String := if pending then ["e"] else []

def heading : ByteArray := ⟨#[80, 0, 0, 0, 2, 0, 0, 0, 0, 0, 0, 0, 0, 0, 0, 0]⟩

def line (pending : Bool) : ByteArray := ⟨#[if pending then 101 else 0, 0]⟩

/-- The arena has its descriptor at 64 and its text at 80, and the core
never moves it. -/
structure Ledger (m : Memory) (pending : Bool) : Prop where
  descriptor : m.read? 64 16 = some heading
  text : m.read? 80 2 = some (line pending)

def record (s : CoreState Noted) (next : Noted) : Activation Noted Unit :=
  match s.memory.write? 80 (line next.pending) with
  | some memory => .finish ⟨memory, next⟩ ()
  | none => .trap s .outOfBounds

def exports : Exports Noted where
  getState s := (.ok 0, s)
  startUnwind _ s := (.ok (), s)
  stopUnwind s := (.ok (), s)
  startRewind _ s := (.ok (), s)
  stopRewind s := (.ok (), s)
  setup s := .finish s ()
  teardown s := .finish s ()
  perform s :=
    if s.globals.pending then .trap s .unreachable
    else record s { s.globals with pending := true }
  getMetrics s := .finish s 64
  clearMetrics s :=
    record s ⟨s.globals.cleared + (events s.globals.pending).length, false⟩
  getDeveloperDump s := .finish s 64

def journal : Journal Noted where
  sound c _ := Ledger c.memory c.globals.pending
  cleared c := List.replicate c.globals.cleared "e"
  pending c := events c.globals.pending
  expects _ := True

namespace Ledger

variable {m m' : Memory} {pending : Bool}

theorem arena (h : Ledger m pending) : Arena.read m 64 = .ok (events pending) := by
  have hwords : [0, 1, 2, 3].map (Arena.wordAt heading) = [80, 2, 0, 0] := by decide
  simp only [List.map_cons, List.cons.injEq] at hwords
  obtain ⟨h₀, h₁, h₂, h₃, -⟩ := hwords
  have hevents : Arena.events (line pending ++ ByteArray.empty).toList =
      events pending := by
    cases pending <;> decide +kernel
  have hfirst : Arena.readRange m 80 2 = .ok (line pending) := by
    rw [Arena.readRange, if_neg (by decide), h.text]
  have hread : m.read? (64 : UInt32).toNat 16 = some heading := h.descriptor
  rw [Arena.read, hread]
  dsimp only
  rw [h₀, h₁, h₂, h₃, hfirst, ← hevents]
  rfl

theorem recorded (h : Ledger m pending) {next : Bool}
    (hwrite : m.write? 80 (line next) = some m') : Ledger m' next := by
  have hwrote := Memory.wrote_of_write? hwrite
  exact ⟨(hwrote.agreeOn (.inl (by decide))).read?.trans h.descriptor, hwrote.read⟩

/-- The header of the host lies before the arena. -/
theorem header (h : Ledger m pending) {config : RuntimeConfig}
    (haddr : config.asyncifyDataAddr = 16)
    (hwrite : m.write? config.asyncifyDataAddr.toNat config.header = some m') :
    Ledger m' pending := by
  have hwrote := Memory.wrote_of_write? hwrite
  have hbefore : config.asyncifyDataAddr.toNat + config.header.size ≤ 64 := by
    rw [haddr, config.size_header]
    decide
  exact ⟨(hwrote.agreeOn (.inr hbefore)).read?.trans h.descriptor,
    (hwrote.agreeOn (.inr (hbefore.trans (by decide)))).read?.trans h.text⟩

end Ledger

theorem keeps_of_core {α : Type} {step : Live Noted α}
    (h : ∀ core host, (step.on ⟨core, exports, host⟩).2.core = core) :
    journal.Keeps {} exports step := by
  rintro ⟨core, _, host⟩ ⟨rfl, _, hsound⟩
  exact ⟨(h core host).symm ▸ hsound, congrArg _ (h core host),
    (h core host).symm ▸ List.prefix_refl _⟩

theorem keeps_resetData : journal.Keeps {} exports Instance.control.resetData := by
  rintro i ⟨hexports, hconfig, hsound⟩
  rcases hwrite : i.core.memory.write? i.host.config.asyncifyDataAddr.toNat
    i.host.config.header with _ | memory
  · rw [Instance.resetData_on_outside (Memory.write?_eq_none_iff.mp hwrite)]
    exact .refl hsound
  · rw [Instance.resetData_on hwrite]
    exact ⟨hsound.header (by rw [hconfig]) hwrite, rfl, List.prefix_refl _⟩

theorem invoke_record (core : CoreState Noted) (next : Noted)
    (entry : Exports Noted → CoreState Noted → Activation Noted Unit) (host : HostState)
    (hentry : entry exports core = record core next) :
    (∃ memory, core.memory.write? 80 (line next.pending) = some memory ∧
      (Instance.invoke entry).on ⟨core, exports, host⟩ =
      (.ok (), ⟨⟨memory, next⟩, exports, host⟩)) ∨
    (Instance.invoke entry).on ⟨core, exports, host⟩ =
      (.error (.other (.trap .outOfBounds)), ⟨core, exports, host⟩) := by
  have hinvoke : (Instance.invoke entry).on ⟨core, exports, host⟩ =
      (Instance.run Instance.serve (record core next)).on ⟨core, exports, host⟩ := by
    rw [← hentry]
    rfl
  rw [hinvoke, record]
  rcases core.memory.write? 80 (line next.pending) with _ | memory
  · exact .inr rfl
  · exact .inl ⟨memory, rfl, rfl⟩

theorem keeps_perform :
    journal.Keeps {} exports (Instance.invoke fun x s => x.perform s) := by
  rintro ⟨⟨memory, cleared, pending⟩, _, host⟩ ⟨rfl, _, hsound⟩
  cases pending with
  | true => exact .refl hsound
  | false =>
      obtain ⟨memory', hwrite, hon⟩ | hon :=
        invoke_record ⟨memory, cleared, false⟩ ⟨cleared, true⟩ (fun x s => x.perform s)
          host rfl
      · rw [hon]
        exact ⟨hsound.recorded hwrite, rfl, List.nil_prefix⟩
      · rw [hon]
        exact .refl hsound

theorem keptBy : journal.KeptBy 0 {} exports where
  rawState := keeps_of_core fun _ _ => rfl
  startUnwind := keeps_of_core fun _ _ => rfl
  stopUnwind := keeps_of_core fun _ _ => rfl
  startRewind := keeps_of_core fun _ _ => rfl
  stopRewind := keeps_of_core fun _ _ => rfl
  resetData := keeps_resetData
  setup := keeps_of_core fun _ _ => rfl
  teardown := keeps_of_core fun _ _ => rfl
  perform := keeps_perform
  getMetrics := keeps_of_core fun _ _ => rfl
  getDeveloperDump := keeps_of_core fun _ _ => rfl
  exposed := by
    rintro ⟨core, _, host⟩ ptr j events ⟨rfl, _, hsound⟩ hon hread
    cases hon
    exact Except.ok.inj (hread.symm.trans hsound.arena)
  emptied := by
    rintro ⟨core, _, host⟩ j ⟨rfl, _, hsound⟩ hclear
    obtain ⟨memory, hwrite, hon⟩ | hon :=
      invoke_record core _ (fun x s => x.clearMetrics s) host rfl
    · cases hclear.symm.trans hon
      have hevents : List.replicate (events core.globals.pending).length "e" =
          events core.globals.pending := by
        cases core.globals.pending <;> rfl
      refine ⟨hsound.recorded hwrite, ?_, rfl⟩
      exact (List.replicate_add _ _ _).trans (congrArg _ hevents)
    · cases hclear.symm.trans hon
  untouched := by
    rintro ⟨core, _, host⟩ e j ⟨rfl, _, hsound⟩ hclear
    obtain ⟨memory, hwrite, hon⟩ | hon :=
      invoke_record core _ (fun x s => x.clearMetrics s) host rfl
    · cases hclear.symm.trans hon
    · cases hclear.symm.trans hon
      exact ⟨hsound, rfl, rfl⟩
  dropped := fun _ _ h => h
  awaited := fun _ _ _ _ _ _ h _ _ => h

end Noted

def noting : Setup Noted where
  config := {}
  compile _ := some
    { create := .ok ⟨⟨65536, Memory.zeros 64 ++ Noted.heading⟩, 0, false⟩
      start := none
      exports := .ok Noted.exports }
  fuel := 0

theorem noted_describes : Noted.journal.Describes noting where
  made := by
    rintro bytes core i ⟨⟩ hmade
    cases hmade
    exact ⟨Noted.keptBy, ⟨by decide +kernel, by decide +kernel⟩, rfl⟩

/-- The second perform traps, and the event of the first is forwarded when the
instance is given up. -/
theorem noting_forwards_at_second_perform :
    ∃ past s log answer s' reading, noting.Story past s ∧
      (noting.carryOut (.perform
        { profileUrl := "p", providerUrl := "v", mapUrl := "m", usecase := "u" })
          s).Runs log (answer, s') ∧
      noting.GivesUp s (.perform
        { profileUrl := "p", providerUrl := "v", mapUrl := "m", usecase := "u" }) log
          reading ∧
      passed past ++ Exchange.forwarded log = Noted.journal.due reading := by
  let request : PerformRequest :=
    { profileUrl := "p", providerUrl := "v", mapUrl := "m", usecase := "u" }
  have hrun : (((noting.answerAfter [.load .empty, .init, .perform request] request).run
      Scripted.Scene.serve (.bare [])).any
        fun ended => ended.1.1.live.isSome && wantsReload ended.1.2) = true := by
    decide +kernel
  obtain ⟨past, s, r, log, s', hstory, hruns, hcheck⟩ :=
    exists_story_of_run (p := fun s r => s.live.isSome && wantsReload r) hrun
  obtain ⟨hlive, hwants⟩ := Bool.and_eq_true_iff.mp hcheck
  cases r with
  | ok value => cases hwants
  | error e =>
      have hcarried := runs_carryOut_perform hruns
      have hlive' : s'.live = none := by
        rw [discarded_of_requiresReload hruns hwants]
        rfl
      obtain ⟨hnone, -⟩ | ⟨reading, hgives⟩ := (carryOut_course hcarried).givesUp hlive'
      · rw [hnone] at hlive
        cases hlive
      · have hforwarded := (Story.metrics_forwarded_once noted_describes hstory
          fun _ _ _ _ => trivial).2 _ _ _ _ (fun _ _ => trivial) hcarried
        exact ⟨past, s, log, _, s', reading, hstory, hcarried, hgives,
          (hforwarded.2.1 _ hgives).2⟩

end Setup

end Resumable
