import Resumable.Proofs.Host.Invocations
import Resumable.Proofs.Session.History

namespace Resumable

namespace Core

variable {G : Type} {c : Core G} {config : RuntimeConfig} {log : List Exchange}

/-- A watched core announces that it is brought to life, unless its memory cannot even
be laid out. -/
theorem announced_instantiate {r : Except InstantiateError (Instance (Watched G))}
    (h : (c.watched.instantiate config).Runs log r) :
    (∀ i, r = .ok i → Exchange.announced log = [.created] ∧ ∃ x,
      i.Watching x [] false) ∧
        (Exchange.announced log = [.created] ∨ Exchange.announced log = []) := by
  unfold instantiate at h
  rcases hcreate : c.create with e | fresh
  · simp only [watched, hcreate, Except.map] at h
    obtain ⟨rfl, rfl⟩ := h
    exact ⟨(fun i hi => nomatch hi), .inr rfl⟩
  · simp only [watched, hcreate, Except.map, CoreState.unwatched_watched,
      Activation.alone, Activation.alone_watched] at h
    obtain ⟨_, log₁, log₂, rfl, hemit, h⟩ := Task.runs_bind.mp h
    have hcreated : Exchange.announced log₁ = [.created] := by
      rw [HostState.announced_emitAll hemit]
      rfl
    generalize (c.start.getD (fun s => .finish s ()) fresh).alone.2 = started,
      c.exports = exports at h
    rcases started with fault | state
    · obtain ⟨rfl, rfl⟩ := h
      rw [List.append_nil]
      exact ⟨(fun i hi => nomatch hi), .inl hcreated⟩
    rcases exports with e | x
    · obtain ⟨rfl, rfl⟩ := h
      rw [List.append_nil]
      exact ⟨(fun i hi => nomatch hi), .inl hcreated⟩
    · obtain ⟨rfl, rfl⟩ := h
      rw [List.append_nil]
      refine ⟨fun i hi => ⟨hcreated, ?_⟩, .inl hcreated⟩
      cases hi
      exact ⟨x, rfl, rfl, rfl⟩

end Core

/-- A last look at an instance: the getter of the developer dump, then that of
the metrics. -/
def lastLook : List Announcement := attempt .getDeveloperDump 0 ++ attempt .getMetrics 0

def flushing : List Announcement := attempt .getMetrics 0 ++ attempt .clearMetrics 0

namespace Setup

/-- What an operation has a live instance invoke if no call fails. -/
inductive Operation.Word : Operation → List Announcement → Prop where
  | perform (request : PerformRequest) (rewinds : Nat) :
      Word (.perform request) (attempt .perform rewinds)
  | destroy (rewinds : Nat) : Word .destroy (flushing ++ attempt .teardown rewinds)
  | fire (generation : Nat) : Word (.fire generation) flushing

/-- What an operation may have invoked up to a moment if no call has failed before,
and whether it found an instance live. -/
inductive Operation.Begun : Operation → Bool → List Announcement → Prop where
  | setUp {told rest : List Announcement} {rewinds : Nat}
      (h : told ++ rest = attempt .setup rewinds) : Begun .init false (.created :: told)
  | called {operation : Operation} {told rest word : List Announcement}
      (h : operation.Word word) (hrest : told ++ rest = word) :
      Begun operation true told

/-- In an operation a call into `i` fails, when no more has been exchanged than this. -/
inductive Fails {G : Type} (setup : Setup G) (s : Slot G) :
    Operation → List Exchange → Instance G → CallError → Prop where
  | init {log₁ log₂ : List Exchange} {core : Core G} {made i : Instance G}
      {e : CallError} (hl : s.lifecycle = .compiled) (hcore : s.compiled = some core)
      (hmade : (core.instantiate setup.config).Runs log₁ (.ok made))
      (hcall : (made.setup setup.fuel).Runs log₂ (.error e, i)) :
      Fails setup s .init (log₁ ++ log₂) i e
  | perform {log : List Exchange} {request : PerformRequest} {live i : Instance G}
      {e : CallError} (hblank : request.firstBlank? = none) (hlive : s.live = some live)
      (hcall : (live.perform setup.fuel request).Runs log (.error e, i)) :
      Fails setup s (.perform request) log i e
  | destroy {log : List Exchange} {live i : Instance G} {e : CallError}
      (hl : s.lifecycle ≠ .tornDown) (hlive : s.live = some live)
      (hfinish : (setup.finish live).Runs log (.error e, i)) :
      Fails setup s .destroy (s.clearing ++ log) i e
  | fire {log : List Exchange} {timer : ArmedTimer} {live i : Instance G}
      {e : CallError} (htimer : s.timer = some timer) (hlive : s.live = some live)
      (hflush : live.flushMetrics.Runs log (.error e, i)) :
      Fails setup s (.fire timer.generation) log i e

/-- What an operation does with the instances of a session, and what it announces. -/
inductive Visit {G : Type} (setup : Setup G) (s : Slot G) :
    Operation → List Exchange → Slot G → Prop where
  | idle {operation : Operation} {log : List Exchange} {s' : Slot G}
      (hlog : Exchange.announced log = []) (hlive : s'.live.isSome = s.live.isSome) :
      Visit setup s operation log s'
  | unmade {log : List Exchange} (hlive : s.live = none)
      (hlog : Exchange.announced log = [.created]) : Visit setup s .init log s
  | made {log : List Exchange} {s' : Slot G} {rewinds : Nat} (hlive : s.live = none)
      (hlog : Exchange.announced log = .created :: attempt .setup rewinds)
      (hlive' : s'.live.isSome) : Visit setup s .init log s'
  | performed {request : PerformRequest} {log : List Exchange} {s' : Slot G}
      {rewinds : Nat} (hlive : s.live.isSome)
      (hlog : Exchange.announced log = attempt .perform rewinds)
      (hlive' : s'.live.isSome) : Visit setup s (.perform request) log s'
  | flushed {generation : Nat} {log : List Exchange} {s' : Slot G}
      (hlive : s.live.isSome) (hlog : Exchange.announced log = flushing)
      (hlive' : s'.live.isSome) : Visit setup s (.fire generation) log s'
  | ended {log : List Exchange} {s' : Slot G} {rewinds : Nat} (hlive : s.live.isSome)
      (hlog : Exchange.announced log = flushing ++ attempt .teardown rewinds)
      (hlive' : s'.live = none) : Visit setup s .destroy log s'
  | failing {operation : Operation} {early late : List Exchange} {i : Instance G}
      {e : CallError} {s' : Slot G} (hfails : setup.Fails s operation early i e)
      (hearly : operation.Begun s.live.isSome (Exchange.announced early))
      (hlate : Exchange.announced late = lastLook) (hlive' : s'.live = none) :
      Visit setup s operation (early ++ late) s'

end Setup

namespace Slot

variable {G : Type}

structure Watches (s : Slot (Watched G)) : Prop where
  live : ∀ i, s.live = some i → ∃ x, i.Watching x [] false
  compiled : ∀ core, s.compiled = some core → ∃ c : Core G, core = c.watched

variable {s t : Slot (Watched G)} {log : List Exchange}

theorem Watches.empty : (Slot.empty : Slot (Watched G)).Watches :=
  ⟨(fun _ h => nomatch h), fun _ h => nomatch h⟩

theorem Watches.withLive (h : s.Watches) {x : Exports G} {i : Instance (Watched G)}
    (hi : i.Watching x [] false) (lifecycle : Lifecycle) (timer : Option ArmedTimer)
    (next : Nat) : Watches ⟨lifecycle, s.compiled, some i, timer, next⟩ where
  live := by
    intro j hj
    cases hj
    exact ⟨x, hi⟩
  compiled := h.compiled

theorem Watches.withoutLive (h : s.Watches) (lifecycle : Lifecycle)
    (timer : Option ArmedTimer) (next : Nat) :
    Watches ⟨lifecycle, s.compiled, none, timer, next⟩ :=
  ⟨(fun _ hi => nomatch hi), h.compiled⟩

theorem Watches.gone (s : Slot (Watched G)) : s.gone.Watches :=
  ⟨(fun _ h => nomatch h), fun _ h => nomatch h⟩

theorem announced_clearing (s : Slot G) : Exchange.announced s.clearing = [] := by
  unfold clearing
  split <;> rfl

theorem announced_armTimer {G : Type} {config : RuntimeConfig} {s t : Slot G}
    (h : (s.armTimer config).Runs log t) : Exchange.announced log = [] := by
  obtain ⟨-, rfl, -⟩ | ⟨-, id, rfl, -⟩ := runs_armTimer h <;> rfl

end Slot

namespace Setup

variable {G : Type} {setup : Setup G} {s s' : Slot (Watched G)} {operation : Operation}
  {answer : Answer} {log : List Exchange}

theorem Sourced.announced_eq_nil {G : Type} {setup : Setup G} {bytes : ByteArray}
    (h : setup.Sourced operation log bytes) : Exchange.announced log = [] := by
  cases h with
  | given => rfl
  | read hread => exact (outward_readFile _ _).announced_eq_nil hread

theorem announced_finish {x : Exports G} {i j : Instance (Watched G)}
    (hi : i.Watching x [] false) {r : Except CallError Unit}
    (h : (setup.watched.finish i).Runs log (r, j)) :
    ∃ rest rewinds, Exchange.announced log ++ rest =
    flushing ++ attempt .teardown rewinds ∧
      (r = .ok () → rest = []) ∧ j.Watching x [] false := by
  obtain ⟨⟨flushed, k⟩, log₁, log₂, rfl, hflush, h⟩ := Task.runs_bind.mp h
  obtain ⟨hk, hflushed⟩ := Instance.announced_flushMetrics hi hflush
  cases flushed with
  | error e =>
      obtain ⟨rfl, hr⟩ := h
      cases hr
      rw [List.append_nil]
      obtain h | ⟨h, -⟩ := hflushed
      · exact ⟨attempt .teardown 0, 0, by rw [h, flushing], nofun, hk⟩
      · exact ⟨attempt .clearMetrics 0 ++ attempt .teardown 0,
          0, by rw [h]; rfl, nofun, hk⟩
  | ok _ =>
      have hflushed : Exchange.announced log₁ = flushing := by
        obtain h | ⟨-, e, h⟩ := hflushed
        · exact h
        · cases h
      obtain ⟨hj, hteardown⟩ := Instance.announced_call ⟨x.teardown, rfl⟩ hk h
      rw [Exchange.announced_append, hflushed]
      cases r with
      | error e =>
          obtain ⟨rest, rewinds, hrest⟩ := hteardown.beginning
          exact ⟨rest, rewinds, by rw [List.append_assoc, hrest], nofun, hj⟩
      | ok _ =>
          obtain ⟨rewinds, hteardown⟩ := hteardown.returned
          exact ⟨[], rewinds, by rw [hteardown, List.append_nil], fun _ => rfl, hj⟩

theorem Fails.begun {i : Instance (Watched G)} {e : CallError}
    (h : setup.watched.Fails s operation log i e) (hs : s.Watches) (hc : s.Consistent) :
    operation.Begun s.live.isSome (Exchange.announced log) ∧
    ∃ x : Exports G, i.Watching x [] false := by
  cases h with
  | init hl hcore hmade hcall =>
      obtain ⟨c, rfl⟩ := hs.compiled _ hcore
      obtain ⟨hcreated, x, hi⟩ := (Core.announced_instantiate hmade).1 _ rfl
      obtain ⟨hi', hsetup⟩ := Instance.announced_call ⟨x.setup, rfl⟩ hi hcall
      obtain ⟨rest, rewinds, hrest⟩ := hsetup.beginning
      rw [Exchange.announced_append, hcreated, hc.not_live (by simp [hl])]
      exact ⟨.setUp hrest, x, hi'⟩
  | perform hblank hlive hcall =>
      obtain ⟨x, hi⟩ := hs.live _ hlive
      obtain ⟨hi', hperform⟩ := Instance.announced_perform hi hcall
      obtain ⟨rest, rewinds, hrest⟩ := hperform.beginning
      rw [hlive]
      exact ⟨.called (.perform _ rewinds) hrest, x, hi'⟩
  | destroy hl hlive hfinish =>
      obtain ⟨x, hi⟩ := hs.live _ hlive
      obtain ⟨rest, rewinds, hword, -, hi'⟩ := announced_finish hi hfinish
      rw [Exchange.announced_append, s.announced_clearing, List.nil_append, hlive]
      exact ⟨.called (.destroy rewinds) hword, x, hi'⟩
  | fire htimer hlive hflush =>
      obtain ⟨x, hi⟩ := hs.live _ hlive
      obtain ⟨hi', hflushed⟩ := Instance.announced_flushMetrics hi hflush
      refine ⟨?_, x, hi'⟩
      rw [hlive]
      obtain hflushed | ⟨hflushed, -⟩ := hflushed
      · exact .called (.fire _) ((List.append_nil _).trans hflushed)
      · exact .called (.fire _) (congrArg (· ++ attempt .clearMetrics 0) hflushed)

/-- Where a call fails, the instance it was made on is asked for what it leaves, and
it is not kept. -/
theorem Fails.salvaged {G : Type} {setup : Setup G} {s s' : Slot G}
    {early late : List Exchange} {i : Instance G} {e : CallError}
    (h : setup.Fails s operation early i e)
    (hcourse : setup.Course operation (early ++ late) answer s s')
    (hc : s.Consistent) :
    s'.live = none ∧ ∃ clearing rest left, late = clearing ++ rest ∧
      Exchange.announced clearing = [] ∧ (i.salvage e).Runs rest left := by
  generalize hlog : early ++ late = log at hcourse
  -- The answers decide how a task goes on, so of the courses only the one is left in
  -- which the call fails.
  cases h with
  | init hl hcore hmade hcall =>
      rw [List.append_assoc] at hlog
      cases hcourse with
      | uncompiled hsource | rejected hsource | installed hsource => cases hsource
      | readyAlready hl' => simp [hl] at hl'
      | unprepared hl' => simp [hl, hcore] at hl'
      | unmade _ hcore' hmade' =>
          cases hcore.symm.trans hcore'
          cases hmade.eq_of_prefix hmade' hlog
      | initialized _ hcore' hmade' hcall' =>
          cases hcore.symm.trans hcore'
          obtain ⟨rfl, hmade, hlog⟩ := hmade.eq_of_append hmade' hlog
          cases hmade
          cases hcall.eq_of_prefix hcall' hlog
      | stillborn _ hcore' hmade' hcall' hsalvage =>
          cases hcore.symm.trans hcore'
          obtain ⟨rfl, hmade, hlog⟩ := hmade.eq_of_append hmade' hlog
          cases hmade
          obtain ⟨rfl, hcall, hlog⟩ := hcall.eq_of_append hcall' hlog
          cases hcall
          exact ⟨hc.not_live (by simp [hl]), [], _, _, hlog, rfl, hsalvage⟩
  | perform hblank hlive hcall =>
      cases hcourse with
      | uncompiled hsource | rejected hsource | installed hsource => cases hsource
      | blank hblank' => simp [hblank] at hblank'
      | notLive _ hlive' => simp [hlive] at hlive'
      | performed _ hlive' hcall' =>
          cases hlive.symm.trans hlive'
          cases (hcall.eq_of_append hcall' hlog).2.1
      | failed _ hlive' hcall' hsalvage =>
          cases hlive.symm.trans hlive'
          obtain ⟨rfl, hcall, hlog⟩ := hcall.eq_of_append hcall' hlog
          cases hcall
          exact ⟨rfl, _, _, _, hlog, s.announced_clearing, hsalvage⟩
  | destroy hl hlive hfinish =>
      rw [List.append_assoc] at hlog
      cases hcourse with
      | uncompiled hsource | rejected hsource | installed hsource => cases hsource
      | goneAlready hl' => exact absurd hl' hl
      | goneIdle _ hlive' => simp [hlive] at hlive'
      | gone _ hlive' hfinish' =>
          cases hlive.symm.trans hlive'
          rw [List.append_cancel_left_eq] at hlog
          cases hfinish.eq_of_prefix hfinish' hlog
      | goneFailing _ hlive' hfinish' hsalvage =>
          cases hlive.symm.trans hlive'
          rw [List.append_cancel_left_eq] at hlog
          obtain ⟨rfl, hfinish, hlog⟩ := hfinish.eq_of_append hfinish' hlog
          cases hfinish
          exact ⟨rfl, [], _, _, hlog, rfl, hsalvage⟩
  | fire htimer hlive hflush =>
      -- The timer of the course is another variable, so its generation stands in the
      -- way of the cases.
      generalize hoperation : Operation.fire _ = operation at hcourse
      cases hcourse with
      | uncompiled hsource | rejected hsource | installed hsource =>
          subst hoperation
          cases hsource
      | stale h =>
          cases hoperation
          simp [htimer] at h
      | firedIdle _ hlive' => simp [hlive] at hlive'
      | flushed _ hlive' hflush' =>
          cases hlive.symm.trans hlive'
          cases hflush.eq_of_prefix hflush' hlog
      | unflushed _ hlive' hflush' hsalvage =>
          cases hlive.symm.trans hlive'
          obtain ⟨rfl, hflush, hlog⟩ := hflush.eq_of_append hflush' hlog
          cases hflush
          exact ⟨rfl, [], _, _, hlog, rfl, hsalvage⟩
      | _ => cases hoperation

theorem Course.destroyed {G : Type} {setup : Setup G} {s s' : Slot G}
    (h : setup.Course .destroy log answer s s') (hc : s.Consistent) :
    s'.live = none := by
  cases h with
  | uncompiled hsource | rejected hsource | installed hsource => cases hsource
  | goneAlready hl => exact hc.not_live (by simp [hl])
  | goneIdle | gone | goneFailing => rfl

/-- One case for each course that an operation may take. -/
theorem Course.visit (h : setup.watched.Course operation log answer s s')
    (hs : s.Watches) (hc : s.Consistent) :
    setup.watched.Visit s operation log s' ∧ s'.Watches := by
  cases h with
  | unreadable hread =>
      exact ⟨.idle ((outward_readFile _ _).announced_eq_nil hread) rfl, hs⟩
  | uncompiled hsource | rejected hsource =>
      exact ⟨.idle hsource.announced_eq_nil rfl, hs⟩
  | installed hsource hcompile =>
      refine ⟨.idle hsource.announced_eq_nil rfl, hs.live, fun core hcore => ?_⟩
      cases hcore
      obtain ⟨c, -, hc⟩ := Option.map_eq_some_iff.mp hcompile
      exact ⟨c, hc.symm⟩
  | readyAlready | unprepared | blank | notLive | goneAlready | stale =>
      exact ⟨.idle rfl rfl, hs⟩
  | initialized hl hcore hmade hcall =>
      obtain ⟨c, rfl⟩ := hs.compiled _ hcore
      obtain ⟨hcreated, x, hi⟩ := (Core.announced_instantiate hmade).1 _ rfl
      obtain ⟨hi', hsetup⟩ := Instance.announced_call ⟨x.setup, rfl⟩ hi hcall
      obtain ⟨rewinds, hsetup⟩ := hsetup.returned
      refine ⟨.made (hc.not_live (by simp [hl]))
        (?_ : _ = .created :: attempt .setup rewinds) rfl, hs.withLive hi' _ _ _⟩
      rw [Exchange.announced_append, hcreated, hsetup]
      rfl
  | unmade hl hcore hmade =>
      obtain ⟨c, rfl⟩ := hs.compiled _ hcore
      obtain hcreated | hnone := (Core.announced_instantiate hmade).2
      · exact ⟨.unmade (hc.not_live (by simp [hl])) hcreated, hs⟩
      · exact ⟨.idle hnone rfl, hs⟩
  | stillborn hl hcore hmade hcall hsalvage =>
      have hfails : setup.watched.Fails s .init _ _ _ := .init hl hcore hmade hcall
      obtain ⟨hbegun, x, hi⟩ := hfails.begun hs hc
      have hlive := hc.not_live (by simp [hl])
      rw [← List.append_assoc]
      exact ⟨.failing hfails hbegun (Instance.announced_salvage hi hsalvage) hlive, hs⟩
  | @performed log₁ log₂ _ _ _ _ _ _ hblank hlive hcall harm =>
      obtain ⟨x, hi⟩ := hs.live _ hlive
      obtain ⟨hi', hperform⟩ := Instance.announced_perform hi hcall
      obtain ⟨rewinds, hperform⟩ := hperform.returned
      have hlog : Exchange.announced (log₁ ++ log₂) = attempt .perform rewinds := by
        rw [Exchange.announced_append, hperform, Slot.announced_armTimer harm,
          List.append_nil]
      have hlive₀ : s.live.isSome := by rw [hlive]; rfl
      obtain ⟨-, -, rfl⟩ | ⟨-, id, -, rfl⟩ := Slot.runs_armTimer harm <;>
        exact ⟨.performed hlive₀ hlog rfl, hs.withLive hi' _ _ _⟩
  | failed hblank hlive hcall hsalvage =>
      have hfails : setup.watched.Fails s (.perform _) _ _ _ :=
        .perform hblank hlive hcall
      obtain ⟨hbegun, x, hi⟩ := hfails.begun hs hc
      refine ⟨.failing hfails hbegun ?_ rfl, hs.withoutLive _ _ _⟩
      rw [Exchange.announced_append, s.announced_clearing]
      exact Instance.announced_salvage hi hsalvage
  | goneIdle hl hlive =>
      exact ⟨.idle s.announced_clearing (by rw [hlive]; rfl), .gone s⟩
  | gone hl hlive hfinish =>
      obtain ⟨x, hi⟩ := hs.live _ hlive
      obtain ⟨rest, rewinds, hword, hrest, -⟩ := announced_finish hi hfinish
      rw [hrest rfl, List.append_nil] at hword
      refine ⟨.ended (by rw [hlive]; rfl)
        (?_ : _ = flushing ++ attempt .teardown rewinds) rfl, .gone s⟩
      rw [Exchange.announced_append, s.announced_clearing]
      exact hword
  | goneFailing hl hlive hfinish hsalvage =>
      have hfails : setup.watched.Fails s .destroy _ _ _ := .destroy hl hlive hfinish
      obtain ⟨hbegun, x, hi⟩ := hfails.begun hs hc
      rw [← List.append_assoc]
      exact ⟨.failing hfails hbegun (Instance.announced_salvage hi hsalvage) rfl,
        .gone s⟩
  | firedIdle htimer hlive =>
      exact ⟨.idle rfl (by rw [hlive]), hs.withoutLive _ _ _⟩
  | flushed htimer hlive hflush =>
      obtain ⟨x, hi⟩ := hs.live _ hlive
      obtain ⟨hi', hflushed | ⟨-, e, h⟩⟩ := Instance.announced_flushMetrics hi hflush
      · exact ⟨.flushed (by rw [hlive]; rfl) hflushed rfl, hs.withLive hi' _ _ _⟩
      · cases h
  | unflushed htimer hlive hflush hsalvage =>
      have hfails : setup.watched.Fails s (.fire _) _ _ _ := .fire htimer hlive hflush
      obtain ⟨hbegun, x, hi⟩ := hfails.begun hs hc
      exact ⟨.failing hfails hbegun (Instance.announced_salvage hi hsalvage) rfl,
        hs.withoutLive _ _ _⟩

end Setup

end Resumable
