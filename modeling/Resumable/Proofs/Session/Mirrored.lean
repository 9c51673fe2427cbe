import Resumable.Proofs.Host.Mirrored
import Resumable.Proofs.Session.Story

namespace Resumable

variable {G : Type}

namespace HostState

theorem alike_emitAll (effects' effects : List Effect)
    (h : effects'.filter (!·.isRemark) = effects.filter (!·.isRemark)) :
    Task.Alike Eq (emitAll effects') (emitAll effects) := by
  match effects', effects, h with
  | .remark line :: effects', effects, h =>
      exact .left line (alike_emitAll effects' effects h)
  | effects', .remark line :: effects, h =>
      exact .right line (alike_emitAll effects' effects h)
  | .fetch ticket request :: effects', .fetch _ _ :: effects, h =>
      obtain ⟨heq, hrest⟩ := List.cons_eq_cons.mp h
      cases heq
      exact .ask _ fun _ => alike_emitAll effects' effects hrest
  | [], [], _ => exact .done rfl
termination_by effects'.length + effects.length

theorem alike_flush {h' h : HostState} (hmuted : h'.muted = h.muted) :
    Task.Alike Eq h'.flush h.flush := by
  have houtbox : h'.outbox.filter (!·.isRemark) = h.outbox.filter (!·.isRemark) :=
    congrArg HostState.outbox hmuted
  refine (alike_emitAll h'.outbox.reverse h.outbox.reverse ?_).bind
    fun _ _ _ => .done ?_
  · rw [List.filter_reverse, List.filter_reverse, houtbox]
  · exact congrArg (fun h : HostState => { h with outbox := [] }) hmuted

end HostState

namespace Instance

variable {i' : Instance (Watched G)} {i : Instance G} {α : Type}

theorem Mirrors.flush (h : i'.Mirrors i) : Task.Alike Mirrors i'.flush i.flush := by
  refine (HostState.alike_flush h.host).bind ?_
  rintro host _ rfl
  exact .done ⟨h.core, h.exports, rfl⟩

theorem Mirrors.act {step' : Live (Watched G) α} {step : Live G α} (h : i'.Mirrors i)
    (hstep : Act.Follows Mirrors step' step) :
    Task.Alike (Alongside Mirrors) (i'.act step') (i.act step) := by
  obtain ⟨hvalue, hstate⟩ := hstep i' i h
  exact hstate.flush.bind fun _ _ hj => .done ⟨hvalue, hj⟩

theorem Mirrors.await (h : i'.Mirrors i) (fuel : Nat) (operation : Deferred) :
    Task.Alike (Alongside Mirrors) (i'.await fuel operation)
      (i.await fuel operation) := by
  refine (HostState.alike_flush h.host).bind ?_
  rintro host _ rfl
  refine (Task.Alike.refl (operation.serve fuel host)).bind ?_
  rintro ⟨value, host⟩ _ rfl
  exact .done ⟨rfl, h.core, h.exports, rfl⟩

theorem Mirrors.call
    {entry' : Exports (Watched G) → CoreState (Watched G) →
      Activation (Watched G) Unit}
        {entry : Exports G → CoreState G → Activation G Unit} (h : i'.Mirrors i)
        (fuel : Nat) (name : ExportName)
    (hentry : ∀ x, entry' x.watched = Watched.entry name (entry x)) :
    Task.Alike (Alongside Mirrors) (i'.call fuel entry') (i.call fuel entry) := by
  have hinvoke := follows_invoke name hentry
  refine (control_follows.drive hinvoke
    (fun operation _ _ h => h.await fuel operation) fuel
    (control_follows.enter hinvoke i' i h)).bind ?_
  rintro _ _ (⟨hvalue, hj⟩ | _)
  · exact hj.flush.bind fun _ _ hj => .done ⟨hvalue, hj⟩
  · exact .never

theorem Mirrors.perform (h : i'.Mirrors i) (fuel : Nat) (request : PerformRequest) :
    Task.Alike (Alongside Mirrors) (i'.perform fuel request)
      (i.perform fuel request) := by
  have hbegun : Mirrors { i' with host := { i'.host with perform := some { request } } }
      { i with host := { i.host with perform := some { request } } } :=
    ⟨h.core, h.exports,
      congrArg (fun h : HostState => { h with perform := some { request } }) h.host⟩
  refine (hbegun.call fuel .perform fun _ => rfl).bind ?_
  rintro ⟨result, j'⟩ ⟨_, j⟩ ⟨rfl, hj⟩
  have hfinished : j'.host.perform = j.host.perform :=
    (congrArg HostState.perform hj.host :)
  have hended : Mirrors { j' with host := { j'.host with perform := none } }
      { j with host := { j.host with perform := none } } :=
    ⟨hj.core, hj.exports,
      congrArg (fun h : HostState => { h with perform := none }) hj.host⟩
  dsimp only
  rw [hfinished]
  rcases result with e | ⟨⟩
  · exact .done ⟨rfl, hended⟩
  · rcases j.host.perform with _ | state
    · exact .done ⟨rfl, hended⟩
    · exact .done ⟨rfl, hended⟩

theorem Mirrors.salvage (h : i'.Mirrors i) (e : CallError) :
    Task.Alike Eq (i'.salvage e) (i.salvage e) := by
  refine (h.act follows_abandonSuspension).bind ?_
  rintro ⟨_, j'⟩ ⟨_, j⟩ ⟨-, hj⟩
  have hreleased : j'.release.Mirrors j.release :=
    ⟨hj.core, hj.exports, congrArg (fun h : HostState => h.release.2) hj.host⟩
  refine (hreleased.act follows_readDeveloperDump).bind ?_
  rintro ⟨dump, j'⟩ ⟨_, j⟩ ⟨rfl, hj⟩
  refine (hj.act follows_readMetrics).bind ?_
  rintro ⟨metrics, j'⟩ ⟨_, j⟩ ⟨rfl, -⟩
  exact .refl _

theorem Mirrors.flushMetrics (h : i'.Mirrors i) :
    Task.Alike (Alongside Mirrors) i'.flushMetrics i.flushMetrics := by
  refine (h.act follows_readMetrics).bind ?_
  rintro ⟨_ | events, j'⟩ ⟨_, j⟩ ⟨rfl, hj⟩
  · exact .done ⟨rfl, hj⟩
  · refine (hj.act follows_clearMetrics).bind ?_
    rintro ⟨_ | ⟨⟩, k'⟩ ⟨_, k⟩ ⟨rfl, hk⟩
    · exact .done ⟨rfl, hk⟩
    · exact (Task.Alike.refl (EventKind.metrics.forward events)).bind fun _ _ _ =>
        .done ⟨rfl, hk⟩

/-- Instances that were made, or the same reason why none was. -/
inductive Made : Except InstantiateError (Instance (Watched G)) →
    Except InstantiateError (Instance G) → Prop where
  | error (e : InstantiateError) : Made (.error e) (.error e)
  | ok {i' : Instance (Watched G)} {i : Instance G} (h : i'.Mirrors i) :
      Made (.ok i') (.ok i)

end Instance

namespace Core

/-- A core and its watched one are brought to life alike. -/
theorem alike_instantiate (c : Core G) (config : RuntimeConfig) :
    Task.Alike Instance.Made (c.watched.instantiate config) (c.instantiate config) := by
  unfold instantiate
  rcases hcreate : c.create with e | fresh
  · simp only [watched, hcreate, Except.map]
    exact .done (.error _)
  · -- What is passed on here are remarks only, on either side.
    have hsilent (lines : List Remark) :
        (lines.map Effect.remark).filter (!·.isRemark) = [] := by
      simp only [List.filter_eq_nil_iff, List.forall_mem_map]
      exact fun _ _ => nofun
    rcases hstart : c.start with _ | start
    · simp only [watched, hcreate, hstart, Except.map, Option.getD_none,
        CoreState.unwatched_watched, Activation.watched, Activation.alone]
      refine (HostState.alike_emitAll _ _ (hsilent [_])).bind fun _ _ _ => ?_
      rcases c.exports with e | x
      · exact .done (.error _)
      · exact .done (.ok ⟨rfl, rfl, rfl⟩)
    · simp only [watched, hcreate, hstart, Except.map, Option.getD_some,
        CoreState.unwatched_watched, Activation.alone, Activation.alone_watched]
      refine (HostState.alike_emitAll _ _ ((hsilent [_]).trans (hsilent _).symm)).bind
        fun _ _ _ => ?_
      rcases (start fresh).alone.2 with fault | state
      · exact .done (.error _)
      rcases c.exports with e | x
      · exact .done (.error _)
      · exact .done (.ok ⟨rfl, rfl, rfl⟩)

end Core

namespace Slot

/-- A slot of a watched session beside one of the session itself. -/
structure Mirrors (s' : Slot (Watched G)) (s : Slot G) : Prop where
  lifecycle : s'.lifecycle = s.lifecycle
  compiled : s'.compiled = s.compiled.map Core.watched
  live : Option.Rel Instance.Mirrors s'.live s.live
  timer : s'.timer = s.timer
  nextGeneration : s'.nextGeneration = s.nextGeneration

variable {s' : Slot (Watched G)} {s : Slot G}

theorem mirrors_empty : Mirrors (.empty : Slot (Watched G)) (.empty : Slot G) :=
  ⟨rfl, rfl, .none, rfl, rfl⟩

theorem Mirrors.install (h : s'.Mirrors s) (c : Core G) :
    Alongside Mirrors (s'.install c.watched) (s.install c) := by
  unfold Slot.install
  rw [h.lifecycle]
  cases s.lifecycle with
  | unloaded | compiled => exact ⟨rfl, rfl, rfl, h.live, h.timer, h.nextGeneration⟩
  | ready | tornDown => exact ⟨rfl, h⟩

theorem Mirrors.cancelTimer (h : s'.Mirrors s) :
    Task.Alike Mirrors s'.cancelTimer s.cancelTimer := by
  unfold Slot.cancelTimer
  rw [h.timer]
  cases s.timer with
  | none => exact .done h
  | some timer =>
      exact .ask _ fun _ =>
        .done ⟨h.lifecycle, h.compiled, h.live, rfl, h.nextGeneration⟩

theorem Mirrors.armTimer (h : s'.Mirrors s) (config : RuntimeConfig) :
    Task.Alike Mirrors (s'.armTimer config) (s.armTimer config) := by
  unfold Slot.armTimer
  rw [h.timer, h.nextGeneration]
  cases s.timer with
  | none => exact .ask _ fun id => .done ⟨h.lifecycle, h.compiled, h.live, rfl, rfl⟩
  | some timer => exact .done h

end Slot

namespace Setup

variable {setup : Setup G} {s' : Slot (Watched G)} {s : Slot G}

theorem alongside_load (h : s'.Mirrors s) (bytes : ByteArray) :
    Alongside Slot.Mirrors (setup.watched.load bytes s') (setup.load bytes s) := by
  unfold load compileCore watched
  dsimp only
  cases setup.compile bytes with
  | none => exact ⟨rfl, h⟩
  | some c => exact h.install c

theorem alike_loadFrom (h : s'.Mirrors s) (path : String) :
    Task.Alike (Alongside Slot.Mirrors) (setup.watched.loadFrom path s')
      (setup.loadFrom path s) := by
  refine (Task.Alike.refl (readFile setup.fuel path)).bind ?_
  rintro (e | bytes) _ rfl
  · exact .done ⟨rfl, h⟩
  · exact .done (alongside_load h bytes)

theorem alike_init (h : s'.Mirrors s) :
    Task.Alike (Alongside Slot.Mirrors) (setup.watched.init s') (setup.init s) := by
  unfold init
  rw [h.lifecycle, h.compiled]
  cases s.lifecycle with
  | unloaded | ready | tornDown => exact .done ⟨rfl, h⟩
  | compiled =>
      cases s.compiled with
      | none => exact .done ⟨rfl, h⟩
      | some c =>
          refine (c.alike_instantiate setup.config).bind ?_
          rintro _ _ (e | hi)
          · exact .done ⟨rfl, h⟩
          · refine (hi.call setup.fuel .setup fun _ => rfl).bind ?_
            rintro ⟨e | ⟨⟩, j'⟩ ⟨_, j⟩ ⟨rfl, hj⟩
            · refine (hj.salvage e).bind ?_
              rintro answer _ rfl
              exact .done ⟨rfl, h⟩
            · exact .done ⟨rfl, rfl, rfl, .some hj, h.timer, h.nextGeneration⟩

theorem alike_perform (h : s'.Mirrors s) (request : PerformRequest) :
    Task.Alike (Alongside Slot.Mirrors) (setup.watched.perform request s')
      (setup.perform request s) := by
  unfold perform
  cases request.firstBlank? with
  | some field => exact .done ⟨rfl, h⟩
  | none =>
      generalize hlive' : s'.live = live', hlive : s.live = live
      have hrel := hlive' ▸ hlive ▸ h.live
      cases hrel with
      | none =>
          rw [h.lifecycle]
          exact .done ⟨rfl, h⟩
      | some hi =>
          refine (hi.perform setup.fuel request).bind ?_
          rintro ⟨e | state, j'⟩ ⟨_, j⟩ ⟨rfl, hj⟩
          · refine h.cancelTimer.bind fun t' t ht => ?_
            refine (hj.salvage e).bind ?_
            rintro answer _ rfl
            exact .done ⟨rfl, rfl, ht.compiled, .none, ht.timer, ht.nextGeneration⟩
          · have hlive :
                @Slot.Mirrors G { s' with live := some j' } { s with live := some j } :=
              ⟨h.lifecycle, h.compiled, .some hj, h.timer, h.nextGeneration⟩
            refine (hlive.armTimer setup.config).bind fun t' t ht => ?_
            exact .done ⟨rfl, ht⟩

theorem alike_finish {i' : Instance (Watched G)} {i : Instance G} (h : i'.Mirrors i) :
    Task.Alike (Alongside Instance.Mirrors) (setup.watched.finish i')
      (setup.finish i) := by
  refine h.flushMetrics.bind ?_
  rintro ⟨e | ⟨⟩, j'⟩ ⟨_, j⟩ ⟨rfl, hj⟩
  · exact .done ⟨rfl, hj⟩
  · exact hj.call setup.fuel .teardown fun _ => rfl

theorem alike_destroy (h : s'.Mirrors s) :
    Task.Alike (Alongside Slot.Mirrors) (setup.watched.destroy s')
      (setup.destroy s) := by
  unfold destroy
  rw [h.lifecycle]
  split
  · exact .done ⟨rfl, h⟩
  · refine h.cancelTimer.bind fun t' t ht => ?_
    have hgone :
        @Slot.Mirrors G
          { t' with live := none, compiled := none, lifecycle := .tornDown }
          { t with live := none, compiled := none, lifecycle := .tornDown } :=
      ⟨rfl, rfl, .none, ht.timer, ht.nextGeneration⟩
    generalize hlive' : t'.live = live', hlive : t.live = live
    have hrel := hlive' ▸ hlive ▸ ht.live
    cases hrel with
    | none => exact .done ⟨rfl, hgone⟩
    | some hi =>
        refine (alike_finish hi).bind ?_
        rintro ⟨e | ⟨⟩, j'⟩ ⟨_, j⟩ ⟨rfl, hj⟩
        · refine (hj.salvage e).bind ?_
          rintro answer _ rfl
          exact .done ⟨rfl, hgone⟩
        · exact .done ⟨rfl, hgone⟩

theorem alike_flushFromTimer (h : s'.Mirrors s) (generation : Nat) :
    Task.Alike Slot.Mirrors (flushFromTimer generation s')
      (flushFromTimer generation s) := by
  unfold flushFromTimer
  rw [h.timer]
  split
  · exact .done h
  · have hquiet : @Slot.Mirrors G { s' with timer := none } { s with timer := none } :=
      ⟨h.lifecycle, h.compiled, h.live, rfl, h.nextGeneration⟩
    generalize { s' with timer := none } = t', { s with timer := none } = t at hquiet ⊢
    dsimp only
    generalize hlive' : t'.live = live', hlive : t.live = live
    have hrel := hlive' ▸ hlive ▸ hquiet.live
    cases hrel with
    | none => exact .done hquiet
    | some hi =>
        refine hi.flushMetrics.bind ?_
        rintro ⟨e | ⟨⟩, j'⟩ ⟨_, j⟩ ⟨rfl, hj⟩
        · refine (hj.salvage e).bind ?_
          rintro answer _ rfl
          exact .done ⟨rfl, hquiet.compiled, .none, hquiet.timer, hquiet.nextGeneration⟩
        · exact .done ⟨hquiet.lifecycle, hquiet.compiled, .some hj, hquiet.timer,
            hquiet.nextGeneration⟩

/-- Whatever is carried out, watching changes nothing but remarks. -/
theorem alike_carryOut (h : s'.Mirrors s) (operation : Operation) :
    Task.Alike (Alongside Slot.Mirrors) (setup.watched.carryOut operation s')
      (setup.carryOut operation s) := by
  have hanswered {α : Type} (answer : α → Answer) (r' : α × Slot (Watched G))
      (r : α × Slot G) (hr : Alongside Slot.Mirrors r' r) :
      Task.Alike (Alongside Slot.Mirrors) (pure (answer r'.1, r'.2))
        (pure (answer r.1, r.2)) :=
    .done ⟨congrArg answer hr.value, hr.state⟩
  cases operation with
  | load bytes => exact hanswered .loaded _ _ (alongside_load h bytes)
  | loadFrom path => exact (alike_loadFrom h path).bind (hanswered .loaded)
  | init => exact (alike_init h).bind (hanswered .initialized)
  | perform request => exact (alike_perform h request).bind (hanswered .performed)
  | destroy => exact (alike_destroy h).bind (hanswered .destroyed)
  | fire generation =>
      exact (alike_flushFromTimer h generation).bind fun _ _ ht => .done ⟨rfl, ht⟩

/-- An entry of a watched session's story beside one of the session's own. -/
structure Entry.Mirrors (e' : Entry (Watched G)) (e : Entry G) : Prop where
  before : e'.before.Mirrors e.before
  operation : e'.operation = e.operation
  log : Exchange.unremarked e'.log = Exchange.unremarked e.log
  answer : e'.answer = e.answer
  after : e'.after.Mirrors e.after

/-- Every story of a session is told by the watched session. -/
theorem Story.watched {past : List (Entry G)} (h : setup.Story past s) :
    ∃ past' s', setup.watched.Story past' s' ∧ List.Forall₂ Entry.Mirrors past' past ∧
    s'.Mirrors s := by
  induction h with
  | new => exact ⟨[], .empty, .new, .nil, Slot.mirrors_empty⟩
  | @next past s t operation log answer _ runs ih =>
      obtain ⟨past', s', hstory, hpast, hs⟩ := ih
      obtain ⟨log', ⟨_, t'⟩, hruns, ⟨rfl, ht⟩, hlog⟩ :=
        (alike_carryOut hs operation).symm.runs runs
      exact ⟨_, t', hstory.next hruns,
        List.rel_append hpast (.cons ⟨hs, rfl, hlog.symm, rfl, ht⟩ .nil), ht⟩

/-- Every story of the watched session is told by the session itself. -/
theorem Story.unwatched {past' : List (Entry (Watched G))}
    (h : setup.watched.Story past' s') : ∃ past s, setup.Story past s ∧
    List.Forall₂ Entry.Mirrors past' past ∧ s'.Mirrors s := by
  induction h with
  | new => exact ⟨[], .empty, .new, .nil, Slot.mirrors_empty⟩
  | @next past' s' t' operation log' answer _ runs ih =>
      obtain ⟨past, s, hstory, hpast, hs⟩ := ih
      obtain ⟨log, ⟨_, t⟩, hruns, ⟨rfl, ht⟩, hlog⟩ :=
        (alike_carryOut hs operation).runs runs
      exact ⟨_, t, hstory.next hruns,
        List.rel_append hpast (.cons ⟨hs, rfl, hlog, rfl, ht⟩ .nil), ht⟩

end Setup

end Resumable
