import Resumable.Proofs.Host.Halves
import Resumable.Proofs.Host.HostRun
import Resumable.Proofs.Host.Journal
import Resumable.Proofs.Session.Visits

namespace Resumable

def Exchange.emissions (outbox : List Effect) : List Exchange :=
  outbox.reverse.map fun effect => ⟨.emit effect, ()⟩

namespace HostState

theorem runs_emitAll_iff {effects : List Effect} {log : List Exchange} :
    (emitAll effects).Runs log () ↔ log = effects.map fun effect =>
    ⟨.emit effect, ()⟩ := by
  induction effects generalizing log with
  | nil => exact and_iff_left rfl
  | cons effect rest ih =>
      constructor
      · rintro ⟨_, tail, rfl, h⟩
        rw [ih.mp h]
        rfl
      · rintro rfl
        exact ⟨(), _, rfl, ih.mpr rfl⟩

theorem runs_flush_iff {h h' : HostState} {log : List Exchange} :
    h.flush.Runs log h' ↔ log = Exchange.emissions h.outbox ∧
    h' = { h with outbox := [] } := by
  constructor
  · intro hruns
    obtain ⟨_, log₁, _, rfl, hemit, rfl, rfl⟩ := Task.runs_bind.mp hruns
    rw [List.append_nil]
    exact ⟨runs_emitAll_iff.mp hemit, rfl⟩
  · rintro ⟨rfl, rfl⟩
    exact Task.runs_bind.mpr ⟨(), _, [], (List.append_nil _).symm,
      runs_emitAll_iff.mpr rfl, rfl, rfl⟩

end HostState

/-- Events are handed to the event store once if there are any, whatever it
makes of them. -/
inductive EventKind.Forwards (kind : EventKind) :
    List String → List Exchange → Prop where
  | nothing : Forwards kind [] []
  | once {events : List String} (hsome : events ≠ []) (kept : Except String Unit) :
      Forwards kind events [⟨.persist kind events, kept⟩]

theorem EventKind.runs_forward_iff {kind : EventKind} {events : List String}
    {log : List Exchange} :
    (kind.forward events).Runs log () ↔ kind.Forwards events log := by
  rcases events with _ | ⟨event, rest⟩
  · constructor
    · rintro ⟨rfl, -⟩
      exact .nothing
    · rintro (_ | ⟨h, -⟩)
      · exact ⟨rfl, rfl⟩
      · exact absurd rfl h
  · constructor
    · intro h
      obtain ⟨kept, _, _, rfl, hpersist, rfl, -⟩ := Task.runs_bind.mp h
      cases Task.runs_request.mp hpersist
      exact .once (List.cons_ne_nil _ _) kept
    · rintro (_ | ⟨-, kept⟩)
      exact Task.runs_bind.mpr ⟨kept, _, [], rfl, Task.runs_request.mpr rfl, rfl, rfl⟩

/-- What a core is led to by the function that ends a state; in the normal state
none is called. -/
def Exports.stopped {G : Type} (x : Exports G) :
    SuspendState → CoreState G → CoreState G
  | .normal, s => s
  | .unwinding, s => (x.stopUnwind s).2
  | .rewinding, s => (x.stopRewind s).2

/-- The stop functions work: whatever state a core has just reported, what ends it
leads to the normal one. -/
def Exports.Stops {G : Type} (x : Exports G) : Prop :=
  ∀ state s t, x.getState s = (.ok state.raw, t) →
  (x.getState (x.stopped state t)).1 = .ok 0

namespace Activation

variable {G R : Type} {a : Activation G R} {i j : Instance G} {events : List (Event G)}
  {r : Except CallError R}

theorem Tells.run (h : a.Tells i events r j) :
    (Instance.run Instance.serve a).on i = (r, j) := by
  induction h with
  | finish | trap => rfl
  | @refused core call resume i j deed e hserve hserving =>
      have hsaved : (Act.modify fun i => { i with core := core } : Live G Unit).on i =
          (.ok (), { i with core := core }) := rfl
      unfold Instance.run
      rw [Act.on_bind_ok hsaved, Act.on_bind_error hserve]
  | @answered core call resume i j k deed word events r hserve hserving hrest ih =>
      have hsaved : (Act.modify fun i => { i with core := core } : Live G Unit).on i =
          (.ok (), { i with core := core }) := rfl
      unfold Instance.run
      rw [Act.on_bind_ok hsaved, Act.on_bind_ok hserve,
        Act.on_bind_ok (Act.on_read _ _)]
      exact ih
  | @remark line rest i j events r hrest ih =>
      unfold Instance.run
      exact ih

/-- An activation that calls no import leaves the host alone, apart from what is still
to be passed on. -/
theorem Tells.host (h : a.Tells i events r j) (hsilent : events = []) :
    j.host = { i.host with outbox := j.host.outbox } := by
  induction h with
  | finish | trap => rfl
  | refused | answered => cases hsilent
  | remark _ ih => exact ih hsilent

end Activation

namespace Instance

variable {G α : Type} {i j : Instance G} {log : List Exchange} {e : CallError}

theorem runs_flush_iff :
    i.flush.Runs log j ↔ log = Exchange.emissions i.host.outbox ∧ j = i.flushed := by
  constructor
  · intro h
    obtain ⟨_, log₁, _, rfl, hflush, rfl, rfl⟩ := Task.runs_bind.mp h
    obtain ⟨rfl, rfl⟩ := HostState.runs_flush_iff.mp hflush
    rw [List.append_nil]
    exact ⟨rfl, rfl⟩
  · rintro ⟨rfl, rfl⟩
    exact Task.runs_bind.mpr
      ⟨_, _, [], (List.append_nil _).symm,
        HostState.runs_flush_iff.mpr ⟨rfl, rfl⟩, rfl, rfl⟩

/-- A step passes its effects on, and goes on with what it came to. -/
theorem runs_act_bind {β : Type} {step : Live G α}
    {f : Except CallError α × Instance G → Task β} {b : β} :
    (i.act step >>= f).Runs log b ↔
      ∃ rest, log = Exchange.emissions (step.on i).2.host.outbox ++ rest ∧
        (f ((step.on i).1, (step.on i).2.flushed)).Runs rest b := by
  constructor
  · intro h
    obtain ⟨_, _, rest, rfl, hact, hrest⟩ := Task.runs_bind.mp h
    obtain ⟨_, _, _, rfl, hflush, rfl, rfl⟩ := Task.runs_bind.mp hact
    obtain ⟨rfl, rfl⟩ := runs_flush_iff.mp hflush
    rw [List.append_nil]
    exact ⟨rest, rfl, hrest⟩
  · rintro ⟨rest, rfl, hrest⟩
    exact Task.runs_bind.mpr ⟨_, _, rest, rfl, Task.runs_bind.mpr
      ⟨_, _, [], (List.append_nil _).symm, runs_flush_iff.mpr ⟨rfl, rfl⟩, rfl, rfl⟩,
        hrest⟩

/-- The instance behind its suspension, or as far as the core lets it get there. -/
def abandoned (i : Instance G) : Instance G := (abandonSuspension.on i).2.flushed

def quieted (i : Instance G) : Instance G := i.abandoned.release

def lastDump (i : Instance G) : Except CallError (List String) × Instance G :=
  readDeveloperDump.on i.quieted

theorem lastReading_eq (i : Instance G) :
    i.lastReading = readMetrics.on i.lastDump.2.flushed := rfl

def lastEmissions (i : Instance G) : List Exchange :=
  Exchange.emissions (abandonSuspension.on i).2.host.outbox ++
    (Exchange.emissions i.lastDump.2.host.outbox ++
      Exchange.emissions i.lastReading.2.host.outbox)

/-- All that is exchanged while an instance is given up, and what is answered. -/
structure Salvaged (i : Instance G) (e : CallError) (log : List Exchange)
    (answer : PerformError) : Prop where
  answer : answer = .unexpected e.kind (CallError.message e)
  log : ∃ dumped counted, EventKind.developerDump.Forwards
    (eventsOf i.lastDump.1) dumped ∧
    EventKind.metrics.Forwards (eventsOf i.lastReading.1) counted ∧
    log = i.lastEmissions ++ (dumped ++ counted)

theorem runs_salvage_iff {answer : PerformError} :
    (i.salvage e).Runs log answer ↔ i.Salvaged e log answer := by
  have hquieted : (abandonSuspension.on i).2.flushed.release = i.quieted := rfl
  have hdump : readDeveloperDump.on i.quieted = i.lastDump := rfl
  unfold salvage
  simp only [runs_act_bind, hquieted, hdump, ← lastReading_eq]
  -- What has been emitted is made a variable each time, since comparing two logs
  -- would work it out.
  generalize hfirst : Exchange.emissions (abandonSuspension.on i).2.host.outbox = first
  generalize hsecond : Exchange.emissions i.lastDump.2.host.outbox = second
  generalize hthird : Exchange.emissions i.lastReading.2.host.outbox = third
  have hemitted : i.lastEmissions = first ++ (second ++ third) := by
    rw [lastEmissions, hfirst, hsecond, hthird]
  constructor
  · rintro ⟨_, rfl, _, rfl, _, rfl, h⟩
    obtain ⟨_, dumped, _, rfl, hdumped, h⟩ := Task.runs_bind.mp h
    obtain ⟨_, counted, _, rfl, hcounted, rfl, rfl⟩ := Task.runs_bind.mp h
    refine ⟨rfl, dumped, counted, EventKind.runs_forward_iff.mp hdumped,
      EventKind.runs_forward_iff.mp hcounted, ?_⟩
    rw [List.append_nil, hemitted, List.append_assoc, List.append_assoc]
  · rintro ⟨rfl, dumped, counted, hdumped, hcounted, rfl⟩
    rw [hemitted, List.append_assoc, List.append_assoc]
    refine ⟨_, rfl, _, rfl, _, rfl, ?_⟩
    refine Task.runs_bind.mpr ⟨_, _, _, rfl, EventKind.runs_forward_iff.mpr hdumped, ?_⟩
    exact Task.runs_bind.mpr
      ⟨_, _, _, (List.append_nil _).symm,
        EventKind.runs_forward_iff.mpr hcounted, rfl, rfl⟩

/-- The host holds nothing for the core. -/
structure Released (i : Instance G) : Prop where
  pending : i.host.bridge.pending = none
  perform : i.host.perform = none
  streams : i.host.streams.entries = []
  responses : i.host.responses.entries = []
  messages : i.host.messages.entries = []

theorem release_released (i : Instance G) : i.release.Released :=
  ⟨rfl, rfl, rfl, rfl, rfl⟩

theorem Released.congr (h : i.Released) {outbox : List Effect}
    (hj : j.host = { i.host with outbox := outbox }) : j.Released := by
  constructor
  all_goals rw [hj]
  · exact h.pending
  · exact h.perform
  · exact h.streams
  · exact h.responses
  · exact h.messages

def liveHandles (i : Instance G) : Nat :=
  i.host.streams.size + i.host.responses.size + i.host.messages.size

theorem abandonSuspension_on {state : SuspendState}
    (hs : control.state.on i = (.ok state, j)) : (abandonSuspension.on i).2 =
    i.onward (i.exports.stopped state j.core) i.host := by
  rw [abandonSuspension, Act.on_bind_ok hs, state_on_snd hs]
  cases state <;> rfl

theorem quieted_eq {state : SuspendState} (hs : control.state.on i = (.ok state, j)) :
    i.quieted = (i.onward (i.exports.stopped state j.core) i.host).flushed.release := by
  rw [← abandonSuspension_on hs]
  rfl

/-- With stop functions that work, the getters are called in the normal state. -/
theorem quieted_normal (hstops : i.exports.Stops)
    (hstate : ∃ state, (control.state.on i).1 = .ok state) :
    (control.state.on i.quieted).1 = .ok .normal := by
  obtain ⟨state, hstate⟩ := hstate
  rcases hs : control.state.on i with ⟨r, j⟩
  rw [hs] at hstate
  cases hstate
  rw [quieted_eq hs]
  have htold : (i.exports.getState (i.exports.stopped state j.core)).1 =
      .ok SuspendState.normal.raw :=
    hstops state _ _ (getState_of_state_on hs)
  exact congrArg Prod.fst (state_on_of_getState (Prod.ext htold rfl))

theorem release_abandoned (i : Instance G) :
    i.abandoned.host.release.1 = i.liveHandles := by
  have hhost : i.abandoned.host = { i.host with outbox := [] } := by
    have h := maintains_host_abandonSuspension i rfl
    change { (abandonSuspension.on i).2.host with outbox := [] } = _
    rw [h]
  rw [hhost]
  rfl

/-- A getter of the dump that calls no import leaves a host that holds nothing to the
getter of the metrics. -/
theorem lastDump_released {r : Except CallError UInt32}
    (h : (i.quieted.exports.getDeveloperDump i.quieted.core).Tells i.quieted [] r j) :
    i.lastDump.2.flushed.Released := by
  have hinvoke : (invoke fun x s => x.getDeveloperDump s).on i.quieted = (r, j) :=
    (Act.on_bind_ok (Act.on_read id _)).trans h.run
  have hdump : i.lastDump.2 = j := by
    rw [lastDump, readDeveloperDump, Act.on_bind, hinvoke]
    cases r with
    | error => rfl
    | ok ptr =>
        dsimp only
        rw [Act.on_bind_ok (Act.on_read _ _)]
        split <;> rfl
  have hreleased : j.Released := i.abandoned.release_released.congr (h.host rfl)
  rw [hdump]
  exact hreleased.congr rfl

/-- Giving an instance up is complete and masks nothing. Its getters are called when
no more of the core has been called than what ends its state, the core is back in the
normal one, and the host holds nothing for it. Each is called whatever the other
comes to, what they answer goes to the event store, and the answer is about the
failed call only. -/
theorem salvage_complete (e : CallError) (hstops : i.exports.Stops)
    (hstate : ∃ state, (control.state.on i).1 = .ok state) :
    (∃ state, i.quieted.core = i.exports.stopped state (i.exports.getState i.core).2) ∧
      (control.state.on i.quieted).1 = .ok .normal ∧ i.quieted.Released ∧
      i.abandoned.host.release.1 = i.liveHandles ∧
      (∀ r j, (i.quieted.exports.getDeveloperDump i.quieted.core).Tells
        i.quieted [] r j → i.lastDump.2.flushed.Released) ∧
      ∀ log answer, (i.salvage e).Runs log answer ↔ i.Salvaged e log answer := by
  refine ⟨?_, quieted_normal hstops hstate, i.abandoned.release_released,
    i.release_abandoned, fun _ _ => lastDump_released, fun _ _ => runs_salvage_iff⟩
  obtain ⟨state, hstate⟩ := hstate
  rcases hs : control.state.on i with ⟨r, j⟩
  rw [hs] at hstate
  cases hstate
  refine ⟨state, ?_⟩
  rw [quieted_eq hs, state_on_snd hs]
  rfl

section Stranded

/-- A core that failed while it was rewound, with a stream that is not closed. Its
dump cannot be read, and its metrics are one event. -/
def stranded : Instance Int32 where
  core := ⟨⟨65536, ⟨#[16, 0, 0, 0, 2, 0, 0, 0, 0, 0, 0, 0, 0, 0, 0, 0, 109, 0]⟩⟩, 2⟩
  exports :=
    { getState := fun s => (.ok s.globals, s)
      startUnwind := fun _ s => (.ok (), { s with globals := 1 })
      stopUnwind := fun s => (.ok (), { s with globals := 0 })
      startRewind := fun _ s => (.ok (), { s with globals := 2 })
      stopRewind := fun s => (.ok (), { s with globals := 0 })
      setup := fun s => .finish s ()
      teardown := fun s => .finish s ()
      perform := fun s => .finish s ()
      getMetrics := fun s => .finish s 0
      clearMetrics := fun s => .finish s ()
      getDeveloperDump := fun s => .trap s .unreachable }
  host :=
    { HostState.ofConfig {} with
      bridge := ⟨some (.resolved (.write (.ok 1))), 1⟩
      streams := ⟨7, 2, [(1, .file 0)]⟩ }

theorem stranded_stops : stranded.exports.Stops := by
  intro state s t h
  obtain ⟨htold, rfl⟩ := Prod.mk.inj h
  cases state with
  | normal => exact htold
  | unwinding | rewinding => rfl

/-- The metrics are forwarded although the dump is lost and the store is full. -/
theorem stranded_salvaged :
    stranded.exports.Stops ∧ (∃ state, (control.state.on stranded).1 = .ok state) ∧
      (control.state.on stranded.quieted).1 = .ok .normal ∧ stranded.quieted.Released ∧
      stranded.abandoned.host.release.1 = 1 ∧
      (stranded.salvage (.other (.trap .outOfBounds))).Runs
        [⟨.persist .metrics ["m"], .error "full"⟩]
        (.unexpected .trap "wasm trap: out of bounds memory access") := by
  have hstate : ∃ state, (control.state.on stranded).1 = .ok state := ⟨.rewinding, rfl⟩
  obtain ⟨-, hnormal, hreleased, hlive, -, hruns⟩ :=
    salvage_complete (.other (.trap .outOfBounds)) stranded_stops hstate
  refine ⟨stranded_stops, hstate, hnormal, hreleased, hlive,
    (hruns _ _).mpr ⟨rfl, [], _, ?_, ?_, rfl⟩⟩
  · have hdump : eventsOf stranded.lastDump.1 = [] := rfl
    rw [hdump]
    exact .nothing
  · have hmetrics : eventsOf stranded.lastReading.1 = ["m"] := by decide +kernel
    rw [hmetrics]
    exact .once (List.cons_ne_nil _ _) _

end Stranded

end Instance

namespace Setup

variable {G : Type} {setup : Setup G} {s s' : Slot G} {operation : Operation}
  {answer : Answer}

/-- Wherever a call fails, the instance it was made on is given up, and no more is
exchanged for it. -/
theorem Fails.given_up {early late : List Exchange} {i : Instance G} {e : CallError}
    (h : setup.Fails s operation early i e)
    (hcourse : setup.Course operation (early ++ late) answer s s') (hc : s.Consistent) :
    s'.live = none ∧ ∃ clearing rest left, late = clearing ++ rest ∧
    i.Salvaged e rest left := by
  obtain ⟨hlive, clearing, rest, left, hlate, -, hsalvage⟩ := h.salvaged hcourse hc
  exact ⟨hlive, clearing, rest, left, hlate, Instance.runs_salvage_iff.mp hsalvage⟩

end Setup

end Resumable
