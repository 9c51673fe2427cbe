import Resumable.Proofs.Bridge.Driving
import Resumable.Proofs.Host.HostRun
import Resumable.Proofs.Host.Requests
import Resumable.Session.Salvage

/-!
# The events that a core records

A core records events until it is told to clear them. A journal reads off a core's
state what it has recorded: the events that are cleared, and behind them those that
are pending. A core keeps it if only the clearing of metrics moves events from the one
to the other, and if the getter exposes what is pending. What is forwarded of an
instance of such a core is told here from its journal.
-/

namespace Resumable

namespace Exchange

def events : Exchange → List String
  | ⟨.persist .metrics events, _⟩ => events
  | _ => []

/-- The metrics that are handed to the event store, whether or not it keeps them. -/
def forwarded (log : List Exchange) : List String := log.flatMap events

theorem forwarded_append (log log' : List Exchange) :
    forwarded (log ++ log') = forwarded log ++ forwarded log' :=
  List.flatMap_append

end Exchange

theorem Task.ForCore.forwarded_eq_nil {α : Type} {t : Task α}
    {log : List Exchange} {a : α} (h : t.ForCore) (hruns : t.Runs log a) :
    Exchange.forwarded log = [] := by
  refine List.flatMap_eq_nil_iff.mpr fun e he => ?_
  have := h.runs hruns e he
  rcases e with ⟨request, answer⟩
  cases request <;> first | rfl | cases this

namespace EventKind

variable {log : List Exchange} {events : List String}

theorem runs_forward {kind : EventKind} (h : (kind.forward events).Runs log ()) :
    events = [] ∧ log = [] ∨ ∃ kept, log = [⟨.persist kind events, kept⟩] := by
  unfold forward at h
  split at h
  · next hempty => exact .inl ⟨List.isEmpty_iff.mp hempty, h.1⟩
  · obtain ⟨kept, _, _, rfl, hpersist, rfl, -⟩ := Task.runs_bind.mp h
    cases Task.runs_request.mp hpersist
    exact .inr ⟨kept, rfl⟩

theorem forwarded_metrics (h : (metrics.forward events).Runs log ()) :
    Exchange.forwarded log = events := by
  obtain ⟨rfl, rfl⟩ | ⟨kept, rfl⟩ := runs_forward h
  · rfl
  · exact List.append_nil _

theorem forwarded_developerDump (h : (developerDump.forward events).Runs log ()) :
    Exchange.forwarded log = [] := by
  obtain ⟨-, rfl⟩ | ⟨kept, rfl⟩ := runs_forward h <;> rfl

end EventKind

/-- What a core has recorded, read off its state; part of the state may be there for
that only. Which states are sound may also depend on what the slot of the bridge
holds. Services answer what the journal expects. -/
structure Journal (G : Type) where
  sound : CoreState G → Option (Pending Deferred Resolved) → Prop
  cleared : CoreState G → List String
  pending : CoreState G → List String
  expects : Exchange → Prop

namespace Journal

variable {G α : Type} (J : Journal G)

def recorded (c : CoreState G) : List String := J.cleared c ++ J.pending c

/-- Nothing has been cleared since `c`, and what has been recorded since comes last. -/
structure Grows (c : CoreState G) (i : Instance G) : Prop where
  sound : J.sound i.core i.host.bridge.pending
  cleared : J.cleared i.core = J.cleared c
  pending : J.pending c <+: J.pending i.core

/-- What has to be forwarded of an instance by the time that its metrics are read
for the last time: all that it has recorded, or what it has cleared if they
cannot be read. -/
def due : Except CallError (List String) × Instance G → List String
  | (.ok _, i) => J.recorded i.core
  | (.error _, i) => J.cleared i.core

/-- An instance with the exports `x` in the configuration `config`, with a
sound core. -/
structure Holds (config : RuntimeConfig) (x : Exports G) (i : Instance G) : Prop where
  exports : i.exports = x
  config : i.host.config = config
  sound : J.sound i.core i.host.bridge.pending

def Keeps (config : RuntimeConfig) (x : Exports G) (step : Live G α) : Prop :=
  ∀ i, J.Holds config x i → J.Grows i.core (step.on i).2

/-- Nothing but the clearing of metrics clears any, and nothing that the host does for
the core, its own header included, makes it unsound. -/
structure KeptBy (fuel : Nat) (config : RuntimeConfig) (x : Exports G) : Prop where
  rawState : J.Keeps config x Instance.control.rawState
  startUnwind : J.Keeps config x Instance.control.startUnwind
  stopUnwind : J.Keeps config x Instance.control.stopUnwind
  startRewind : J.Keeps config x Instance.control.startRewind
  stopRewind : J.Keeps config x Instance.control.stopRewind
  resetData : J.Keeps config x Instance.control.resetData
  setup : J.Keeps config x (Instance.invoke fun x s => x.setup s)
  teardown : J.Keeps config x (Instance.invoke fun x s => x.teardown s)
  perform : J.Keeps config x (Instance.invoke fun x s => x.perform s)
  getMetrics : J.Keeps config x (Instance.invoke fun x s => x.getMetrics s)
  getDeveloperDump : J.Keeps config x (Instance.invoke fun x s => x.getDeveloperDump s)
  /-- The getter exposes what is pending. -/
  exposed : ∀ i ptr j events, J.Holds config x i →
    (Instance.invoke fun x s => x.getMetrics s).on i = (.ok ptr, j) →
      Arena.read j.core.memory ptr = .ok events → events = J.pending j.core
  /-- Metrics that are cleared are pending no more. -/
  emptied : ∀ i j, J.Holds config x i → Instance.clearMetrics.on i = (.ok (), j) →
    J.sound j.core j.host.bridge.pending ∧ J.cleared j.core = J.recorded i.core ∧
    J.pending j.core = []
  /-- Metrics that could not be cleared are as they were. -/
  untouched : ∀ i e j, J.Holds config x i → Instance.clearMetrics.on i = (.error e, j) →
    J.sound j.core j.host.bridge.pending ∧ J.cleared j.core = J.cleared i.core ∧
      J.pending j.core = J.pending i.core
  dropped : ∀ c pending, J.sound c pending → J.sound c none
  /-- An operation that was parked may be awaited. -/
  awaited : ∀ c operation h log value h', J.sound c (some (.inFlight operation)) →
    (∀ e ∈ log, J.expects e) → Deferred.Served fuel h operation log value h' →
      J.sound c (some (.resolved value))

variable {J} {c c' : CoreState G} {i j : Instance G}

theorem Grows.refl (h : J.sound i.core i.host.bridge.pending) : J.Grows i.core i :=
  ⟨h, rfl, List.prefix_refl _⟩

theorem Grows.trans (h : J.Grows c i) (h' : J.Grows i.core j) : J.Grows c j :=
  ⟨h'.sound, h'.cleared.trans h.cleared, h.pending.trans h'.pending⟩

theorem Grows.recorded (h : J.Grows c i) : J.recorded c <+: J.recorded i.core := by
  unfold Journal.recorded
  rw [h.cleared]
  exact (List.prefix_append_right_inj _).mpr h.pending

end Journal

namespace Instance

variable {G α : Type} {i i' : Instance G} {log : List Exchange}

theorem lasting_exports (x : Exports G) : Lasting fun i : Instance G => i.exports = x :=
  ⟨fun _ _ h => h, fun _ _ _ h => h, fun _ _ h => h, fun _ _ h => h⟩

theorem lasting_config (config : RuntimeConfig) :
    Lasting fun i : Instance G => i.host.config = config :=
  ⟨fun _ _ h => h, fun _ _ hsame h => hsame.config.trans h, fun _ _ h => h,
    fun _ _ h => h⟩

def flushed (i : Instance G) : Instance G :=
  { i with host := { i.host with outbox := [] } }

theorem runs_act {step : Live G α} {r : Except CallError α}
    (h : (i.act step).Runs log (r, i')) :
    ∃ j, step.on i = (r, j) ∧ i' = j.flushed ∧ Exchange.forwarded log = [] := by
  obtain ⟨j, hflush, ends⟩ := Task.ends_bind.mp h.ends
  cases ends
  exact ⟨_, rfl, ends_flush hflush, (i.forCore_act step).forwarded_eq_nil h⟩

theorem exports_clearMetrics {r : Except CallError Unit}
    (h : clearMetrics.on i = (r, i')) : i'.exports = i.exports := by
  have hexports :=
    (lasting_exports i.exports).invoke (fun x s => x.clearMetrics s) i rfl
  rw [← clearMetrics, h] at hexports
  exact hexports

theorem config_clearMetrics {r : Except CallError Unit}
    (h : clearMetrics.on i = (r, i')) : i'.host.config = i.host.config := by
  have hconfig :=
    (lasting_config i.host.config).invoke (fun x s => x.clearMetrics s) i rfl
  rw [← clearMetrics, h] at hconfig
  exact hconfig

/-- The last time that the metrics of an instance are read: when it is given up. -/
def lastReading (i : Instance G) : Except CallError (List String) × Instance G :=
  let reset := (abandonSuspension.on i).2.flushed.release
  readMetrics.on (readDeveloperDump.on reset).2.flushed

theorem runs_salvage {e : CallError} {answer : PerformError}
    (h : (i.salvage e).Runs log answer) :
    Exchange.forwarded log = eventsOf i.lastReading.1 := by
  unfold salvage at h
  obtain ⟨⟨_, reset⟩, log₁, _, rfl, hreset, h⟩ := Task.runs_bind.mp h
  obtain ⟨⟨dump, dumped⟩, log₂, _, rfl, hdump, h⟩ := Task.runs_bind.mp h
  obtain ⟨⟨metrics, read⟩, log₃, _, rfl, hmetrics, h⟩ := Task.runs_bind.mp h
  obtain ⟨_, log₄, _, rfl, hdumped, h⟩ := Task.runs_bind.mp h
  obtain ⟨_, log₅, _, rfl, hforwarded, rfl, -⟩ := Task.runs_bind.mp h
  obtain ⟨_, hon₁, rfl, hlog₁⟩ := runs_act hreset
  obtain ⟨_, hon₂, rfl, hlog₂⟩ := runs_act hdump
  obtain ⟨_, hon₃, -, hlog₃⟩ := runs_act hmetrics
  have hlast : i.lastReading.1 = metrics := by
    rw [lastReading, hon₁, hon₂, hon₃]
  rw [hlast]
  simp only [Exchange.forwarded_append, hlog₁, hlog₂, hlog₃,
    EventKind.forwarded_developerDump hdumped, EventKind.forwarded_metrics hforwarded,
    List.nil_append]
  exact List.append_nil _

/-- The ways in which a flush comes to its end, with what is forwarded. -/
inductive Flushes (i : Instance G) (log : List Exchange) :
    Except CallError Unit → Instance G → Prop where
  | unread {e : CallError} {j : Instance G} (hread : readMetrics.on i = (.error e, j))
      (hlog : Exchange.forwarded log = []) : Flushes i log (.error e) j.flushed
  | uncleared {events : List String} {e : CallError} {j k : Instance G}
      (hread : readMetrics.on i = (.ok events, j))
      (hclear : clearMetrics.on j.flushed = (.error e, k))
      (hlog : Exchange.forwarded log = []) : Flushes i log (.error e) k.flushed
  | done {events : List String} {j k : Instance G}
      (hread : readMetrics.on i = (.ok events, j))
      (hclear : clearMetrics.on j.flushed = (.ok (), k))
      (hlog : Exchange.forwarded log = events) : Flushes i log (.ok ()) k.flushed

theorem flushes_of_runs {r : Except CallError Unit}
    (h : i.flushMetrics.Runs log (r, i')) : i.Flushes log r i' := by
  unfold flushMetrics at h
  obtain ⟨⟨metrics, _⟩, log₁, _, rfl, hmetrics, h⟩ := Task.runs_bind.mp h
  obtain ⟨j, hread, rfl, hlog₁⟩ := runs_act hmetrics
  cases metrics with
  | error e =>
      obtain ⟨rfl, hr⟩ := h
      cases hr
      exact .unread hread (by rw [List.append_nil, hlog₁])
  | ok events =>
      obtain ⟨⟨cleared, _⟩, log₂, _, rfl, hcleared, h⟩ := Task.runs_bind.mp h
      obtain ⟨k, hclear, rfl, hlog₂⟩ := runs_act hcleared
      cases cleared with
      | error e =>
          obtain ⟨rfl, hr⟩ := h
          cases hr
          refine .uncleared hread hclear ?_
          rw [List.append_nil, Exchange.forwarded_append, hlog₁, hlog₂]
          rfl
      | ok _ =>
          obtain ⟨_, log₃, _, rfl, hforwarded, rfl, hr⟩ := Task.runs_bind.mp h
          cases hr
          refine .done hread hclear ?_
          simp only [Exchange.forwarded_append, hlog₁, hlog₂,
            EventKind.forwarded_metrics hforwarded, List.nil_append]
          exact List.append_nil _

end Instance

namespace Journal

variable {G α R : Type} {J : Journal G} {fuel : Nat} {config : RuntimeConfig}
  {x : Exports G} {c : CoreState G} {i i' j : Instance G} {log : List Exchange}

/-- An instance with the exports `x` in the configuration `config` that has cleared
nothing since `c`. -/
structure Since (J : Journal G) (config : RuntimeConfig) (x : Exports G)
    (c : CoreState G) (i : Instance G) : Prop where
  exports : i.exports = x
  config : i.host.config = config
  grows : J.Grows c i

theorem Since.holds (h : J.Since config x c i) : J.Holds config x i :=
  ⟨h.exports, h.config, h.grows.sound⟩

theorem Holds.since (h : J.Holds config x i) : J.Since config x i.core i :=
  ⟨h.exports, h.config, .refl h.sound⟩

theorem Since.withHost (h : J.Since config x c i) (host : HostState)
    (hconfig : host.config = i.host.config)
    (hpending : host.bridge.pending = i.host.bridge.pending) :
    J.Since config x c { i with host := host } where
  exports := h.exports
  config := hconfig.trans h.config
  grows := ⟨(congrArg (J.sound i.core) hpending).mpr h.grows.sound, h.grows.cleared,
    h.grows.pending⟩

theorem Since.flushed (h : J.Since config x c i) : J.Since config x c i.flushed :=
  h.withHost _ rfl rfl

/-- A step that clears nothing, seen from an earlier state. -/
theorem Keeps.maintains {step : Live G α} (h : J.Keeps config x step)
    (hlasting : ∀ p : Instance G → Prop, Instance.Lasting p → step.Maintains p)
    (c : CoreState G) : step.Maintains (J.Since config x c) := by
  intro i hi
  have hexports := hlasting _ (Instance.lasting_exports x) i hi.exports
  have hconfig := hlasting _ (Instance.lasting_config config) i hi.config
  exact ⟨hexports, hconfig, hi.grows.trans (h i hi.holds)⟩

/-- A call that waits for an operation: it is sound to have that in the slot,
which is empty. -/
structure Waits (J : Journal G) (config : RuntimeConfig) (x : Exports G)
    (c : CoreState G) (operation : Deferred) (i : Instance G) : Prop where
  idle : i.host.bridge.pending = none
  parked : J.Since config x c
    (i.onward i.core (i.host.withPending (some (.inFlight operation))))

def Stands (J : Journal G) (config : RuntimeConfig) (x : Exports G) (c : CoreState G) :
    Progress R Deferred → Instance G → Prop
  | .returned _ => J.Since config x c
  | .waiting operation => J.Waits config x c operation

namespace KeptBy

variable {entry : Exports G → CoreState G → Activation G R} {operation : Deferred}
  {value : Resolved}

theorem invoked (h : J.Keeps config x (Instance.invoke entry)) (c : CoreState G) :
    (Instance.invoke entry).Maintains (J.Since config x c) :=
  h.maintains (fun _ hp => hp.invoke entry) c

theorem rawStates (hJ : J.KeptBy fuel config x) (c : CoreState G) :
    Instance.control.rawState.Maintains (J.Since config x c) :=
  hJ.rawState.maintains (fun _ hp => hp.upholds.rawState) c

theorem state (hJ : J.KeptBy fuel config x) (c : CoreState G) :
    Instance.control.state.Maintains (J.Since config x c) :=
  Control.maintains_state_of_rawState (hJ.rawStates c)

theorem stopUnwinds (hJ : J.KeptBy fuel config x) (c : CoreState G) :
    Instance.control.stopUnwind.Maintains (J.Since config x c) :=
  hJ.stopUnwind.maintains (fun _ hp => hp.upholds.stopUnwind) c

theorem withoutPending (hJ : J.KeptBy fuel config x) (h : J.Since config x c i)
    (host : HostState) (hconfig : host.config = i.host.config)
    (hpending : host.bridge.pending = none) :
    J.Since config x c { i with host := host } where
  exports := h.exports
  config := hconfig.trans h.config
  grows := by
    refine ⟨?_, h.grows.cleared, h.grows.pending⟩
    rw [hpending]
    exact hJ.dropped _ _ h.grows.sound

theorem since_of_waits (hJ : J.KeptBy fuel config x)
    (h : J.Waits config x c operation i) : J.Since config x c i := by
  have hi := hJ.withoutPending h.parked i.host rfl h.idle
  exact hi

theorem release (hJ : J.KeptBy fuel config x) (h : J.Since config x c i) :
    J.Since config x c i.release :=
  hJ.withoutPending h _ rfl rfl

theorem ensures_takeInFlight :
    Act.Ensures (J.Since config x c) Instance.control.takeInFlight (J.Waits config x c)
      (J.Since config x c) := by
  intro i hi
  by_cases hpending : ∃ operation, i.host.bridge.pending = some (.inFlight operation)
  · obtain ⟨operation, hpending⟩ := hpending
    rw [Control.takeInFlight_on hpending]
    exact ⟨rfl, hi.withHost _ rfl hpending.symm⟩
  · rw [Control.takeInFlight_on_ne fun operation h => hpending ⟨operation, h⟩]
    exact hi

theorem ensures_settle (hJ : J.KeptBy fuel config x)
    (hentry : J.Keeps config x (Instance.invoke entry)) :
    Act.Ensures (J.Since config x c) (Instance.control.settle (Instance.invoke entry))
      (J.Stands config x c) (J.Since config x c) := by
  refine .bind (invoked hentry c).ensures fun value =>
    .bind (hJ.state c).ensures fun state => ?_
  cases state with
  | normal =>
      refine .bind (.read (q := fun _ => J.Since config x c) fun _ => id) fun idle => ?_
      cases idle with
      | false => exact .violate fun _ => id
      | true => exact .pure fun _ => id
  | unwinding =>
      refine .bind (hJ.stopUnwinds c).ensures fun _ => ?_
      exact .bind ensures_takeInFlight fun operation => .pure fun _ => id
  | rewinding => exact .violate fun _ => id

theorem ensures_enter (hJ : J.KeptBy fuel config x)
    (hentry : J.Keeps config x (Instance.invoke entry)) :
    Act.Ensures (J.Since config x c) (Instance.control.enter (Instance.invoke entry))
      (J.Stands config x c) (J.Since config x c) :=
  Control.ensures_enter_of_settle (hJ.state c).ensures (fun _ => id)
    (hJ.resetData.maintains (fun _ hp => hp.upholds.resetData) c).ensures
    (hJ.ensures_settle hentry)

theorem waits_rawState (hJ : J.KeptBy fuel config x) :
    Instance.control.rawState.Maintains (J.Waits config x c operation) :=
  fun _ hi => ⟨hi.idle, hJ.rawStates c _ hi.parked⟩

theorem waits_state (hJ : J.KeptBy fuel config x) :
    Instance.control.state.Maintains (J.Waits config x c operation) :=
  Control.maintains_state_of_rawState hJ.waits_rawState

theorem resolved (hJ : J.KeptBy fuel config x) {h h' : HostState}
    (hexpects : ∀ e ∈ log, J.expects e)
    (hserved : Deferred.Served fuel h operation log value h')
    (hi : J.Waits config x c operation i) :
    J.Since config x c
      (Instance.control.setBridge ((Instance.control.getBridge i).resolve value)
        i) where
  exports := hi.parked.exports
  config := hi.parked.config
  grows := ⟨hJ.awaited _ _ _ _ _ _ hi.parked.grows.sound hexpects hserved,
    hi.parked.grows.cleared, hi.parked.grows.pending⟩

theorem ensures_resume (hJ : J.KeptBy fuel config x)
    (hentry : J.Keeps config x (Instance.invoke entry)) {h h' : HostState}
    (hexpects : ∀ e ∈ log, J.expects e)
    (hserved : Deferred.Served fuel h operation log value h') :
    Act.Ensures (J.Waits config x c operation)
      (Instance.control.resume (Instance.invoke entry) value) (J.Stands config x c)
        (J.Since config x c) := by
  have hrefused (i : Instance G) : J.Waits config x c operation i →
      J.Since config x c i :=
    hJ.since_of_waits
  refine .bind ((hJ.waits_state.ensures).mono (fun _ => id) (fun _ _ => id) hrefused)
    fun state => ?_
  cases state with
  | normal =>
      refine .bind (.modify (q := fun _ => J.Since config x c) fun _ => hJ.resolved
        hexpects hserved) fun _ => ?_
      have hrewind := hJ.startRewind.maintains (fun _ hp => hp.upholds.startRewind) c
      exact .bind hrewind.ensures fun _ => hJ.ensures_settle hentry
  | unwinding => exact .violate hrefused
  | rewinding => exact .violate hrefused

/-- Awaiting an operation changes nothing that the core depends on. -/
theorem waits_await {i' : Instance G} (hi : J.Waits config x c operation i)
    (hruns : (i.await fuel operation).Runs log (value, i')) :
    J.Waits config x c operation i' ∧ ∃ h log' h', (∀ e ∈ log', e ∈ log) ∧
      Deferred.Served fuel h operation log' value h' := by
  obtain ⟨before, _, _, rfl, hflush, hruns⟩ := Task.runs_bind.mp hruns
  obtain ⟨⟨_, after⟩, _, _, rfl, hserve, rfl, hr⟩ := Task.runs_bind.mp hruns
  cases hr
  have hserved := Deferred.served_of_runs hserve
  have hbridge := hserved.bridge
  have hconfig := (Deferred.serve_sameReplies hserve.ends).config
  cases HostState.eq_of_flush hflush
  refine ⟨⟨by rw [hbridge]; exact hi.idle, hi.parked.withHost _ hconfig rfl⟩, _, _,
    _, ?_, hserved⟩
  intro e he
  simp [he]

theorem since_of_drives (hJ : J.KeptBy fuel config x)
    (hentry : J.Keeps config x (Instance.invoke entry))
    {progress : Except CallError (Progress R Deferred) × Instance G}
    {r : Except CallError R}
    (hdrives : Instance.control.Drives (Instance.invoke entry) (Instance.await fuel) r
      j progress log) (hexpects : ∀ e ∈ log, J.expects e)
        (hp : Act.Came (J.Stands config x c) (J.Since config x c) progress) :
        J.Since config x c j := by
  induction hdrives with
  | settled => cases r <;> exact hp
  | resumed hawait _ ih =>
      obtain ⟨hbefore, hafter⟩ := List.forall_mem_append.mp hexpects
      obtain ⟨hi, _, _, _, hlog, hserved⟩ := waits_await hp hawait
      exact ih hafter
        (hJ.ensures_resume hentry (fun e he => hbefore e (hlog e he)) hserved _ hi)

theorem since_of_call (hJ : J.KeptBy fuel config x)
    {entry : Exports G → CoreState G → Activation G Unit}
    (hentry : J.Keeps config x (Instance.invoke entry)) (hi : J.Since config x c i)
    {r : Except CallError Unit} (hruns : (i.call fuel entry).Runs log (r, i'))
    (hexpects : ∀ e ∈ log, J.expects e) : J.Since config x c i' := by
  obtain ⟨driven, log₁, _, rfl, hrun, hruns⟩ := Task.runs_bind.mp hruns
  obtain ⟨⟨r, k⟩, _, log₂, rfl, hsome, hruns⟩ := Task.runs_bind.mp hruns
  obtain ⟨j, _, _, rfl, hflush, rfl, hr⟩ := Task.runs_bind.mp hruns
  obtain ⟨rfl, rfl⟩ := Task.runs_ofOption hsome
  cases hr
  cases Instance.eq_of_flush hflush
  have hdrives := Control.drives_of_runs fuel hrun
  exact (hJ.since_of_drives hentry hdrives (List.forall_mem_append.mp hexpects).1
    (hJ.ensures_enter hentry i hi)).flushed

theorem since_of_perform (hJ : J.KeptBy fuel config x) (hi : J.Since config x c i)
    {request : PerformRequest} {r : Except CallError PerformState}
    (hruns : (i.perform fuel request).Runs log (r, i'))
    (hexpects : ∀ e ∈ log, J.expects e) : J.Since config x c i' := by
  obtain ⟨⟨called, k⟩, log₁, _, rfl, hcall, hruns⟩ := Task.runs_bind.mp hruns
  have hbegun := hi.withHost { i.host with perform := some { request } } rfl rfl
  have hcalled :=
    hJ.since_of_call hJ.perform hbegun hcall (List.forall_mem_append.mp hexpects).1
  have hk := hcalled.withHost { k.host with perform := none } rfl rfl
  rcases called with e | _
  · obtain ⟨-, hr⟩ := hruns
    cases hr
    exact hk
  · rcases hperform : k.host.perform with _ | state
    · simp only [hperform] at hruns
      obtain ⟨-, hr⟩ := hruns
      cases hr
      exact hk
    · simp only [hperform] at hruns
      obtain ⟨-, hr⟩ := hruns
      cases hr
      exact hk

theorem abandoned (hJ : J.KeptBy fuel config x) (c : CoreState G) :
    Instance.abandonSuspension.Maintains (J.Since config x c) := by
  refine .bind (hJ.state c) fun state => ?_
  cases state with
  | normal => exact .pure _
  | unwinding => exact hJ.stopUnwinds c
  | rewinding => exact hJ.stopRewind.maintains (fun _ hp => hp.upholds.stopRewind) c

theorem dumped (hJ : J.KeptBy fuel config x) (c : CoreState G) :
    Instance.readDeveloperDump.Maintains (J.Since config x c) := by
  refine .bind (invoked hJ.getDeveloperDump c) fun ptr =>
    .bind (.read _) fun memory => ?_
  split
  · exact .pure _
  · exact .fail _

theorem read (hJ : J.KeptBy fuel config x) (hi : J.Since config x c i) :
    J.Since config x c (Instance.readMetrics.on i).2 ∧
      ∀ events, (Instance.readMetrics.on i).1 = .ok events →
        events = J.pending (Instance.readMetrics.on i).2.core := by
  unfold Instance.readMetrics
  rw [Act.on_bind]
  have hgot := invoked hJ.getMetrics c i hi
  rcases hgetter : (Instance.invoke fun x s => x.getMetrics s).on i with ⟨e | ptr, j⟩
  · rw [hgetter] at hgot
    exact ⟨hgot, fun _ h => nomatch h⟩
  · rw [hgetter] at hgot
    dsimp only
    rw [Act.on_bind_ok (Act.on_read _ _)]
    rcases hread : Arena.read j.core.memory ptr with e | events
    · exact ⟨hgot, fun _ h => nomatch h⟩
    · refine ⟨hgot, ?_⟩
      rintro _ ⟨⟩
      exact hJ.exposed i ptr j events hi.holds hgetter hread

theorem settled_of_read (hJ : J.KeptBy fuel config x) (hi : J.Since config x c i) :
    J.cleared c ++ Instance.eventsOf (Instance.readMetrics.on i).1 =
      J.due (Instance.readMetrics.on i) := by
  obtain ⟨hread, hexposed⟩ := hJ.read hi
  rcases hr : Instance.readMetrics.on i with ⟨e | events, j⟩
  · rw [hr] at hread
    exact (List.append_nil _).trans hread.grows.cleared.symm
  · rw [hr] at hread hexposed
    rw [due, recorded, hread.grows.cleared, ← hexposed events rfl]
    rfl

/-- Giving an instance up forwards what was pending when its metrics were read for
the last time. -/
theorem salvaged (hJ : J.KeptBy fuel config x) (hi : J.Since config x c i)
    {e : CallError} {answer : PerformError} (h : (i.salvage e).Runs log answer) :
    J.Since config x c i.lastReading.2 ∧ J.cleared c ++ Exchange.forwarded log =
    J.due i.lastReading := by
  have hreset := hJ.release (hJ.abandoned c i hi).flushed
  have hdump := (hJ.dumped c _ hreset).flushed
  rw [Instance.runs_salvage h]
  exact ⟨(hJ.read hdump).1, hJ.settled_of_read hdump⟩

theorem unflushed (hJ : J.KeptBy fuel config x) (hi : J.Since config x c i)
    {e : CallError} (h : i.flushMetrics.Runs log (.error e, i')) :
    J.Since config x c i' ∧ Exchange.forwarded log = [] := by
  have hread := (hJ.read hi).1
  cases Instance.flushes_of_runs h with
  | unread hr hlog =>
      rw [hr] at hread
      exact ⟨hread.flushed, hlog⟩
  | @uncleared events _ j k hr hclear hlog =>
      rw [hr] at hread
      obtain ⟨hsound, hcleared, hpending⟩ := hJ.untouched j.flushed e k
        hread.flushed.holds hclear
      have hgrows : J.Grows j.core k :=
        ⟨hsound, hcleared, hpending.symm ▸ List.prefix_refl (J.pending j.core)⟩
      have hk : J.Since config x c k :=
        ⟨(Instance.exports_clearMetrics hclear).trans hread.exports,
          (Instance.config_clearMetrics hclear).trans hread.config,
          hread.grows.trans hgrows⟩
      exact ⟨hk.flushed, hlog⟩

theorem flushed (hJ : J.KeptBy fuel config x) (hi : J.Since config x c i)
    (h : i.flushMetrics.Runs log (.ok (), i')) :
    ∃ events j, Instance.readMetrics.on i = (.ok events, j) ∧ J.Since config x c j ∧
      J.Holds config x i' ∧ J.cleared i'.core = J.recorded j.core ∧
      J.recorded i'.core = J.recorded j.core ∧
      J.cleared c ++ Exchange.forwarded log = J.recorded j.core := by
  have hread := (hJ.read hi).1
  have hsettled := hJ.settled_of_read hi
  cases Instance.flushes_of_runs h with
  | @done events j k hr hclear hlog =>
      rw [hr] at hread hsettled
      obtain ⟨hsound, hcleared, hpending⟩ := hJ.emptied j.flushed k
        hread.flushed.holds hclear
      have hk : J.Holds config x k.flushed :=
        ⟨(Instance.exports_clearMetrics hclear).trans hread.exports,
          (Instance.config_clearMetrics hclear).trans hread.config, hsound⟩
      have hrecorded : J.recorded k.core = J.recorded j.core := by
        rw [recorded, hcleared, hpending, List.append_nil]
        rfl
      rw [← hlog] at hsettled
      exact ⟨events, j, hr, hread, hk, hcleared, hrecorded, hsettled⟩

end KeptBy

end Journal

end Resumable
