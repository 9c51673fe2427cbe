import Resumable.Proofs.Host.Frame
import Resumable.Proofs.Host.Passage
import Resumable.Proofs.Session.Salvage

namespace Resumable

/-- What an http-call is answered that finds every handle in use. -/
def Outgoing.crowded : Outgoing := .handlesExhausted "pending response"

def Effect.fetch? : Effect → Option (Nat × HttpRequest)
  | .fetch ticket request => some (ticket, request)
  | .remark _ => none

namespace Exchange

def fetch? (e : Exchange) : Option (Nat × HttpRequest) :=
  match e.request with
  | .emit effect => effect.fetch?
  | _ => none

/-- What the network has been asked for, from the first to the last. -/
def fetched (log : List Exchange) : List (Nat × HttpRequest) := log.filterMap fetch?

theorem fetched_append (log log' : List Exchange) :
    fetched (log ++ log') = fetched log ++ fetched log' :=
  List.filterMap_append

theorem fetched_eq_nil {log : List Exchange}
    (h : ∀ e ∈ log, ∀ effect, e.request ≠ .emit effect) : fetched log = [] := by
  refine List.filterMap_eq_nil_iff.mpr fun e he => ?_
  unfold fetch?
  split
  · next effect heq => exact absurd heq (h e he effect)
  · rfl

theorem fetched_emissions (outbox : List Effect) :
    fetched (emissions outbox) = outbox.reverse.filterMap Effect.fetch? := by
  rw [fetched, emissions, List.filterMap_map]
  rfl

end Exchange

theorem Task.Outward.fetched_eq_nil {α : Type} {t : Task α} {log : List Exchange}
    {a : α} (h : t.Outward) (hruns : t.Runs log a) : Exchange.fetched log = [] := by
  refine Exchange.fetched_eq_nil fun e he effect heq => ?_
  have houtward := h.runs hruns e he
  rw [heq] at houtward
  cases houtward

namespace HostState

variable {h : HostState} {raw : ByteArray}

/-- The fetches that have been issued and are still to be passed on. -/
def fetching (h : HostState) : List (Nat × HttpRequest) :=
  h.outbox.reverse.filterMap Effect.fetch?

theorem fetching_congr {h h' : HostState} (houtbox : h'.outbox = h.outbox) :
    h'.fetching = h.fetching := by
  rw [fetching, fetching, houtbox]

theorem fetching_emit (h : HostState) (effect : Effect) :
    (h.emit effect).fetching = h.fetching ++ effect.fetch?.toList := by
  rw [fetching, emit, List.reverse_cons, List.filterMap_append]
  cases effect <;> rfl

def asked? (h : HostState) (raw : ByteArray) : Option (Nat × HttpRequest) :=
  match h.reads raw with
  | some (.httpCall request) => some (h.tickets, request)
  | _ => none

theorem asked?_cases (h : HostState) (raw : ByteArray) :
    (∃ request, h.reads raw = some (.httpCall request) ∧
      h.asked? raw = some (h.tickets, request)) ∨
        (∀ request, h.reads raw ≠ some (.httpCall request)) ∧ h.asked? raw = none := by
  unfold asked?
  split
  · next request hreads => exact .inl ⟨request, hreads, rfl⟩
  · next hother => exact .inr ⟨hother, rfl⟩

end HostState

def Dispatch.reply? : Dispatch → Option Outgoing
  | .reply message => some message
  | .deferred _ => none

namespace HostState

variable {h : HostState} {raw : ByteArray}

/-- An http-call is fetched, and then a handle is found for its response or there
is none left. -/
theorem dispatch_httpCall {request : HttpRequest}
    (hreads : h.reads raw = some (.httpCall request)) :
    (∃ handle responses, h.responses.Gains h.tickets handle responses ∧
      h.dispatch raw = (.reply (.httpCalled handle),
        { h.emit (.fetch h.tickets request) with
          tickets := h.tickets + 1, responses := responses })) ∨
    (h.responses.InOrder → h.responses.limit.toNat ≤ h.responses.size) ∧
      h.dispatch raw = (.reply .crowded,
        { h.emit (.fetch h.tickets request) with tickets := h.tickets + 1 }) := by
  rw [dispatch_of_reads hreads]
  simp only [handle, callHttp]
  split
  · next hinsert => exact .inl ⟨_, _, HandleTable.gains_of_insert hinsert, rfl⟩
  · next hinsert => exact .inr ⟨fun ht => HandleTable.full_of_insert ht hinsert, rfl⟩

theorem dispatch_other (hother : ∀ request, h.reads raw ≠ some (.httpCall request)) :
    (h.dispatch raw).2.outbox = h.outbox ∧ (h.dispatch raw).2.tickets = h.tickets ∧
      (∀ handle, (h.dispatch raw).1.reply? ≠ some (.httpCalled handle)) ∧
      (h.dispatch raw).1.reply? ≠ some .crowded := by
  have heffected := h.dispatch_effected raw
  generalize (h.dispatch raw).1 = dispatch at heffected ⊢
  generalize (h.dispatch raw).2 = h' at heffected ⊢
  cases heffected with
  | refused hrefused => cases hrefused <;> exact ⟨rfl, rfl, nofun, nofun⟩
  | issued hreads | unissued hreads => exact absurd hreads (hother _)
  | stored | told | opening | claimed => exact ⟨rfl, rfl, nofun, nofun⟩

theorem fetching_dispatch (h : HostState) (raw : ByteArray) :
    (h.dispatch raw).2.fetching = h.fetching ++ (h.asked? raw).toList := by
  obtain ⟨request, hreads, hasked⟩ | ⟨hother, hasked⟩ := h.asked?_cases
    raw <;> rw [hasked]
  · obtain ⟨_, _, -, hdispatch⟩ | ⟨-, hdispatch⟩ := dispatch_httpCall hreads <;>
      rw [hdispatch] <;>
      exact h.fetching_emit (.fetch h.tickets request)
  · exact (fetching_congr (dispatch_other hother).1).trans (List.append_nil _).symm

theorem tickets_dispatch (h : HostState) (raw : ByteArray) :
    (h.dispatch raw).2.tickets = h.tickets + (h.asked? raw).toList.length := by
  obtain ⟨request, hreads, hasked⟩ | ⟨hother, hasked⟩ := h.asked?_cases
    raw <;> rw [hasked]
  · obtain ⟨_, _, -, hdispatch⟩ | ⟨-, hdispatch⟩ := dispatch_httpCall hreads <;>
      rw [hdispatch] <;> rfl
  · exact (dispatch_other hother).2.1

end HostState

theorem Completion.apply_outbox_tickets (completion : Completion) (h : HostState) :
    (completion.apply h).2.outbox = h.outbox ∧
    (completion.apply h).2.tickets = h.tickets := by
  have hcompleted := h.apply_completed completion
  generalize (completion.apply h).1 = reply at hcompleted
  generalize (completion.apply h).2 = h' at hcompleted ⊢
  cases hcompleted <;> exact ⟨rfl, rfl⟩

namespace Deed

def asked? (h : HostState) : Deed → Option (Nat × HttpRequest)
  | .dispatched raw => h.asked? raw
  | _ => .none

variable (deed : Deed) (h : HostState)

theorem fetching_apply :
    (deed.apply h).fetching = h.fetching ++ (deed.asked? h).toList := by
  cases deed with
  | none | closed => exact (List.append_nil _).symm
  | dispatched raw => exact h.fetching_dispatch raw
  | completed completion =>
      have hsame := HostState.fetching_congr (completion.apply_outbox_tickets h).1
      exact hsame.trans (List.append_nil _).symm

theorem tickets_apply :
    (deed.apply h).tickets = h.tickets + (deed.asked? h).toList.length := by
  cases deed with
  | none | closed => rfl
  | dispatched raw => exact h.tickets_dispatch raw
  | completed completion => exact (completion.apply_outbox_tickets h).2

end Deed

namespace Event

variable {G : Type}

/-- The fetch that an event asks for. Only a message can, that is read and is
an http-call. -/
def asked? : Event G → Option (Nat × HttpRequest)
  | .served before _ deed _ _ => deed.asked? before.host
  | _ => none

theorem asked?_singleton (e : Event G) : [e].filterMap asked? = e.asked?.toList := by
  rw [List.filterMap_cons]
  cases e.asked? <;> rfl

end Event

namespace HostState

variable {G : Type} {h₀ h' h'' : HostState} {log log' : List Exchange}
  {events events' : List (Event G)}

/-- The fetches that were still to be passed on and those asked for since are the ones
that have been passed on and those that still are to be. -/
def Balances (h : HostState) (log : List Exchange) (events : List (Event G))
    (h' : HostState) : Prop :=
  Exchange.fetched log ++ h'.fetching = h.fetching ++ events.filterMap Event.asked?

namespace Balances

theorem trans (hl : h₀.Balances log events h') (hr : h'.Balances log' events' h'') :
    h₀.Balances (log ++ log') (events ++ events') h'' := by
  unfold Balances at *
  calc Exchange.fetched (log ++ log') ++ h''.fetching
    _ = Exchange.fetched log ++ (Exchange.fetched log' ++ h''.fetching) := by
      rw [Exchange.fetched_append, List.append_assoc]
    _ = Exchange.fetched log ++ h'.fetching ++ events'.filterMap Event.asked? := by
      rw [hr, List.append_assoc]
    _ = h₀.fetching ++ (events ++ events').filterMap Event.asked? := by
      rw [hl, List.filterMap_append, List.append_assoc]

theorem still (h : HostState) : h.Balances [] ([] : List (Event G)) h :=
  (List.append_nil _).symm

theorem from_outbox (h : h'.Balances log events h'') (houtbox : h'.outbox = h₀.outbox) :
    h₀.Balances log events h'' := by
  rw [Balances, ← fetching_congr houtbox]
  exact h

theorem to_outbox (h : h₀.Balances log events h') (houtbox : h''.outbox = h'.outbox) :
    h₀.Balances log events h'' := by
  rw [Balances, fetching_congr houtbox]
  exact h

theorem happened (h : h₀.Balances log events h') {e : Event G}
    (hasked : e.asked? = none) (houtbox : h''.outbox = h'.outbox) :
    h₀.Balances log (events ++ [e]) h'' := by
  rw [Balances, fetching_congr houtbox, List.filterMap_append,
    Event.asked?_singleton, hasked]
  exact Eq.trans h (congrArg (_ ++ ·) (List.append_nil _).symm)

theorem remark (h : h'.Balances log events h'') {line : Remark}
    (hemit : h' = h₀.emit (.remark line)) : h₀.Balances log events h'' := by
  rw [hemit, Balances, fetching_emit, Effect.fetch?] at h
  exact h.trans (congrArg (· ++ _) (List.append_nil _))

theorem aside (h : h₀.Balances log events h') (hlog : Exchange.fetched log' = []) :
    h₀.Balances (log ++ log') events h' := by
  rw [Balances, Exchange.fetched_append, hlog, List.append_nil]
  exact h

theorem flushed (h : h₀.Balances log events h') (hruns : h'.flush.Runs log' h'') :
    h₀.Balances (log ++ log') events h'' := by
  obtain ⟨rfl, rfl⟩ := runs_flush_iff.mp hruns
  rw [Balances, Exchange.fetched_append, Exchange.fetched_emissions, List.append_assoc]
  exact (congrArg (_ ++ ·) (List.append_nil _)).trans h

theorem passedOn {i j : Instance G} (h : h₀.Balances log events i.host)
    (hruns : i.flush.Runs log' j) : h₀.Balances (log ++ log') events j.host := by
  obtain ⟨rfl, rfl⟩ := Instance.runs_flush_iff.mp hruns
  exact h.flushed (runs_flush_iff.mpr ⟨rfl, rfl⟩)

theorem awaited {fuel : Nat} {operation : Deferred} {value : Resolved}
    {before : HostState} (h : h₀.Balances log events before)
    (hruns : (operation.serve fuel before).Runs log' (value, h')) :
    h₀.Balances (log ++ log') (events ++ [.awaited before operation log' value h'])
      h' := by
  have houtward := (operation.outward_serve fuel before).fetched_eq_nil hruns
  have houtbox : h'.outbox = before.outbox := by
    cases Deferred.served_of_runs hruns <;> rfl
  exact (h.happened (by rfl) houtbox).aside houtward

end Balances

end HostState

namespace Instance

theorem Serving.balances {G : Type} {i j : Instance G} {call : ImportCall} {deed : Deed}
    {answer : Except CallError UInt64} (h : i.Serving call deed answer j) :
    i.host.Balances [] [.served i call deed answer j] j.host := by
  obtain ⟨core, host, -, hagrees, rfl⟩ := h.follows
  rw [HostState.Balances, Event.asked?_singleton]
  exact (HostState.fetching_congr hagrees.outbox).trans (deed.fetching_apply i.host)

end Instance

theorem Activation.Tells.balances {G R : Type} {a : Activation G R} {i j : Instance G}
    {events : List (Event G)} {r : Except CallError R} (h : a.Tells i events r j) :
    i.host.Balances [] events j.host := by
  induction h with
  | finish | trap => exact .still _
  | refused _ hserving => exact hserving.balances
  | answered _ hserving _ ih => exact hserving.balances.trans ih
  | remark _ ih => exact ih.remark rfl

namespace Instance

variable {G R : Type} {fuel : Nat} {i j : Instance G} {log : List Exchange}
  {events : List (Event G)} {entry : Exports G → CoreState G → Activation G R}

/-- What is done with a core and with the slot of the bridge has no effects
of its own. -/
theorem upholds_outbox (outbox : List Effect) :
    control.Upholds fun i : Instance G => i.host.outbox = outbox where
  rawState := fun _ hi => hi
  startUnwind := .bind (.read _) fun _ _ hi => hi
  stopUnwind := fun _ hi => hi
  startRewind := .bind (.read _) fun _ _ hi => hi
  stopRewind := fun _ hi => hi
  resetData :=
    .bind (.read _) fun _ => .bind (Unbroken.writeMemory (fun _ _ hi => hi) _ _)
      fun _ => .ite (.fail _) (.pure _)
  setBridge := fun _ _ hi => hi

theorem outbox_settle (r : Except CallError R) (i k : Instance G) :
    ((control.settle fun _ => (r, k)).on i).2.host.outbox = k.host.outbox := by
  have hcame :
      Act.Maintains (fun i => i.host.outbox = k.host.outbox)
        (fun _ => (r, k) : Live G R) :=
    fun _ _ => rfl
  exact (upholds_outbox _).settle hcame k rfl

theorem outbox_readyRewind (value : Resolved) (i : Instance G) :
    ((control.readyRewind value).on i).2.host.outbox = i.host.outbox := by
  have hready := ensures_host_readyRewind value i rfl
  generalize (control.readyRewind value).on i = outcome at hready ⊢
  obtain ⟨_ | _, j⟩ := outcome
  · obtain hj | hj := (hready : _ ∨ _) <;>
      exact (congrArg HostState.outbox hj).trans rfl
  · exact (congrArg HostState.outbox (hready : j.host = _)).trans rfl

theorem Turn.balances {ready : Live G Unit}
    {outcome : Except CallError (Progress R Deferred) × Instance G}
    (h : Turn ready entry i events outcome)
    (hready : (ready.on i).2.host.outbox = i.host.outbox) :
    i.host.Balances [] events outcome.2.host := by
  cases h with
  | refused h =>
      rw [h] at hready
      exact (HostState.Balances.still _).to_outbox hready
  | @taken _ r j k h htold =>
      rw [h] at hready
      exact (htold.balances.from_outbox hready).to_outbox (outbox_settle r j k)

theorem Driven.balances {progress : Except CallError (Progress R Deferred) × Instance G}
    {out : Option (Except CallError R) × Instance G}
    (h : Driven fuel entry progress log events out) :
    progress.2.host.Balances log events out.2.host := by
  induction h with
  | failed | returned | waiting => exact .still _
  | @resumed _ _ i _ _ _ _ _ events _ _ _ hflush hserve hturn _ ih =>
      -- What the core left is passed on before the host waits, so it stands before
      -- the events of the wait.
      have hbegun : i.host.Balances [] ([] : List (Event G)) i.host := .still _
      have hawaited := (hbegun.flushed hflush).awaited hserve
      have hturned := hawaited.trans (hturn.balances (outbox_readyRewind _ _))
      have hrest := hturned.trans ih
      rwa [List.append_nil, List.append_assoc] at hrest

theorem Called.balances {entry : Exports G → CoreState G → Activation G Unit}
    {r : Option (Except CallError Unit)} (h : Called fuel entry i log events r j) :
    i.host.Balances log events j.host := by
  have hentry : ((control.readyEntry : Live G Unit).on i).2.host.outbox =
      i.host.outbox :=
    congrArg HostState.outbox (maintains_host_readyEntry i rfl)
  cases h with
  | ended hturn hdriven hflush =>
      exact ((hturn.balances hentry).trans hdriven.balances).passedOn hflush
  | waiting hturn hdriven => exact (hturn.balances hentry).trans hdriven.balances

end Instance

namespace Passage

variable {G : Type} {fuel : Nat} {i₀ i : Instance G} {log : List Exchange}
  {past : List (Event G)} {standing : Standing}

theorem balances (h : Passage fuel i₀ log past standing i) :
    i₀.host.Balances log past i.host := by
  induction h with
  | start => exact .still _
  | called _ hcalled ih => exact ih.trans hcalled.balances
  | acted _ _ htold hflush ih =>
      have htold := ih.trans htold.balances
      rw [List.append_nil] at htold
      exact htold.passedOn hflush
  | @quieted _ _ _ _ _ i _ _ _ hruns ih =>
      obtain ⟨k, hon, hflush⟩ := Instance.on_of_act hruns
      have hhost := Instance.maintains_host_abandonSuspension i rfl
      rw [hon] at hhost
      exact (ih.to_outbox (congrArg HostState.outbox hhost)).passedOn hflush
  | began _ _ ih | concluded _ _ ih | released _ _ ih => exact ih.happened (by rfl) rfl
  | aside _ haside ih =>
      refine ih.aside (Exchange.fetched_eq_nil fun e he effect heq => ?_)
      have hforCore := haside e he
      rw [heq] at hforCore
      cases hforCore

end Passage

end Resumable
