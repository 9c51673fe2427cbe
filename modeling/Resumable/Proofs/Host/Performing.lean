import Mathlib.Data.List.Induction
import Resumable.Proofs.Host.Passage

namespace Resumable

namespace PerformState

/-- A perform for which an outcome may be reported. It keeps the first one. -/
def kept (p : PerformState) (outcome : Option Outcome) : PerformState :=
  { p with outcome := p.outcome.or outcome }

theorem kept_none (p : PerformState) : p.kept none = p := by
  rw [kept, Option.or_none]

theorem kept_kept (p : PerformState) (outcome outcome' : Option Outcome) :
    (p.kept outcome).kept outcome' = p.kept (outcome.or outcome') := by
  rw [kept, kept, kept, Option.or_assoc]

end PerformState

def Outgoing.outcomeReply (held : Option PerformState) : Outgoing :=
  match held with
  | none => .noPerform
  | some perform =>
      match perform.outcome with
      | none => .stored
      | some _ =>
          .error .outcomeAlreadySet "an outcome was already reported for this perform"
            none

def Incoming.performReply? (held : Option PerformState) : Incoming → Option Outgoing
  | .performInput =>
      match held with
      | some perform => some (.performInput perform.request)
      | none => some .noPerform
  | message => message.outcome?.map fun _ => .outcomeReply held

namespace HostState

variable {h : HostState} {message : Incoming}

theorem reportOutcome_perform (h : HostState) (outcome : Outcome) :
    (h.reportOutcome outcome).2.perform = h.perform.map (·.kept outcome) := by
  rcases hperform : h.perform with _ | perform
  · rw [reportOutcome, hperform]
    exact hperform
  · rcases hfirst : perform.outcome with _ | first
    · simp only [reportOutcome, hperform, PerformState.report, hfirst]
      rw [Option.map_some, PerformState.kept, hfirst, Option.none_or]
    · simp only [reportOutcome, hperform, PerformState.report, hfirst]
      rw [Option.map_some, PerformState.kept, hfirst, Option.some_or, ← hfirst]

theorem reportOutcome_reply (h : HostState) (outcome : Outcome) :
    (h.reportOutcome outcome).1 = .outcomeReply h.perform := by
  unfold reportOutcome
  rcases h.perform with _ | perform
  · rfl
  · rcases hfirst : perform.outcome with _ | first
    · simp only [PerformState.report, Outgoing.outcomeReply, hfirst]
    · simp only [PerformState.report, Outgoing.outcomeReply, hfirst]

/-- A message that reports an outcome leaves it with the perform in progress, and no
other changes that. -/
theorem handle_perform (h : HostState) (message : Incoming) :
    (h.handle message).2.perform = h.perform.map (·.kept message.outcome?) := by
  have hsame : h.perform.map (·.kept none) = h.perform := by
    rw [funext PerformState.kept_none, Option.map_id']
  cases message with
  | outputResult | outputError | outputException => exact h.reportOutcome_perform _
  | performInput =>
      refine Eq.trans ?_ hsame.symm
      unfold handle
      cases hperform : h.perform <;> exact hperform
  | fileOpen | unknown => exact hsame.symm
  | httpCall request =>
      refine Eq.trans ?_ hsame.symm
      change (h.callHttp request).2.perform = h.perform
      unfold callHttp
      dsimp only
      split <;> rfl
  | httpCallHead handle =>
      refine Eq.trans ?_ hsame.symm
      change (h.claimHead handle).2.perform = h.perform
      unfold claimHead
      split <;> rfl

/-- Messages about the perform in progress are answered by what is held of it. -/
theorem handle_performReply {reply : Outgoing}
    (hreply : message.performReply? h.perform = some reply) :
    (h.handle message).1 = .reply reply := by
  cases message with
  | performInput =>
      unfold handle
      unfold Incoming.performReply? at hreply
      cases hperform : h.perform <;> rw [hperform] at hreply <;> cases hreply <;> rfl
  | outputResult | outputError | outputException =>
      cases hreply
      exact congrArg Dispatch.reply (h.reportOutcome_reply _)
  | fileOpen | httpCall | httpCallHead | unknown => cases hreply

end HostState

namespace Event

variable {G : Type}

def outcome? : Event G → Option Outcome
  | .served before _ (.dispatched raw) _ _ =>
      (before.host.reads raw).bind Incoming.outcome?
  | _ => none

/-- The perform that is in progress behind an event, told from the one before it. -/
def holds (held : Option PerformState) : Event G → Option PerformState
  | .served before call deed answer after =>
      held.map (·.kept (Event.served before call deed answer after).outcome?)
  | .awaited .. => held
  | .began request => some { request }
  | .concluded => none
  | .released => none

/-- The perform that is in progress behind some events, with the first outcome
reported for it. -/
def held (past : List (Event G)) : Option PerformState := past.foldl holds none

theorem held_append (past : List (Event G)) (e : Event G) :
    held (past ++ [e]) = e.holds (held past) := by
  rw [held, List.foldl_append]
  rfl

/-- Calls of a core change of the perform in progress nothing but the first outcome. -/
theorem holds_ofCore {e : Event G} (hcore : e.OfCore) (held : Option PerformState) :
    e.holds held = held.map (·.kept e.outcome?) := by
  cases e with
  | served => rfl
  | awaited =>
      change held = held.map (·.kept none)
      rw [funext PerformState.kept_none, Option.map_id']
  | began | concluded | released => exact hcore.elim

theorem foldl_holds {events : List (Event G)} (hcore : ∀ e ∈ events, e.OfCore)
    (held : Option PerformState) :
    events.foldl holds held = held.map (·.kept (events.findSome? outcome?)) := by
  induction events generalizing held with
  | nil =>
      rw [List.foldl_nil, List.findSome?_nil, funext PerformState.kept_none,
        Option.map_id']
  | cons e rest ih =>
      rw [List.forall_mem_cons] at hcore
      rw [List.foldl_cons, holds_ofCore hcore.1, ih hcore.2, Option.map_map,
        List.findSome?_cons]
      refine congrArg (held.map ·) (funext fun p => (p.kept_kept _ _).trans ?_)
      cases e.outcome? <;> rfl

/-- While a perform is driven it is the one in progress, with the first outcome
reported so far. -/
theorem held_began {events : List (Event G)} (hcore : ∀ e ∈ events, e.OfCore)
    (request : PerformRequest) :
    held (.began request :: events) = some ⟨request, events.findSome? outcome?⟩ :=
  foldl_holds hcore (some { request })

/-- A perform is in progress from where it began, as long as nothing but calls of the
core has followed. -/
theorem held_eq_some_iff {past : List (Event G)} {p : PerformState} :
    held past = some p ↔ ∃ earlier driven, past =
    earlier ++ .began p.request :: driven ∧
      (∀ e ∈ driven, e.OfCore) ∧ p.outcome = driven.findSome? outcome? := by
  constructor
  · intro h
    -- From the last event backwards, since that decides what is held.
    induction past using List.reverseRecOn generalizing p with
    | nil => cases h
    | append_singleton past e ih =>
        rw [held_append] at h
        have hcalled (hcore : e.OfCore) : ∃ earlier driven, past ++ [e] =
            earlier ++ .began p.request :: driven ∧ (∀ e ∈ driven, e.OfCore) ∧
            p.outcome = driven.findSome? outcome? := by
          rw [holds_ofCore hcore, Option.map_eq_some_iff] at h
          obtain ⟨q, hq, rfl⟩ := h
          obtain ⟨earlier, driven, rfl, hdriven, houtcome⟩ := ih hq
          refine ⟨earlier, driven ++ [e], by simp [PerformState.kept], ?_, ?_⟩
          · exact List.forall_mem_append.mpr
              ⟨hdriven, List.forall_mem_singleton.mpr hcore⟩
          · rw [PerformState.kept, houtcome, List.findSome?_append,
              List.findSome?_singleton]
        cases e with
        | served | awaited => exact hcalled trivial
        | began request =>
            cases h
            exact ⟨past, [], rfl, List.forall_mem_nil _, rfl⟩
        | concluded | released => cases h
  · rintro ⟨earlier, driven, rfl, hdriven, houtcome⟩
    rw [held, List.foldl_append, List.foldl_cons]
    refine (held_began hdriven p.request).trans ?_
    rw [← houtcome]

end Event

/-- No deed but a message that reports an outcome changes the perform in progress. -/
theorem Instance.Serving.perform {G : Type} {i j : Instance G}
    {call : ImportCall} {deed : Deed} {answer : Except CallError UInt64}
    (h : i.Serving call deed answer j) :
    j.host.perform = (Event.served i call deed answer j).holds i.host.perform := by
  obtain ⟨core, host, hcore, hagrees, rfl⟩ := h.follows
  refine hagrees.perform.trans ?_
  have hsame : i.host.perform.map (·.kept none) = i.host.perform := by
    rw [funext PerformState.kept_none, Option.map_id']
  cases deed with
  | none | closed => exact hsame.symm
  | completed completion =>
      refine Eq.trans ?_ hsame.symm
      have hcompleted := i.host.apply_completed completion
      change (completion.apply i.host).2.perform = _
      generalize completion.apply i.host = outcome at hcompleted ⊢
      obtain ⟨reply, h'⟩ := outcome
      cases hcompleted <;> rfl
  | dispatched raw =>
      change (i.host.dispatch raw).2.perform = i.host.perform.map
        (·.kept ((i.host.reads raw).bind Incoming.outcome?))
      rcases hreads : i.host.reads raw with _ | message
      · obtain ⟨_, _, hunread⟩ := HostState.dispatch_of_unread hreads
        rw [hunread]
        exact hsame.symm
      · rw [HostState.dispatch_of_reads hreads]
        exact i.host.handle_perform message

namespace HostRun

variable {G : Type} {fuel : Nat} {h₀ h : HostState} {past : List (Event G)}
  {broken : Bool}

/-- The perform in progress at the end of a run is told by its events. -/
theorem perform (hrun : HostRun fuel h₀ past broken h) (hnone : h₀.perform = none) :
    h.perform = Event.held past := by
  induction hrun with
  | start => exact hnone
  | passedOn _ _ ih | dropped _ _ ih => exact ih
  | served hrun hserve hserving ih => rw [Event.held_append, ← ih, hserving.perform]
  | awaited hrun hpending hserved ih =>
      rw [Event.held_append, ← ih]
      cases hserved <;> rfl
  | began hrun request ih =>
      rw [Event.held_append]
      rfl
  | concluded hrun ih | released hrun ih =>
      rw [Event.held_append]
      rfl

end HostRun

/-- Every message of a core is served by what is held of the perform in progress. -/
def Isolated {G : Type} (events : List (Event G)) : Prop :=
  ∀ earlier i call deed answer j later, events =
    earlier ++ .served i call deed answer j :: later →
    (Instance.serve call).on i = (answer, j) ∧ i.Serving call deed answer j ∧
      i.host.perform = Event.held earlier ∧
      ∀ raw, deed = .dispatched raw → ∀ message, i.host.reads raw = some message →
        ∀ reply, message.performReply? (Event.held earlier) = some reply →
          (i.host.dispatch raw).1 = .reply reply

theorem Passage.isolated {G : Type} {fuel : Nat} {i j : Instance G}
    {log : List Exchange} {events : List (Event G)} {standing : Standing}
    (h : Passage fuel i log events standing j) (hnone : i.host.perform = none) :
    j.host.perform = Event.held events ∧ Isolated events := by
  obtain ⟨broken, hrun, -⟩ := h.hostRun
  refine ⟨hrun.perform hnone, ?_⟩
  rintro earlier i call deed answer j later rfl
  obtain ⟨hserve, hserving, _, hearlier⟩ := hrun.at_served
  have hheld := hearlier.perform hnone
  refine ⟨hserve, hserving, hheld, ?_⟩
  rintro raw rfl message hreads reply hreply
  rw [HostState.dispatch_of_reads hreads]
  rw [← hheld] at hreply
  exact HostState.handle_performReply hreply

end Resumable
