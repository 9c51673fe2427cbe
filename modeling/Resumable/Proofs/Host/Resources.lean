import Resumable.Proofs.Handle.Table
import Resumable.Proofs.Host.Passage

namespace Resumable

inductive Stream.Continues : Stream → Stream → Prop where
  | refl (s : Stream) : Continues s s
  | read {s t u : Stream} {fuel max : Nat} {log : List Exchange}
      {result : Except Errno ByteArray} (h : Continues s t)
      (hread : (t.read fuel max).Runs log (result, u)) : Continues s u

/-- The handle that a completion answers, with the stream that was produced. -/
def Completion.opened (reply : Outgoing) : Completion → Option (Handle × Stream)
  | .fileOpened (.ok file) =>
      match reply with
      | .fileOpened handle => some (handle, .file file)
      | _ => none
  | .httpHead (.ok head) =>
      match reply with
      | .httpHead _ _ handle => some (handle, .body (.ofSource head.body))
      | _ => none
  | _ => none

namespace Dispatch

def issued : Dispatch → Option Handle
  | .reply (.httpCalled handle) => some handle
  | _ => none

def claimed (message : Option Incoming) : Dispatch → Option (Handle × Nat)
  | .deferred (.head ticket) =>
      match message with
      | some (.httpCallHead handle) => some (handle, ticket)
      | _ => none
  | _ => none

end Dispatch

namespace Deed

/-- The handle that is answered for a stream, with the stream. -/
def opens (h : HostState) : Deed → Option (Handle × Stream)
  | .completed completion => completion.opened (completion.apply h).1
  | _ => .none

/-- The handle that is answered for a request, with the ticket of the fetch that
was issued. -/
def issues (h : HostState) : Deed → Option (Handle × Nat)
  | .dispatched raw => (h.dispatch raw).1.issued.map fun handle => (handle, h.tickets)
  | _ => .none

def claims (h : HostState) : Deed → Option (Handle × Nat)
  | .dispatched raw => (h.dispatch raw).1.claimed (h.reads raw)
  | _ => .none

def closes : Deed → Option Handle
  | .closed handle => some handle
  | _ => .none

/-- What a deed does with the streams. -/
inductive OnStreams (h : HostState) (deed : Deed) : HandleTable Stream → Prop where
  | opened {handle : Handle} {stream : Stream} {streams : HandleTable Stream}
      (hopens : deed.opens h = some (handle, stream)) (hcloses : deed.closes = .none)
      (hinsert : h.streams.insert stream = (some handle, streams)) :
      OnStreams h deed streams
  | closed {handle : Handle} (hopens : deed.opens h = .none)
      (hcloses : deed.closes = some handle) :
      OnStreams h deed (h.streams.remove handle).2
  | same (hopens : deed.opens h = .none) (hcloses : deed.closes = .none) :
      OnStreams h deed h.streams

theorem onStreams (deed : Deed) (h : HostState) :
    deed.OnStreams h (deed.apply h).streams := by
  cases deed with
  | none => exact .same rfl rfl
  | closed handle => exact .closed rfl rfl
  | dispatched raw =>
      have hsame : (h.dispatch raw).2.streams = h.streams := by
        have hdispatched := h.dispatch_dispatched raw
        generalize h.dispatch raw = outcome at hdispatched ⊢
        obtain ⟨dispatch, h'⟩ := outcome
        cases hdispatched with
        | unread => rfl
        | handled _ hhandled => cases hhandled <;> rfl
      change OnStreams h _ (h.dispatch raw).2.streams
      rw [hsame]
      exact .same rfl rfl
  | completed completion =>
      have hopens : opens h (.completed completion) =
          completion.opened (completion.apply h).1 := rfl
      have hcompleted := h.apply_completed completion
      change OnStreams h _ (completion.apply h).2.streams
      generalize (completion.apply h).1 = reply at hopens hcompleted
      generalize (completion.apply h).2 = h' at hcompleted ⊢
      cases hcompleted with
      | opened hinsert => exact .opened hopens rfl hinsert
      | answered hinsert => exact .opened hopens rfl hinsert
      | exhausted =>
          refine .same (hopens.trans ?_) rfl
          rcases completion with (_ | _) | (_ | _) <;> rfl
      | unopened | unanswered => exact .same hopens rfl

/-- What a deed does with the responses, and how many fetches have been issued then. -/
inductive OnResponses (h : HostState) (deed : Deed) : HandleTable Nat → Nat → Prop where
  | issued {handle : Handle} {responses : HandleTable Nat}
      (hissues : deed.issues h = some (handle, h.tickets))
      (hclaims : deed.claims h = .none)
      (hinsert : h.responses.insert h.tickets = (some handle, responses)) :
      OnResponses h deed responses (h.tickets + 1)
  | claimed {handle : Handle} {ticket : Nat} (hissues : deed.issues h = .none)
      (hclaims : deed.claims h = some (handle, ticket))
      (hresponse : h.responses.get? handle = some ticket) :
      OnResponses h deed (h.responses.remove handle).2 h.tickets
  | same {tickets : Nat} (hissues : deed.issues h = .none)
      (hclaims : deed.claims h = .none) (htickets : h.tickets ≤ tickets) :
      OnResponses h deed h.responses tickets

theorem onResponses (deed : Deed) (h : HostState) :
    deed.OnResponses h (deed.apply h).responses (deed.apply h).tickets := by
  cases deed with
  | none | closed => exact .same rfl rfl (Nat.le_refl _)
  | completed completion =>
      have hsame : (completion.apply h).2.responses = h.responses ∧
          (completion.apply h).2.tickets = h.tickets := by
        have hcompleted := h.apply_completed completion
        generalize completion.apply h = outcome at hcompleted ⊢
        obtain ⟨reply, h'⟩ := outcome
        cases hcompleted <;> exact ⟨rfl, rfl⟩
      change OnResponses h _ (completion.apply h).2.responses
        (completion.apply h).2.tickets
      rw [hsame.1, hsame.2]
      exact .same rfl rfl (Nat.le_refl _)
  | dispatched raw =>
      have hissues : issues h (.dispatched raw) =
          (h.dispatch raw).1.issued.map fun handle => (handle, h.tickets) := rfl
      have hclaims : claims h (.dispatched raw) =
          (h.dispatch raw).1.claimed (h.reads raw) := rfl
      have hdispatched := h.dispatch_dispatched raw
      change OnResponses h _ (h.dispatch raw).2.responses (h.dispatch raw).2.tickets
      generalize (h.dispatch raw).1 = dispatch at hissues hclaims hdispatched
      generalize (h.dispatch raw).2 = h' at hdispatched ⊢
      cases hdispatched with
      | unread hreads => exact .same hissues hclaims (Nat.le_refl _)
      | handled hreads hhandled =>
          rw [hreads] at hclaims
          cases hhandled with
          | @answered _ reply hreply =>
              refine .same (hissues.trans ?_) hclaims (Nat.le_refl _)
              cases reply with
              | httpCalled handle => exact absurd rfl (hreply handle)
              | _ => rfl
          | stored | opening => exact .same hissues hclaims (Nat.le_refl _)
          | issued hinsert => exact .issued hissues hclaims hinsert
          | unissued => exact .same hissues hclaims (Nat.le_succ _)
          | claimed hresponse => exact .claimed hissues hclaims hresponse

end Deed

namespace Event

variable {G : Type}

def opens? : Event G → Option (Handle × Stream)
  | .served before _ deed _ _ => deed.opens before.host
  | _ => none

def issues? : Event G → Option (Handle × Nat)
  | .served before _ deed _ _ => deed.issues before.host
  | _ => none

def claims? : Event G → Option (Handle × Nat)
  | .served before _ deed _ _ => deed.claims before.host
  | _ => none

def head? : Event G → Option Nat
  | .awaited _ (.head ticket) _ _ _ => some ticket
  | _ => none

def Closes (handle : Handle) : Event G → Prop
  | .served _ _ deed _ _ => deed.closes = some handle
  | .released => True
  | _ => False

def Claims (handle : Handle) : Event G → Prop
  | .served before _ deed _ _ =>
      ∃ ticket, deed.claims before.host = some (handle, ticket)
  | .released => True
  | _ => False

/-- What an event leaves in the slot of the bridge: the operation that a call is to
wait for, or what an operation came to. -/
def Leaves (pending : Pending Deferred Resolved) : Event G → Prop
  | .served before call deed _ _ =>
      before.host.bridge.pending = none ∧
        ∃ operation, Instance.Parks before.host call deed operation ∧
        pending = .inFlight operation
  | .awaited _ _ _ value _ => pending = .resolved value
  | _ => False

def Disturbs : Event G → Prop
  | .served before _ _ _ after => after.host.bridge.pending ≠ before.host.bridge.pending
  | .awaited .. => True
  | .released => True
  | _ => False

/-- Something has happened, and nothing since then has put an end to it. -/
def Lasts (begins ends : Event G → Prop) (past : List (Event G)) : Prop :=
  ∃ earlier e later, past = earlier ++ e :: later ∧ begins e ∧ ∀ e' ∈ later, ¬ ends e'

/-- The stream that `handle` was answered for. -/
def Designates (handle : Handle) (stream : Stream) : List (Event G) → Prop :=
  Lasts (fun e => e.opens? = some (handle, stream)) (Closes handle)

/-- The fetch that `handle` was answered for, until its head is asked for. -/
def Pends (handle : Handle) (ticket : Nat) : List (Event G) → Prop :=
  Lasts (fun e => e.issues? = some (handle, ticket)) (Claims handle)

/-- What is in the slot of the bridge, if anything is. -/
def Occupies (pending : Pending Deferred Resolved) : List (Event G) → Prop :=
  Lasts (Leaves pending) Disturbs

def issued (past : List (Event G)) : List Nat :=
  past.filterMap fun e => e.issues?.map Prod.snd

def claimed (past : List (Event G)) : List Nat :=
  past.filterMap fun e => e.claims?.map Prod.snd

def heads (past : List (Event G)) : List Nat := past.filterMap head?

variable {begins ends : Event G → Prop} {past : List (Event G)} {e : Event G}

theorem issued_append (past : List (Event G)) (e : Event G) :
    issued (past ++ [e]) = issued past ++ (e.issues?.map Prod.snd).toList := by
  rw [issued, issued, List.filterMap_append, List.filterMap_cons, List.filterMap_nil]
  cases e.issues? <;> rfl

theorem claimed_append (past : List (Event G)) (e : Event G) :
    claimed (past ++ [e]) = claimed past ++ (e.claims?.map Prod.snd).toList := by
  rw [claimed, claimed, List.filterMap_append, List.filterMap_cons, List.filterMap_nil]
  cases e.claims? <;> rfl

theorem heads_append (past : List (Event G)) (e : Event G) :
    heads (past ++ [e]) = heads past ++ e.head?.toList := by
  rw [heads, heads, List.filterMap_append, List.filterMap_cons, List.filterMap_nil]
  cases e.head? <;> rfl

theorem not_lasts_nil : ¬ Lasts begins ends [] := by
  rintro ⟨earlier, e, later, h, -⟩
  cases earlier <;> cases h

theorem lasts_append : Lasts begins ends (past ++ [e]) ↔
    begins e ∨ Lasts begins ends past ∧ ¬ ends e := by
  constructor
  · rintro ⟨earlier, x, later, hpast, hbegins, hends⟩
    obtain ⟨rfl, rfl, rfl⟩ | ⟨rest, rfl, hrest⟩ := snoc_eq_append_cons hpast
    · exact .inl hbegins
    · rw [List.forall_mem_append, List.forall_mem_singleton] at hends
      exact .inr ⟨⟨earlier, x, rest, hrest, hbegins, hends.1⟩, hends.2⟩
  · rintro (hbegins | ⟨⟨earlier, x, later, rfl, hbegins, hends⟩, hend⟩)
    · exact ⟨past, e, [], rfl, hbegins, List.forall_mem_nil _⟩
    · refine ⟨earlier, x, later ++ [e], by simp, hbegins, ?_⟩
      exact List.forall_mem_append.mpr ⟨hends, List.forall_mem_singleton.mpr hend⟩

theorem lasts_append_of_not (hbegins : ¬ begins e) (hends : ¬ ends e) :
    Lasts begins ends (past ++ [e]) ↔ Lasts begins ends past := by
  rw [lasts_append]
  exact ⟨fun h => h.elim (absurd · hbegins) And.left, fun h => .inr ⟨h, hends⟩⟩

end Event

end Resumable
