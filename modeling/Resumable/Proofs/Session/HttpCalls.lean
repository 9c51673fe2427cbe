import Resumable.Proofs.Host.Splicing
import Resumable.Proofs.Message.Reference
import Resumable.Proofs.Session.Fetches

namespace Resumable

/-- What the host answers a message of the core with, at once or when what it was to
wait for has come. -/
def Deed.reply? (h : HostState) : Deed → Option Outgoing
  | .dispatched raw => (h.dispatch raw).1.reply?
  | .completed completion => some (completion.apply h).1
  | _ => .none

namespace Event

variable {G : Type}

def reply? : Event G → Option Outgoing
  | .served before _ deed _ _ => deed.reply? before.host
  | _ => none

/-- The fetch of an http-call that is answered with a handle. -/
def granted? (e : Event G) : Option (Nat × HttpRequest) :=
  match e.reply? with
  | some (.httpCalled _) => e.asked?
  | _ => none

end Event

theorem HostState.Concluded.other {h h' : HostState} {completion : Completion}
    {reply : Outgoing} (hconcluded : h.Concluded completion reply h') :
    (∀ handle, reply ≠ .httpCalled handle) ∧ reply ≠ .crowded := by
  cases hconcluded with
  | opened | answered | unopened => exact ⟨nofun, nofun⟩
  | unanswered e => cases e <;> exact ⟨nofun, nofun⟩
  | exhausted =>
      refine ⟨nofun, fun heq => ?_⟩
      have hmessage := (Outgoing.error.inj heq).2.1
      exact absurd hmessage (by decide)

/-- A message of the core is answered at once. The call is answered as delivering that
comes to, which may fail. -/
inductive Instance.Replies {G : Type} (i : Instance G) :
    ImportCall → ByteArray → Outgoing → Except CallError UInt64 →
    Instance G → Prop where
  | delivered {ptr len outPtr outLen : UInt32} {raw : ByteArray} {message : Outgoing}
      {core : CoreState G} {answer : Except CallError UInt64} {j : Instance G}
      (hread : core.memory.read? ptr.toNat len.toNat = some raw)
      (hdispatch : (i.host.dispatch raw).1 = .reply message)
      (hdeliver : (Live.deliver message outPtr outLen).on
        (i.onward core (i.host.dispatch raw).2) = (answer, j)) :
      Replies i (.messageExchange ptr len outPtr outLen) raw message answer j

namespace Event

variable {G : Type} {e : Event G}

/-- What an event has the network do, and what the core is told of it. -/
inductive Asks : Event G → Option (Nat × HttpRequest) → Prop where
  | granted {i j : Instance G} {call : ImportCall} {raw : ByteArray}
      {answer : Except CallError UInt64} {request : HttpRequest} {handle : Handle}
      (hreads : i.host.reads raw = some (.httpCall request))
      (hreplies : i.Replies call raw (.httpCalled handle) answer j)
      (hgains : i.host.responses.Gains i.host.tickets handle j.host.responses) :
      Asks (.served i call (.dispatched raw) answer j) (some (i.host.tickets, request))
  | crowded {i j : Instance G} {call : ImportCall} {raw : ByteArray}
      {answer : Except CallError UInt64} {request : HttpRequest}
      (hreads : i.host.reads raw = some (.httpCall request))
      (hreplies : i.Replies call raw .crowded answer j)
      (hfull : i.host.responses.InOrder →
        i.host.responses.limit.toNat ≤ i.host.responses.size)
          (hsame : j.host.responses = i.host.responses) :
      Asks (.served i call (.dispatched raw) answer j) (some (i.host.tickets, request))
  | nothing {e : Event G} (hgranted : ∀ handle, e.reply? ≠ some (.httpCalled handle))
      (hcrowded : e.reply? ≠ some .crowded) : Asks e none

theorem reply?_of_replies {i j : Instance G} {call : ImportCall} {raw : ByteArray}
    {message : Outgoing} {answer : Except CallError UInt64}
    (h : i.Replies call raw message answer j) :
    (.served i call (.dispatched raw) answer j : Event G).reply? = some message := by
  obtain ⟨-, hdispatch, -⟩ := h
  change (i.host.dispatch raw).1.reply? = some message
  rw [hdispatch]
  rfl

theorem Asks.eq_none {fetch : Option (Nat × HttpRequest)} (h : e.Asks fetch)
    (hgranted : ∀ handle, e.reply? ≠ some (.httpCalled handle))
    (hcrowded : e.reply? ≠ some .crowded) : fetch = none := by
  cases h with
  | granted _ hreplies => exact absurd (reply?_of_replies hreplies) (hgranted _)
  | crowded _ hreplies => exact absurd (reply?_of_replies hreplies) hcrowded
  | nothing => rfl

theorem Asks.eq_granted? (h : e.Asks e.asked?) (hcrowded : e.reply? ≠ some .crowded) :
    e.asked? = e.granted? := by
  unfold granted?
  split
  · rfl
  · next hungranted => exact h.eq_none hungranted hcrowded

end Event

namespace Instance

variable {G : Type} {i j : Instance G} {call : ImportCall} {deed : Deed}
  {answer : Except CallError UInt64}

theorem Serving.replies {raw : ByteArray} {message : Outgoing}
    (h : i.Serving call (.dispatched raw) answer j)
    (hdispatch : (i.host.dispatch raw).1 = .reply message) :
    i.Replies call raw message answer j := by
  generalize hdeed : Deed.dispatched raw = deed at h
  cases h with
  | replied _ hread hdispatch' hdeliver =>
      cases hdeed
      cases hdispatch.symm.trans hdispatch'
      exact .delivered hread hdispatch hdeliver
  | parked _ _ hparks | overlapping _ _ hparks =>
      subst hdeed
      obtain ⟨hdeferred⟩ := hparks
      cases hdispatch.symm.trans hdeferred
  | _ => cases hdeed

theorem Serving.asks (h : i.Serving call deed answer j) :
    (.served i call deed answer j : Event G).Asks (deed.asked? i.host) := by
  cases deed with
  | none | closed => exact .nothing nofun nofun
  | completed completion =>
      obtain ⟨hgranted, hcrowded⟩ := (i.host.apply_concluded completion).other
      exact .nothing (fun handle heq => hgranted handle (Option.some.inj heq))
        fun heq =>
        hcrowded (Option.some.inj heq)
  | dispatched raw =>
      have hresponses := h.responses
      change j.host.responses = (i.host.dispatch raw).2.responses at hresponses
      change (.served i call (.dispatched raw) answer j : Event G).Asks
        (i.host.asked? raw)
      obtain ⟨request, hreads, hasked⟩ | ⟨hother, hasked⟩ := i.host.asked?_cases
        raw <;> rw [hasked]
      · obtain ⟨handle, responses, hgains, hdispatch⟩ | ⟨hfull, hdispatch⟩ :=
          HostState.dispatch_httpCall hreads
        · rw [hdispatch] at hresponses
          exact .granted hreads (h.replies (congrArg Prod.fst hdispatch))
            (hresponses.symm ▸ hgains)
        · rw [hdispatch] at hresponses
          exact .crowded hreads (h.replies (congrArg Prod.fst hdispatch))
            hfull hresponses
      · obtain ⟨-, -, hgranted, hcrowded⟩ := HostState.dispatch_other hother
        exact .nothing hgranted hcrowded

end Instance

theorem Deed.asked?_ticket {deed : Deed} {h : HostState} {fetch : Nat × HttpRequest}
    (hasked : deed.asked? h = some fetch) : fetch.1 = h.tickets := by
  cases deed with
  | none | completed | closed => cases hasked
  | dispatched raw =>
      obtain ⟨request, -, hcall⟩ | ⟨-, hnone⟩ := h.asked?_cases raw
      · cases hcall.symm.trans hasked
        rfl
      · cases hnone.symm.trans hasked

namespace HostRun

variable {G : Type} {fuel : Nat} {h₀ h h' : HostState} {past : List (Event G)}
  {broken : Bool}

/-- The fetches that have been asked for have tickets in a row, and the next one is
that of the host. -/
structure Numbered (h₀ : HostState) (past : List (Event G)) (h : HostState) : Prop where
  next : h.tickets = h₀.tickets + (past.filterMap Event.asked?).length
  row : (past.filterMap Event.asked?).map Prod.fst =
    List.range' h₀.tickets (past.filterMap Event.asked?).length

theorem Numbered.happened (h : Numbered h₀ past h') {e : Event G} {h'' : HostState}
    (hticket : ∀ fetch, e.asked? = some fetch → fetch.1 = h'.tickets)
    (hnext : h''.tickets = h'.tickets + e.asked?.toList.length) :
    Numbered h₀ (past ++ [e]) h'' := by
  rcases hasked : e.asked? with _ | fetch
  · rw [hasked] at hnext
    have hsame : (past ++ [e]).filterMap Event.asked? =
        past.filterMap Event.asked? := by
      rw [List.filterMap_append, Event.asked?_singleton, hasked]
      exact List.append_nil _
    exact ⟨hsame ▸ hnext.trans h.next, hsame ▸ h.row⟩
  · rw [hasked] at hnext
    have hone : (past ++ [e]).filterMap Event.asked? =
        past.filterMap Event.asked? ++ [fetch] := by
      rw [List.filterMap_append, Event.asked?_singleton, hasked]
      rfl
    refine ⟨?_, ?_⟩
    · rw [hone, List.length_append, hnext, h.next]
      rfl
    · rw [hone, List.map_append, List.length_append, h.row, List.length_singleton,
        List.range'_1_concat]
      rw [List.map_singleton, hticket fetch hasked, h.next]

theorem numbered (hrun : HostRun fuel h₀ past broken h) : Numbered h₀ past h := by
  induction hrun with
  | start => exact ⟨rfl, rfl⟩
  | passedOn _ _ ih | dropped _ _ ih => exact ⟨ih.next, ih.row⟩
  | @served _ _ i _ _ deed _ _ _ hserving ih =>
      refine ih.happened (fun _ => deed.asked?_ticket) ?_
      exact hserving.tickets.trans (deed.tickets_apply i.host)
  | awaited _ _ hserved ih =>
      refine ih.happened nofun ?_
      cases hserved <;> rfl
  | began _ _ ih | concluded _ ih | released _ ih => exact ih.happened nofun rfl

end HostRun

namespace Passage

variable {G : Type} {fuel : Nat} {i₀ i : Instance G} {log : List Exchange}
  {past : List (Event G)} {standing : Standing}

theorem asks (h : Passage fuel i₀ log past standing i) :
    ∀ e ∈ past, e.Asks e.asked? := by
  intro e he
  obtain ⟨broken, hrun, -⟩ := h.hostRun
  obtain ⟨earlier, later, rfl⟩ := List.append_of_mem he
  cases e with
  | served i call deed answer j => exact hrun.at_served.2.1.asks
  | awaited | began | concluded | released => exact .nothing nofun nofun

/-- Whatever is done with an instance, and whatever its host holds at first: the
network is asked for one fetch for every http-call that is read, under its own ticket
and in the order of the calls, and for nothing else. Each of these calls is answered
with a handle that keeps its fetch, or it finds every handle in use; a message that is
answered any other error asks for nothing. So as long as no call finds the handles
used up, the fetches are those that handles are answered for. -/
theorem fetches_told (h : Passage fuel i₀ log past standing i) :
    Exchange.fetched log ++ i.host.fetching =
    i₀.host.fetching ++ past.filterMap Event.asked? ∧
      (past.filterMap Event.asked?).map Prod.fst =
        List.range' i₀.host.tickets (past.filterMap Event.asked?).length ∧
      (∀ e ∈ past, e.Asks e.asked?) ∧
      (∀ e ∈ past, ∀ code text errno, e.reply? = some (.error code text errno) →
        e.reply? ≠ some .crowded → e.asked? = none) ∧
      ((∀ e ∈ past, e.reply? ≠ some .crowded) →
        Exchange.fetched log ++ i.host.fetching =
          i₀.host.fetching ++ past.filterMap Event.granted?) := by
  have hbalances := h.balances
  have hasks := h.asks
  obtain ⟨broken, hrun, -⟩ := h.hostRun
  refine ⟨hbalances, hrun.numbered.row, hasks, ?_, ?_⟩
  · intro e he code text errno hreply hcrowded
    refine (hasks e he).eq_none (fun handle => ?_) hcrowded
    rw [hreply]
    nofun
  · intro huncrowded
    have hgranted : past.filterMap Event.asked? = past.filterMap Event.granted? :=
      List.filterMap_congr fun e he => (hasks e he).eq_granted? (huncrowded e he)
    rw [← hgranted]
    exact hbalances

end Passage

section Caller

def callRequest : HttpRequest where
  method := "GET"
  url := "https://example.com/a"

def callMessage : ByteArray :=
  (Json.obj (Incoming.members (.httpCall callRequest))).bytes

theorem decode_callMessage :
    Incoming.decode callMessage = .ok (.httpCall callRequest) := by
  have hextends :
      Incoming.Extends (.httpCall callRequest) []
        (Incoming.members (.httpCall callRequest)) := by
    refine ⟨?_, nofun, nofun, nofun⟩
    rw [List.append_nil]
  exact Incoming.decode_document List.Pairwise.nil hextends

theorem size_callMessage_le : callMessage.size ≤ RuntimeConfig.maxMessageBytes {} := by
  rw [callMessage, Json.size_bytes]
  decide +kernel

theorem reads_callMessage {h : HostState} (hconfig : h.config = {}) :
    h.reads callMessage = some (.httpCall callRequest) := by
  have hsize : ¬ h.config.maxMessageBytes < callMessage.size := by
    rw [hconfig]
    exact Nat.not_lt.mpr size_callMessage_le
  rw [HostState.reads, if_neg hsize, decode_callMessage]

/-- An instance that has the message in its memory, and whose host has room for so
many replies. -/
structure Instance.Calls (left : Nat) (i : Instance Unit) : Prop where
  exports : i.exports = Instance.silent.exports
  page : i.core.memory.size = 65536
  message : i.core.memory.read? 0 callMessage.size = some callMessage
  config : i.host.config = {}
  stores : i.host.StoresReplies
  room : i.host.messages.size + left ≤ i.encoding.maxSecond.toNat
  passedOn : i.host.outbox = []

theorem Instance.exists_calls (responses : HandleTable Nat) (tickets : Nat) :
    ∃ i : Instance Unit, i.Calls 2 ∧ i.host.responses = responses ∧
    i.host.tickets = tickets := by
  have hroom : 0 + callMessage.size ≤ Instance.silent.core.memory.size := by
    rw [callMessage, Json.size_bytes]
    decide +kernel
  obtain ⟨memory, -, hwrote⟩ := Memory.exists_wrote_of_le hroom
  let host : HostState :=
    { HostState.ofConfig {} with responses := responses, tickets := tickets }
  have hstores : host.StoresReplies := ⟨HandleTable.withLimit_inOrder _, rfl⟩
  have hfree : 0 + 2 ≤ (PairEncoding.maxSecond .wide).toNat := by decide
  exact ⟨⟨⟨memory, ()⟩, Instance.silent.exports, host⟩,
    ⟨rfl, hwrote.size, hwrote.read, rfl, hstores, hfree, rfl⟩,
    rfl, rfl⟩

theorem Instance.Calls.exists_deliver {left : Nat} {i : Instance Unit}
    (hi : i.Calls (left + 1)) {message : Outgoing} {host : HostState}
    (hsame : i.host.SameReplies host)
    (hsmall : 0 < message.encode.size ∧ message.encode.size ≤ 4096) : ∃ word messages,
      (Live.deliver message 0 0).on (i.onward i.core host) =
        (.ok word, i.onward i.core { host with messages := messages }) ∧
      (i.onward i.core { host with messages := messages }).flushed.Calls left := by
  have hstores : host.StoresReplies :=
    ⟨hsame.messages.symm ▸ hi.stores.inOrder, hsame.messages.symm ▸
      hsame.config.symm ▸ hi.stores.limit⟩
  have hencoding : (i.onward i.core host).encoding = i.encoding :=
    congrArg RuntimeConfig.pairEncoding hsame.config
  have hfree : host.messages.size <
      (i.onward i.core host).encoding.maxSecond.toNat := by
    rw [hencoding, hsame.messages]
    exact Nat.lt_of_lt_of_le (Nat.lt_add_of_pos_right (Nat.succ_pos left)) hi.room
  have hshort : message.encode.size < 2 ^ 31 := Nat.lt_of_le_of_lt hsmall.2 (by decide)
  have hfits :=
    Nat.lt_of_lt_of_le hshort (i.onward i.core host).encoding.le_two_pow_firstBits
  have hcovered : message.encode.size ≤ (0 : UInt32).toNat →
      (0 : UInt32).toNat + message.encode.size ≤
      (i.onward i.core host).core.memory.size :=
    fun h => absurd hsmall.1 (Nat.not_lt.mpr h)
  obtain ⟨handle, s, word, messages, hreceives, htakes, hdeliver⟩ :=
    Live.deliver_receives (i := i.onward i.core host) hstores hfits hcovered hfree
  cases hreceives with
  | written h => exact absurd hsmall.1 (Nat.not_lt.mpr h)
  | stashed =>
      have hsize : messages.size ≤ i.host.messages.size + 1 :=
        hsame.messages ▸ htakes.size
      have hroom : messages.size + left ≤ i.host.messages.size + (left + 1) := by omega
      refine ⟨word, messages, hdeliver, ?_⟩
      exact
        { exports := hi.exports
          page := hi.page
          message := hi.message
          config := hsame.config.trans hi.config
          stores := ⟨htakes.inOrder, htakes.limit.trans hstores.limit⟩
          room := Nat.le_trans hroom (hencoding.symm ▸ hi.room)
          passedOn := rfl }

def exchangeAt (outPtr outLen : UInt32) : ImportCall :=
  .messageExchange 0 (UInt32.ofNat callMessage.size) outPtr outLen

theorem Instance.Calls.serving {left : Nat} {i j : Instance Unit} (hi : i.Calls left)
    {message : Outgoing} {host : HostState}
    (hdispatch : i.host.dispatch callMessage = (.reply message, host))
    {outPtr outLen : UInt32} {answer : Except CallError UInt64}
    (hdeliver : (Live.deliver message outPtr outLen).on (i.onward i.core host) =
      (answer, j)) : (Instance.serve (exchangeAt outPtr outLen)).on i = (answer, j) ∧
        i.Serving (exchangeAt outPtr outLen) (.dispatched callMessage) answer j := by
  have hread :
      i.core.memory.read? (0 : UInt32).toNat (UInt32.ofNat callMessage.size).toNat =
      some callMessage := by
    rw [UInt32.toNat_ofNat_of_lt' (Nat.lt_of_le_of_lt size_callMessage_le (by decide))]
    exact hi.message
  have hlimit : callMessage.size ≤ i.host.config.maxMessageBytes := by
    rw [hi.config]
    exact size_callMessage_le
  have hnormal : i.exports.Normal i.core := by
    rw [hi.exports]
    rfl
  have hreply : (i.host.dispatch callMessage).1 = .reply message :=
    congrArg Prod.fst hdispatch
  refine ⟨(Instance.serve_exchange hnormal hread hlimit hdispatch).trans hdeliver, ?_⟩
  refine .replied .refl hread hreply ?_
  rw [hdispatch]
  exact hdeliver

/-- The core sends the message once more, and leaves the reply where the host
stashes it. -/
theorem Passage.exists_call {fuel left : Nat} {i₀ i : Instance Unit}
    {log : List Exchange} {past : List (Event Unit)}
    (h : Passage fuel i₀ log past .ready i) (hi : i.Calls (left + 1))
    {message : Outgoing} {host : HostState}
    (hdispatch : i.host.dispatch callMessage = (.reply message, host))
    (hsmall : 0 < message.encode.size ∧ message.encode.size ≤ 4096) :
    ∃ e j, Passage fuel i₀ (log ++ Exchange.emissions host.outbox)
      (past ++ [e]) .ready j ∧ e.reply? = some message ∧ j.Calls left ∧
      j.host.responses = host.responses ∧ j.host.tickets = host.tickets := by
  have hsame : i.host.SameReplies host := by
    have hsame := i.host.dispatch_sameReplies callMessage
    rwa [hdispatch] at hsame
  obtain ⟨word, messages, hdeliver, hleft⟩ := hi.exists_deliver hsame hsmall
  obtain ⟨hserve, hserving⟩ := hi.serving hdispatch hdeliver
  let entry (_ : Exports Unit) (s : CoreState Unit) : Activation Unit Unit :=
    .call s (exchangeAt 0 0) fun s _ => .finish s ()
  have htold : (entry i.exports i.core).Tells i _ (.ok ()) _ :=
    .answered hserve hserving (.finish _ () _)
  have hacted := h.acted nofun htold (Instance.runs_flush_iff.mpr ⟨rfl, rfl⟩)
  have hreply :=
    Event.reply?_of_replies (hserving.replies (congrArg Prod.fst hdispatch))
  exact ⟨_, _, hacted, hreply, hleft, rfl, rfl⟩

theorem Passage.exists_lost_call {fuel left : Nat} {i₀ : Instance Unit}
    (hi : i₀.Calls left) {message : Outgoing} {host : HostState}
    (hdispatch : i₀.host.dispatch callMessage = (.reply message, host))
    (hsmall : 0 < message.encode.size ∧ message.encode.size ≤ 4096) :
    ∃ j k, Passage fuel i₀ (Exchange.emissions host.outbox)
      [.served i₀ (exchangeAt 65536 4096) (.dispatched callMessage)
        (.error (.other .replyOutside)) j]
      .failed k := by
  have hwrite : i₀.core.memory.write? (65536 : UInt32).toNat message.encode = none := by
    refine Memory.write?_eq_none_iff.mpr ?_
    rw [hi.page]
    exact Nat.lt_add_of_pos_right hsmall.1
  have hdeliver : (Live.deliver message 65536 4096).on (i₀.onward i₀.core host) =
      (.error (.other .replyOutside), i₀.onward i₀.core host) := by
    have hfits : message.encode.size ≤ (4096 : UInt32).toNat := hsmall.2
    rw [Live.deliver_eq (Nat.lt_of_le_of_lt hsmall.2 (by decide)), if_pos hfits]
    exact Act.on_bind_error (Live.on_writeInline_none hwrite)
  obtain ⟨hserve, hserving⟩ := hi.serving hdispatch hdeliver
  let entry (_ : Exports Unit) (s : CoreState Unit) : Activation Unit Unit :=
    .call s (exchangeAt 65536 4096) fun s _ => .finish s ()
  have htold :
      (entry i₀.exports i₀.core).Tells i₀ _ (.error (.other .replyOutside)) _ :=
      .refused hserve hserving
  exact ⟨_, _, Passage.start.acted nofun htold (Instance.runs_flush_iff.mpr ⟨rfl, rfl⟩)⟩

theorem size_httpCalled :
    0 < (Outgoing.httpCalled 1).encode.size ∧
    (Outgoing.httpCalled 1).encode.size ≤ 4096 := by
  rw [Outgoing.encode, Json.size_bytes]
  decide +kernel

theorem size_crowded :
    0 < Outgoing.crowded.encode.size ∧ Outgoing.crowded.encode.size ≤ 4096 := by
  rw [Outgoing.encode, Json.size_bytes]
  decide +kernel

theorem Instance.Calls.dispatch_granted {left : Nat} {i : Instance Unit}
    (hi : i.Calls left) (hresponses : i.host.responses = .empty) :
    ∃ host, i.host.dispatch callMessage = (.reply (.httpCalled 1), host) ∧
      host.outbox = [.fetch i.host.tickets callRequest] := by
  have hinsert : i.host.responses.insert i.host.tickets =
      (some 1, (i.host.responses.insert i.host.tickets).2) := by
    rw [hresponses]
    rfl
  refine ⟨{ i.host.emit (.fetch i.host.tickets callRequest) with
    tickets := i.host.tickets + 1,
    responses := (i.host.responses.insert i.host.tickets).2 }, ?_, ?_⟩
  · rw [HostState.dispatch_of_reads (reads_callMessage hi.config)]
    simp only [HostState.handle, HostState.callHttp, HostState.emit]
    rw [hinsert]
  · exact congrArg _ hi.passedOn

theorem Instance.Calls.fetching {left : Nat} {i : Instance Unit} (hi : i.Calls left) :
    i.host.fetching = [] := by
  rw [HostState.fetching, hi.passedOn]
  rfl

theorem Instance.Calls.dispatch_crowded {left : Nat} {i : Instance Unit}
    (hi : i.Calls left) (hfull : i.host.responses.limit.toNat ≤ i.host.responses.size) :
    ∃ host, i.host.dispatch callMessage = (.reply .crowded, host) ∧
      host.outbox = [.fetch i.host.tickets callRequest] ∧
      host.responses = i.host.responses ∧ host.tickets = i.host.tickets + 1 := by
  obtain ⟨_, _, hgains, -⟩ | ⟨-, hdispatch⟩ := HostState.dispatch_httpCall
    (reads_callMessage hi.config)
  · exact absurd hgains.room (Nat.not_lt.mpr hfull)
  · exact ⟨_, hdispatch, congrArg _ hi.passedOn, rfl, rfl⟩

theorem Passage.call_fetched_once :
    ∃ (i₀ i : Instance Unit) (log : List Exchange) (past : List (Event Unit)),
    Passage 0 i₀ log past .ready i ∧
      past.map Event.reply? = [some (.httpCalled 1)] ∧
      Exchange.fetched log ++ i.host.fetching =
      i₀.host.fetching ++ past.filterMap Event.granted? ∧
      Exchange.fetched log = [(0, callRequest)] := by
  obtain ⟨i₀, hi₀, hresponses, htickets⟩ := Instance.exists_calls .empty 0
  obtain ⟨host, hdispatch, houtbox⟩ := hi₀.dispatch_granted hresponses
  obtain ⟨e, i, h, hreply, -, -, -⟩ := Passage.start.exists_call hi₀ hdispatch
    size_httpCalled
  obtain ⟨-, -, -, -, hgranted⟩ := h.fetches_told
  refine ⟨i₀, i, _, _, h, congrArg (fun reply => [reply]) hreply, hgranted ?_, ?_⟩
  · intro e' he'
    rw [List.mem_singleton.mp he', hreply]
    nofun
  · rw [List.nil_append, Exchange.fetched_emissions, houtbox, htickets]
    rfl

/-- A core is told twice that every handle is in use, and its request is sent twice.
And where a handle is answered for it, but not told since the reply cannot be written,
the request is sent as well. -/
theorem Passage.fetched_untold :
    (∃ (i₀ i : Instance Unit) (log : List Exchange) (past : List (Event Unit)),
      Passage 0 i₀ log past .ready i ∧
      i₀.host.responses = ((HandleTable.withLimit 1).insert 0).2 ∧
      i₀.host.fetching = [] ∧ past.map Event.reply? = [some .crowded, some .crowded] ∧
      past.filterMap Event.granted? = [] ∧
      Exchange.fetched log = [(1, callRequest), (2, callRequest)]) ∧
    ∃ (i₀ i j : Instance Unit) (log : List Exchange), Passage 0 i₀ log
      [.served i₀ (exchangeAt 65536 4096) (.dispatched callMessage)
        (.error (.other .replyOutside)) j]
      .failed i ∧ i₀.host.fetching = [] ∧
      Exchange.fetched log = [(0, callRequest)] := by
  refine ⟨?_, ?_⟩
  · obtain ⟨i₀, hi₀, hresponses, htickets⟩ := Instance.exists_calls
      ((HandleTable.withLimit 1).insert 0).2 1
    have hfull : i₀.host.responses.limit.toNat ≤ i₀.host.responses.size := by
      rw [hresponses]
      decide
    obtain ⟨host, hdispatch, houtbox, hhost, hnext⟩ := hi₀.dispatch_crowded hfull
    obtain ⟨e, i, h, hreply, hi, hi', htickets'⟩ := Passage.start.exists_call hi₀
      hdispatch size_crowded
    have hfull' : i.host.responses.limit.toNat ≤ i.host.responses.size := by
      rwa [hi', hhost]
    obtain ⟨host', hdispatch', houtbox', -, -⟩ := hi.dispatch_crowded hfull'
    obtain ⟨e', j, h', hreply', -, -, -⟩ := h.exists_call hi hdispatch' size_crowded
    have hungranted (e : Event Unit) (hreply : e.reply? = some .crowded) :
        e.granted? = none := by
      rw [Event.granted?, hreply]
      rfl
    refine ⟨i₀, j, _, _, h', hresponses, hi₀.fetching, ?_, ?_, ?_⟩
    · rw [List.map_append, List.map_append, List.map_singleton, List.map_singleton,
        hreply, hreply']
      rfl
    · refine List.filterMap_eq_nil_iff.mpr (List.forall_mem_append.mpr ⟨?_, ?_⟩)
      · exact List.forall_mem_singleton.mpr (hungranted e hreply)
      · exact List.forall_mem_singleton.mpr (hungranted e' hreply')
    · simp only [Exchange.fetched_append, Exchange.fetched_emissions, houtbox,
        houtbox', htickets', hnext, htickets]
      rfl
  · obtain ⟨i₀, hi₀, hresponses, htickets⟩ := Instance.exists_calls .empty 0
    obtain ⟨host, hdispatch, houtbox⟩ := hi₀.dispatch_granted hresponses
    obtain ⟨j, i, h⟩ := Passage.exists_lost_call hi₀ hdispatch size_httpCalled
    refine ⟨i₀, i, j, _, h, hi₀.fetching, ?_⟩
    rw [Exchange.fetched_emissions, houtbox, htickets]
    rfl

end Caller

end Resumable
