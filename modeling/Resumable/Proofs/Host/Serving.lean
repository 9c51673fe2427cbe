import Resumable.Proofs.Bridge.Hosting
import Resumable.Proofs.Host.Dispatch
import Resumable.Proofs.Host.Upkeep

namespace Resumable

/-- What the host does for a core in one call, apart from the bridge and the
stashed replies. -/
inductive Deed where
  | none
  | dispatched (raw : ByteArray)
  | completed (completion : Completion)
  | closed (handle : Handle)

def Deed.apply : Deed → HostState → HostState
  | .none, h => h
  | .dispatched raw, h => (h.dispatch raw).2
  | .completed completion, h => (completion.apply h).2
  | .closed handle, h => { h with streams := (h.streams.remove handle).2 }

/-- The states of a core that serving a call may lead to. -/
inductive CoreState.Touched {G : Type} (x : Exports G) (s : CoreState G) :
    CoreState G → Prop where
  | refl : Touched x s s
  | memory {t : CoreState G} (h : Touched x s t) (memory : Memory) :
      Touched x s { t with memory := memory }
  | getState {t : CoreState G} (h : Touched x s t) : Touched x s (x.getState t).2
  | startUnwind {t : CoreState G} (h : Touched x s t) (addr : UInt32) :
      Touched x s (x.startUnwind addr t).2
  | stopRewind {t : CoreState G} (h : Touched x s t) : Touched x s (x.stopRewind t).2

namespace HostState

def withPending (h : HostState) (pending : Option (Pending Deferred Resolved)) :
    HostState :=
  { h with bridge := { h.bridge with pending := pending } }

/-- The two agree on everything but the bridge and the stashed replies. -/
structure Agrees (h h' : HostState) : Prop where
  config : h'.config = h.config
  perform : h'.perform = h.perform
  streams : h'.streams = h.streams
  responses : h'.responses = h.responses
  tickets : h'.tickets = h.tickets
  outbox : h'.outbox = h.outbox

variable {h h' h'' : HostState}

theorem Agrees.refl (h : HostState) : h.Agrees h := ⟨rfl, rfl, rfl, rfl, rfl, rfl⟩

theorem Agrees.trans (hl : h.Agrees h') (hr : h'.Agrees h'') : h.Agrees h'' where
  config := hr.config.trans hl.config
  perform := hr.perform.trans hl.perform
  streams := hr.streams.trans hl.streams
  responses := hr.responses.trans hl.responses
  tickets := hr.tickets.trans hl.tickets
  outbox := hr.outbox.trans hl.outbox

theorem agrees_withPending (h : HostState)
    (pending : Option (Pending Deferred Resolved)) :
    h.Agrees (h.withPending pending) := ⟨rfl, rfl, rfl, rfl, rfl, rfl⟩

theorem dispatch_bridge (h : HostState) (raw : ByteArray) :
    (h.dispatch raw).2.bridge = h.bridge := by
  have hdispatched := h.dispatch_dispatched raw
  generalize h.dispatch raw = outcome at hdispatched ⊢
  obtain ⟨dispatch, h'⟩ := outcome
  cases hdispatched with
  | unread => rfl
  | handled _ hhandled => cases hhandled <;> rfl

theorem apply_bridge (h : HostState) (completion : Completion) :
    (completion.apply h).2.bridge = h.bridge := by
  have hcompleted := h.apply_completed completion
  generalize completion.apply h = outcome at hcompleted ⊢
  obtain ⟨reply, h'⟩ := outcome
  cases hcompleted <;> rfl

theorem apply_withPending (h : HostState) (pending : Option (Pending Deferred Resolved))
    (completion : Completion) :
    completion.apply (h.withPending pending) =
      ((completion.apply h).1, (completion.apply h).2.withPending pending) := by
  rcases completion with (errno | file) | (error | head)
  · rfl
  · simp only [Completion.apply, addStream, withPending]
    split <;> rfl
  · rfl
  · simp only [Completion.apply, addStream, withPending]
    split <;> rfl

end HostState

theorem Deed.apply_bridge (deed : Deed) (h : HostState) :
    (deed.apply h).bridge = h.bridge := by
  cases deed with
  | none | closed => rfl
  | dispatched raw => exact h.dispatch_bridge raw
  | completed completion => exact h.apply_bridge completion

namespace Instance

variable {G : Type}

/-- The instance with its core in another state and other things on the host's side. -/
def onward (i : Instance G) (core : CoreState G) (host : HostState) : Instance G :=
  ⟨core, i.exports, host⟩

/-- What a call has the core wait for, from what the host has, with the deed
done so far. -/
inductive Parks (h : HostState) : ImportCall → Deed → Deferred → Prop where
  | message {ptr len outPtr outLen : UInt32} {raw : ByteArray} {operation : Deferred}
      (hdispatch : (h.dispatch raw).1 = .deferred operation) :
      Parks h (.messageExchange ptr len outPtr outLen) (.dispatched raw) operation
  | read {handle outPtr outLen : UInt32} {stream : Stream} {max : Nat}
      (hstream : h.streams.get? handle = some stream) :
      Parks h (.streamRead handle outPtr outLen) .none (.read handle stream max)
  | write {handle inPtr inLen : UInt32} {stream : Stream} {bytes : ByteArray}
      (hstream : h.streams.get? handle = some stream) :
      Parks h (.streamWrite handle inPtr inLen) .none (.write stream bytes)
  | close {handle : UInt32} {stream : Stream}
      (hstream : h.streams.get? handle = some stream) :
      Parks h (.streamClose handle) (.closed handle) (.close stream)

end Instance

namespace ImportCall

def stream? : ImportCall → Option Handle
  | .streamRead handle _ _ => some handle
  | .streamWrite handle _ _ => some handle
  | .streamClose handle => some handle
  | _ => none

end ImportCall

namespace Instance

variable {G : Type}

/-- What may come of an import call: the deed done, the answer, and the
instance behind it. -/
inductive Serving (i : Instance G) :
    ImportCall → Deed → Except CallError UInt64 → Instance G → Prop where
  | refused {call : ImportCall} {e : CallError} {core : CoreState G}
      (hcore : i.core.Touched i.exports core) :
      Serving i call .none (.error e) (i.onward core i.host)
  | unrewound {call : ImportCall} {e : CallError} {value : Resolved}
      {core : CoreState G} (hcore : i.core.Touched i.exports core)
      (hvalue : i.host.bridge.pending = some (.resolved value)) :
      Serving i call .none (.error e) (i.onward core (i.host.withPending none))
  | tooLong {ptr len outPtr outLen : UInt32} {core : CoreState G}
      {r : Except CallError UInt64} {j : Instance G}
      (hcore : i.core.Touched i.exports core)
      (hlong : i.host.config.maxMessageBytes < len.toNat)
      (hdeliver :
        (Live.deliver (.tooLarge len.toNat i.host.config.maxMessageBytes) outPtr
          outLen).on (i.onward core i.host) = (r, j)) :
      Serving i (.messageExchange ptr len outPtr outLen) .none r j
  | replied {ptr len outPtr outLen : UInt32} {raw : ByteArray} {message : Outgoing}
      {core : CoreState G} {r : Except CallError UInt64} {j : Instance G}
      (hcore : i.core.Touched i.exports core)
      (hread : core.memory.read? ptr.toNat len.toNat = some raw)
      (hdispatch : (i.host.dispatch raw).1 = .reply message)
      (hdeliver : (Live.deliver message outPtr outLen).on
        (i.onward core (i.host.dispatch raw).2) = (r, j)) :
      Serving i (.messageExchange ptr len outPtr outLen) (.dispatched raw) r j
  | completed {ptr len outPtr outLen : UInt32} {completion : Completion}
      {core : CoreState G} {r : Except CallError UInt64} {j : Instance G}
      (hcore : i.core.Touched i.exports core)
      (hvalue : i.host.bridge.pending = some (.resolved (.message completion)))
      (hdeliver : (Live.deliver (completion.apply i.host).1 outPtr outLen).on
        (i.onward core ((completion.apply i.host).2.withPending none)) = (r, j)) :
      Serving i (.messageExchange ptr len outPtr outLen) (.completed completion) r j
  | retrieved {handle outPtr outLen : UInt32} {core : CoreState G}
      {r : Except CallError UInt64} {j : Instance G}
      (hcore : i.core.Touched i.exports core)
      (hretrieve :
        (do Live.answer (← Live.retrieve handle outPtr outLen) : Live G UInt64).on
          (i.onward core i.host) = (r, j)) :
      Serving i (.messageRetrieve handle outPtr outLen) .none r j
  | missing {call : ImportCall} {handle : Handle} {core : CoreState G}
      {r : Except CallError UInt64} {j : Instance G}
      (hcore : i.core.Touched i.exports core) (hcall : call.stream? = some handle)
      (hnone : i.host.streams.get? handle = none)
      (hanswer : (Live.answer (.error .badF)).on (i.onward core i.host) = (r, j)) :
      Serving i call .none r j
  | unreadable {handle inPtr inLen : UInt32} {stream : Stream} {core : CoreState G}
      {r : Except CallError UInt64} {j : Instance G}
      (hcore : i.core.Touched i.exports core)
      (hstream : i.host.streams.get? handle = some stream)
      (hanswer : (Live.answer (.error .fault)).on (i.onward core i.host) = (r, j)) :
      Serving i (.streamWrite handle inPtr inLen) .none r j
  | finished {call : ImportCall} {handle : Handle} {value : Resolved}
      {core : CoreState G} {r : Except CallError UInt64}
      (hcore : i.core.Touched i.exports core) (hcall : call.stream? = some handle)
      (hvalue : i.host.bridge.pending = some (.resolved value)) :
      Serving i call .none r (i.onward core (i.host.withPending none))
  | parked {call : ImportCall} {deed : Deed} {operation : Deferred} {core : CoreState G}
      {r : Except CallError Unit} (hcore : i.core.Touched i.exports core)
      (hidle : i.host.bridge.pending = none)
      (hparks : Parks i.host call deed operation) :
      Serving i call deed (r.map fun _ => 0)
        (i.onward core ((deed.apply i.host).withPending (some (.inFlight operation))))
  | overlapping {call : ImportCall} {deed : Deed} {operation : Deferred}
      {pending : Pending Deferred Resolved} {core : CoreState G}
      (hcore : i.core.Touched i.exports core)
      (hbusy : i.host.bridge.pending = some pending)
      (hparks : Parks i.host call deed operation) :
      Serving i call deed (.error (.violation .overlappingSuspension))
        (i.onward core (deed.apply i.host))

variable {i j : Instance G}

namespace Serving

def Begun (i : Instance G) (call : ImportCall) :
    Except CallError (HostStep UInt64 Deferred) × Instance G → Prop
  | (.error e, j) => ∃ deed, i.Serving call deed (.error e) j
  | (.ok (.ready word), j) => ∃ deed, i.Serving call deed (.ok word) j
  | (.ok (.suspend operation), j) =>
      ∃ deed core, i.core.Touched i.exports core ∧ Parks i.host call deed operation ∧
        j = i.onward core (deed.apply i.host)

def Came (i : Instance G) (call : ImportCall)
    (outcome : Except CallError UInt64 × Instance G) : Prop :=
  ∃ deed, i.Serving call deed outcome.1 outcome.2

end Serving

variable {call : ImportCall} {core : CoreState G}

theorem state_on_snd {r : Except CallError SuspendState}
    (h : control.state.on i = (r, j)) :
    j = i.onward (i.exports.getState i.core).2 i.host := by
  have hraw : (control.rawState.on i).2 =
      i.onward (i.exports.getState i.core).2 i.host := rfl
  rw [Control.state, Act.on_bind] at h
  rcases hr : control.rawState.on i with ⟨e | raw, t⟩
  · rw [hr] at h hraw
    cases h
    exact hraw
  · rw [hr] at h hraw
    dsimp only at h hraw
    split at h <;> cases h <;> exact hraw

theorem startUnwind_on_snd {r : Except CallError Unit}
    (h : control.startUnwind.on i = (r, j)) :
    j = i.onward (i.exports.startUnwind i.host.config.asyncifyDataAddr i.core).2
      i.host := by
  cases h
  rfl

theorem stopRewind_on_snd {r : Except CallError Unit}
    (h : control.stopRewind.on i = (r, j)) :
    j = i.onward (i.exports.stopRewind i.core).2 i.host := by
  cases h
  rfl

theorem came_hostCall {start : Live G (HostStep UInt64 Deferred)}
    {finish : Resolved → Live G UInt64}
    (hstart : ∀ core, i.core.Touched i.exports core →
      Serving.Begun i call (start.on (i.onward core i.host)))
    (hfinish : ∀ core value, i.core.Touched i.exports core →
      i.host.bridge.pending = some (.resolved value) →
      Serving.Came i call
        ((finish value).on (i.onward core (i.host.withPending none)))) :
    Serving.Came i call ((control.hostCall 0 start finish).on i) := by
  have hstate : i.core.Touched i.exports (i.exports.getState i.core).2 :=
    .getState .refl
  generalize houtcome : (control.hostCall 0 start finish).on i = outcome
  have hosted := control.hosted 0 start finish i
  rw [houtcome] at hosted
  cases hosted with
  | unknown hs | unwinding hs | unresolved hs =>
      cases state_on_snd hs
      exact ⟨.none, .refused hstate⟩
  | failed hs h | ready hs h =>
      cases state_on_snd hs
      have hbegun := hstart _ hstate
      rw [h] at hbegun
      exact hbegun
  | overlapping hs h hbusy =>
      cases state_on_snd hs
      have hbegun := hstart _ hstate
      rw [h] at hbegun
      obtain ⟨deed, core, hcore, hparks, rfl⟩ := hbegun
      exact ⟨deed,
        .overlapping hcore
        ((congrArg Bridge.pending (deed.apply_bridge i.host)).symm.trans hbusy) hparks⟩
  | parked hs h hidle hunwind =>
      cases state_on_snd hs
      have hbegun := hstart _ hstate
      rw [h] at hbegun
      obtain ⟨deed, core, hcore, hparks, rfl⟩ := hbegun
      cases startUnwind_on_snd hunwind
      exact ⟨deed, .parked (.startUnwind hcore _)
        ((congrArg Bridge.pending (deed.apply_bridge i.host)).symm.trans hidle) hparks⟩
  | unrewound hs hvalue hstop =>
      cases state_on_snd hs
      cases stopRewind_on_snd hstop
      exact ⟨.none, .unrewound (.stopRewind hstate) hvalue⟩
  | rewound hs hvalue hstop =>
      cases state_on_snd hs
      cases stopRewind_on_snd hstop
      exact hfinish _ _ (.stopRewind hstate) hvalue

theorem begun_ready {step : Live G UInt64} {k : Instance G} {deed : Deed}
    (h : ∀ r j, step.on k = (r, j) → i.Serving call deed r j) :
    Serving.Begun i call ((do return HostStep.ready (← step)).on k) := by
  rw [Act.on_bind]
  rcases hstep : step.on k with ⟨e | word, j⟩
  · exact ⟨deed, h _ _ hstep⟩
  · exact ⟨deed, h _ _ hstep⟩

theorem begun_exchange (hcore : i.core.Touched i.exports core)
    (ptr len outPtr outLen : UInt32) :
    Serving.Begun i (.messageExchange ptr len outPtr outLen)
      ((Live.beginExchange ptr len outPtr outLen).on (i.onward core i.host)) := by
  unfold Live.beginExchange Live.config
  rw [Act.on_bind_ok (Act.on_read _ _)]
  have hmax : (i.onward core i.host).host.config.maxMessageBytes =
      i.host.config.maxMessageBytes := rfl
  dsimp only
  rw [hmax]
  split
  · next hlong =>
      -- The step is made a variable, since unfolding it would write the
      -- whole message out.
      generalize hstep : Live.deliver
        (.tooLarge len.toNat i.host.config.maxMessageBytes) outPtr outLen = step
      refine begun_ready fun r j h => .tooLong hcore hlong ?_
      rwa [hstep]
  · rw [Live.readMemory?, Act.on_bind_ok (Act.on_read _ _)]
    split
    · exact ⟨.none, .refused hcore⟩
    · next raw hread =>
        have hhost : (Live.host fun h => h.dispatch raw).on (i.onward core i.host) =
            (.ok (i.host.dispatch raw).1, i.onward core (i.host.dispatch raw).2) := rfl
        rw [Act.on_bind_ok hhost]
        split
        · next message hdispatch =>
            exact begun_ready fun r j h => .replied hcore hread hdispatch h
        · next operation hdispatch =>
            exact ⟨.dispatched raw, core, hcore, .message hdispatch, rfl⟩

theorem begun_read (hcore : i.core.Touched i.exports core)
    (handle outPtr outLen : UInt32) : Serving.Begun i (.streamRead handle outPtr outLen)
      ((Live.beginRead handle outLen).on (i.onward core i.host)) := by
  unfold Live.beginRead
  rw [Act.on_bind_ok (Act.on_read _ _)]
  split
  · next hnone => exact begun_ready fun r j h => .missing hcore rfl hnone h
  · next stream hstream => exact ⟨.none, core, hcore, .read hstream, rfl⟩

theorem begun_write (hcore : i.core.Touched i.exports core)
    (handle inPtr inLen : UInt32) : Serving.Begun i (.streamWrite handle inPtr inLen)
      ((Live.beginWrite handle inPtr inLen).on (i.onward core i.host)) := by
  unfold Live.beginWrite Live.readMemory?
  rw [Act.on_bind_ok (Act.on_read _ _)]
  split
  · next hnone => exact begun_ready fun r j h => .missing hcore rfl hnone h
  · next stream hstream =>
      rw [Act.on_bind_ok (Act.on_read _ _)]
      split
      · exact begun_ready fun r j h => .unreadable hcore hstream h
      · exact ⟨.none, core, hcore, .write hstream, rfl⟩

theorem begun_close (hcore : i.core.Touched i.exports core) (handle : UInt32) :
    Serving.Begun i (.streamClose handle)
      ((Live.beginClose handle).on (i.onward core i.host)) := by
  have hhost : (Live.host fun h => ((h.streams.remove handle).1,
      { h with streams := (h.streams.remove handle).2 })).on (i.onward core i.host) =
        (.ok (i.host.streams.remove handle).1,
          i.onward core
            { i.host with streams := (i.host.streams.remove handle).2 }) := rfl
  unfold Live.beginClose
  rw [Act.on_bind_ok hhost]
  rcases hstream : i.host.streams.get? handle with _ | stream
  · have hremove : i.host.streams.remove handle = (none, i.host.streams) := by
      rw [HandleTable.remove, hstream]
    rw [hremove]
    exact begun_ready fun r j h => .missing hcore rfl hstream h
  · have hremoved : (i.host.streams.remove handle).1 = some stream := by
      rw [HandleTable.remove, hstream]
    rw [hremoved]
    exact ⟨.closed handle, core, hcore, .close hstream, rfl⟩

theorem came_endExchange (hcore : i.core.Touched i.exports core) {value : Resolved}
    (hvalue : i.host.bridge.pending = some (.resolved value))
    (ptr len outPtr outLen : UInt32) :
    Serving.Came i (.messageExchange ptr len outPtr outLen)
      ((Live.endExchange outPtr outLen value).on
        (i.onward core (i.host.withPending none))) := by
  cases value with
  | message completion =>
      have hhost :
          (Live.host fun h => completion.apply h).on
            (i.onward core (i.host.withPending none)) =
            (.ok (completion.apply i.host).1,
              i.onward core ((completion.apply i.host).2.withPending none)) := by
        change (Except.ok (completion.apply (i.host.withPending none)).1,
          i.onward core (completion.apply (i.host.withPending none)).2) = _
        rw [HostState.apply_withPending]
      unfold Live.endExchange
      rw [Act.on_bind_ok hhost]
      exact ⟨.completed completion, .completed hcore hvalue rfl⟩
  | read | write | close => exact ⟨.none, .unrewound hcore hvalue⟩

/-- A call about a stream is finished by an answer, and at most writes into the core's
memory before. -/
theorem came_finish (hcore : i.core.Touched i.exports core) {handle : Handle}
    (hcall : call.stream? = some handle) {value : Resolved}
    (hvalue : i.host.bridge.pending = some (.resolved value)) {finish : Live G UInt64}
    (hfinish : finish.Maintains fun j => ∃ t, i.core.Touched i.exports t ∧
      j = i.onward t (i.host.withPending none)) :
    Serving.Came i call (finish.on (i.onward core (i.host.withPending none))) := by
  obtain ⟨t, ht, hj⟩ := hfinish _ ⟨core, hcore, rfl⟩
  refine ⟨.none, ?_⟩
  rw [hj]
  exact .finished ht hcall hvalue

theorem exists_serving (i : Instance G) (call : ImportCall) :
    ∃ deed, i.Serving call deed ((serve call).on i).1 ((serve call).on i).2 := by
  cases call with
  | messageExchange ptr len outPtr outLen =>
      exact came_hostCall (fun core hcore => begun_exchange hcore ptr len outPtr outLen)
        fun core value hcore hvalue =>
          came_endExchange hcore hvalue ptr len outPtr outLen
  | messageRetrieve handle outPtr outLen =>
      refine came_hostCall (fun core hcore => ?_) fun _ _ hcore hvalue =>
        ⟨.none, .unrewound hcore hvalue⟩
      have hretrieved (r : Except CallError UInt64) (j : Instance G)
          (h : (do Live.answer (← Live.retrieve handle outPtr outLen) :
            Live G UInt64).on (i.onward core i.host) = (r, j)) :
          Serving i (.messageRetrieve handle outPtr outLen) .none r j :=
        .retrieved hcore h
      have hbegun := begun_ready hretrieved
      rwa [bind_assoc] at hbegun
  | streamRead handle outPtr outLen =>
      refine came_hostCall (fun core hcore => begun_read hcore handle outPtr outLen) ?_
      intro core value hcore hvalue
      refine came_finish hcore rfl hvalue (Unbroken.endRead ?_ outPtr value)
      rintro _ memory ⟨t, ht, rfl⟩
      exact ⟨_, ht.memory memory, rfl⟩
  | streamWrite handle inPtr inLen =>
      exact came_hostCall (fun core hcore => begun_write hcore handle inPtr inLen)
        fun core value hcore hvalue =>
          came_finish hcore rfl hvalue (Unbroken.endWrite value)
  | streamClose handle =>
      exact came_hostCall (fun core hcore => begun_close hcore handle)
        fun core value hcore hvalue =>
          came_finish hcore rfl hvalue (Unbroken.endClose value)

def Stored (i j : Instance G) : Prop :=
  ∃ memory messages, j =
    i.onward { i.core with memory := memory } { i.host with messages := messages }

theorem Stored.refl (i : Instance G) : i.Stored i :=
  ⟨i.core.memory, i.host.messages, rfl⟩

theorem storing_stored (i : Instance G) : Storing i.Stored where
  memory := by
    rintro _ memory ⟨_, messages, rfl⟩
    exact ⟨memory, messages, rfl⟩
  stashed := by
    rintro _ bytes ⟨memory, messages, rfl⟩
    exact ⟨memory, (messages.insert bytes).2, rfl⟩
  retrieved := by
    rintro _ handle ⟨memory, messages, rfl⟩
    exact ⟨memory, (messages.remove handle).2, rfl⟩

theorem stored_of_deliver {message : Outgoing} {outPtr outLen : UInt32}
    {r : Except CallError UInt64}
    (h : (Live.deliver message outPtr outLen).on i = (r, j)) : i.Stored j := by
  have hstored := i.storing_stored.deliver message outPtr outLen i (.refl i)
  rw [h] at hstored
  exact hstored

theorem stored_of_retrieve {handle outPtr outLen : UInt32} {r : Except CallError UInt64}
    (h : (do Live.answer (← Live.retrieve handle outPtr outLen) : Live G UInt64).on
      i = (r, j)) :
    i.Stored j := by
  have hstored :
      (do Live.answer (← Live.retrieve handle outPtr outLen) :
        Live G UInt64).Maintains i.Stored :=
    .bind (i.storing_stored.retrieve handle outPtr outLen) fun _ => Unbroken.answer _
  have hj := hstored i (.refl i)
  rw [h] at hj
  exact hj

theorem eq_of_answer {result : Except Errno UInt32} {r : Except CallError UInt64}
    (h : (Live.answer result).on i = (r, j)) : j = i := by
  have hj := Unbroken.answer (p := fun k => k = i) result i rfl
  rw [h] at hj
  exact hj

/-- A call leaves the core as its controls and what is written into its memory
leave it, and the host as some other host leaves it, apart from the bridge and the
stashed replies. -/
def Follows (i : Instance G) (host : HostState) (j : Instance G) : Prop :=
  ∃ core host', i.core.Touched i.exports core ∧ host.Agrees host' ∧
  j = i.onward core host'

theorem Stored.follows {host host' : HostState} (hcore : i.core.Touched i.exports core)
    (hagrees : host.Agrees host') (h : (i.onward core host').Stored j) :
    i.Follows host j := by
  obtain ⟨memory, messages, rfl⟩ := h
  exact ⟨_, { host' with messages := messages }, hcore.memory memory,
    hagrees.trans ⟨rfl, rfl, rfl, rfl, rfl, rfl⟩, rfl⟩

/-- Nothing but the deed is done on the host's side. -/
theorem Serving.follows {deed : Deed} {r : Except CallError UInt64}
    (h : i.Serving call deed r j) : i.Follows (deed.apply i.host) j := by
  cases h with
  | refused hcore => exact ⟨_, _, hcore, .refl _, rfl⟩
  | unrewound hcore | finished hcore =>
      exact ⟨_, _, hcore, i.host.agrees_withPending none, rfl⟩
  | tooLong hcore _ hdeliver =>
      exact (stored_of_deliver hdeliver).follows hcore (.refl _)
  | replied hcore _ _ hdeliver =>
      exact (stored_of_deliver hdeliver).follows hcore (.refl _)
  | completed hcore _ hdeliver =>
      exact (stored_of_deliver hdeliver).follows hcore
        (HostState.agrees_withPending _ none)
  | retrieved hcore hretrieve =>
      exact (stored_of_retrieve hretrieve).follows hcore (.refl _)
  | missing hcore _ _ hanswer | unreadable hcore _ hanswer =>
      exact ⟨_, _, hcore, .refl _, eq_of_answer hanswer⟩
  | parked hcore => exact ⟨_, _, hcore, HostState.agrees_withPending _ _, rfl⟩
  | overlapping hcore => exact ⟨_, _, hcore, .refl _, rfl⟩

end Instance

end Resumable
