import Resumable.Proofs.Host.Replies
import Resumable.Proofs.Host.Tables

namespace Resumable

namespace SuspendState

def raw : SuspendState → Int32
  | .normal => 0
  | .unwinding => 1
  | .rewinding => 2

theorem ofRaw?_eq_some {raw : Int32} {state : SuspendState}
    (h : ofRaw? raw = some state) : raw = state.raw := by
  unfold ofRaw? at h
  split at h
  · next hraw =>
      cases h
      exact hraw
  · split at h
    · next hraw =>
        cases h
        exact hraw
    · split at h
      · next hraw =>
          cases h
          exact hraw
      · cases h

end SuspendState

namespace ImportCall

variable {G : Type}

/-- What a call does when the core runs on by itself. -/
def start : ImportCall → Live G (HostStep UInt64 Deferred)
  | .messageExchange ptr len outPtr outLen => Live.beginExchange ptr len outPtr outLen
  | .messageRetrieve handle outPtr outLen => do
      return .ready (← Live.answer (← Live.retrieve handle outPtr outLen))
  | .streamRead handle _ outLen => Live.beginRead handle outLen
  | .streamWrite handle inPtr inLen => Live.beginWrite handle inPtr inLen
  | .streamClose handle => Live.beginClose handle

/-- What a rewound call does with the value it is resumed with. -/
def finish : ImportCall → Resolved → Live G UInt64
  | .messageExchange _ _ outPtr outLen => Live.endExchange outPtr outLen
  | .messageRetrieve _ _ _ => fun _ => Act.violate .resolvedMismatch
  | .streamRead _ outPtr _ => Live.endRead outPtr
  | .streamWrite _ _ _ => Live.endWrite
  | .streamClose _ => Live.endClose

end ImportCall

def ImportCall.name : ImportCall → String
  | .messageExchange .. => "message_exchange"
  | .messageRetrieve .. => "message_exchange_retrieve"
  | .streamRead .. => "stream_read"
  | .streamWrite .. => "stream_write"
  | .streamClose _ => "stream_close"

def Deferred.caller : Deferred → String
  | .openFile .. | .head _ => "message_exchange"
  | .read .. => "stream_read"
  | .write .. => "stream_write"
  | .close _ => "stream_close"

def Resolved.caller : Resolved → String
  | .message _ => "message_exchange"
  | .read _ => "stream_read"
  | .write _ => "stream_write"
  | .close _ => "stream_close"

namespace Live

variable {G α : Type}
  {call : Exports G → CoreState G → Except Trap α × CoreState G} {value : α}
  {i i' : Instance G}

theorem control_on {core : CoreState G}
    (h : call i.exports i.core = (.ok value, core)) :
    (Live.control call).on i = (.ok value, { i with core := core }) := by
  simp only [Live.control, Act.on, ExceptT.run, StateT.run]
  rw [h]

theorem control_on_ok (h : (Live.control call).on i = (.ok value, i')) :
    call i.exports i.core = (.ok value, i'.core) ∧ i'.exports = i.exports := by
  simp only [Live.control, Act.on, ExceptT.run, StateT.run] at h
  rcases hcall : call i.exports i.core with ⟨trap | answer, core⟩
  · rw [hcall] at h
    cases h
  · rw [hcall] at h
    cases h
    exact ⟨rfl, rfl⟩

theorem control_on_error {e : CallError}
    (h : (Live.control call).on i = (.error e, i')) :
    ∃ cause, call i.exports i.core = (.error cause, i'.core) ∧
    e = .other (.trap cause) := by
  simp only [Live.control, Act.on, ExceptT.run, StateT.run] at h
  rcases hcall : call i.exports i.core with ⟨trap | answer, core⟩
  · rw [hcall] at h
    cases h
    exact ⟨trap, rfl, rfl⟩
  · rw [hcall] at h
    cases h

end Live

namespace Instance

variable {G : Type} {i j : Instance G}

theorem serve_eq (call : ImportCall) :
    (serve call : Live G UInt64) = control.hostCall 0 call.start call.finish := by
  cases call <;> rfl

/-- What comes of a call, by the way it goes. -/
theorem serve_hosted (call : ImportCall) (i : Instance G) :
    control.Hosted 0 call.start call.finish i ((serve call).on i) := by
  rw [serve_eq]
  exact control.hosted 0 call.start call.finish i

theorem getState_of_state_on {state : SuspendState}
    (h : control.state.on i = (.ok state, j)) :
    i.exports.getState i.core = (.ok state.raw, j.core) := by
  rw [Control.state, Act.on_bind] at h
  split at h
  · next raw t htold =>
      split at h
      · next hraw =>
          cases h
          cases SuspendState.ofRaw?_eq_some hraw
          change (Live.control fun x s => x.getState s).on i = _ at htold
          exact (Live.control_on_ok htold).1
      · cases h
  · cases h

theorem state_on_of_getState {state : SuspendState} {core : CoreState G}
    (h : i.exports.getState i.core = (.ok state.raw, core)) :
    control.state.on i = (.ok state, i.onward core i.host) :=
  Control.state_on (Live.control_on h) (by cases state <;> rfl)

def readied : Except CallError UInt64 × Instance G →
    Except CallError (HostStep UInt64 Deferred) × Instance G
  | (r, j) => (r.map .ready, j)

theorem on_ready (step : Live G UInt64) (i : Instance G) :
    (do return HostStep.ready (← step) : Live G (HostStep UInt64 Deferred)).on i =
    readied (step.on i) := by
  rw [Act.on_bind]
  rcases step.on i with ⟨_ | _, _⟩ <;> rfl

theorem readied_snd (outcome : Except CallError UInt64 × Instance G) :
    (readied outcome).2 = outcome.2 := rfl

theorem readied_ne_suspend {outcome : Except CallError UInt64 × Instance G}
    {operation : Deferred} : (readied outcome).1 ≠ .ok (.suspend operation) := by
  obtain ⟨_ | _, _⟩ := outcome <;> exact fun h => nomatch h

/-- How a call starts, by what the core has in its memory and the host in its tables. -/
inductive Starts (i : Instance G) :
    ImportCall → Except CallError (HostStep UInt64 Deferred) × Instance G → Prop where
  | tooLong {ptr len outPtr outLen : UInt32}
      (hlong : i.host.config.maxMessageBytes < len.toNat) :
      Starts i (.messageExchange ptr len outPtr outLen)
        (readied ((Live.deliver (.tooLarge len.toNat i.host.config.maxMessageBytes)
          outPtr outLen).on i))
  | outside {ptr len outPtr outLen : UInt32}
      (hlen : len.toNat ≤ i.host.config.maxMessageBytes)
      (hread : i.core.memory.read? ptr.toNat len.toNat = none) :
      Starts i (.messageExchange ptr len outPtr outLen)
        (.error (.other .messageOutside), i)
  | replied {ptr len outPtr outLen : UInt32} {raw : ByteArray} {message : Outgoing}
      (hlen : len.toNat ≤ i.host.config.maxMessageBytes)
      (hread : i.core.memory.read? ptr.toNat len.toNat = some raw)
      (hdispatch : (i.host.dispatch raw).1 = .reply message) :
      Starts i (.messageExchange ptr len outPtr outLen)
        (readied ((Live.deliver message outPtr outLen).on
          (i.onward i.core (i.host.dispatch raw).2)))
  | deferred {ptr len outPtr outLen : UInt32} {raw : ByteArray} {operation : Deferred}
      (hlen : len.toNat ≤ i.host.config.maxMessageBytes)
      (hread : i.core.memory.read? ptr.toNat len.toNat = some raw)
      (hdispatch : (i.host.dispatch raw).1 = .deferred operation) :
      Starts i (.messageExchange ptr len outPtr outLen)
        (.ok (.suspend operation), i.onward i.core (i.host.dispatch raw).2)
  | retrieved {handle outPtr outLen : UInt32} :
      Starts i (.messageRetrieve handle outPtr outLen)
        (readied
          ((do Live.answer (← Live.retrieve handle outPtr outLen) : Live G UInt64).on i))
  | missing {call : ImportCall} {handle : Handle} (hcall : call.stream? = some handle)
      (hnone : i.host.streams.get? handle = none) :
      Starts i call (readied ((Live.answer (.error .badF)).on i))
  | unreadable {handle inPtr inLen : UInt32} {stream : Stream}
      (hstream : i.host.streams.get? handle = some stream)
      (hread : i.core.memory.read? inPtr.toNat inLen.toNat = none) :
      Starts i (.streamWrite handle inPtr inLen)
        (readied ((Live.answer (.error .fault)).on i))
  | read {handle outPtr outLen : UInt32} {stream : Stream}
      (hstream : i.host.streams.get? handle = some stream) :
      Starts i (.streamRead handle outPtr outLen)
        (.ok (.suspend (.read handle stream (Live.readLimit outLen i.host.config))), i)
  | write {handle inPtr inLen : UInt32} {stream : Stream} {bytes : ByteArray}
      (hstream : i.host.streams.get? handle = some stream)
      (hread : i.core.memory.read? inPtr.toNat inLen.toNat = some bytes) :
      Starts i (.streamWrite handle inPtr inLen)
        (.ok (.suspend (.write stream bytes)), i)
  | close {handle : UInt32} {stream : Stream}
      (hstream : i.host.streams.get? handle = some stream) :
      Starts i (.streamClose handle) (.ok (.suspend (.close stream)),
        i.onward i.core { i.host with streams := (i.host.streams.remove handle).2 })

/-- A call that is answered as it starts is answered with just that. -/
theorem serve_of_readied {call : ImportCall} {core : CoreState G}
    {r : Except CallError UInt64} {j : Instance G}
    (htold : i.exports.getState i.core = (.ok SuspendState.normal.raw, core))
    (hstart : call.start.on (i.onward core i.host) = readied (r, j)) :
    (serve call).on i = (r, j) := by
  have hnormal := state_on_of_getState htold
  rw [serve_eq]
  cases r with
  | ok word => exact Control.hostCall_ready hnormal hstart
  | error e => exact Control.hostCall_start_error hnormal hstart

/-- A rewound call is finished with the value in the slot once the rewinding has
been stopped. -/
theorem serve_of_rewound {call : ImportCall} {value : Resolved}
    {core core' : CoreState G}
    (htold : i.exports.getState i.core = (.ok SuspendState.rewinding.raw, core))
    (hvalue : i.host.bridge.pending = some (.resolved value))
    (hstop : i.exports.stopRewind core = (.ok (), core')) : (serve call).on i =
    (call.finish value).on (i.onward core' (i.host.withPending none)) := by
  have hrewound : control.stopRewind.on (i.onward core (i.host.withPending none)) =
      (.ok (), i.onward core' (i.host.withPending none)) := by
    change (Live.control fun x s => x.stopRewind s).on _ = _
    exact Live.control_on hstop
  rw [serve_eq]
  exact Control.hostCall_rewinding (state_on_of_getState htold) hvalue hrewound

theorem starts_exchange (i : Instance G) (ptr len outPtr outLen : UInt32) :
    i.Starts (.messageExchange ptr len outPtr outLen)
      ((Live.beginExchange ptr len outPtr outLen).on i) := by
  unfold Live.beginExchange Live.config
  rw [Act.on_bind_ok (Act.on_read _ _)]
  dsimp only
  split
  · next hlong =>
      have hstarts : i.Starts (.messageExchange ptr len outPtr outLen) _ :=
        .tooLong hlong
      -- The step is made a variable, since unfolding it would write the
      -- whole message out.
      generalize Live.deliver (.tooLarge len.toNat i.host.config.maxMessageBytes)
        outPtr outLen = step at hstarts ⊢
      rwa [on_ready]
  · next hlen =>
      rw [Live.readMemory?, Act.on_bind_ok (Act.on_read _ _)]
      split
      · next hread => exact .outside (Nat.not_lt.mp hlen) hread
      · next raw hread =>
          have hhost : (Live.host fun h => h.dispatch raw).on i =
              (.ok (i.host.dispatch raw).1,
                i.onward i.core (i.host.dispatch raw).2) := rfl
          rw [Act.on_bind_ok hhost]
          split
          · next message hdispatch =>
              rw [on_ready]
              exact .replied (Nat.not_lt.mp hlen) hread hdispatch
          · next operation hdispatch =>
              exact .deferred (Nat.not_lt.mp hlen) hread hdispatch

theorem starts (call : ImportCall) (i : Instance G) :
    i.Starts call (call.start.on i) := by
  cases call with
  | messageExchange ptr len outPtr outLen =>
      exact i.starts_exchange ptr len outPtr outLen
  | messageRetrieve handle outPtr outLen =>
      have hstarts : i.Starts (.messageRetrieve handle outPtr outLen) _ := .retrieved
      rwa [← on_ready, bind_assoc] at hstarts
  | streamRead handle outPtr outLen =>
      unfold ImportCall.start Live.beginRead
      rw [Act.on_bind_ok (Act.on_read _ _)]
      split
      · next hnone =>
          rw [on_ready]
          exact .missing rfl hnone
      · next stream hstream => exact .read hstream
  | streamWrite handle inPtr inLen =>
      unfold ImportCall.start Live.beginWrite Live.readMemory?
      rw [Act.on_bind_ok (Act.on_read _ _)]
      split
      · next hnone =>
          rw [on_ready]
          exact .missing rfl hnone
      · next stream hstream =>
          rw [Act.on_bind_ok (Act.on_read _ _)]
          split
          · next hread =>
              rw [on_ready]
              exact .unreadable hstream hread
          · next bytes hread => exact .write hstream hread
  | streamClose handle =>
      have hhost : (Live.host fun h => ((h.streams.remove handle).1,
          { h with streams := (h.streams.remove handle).2 })).on i =
            (.ok (i.host.streams.remove handle).1,
              i.onward i.core
                { i.host with streams := (i.host.streams.remove handle).2 }) := rfl
      unfold ImportCall.start Live.beginClose
      rw [Act.on_bind_ok hhost]
      rcases hstream : i.host.streams.get? handle with _ | stream
      · have hremove : i.host.streams.remove handle = (none, i.host.streams) := by
          rw [HandleTable.remove, hstream]
        rw [hremove, on_ready]
        exact .missing rfl hstream
      · have hremoved : (i.host.streams.remove handle).1 = some stream := by
          rw [HandleTable.remove, hstream]
        rw [hremoved]
        exact .close hstream

/-- What a call may wait for. -/
inductive Awaits (i : Instance G) : ImportCall → Deferred → Prop where
  | openFile {ptr len outPtr outLen : UInt32} {path : String} {flags : OpenFlags} :
      Awaits i (.messageExchange ptr len outPtr outLen) (.openFile path flags)
  | head {ptr len outPtr outLen : UInt32} {ticket : Nat} :
      Awaits i (.messageExchange ptr len outPtr outLen) (.head ticket)
  | read {handle outPtr outLen : UInt32} {stream : Stream} :
      Awaits i (.streamRead handle outPtr outLen)
        (.read handle stream (Live.readLimit outLen i.host.config))
  | write {handle inPtr inLen : UInt32} {stream : Stream} {bytes : ByteArray}
      (hsize : bytes.size = inLen.toNat) :
      Awaits i (.streamWrite handle inPtr inLen) (.write stream bytes)
  | close {handle : UInt32} {stream : Stream} :
      Awaits i (.streamClose handle) (.close stream)

theorem awaits_of_start {call : ImportCall} {operation : Deferred}
    (h : (call.start.on i).1 = .ok (.suspend operation)) : i.Awaits call operation := by
  have hstarts := starts call i
  generalize call.start.on i = outcome at h hstarts
  cases hstarts with
  | tooLong | replied | retrieved | missing | unreadable =>
      exact absurd h readied_ne_suspend
  | outside => cases h
  | deferred _ _ hdispatch =>
      cases h
      obtain ⟨_, _, _, rfl⟩ | ⟨_, _, _, _, rfl, _⟩ :=
        HostState.dispatch_deferred hdispatch
      · exact .openFile
      · exact .head
  | read =>
      cases h
      exact .read
  | write _ hread =>
      cases h
      exact .write (Memory.size_of_read? hread)
  | close =>
      cases h
      exact .close

/-- How a call is finished, by the value it is resumed with. A value that is not one
of its own is refused. -/
inductive Finishes (i : Instance G) :
    ImportCall → Resolved → Except CallError UInt64 × Instance G → Prop where
  | completed {ptr len outPtr outLen : UInt32} {completion : Completion} :
      Finishes i (.messageExchange ptr len outPtr outLen) (.message completion)
        ((Live.deliver (completion.apply i.host).1 outPtr outLen).on
          (i.onward i.core (completion.apply i.host).2))
  | read {handle outPtr outLen : UInt32} {bytes : ByteArray} {memory : Memory}
      (hwrite : i.core.memory.write? outPtr.toNat bytes = some memory) :
      Finishes i (.streamRead handle outPtr outLen) (.read (.ok bytes))
        ((Live.answer (.ok (UInt32.ofNat bytes.size))).on (i.withMemory memory))
  | outside {handle outPtr outLen : UInt32} {bytes : ByteArray}
      (hwrite : i.core.memory.write? outPtr.toNat bytes = none) :
      Finishes i (.streamRead handle outPtr outLen) (.read (.ok bytes))
        ((Live.answer (.error .fault)).on i)
  | unread {handle outPtr outLen : UInt32} {errno : Errno} :
      Finishes i (.streamRead handle outPtr outLen) (.read (.error errno))
        ((Live.answer (.error errno)).on i)
  | written {handle inPtr inLen : UInt32} {result : Except Errno Nat} :
      Finishes i (.streamWrite handle inPtr inLen) (.write result)
        ((Live.answer (result.map UInt32.ofNat)).on i)
  | closed {handle : UInt32} {result : Except Errno Unit} :
      Finishes i (.streamClose handle) (.close result)
        ((Live.answer (result.map fun _ => 0)).on i)
  | mismatched {call : ImportCall} {value : Resolved}
      (hother : value.caller ≠ call.name) :
      Finishes i call value (.error (.violation .resolvedMismatch), i)

/-- A call of another import refuses the value before it does anything. -/
theorem finish_of_ne {call : ImportCall} {value : Resolved}
    (h : value.caller ≠ call.name) :
    (call.finish value : Live G UInt64) = Act.violate .resolvedMismatch := by
  cases call <;> cases value <;> first | rfl | exact absurd rfl h

theorem finishes (call : ImportCall) (value : Resolved) (i : Instance G) :
    i.Finishes call value ((call.finish value).on i) := by
  by_cases hown : value.caller = call.name
  · cases call with
    | messageRetrieve => cases value <;> simp [Resolved.caller, ImportCall.name] at hown
    | messageExchange ptr len outPtr outLen =>
        cases value with
        | message completion =>
            have hhost : (Live.host fun h => completion.apply h).on i =
                (.ok (completion.apply i.host).1,
                  i.onward i.core (completion.apply i.host).2) := rfl
            unfold ImportCall.finish Live.endExchange
            rw [Act.on_bind_ok hhost]
            exact .completed
        | read | write | close => simp [Resolved.caller, ImportCall.name] at hown
    | streamRead handle outPtr outLen =>
        rcases value with _ | (errno | bytes) | _ | _
        · simp [Resolved.caller, ImportCall.name] at hown
        · exact .unread
        · unfold ImportCall.finish Live.endRead
          dsimp only
          rcases hwrite : i.core.memory.write? outPtr.toNat bytes with _ | memory
          · rw [Act.on_bind_ok (Live.on_writeMemory_none hwrite)]
            exact .outside hwrite
          · rw [Act.on_bind_ok (Live.on_writeMemory_some hwrite)]
            exact .read hwrite
        all_goals simp [Resolved.caller, ImportCall.name] at hown
    | streamWrite =>
        cases value with
        | write result => exact .written
        | message | read | close => simp [Resolved.caller, ImportCall.name] at hown
    | streamClose =>
        cases value with
        | close result => exact .closed
        | message | read | write => simp [Resolved.caller, ImportCall.name] at hown
  · rw [finish_of_ne hown]
    exact .mismatched hown

def told (i : Instance G) : Instance G := i.onward (i.exports.getState i.core).2 i.host

def parking (i : Instance G) (operation : Deferred) : Instance G :=
  i.onward (i.exports.startUnwind i.host.config.asyncifyDataAddr i.core).2
    (i.host.withPending (some (.inFlight operation)))

/-- How an import call goes. Apart from its two halves nothing is asked of the core
but its own controls. -/
inductive Course (i : Instance G) (call : ImportCall) :
    Except CallError UInt64 → Instance G → Prop where
  | refused {e : CallError}
      (hs : (control.state.on i).1 ≠ .ok .normal ∧
        (control.state.on i).1 ≠ .ok .rewinding) :
      Course i call (.error e) i.told
  | started {answer : Except CallError UInt64} {j : Instance G}
      (hs : (control.state.on i).1 = .ok .normal)
      (hstart : call.start.on i.told = readied (answer, j)) : Course i call answer j
  | overlapping {operation : Deferred} {pending : Pending Deferred Resolved}
      {j : Instance G} (hs : (control.state.on i).1 = .ok .normal)
      (hstart : call.start.on i.told = (.ok (.suspend operation), j))
      (hbusy : j.host.bridge.pending = some pending) :
      Course i call (.error (.violation .overlappingSuspension)) j
  | parked {operation : Deferred} {answer : Except CallError UInt64} {j : Instance G}
      (hs : (control.state.on i).1 = .ok .normal)
      (hstart : call.start.on i.told = (.ok (.suspend operation), j))
      (hidle : j.host.bridge.pending = none) :
      Course i call answer (j.parking operation)
  | unresolved (hs : (control.state.on i).1 = .ok .rewinding)
      (hnone : ∀ value, i.host.bridge.pending ≠ some (.resolved value)) :
      Course i call (.error (.violation .nothingResolved)) i.told
  | unstopped {value : Resolved} {cause : Trap} {core : CoreState G}
      (hs : (control.state.on i).1 = .ok .rewinding)
      (hvalue : i.host.bridge.pending = some (.resolved value))
      (hstop : i.exports.stopRewind i.told.core = (.error cause, core)) :
      Course i call (.error (.other (.trap cause)))
        (i.onward core (i.host.withPending none))
  | finished {value : Resolved} {core : CoreState G}
      {answer : Except CallError UInt64} {j : Instance G}
      (hs : (control.state.on i).1 = .ok .rewinding)
      (hvalue : i.host.bridge.pending = some (.resolved value))
      (hstop : i.exports.stopRewind i.told.core = (.ok (), core))
      (hfinish : (call.finish value).on (i.onward core (i.host.withPending none)) =
        (answer, j)) : Course i call answer j

variable {call : ImportCall} {answer : Except CallError UInt64}

theorem course_of_serve (hserve : (serve call).on i = (answer, j)) :
    i.Course call answer j := by
  have hhosted := serve_hosted call i
  rw [hserve] at hhosted
  generalize hout : (answer, j) = outcome at hhosted
  cases hhosted with
  | unknown hs | unwinding hs =>
      cases hout
      cases state_on_snd hs
      exact .refused (by simp [hs])
  | failed hs hstart | ready hs hstart =>
      cases hout
      cases state_on_snd hs
      exact .started (congrArg Prod.fst hs) hstart
  | overlapping hs hstart hbusy =>
      cases hout
      cases state_on_snd hs
      exact .overlapping (congrArg Prod.fst hs) hstart hbusy
  | @parked _ _ _ k _ hs hstart hidle hunwind =>
      cases hout
      cases state_on_snd hs
      cases startUnwind_on_snd hunwind
      exact Course.parked (j := k) (congrArg Prod.fst hs) hstart hidle
  | unresolved hs hnone =>
      cases hout
      cases state_on_snd hs
      exact .unresolved (congrArg Prod.fst hs) hnone
  | unrewound hs hvalue hstop =>
      cases hout
      cases state_on_snd hs
      cases stopRewind_on_snd hstop
      change (Live.control fun x s => x.stopRewind s).on _ = _ at hstop
      obtain ⟨cause, hcore, rfl⟩ := Live.control_on_error hstop
      exact .unstopped (congrArg Prod.fst hs) hvalue hcore
  | rewound hs hvalue hstop =>
      cases state_on_snd hs
      cases stopRewind_on_snd hstop
      change (Live.control fun x s => x.stopRewind s).on _ = _ at hstop
      exact .finished (congrArg Prod.fst hs) hvalue
        (Live.control_on_ok hstop).1 hout.symm

theorem deliver_bridge (message : Outgoing) (outPtr outLen : UInt32) (i : Instance G) :
    ((Live.deliver message outPtr outLen).on i).2.host.bridge = i.host.bridge :=
  (stored_of_deliver rfl).bridge

/-- The start of a call leaves the slot alone. -/
theorem start_bridge (call : ImportCall) (i : Instance G) :
    (call.start.on i).2.host.bridge = i.host.bridge := by
  have hstarts := starts call i
  generalize call.start.on i = outcome at hstarts
  cases hstarts with
  | outside | read | write | close => rfl
  | deferred => exact i.host.dispatch_bridge _
  | tooLong => rw [readied_snd, deliver_bridge]
  | replied =>
      rw [readied_snd, deliver_bridge]
      exact i.host.dispatch_bridge _
  | retrieved => exact (stored_of_retrieve rfl).bridge
  | missing | unreadable => rw [readied_snd, Live.on_answer_snd]

theorem start_of_parked {operation : Deferred}
    (hserve : (serve call).on i = (answer, j)) (hidle : i.host.bridge.pending = none)
    (hparked : j.host.bridge.pending = some (.inFlight operation)) :
    (call.start.on i.told).1 = .ok (.suspend operation) := by
  have hbridge := start_bridge call i.told
  cases course_of_serve hserve with
  | refused | unresolved => cases hidle.symm.trans hparked
  | started _ hstart | overlapping _ hstart =>
      rw [hstart] at hbridge
      have hkept : j.host.bridge = i.host.bridge := hbridge
      rw [hkept] at hparked
      cases hidle.symm.trans hparked
  | parked _ hstart =>
      cases hparked
      exact congrArg Prod.fst hstart
  | unstopped _ hvalue | finished _ hvalue => cases hidle.symm.trans hvalue

end Instance

end Resumable
