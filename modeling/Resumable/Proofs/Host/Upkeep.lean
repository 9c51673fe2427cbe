import Resumable.Host.Call
import Resumable.Proofs.Bridge.Upkeep

namespace Resumable

namespace HostState

variable {h h' : HostState}

/-- The two agree on the settings and on the stashed replies. -/
structure SameReplies (h h' : HostState) : Prop where
  config : h'.config = h.config
  messages : h'.messages = h.messages

theorem SameReplies.refl (h : HostState) : h.SameReplies h := ⟨rfl, rfl⟩

theorem reportOutcome_sameReplies (h : HostState) (outcome : Outcome) :
    h.SameReplies (h.reportOutcome outcome).2 := by
  unfold reportOutcome
  split
  · exact .refl h
  · split
    · exact ⟨rfl, rfl⟩
    · exact .refl h

theorem callHttp_sameReplies (h : HostState) (request : HttpRequest) :
    h.SameReplies (h.callHttp request).2 := by
  unfold callHttp
  dsimp only
  split <;> exact ⟨rfl, rfl⟩

theorem claimHead_sameReplies (h : HostState) (handle : Handle) :
    h.SameReplies (h.claimHead handle).2 := by
  unfold claimHead
  split
  · exact ⟨rfl, rfl⟩
  · exact .refl h

theorem handle_sameReplies (h : HostState) (message : Incoming) :
    h.SameReplies (h.handle message).2 := by
  cases message with
  | performInput =>
      unfold handle
      cases h.perform <;> exact .refl h
  | outputResult result => exact h.reportOutcome_sameReplies _
  | outputError error => exact h.reportOutcome_sameReplies _
  | outputException exception => exact h.reportOutcome_sameReplies _
  | fileOpen path flags => exact .refl h
  | httpCall request => exact h.callHttp_sameReplies request
  | httpCallHead handle => exact h.claimHead_sameReplies handle
  | unknown kind => exact .refl h

theorem dispatch_sameReplies (h : HostState) (raw : ByteArray) :
    h.SameReplies (h.dispatch raw).2 := by
  unfold dispatch
  split
  · exact .refl h
  · split
    · exact .refl h
    · exact h.handle_sameReplies _

theorem addStream_sameReplies (h : HostState) (stream : Stream)
    (reply : Handle → Outgoing) : h.SameReplies (h.addStream stream reply).2 := by
  unfold addStream
  split
  · exact ⟨rfl, rfl⟩
  · exact .refl h

theorem apply_sameReplies (h : HostState) (completion : Completion) :
    h.SameReplies (completion.apply h).2 := by
  rcases completion with (errno | file) | (error | head)
  · exact .refl h
  · exact h.addStream_sameReplies _ _
  · exact .refl h
  · exact h.addStream_sameReplies _ _

theorem ends_flush (ends : h.flush.Ends h') : h' = { h with outbox := [] } := by
  obtain ⟨_, _, ends⟩ := Task.ends_bind.mp ends
  exact ends

end HostState

namespace Deferred

theorem serve_sameReplies {fuel : Nat} {h h' : HostState} {operation : Deferred}
    {value : Resolved} (ends : (operation.serve fuel h).Ends (value, h')) :
    h.SameReplies h' := by
  cases operation with
  | openFile | head | write | close =>
      obtain ⟨_, _, ends⟩ := Task.ends_bind.mp ends
      cases ends
      exact .refl h
  | read =>
      obtain ⟨_, _, ends⟩ := Task.ends_bind.mp ends
      cases ends
      exact ⟨rfl, rfl⟩

end Deferred

namespace Instance

variable {G α R : Type} {p : Instance G → Prop} {i i' : Instance G}

/-- A condition that the controls of a core cannot break, nor the host apart from
settings and replies. -/
structure Enduring (p : Instance G → Prop) : Prop where
  upholds : control.Upholds p
  host : ∀ (i : Instance G) h, i.host.SameReplies h → p i → p { i with host := h }

/-- A condition that no core can break, nor the host by anything it does for one. -/
structure Unbroken (p : Instance G → Prop) : Prop where
  core : ∀ (i : Instance G) core, p i → p { i with core := core }
  host : ∀ (i : Instance G) h, i.host.SameReplies h → p i → p { i with host := h }
  deliver : ∀ message outPtr outLen,
    (Live.deliver message outPtr outLen : Live G UInt64).Maintains p
  retrieve : ∀ handle outPtr outLen,
    (Live.retrieve handle outPtr outLen : Live G (Except Errno UInt32)).Maintains p

/-- A condition that the host cannot break by what it writes into a core's memory,
stores or forgets. -/
structure Storing (p : Instance G → Prop) : Prop where
  memory : ∀ (i : Instance G) memory, p i →
    p { i with core := { i.core with memory := memory } }
  stashed : ∀ (i : Instance G) bytes, p i →
    p { i with host := { i.host with messages := (i.host.messages.insert bytes).2 } }
  retrieved : ∀ (i : Instance G) handle, p i →
    p { i with host := { i.host with messages := (i.host.messages.remove handle).2 } }

/-- A condition that no core can break, nor the host by anything it stores
or forgets. -/
structure Lasting (p : Instance G → Prop) : Prop where
  core : ∀ (i : Instance G) core, p i → p { i with core := core }
  host : ∀ (i : Instance G) h, i.host.SameReplies h → p i → p { i with host := h }
  stashed : ∀ (i : Instance G) bytes, p i →
    p { i with host := { i.host with messages := (i.host.messages.insert bytes).2 } }
  retrieved : ∀ (i : Instance G) handle, p i →
    p { i with host := { i.host with messages := (i.host.messages.remove handle).2 } }

namespace Unbroken

theorem control (h : Unbroken p)
    (call : Exports G → CoreState G → Except Trap α × CoreState G) :
    (Live.control call).Maintains p :=
  fun i hi => h.core i _ hi

theorem onHost (h : Unbroken p) {f : HostState → α × HostState}
    (hf : ∀ s : HostState, s.SameReplies (f s).2) :
    (Live.host f : Live G α).Maintains p :=
  fun i hi => h.host i _ (hf i.host) hi

theorem writeMemory
    (hmemory : ∀ (i : Instance G) memory, p i →
      p { i with core := { i.core with memory := memory } })
    (ptr : UInt32) (bytes : ByteArray) :
    (Live.writeMemory ptr bytes : Live G Bool).Maintains p := by
  intro i hi
  simp only [Live.writeMemory, Act.on, ExceptT.run, StateT.run]
  split
  · exact hmemory i _ hi
  · exact hi

theorem ofAbi (r : Except AbiError UInt64) :
    (Live.ofAbi r : Live G UInt64).Maintains p := by
  unfold Live.ofAbi
  split
  · exact .pure _
  · exact .fail _

theorem answer (r : Except Errno UInt32) :
    (Live.answer r : Live G UInt64).Maintains p :=
  .bind (.read _) fun _ => ofAbi _

theorem memory (h : Unbroken p) (i : Instance G) (memory : Memory) (hi : p i) :
    p { i with core := { i.core with memory := memory } } :=
  h.core i _ hi

theorem upholds (h : Unbroken p) : Instance.control.Upholds p where
  rawState := h.control _
  startUnwind := .bind (.read _) fun _ => h.control _
  stopUnwind := h.control _
  startRewind := .bind (.read _) fun _ => h.control _
  stopRewind := h.control _
  resetData := .bind (.read _) fun _ => .bind (writeMemory h.memory _ _) fun _ =>
    .ite (.fail _) (.pure _)
  setBridge := fun _ i hi => h.host i _ ⟨rfl, rfl⟩ hi

theorem enduring (h : Unbroken p) : Enduring p := ⟨h.upholds, h.host⟩

theorem beginExchange (h : Unbroken p) (ptr len outPtr outLen : UInt32) :
    (Live.beginExchange ptr len outPtr outLen : Live G _).Maintains p := by
  refine .bind (.read _) fun config => ?_
  refine .ite (.bind (h.deliver _ _ _) fun _ => .pure _) (.bind (.read _) fun raw => ?_)
  cases raw with
  | none => exact .fail _
  | some raw =>
      refine .bind (h.onHost fun s => s.dispatch_sameReplies raw) fun dispatched => ?_
      cases dispatched with
      | reply message => exact .bind (h.deliver _ _ _) fun _ => .pure _
      | deferred operation => exact .pure _

theorem endExchange (h : Unbroken p) (outPtr outLen : UInt32) (value : Resolved) :
    (Live.endExchange outPtr outLen value : Live G UInt64).Maintains p := by
  cases value with
  | message completion =>
      exact .bind (h.onHost fun s => s.apply_sameReplies completion) fun _ =>
        h.deliver _ _ _
  | read | write | close => exact .violate _

theorem beginRead (handle outLen : UInt32) :
    (Live.beginRead handle outLen : Live G _).Maintains p := by
  refine .bind (.read _) fun stream => ?_
  cases stream with
  | none => exact .bind (answer _) fun _ => .pure _
  | some stream => exact .bind (.read _) fun _ => .pure _

theorem endRead
    (hmemory : ∀ (i : Instance G) memory, p i →
      p { i with core := { i.core with memory := memory } })
    (outPtr : UInt32) (value : Resolved) :
    (Live.endRead outPtr value : Live G UInt64).Maintains p := by
  rcases value with _ | (errno | bytes) | _ | _
  · exact .violate _
  · exact answer _
  · exact .bind (writeMemory hmemory _ _) fun _ => .ite (answer _) (answer _)
  · exact .violate _
  · exact .violate _

theorem beginWrite (handle inPtr inLen : UInt32) :
    (Live.beginWrite handle inPtr inLen : Live G _).Maintains p := by
  refine .bind (.read _) fun stream => ?_
  cases stream with
  | none => exact .bind (answer _) fun _ => .pure _
  | some stream =>
      refine .bind (.read _) fun bytes => ?_
      cases bytes with
      | none => exact .bind (answer _) fun _ => .pure _
      | some bytes => exact .pure _

theorem endWrite (value : Resolved) :
    (Live.endWrite value : Live G UInt64).Maintains p := by
  cases value with
  | write result => exact answer _
  | message | read | close => exact .violate _

theorem beginClose (h : Unbroken p) (handle : UInt32) :
    (Live.beginClose handle : Live G _).Maintains p := by
  refine .bind (h.onHost fun s => ⟨rfl, rfl⟩) fun stream => ?_
  cases stream with
  | none => exact .bind (answer _) fun _ => .pure _
  | some stream => exact .pure _

theorem endClose (value : Resolved) :
    (Live.endClose value : Live G UInt64).Maintains p := by
  cases value with
  | close result => exact answer _
  | message | read | write => exact .violate _

theorem serve (h : Unbroken p) (call : ImportCall) :
    (serve call : Live G UInt64).Maintains p := by
  cases call with
  | messageExchange ptr len outPtr outLen =>
      exact h.upholds.hostCall 0 (h.beginExchange _ _ _ _) (h.endExchange _ _)
  | messageRetrieve handle outPtr outLen =>
      refine h.upholds.hostCall 0 ?_ fun _ => .violate _
      exact .bind (h.retrieve _ _ _) fun _ => .bind (answer _) fun _ => .pure _
  | streamRead handle outPtr outLen =>
      exact h.upholds.hostCall 0 (beginRead _ _) (endRead h.memory _)
  | streamWrite handle inPtr inLen =>
      exact h.upholds.hostCall 0 (beginWrite _ _ _) endWrite
  | streamClose handle => exact h.upholds.hostCall 0 (h.beginClose _) endClose

theorem run (h : Unbroken p) (a : Activation G R) :
    (run Instance.serve a).Maintains p := by
  induction a with
  | finish core value => exact .bind (.modify fun i => h.core i core) fun _ => .pure _
  | trap core trap => exact .bind (.modify fun i => h.core i core) fun _ => .fail _
  | call core request resume ih =>
      refine .bind (.modify fun i => h.core i core) fun _ => ?_
      exact .bind (h.serve request) fun word => .bind (.read _) fun core => ih core word
  | remark line rest ih =>
      exact .bind (.modify fun i => h.host i _ ⟨rfl, rfl⟩) fun _ => ih

theorem invoke (h : Unbroken p) (entry : Exports G → CoreState G → Activation G R) :
    (invoke entry).Maintains p :=
  .bind (.read _) fun _ => h.run _

end Unbroken

namespace Storing

theorem stash (h : Storing p) (bytes : ByteArray) :
    (Live.stash bytes : Live G Handle).Maintains p := by
  refine .bind (fun i hi => h.stashed i bytes hi) fun handle => ?_
  cases handle with
  | none => exact .fail _
  | some handle => exact .pure _

theorem writeInline (h : Storing p) (bytes : ByteArray) (outPtr : UInt32) :
    (Live.writeInline bytes outPtr : Live G Handle).Maintains p := by
  refine .bind (Unbroken.writeMemory h.memory _ _) fun written => ?_
  exact .ite (.bind (.fail _) fun _ => .pure _) (.pure _)

theorem deliver (h : Storing p) (message : Outgoing) (outPtr outLen : UInt32) :
    (Live.deliver message outPtr outLen : Live G UInt64).Maintains p := by
  have hanswer (handle : Handle) : (do
      Live.ofAbi (Pair.encode (← Live.config).pairEncoding
        ⟨UInt32.ofNat message.encode.size, handle⟩) : Live G UInt64).Maintains p :=
    .bind (.read _) fun _ => Unbroken.ofAbi _
  have hrest := Act.Maintains.ite (c := UInt32.ofNat message.encode.size ≤ outLen)
    (.bind (h.writeInline message.encode outPtr) hanswer)
    (.bind (h.stash message.encode) hanswer)
  exact .ite (.bind (.fail _) fun _ => hrest) hrest

theorem retrieve (h : Storing p) (handle outPtr outLen : UInt32) :
    (Live.retrieve handle outPtr outLen : Live G (Except Errno UInt32)).Maintains
      p := by
  refine .bind (.read _) fun bytes => ?_
  cases bytes with
  | none => exact .pure _
  | some bytes =>
      refine .ite (.pure _)
        (.bind (Unbroken.writeMemory h.memory _ _) fun written => ?_)
      exact .ite (.pure _)
        (.bind (fun i hi => h.retrieved i handle hi) fun _ => .pure _)

end Storing

namespace Lasting

theorem storing (h : Lasting p) : Storing p :=
  ⟨fun i _ hi => h.core i _ hi, h.stashed, h.retrieved⟩

theorem unbroken (h : Lasting p) : Unbroken p :=
  ⟨h.core, h.host, h.storing.deliver, h.storing.retrieve⟩

theorem upholds (h : Lasting p) : Instance.control.Upholds p := h.unbroken.upholds

theorem invoke (h : Lasting p) (entry : Exports G → CoreState G → Activation G R) :
    (invoke entry).Maintains p :=
  h.unbroken.invoke entry

end Lasting

theorem ends_flush (h : i.flush.Ends i') :
    i' = { i with host := { i.host with outbox := [] } } := by
  obtain ⟨host, hhost, h⟩ := Task.ends_bind.mp h
  cases HostState.ends_flush hhost
  exact h

namespace Enduring

theorem flush (h : Enduring p) (hi : p i) (ends : i.flush.Ends i') : p i' := by
  cases ends_flush ends
  exact h.host i _ ⟨rfl, rfl⟩ hi

theorem act (h : Enduring p) {step : Live G α} {r : Except CallError α}
    (hstep : step.Maintains p) (hi : p i) (ends : (i.act step).Ends (r, i')) :
    p i' := by
  obtain ⟨j, hflush, ends⟩ := Task.ends_bind.mp ends
  cases ends
  exact h.flush (hstep i hi) hflush

theorem await (h : Enduring p) {fuel : Nat} {operation : Deferred}
    {value : Resolved} (hi : p i) (ends : (i.await fuel operation).Ends (value, i')) :
    p i' := by
  obtain ⟨host, hflush, ends⟩ := Task.ends_bind.mp ends
  cases HostState.ends_flush hflush
  obtain ⟨⟨v, host'⟩, hserve, ends⟩ := Task.ends_bind.mp ends
  have hsame := Deferred.serve_sameReplies hserve
  cases ends
  exact h.host i _ ⟨hsame.config, hsame.messages⟩ hi

theorem call (h : Enduring p) {fuel : Nat}
    {entry : Exports G → CoreState G → Activation G Unit} {r : Except CallError Unit}
    (hentry : (invoke entry).Maintains p) (hi : p i)
    (ends : (i.call fuel entry).Ends (r, i')) : p i' := by
  obtain ⟨outcome, hrun, ends⟩ := Task.ends_bind.mp ends
  obtain ⟨⟨result, j⟩, houtcome, ends⟩ := Task.ends_bind.mp ends
  rw [Task.ends_ofOption.mp houtcome] at hrun
  obtain ⟨k, hflush, ends⟩ := Task.ends_bind.mp ends
  cases ends
  have hj : p j := h.upholds.run hentry (fun _ _ _ _ => h.await) fuel hi hrun
  exact h.flush hj hflush

theorem perform (h : Enduring p) {fuel : Nat} {request : PerformRequest}
    {r : Except CallError PerformState}
    (hentry : (invoke fun x s => x.perform s).Maintains p) (hi : p i)
    (ends : (i.perform fuel request).Ends (r, i')) : p i' := by
  obtain ⟨⟨result, j⟩, hcall, ends⟩ := Task.ends_bind.mp ends
  have hbegun := h.host i { i.host with perform := some { request } } ⟨rfl, rfl⟩ hi
  have hj : p j := h.call hentry hbegun hcall
  have hj' := h.host j { j.host with perform := none } ⟨rfl, rfl⟩ hj
  rcases result with e | _
  · cases ends
    exact hj'
  · rcases hperform : j.host.perform with _ | state
    · simp only [hperform] at ends
      cases ends
      exact hj'
    · simp only [hperform] at ends
      cases ends
      exact hj'

end Enduring

end Instance

end Resumable
