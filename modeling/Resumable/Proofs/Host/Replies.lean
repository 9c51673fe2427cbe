import Resumable.Proofs.Abi.Pair
import Resumable.Proofs.Bridge.Control
import Resumable.Proofs.Core.Memory
import Resumable.Proofs.Handle.Table
import Resumable.Proofs.Host.Upkeep

/-!
# How replies are delivered and retrieved

A reply goes into the core's buffer if it fits, and otherwise into the store of the
host, from where the core retrieves it. `Delivery` and `Retrieval` list what may come
of either, whatever instance it is asked of. Over a run of both, however long, a reply
is stored under its handle just from when the handle is answered until its retrieval
is answered with a size.
-/

namespace Resumable

namespace Instance

variable {G : Type} {i j : Instance G}

/-- The instances that there may be: a fresh one, and any that a core and the host may
make of one. -/
inductive Reached : Instance G → Prop where
  | fresh (core : CoreState G) (exports : Exports G) (config : RuntimeConfig) :
      Reached ⟨core, exports, .ofConfig config⟩
  | core {i : Instance G} (h : Reached i) (core : CoreState G) :
      Reached { i with core := core }
  | host {i : Instance G} (h : Reached i) (host : HostState)
      (hsame : i.host.SameReplies host) : Reached { i with host := host }
  | stashed {i : Instance G} (h : Reached i) (bytes : ByteArray) :
      Reached { i with host :=
        { i.host with messages := (i.host.messages.insert bytes).2 } }
  | retrieved {i : Instance G} (h : Reached i) (handle : Handle) :
      Reached { i with host :=
        { i.host with messages := (i.host.messages.remove handle).2 } }
  | released {i : Instance G} (h : Reached i) : Reached i.release

theorem lasting_reached : Lasting fun i : Instance G => i.Reached :=
  ⟨fun _ core h => h.core core, fun _ host hsame h => h.host host hsame,
    fun _ bytes h => h.stashed bytes, fun _ handle h => h.retrieved handle⟩

end Instance

namespace HostState

/-- The handles of stored replies are in order, and all fit the second
half of a pair. -/
structure StoresReplies (h : HostState) : Prop where
  inOrder : h.messages.InOrder
  limit : h.messages.limit = h.config.pairEncoding.maxSecond

def SmallReplies (h : HostState) : Prop :=
  ∀ handle bytes, h.messages.get? handle = some bytes → bytes.size < 2147483648

end HostState

theorem Instance.Reached.storesReplies {G : Type} {i : Instance G} (h : i.Reached) :
    i.host.StoresReplies := by
  induction h with
  | fresh core exports config =>
      refine ⟨HandleTable.withLimit_inOrder _, ?_⟩
      change max config.pairEncoding.maxSecond 1 = config.pairEncoding.maxSecond
      cases config.pairEncoding <;> rfl
  | core h core ih => exact ih
  | @host i h host hsame ih =>
      refine ⟨?_, ?_⟩
      · rw [hsame.messages]
        exact ih.inOrder
      · rw [hsame.messages, hsame.config]
        exact ih.limit
  | stashed h bytes ih =>
      exact ⟨HandleTable.insert_inOrder ih.inOrder bytes,
        (HandleTable.insert_limit _ _).trans ih.limit⟩
  | retrieved h handle ih =>
      exact ⟨HandleTable.remove_inOrder ih.inOrder handle,
        (HandleTable.remove_limit _ _).trans ih.limit⟩
  | released h ih => exact ⟨⟨ih.inOrder.pos, ih.inOrder.le⟩, ih.limit⟩

/-- The core asks for a reply to be delivered, or retrieves one. -/
inductive StoreCall where
  | deliver (message : Outgoing) (outPtr outLen : UInt32)
  | retrieve (handle outPtr outLen : UInt32)

namespace StoreCall

def serve {G : Type} : StoreCall → Live G UInt64
  | .deliver message outPtr outLen => Live.deliver message outPtr outLen
  | .retrieve handle outPtr outLen =>
      do Live.answer (← Live.retrieve handle outPtr outLen)

end StoreCall

namespace Instance

variable {G : Type}

def withMemory (i : Instance G) (memory : Memory) : Instance G :=
  { i with core := { i.core with memory := memory } }

def withReplies (i : Instance G) (messages : HandleTable ByteArray) : Instance G :=
  { i with host := { i.host with messages := messages } }

def encoding (i : Instance G) : PairEncoding := i.host.config.pairEncoding

/-- What comes of a reply that is delivered. -/
inductive Delivery (i : Instance G) (bytes : ByteArray) (outPtr outLen : UInt32) :
    Except CallError UInt64 × Instance G → Prop where
  | inline {word : UInt64} {memory : Memory} (hfits : bytes.size ≤ outLen.toNat)
      (hwrote : i.core.memory.Wrote outPtr.toNat bytes memory)
      (hword : Pair.Packs i.encoding ⟨UInt32.ofNat bytes.size, 0⟩ word) :
      Delivery i bytes outPtr outLen (.ok word, i.withMemory memory)
  | outside (hfits : bytes.size ≤ outLen.toNat)
      (houtside : i.core.memory.size < outPtr.toNat + bytes.size) :
      Delivery i bytes outPtr outLen (.error (.other .replyOutside), i)
  | stashed {word : UInt64} {handle : Handle} {messages : HandleTable ByteArray}
      (hlong : outLen.toNat < bytes.size)
      (hinsert : i.host.messages.Inserted bytes handle messages)
      (hrange : 1 ≤ handle.toNat ∧ handle ≤ i.encoding.maxSecond)
      (hword : Pair.Packs i.encoding ⟨UInt32.ofNat bytes.size, handle⟩ word) :
      Delivery i bytes outPtr outLen (.ok word, i.withReplies messages)
  | full (hlong : outLen.toNat < bytes.size)
      (hfull : i.encoding.maxSecond.toNat ≤ i.host.messages.size) :
      Delivery i bytes outPtr outLen (.error (.other .storeFull), i)

inductive Retrieval (i : Instance G) (handle outPtr outLen : UInt32) :
    Except CallError UInt64 × Instance G → Prop where
  | badF {word : UInt64} (hnone : i.host.messages.get? handle = none)
      (hword : AbiResult.Packs i.encoding (.err .badF) word) :
      Retrieval i handle outPtr outLen (.ok word, i)
  | range {word : UInt64} {bytes : ByteArray}
      (hstored : i.host.messages.get? handle = some bytes)
      (hlong : outLen.toNat < bytes.size)
      (hword : AbiResult.Packs i.encoding (.err .range) word) :
      Retrieval i handle outPtr outLen (.ok word, i)
  | fault {word : UInt64} {bytes : ByteArray}
      (hstored : i.host.messages.get? handle = some bytes)
      (hfits : bytes.size ≤ outLen.toNat)
      (houtside : i.core.memory.size < outPtr.toNat + bytes.size)
      (hword : AbiResult.Packs i.encoding (.err .fault) word) :
      Retrieval i handle outPtr outLen (.ok word, i)
  | written {word : UInt64} {bytes : ByteArray} {memory : Memory}
      {messages : HandleTable ByteArray}
      (hstored : i.host.messages.get? handle = some bytes)
      (hfits : bytes.size ≤ outLen.toNat)
      (hwrote : i.core.memory.Wrote outPtr.toNat bytes memory)
      (hremoved : ∀ k, messages.get? k = if k = handle then none else
        i.host.messages.get? k)
          (hword : AbiResult.Packs i.encoding (.ok (UInt32.ofNat bytes.size)) word) :
          Retrieval i handle outPtr outLen (.ok word,
            (i.withMemory memory).withReplies messages)

end Instance

namespace Live

variable {G : Type} {i : Instance G} {outPtr outLen : UInt32} {bytes : ByteArray}

theorem on_writeMemory_some {memory : Memory}
    (h : i.core.memory.write? outPtr.toNat bytes = some memory) :
    (writeMemory outPtr bytes).on i = (.ok true, i.withMemory memory) := by
  simp only [writeMemory, Act.on, ExceptT.run, StateT.run, h]
  rfl

theorem on_writeMemory_none (h : i.core.memory.write? outPtr.toNat bytes = none) :
    (writeMemory outPtr bytes).on i = (.ok false, i) := by
  simp only [writeMemory, Act.on, ExceptT.run, StateT.run, h]

theorem on_writeInline_some {memory : Memory}
    (h : i.core.memory.write? outPtr.toNat bytes = some memory) :
    (writeInline bytes outPtr).on i = (.ok 0, i.withMemory memory) :=
  Act.on_bind_ok (on_writeMemory_some h)

theorem on_writeInline_none (h : i.core.memory.write? outPtr.toNat bytes = none) :
    (writeInline bytes outPtr).on i = (.error (.other .replyOutside), i) :=
  Act.on_bind_ok (on_writeMemory_none h)

theorem on_stash_some {handle : Handle} {messages : HandleTable ByteArray}
    (h : i.host.messages.insert bytes = (some handle, messages)) :
    (stash bytes).on i = (.ok handle, i.withReplies messages) := by
  have hhost : (host fun h => ((h.messages.insert bytes).1,
      { h with messages := (h.messages.insert bytes).2 }) : Live G (Option Handle)).on
        i = (.ok (some handle), i.withReplies messages) := by
    simp only [host, Act.on, ExceptT.run, StateT.run, h]
    rfl
  exact Act.on_bind_ok hhost

theorem on_stash_none (h : i.host.messages.insert bytes = (none, i.host.messages)) :
    (stash bytes).on i = (.error (.other .storeFull), i) := by
  have hhost : (host fun h => ((h.messages.insert bytes).1,
      { h with messages := (h.messages.insert bytes).2 }) : Live G (Option Handle)).on
        i = (.ok none, i) := by
    simp only [host, Act.on, ExceptT.run, StateT.run, h]
  exact Act.on_bind_ok hhost

def pack (p : Pair) : Live G UInt64 := do ofAbi (p.encode (← config).pairEncoding)

theorem on_pack {p : Pair} {word : UInt64} (h : p.Packs i.encoding word) :
    (pack p).on i = (.ok word, i) := by
  have hencoded : p.encode i.host.config.pairEncoding = .ok word := h.encoded
  refine (Act.on_bind_ok (Act.on_read _ _)).trans ?_
  rw [hencoded]
  rfl

theorem on_answer {r : Except Errno UInt32} {word : UInt64}
    (h : (AbiResult.ofExcept r).Packs i.encoding word) :
    (answer r).on i = (.ok word, i) := by
  have hencoded : (AbiResult.ofExcept r).encode i.host.config.pairEncoding =
      .ok word := h.encoded
  refine (Act.on_bind_ok (Act.on_read _ _)).trans ?_
  rw [hencoded]
  rfl

/-- A reply that is not too long is written or stashed, then its size and handle
are answered. -/
theorem deliver_eq {message : Outgoing} (hsmall : message.encode.size < 4294967296) :
    (deliver message outPtr outLen : Live G UInt64) =
      (if message.encode.size ≤ outLen.toNat then writeInline message.encode outPtr
        else stash message.encode) >>= fun handle =>
          pack ⟨UInt32.ofNat message.encode.size, handle⟩ := by
  have htoNat : (UInt32.ofNat message.encode.size).toNat = message.encode.size :=
    UInt32.toNat_ofNat_of_lt' hsmall
  unfold deliver
  rw [if_neg (Nat.not_le.mpr hsmall)]
  by_cases hfits : message.encode.size ≤ outLen.toNat
  · rw [if_pos hfits, if_pos (UInt32.le_iff_toNat_le.mpr (htoNat.symm ▸ hfits))]
    rfl
  · rw [if_neg hfits, if_neg (mt UInt32.le_iff_toNat_le.mp (htoNat.symm ▸ hfits))]
    rfl

theorem deliver_of_long {message : Outgoing}
    (hlong : 4294967296 ≤ message.encode.size) :
    (deliver message outPtr outLen : Live G UInt64) = Act.fail .replyTooLong := by
  unfold deliver
  generalize message.encode = bytes at hlong
  dsimp only
  rw [if_pos hlong]
  rfl

theorem deliver_delivery (hi : i.host.StoresReplies) {message : Outgoing}
    (hsmall : message.encode.size < 2147483648) :
    i.Delivery message.encode outPtr outLen ((deliver message outPtr outLen).on i) := by
  have hpacked := Nat.lt_of_lt_of_le hsmall i.encoding.le_two_pow_firstBits
  rw [deliver_eq (Nat.lt_trans hsmall (by decide))]
  by_cases hfits : message.encode.size ≤ outLen.toNat
  · rw [if_pos hfits]
    rcases hwrite : i.core.memory.write? outPtr.toNat message.encode with _ | memory
    · rw [Act.on_bind_error (on_writeInline_none hwrite)]
      exact .outside hfits (Memory.write?_eq_none_iff.mp hwrite)
    · have hzero : 0 ≤ i.encoding.maxSecond := UInt32.zero_le
      obtain ⟨word, hword⟩ := Pair.exists_packs hpacked hzero
      rw [Act.on_bind_ok (on_writeInline_some hwrite),
        on_pack (i := i.withMemory memory) hword]
      exact .inline hfits (Memory.wrote_of_write? hwrite) hword
  · rw [if_neg hfits]
    rcases Nat.lt_or_ge i.host.messages.size i.host.messages.limit.toNat
      with hroom | hfull
    · obtain ⟨handle, messages, hinsert, hinserted⟩ :=
        HandleTable.insert_of_room hi.inOrder hroom message.encode
      have hle : handle ≤ i.encoding.maxSecond := by
        have := hinserted.inRange.le
        rw [hi.limit] at this
        exact UInt32.le_iff_toNat_le.mpr this
      obtain ⟨word, hword⟩ := Pair.exists_packs hpacked hle
      rw [Act.on_bind_ok (on_stash_some hinsert),
        on_pack (i := i.withReplies messages) hword]
      exact .stashed (Nat.not_le.mp hfits) hinserted ⟨hinserted.inRange.pos, hle⟩ hword
    · rw [Act.on_bind_error (on_stash_none (HandleTable.insert_of_full hfull _))]
      rw [hi.limit] at hfull
      exact .full (Nat.not_le.mp hfits) hfull

section Retrieve

variable {handle : Handle} (hstored : i.host.messages.get? handle = some bytes)

theorem on_retrieve_none (h : i.host.messages.get? handle = none) :
    (retrieve handle outPtr outLen).on i = (.ok (.error .badF), i) := by
  refine (Act.on_bind_ok (Act.on_read _ _)).trans ?_
  rw [h]
  rfl

include hstored

theorem on_retrieve_long (hlong : outLen.toNat < bytes.size) :
    (retrieve handle outPtr outLen).on i = (.ok (.error .range), i) := by
  refine (Act.on_bind_ok (Act.on_read _ _)).trans ?_
  rw [hstored]
  dsimp only
  rw [if_pos hlong]
  rfl

theorem on_retrieve_outside (hfits : bytes.size ≤ outLen.toNat)
    (hwrite : i.core.memory.write? outPtr.toNat bytes = none) :
    (retrieve handle outPtr outLen).on i = (.ok (.error .fault), i) := by
  refine (Act.on_bind_ok (Act.on_read _ _)).trans ?_
  rw [hstored]
  dsimp only
  rw [if_neg (Nat.not_lt.mpr hfits), Act.on_bind_ok (on_writeMemory_none hwrite)]
  rfl

theorem on_retrieve_written {memory : Memory} (hfits : bytes.size ≤ outLen.toNat)
    (hwrite : i.core.memory.write? outPtr.toNat bytes = some memory) :
    (retrieve handle outPtr outLen).on i = (.ok (.ok (UInt32.ofNat bytes.size)),
      (i.withMemory memory).withReplies (i.host.messages.remove handle).2) := by
  refine (Act.on_bind_ok (Act.on_read _ _)).trans ?_
  rw [hstored]
  dsimp only
  rw [if_neg (Nat.not_lt.mpr hfits), Act.on_bind_ok (on_writeMemory_some hwrite)]
  rfl

end Retrieve

theorem on_answer_snd (r : Except Errno UInt32) (i : Instance G) :
    ((answer r).on i).2 = i := by
  unfold answer config
  rw [Act.on_bind_ok (Act.on_read _ _)]
  cases (AbiResult.ofExcept r).encode i.host.config.pairEncoding <;> rfl

theorem on_serve_snd (handle : Handle) (i : Instance G) :
    ((StoreCall.retrieve handle outPtr outLen).serve.on i).2 =
    ((retrieve handle outPtr outLen).on i).2 := by
  unfold StoreCall.serve
  rw [Act.on_bind]
  split
  · next heq => rw [heq, on_answer_snd]
  · next heq => rw [heq]

theorem on_serve_retrieve {handle : Handle} {r : Except Errno UInt32} {word : UInt64}
    (h : (retrieve handle outPtr outLen).on i = (.ok r, j))
    (hword : AbiResult.Packs j.encoding (.ofExcept r) word) :
    (StoreCall.retrieve handle outPtr outLen).serve.on i = (.ok word, j) := by
  unfold StoreCall.serve
  rw [Act.on_bind_ok h, on_answer hword]

/-- The import that retrieves a reply is a retrieval, once the core has told that it
is in the normal state. -/
theorem on_messageRetrieve {handle : Handle}
    (hnormal : Instance.control.state.on i = (.ok .normal, j)) :
    (Instance.serve (.messageRetrieve handle outPtr outLen)).on i =
      (StoreCall.retrieve handle outPtr outLen).serve.on j := by
  unfold Instance.serve StoreCall.serve
  rcases hretrieve : (retrieve handle outPtr outLen).on j with ⟨e | r, k⟩
  · rw [Act.on_bind_error hretrieve]
    exact Control.hostCall_start_error hnormal (Act.on_bind_error hretrieve)
  · rw [Act.on_bind_ok hretrieve]
    rcases hanswer : (answer r).on k with ⟨e | word, l⟩
    · refine Control.hostCall_start_error hnormal ?_
      rw [Act.on_bind_ok hretrieve, Act.on_bind_error hanswer]
    · refine Control.hostCall_ready hnormal ?_
      rw [Act.on_bind_ok hretrieve, Act.on_bind_ok hanswer]
      rfl

theorem retrieve_retrieval (hsmall : i.host.SmallReplies) (handle : Handle) :
    i.Retrieval handle outPtr outLen
      ((StoreCall.retrieve handle outPtr outLen).serve.on i) := by
  rcases hstored : i.host.messages.get? handle with _ | bytes
  · obtain ⟨word, hword⟩ := AbiResult.exists_packs_err i.encoding .badF
      (by decide) (by decide)
    rw [on_serve_retrieve (on_retrieve_none hstored) hword]
    exact .badF hstored hword
  · rcases Nat.lt_or_ge outLen.toNat bytes.size with hlong | hfits
    · obtain ⟨word, hword⟩ := AbiResult.exists_packs_err i.encoding .range
        (by decide) (by decide)
      rw [on_serve_retrieve (on_retrieve_long hstored hlong) hword]
      exact .range hstored hlong hword
    · rcases hwrite : i.core.memory.write? outPtr.toNat bytes with _ | memory
      · obtain ⟨word, hword⟩ := AbiResult.exists_packs_err i.encoding .fault
          (by decide) (by decide)
        rw [on_serve_retrieve (on_retrieve_outside hstored hfits hwrite) hword]
        exact .fault hstored hfits (Memory.write?_eq_none_iff.mp hwrite) hword
      · have hpacked :=
          Nat.lt_of_lt_of_le (hsmall handle bytes hstored)
            i.encoding.le_two_pow_firstBits
        obtain ⟨word, hword⟩ := AbiResult.exists_packs_ok hpacked
        rw [on_serve_retrieve (on_retrieve_written hstored hfits hwrite) hword]
        exact .written hstored hfits (Memory.wrote_of_write? hwrite)
          (HandleTable.get?_remove _ _) hword

end Live

namespace StoreCall

variable {G : Type} {i j : Instance G} {encoding : PairEncoding} {handle : Handle}

def Small : StoreCall → Prop
  | .deliver message _ _ => message.encode.size < 2147483648
  | .retrieve _ _ _ => True

/-- What is stored under a handle behind a call, told from what was stored before and
what is answered: a reply from when its handle is answered until its retrieval is
answered with a size. -/
def kept (encoding : PairEncoding) (handle : Handle) (stored : Option ByteArray) :
    StoreCall × Except CallError UInt64 → Option ByteArray
  | (.deliver message _ _, .ok word) =>
      match Pair.decode encoding word with
      | .ok pair =>
          if pair.second ≠ 0 ∧ handle = pair.second then some message.encode else stored
      | .error _ => stored
  | (.retrieve retrieved _ _, .ok word) =>
      match AbiResult.decode encoding word with
      | .ok (.ok _) => if handle = retrieved then none else stored
      | _ => stored
  | (_, .error _) => stored

/-- The call takes what is stored under the handle: its retrieval is answered
with a size. -/
def Takes (encoding : PairEncoding) (handle : Handle) :
    StoreCall × Except CallError UInt64 → Prop
  | (.retrieve retrieved _ _, .ok word) =>
      retrieved = handle ∧ ∃ size, AbiResult.decode encoding word = .ok (.ok size)
  | _ => False

/-- What is stored behind a call was stored before it or has just been delivered. -/
theorem small_of_kept {call : StoreCall} {answer : Except CallError UInt64}
    {stored : Option ByteArray} {bytes : ByteArray} (hcall : call.Small)
    (hstored : ∀ old, stored = some old → old.size < 2147483648)
    (h : kept encoding handle stored (call, answer) = some bytes) :
    bytes.size < 2147483648 := by
  unfold kept at h
  split at h
  · next heq =>
      cases heq
      split at h
      · split at h
        · cases h
          exact hcall
        · exact hstored bytes h
      · exact hstored bytes h
  · split at h
    · split at h
      · cases h
      · exact hstored bytes h
    · exact hstored bytes h
  · exact hstored bytes h

end StoreCall

namespace Instance

variable {G : Type} {i j : Instance G} {outPtr outLen : UInt32} {bytes : ByteArray}

/-- What a call does to the store, told by its answer. What is stored already is not
written over. -/
structure Served (i : Instance G) (call : StoreCall)
    (outcome : Except CallError UInt64 × Instance G) : Prop where
  encoding : outcome.2.encoding = i.encoding
  stored : ∀ handle, outcome.2.host.messages.get? handle =
    StoreCall.kept i.encoding handle (i.host.messages.get? handle) (call, outcome.1)
  keeps : ∀ handle bytes, i.host.messages.get? handle = some bytes →
    ¬ StoreCall.Takes i.encoding handle (call, outcome.1) →
      outcome.2.host.messages.get? handle = some bytes

theorem Delivery.served {message : Outgoing}
    {outcome : Except CallError UInt64 × Instance G}
    (h : i.Delivery message.encode outPtr outLen outcome) :
    i.Served (.deliver message outPtr outLen) outcome := by
  refine ⟨by cases h <;> rfl, ?_, ?_⟩
  · intro handle
    cases h with
    | inline _ _ hword =>
        simp [StoreCall.kept, hword.decoded, withMemory]
    | outside | full => rfl
    | @stashed word fresh messages _ hinsert hrange hword =>
        have hne : fresh ≠ 0 := by
          rintro rfl
          exact absurd hrange.1 (by decide)
        simp only [StoreCall.kept, hword.decoded, ne_eq, hne,
          not_false_eq_true, true_and]
        exact hinsert.get? handle
  · intro handle bytes hbytes _
    cases h with
    | inline | outside | full => exact hbytes
    | @stashed word fresh messages _ hinsert _ _ =>
        have hne : handle ≠ fresh := by
          rintro rfl
          rw [hinsert.fresh] at hbytes
          cases hbytes
        exact (hinsert.get? handle).trans ((if_neg hne).trans hbytes)

theorem Retrieval.served {handle : Handle}
    {outcome : Except CallError UInt64 × Instance G}
    (h : i.Retrieval handle outPtr outLen outcome) :
    i.Served (.retrieve handle outPtr outLen) outcome := by
  refine ⟨by cases h <;> rfl, ?_, ?_⟩
  · intro k
    cases h with
    | badF _ hword | range _ _ hword | fault _ _ _ hword =>
        simp [StoreCall.kept, hword.decoded]
    | written _ _ _ hremoved hword =>
        simp only [StoreCall.kept, hword.decoded]
        exact hremoved k
  · intro k bytes hbytes huntaken
    cases h with
    | badF | range | fault => exact hbytes
    | written _ _ _ hremoved hword =>
        have hne : k ≠ handle := by
          rintro rfl
          exact huntaken ⟨rfl, _, hword.decoded⟩
        exact (hremoved k).trans ((if_neg hne).trans hbytes)

/-- A run of deliveries and retrievals. In between the core and the host may do
anything else. -/
inductive StoreRun (i : Instance G) :
    List (StoreCall × Except CallError UInt64) → Instance G → Prop where
  | start : StoreRun i [] i
  | core {past : List (StoreCall × Except CallError UInt64)} {j : Instance G}
      (h : StoreRun i past j) (core : CoreState G) :
      StoreRun i past { j with core := core }
  | host {past : List (StoreCall × Except CallError UInt64)} {j : Instance G}
      (h : StoreRun i past j) (host : HostState) (hsame : j.host.SameReplies host) :
      StoreRun i past { j with host := host }
  | call {past : List (StoreCall × Except CallError UInt64)} {j : Instance G}
      (h : StoreRun i past j) (call : StoreCall) :
      StoreRun i (past ++ [(call, (call.serve.on j).1)]) (call.serve.on j).2

theorem Reached.serve (hi : i.Reached) (call : StoreCall) :
    (call.serve.on i).2.Reached := by
  cases call with
  | deliver message outPtr outLen =>
      exact lasting_reached.storing.deliver message outPtr outLen i hi
  | retrieve handle outPtr outLen =>
      have hserve : (StoreCall.retrieve handle outPtr outLen).serve.Maintains
          fun j : Instance G => j.Reached :=
        .bind (lasting_reached.storing.retrieve handle outPtr outLen) fun _ =>
          Unbroken.answer _
      exact hserve i hi

theorem served_of_small (hi : i.Reached) (hsmall : i.host.SmallReplies)
    {call : StoreCall} (hcall : call.Small) : i.Served call (call.serve.on i) := by
  cases call with
  | deliver message outPtr outLen =>
      exact (Live.deliver_delivery hi.storesReplies hcall).served
  | retrieve handle outPtr outLen =>
      exact (Live.retrieve_retrieval hsmall handle).served

theorem Served.smallReplies {call : StoreCall}
    {outcome : Except CallError UInt64 × Instance G} (h : i.Served call outcome)
    (hsmall : i.host.SmallReplies) (hcall : call.Small) :
    outcome.2.host.SmallReplies := by
  intro handle bytes hbytes
  rw [h.stored] at hbytes
  exact StoreCall.small_of_kept hcall (hsmall handle) hbytes

/-- What holds all along a run of calls. -/
structure Kept (i : Instance G) (past : List (StoreCall × Except CallError UInt64))
    (j : Instance G) : Prop where
  reached : j.Reached
  encoding : j.encoding = i.encoding
  small : j.host.SmallReplies
  stored : ∀ handle, j.host.messages.get? handle =
    past.foldl (StoreCall.kept i.encoding handle) (i.host.messages.get? handle)

theorem StoreRun.kept {past : List (StoreCall × Except CallError UInt64)}
    (h : i.StoreRun past j) (hi : i.Reached) (hsmall : i.host.SmallReplies)
    (hpast : ∀ e ∈ past, e.1.Small) : i.Kept past j := by
  induction h with
  | start => exact ⟨hi, rfl, hsmall, fun _ => rfl⟩
  | core h core ih =>
      have hkept := ih hpast
      exact ⟨hkept.reached.core core, hkept.encoding, hkept.small, hkept.stored⟩
  | @host past j h host hsame ih =>
      have hkept := ih hpast
      refine ⟨hkept.reached.host host hsame, ?_, ?_, ?_⟩
      · exact (congrArg RuntimeConfig.pairEncoding hsame.config).trans hkept.encoding
      · intro handle bytes
        rw [hsame.messages]
        exact hkept.small handle bytes
      · intro handle
        change host.messages.get? handle = _
        rw [hsame.messages]
        exact hkept.stored handle
  | call h call ih =>
      rw [List.forall_mem_append, List.forall_mem_singleton] at hpast
      have hkept := ih hpast.1
      have hserved := served_of_small hkept.reached hkept.small hpast.2
      refine ⟨hkept.reached.serve call, hserved.encoding.trans hkept.encoding,
        hserved.smallReplies hkept.small hpast.2, ?_⟩
      intro handle
      rw [hserved.stored, hkept.stored, hkept.encoding, List.foldl_append]
      rfl

/-- Whatever a core does in an export, as far as the store goes it is a run of calls. -/
theorem unbroken_storeRun (i : Instance G) :
    Unbroken fun j => ∃ past, i.StoreRun past j where
  core := fun _ core ⟨past, h⟩ => ⟨past, h.core core⟩
  host := fun _ host hsame ⟨past, h⟩ => ⟨past, h.host host hsame⟩
  deliver := fun message outPtr outLen _ ⟨_, h⟩ =>
    ⟨_, h.call (.deliver message outPtr outLen)⟩
  retrieve := by
    rintro handle outPtr outLen j ⟨past, h⟩
    have hrun := h.call (.retrieve handle outPtr outLen)
    rw [Live.on_serve_snd] at hrun
    exact ⟨_, hrun⟩

theorem exists_storeRun_of_call {fuel : Nat}
    {entry : Exports G → CoreState G → Activation G Unit} {r : Except CallError Unit}
    (ends : (i.call fuel entry).Ends (r, j)) : ∃ past, i.StoreRun past j :=
  (unbroken_storeRun i).enduring.call ((unbroken_storeRun i).invoke entry)
    ⟨[], .start⟩ ends

theorem exists_storeRun_of_perform {fuel : Nat} {request : PerformRequest}
    {r : Except CallError PerformState} (ends : (i.perform fuel request).Ends (r, j)) :
    ∃ past, i.StoreRun past j :=
  (unbroken_storeRun i).enduring.perform ((unbroken_storeRun i).invoke _)
    ⟨[], .start⟩ ends

/-- A reply stays in the store until it is taken. -/
theorem StoreRun.stored_until_taken {past : List (StoreCall × Except CallError UInt64)}
    (h : i.StoreRun past j) (hi : i.Reached) (hsmall : i.host.SmallReplies)
    (hpast : ∀ e ∈ past, e.1.Small) {handle : Handle}
    (hstored : i.host.messages.get? handle = some bytes)
    (huntaken : ∀ e ∈ past, ¬ StoreCall.Takes i.encoding handle e) :
    j.host.messages.get? handle = some bytes := by
  induction h with
  | start => exact hstored
  | core _ _ ih => exact ih hpast huntaken
  | host _ host hsame ih =>
      change host.messages.get? handle = _
      rw [hsame.messages]
      exact ih hpast huntaken
  | call h call ih =>
      rw [List.forall_mem_append, List.forall_mem_singleton] at hpast huntaken
      have hkept := h.kept hi hsmall hpast.1
      have hserved := served_of_small hkept.reached hkept.small hpast.2
      refine hserved.keeps handle bytes (ih hpast.1 huntaken.1) ?_
      rw [hkept.encoding]
      exact huntaken.2

theorem Delivery.second_eq_zero_iff {word : UInt64} {pair : Pair} {k : Instance G}
    (h : i.Delivery bytes outPtr outLen (.ok word, k))
    (hpair : Pair.decode i.encoding word = .ok pair) : pair.second = 0 ↔
    bytes.size ≤ outLen.toNat ∧
    i.core.memory.Wrote outPtr.toNat bytes k.core.memory := by
  cases h with
  | inline hfits hwrote hword =>
      cases hword.decoded.symm.trans hpair
      exact ⟨fun _ => ⟨hfits, hwrote⟩, fun _ => rfl⟩
  | @stashed word fresh messages hlong _ hrange hword =>
      cases hword.decoded.symm.trans hpair
      refine ⟨?_, fun h => absurd h.1 (Nat.not_le.mpr hlong)⟩
      intro hzero
      change fresh = 0 at hzero
      rw [hzero] at hrange
      exact absurd hrange.1 (by decide)

/-- Behind any run of calls, a reply is delivered and retrieved as it should be, and
what is stored is what was delivered and not taken since. -/
theorem StoreRun.delivers_and_retrieves
    {past : List (StoreCall × Except CallError UInt64)} (h : i.StoreRun past j)
    (hi : i.Reached) (hsmall : i.host.SmallReplies) (hpast : ∀ e ∈ past, e.1.Small) :
    (∀ handle, j.host.messages.get? handle =
        past.foldl (StoreCall.kept i.encoding handle) (i.host.messages.get? handle)) ∧
      (∀ message outPtr outLen, (StoreCall.deliver message outPtr outLen).Small →
        j.Delivery message.encode outPtr outLen
          ((StoreCall.deliver message outPtr outLen).serve.on j)) ∧
      (∀ message outPtr outLen word k pair,
        (StoreCall.deliver message outPtr outLen).Small →
        (StoreCall.deliver message outPtr outLen).serve.on j = (.ok word, k) →
        Pair.decode j.encoding word = .ok pair →
        (pair.second = 0 ↔ message.encode.size ≤ outLen.toNat ∧
          j.core.memory.Wrote outPtr.toNat message.encode k.core.memory)) ∧
      (∀ handle outPtr outLen,
        j.Retrieval handle outPtr outLen
          ((StoreCall.retrieve handle outPtr outLen).serve.on j)) ∧
      ∀ later k handle bytes, j.StoreRun later k → (∀ e ∈ later, e.1.Small) →
        j.host.messages.get? handle = some bytes →
        (∀ e ∈ later, ¬ StoreCall.Takes j.encoding handle e) →
        k.host.messages.get? handle = some bytes := by
  have hkept := h.kept hi hsmall hpast
  have hdelivery (message : Outgoing) (outPtr outLen : UInt32)
      (hmessage : (StoreCall.deliver message outPtr outLen).Small) :
      j.Delivery message.encode outPtr outLen
        ((StoreCall.deliver message outPtr outLen).serve.on j) :=
    Live.deliver_delivery hkept.reached.storesReplies hmessage
  refine ⟨hkept.stored, hdelivery, ?_, ?_, ?_⟩
  · intro message outPtr outLen word k pair hmessage hserve hpair
    have hcame := hdelivery message outPtr outLen hmessage
    rw [hserve] at hcame
    exact hcame.second_eq_zero_iff hpair
  · intro handle outPtr outLen
    exact Live.retrieve_retrieval hkept.small handle
  · intro later k handle bytes hlater hsmall' hstored huntaken
    exact hlater.stored_until_taken hkept.reached hkept.small hsmall' hstored huntaken

def silent : Instance Unit where
  core := ⟨.ofPages 1, ()⟩
  exports :=
    { getState := fun s => (.ok 0, s)
      startUnwind := fun _ s => (.ok (), s)
      stopUnwind := fun s => (.ok (), s)
      startRewind := fun _ s => (.ok (), s)
      stopRewind := fun s => (.ok (), s)
      setup := fun s => .finish s ()
      teardown := fun s => .finish s ()
      perform := fun s => .finish s ()
      getMetrics := fun s => .finish s 0
      clearMetrics := fun s => .finish s ()
      getDeveloperDump := fun s => .finish s 0 }
  host := .ofConfig {}

theorem silent_keeps_stashed :
    ∃ past j, silent.StoreRun past j ∧ silent.Reached ∧ silent.host.SmallReplies ∧
      (∀ e ∈ past, e.1.Small) ∧ j.host.messages.get? 1 = some Outgoing.stored.encode ∧
      j.Retrieval 1 0 64 ((StoreCall.retrieve 1 0 64).serve.on j) := by
  have hrun := (StoreRun.start (i := silent)).call (.deliver .stored 0 0)
  have hreached : silent.Reached := .fresh _ _ _
  have hsmall : silent.host.SmallReplies := by
    intro handle bytes hbytes
    cases hbytes
  have hpast : ∀ e ∈ [] ++ [(StoreCall.deliver .stored 0 0,
      ((StoreCall.deliver .stored 0 0).serve.on silent).1)], e.1.Small := by
    rw [List.nil_append, List.forall_mem_singleton]
    change Outgoing.stored.encode.size < 2147483648
    decide +kernel
  obtain ⟨hstored, -, -, hretrieval, -⟩ := hrun.delivers_and_retrieves
    hreached hsmall hpast
  refine ⟨_, _, hrun, hreached, hsmall, hpast, (hstored 1).trans ?_, hretrieval 1 0 64⟩
  decide +kernel

end Instance

end Resumable
