import Resumable.Proofs.Core.Region
import Resumable.Proofs.Host.Halves

namespace Resumable

namespace Live

variable {G : Type} {call : ImportCall} {handle : Handle} {stream : Stream}
  {max : Nat} {i : Instance G}

theorem readLimit_le (outLen : UInt32) (config : RuntimeConfig) :
    readLimit outLen config ≤ min outLen.toNat config.maxReadBytes := by
  have hsigned : outLen.toInt32.toInt.toNat ≤ outLen.toNat := by
    change outLen.toBitVec.toInt.toNat ≤ outLen.toBitVec.toNat
    rw [BitVec.toInt_eq_toNat_cond]
    split <;> omega
  exact Nat.le_min.mpr ⟨Nat.le_trans (Nat.min_le_left _ _) hsigned,
    Nat.min_le_right _ _⟩

/-- A stream is asked for no more than there is room for, and for no more than
is allowed. -/
theorem start_reads
    (h : (call.start.on i).1 = .ok (.suspend (.read handle stream max))) :
    ∃ outPtr outLen, call = .streamRead handle outPtr outLen ∧
      max ≤ min outLen.toNat i.host.config.maxReadBytes := by
  cases Instance.awaits_of_start h with
  | read => exact ⟨_, _, rfl, readLimit_le _ _⟩

end Live

def HostState.decoded (h : HostState) (raw : ByteArray) : Dispatch × HostState :=
  match Incoming.decode raw with
  | .error e => (.reply (.error .malformedMessage e.message none), h)
  | .ok message => h.handle message

theorem HostState.dispatch_of_le {h : HostState} {raw : ByteArray}
    (hsize : raw.size ≤ h.config.maxMessageBytes) : h.dispatch raw = h.decoded raw :=
  if_neg (Nat.not_lt.mpr hsize)

namespace Live

variable {G α : Type}

def exchanged (raw : ByteArray) (outPtr outLen : UInt32) :
    Live G (HostStep UInt64 Deferred) := do
  match ← host fun h => h.decoded raw with
  | .reply message => return .ready (← deliver message outPtr outLen)
  | .deferred operation => return .suspend operation

/-- The step goes on with the bytes of a range that does not end behind the memory,
and refuses any other range with nothing changed. -/
structure Gets (step : Live G α) (i : Instance G) (ptr len : UInt32)
    (next : ByteArray → Live G α) (refusal : Except CallError α) : Prop where
  accepted : ptr.toNat + len.toNat ≤ i.core.memory.size →
    step.on i = (next (i.core.memory.bytes ptr.toNat len.toNat)).on i
  refused : i.core.memory.size < ptr.toNat + len.toNat → step.on i = (refusal, i)

/-- The step goes on once the bytes are written if they do not end behind the memory,
and refuses any other range with nothing changed. -/
structure Puts (step : Live G α) (i : Instance G) (ptr : UInt32) (bytes : ByteArray)
    (next : Live G α) (refusal : Except CallError α) : Prop where
  accepted : ptr.toNat + bytes.size ≤ i.core.memory.size →
    ∃ memory, i.core.memory.Wrote ptr.toNat bytes memory ∧
    step.on i = next.on (i.withMemory memory)
  refused : i.core.memory.size < ptr.toNat + bytes.size → step.on i = (refusal, i)

end Live

namespace Instance

variable {G : Type}

/-- How ranges are checked by the imports. -/
structure ChecksRanges (i : Instance G) : Prop where
  tooLong : ∀ ptr len outPtr outLen, i.host.config.maxMessageBytes < len.toNat →
    (ImportCall.messageExchange ptr len outPtr outLen).start.on i =
      readied ((Live.deliver (.tooLarge len.toNat i.host.config.maxMessageBytes)
        outPtr outLen).on i)
  message : ∀ ptr len outPtr outLen, len.toNat ≤ i.host.config.maxMessageBytes →
    Live.Gets (ImportCall.messageExchange ptr len outPtr outLen).start i ptr len
      (fun raw => Live.exchanged raw outPtr outLen) (.error (.other .messageOutside))
  write : ∀ handle inPtr inLen stream, i.host.streams.get? handle = some stream →
    Live.Gets (ImportCall.streamWrite handle inPtr inLen).start i inPtr inLen
      (fun bytes => pure (.suspend (.write stream bytes)))
      (readied ((Live.answer (.error .fault)).on i)).1
  reply : ∀ message outPtr (outLen : UInt32), message.encode.size ≤ outLen.toNat →
    Live.Puts (Live.deliver message outPtr outLen) i outPtr message.encode
      (Live.pack ⟨UInt32.ofNat message.encode.size, 0⟩) (.error (.other .replyOutside))
  stored : ∀ handle outPtr outLen bytes, i.host.messages.get? handle = some bytes →
    bytes.size ≤ outLen.toNat →
    Live.Puts (Live.retrieve handle outPtr outLen) i outPtr bytes
      (Live.host fun h => (.ok (UInt32.ofNat bytes.size),
        { h with messages := (h.messages.remove handle).2 }))
      (.ok (.error .fault))
  read : ∀ handle outPtr outLen bytes,
    Live.Puts
      ((ImportCall.streamRead handle outPtr outLen).finish (.read (.ok bytes))) i
      outPtr bytes (Live.answer (.ok (UInt32.ofNat bytes.size)))
      ((Live.answer (.error .fault)).on i).1
  limit : ∀ handle outPtr (outLen : UInt32) handle' stream max,
    ((ImportCall.streamRead handle outPtr outLen).start.on i).1 =
      .ok (.suspend (.read handle' stream max)) →
      max ≤ min outLen.toNat i.host.config.maxReadBytes

theorem on_exchanged (raw : ByteArray) (outPtr outLen : UInt32) (i : Instance G) :
    (Live.exchanged raw outPtr outLen).on i =
      match i.host.decoded raw with
      | (.reply message, h) =>
          readied ((Live.deliver message outPtr outLen).on (i.onward i.core h))
      | (.deferred operation, h) => (.ok (.suspend operation), i.onward i.core h) := by
  have hhost : (Live.host fun h => h.decoded raw).on i =
      (.ok (i.host.decoded raw).1, i.onward i.core (i.host.decoded raw).2) := rfl
  unfold Live.exchanged
  rw [Act.on_bind_ok hhost]
  rcases i.host.decoded raw with ⟨message | operation, h⟩
  · exact on_ready _ _
  · rfl

theorem gets_message {ptr len outPtr outLen : UInt32} {i : Instance G}
    (hlen : len.toNat ≤ i.host.config.maxMessageBytes) :
    Live.Gets (ImportCall.messageExchange ptr len outPtr outLen).start i ptr len
      (fun raw => Live.exchanged raw outPtr outLen)
        (.error (.other .messageOutside)) := by
  have hstarts := starts (.messageExchange ptr len outPtr outLen) i
  generalize hout : (ImportCall.messageExchange ptr len outPtr outLen).start.on i =
    outcome at hstarts
  constructor
  · intro hin
    have hraw := Memory.read?_of_le hin
    have hdecoded : i.host.dispatch (i.core.memory.bytes ptr.toNat len.toNat) =
        i.host.decoded (i.core.memory.bytes ptr.toNat len.toNat) :=
      HostState.dispatch_of_le (by rwa [Memory.size_of_read? hraw])
    rw [hout, on_exchanged, ← hdecoded]
    cases hstarts with
    | tooLong hlong => exact absurd hlong (Nat.not_lt.mpr hlen)
    | outside _ hread =>
        exact absurd (Memory.read?_eq_none_iff.mp hread) (Nat.not_lt.mpr hin)
    | replied _ hread hdispatch | deferred _ hread hdispatch =>
        cases hraw.symm.trans hread
        generalize i.host.dispatch (i.core.memory.bytes ptr.toNat len.toNat) =
          dispatched at hdispatch ⊢
        obtain ⟨_, _⟩ := dispatched
        cases hdispatch
        rfl
    | missing hcall => cases hcall
  · intro hout'
    have hnone := Memory.read?_eq_none_iff.mpr hout'
    rw [hout]
    cases hstarts with
    | tooLong hlong => exact absurd hlong (Nat.not_lt.mpr hlen)
    | outside => rfl
    | replied _ hread | deferred _ hread => cases hnone.symm.trans hread
    | missing hcall => cases hcall

theorem gets_write {handle inPtr inLen : UInt32} {stream : Stream} {i : Instance G}
    (hstream : i.host.streams.get? handle = some stream) :
    Live.Gets (ImportCall.streamWrite handle inPtr inLen).start i inPtr inLen
      (fun bytes => pure (.suspend (.write stream bytes)))
        (readied ((Live.answer (.error .fault)).on i)).1 := by
  have hstarts := starts (.streamWrite handle inPtr inLen) i
  generalize hout : (ImportCall.streamWrite handle inPtr inLen).start.on i =
    outcome at hstarts
  constructor
  · intro hin
    have hbytes := Memory.read?_of_le hin
    rw [hout]
    cases hstarts with
    | missing hcall hnone =>
        cases hcall
        cases hstream.symm.trans hnone
    | unreadable _ hread => cases hbytes.symm.trans hread
    | write hstream' hread =>
        cases hstream.symm.trans hstream'
        cases hbytes.symm.trans hread
        rfl
  · intro hout'
    have hnone := Memory.read?_eq_none_iff.mpr hout'
    rw [hout]
    cases hstarts with
    | missing hcall hnone =>
        cases hcall
        cases hstream.symm.trans hnone
    | unreadable =>
        refine Prod.ext rfl ?_
        rw [readied_snd, Live.on_answer_snd]
    | write _ hread => cases hnone.symm.trans hread

theorem puts_reply {message : Outgoing} {outPtr outLen : UInt32}
    (hfits : message.encode.size ≤ outLen.toNat) (i : Instance G) :
    Live.Puts (Live.deliver message outPtr outLen) i outPtr message.encode
      (Live.pack ⟨UInt32.ofNat message.encode.size, 0⟩)
        (.error (.other .replyOutside)) := by
  rw [Live.deliver_eq (Nat.lt_of_le_of_lt hfits outLen.toNat_lt), if_pos hfits]
  constructor
  · intro hin
    obtain ⟨memory, hwrite, hwrote⟩ := Memory.exists_wrote_of_le hin
    exact ⟨memory, hwrote, Act.on_bind_ok (Live.on_writeInline_some hwrite)⟩
  · intro hout
    exact Act.on_bind_error
      (Live.on_writeInline_none (Memory.write?_eq_none_iff.mpr hout))

theorem puts_stored {handle outPtr outLen : UInt32} {bytes : ByteArray} {i : Instance G}
    (hstored : i.host.messages.get? handle = some bytes)
    (hfits : bytes.size ≤ outLen.toNat) :
    Live.Puts (Live.retrieve handle outPtr outLen) i outPtr bytes
      (Live.host fun h => (.ok (UInt32.ofNat bytes.size),
        { h with messages := (h.messages.remove handle).2 }))
      (.ok (.error .fault)) := by
  constructor
  · intro hin
    obtain ⟨memory, hwrite, hwrote⟩ := Memory.exists_wrote_of_le hin
    exact ⟨memory, hwrote, Live.on_retrieve_written hstored hfits hwrite⟩
  · intro hout
    exact Live.on_retrieve_outside hstored hfits (Memory.write?_eq_none_iff.mpr hout)

theorem puts_read (handle outPtr outLen : UInt32) (bytes : ByteArray) (i : Instance G) :
    Live.Puts ((ImportCall.streamRead handle outPtr outLen).finish
      (.read (.ok bytes))) i outPtr bytes
        (Live.answer (.ok (UInt32.ofNat bytes.size)))
          ((Live.answer (.error .fault)).on i).1 := by
  constructor
  · intro hin
    obtain ⟨memory, hwrite, hwrote⟩ := Memory.exists_wrote_of_le hin
    exact ⟨memory, hwrote, Act.on_bind_ok (Live.on_writeMemory_some hwrite)⟩
  · intro hout
    refine (Act.on_bind_ok
      (Live.on_writeMemory_none (Memory.write?_eq_none_iff.mpr hout))).trans ?_
    exact Prod.ext rfl (Live.on_answer_snd _ i)

theorem checksRanges (i : Instance G) : i.ChecksRanges where
  tooLong ptr len outPtr outLen hlong := by
    have hstarts := starts (.messageExchange ptr len outPtr outLen) i
    generalize (ImportCall.messageExchange ptr len outPtr outLen).start.on i =
      outcome at hstarts ⊢
    cases hstarts with
    | tooLong => rfl
    | outside hlen | replied hlen | deferred hlen =>
        exact absurd hlong (Nat.not_lt.mpr hlen)
    | missing hcall => cases hcall
  message _ _ _ _ hlen := gets_message hlen
  write _ _ _ _ hstream := gets_write hstream
  reply _ _ _ hfits := puts_reply hfits i
  stored _ _ _ _ hstored hfits := puts_stored hstored hfits
  read handle outPtr outLen bytes := puts_read handle outPtr outLen bytes i
  limit := by
    intro handle outPtr outLen handle' stream max h
    obtain ⟨_, _, hcall, hmax⟩ := Live.start_reads h
    cases hcall
    exact hmax

end Instance

end Resumable
