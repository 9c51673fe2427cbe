import Resumable.Proofs.Bridge.Control
import Resumable.Proofs.Core.Region
import Resumable.Proofs.Host.Halves
import Resumable.Proofs.Message.Encoding

namespace Resumable

/-- A core that says that it is in the normal state, and is not changed by
being asked. -/
def Exports.Normal {G : Type} (x : Exports G) (s : CoreState G) : Prop :=
  x.getState s = (.ok 0, s)

/-- What a core may come upon when a reply has been delivered: the handle of its
stash, 0 if it was written; the state of the core; and the word that is answered. -/
inductive CoreState.Receives {G : Type} (s : CoreState G) (encoding : PairEncoding)
    (reply : ByteArray) (outPtr outLen : UInt32) :
    Handle → CoreState G → UInt64 → Prop where
  | written {memory : Memory} {word : UInt64} (hfits : reply.size ≤ outLen.toNat)
      (hwrite : s.memory.write? outPtr.toNat reply = some memory)
      (hword : Pair.Packs encoding ⟨UInt32.ofNat reply.size, 0⟩ word) :
      Receives s encoding reply outPtr outLen 0 { s with memory := memory } word
  | stashed {handle : Handle} {word : UInt64} (hlong : outLen.toNat < reply.size)
      (hhandle : handle ≠ 0)
      (hword : Pair.Packs encoding ⟨UInt32.ofNat reply.size, handle⟩ word) :
      Receives s encoding reply outPtr outLen handle s word

/-- How far a core is with handing a reply back. -/
inductive Errand where
  | asking
  | holding (handle : Handle)
  | done

namespace Activation

/-- What is left to do for a core that hands a reply back. A reply that is stashed has
to be fetched first. -/
inductive Echoes {G : Type} (x : Exports G) (encoding : PairEncoding)
    (reply : ByteArray) : Errand → Activation G Unit → Prop where
  | remark {errand : Errand} {line : Remark} {rest : Activation G Unit}
      (h : Echoes x encoding reply errand rest) :
      Echoes x encoding reply errand (.remark line rest)
  | ask {s : CoreState G} {ptr len outPtr outLen : UInt32}
      {resume : CoreState G → UInt64 → Activation G Unit} (hnormal : x.Normal s)
      (hmessage : s.memory.read? ptr.toNat len.toNat = some Incoming.inputMessage)
      (hroom : reply.size ≤ outLen.toNat → outPtr.toNat + reply.size ≤ s.memory.size)
      (h : ∀ handle s' word, s.Receives encoding reply outPtr outLen handle s' word →
        Echoes x encoding reply (.holding handle) (resume s' word)) :
      Echoes x encoding reply .asking
        (.call s (.messageExchange ptr len outPtr outLen) resume)
  | fetch {handle : Handle} {s : CoreState G} {outPtr outLen : UInt32}
      {resume : CoreState G → UInt64 → Activation G Unit} (hhandle : handle ≠ 0)
      (hnormal : x.Normal s) (hfits : reply.size ≤ outLen.toNat)
      (hroom : outPtr.toNat + reply.size ≤ s.memory.size)
      (h : ∀ memory word, s.memory.write? outPtr.toNat reply = some memory →
        AbiResult.Packs encoding (.ok (UInt32.ofNat reply.size)) word →
        Echoes x encoding reply (.holding 0)
          (resume { s with memory := memory } word)) :
      Echoes x encoding reply (.holding handle)
        (.call s (.messageRetrieve handle outPtr outLen) resume)
  | report {s : CoreState G} {ptr len outPtr outLen : UInt32}
      {resume : CoreState G → UInt64 → Activation G Unit} (hnormal : x.Normal s)
      (hmessage : s.memory.read? ptr.toNat len.toNat =
        some (Incoming.resultMessage reply))
      (hroom : Outgoing.stored.encode.size ≤ outLen.toNat →
        outPtr.toNat + Outgoing.stored.encode.size ≤ s.memory.size)
      (h : ∀ handle s' word, s.Receives encoding Outgoing.stored.encode outPtr outLen
        handle s' word → Echoes x encoding reply .done (resume s' word)) :
      Echoes x encoding reply (.holding 0)
        (.call s (.messageExchange ptr len outPtr outLen) resume)
  | finish {s : CoreState G} (hnormal : x.Normal s) :
      Echoes x encoding reply .done (.finish s ())

end Activation

namespace HandleTable

variable {α : Type}

/-- A table that holds a value under a handle, with at most one entry more than
another one. -/
structure Takes (t : HandleTable α) (a : α) (h : Handle)
    (t' : HandleTable α) : Prop where
  inOrder : t'.InOrder
  limit : t'.limit = t.limit
  size : t'.size ≤ t.size + 1
  get? : h ≠ 0 → t'.get? h = some a

end HandleTable

namespace Live

variable {G : Type} {i : Instance G} {message : Outgoing} {outPtr outLen : UInt32}

/-- A reply that has room is delivered, here or there. -/
theorem deliver_receives (hi : i.host.StoresReplies)
    (hfits : message.encode.size < 2 ^ i.encoding.firstBits)
    (hcovered : message.encode.size ≤ outLen.toNat →
      outPtr.toNat + message.encode.size ≤ i.core.memory.size)
        (hroom : i.host.messages.size < i.encoding.maxSecond.toNat) :
    ∃ handle s word messages, i.core.Receives i.encoding message.encode outPtr outLen
      handle s word ∧ i.host.messages.Takes message.encode handle messages ∧
      (deliver message outPtr outLen).on i =
      (.ok word, i.onward s { i.host with messages := messages }) := by
  rw [deliver_eq (Nat.lt_of_lt_of_le hfits i.encoding.two_pow_firstBits_le)]
  by_cases hshort : message.encode.size ≤ outLen.toNat
  · obtain ⟨memory, hwrite, -⟩ := Memory.exists_wrote_of_le (hcovered hshort)
    have hzero : 0 ≤ i.encoding.maxSecond := UInt32.zero_le
    obtain ⟨word, hword⟩ := Pair.exists_packs hfits hzero
    refine ⟨0, _, word, i.host.messages, .written hshort hwrite hword, ?_, ?_⟩
    · exact ⟨hi.inOrder, rfl, Nat.le_succ _, fun h => absurd rfl h⟩
    · rw [if_pos hshort, Act.on_bind_ok (on_writeInline_some hwrite),
        on_pack (i := i.withMemory memory) hword]
      rfl
  · have hfree : i.host.messages.size < i.host.messages.limit.toNat := by rwa [hi.limit]
    obtain ⟨handle, messages, hinsert, hinserted⟩ :=
      HandleTable.insert_of_room hi.inOrder hfree message.encode
    have hle : handle ≤ i.encoding.maxSecond := by
      have := hinserted.inRange.le
      rw [hi.limit] at this
      exact UInt32.le_iff_toNat_le.mpr this
    have hne : handle ≠ 0 := by
      rintro rfl
      exact absurd hinserted.inRange.pos (by decide)
    obtain ⟨word, hword⟩ := Pair.exists_packs hfits hle
    refine ⟨handle, i.core, word, messages,
      .stashed (Nat.not_le.mp hshort) hne hword, ?_, ?_⟩
    · have hsize := HandleTable.size_insert_le i.host.messages message.encode
      rw [hinsert] at hsize
      exact ⟨hinserted.inOrder, hinserted.limit, hsize,
        fun _ => (hinserted.get? handle).trans (if_pos rfl)⟩
    · rw [if_neg hshort, Act.on_bind_ok (on_stash_some hinsert),
        on_pack (i := i.withReplies messages) hword]
      rfl

end Live

namespace HostState

variable {h : HostState} {p : PerformState}

theorem reads_inputMessage
    (hlimit : Incoming.inputMessage.size ≤ h.config.maxMessageBytes) :
    h.reads Incoming.inputMessage = some .performInput := by
  rw [reads, if_neg (Nat.not_lt.mpr hlimit), Incoming.decode_inputMessage]

theorem reads_resultMessage {v : Json} (hv : v.Kept 126)
    (hlimit : (Incoming.resultMessage v.bytes).size ≤ h.config.maxMessageBytes) :
    h.reads (Incoming.resultMessage v.bytes) = some (.outputResult v) := by
  rw [reads, if_neg (Nat.not_lt.mpr hlimit), Incoming.decode_resultMessage hv]

theorem dispatch_inputMessage (hperform : h.perform = some p)
    (hlimit : Incoming.inputMessage.size ≤ h.config.maxMessageBytes) :
    h.dispatch Incoming.inputMessage = (.reply (.performInput p.request), h) := by
  rw [dispatch_of_reads (reads_inputMessage hlimit)]
  simp only [handle, hperform]

theorem dispatch_resultMessage {v : Json} (hv : v.Kept 126)
    (hperform : h.perform = some p) (hfirst : p.outcome = none)
    (hlimit : (Incoming.resultMessage v.bytes).size ≤ h.config.maxMessageBytes) :
    h.dispatch (Incoming.resultMessage v.bytes) =
      (.reply .stored,
        { h with perform := some { p with outcome := some (.result v) } }) := by
  rw [dispatch_of_reads (reads_resultMessage hv hlimit)]
  simp only [handle, reportOutcome, hperform, PerformState.report, hfirst]

end HostState

namespace Errand

def outcome (result : Json) : Errand → Option Outcome
  | .done => some (.result result)
  | _ => none

def due : Errand → Nat
  | .asking => 2
  | .holding _ => 1
  | .done => 0

end Errand

namespace Instance

variable {G : Type} {i : Instance G} {request : PerformRequest} {errand : Errand}

/-- The host of a core that hands the reply to a request back, and is that far. -/
structure Attends (request : PerformRequest) (errand : Errand)
    (h : HostState) : Prop where
  stores : h.StoresReplies
  idle : h.bridge.pending = none
  fits : (Outgoing.performInput request).encode.size <
    2 ^ h.config.pairEncoding.firstBits
  within : (Incoming.resultMessage (Outgoing.performInput request).encode).size ≤
    h.config.maxMessageBytes
  perform : h.perform =
    some ⟨request, errand.outcome (Outgoing.performInput request).toJson⟩
  stored : ∀ handle, errand = .holding handle → handle ≠ 0 →
    h.messages.get? handle = some (Outgoing.performInput request).encode
  room : h.messages.size + errand.due ≤ h.config.pairEncoding.maxSecond.toNat

theorem serve_exchange {ptr len outPtr outLen : UInt32} {raw : ByteArray}
    {message : Outgoing} {h : HostState} (hnormal : i.exports.Normal i.core)
    (hread : i.core.memory.read? ptr.toNat len.toNat = some raw)
    (hlimit : raw.size ≤ i.host.config.maxMessageBytes)
    (hdispatch : i.host.dispatch raw = (.reply message, h)) :
    (serve (.messageExchange ptr len outPtr outLen)).on i =
      (Live.deliver message outPtr outLen).on (i.onward i.core h) := by
  have hlen : len.toNat ≤ i.host.config.maxMessageBytes := by
    rwa [← Memory.size_of_read? hread]
  have hstart : (Live.beginExchange ptr len outPtr outLen).on i =
      readied ((Live.deliver message outPtr outLen).on (i.onward i.core h)) := by
    have hstarts := i.starts_exchange ptr len outPtr outLen
    generalize (Live.beginExchange ptr len outPtr outLen).on i = outcome at hstarts ⊢
    cases hstarts with
    | tooLong hlong => exact absurd hlen (Nat.not_le.mpr hlong)
    | outside _ hnone => cases hnone.symm.trans hread
    | replied _ hread' hdispatch' =>
        cases hread'.symm.trans hread
        rw [hdispatch] at hdispatch' ⊢
        cases hdispatch'
        rfl
    | deferred _ hread' hdispatch' =>
        cases hread'.symm.trans hread
        rw [hdispatch] at hdispatch'
        cases hdispatch'
    | missing hcall => cases hcall
  exact serve_of_readied hnormal hstart

theorem serve_fetch {handle outPtr outLen : UInt32} {reply : ByteArray}
    (hnormal : i.exports.Normal i.core)
    (hstored : i.host.messages.get? handle = some reply)
    (hfits : reply.size ≤ outLen.toNat)
    (hroom : outPtr.toNat + reply.size ≤ i.core.memory.size)
    (hsmall : reply.size < 2 ^ i.encoding.firstBits) :
    ∃ memory word, i.core.memory.write? outPtr.toNat reply = some memory ∧
      AbiResult.Packs i.encoding (.ok (UInt32.ofNat reply.size)) word ∧
      (serve (.messageRetrieve handle outPtr outLen)).on i = (.ok word,
        (i.withMemory memory).withReplies (i.host.messages.remove handle).2) := by
  obtain ⟨memory, hwrite, -⟩ := Memory.exists_wrote_of_le hroom
  obtain ⟨word, hword⟩ := AbiResult.exists_packs_ok hsmall
  refine ⟨memory, word, hwrite, hword, ?_⟩
  rw [Live.on_messageRetrieve (state_on_of_getState hnormal)]
  exact Live.on_serve_retrieve (Live.on_retrieve_written hstored hfits hwrite) hword

theorem run_call {s : CoreState G} {call : ImportCall}
    {resume : CoreState G → UInt64 → Activation G Unit} {word : UInt64}
    {j : Instance G} (h : (serve call).on (i.onward s i.host) = (.ok word, j)) :
    (run serve (.call s call resume)).on i = (run serve (resume j.core word)).on j := by
  rw [run, Act.on_bind_ok (Act.on_modify _ _)]
  exact (Act.on_bind_ok h).trans (Act.on_bind_ok (Act.on_read _ _))

/-- The host of a core behind a reply to it, which it may have stashed. -/
theorem Attends.delivered {h h' : HostState} {reply : ByteArray} {handle : Handle}
    {messages : HandleTable ByteArray} {next : Errand}
    (hattends : Attends request errand h) (hconfig : h'.config = h.config)
    (hbridge : h'.bridge = h.bridge)
    (hperform : h'.perform =
      some ⟨request, next.outcome (Outgoing.performInput request).toJson⟩)
        (htakes : h.messages.Takes reply handle messages)
        (hdue : next.due + 1 ≤ errand.due)
    (hnext : ∀ k, next = .holding k →
      k = handle ∧ reply = (Outgoing.performInput request).encode) :
    Attends request next { h' with messages := messages } where
  stores := ⟨htakes.inOrder, hconfig ▸ htakes.limit.trans hattends.stores.limit⟩
  idle := hbridge ▸ hattends.idle
  fits := hconfig ▸ hattends.fits
  within := hconfig ▸ hattends.within
  perform := hperform
  stored := by
    intro k hk hne
    obtain ⟨hhandle, hreply⟩ := hnext k hk
    rw [hhandle] at hne ⊢
    rw [← hreply]
    exact htakes.get? hne
  room := by
    have hsize := htakes.size
    have hroom := hattends.room
    rw [← hconfig] at hroom
    change messages.size + next.due ≤ h'.config.pairEncoding.maxSecond.toNat
    omega

theorem Attends.fetched {h : HostState} {handle : Handle}
    (hattends : Attends request (.holding handle) h) :
    Attends request (.holding 0)
      { h with messages := (h.messages.remove handle).2 } where
  stores := ⟨HandleTable.remove_inOrder hattends.stores.inOrder _,
    (HandleTable.remove_limit _ _).trans hattends.stores.limit⟩
  idle := hattends.idle
  fits := hattends.fits
  within := hattends.within
  perform := hattends.perform
  stored := by
    intro k hk hne
    cases hk
    exact absurd rfl hne
  room := (Nat.add_le_add_right (HandleTable.size_remove_le _ _) 1).trans hattends.room

/-- A message of the core is answered, and the answer is delivered. -/
theorem Attends.exchange {s : CoreState G} {ptr len outPtr outLen : UInt32}
    {raw : ByteArray} {message : Outgoing} {h : HostState}
    (hattends : Attends request errand i.host) (hdue : 1 ≤ errand.due)
    (hnormal : i.exports.Normal s)
    (hread : s.memory.read? ptr.toNat len.toNat = some raw)
    (hlimit : raw.size ≤ i.host.config.maxMessageBytes)
    (hdispatch : i.host.dispatch raw = (.reply message, h))
    (hsame : i.host.SameReplies h)
    (hfits : message.encode.size < 2 ^ i.encoding.firstBits)
    (hroom : message.encode.size ≤ outLen.toNat → outPtr.toNat + message.encode.size ≤
      s.memory.size) : ∃ handle s' word messages, s.Receives i.encoding message.encode
        outPtr outLen handle s' word ∧
        i.host.messages.Takes message.encode handle messages ∧
      (serve (.messageExchange ptr len outPtr outLen)).on (i.onward s i.host) =
        (.ok word, i.onward s' { h with messages := messages }) := by
  have hstores : h.StoresReplies := by
    refine ⟨?_, ?_⟩
    · rw [hsame.messages]
      exact hattends.stores.inOrder
    · rw [hsame.messages, hsame.config]
      exact hattends.stores.limit
  have hencoding : (i.onward s h).encoding = i.encoding :=
    congrArg RuntimeConfig.pairEncoding hsame.config
  have hfree : (i.onward s h).host.messages.size <
      (i.onward s h).encoding.maxSecond.toNat := by
    rw [hencoding]
    change h.messages.size < _
    rw [hsame.messages]
    exact Nat.lt_of_lt_of_le (Nat.lt_add_of_pos_right hdue) hattends.room
  obtain ⟨handle, s', word, messages, hreceives, htakes, hdeliver⟩ :=
    Live.deliver_receives (i := i.onward s h) hstores (hencoding ▸ hfits) hroom hfree
  rw [hencoding] at hreceives
  change h.messages.Takes _ _ _ at htakes
  rw [hsame.messages] at htakes
  refine ⟨handle, s', word, messages, hreceives, htakes, ?_⟩
  exact (serve_exchange (i := i.onward s i.host) hnormal hread hlimit hdispatch).trans
    hdeliver

theorem size_stored_lt (encoding : PairEncoding) :
    Outgoing.stored.encode.size < 2 ^ encoding.firstBits := by
  cases encoding <;> decide +kernel

/-- A core that hands the reply back runs through, and has then reported the reply. -/
theorem run_echoes {x : Exports G} {encoding : PairEncoding} {a : Activation G Unit}
    (h : a.Echoes x encoding (Outgoing.performInput request).encode errand)
    (hkept : (Outgoing.performInput request).toJson.Kept 126) (hexports : i.exports = x)
    (hencoding : i.encoding = encoding) (hattends : Attends request errand i.host) :
    ∃ j, (run serve a).on i = (.ok (), j) ∧ j.exports = x ∧ x.Normal j.core ∧
    Attends request .done j.host := by
  -- By what the core has left to do; the host goes along with it as `Attends` says.
  induction h generalizing i with
  | @remark _ line _ _ ih =>
      obtain ⟨j, hrun, hj⟩ := ih (i := { i with host := i.host.emit (.remark line) })
        hexports hencoding ⟨⟨hattends.stores.inOrder, hattends.stores.limit⟩,
          hattends.idle, hattends.fits, hattends.within, hattends.perform,
          hattends.stored, hattends.room⟩
      refine ⟨j, ?_, hj⟩
      rw [run, Act.on_bind_ok (Act.on_modify _ _), hrun]
  | @ask s ptr len outPtr outLen resume hnormal hmessage hroom _ ih =>
      subst hexports hencoding
      have hlimit := (Incoming.size_inputMessage_le _).trans hattends.within
      have hdispatch := HostState.dispatch_inputMessage hattends.perform hlimit
      obtain ⟨handle, s', word, messages, hreceives, htakes, hserve⟩ :=
        hattends.exchange (by decide) hnormal hmessage hlimit hdispatch (.refl _)
          hattends.fits hroom
      rw [run_call hserve]
      refine ih handle s' word hreceives rfl rfl ?_
      refine hattends.delivered rfl rfl hattends.perform htakes (Nat.le_refl 2)
        fun k hk => ?_
      exact ⟨(Errand.holding.inj hk).symm, rfl⟩
  | @fetch handle s outPtr outLen resume hhandle hnormal hfits hroom _ ih =>
      subst hexports hencoding
      obtain ⟨memory, word, hwrite, hword, hserve⟩ :=
        serve_fetch (i := i.onward s i.host) hnormal
          (hattends.stored handle rfl hhandle) hfits hroom hattends.fits
      rw [run_call hserve]
      exact ih memory word hwrite hword rfl rfl hattends.fetched
  | @report s ptr len outPtr outLen resume hnormal hmessage hroom _ ih =>
      subst hexports hencoding
      have hdispatch :=
        HostState.dispatch_resultMessage hkept hattends.perform rfl hattends.within
      obtain ⟨handle, s', word, messages, hreceives, htakes, hserve⟩ :=
        hattends.exchange (Nat.le_refl 1) hnormal hmessage hattends.within
          hdispatch ⟨rfl, rfl⟩ (size_stored_lt _) hroom
      rw [run_call hserve]
      refine ih handle s' word hreceives rfl rfl ?_
      exact hattends.delivered rfl rfl rfl htakes (Nat.le_refl 1) fun k hk => nomatch hk
  | @finish s hnormal =>
      refine ⟨i.onward s i.host, ?_, hexports, hexports ▸ hnormal, hattends⟩
      rw [run, Act.on_bind_ok (Act.on_modify _ _)]
      rfl

end Instance

end Resumable
