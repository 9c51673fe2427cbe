import Resumable.Proofs.Host.Confinement
import Resumable.Proofs.Host.Header
import Resumable.Proofs.Host.Splicing
import Resumable.Proofs.Session.Instances
import Resumable.Proofs.Session.Performs
import Resumable.Proofs.Session.Reload

namespace Resumable

namespace PerformRequest

def told (r : PerformRequest) : List (String × Json) :=
  [("profile_url", .str r.profileUrl), ("provider_url", .str r.providerUrl),
   ("map_url", .str r.mapUrl), ("usecase", .str r.usecase), ("map_input", r.input),
   ("map_parameters", r.parameters), ("map_security", r.security)]

theorem get?_told (r : PerformRequest) :
    ∀ m ∈ r.told, (Outgoing.performInput r).toJson.get? m.1 = some m.2 := by
  rw [Outgoing.toJson_eq_obj]
  simp [told, Outgoing.members, Json.get?]

end PerformRequest

namespace Event

variable {G : Type}

def Sends (raw : ByteArray) : Event G → Prop
  | .served _ _ (.dispatched raw') _ _ => raw' = raw
  | _ => False

end Event

namespace Instance

variable {G : Type} {i j : Instance G} {request : PerformRequest} {fuel : Nat}

/-- An instance at rest whose core hands the reply to a request back. Its unwind
header and its messages have room, and two more replies may be stashed. -/
structure HandsBack (i : Instance G) (request : PerformRequest) : Prop where
  idle : i.host.bridge.pending = none
  normal : i.exports.Normal i.core
  header : i.host.config.asyncifyDataAddr.toNat + i.host.config.header.size ≤
    i.core.memory.size
  echoes : ∀ memory,
    i.core.memory.write? i.host.config.asyncifyDataAddr.toNat i.host.config.header =
      some memory → (i.exports.perform { i.core with memory := memory }).Echoes
      i.exports i.encoding
        (Outgoing.performInput request).encode .asking
  free : i.host.messages.size + 2 ≤ i.encoding.maxSecond.toNat
  fits : (Outgoing.performInput request).encode.size < 2 ^ i.encoding.firstBits
  within : (Incoming.resultMessage (Outgoing.performInput request).encode).size ≤
    i.host.config.maxMessageBytes

/-- An export that returns without having waited is called to its end. -/
theorem call_of_invoked {entry : Exports G → CoreState G → Activation G Unit}
    {memory : Memory} (hnormal : i.exports.Normal i.core)
    (hidle : i.host.bridge.pending = none)
    (hheader : i.core.memory.write? i.host.config.asyncifyDataAddr.toNat
      i.host.config.header = some memory)
        (hinvoke : (invoke entry).on (i.withMemory memory) = (.ok (), j))
        (hnormal' : j.exports.Normal j.core)
    (hidle' : j.host.bridge.pending = none) :
    i.call fuel entry = do return (.ok (), ← j.flush) := by
  have henter : (control.enter (invoke entry)).on i = (.ok (.returned ()), j) := by
    rw [Control.enter_on (state_on_of_getState hnormal) hidle (resetData_on hheader)]
    exact Control.settle_returned hinvoke (state_on_of_getState hnormal') hidle'
  rw [call, Control.run, henter]
  cases fuel <;> rfl

theorem HandsBack.attends (h : i.HandsBack request) (hi : i.host.StoresReplies) :
    Attends request .asking { i.host with perform := some { request } } where
  stores := ⟨hi.inOrder, hi.limit⟩
  idle := h.idle
  fits := h.fits
  within := h.within
  perform := rfl
  stored := fun _ hk => nomatch hk
  room := h.free

theorem HandsBack.perform_eq (h : i.HandsBack request) (fuel : Nat)
    (hi : i.host.StoresReplies)
    (hkept : (Outgoing.performInput request).toJson.Kept 126) :
    ∃ effects k, i.perform fuel request = do
      HostState.emitAll effects
      return (.ok ⟨request, some (.result (Outgoing.performInput request).toJson)⟩,
        k) := by
  obtain ⟨memory, hwrite, -⟩ := Memory.exists_wrote_of_le h.header
  obtain ⟨j, hrun, hexports, hnormal, hattends⟩ :=
    run_echoes
      (i := (i.onward i.core { i.host with perform := some { request } }).withMemory
        memory) (h.echoes memory hwrite) hkept rfl rfl (h.attends hi)
  have hcall :
      (i.onward i.core { i.host with perform := some { request } }).call fuel
        (fun x s => x.perform s) = do return (.ok (), ← j.flush) :=
    call_of_invoked h.normal h.idle hwrite hrun (hexports ▸ hnormal) hattends.idle
  refine ⟨j.host.outbox.reverse,
    j.onward j.core { j.host with outbox := [], perform := none }, ?_⟩
  have hperform := hattends.perform
  change Task.bind
    ((i.onward i.core { i.host with perform := some { request } }).call fuel
      (fun x s => x.perform s)) _ = _
  rw [hcall]
  simp only [flush, HostState.flush, bind, pure, Task.bind_assoc, Task.bind, hperform]
  rfl

end Instance

namespace Setup

variable {G : Type} {setup : Setup G} {s s' : Slot G} {request : PerformRequest}
  {i : Instance G} {r : Except PerformError Json} {log : List Exchange}

theorem kept_performInput
    (hvalues : ∀ v ∈ (Outgoing.performInput request).values, v.Kept 125) :
    (Outgoing.performInput request).toJson.Kept 126 :=
  @Outgoing.kept_toJson 123 (.performInput request) trivial hvalues

theorem perform_of_handsBack (hs : setup.Reachable s) (hlive : s.live = some i)
    (hblank : request.firstBlank? = none) (h : i.HandsBack request)
    (hvalues : ∀ v ∈ (Outgoing.performInput request).values, v.Kept 125) :
    (setup.perform request s).Total ∧ ∀ r s', (setup.perform request s).Ends (r, s') →
      r = .ok (Outgoing.performInput request).toJson ∧ s'.lifecycle = .ready := by
  obtain ⟨effects, k, hperform⟩ :=
    h.perform_eq setup.fuel (hs.reached hlive).storesReplies (kept_performInput hvalues)
  refine ⟨?_, ?_⟩
  · refine total_perform fun j hj => ?_
    cases hlive.symm.trans hj
    rw [hperform]
    exact (HostState.total_emitAll effects).bind fun _ => trivial
  · intro r s' hends
    have hready := hs.consistent.ready_of_live hlive
    unfold perform at hends
    rw [hblank, hlive] at hends
    obtain ⟨called, hcalled, hends⟩ := Task.ends_bind.mp hends
    rw [hperform] at hcalled
    obtain ⟨_, _, hcalled⟩ := Task.ends_bind.mp hcalled
    cases hcalled
    obtain ⟨t, harm, hends⟩ := Task.ends_bind.mp hends
    cases hends
    refine ⟨rfl, ?_⟩
    obtain ⟨log, hruns⟩ := harm.runs
    obtain ⟨-, -, rfl⟩ | ⟨-, id, -, rfl⟩ := Slot.runs_armTimer hruns <;> exact hready

/-- What a core and its host exchange in a perform. The core is given the reply for
its input whenever it asks for it, and if the first outcome that it reports is the
reply as it is, the perform answers the reply. -/
structure Conveys (request : PerformRequest) (r : Except PerformError Json)
    (driven : List (Event G)) : Prop where
  ofCore : ∀ e ∈ driven, e.OfCore
  given : ∀ earlier i call answer j later,
    driven = earlier ++ .served i call (.dispatched Incoming.inputMessage)
      answer j :: later →
      (i.host.dispatch Incoming.inputMessage).1 = .reply (.performInput request)
  taken : ∀ earlier e later, driven = earlier ++ e :: later →
    (∀ e ∈ earlier, e.outcome? = none) →
    e.Sends (Incoming.resultMessage (Outgoing.performInput request).encode) →
      r = .ok (Outgoing.performInput request).toJson ∨
        ∃ error : CallError, r =
          .error (.unexpected error.kind (CallError.message error))

/-- Whatever a core does, and however often it waits. -/
theorem conveys_of_runs (hs : setup.Reachable s) (hlive : s.live = some i)
    (hblank : request.firstBlank? = none)
    (hwithin : (Incoming.resultMessage (Outgoing.performInput request).encode).size ≤
      setup.config.maxMessageBytes)
        (hvalues : ∀ v ∈ (Outgoing.performInput request).values, v.Kept 125)
    (hruns : (setup.perform request s).Runs log (r, s')) :
    ∃ log driven standing k,
    Passage setup.fuel i log (.began request :: driven) standing k ∧
      Conveys request r driven := by
  obtain ⟨past, hstory⟩ := hs.story
  have hnone := hstory.unengaged i hlive
  obtain ⟨log', driven, standing, k, hpassage, hcore, -, hanswer⟩ :=
    performed_of_course (carryOut_course (runs_carryOut_perform hruns))
      hblank hlive hnone
  have hat {earlier later : List (Event G)} {i' j : Instance G}
      {call : ImportCall} {deed : Deed} {answer : Except CallError UInt64}
      (hdriven : driven = earlier ++ .served i' call deed answer j :: later) :
      i'.host.config = setup.config ∧
      i'.host.perform = some ⟨request, earlier.findSome? Event.outcome?⟩ := by
    obtain ⟨broken, hrun, -⟩ := hpassage.hostRun
    rw [hdriven, ← List.cons_append] at hrun
    obtain ⟨-, -, _, hbefore⟩ := hrun.at_served
    have hearlier : ∀ e ∈ earlier, e.OfCore := fun e he =>
      hcore e (hdriven ▸ List.mem_append_left _ he)
    exact ⟨hbefore.config.trans (hs.config hlive),
      (hbefore.perform hnone).trans (Event.held_began hearlier request)⟩
  refine ⟨log', driven, standing, k, hpassage, hcore, ?_, ?_⟩
  · intro earlier i' call answer j later hdriven
    obtain ⟨hconfig, hperform⟩ := hat hdriven
    have hlimit := (Incoming.size_inputMessage_le _).trans hwithin
    rw [← hconfig] at hlimit
    rw [HostState.dispatch_inputMessage hperform hlimit]
  · intro earlier e later hdriven hfirst hsends
    -- Only an exchange sends a message, and the host reads this one as the reply.
    have houtcome : e.outcome? =
        some (.result (Outgoing.performInput request).toJson) := by
      cases e with
      | served i' call deed answer j =>
          cases deed with
          | dispatched raw =>
              rw [← (hat hdriven).1] at hwithin
              have hreads : i'.host.reads raw =
                  some (.outputResult (Outgoing.performInput request).toJson) := by
                rw [show raw = _ from hsends]
                exact HostState.reads_resultMessage (kept_performInput hvalues) hwithin
              rw [Event.outcome?, hreads]
              rfl
          | none | completed | closed => exact hsends.elim
      | awaited | began | concluded | released => exact hsends.elim
    have hfound : driven.findSome? Event.outcome? =
        some (.result (Outgoing.performInput request).toJson) := by
      rw [hdriven, List.findSome?_append, List.findSome?_eq_none_iff.mpr hfirst,
        List.findSome?_cons, houtcome]
      rfl
    rw [hfound] at hanswer
    obtain ⟨hanswer, -⟩ | ⟨⟨error, hanswer⟩, -⟩ := hanswer
    · exact .inl (Answer.performed.inj hanswer)
    · exact .inr ⟨error, Answer.performed.inj hanswer⟩

/-- Values cross the boundary unchanged. A core that hands its reply back is answered
with the object of the reply, and of any core the first report of it is taken as that
object. The object holds the fields of the request, values without doubles are kept,
and a reply is UTF-8 that is read as its object and written like no other reply. -/
theorem values_cross_unchanged (setup : Setup G) :
    (∀ s i request, setup.Reachable s → s.live = some i → request.firstBlank? = none →
      (∀ v ∈ (Outgoing.performInput request).values, v.Kept 125) → i.HandsBack request →
      (setup.perform request s).Total ∧ ∀ r s', (setup.perform request s).Ends (r, s') →
        r = .ok (Outgoing.performInput request).toJson ∧ s'.lifecycle = .ready) ∧
    (∀ s i request log r s', setup.Reachable s → s.live = some i →
      request.firstBlank? = none →
      (∀ v ∈ (Outgoing.performInput request).values, v.Kept 125) →
      (Incoming.resultMessage (Outgoing.performInput request).encode).size ≤
      setup.config.maxMessageBytes → (setup.perform request s).Runs log (r, s') →
      ∃ log driven standing k, Passage setup.fuel i log
      (.began request :: driven) standing k ∧
        Conveys request r driven) ∧
    (∀ request : PerformRequest, ∀ m ∈ request.told,
      (Outgoing.performInput request).toJson.get? m.1 = some m.2) ∧
    (∀ (v : Json) (room : Nat), v.Plain → v.depth ≤ room → v.Kept room) ∧
    (∀ reply : Outgoing, String.fromUTF8? reply.encode = some reply.toJson.text ∧
      (reply.WellFormed → (∀ v ∈ reply.values, v.Kept 126) →
        Json.ofBytes reply.encode.toList = .ok reply.toJson)) ∧
    ∀ r r' : Outgoing, r.WellFormed → r'.WellFormed →
    r.encode = r'.encode → r = r' := by
  refine ⟨?_, ?_, PerformRequest.get?_told, ?_, ?_, ?_⟩
  · intro s i request hs hlive hblank hvalues h
    exact perform_of_handsBack hs hlive hblank h hvalues
  · intro s i request log r s' hs hlive hblank hvalues hwithin hruns
    exact conveys_of_runs hs hlive hblank hwithin hvalues hruns
  · intro v room hv hdepth
    exact hv.kept.mono hdepth
  · intro reply
    exact ⟨reply.fromUTF8?_encode,
      fun hformed hvalues => Outgoing.ofBytes_encode hformed hvalues⟩
  · intro r r' hr hr' h
    exact Outgoing.eq_of_encode hr hr' h

section Echo

def writing (start : Nat) (bytes : ByteArray)
    (next : CoreState Unit → Activation Unit Unit) (s : CoreState Unit) :
    Activation Unit Unit :=
  match s.memory.write? start bytes with
  | some memory => next { s with memory := memory }
  | none => .trap s .outOfBounds

/-- Report the reply that was delivered; the first half of the word is its size. -/
def reportReply (s : CoreState Unit) (word : UInt64) : Activation Unit Unit :=
  match s.memory.read? 8192 (word &&& 0xFFFFFFFF).toUInt32.toNat with
  | some reply =>
      writing 24576 (Incoming.resultMessage reply) (fun s =>
        .call s (.messageExchange 24576
          (UInt32.ofNat (Incoming.resultMessage reply).size) 8192 8192) fun s _ =>
            .finish s ()) s
  | none => .trap s .outOfBounds

/-- A core that hands every reply of up to 8192 bytes back. -/
def echoExports : Exports Unit where
  getState := fun s => (.ok 0, s)
  startUnwind := fun _ s => (.ok (), s)
  stopUnwind := fun s => (.ok (), s)
  startRewind := fun _ s => (.ok (), s)
  stopRewind := fun s => (.ok (), s)
  setup := fun s => .finish s ()
  teardown := fun s => .finish s ()
  perform := writing 4096 Incoming.inputMessage fun s =>
    .call s (.messageExchange 4096 24 8192 8192) reportReply
  getMetrics := fun s => .finish s 0
  clearMetrics := fun s => .finish s ()
  getDeveloperDump := fun s => .finish s 0

def echoCore : Core Unit := ⟨.ok ⟨.ofPages 1, ()⟩, none, .ok echoExports⟩

def echo : Setup Unit := ⟨{}, fun _ => some echoCore, 0⟩

theorem exists_writing (next : CoreState Unit → Activation Unit Unit) {start : Nat}
    {bytes : ByteArray} {s : CoreState Unit} (h : start + bytes.size ≤ s.memory.size) :
    ∃ memory, s.memory.Wrote start bytes memory ∧
    writing start bytes next s = next { s with memory := memory } := by
  obtain ⟨memory, hwrite, hwrote⟩ := Memory.exists_wrote_of_le h
  refine ⟨memory, hwrote, ?_⟩
  rw [writing, hwrite]

theorem reportReply_echoes {reply : ByteArray} (hshort : reply.size ≤ 8192)
    {handle : Handle} {s s' : CoreState Unit} {word : UInt64}
    (hsize : s.memory.size = 65536)
    (h : s.Receives .wide reply 8192 8192 handle s' word) :
    (reportReply s' word).Echoes echoExports .wide reply (.holding handle) := by
  cases h with
  | stashed hlong => exact absurd hshort (Nat.not_le.mpr hlong)
  | @written memory _ _ hwrite hword =>
      have hwrote := Memory.wrote_of_write? hwrite
      have hread : memory.read? 8192 (word &&& 0xFFFFFFFF).toUInt32.toNat =
          some reply := by
        have hfirst : (word &&& 0xFFFFFFFF).toUInt32 = UInt32.ofNat reply.size :=
          congrArg Pair.first (Except.ok.inj hword.decoded)
        rw [hfirst, UInt32.toNat_ofNat_of_lt' (Nat.lt_of_le_of_lt hshort (by decide))]
        exact hwrote.read
      have hmessage : (Incoming.resultMessage reply).size ≤ 8234 := by
        rw [Incoming.size_resultMessage]
        omega
      have hroom : 24576 + (Incoming.resultMessage reply).size ≤ memory.size := by
        rw [hwrote.size, hsize]
        omega
      rw [reportReply]
      simp only [hread]
      obtain ⟨memory', hwrote', heq⟩ :=
        exists_writing (s := ⟨memory, s.globals⟩) _ hroom
      rw [heq]
      refine .report rfl ?_ (fun _ => ?_) fun _ _ _ _ => .finish rfl
      · rw [UInt32.toNat_ofNat_of_lt' (Nat.lt_of_le_of_lt hmessage (by decide))]
        exact hwrote'.read
      · rw [hwrote'.size, hwrote.size, hsize]
        decide +kernel

theorem echo_echoes {reply : ByteArray} (hshort : reply.size ≤ 8192)
    {s : CoreState Unit} (hsize : s.memory.size = 65536) :
    (echoExports.perform s).Echoes echoExports .wide reply .asking := by
  have hroom : 4096 + Incoming.inputMessage.size ≤ s.memory.size := by
    rw [hsize]
    decide +kernel
  obtain ⟨memory, hwrote, heq⟩ :
    ∃ memory, s.memory.Wrote 4096 Incoming.inputMessage memory ∧
      echoExports.perform s =
        .call { s with memory := memory } (.messageExchange 4096 24 8192 8192)
          reportReply :=
    exists_writing (fun s => .call s (.messageExchange 4096 24 8192 8192) reportReply)
      hroom
  have hsize' : memory.size = 65536 := hwrote.size.trans hsize
  rw [heq]
  refine .ask rfl ?_ (fun _ => ?_) fun handle s' word =>
    reportReply_echoes hshort hsize'
  · rw [← hwrote.read, Incoming.size_inputMessage]
    rfl
  · rw [hsize']
    exact Nat.add_le_add_left hshort 8192 |>.trans (by decide)

theorem exists_echo_ready : ∃ (i : Instance Unit) (s : Slot Unit), echo.Reachable s ∧
    s.live = some i ∧ i.exports = echoExports ∧ i.core.memory.size = 65536 ∧
    i.host = .ofConfig {} := by
  let made : Instance Unit := ⟨⟨.ofPages 1, ()⟩, echoExports, .ofConfig {}⟩
  have hroom : 16 + (RuntimeConfig.header {}).size ≤ made.core.memory.size := by decide
  obtain ⟨memory, hwrite, hwrote⟩ := Memory.exists_wrote_of_le hroom
  let i := made.withMemory memory
  have hcall : made.setup 0 = do return (.ok (), ← i.flush) :=
    Instance.call_of_invoked rfl rfl hwrite rfl rfl rfl
  have hsetup : (made.setup 0).Ends (.ok (), i) := by
    rw [hcall]
    rfl
  have hload : (echo.carryOut (.load .empty) .empty).Ends
      (.loaded (.ok ()), ⟨.compiled, some echoCore, none, none, 0⟩) := rfl
  have hinit : (echo.carryOut .init ⟨.compiled, some echoCore, none, none, 0⟩).Ends
      (.initialized (.ok ()), ⟨.ready, some echoCore, some i, none, 0⟩) := by
    refine Task.ends_bind.mpr ⟨(.ok (), _), ?_, rfl⟩
    refine Task.ends_bind.mpr ⟨.ok made, rfl, ?_⟩
    exact Task.ends_bind.mpr ⟨(.ok (), i), hsetup, rfl⟩
  have hready : echo.Reachable ⟨.ready, some echoCore, some i, none, 0⟩ :=
    .step (.step .empty hload) hinit
  exact ⟨i, _, hready, rfl, rfl, hwrote.size, rfl⟩

def echoRequest : PerformRequest where
  profileUrl := "p\"\\\u0001\n"
  providerUrl := "é"
  mapUrl := "\u2028😀"
  usecase := "u"
  input := .obj
    [("a", .arr [.null, .bool true, .int (-9223372036854775808),
      .int 18446744073709551615]),
     ("é", .obj [("", .str "\t")])]
  parameters := .arr []
  security := .str "\u0000"

theorem echoRequest_plain :
    ∀ v ∈ (Outgoing.performInput echoRequest).values, v.Plain ∧ v.depth ≤ 125 := by
  have hlist :
      (Json.arr [.null, .bool true, .int (-9223372036854775808),
        .int 18446744073709551615]).Plain := by
    refine .arr ?_
    simp only [List.forall_mem_cons]
    exact ⟨.null, .bool true, .int (by decide) (by decide),
      .int (by decide) (by decide), nofun⟩
  have hobject : (Json.obj [("", .str "\t")]).Plain :=
    .obj (List.pairwise_singleton _ _) (List.forall_mem_singleton.mpr (.str _))
  have hinput : echoRequest.input.Plain := by
    refine .obj (List.pairwise_pair.mpr (by decide)) ?_
    simp only [List.forall_mem_cons]
    exact ⟨hlist, hobject, nofun⟩
  simp only [Outgoing.values, List.forall_mem_cons]
  exact ⟨⟨hinput, by decide⟩, ⟨.arr nofun, by decide⟩, ⟨.str _, by decide⟩, nofun⟩

theorem echo_answers_reply :
    ∃ s i, echo.Reachable s ∧ s.live = some i ∧ i.HandsBack echoRequest ∧
      (echo.perform echoRequest s).Total ∧
      (∀ r s', (echo.perform echoRequest s).Ends (r, s') →
        r = .ok (Outgoing.performInput echoRequest).toJson ∧ s'.lifecycle = .ready) ∧
      (∃ log r s' log' driven standing k,
        (echo.perform echoRequest s).Runs log (r, s') ∧
        Passage echo.fuel i log' (.began echoRequest :: driven) standing k ∧
        Conveys echoRequest r driven) ∧
      Json.ofBytes (Outgoing.httpHead 200 [("a", ["b", "c"]), ("d", [])]
        7).encode.toList =
          .ok (Outgoing.httpHead 200 [("a", ["b", "c"]), ("d", [])] 7).toJson ∧
      (Outgoing.fileOpened 1).encode ≠ (Outgoing.fileOpened 2).encode := by
  obtain ⟨hanswered, hconveyed, -, hplain, hread, hdistinct⟩ :=
    values_cross_unchanged echo
  obtain ⟨i, s, hs, hlive, hexports, hmemory, hhost⟩ := exists_echo_ready
  have hblank : echoRequest.firstBlank? = none := by decide +kernel
  have hshort : (Outgoing.performInput echoRequest).encode.size ≤ 8192 := by
    rw [Outgoing.encode, Json.size_bytes]
    decide +kernel
  have hwithin :
      (Incoming.resultMessage (Outgoing.performInput echoRequest).encode).size ≤
        (RuntimeConfig.maxMessageBytes {}) := by
    rw [Incoming.size_resultMessage]
    exact (Nat.add_le_add_right hshort 42).trans (by decide)
  have hvalues : ∀ v ∈ (Outgoing.performInput echoRequest).values,
      v.Kept 125 := fun v hv =>
    hplain v 125 (echoRequest_plain v hv).1 (echoRequest_plain v hv).2
  have hback : i.HandsBack echoRequest := by
    refine ⟨?_, ?_, ?_, ?_, ?_, ?_, ?_⟩
    · rw [hhost]
      rfl
    · rw [hexports]
      rfl
    · rw [hhost, hmemory]
      decide
    · intro memory hwrite
      rw [hexports, Instance.encoding, hhost]
      exact echo_echoes hshort ((Memory.wrote_of_write? hwrite).size.trans hmemory)
    · rw [Instance.encoding, hhost]
      decide
    · rw [Instance.encoding, hhost]
      exact Nat.lt_of_le_of_lt hshort (by decide)
    · rw [hhost]
      exact hwithin
  obtain ⟨htotal, hends⟩ := hanswered s i echoRequest hs hlive hblank hvalues hback
  obtain ⟨⟨r, s'⟩, hend⟩ := htotal.exists_ends
  obtain ⟨log, hruns⟩ := hend.runs
  obtain ⟨log', driven, standing, k, hpassage, hconveys⟩ :=
    hconveyed s i echoRequest log r s' hs hlive hblank hvalues hwithin hruns
  refine ⟨s, i, hs, hlive, hback, htotal, hends,
    ⟨log, r, s', log', driven, standing, k, hruns, hpassage, hconveys⟩, ?_, ?_⟩
  · exact (hread _).2 ⟨by decide, List.pairwise_pair.mpr (by decide)⟩ nofun
  · intro heq
    have hne : Outgoing.fileOpened 1 ≠ .fileOpened 2 := by simp
    exact hne (hdistinct (.fileOpened 1) (.fileOpened 2) trivial trivial heq)

end Echo

section Losses

def isText (text : String) : Except Json.ReadError Json → Bool
  | .ok v => v.text == text
  | .error _ => false

theorem of_isText {w : Json} {r : Except Json.ReadError Json}
    (h : isText w.text r = true) : r = .ok w := by
  unfold isText at h
  split at h
  · exact congrArg Except.ok (Json.text_injective (eq_of_beq h))
  · cases h

def replyWith (input : Json) : Outgoing :=
  .performInput ⟨"p", "v", "m", "u", input, .null, .null⟩

/-- A reply with a double that is read as its neighbour, and one with more brackets
than may be open. -/
theorem tiny_and_nested_replies_lost :
    Json.ofBytes (replyWith (.double Incoming.tiny)).encode.toList =
        .ok (replyWith (.double Incoming.tinyNeighbour)).toJson ∧
      (replyWith (.double Incoming.tinyNeighbour)).toJson ≠
        (replyWith (.double Incoming.tiny)).toJson ∧
      ∃ place, Json.ofBytes (replyWith (Incoming.nested 127)).encode.toList =
      .error ⟨.tooDeep, place⟩ := by
  refine ⟨of_isText ?_, ?_, Incoming.of_isTooDeep ?_⟩
  · rw [Outgoing.encode, Json.toList_bytes]
    decide +kernel
  · intro heq
    have hformed (input : Json) : (replyWith input).WellFormed := trivial
    have hinput := Outgoing.toJson_injective (hformed _) (hformed _) heq
    simp [replyWith, Incoming.tiny, Incoming.tinyNeighbour] at hinput
  · rw [Outgoing.encode, Json.toList_bytes]
    decide +kernel

end Losses

end Setup

end Resumable
