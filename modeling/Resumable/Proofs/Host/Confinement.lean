import Resumable.Proofs.Host.Ranges
import Resumable.Proofs.Host.Results
import Resumable.Proofs.Stream.Filling

namespace Resumable

namespace Live

variable {G α β : Type} {source target : Region} {i : Instance G}

/-- The step depends on the memory in the source alone, and writes into the target
alone. Whatever the memory is elsewhere, the step comes to the same, and the same
bytes are written. -/
def Confined (source target : Region) (step : Live G α) (i : Instance G) : Prop :=
  ∃ r host pieces, (∀ piece ∈ pieces, target.Covers piece.1 piece.2) ∧
    ∀ m, i.core.memory.AgreeOn source m → ∃ m', m.Written pieces m' ∧
      step.on (i.withMemory m) = (r, i.onward { i.core with memory := m' } host)

namespace Confined

theorem of_host {step : Live G α} (r : Except CallError α) (host : HostState)
    (h : ∀ m, step.on (i.withMemory m) =
      (r, i.onward { i.core with memory := m } host)) :
    Confined source target step i :=
  ⟨r, host, [], List.forall_mem_nil _, fun m _ => ⟨m, rfl, h m⟩⟩

theorem pure (v : α) : Confined source target (Pure.pure v) i :=
  of_host _ _ fun _ => rfl

theorem fail (e : Fault) : Confined source target (Act.fail e : Live G α) i :=
  of_host _ _ fun _ => rfl

theorem violate (v : Violation) :
    Confined source target (Act.violate v : Live G α) i := of_host _ _ fun _ => rfl

theorem host (f : HostState → α × HostState) : Confined source target (Live.host f) i :=
  of_host (.ok (f i.host).1) (f i.host).2 fun _ => rfl

theorem read (f : HostState → α) :
    Confined source target (Act.read fun i => f i.host) i :=
  of_host (.ok (f i.host)) i.host fun _ => rfl

theorem bind {a : Live G α} {f : α → Live G β} (ha : Confined source target a i)
    (hf : ∀ v j, a.on i = (.ok v, j) → Confined source target (f v) j) :
    Confined source target (a >>= f) i := by
  obtain ⟨r, host, pieces, hpieces, hrun⟩ := ha
  obtain ⟨m₁, hwritten, hon⟩ := hrun i.core.memory (.refl _ _)
  cases r with
  | error e =>
      refine ⟨.error e, host, pieces, hpieces, fun m hm => ?_⟩
      obtain ⟨m', hwritten', hon'⟩ := hrun m hm
      exact ⟨m', hwritten', Act.on_bind_error hon'⟩
  | ok v =>
      obtain ⟨r, host', rest, hrest, hrun'⟩ := hf v _ hon
      refine ⟨r, host', pieces ++ rest, List.forall_mem_append.mpr ⟨hpieces, hrest⟩,
        fun m hm => ?_⟩
      obtain ⟨m₂, hwritten₂, hon₂⟩ := hrun m hm
      obtain ⟨m', hwritten', hon'⟩ := hrun' m₂ (hm.written hwritten hwritten₂)
      exact ⟨m', hwritten₂.append hwritten', (Act.on_bind_ok hon₂).trans hon'⟩

theorem readMemory? (ptr len : UInt32) :
    Confined ⟨ptr.toNat, len.toNat⟩ target (Live.readMemory? ptr len : Live G _) i := by
  refine ⟨.ok (i.core.memory.read? ptr.toNat len.toNat), i.host, [],
    List.forall_mem_nil _, fun m hm => ?_⟩
  refine ⟨m, rfl, ?_⟩
  rw [← hm.read?]
  rfl

theorem writeMemory {outPtr : UInt32} {bytes : ByteArray} {length : Nat}
    (hfits : bytes.size ≤ length) :
    Confined source ⟨outPtr.toNat, length⟩ (Live.writeMemory outPtr bytes :
      Live G _) i := by
  rcases Nat.lt_or_ge i.core.memory.size (outPtr.toNat + bytes.size) with hout | hin
  · refine ⟨.ok false, i.host, [], List.forall_mem_nil _, fun m hm => ⟨m, rfl, ?_⟩⟩
    exact on_writeMemory_none (Memory.write?_eq_none_iff.mpr (hm.size ▸ hout))
  · refine ⟨.ok true, i.host, [(outPtr.toNat, bytes)], ?_, fun m hm => ?_⟩
    · exact List.forall_mem_singleton.mpr ⟨Nat.le_refl _, Nat.add_le_add_left hfits _⟩
    · obtain ⟨m', hwrite, -⟩ := Memory.exists_wrote_of_le (m := m) (hm.size ▸ hin)
      exact ⟨m', ⟨m', hwrite, rfl⟩, on_writeMemory_some hwrite⟩

theorem ofAbi (r : Except AbiError UInt64) :
    Confined source target (Live.ofAbi r : Live G _) i := by
  cases r with
  | ok word => exact pure word
  | error e => exact fail (Fault.abi e)

theorem answer (result : Except Errno UInt32) :
    Confined source target (Live.answer result : Live G _) i :=
  bind (read HostState.config) fun _ _ _ => ofAbi _

theorem stash (bytes : ByteArray) :
    Confined source target (Live.stash bytes : Live G _) i := by
  refine bind (host _) fun handle _ _ => ?_
  cases handle with
  | some handle => exact pure handle
  | none => exact fail Fault.storeFull

theorem deliver (message : Outgoing) (outPtr outLen : UInt32) :
    Confined source ⟨outPtr.toNat, outLen.toNat⟩ (Live.deliver message outPtr outLen :
      Live G _) i := by
  rcases Nat.lt_or_ge message.encode.size 4294967296 with hsmall | hlong
  · rw [deliver_eq hsmall]
    refine bind ?_ fun _ _ _ => bind (read HostState.config) fun _ _ _ => ofAbi _
    split
    · next hfits =>
        refine bind (writeMemory hfits) fun written _ _ => ?_
        cases written with
        | true => exact pure 0
        | false => exact fail Fault.replyOutside
    · exact stash _
  · rw [deliver_of_long hlong]
    exact fail Fault.replyTooLong

theorem retrieve (handle outPtr outLen : UInt32) :
    Confined source ⟨outPtr.toNat, outLen.toNat⟩ (Live.retrieve handle outPtr outLen :
      Live G _) i := by
  refine bind (read fun h => h.messages.get? handle) fun stored _ _ => ?_
  cases stored with
  | none => exact pure _
  | some bytes =>
      dsimp only
      split
      · exact pure _
      · next hfits =>
          refine bind (writeMemory (Nat.not_lt.mp hfits)) fun written _ _ => ?_
          cases written with
          | false => exact pure _
          | true => exact bind (host _) fun _ _ _ => pure _

end Confined

end Live

namespace ImportCall

/-- The memory that a call is given to read. A message over the limit is not read. -/
def source (config : RuntimeConfig) : ImportCall → Region
  | .messageExchange ptr len _ _ =>
      if config.maxMessageBytes < len.toNat then .empty else ⟨ptr.toNat, len.toNat⟩
  | .streamWrite _ inPtr inLen => ⟨inPtr.toNat, inLen.toNat⟩
  | _ => .empty

def target : ImportCall → Region
  | .messageExchange _ _ outPtr outLen => ⟨outPtr.toNat, outLen.toNat⟩
  | .messageRetrieve _ outPtr outLen => ⟨outPtr.toNat, outLen.toNat⟩
  | .streamRead _ outPtr outLen => ⟨outPtr.toNat, outLen.toNat⟩
  | _ => .empty

end ImportCall

namespace Live

variable {G : Type}

theorem confined_start (call : ImportCall) (i : Instance G) :
    Confined (call.source i.host.config) call.target call.start i := by
  cases call with
  | messageExchange ptr len outPtr outLen =>
      refine Confined.bind (.read HostState.config) fun config j hj => ?_
      cases hj
      dsimp only [ImportCall.source, ImportCall.target]
      split
      · exact .bind (.deliver _ _ _) fun _ _ _ => .pure _
      · refine .bind (.readMemory? ptr len) fun raw? _ _ => ?_
        cases raw? with
        | none => exact .fail Fault.messageOutside
        | some raw =>
            refine .bind (.host _) fun dispatch _ _ => ?_
            cases dispatch with
            | reply message => exact .bind (.deliver _ _ _) fun _ _ _ => .pure _
            | deferred operation => exact .pure _
  | messageRetrieve handle outPtr outLen =>
      exact .bind (.retrieve _ _ _) fun _ _ _ => .bind (.answer _) fun _ _ _ => .pure _
  | streamRead handle outPtr outLen =>
      refine .bind (.read fun h => h.streams.get? handle) fun stream _ _ => ?_
      cases stream with
      | none => exact .bind (.answer _) fun _ _ _ => .pure _
      | some stream => exact .bind (.read HostState.config) fun _ _ _ => .pure _
  | streamWrite handle inPtr inLen =>
      refine .bind (.read fun h => h.streams.get? handle) fun stream _ _ => ?_
      cases stream with
      | none => exact .bind (.answer _) fun _ _ _ => .pure _
      | some stream =>
          refine .bind (.readMemory? inPtr inLen) fun bytes? _ _ => ?_
          cases bytes? with
          | none => exact .bind (.answer _) fun _ _ _ => .pure _
          | some bytes => exact .pure _
  | streamClose handle =>
      refine .bind (.host _) fun stream _ _ => ?_
      cases stream with
      | none => exact .bind (.answer _) fun _ _ _ => .pure _
      | some stream => exact .pure _

/-- Finishing a call reads nothing. A stream that was read must have given no more
than there is room for. -/
theorem confined_finish {call : ImportCall} {value : Resolved}
    (hread : ∀ bytes, value = .read (.ok bytes) → value.caller = call.name →
      bytes.size ≤ call.target.length)
    (i : Instance G) : Confined .empty call.target (call.finish value) i := by
  by_cases hown : value.caller = call.name
  · cases call with
    | messageRetrieve => exact .violate _
    | messageExchange ptr len outPtr outLen =>
        cases value with
        | message completion => exact .bind (.host _) fun _ _ _ => .deliver _ _ _
        | read | write | close => exact .violate _
    | streamRead handle outPtr outLen =>
        rcases value with _ | (errno | bytes) | _ | _
        · exact .violate _
        · exact .answer _
        · refine .bind (.writeMemory (hread bytes rfl hown)) fun written _ _ => ?_
          cases written with
          | true => exact .answer _
          | false => exact .answer _
        · exact .violate _
        · exact .violate _
    | streamWrite =>
        cases value with
        | write => exact .answer _
        | message | read | close => exact .violate _
    | streamClose =>
        cases value with
        | close => exact .answer _
        | message | read | write => exact .violate _
  · rw [Instance.finish_of_ne hown]
    exact .violate _

end Live

def Exchange.KeepsLimit : Exchange → Prop
  | ⟨.readFile _ max, .ok bytes⟩ => bytes.size ≤ max
  | _ => True

section Limits

variable {U : Type} {log : List Exchange} {bytes : ByteArray}

theorem ChunkReader.size_le_of_read {pull : U → Task (Pull × U)} {fuel max : Nat}
    {r r' : ChunkReader U}
    (h : (r.read pull fuel max).Runs log (some (.ok bytes, r'))) :
    bytes.size ≤ max := by
  unfold ChunkReader.read at h
  split at h
  · cases h.2
  · split at h
    · cases h.2
      exact Nat.zero_le _
    · obtain ⟨filled, _, _, rfl, -, h⟩ := Task.runs_bind.mp h
      rcases filled with _ | ⟨_ | _ | _, filled⟩
      · cases h.2
      · cases h.2
      · cases h.2
        exact Nat.zero_le _
      · cases h.2
        exact filled.size_take_le max

theorem Stream.size_le_of_read {fuel max : Nat} {stream stream' : Stream}
    (hlog : ∀ x ∈ log, x.KeepsLimit)
    (h : (stream.read fuel max).Runs log (.ok bytes, stream')) : bytes.size ≤ max := by
  cases stream with
  | file id =>
      obtain ⟨result, _, _, rfl, hrequest, rfl, hr⟩ := Task.runs_bind.mp h
      cases hr
      cases Task.runs_request.mp hrequest
      exact hlog _ (List.mem_cons_self ..)
  | body reader =>
      obtain ⟨read?, _, _, rfl, hread, h⟩ := Task.runs_bind.mp h
      obtain ⟨⟨result, reader'⟩, _, _, rfl, hsome, rfl, hr⟩ := Task.runs_bind.mp h
      obtain ⟨rfl, rfl⟩ := Task.runs_ofOption hsome
      cases hr
      exact ChunkReader.size_le_of_read hread

end Limits

namespace Event

variable {G : Type}

def KeepsLimits : Event G → Prop
  | .awaited _ _ log _ _ => ∀ x ∈ log, x.KeepsLimit
  | _ => True

/-- Whenever the core is rewound, it makes the very call again that has waited for the
value in the slot. -/
def Faithful (past : List (Event G)) : Prop :=
  ∀ earlier k call deed answer j later started operation value,
    past = earlier ++ .served k call deed answer j :: later →
    (Instance.control.state.on k).1 = .ok .rewinding →
      k.host.bridge.pending = some (.resolved value) →
      ComesFrom started operation value earlier → call = started

end Event

theorem Deed.apply_config (deed : Deed) (h : HostState) :
    (deed.apply h).config = h.config := by
  cases deed with
  | none | closed => rfl
  | dispatched raw => exact (h.dispatch_sameReplies raw).config
  | completed completion => exact (h.apply_sameReplies completion).config

namespace HostRun

variable {G : Type} {fuel : Nat} {h₀ h : HostState} {past : List (Event G)}
  {broken : Bool}

theorem config (hrun : HostRun fuel h₀ past broken h) : h.config = h₀.config := by
  induction hrun with
  | start => rfl
  | passedOn _ _ ih | dropped _ _ ih | began _ _ ih | concluded _ ih
      | released _ ih => exact ih
  | @served _ _ i j _ deed _ _ _ hserving ih =>
      obtain ⟨core, host, -, hagrees, rfl⟩ := hserving.follows
      exact (hagrees.config.trans (deed.apply_config i.host)).trans ih
  | awaited _ _ hserved ih => cases hserved <;> exact ih

/-- What has been read came from a call that had room for it. -/
theorem read_within {started : ImportCall} {operation : Deferred} {bytes : ByteArray}
    (hrun : HostRun fuel h₀ past broken h) (hlimits : ∀ e ∈ past, e.KeepsLimits)
    (hcomes : Event.ComesFrom started operation (.read (.ok bytes)) past) :
    ∃ handle outPtr outLen, started = .streamRead handle outPtr outLen ∧
      bytes.size ≤ min outLen.toNat h₀.config.maxReadBytes := by
  obtain ⟨earlier, before, log, after, later, rfl, -, first, e, rest, rfl,
    hparked, -⟩ := hcomes
  obtain ⟨hserved, h', -, -, hrun'⟩ := hrun.at_awaited
  have hlog :=
    hlimits (.awaited before operation log (.read (.ok bytes)) after) (by simp)
  cases e with
  | awaited | began | concluded | released => exact hparked.elim
  | served k call deed answer j =>
      obtain ⟨rfl, hidle, hpending⟩ := hparked
      obtain ⟨hserve, -, _, hrun''⟩ := hrun'.at_served
      have hstart := Instance.start_of_parked hserve hidle hpending
      cases hserved with
      | @read handle _ _ _ _ _ hread =>
          obtain ⟨outPtr, outLen, rfl, hmax⟩ := Live.start_reads hstart
          have hconfig : k.told.host.config = h₀.config := hrun''.config
          rw [hconfig] at hmax
          exact ⟨handle, outPtr, outLen, rfl,
            Nat.le_trans (Stream.size_le_of_read hlog hread) hmax⟩

end HostRun

namespace Instance

variable {G : Type}

/-- What an import call does with the memory of the core: whichever way it goes, its
halves are confined to what the call is given. -/
structure Confines (i : Instance G) (call : ImportCall)
    (answer : Except CallError UInt64) (j : Instance G) : Prop where
  course : i.Course call answer j
  start : Live.Confined (call.source i.host.config) call.target call.start i.told
  finish : ∀ value core, (control.state.on i).1 = .ok .rewinding →
    i.host.bridge.pending = some (.resolved value) →
    Live.Confined .empty call.target (call.finish value)
    (i.onward core (i.host.withPending none))
  limit : ∀ bytes, (control.state.on i).1 = .ok .rewinding →
    i.host.bridge.pending = some (.resolved (.read (.ok bytes))) →
      bytes.size ≤ min call.target.length i.host.config.maxReadBytes

end Instance

/-- The imports of a core that replays faithfully read no more of its memory than they
are given to read, and write no more than into the buffer they are given, provided
that no file gives more than it is asked for. Every instance accepts just the ranges
that do not end behind the memory. -/
theorem Passage.memory_confined {G : Type} {fuel : Nat} {i₀ i : Instance G}
    {log : List Exchange} {past : List (Event G)} {standing : Standing}
    (hidle : i₀.host.bridge.pending = none) (h : Passage fuel i₀ log past standing i)
    (hfaithful : Event.Faithful past) (hlimits : ∀ e ∈ past, e.KeepsLimits) :
    (∀ earlier k call deed answer j later, past =
      earlier ++ .served k call deed answer j :: later → k.Confines call answer j) ∧
        ∀ k : Instance G, k.ChecksRanges := by
  refine ⟨?_, Instance.checksRanges⟩
  rintro earlier k call deed answer j later rfl
  obtain ⟨_, hrun, -⟩ := h.hostRun
  obtain ⟨hserve, -, _, hearlier⟩ := hrun.at_served
  have hlimits' : ∀ e ∈ earlier, e.KeepsLimits := fun e he =>
    hlimits e (List.mem_append_left _ he)
  have hlimit (bytes : ByteArray) (hs : (Instance.control.state.on k).1 =
      .ok .rewinding) (hvalue : k.host.bridge.pending =
      some (.resolved (.read (.ok bytes)))) : bytes.size ≤
        min call.target.length k.host.config.maxReadBytes := by
    obtain ⟨started, operation, -, hcomes⟩ := hearlier.comesFrom hidle hvalue
    obtain ⟨handle, outPtr, outLen, rfl, hsize⟩ := hearlier.read_within hlimits' hcomes
    cases hfaithful _ _ _ _ _ _ _ _ _ _ rfl hs hvalue hcomes
    rwa [hearlier.config]
  refine ⟨Instance.course_of_serve hserve, Live.confined_start call k.told,
    fun value core hs hvalue => ?_, hlimit⟩
  refine Live.confined_finish ?_ _
  rintro bytes rfl -
  exact Nat.le_trans (hlimit bytes hs hvalue) (Nat.min_le_left _ _)

section Reading

/-- A core that never makes but one call replays faithfully. -/
theorem Event.faithful_of_forall {G : Type} {past : List (Event G)} (only : ImportCall)
    (h : ∀ k call deed answer j, .served k call deed answer j ∈ past → call = only) :
    Event.Faithful past := by
  rintro earlier k call deed answer j later started operation value rfl - - hcomes
  obtain ⟨earlier, before, log, after, rest, rfl, -, first, e, between, rfl,
    hparked, -⟩ := hcomes
  cases e with
  | awaited | began | concluded | released => exact hparked.elim
  | served k' call' deed' answer' j' =>
      obtain ⟨rfl, -, -⟩ := hparked
      have hcall := h k call deed answer j (by simp)
      have hcall' := h k' call' deed' answer' j' (by simp)
      exact hcall.trans hcall'.symm

namespace Instance

def reading (memory : Memory) (state : Int32) (bridge : Bridge Deferred Resolved) :
    Instance Int32 :=
  ⟨⟨memory, state⟩, (reader 0 none).exports,
    { (reader 0 none).host with bridge := bridge }⟩

def given : ByteArray := ⟨#[97, 98, 99]⟩

theorem exists_read : ∃ log past memory memory' deed deed',
    Called 0 (fun x s => x.perform s) (reader 0 none) log past (some (.ok ()))
      (reading memory' 0 ⟨none, 1⟩) ∧ past =
        [ .served (reading memory 0 ⟨none, 0⟩) (.streamRead 1 0 16) deed (.ok 0)
            (reading memory 1 ⟨some (.inFlight (.read 1 (.file 7) 16)), 0⟩)
        , .awaited (reading memory 0 ⟨none, 0⟩).host (.read 1 (.file 7) 16)
          [⟨.readFile 7 16, .ok given⟩]
            (.read (.ok given)) (reading memory 0 ⟨none, 0⟩).host
        , .served (reading memory 2 ⟨some (.resolved (.read (.ok given))), 1⟩)
          (.streamRead 1 0 16) deed' (.ok 3)
            (reading memory' 0 ⟨none, 1⟩) ] := by
  have hready : control.readyEntry.on (reader 0 none) =
    (.ok (), reading (control.readyEntry.on (reader 0 none)).2.core.memory 0
      ⟨none, 0⟩) := rfl
  have hsize : (control.readyEntry.on (reader 0 none)).2.core.memory.size = 65536 := rfl
  generalize (control.readyEntry.on (reader 0 none)).2.core.memory =
    memory at hready hsize
  have hin : (0 : UInt32).toNat + given.size ≤ memory.size := by
    rw [hsize]
    decide
  obtain ⟨memory', -, hput⟩ :=
    (puts_read 1 0 16 given (reading memory 0 ⟨none, 1⟩)).accepted hin
  have hrewind :
      (control.readyRewind (.read (.ok given))).on (reading memory 0 ⟨none, 0⟩) =
    (.ok (), reading memory 2 ⟨some (.resolved (.read (.ok given))), 1⟩) := rfl
  have hstart : (serve (.streamRead 1 0 16)).on (reading memory 0 ⟨none, 0⟩) =
    (.ok 0, reading memory 1 ⟨some (.inFlight (.read 1 (.file 7) 16)), 0⟩) := rfl
  have hfinish :
      (serve (.streamRead 1 0 16)).on
        (reading memory 2 ⟨some (.resolved (.read (.ok given))), 1⟩) =
        (.ok 3, reading memory' 0 ⟨none, 1⟩) :=
    (serve_of_rewound rfl rfl rfl).trans hput
  have hread :
      ((Deferred.read 1 (.file 7) 16).serve 0 (reading memory 0 ⟨none, 0⟩).host).Runs
    [⟨.readFile 7 16, .ok given⟩] (.read (.ok given),
      (reading memory 0 ⟨none, 0⟩).host) :=
      ⟨.ok given, [], rfl, rfl, rfl⟩
  have hflush (state : Int32) (bridge : Bridge Deferred Resolved) :
    (reading memory state bridge).host.flush.Runs []
    (reading memory state bridge).host := ⟨rfl, rfl⟩
  have hflush' :
      (reading memory' 0 ⟨none, 1⟩).flush.Runs [] (reading memory' 0 ⟨none, 1⟩) :=
      ⟨rfl, rfl⟩
  obtain ⟨deed, hserving⟩ := (reading memory 0 ⟨none, 0⟩).exists_serving
    (.streamRead 1 0 16)
  rw [hstart] at hserving
  obtain ⟨deed', hserving'⟩ :=
    (reading memory 2 ⟨some (.resolved (.read (.ok given))), 1⟩).exists_serving
    (.streamRead 1 0 16)
  rw [hfinish] at hserving'
  have htold :
      ((reader 0 none).exports.perform (reading memory 0 ⟨none, 0⟩).core).Tells
        (reading memory 0 ⟨none, 0⟩) [_] (.ok ())
        (reading memory 1 ⟨some (.inFlight (.read 1 (.file 7) 16)), 0⟩) :=
    .answered hstart hserving (.finish _ () _)
  have htold' : ((reader 0 none).exports.perform
      (reading memory 2 ⟨some (.resolved (.read (.ok given))), 1⟩).core).Tells
      (reading memory 2 ⟨some (.resolved (.read (.ok given))), 1⟩) [_] (.ok ())
      (reading memory' 0 ⟨none, 1⟩) :=
    .answered hfinish hserving' (.finish _ () _)
  have hturn : Turn control.readyEntry (fun x s => x.perform s) (reader 0 none) _ _ :=
    .taken hready htold
  have hturn' : Turn (control.readyRewind (.read (.ok given))) (fun x s => x.perform s)
      (reading memory 0 ⟨none, 0⟩) _ _ :=
    .taken hrewind htold'
  have hdriven := Driven.resumed (i := reading memory 0 ⟨none, 0⟩) (hflush _ _) hread
    hturn' (.returned () _)
  exact ⟨_, _, memory, memory', deed, deed', .ended hturn hdriven hflush', rfl⟩

end Instance

/-- What is read of a file is written into the buffer that was given for it. -/
theorem reader_confined :
    (Instance.reader 0 none).host.bridge.pending = none ∧ ∃ log past i,
      Passage 0 (Instance.reader 0 none) log past .ready i ∧ Event.Faithful past ∧
        (∀ e ∈ past, e.KeepsLimits) ∧ ∃ earlier k deed j,
          past = earlier ++ [.served k (.streamRead 1 0 16) deed (.ok 3) j] ∧
            (Instance.control.state.on k).1 = .ok .rewinding ∧
            k.Confines (.streamRead 1 0 16) (.ok 3) j := by
  obtain ⟨log, past, memory, memory', deed, deed', hcalled, hpast⟩ :=
    Instance.exists_read
  have hpassage : Passage 0 (Instance.reader 0 none) _ ([] ++ past) .ready _ :=
    .called .start hcalled
  rw [List.nil_append] at hpassage
  have hfaithful : Event.Faithful past := by
    refine Event.faithful_of_forall (.streamRead 1 0 16)
      fun k call deed answer j hmem => ?_
    rw [hpast] at hmem
    rcases hmem with _ | ⟨_, _ | ⟨_, _ | ⟨_, hmem⟩⟩⟩
    · rfl
    · rfl
    · cases hmem
  have hlimits : ∀ e ∈ past, e.KeepsLimits := by
    rw [hpast]
    refine List.forall_mem_cons.mpr
      ⟨trivial, List.forall_mem_cons.mpr ⟨?_, List.forall_mem_singleton.mpr trivial⟩⟩
    refine List.forall_mem_singleton.mpr ?_
    change Instance.given.size ≤ 16
    decide
  obtain ⟨hconfines, -⟩ := hpassage.memory_confined rfl hfaithful hlimits
  exact ⟨rfl, _, past, _, hpassage, hfaithful, hlimits, [_, _], _, deed', _, hpast, rfl,
    hconfines [_, _] _ _ _ _ _ [] hpast⟩

end Reading

end Resumable
