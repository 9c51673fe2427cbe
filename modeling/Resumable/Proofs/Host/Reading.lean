import Resumable.Proofs.Host.Supply

namespace Resumable

namespace Live

theorem readLimit_eq_zero_iff (outLen : UInt32) (config : RuntimeConfig) :
    readLimit outLen config = 0 ↔ outLen.toInt32 ≤ 0 ∨ config.maxReadBytes = 0 := by
  have hsigned : outLen.toInt32.toInt.toNat = 0 ↔ outLen.toInt32 ≤ 0 := by
    rw [Int32.le_iff_toInt_le, Int.toNat_eq_zero]
    rfl
  rw [readLimit, ← hsigned]
  omega

end Live

namespace Instance

variable {G : Type}

/-- A call that waits, from when a core makes it to its answer. It parks an operation,
which is carried out while the core is unwound. The rewound core, in whatever state it
is, makes the call once more. -/
inductive Answered (fuel : Nat) (call : ImportCall) (i : Instance G) :
    List Exchange → Resolved → Instance G → UInt64 → Instance G → Prop where
  | waited {parked rewound j : Instance G} {operation : Deferred}
      {log : List Exchange} {value : Resolved} {after : HostState} {word : UInt64}
      (hnormal : (control.state.on i).1 = .ok .normal)
      (hstart : (serve call).on i = (.ok 0, parked))
      (hparked : parked.host.bridge.pending = some (.inFlight operation))
      (hwait : (operation.serve fuel
        { parked.host.withPending none with outbox := [] }).Runs log (value, after))
          (hrewound : (control.state.on rewound).1 = .ok .rewinding)
      (hhost : rewound.host = { after with bridge := after.bridge.resolve value })
      (hfinish : (serve call).on rewound = (.ok word, j)) :
      Answered fuel call i log value rewound word j

/-- The memory of a rewound core once its rewinding has been stopped. -/
def resumedMemory (i : Instance G) : Memory :=
  (i.exports.stopRewind i.told.core).2.memory

end Instance

/-- A call of `stream_read`, with what was taken from the stream for it, the word that
it was answered with, and the memory of the core before and after it was finished. -/
structure ReadCall where
  outPtr : UInt32
  outLen : UInt32
  answer : Except Errno ByteArray
  word : UInt64
  before : Memory
  after : Memory

namespace ReadCall

/-- What the core is told of a read. -/
inductive Told (encoding : PairEncoding) (call : ReadCall) : Prop where
  | delivered {bytes : ByteArray} (hanswer : call.answer = .ok bytes)
      (hwrote : call.before.Wrote call.outPtr.toNat bytes call.after)
      (hword : encoding.Conveys call.word (.ok bytes.size))
  | lost {bytes : ByteArray} (hanswer : call.answer = .ok bytes)
      (houtside : call.before.size < call.outPtr.toNat + bytes.size)
      (hmemory : call.after = call.before)
      (hword : encoding.Conveys call.word (.error .fault))
  | failed {errno : Errno} (hanswer : call.answer = .error errno)
      (hmemory : call.after = call.before)
      (hword : encoding.Conveys call.word (.error errno))

def taken (call : ReadCall) : Content := readContent call.answer

/-- There was no room for the piece where the buffer was said to be. -/
def lost (call : ReadCall) : Bool :=
  match call.answer with
  | .ok bytes => call.before.size < call.outPtr.toNat + bytes.size
  | .error _ => false

def told (call : ReadCall) : Content := if call.lost then [] else call.taken

def ToldZero (encoding : PairEncoding) (call : ReadCall) : Prop :=
  encoding.Conveys call.word (.ok 0)

theorem Told.answer_of_zero {encoding : PairEncoding} {call : ReadCall}
    (h : call.Told encoding) (hzero : call.ToldZero encoding) :
    call.answer = .ok .empty := by
  obtain ⟨count, hcount, hnone⟩ := hzero
  cases h with
  | @delivered bytes hanswer _ hword =>
      obtain ⟨size, hsize, hbytes⟩ := hword
      cases hcount.symm.trans hsize
      have hempty : contentOf bytes = [] := by
        rw [← List.length_eq_zero_iff, length_contentOf, ← hbytes, hnone]
      rw [hanswer, contentOf_eq_nil.mp hempty]
  | lost _ _ _ hword | failed _ _ hword =>
      obtain ⟨_, herror, -⟩ := hword
      cases hcount.symm.trans herror

theorem told_eq_taken {past : List ReadCall}
    (hkept : ∀ call ∈ past, call.lost = true → call.taken = []) :
    past.flatMap told = past.flatMap taken := by
  apply List.flatMap_congr
  intro call hcall
  unfold told
  split
  · next hlost => exact (hkept call hcall hlost).symm
  · rfl

end ReadCall

namespace Live

variable {G : Type} {i j : Instance G} {word : UInt64}

/-- A result that is answered at all is told as it is, and nothing else changes. -/
theorem conveys_of_answer (result : Except Errno Nat)
    (hsmall : resultNumber result < 2 ^ 32)
    (h : (answer (result.map UInt32.ofNat)).on i = (.ok word, j)) :
    j = i ∧ i.host.config.pairEncoding.Conveys word result := by
  obtain ⟨r, hanswer, hanswers⟩ := exists_answers result hsmall i
  cases hanswer.symm.trans h
  cases hanswers with
  | told _ hconveys => exact ⟨rfl, hconveys⟩

end Live

namespace Instance

variable {G : Type} {fuel : Nat} {handle outPtr outLen : UInt32}
  {i j rewound : Instance G} {log : List Exchange} {stream : Stream}
  {value : Resolved} {answer : Except Errno ByteArray} {word : UInt64}

theorem start_read (hopen : i.host.streams.get? handle = some stream) :
    (ImportCall.streamRead handle outPtr outLen).start.on i =
      (.ok (.suspend (.read handle stream (Live.readLimit outLen i.host.config))),
        i) := by
  unfold ImportCall.start Live.beginRead
  rw [Act.on_bind_ok (Act.on_read _ _), hopen]
  rfl

theorem parked_of_read (hopen : i.host.streams.get? handle = some stream)
    (hnormal : (control.state.on i).1 = .ok .normal)
    (hserve : (serve (.streamRead handle outPtr outLen)).on i = (.ok word, j)) :
    j.host = i.host.withPending
      (some (.inFlight
        (.read handle stream (Live.readLimit outLen i.host.config)))) := by
  have hread : (ImportCall.streamRead handle outPtr outLen).start.on i.told = _ :=
    start_read hopen
  cases course_of_serve hserve with
  | started _ hstart =>
      exact absurd (congrArg Prod.fst (hread.symm.trans hstart)) readied_ne_suspend.symm
  | parked _ hstart =>
      cases hread.symm.trans hstart
      rfl
  | finished hs => cases hnormal.symm.trans hs

/-- What a core is told when a read is finished. -/
theorem told_of_finish (hsmall : ∀ bytes, answer = .ok bytes → bytes.size < 2 ^ 31)
    (h : ((ImportCall.streamRead handle outPtr outLen).finish (.read answer)).on i =
      (.ok word, j)) :
    j.host = i.host ∧
      ReadCall.Told i.host.config.pairEncoding ⟨outPtr, outLen, answer, word,
        i.core.memory, j.core.memory⟩ := by
  have hfinishes := finishes (.streamRead handle outPtr outLen) (.read answer) i
  rw [h] at hfinishes
  generalize hout : ((.ok word, j) : Except CallError UInt64 × Instance G) =
    outcome at hfinishes
  cases hfinishes with
  | @read _ _ _ bytes memory hwrite =>
      have hlt : resultNumber (.ok bytes.size) < 2 ^ 32 :=
        Nat.lt_trans (hsmall bytes rfl) (by decide)
      obtain ⟨rfl, hconveys⟩ := Live.conveys_of_answer _ hlt hout.symm
      exact ⟨rfl, .delivered rfl (Memory.wrote_of_write? hwrite) hconveys⟩
  | outside hwrite =>
      obtain ⟨rfl, hconveys⟩ := Live.conveys_of_answer (.error .fault)
        (by decide) hout.symm
      exact ⟨rfl, .lost rfl (Memory.write?_eq_none_iff.mp hwrite) rfl hconveys⟩
  | @unread _ _ _ errno =>
      obtain ⟨rfl, hconveys⟩ := Live.conveys_of_answer (.error errno)
        errno.code.toNat_lt hout.symm
      exact ⟨rfl, .failed rfl rfl hconveys⟩
  | mismatched => cases hout

/-- A read of an open stream is answered with a piece of it, whatever has become of
the core in between. -/
theorem Answered.reads {supply rest : Content}
    (h : Answered fuel (.streamRead handle outPtr outLen) i log value rewound word j)
    (hopen : i.host.streams.get? handle = some stream) (hsound : stream.Sound supply)
    (hsupply : Supplied supply log rest) :
    ∃ answer stream', value = .read answer ∧ j.host.streams.get? handle = some stream' ∧
      j.host.config = i.host.config ∧
      stream.Gives supply (Live.readLimit outLen i.host.config) answer rest stream' ∧
      ReadCall.Told i.host.config.pairEncoding
        ⟨outPtr, outLen, answer, word, rewound.resumedMemory, j.core.memory⟩ := by
  cases h with
  | waited hnormal hstart hparked hwait hrewound hhost hfinish =>
      have hleft := parked_of_read hopen hnormal hstart
      rw [hleft] at hparked hwait
      cases hparked
      cases Deferred.served_of_runs hwait with
      | @read _ _ stream' _ _ answer hread =>
          have hgives := Stream.gives_of_runs hsound hsupply hread
          have hsmall : ∀ bytes, answer = .ok bytes → bytes.size < 2 ^ 31 :=
            fun bytes hanswer =>
            Nat.lt_of_le_of_lt (hgives.limit bytes hanswer)
              (Live.readLimit_lt outLen i.host.config)
          cases course_of_serve hfinish with
          | started hs | parked hs => cases hrewound.symm.trans hs
          | @finished _ core _ _ _ hvalue hstop hfinish =>
              rw [hhost] at hvalue hfinish
              cases hvalue
              obtain ⟨hkept, htold⟩ := told_of_finish hsmall hfinish
              have hmemory : rewound.resumedMemory = core.memory := by
                rw [resumedMemory, hstop]
              refine ⟨answer, stream', rfl, ?_, ?_, hgives, hmemory ▸ htold⟩
              · rw [hkept]
                change (i.host.streams.modify handle fun _ => stream').get? handle = _
                rw [HandleTable.get?_modify, if_pos rfl, hopen]
                rfl
              · rw [hkept]
                rfl

end Instance

namespace Instance

variable {G : Type} {fuel : Nat} {handle : Handle} {i₀ i j rewound : Instance G}
  {log : List Exchange} {past : List ReadCall} {stream : Stream} {supply rest : Content}

/-- The reads of the stream under a handle, with all that its source has been asked.
Between two of them the core may do anything but touch this stream. -/
inductive ReadRun (fuel : Nat) (handle : Handle) (i₀ : Instance G) :
    List ReadCall → List Exchange → Instance G → Prop where
  | start : ReadRun fuel handle i₀ [] [] i₀
  | between {past : List ReadCall} {log : List Exchange} {i j : Instance G}
      (h : ReadRun fuel handle i₀ past log i)
      (hstream : j.host.streams.get? handle = i.host.streams.get? handle)
      (hconfig : j.host.config = i.host.config) : ReadRun fuel handle i₀ past log j
  | read {past : List ReadCall} {log log' : List Exchange} {i j rewound : Instance G}
      {outPtr outLen : UInt32} {answer : Except Errno ByteArray} {word : UInt64}
      (h : ReadRun fuel handle i₀ past log i)
      (hcall : Answered fuel (.streamRead handle outPtr outLen) i log' (.read answer)
        rewound word j) : ReadRun fuel handle i₀
          (past ++ [⟨outPtr, outLen, answer, word, rewound.resumedMemory,
            j.core.memory⟩]) (log ++ log') j

namespace ReadRun

/-- What reading has made of a stream and of what its source has. -/
structure Pieces (i₀ : Instance G) (handle : Handle) (stream : Stream)
    (supply : Content) (past : List ReadCall) (rest : Content) (j : Instance G)
    (stream' : Stream) : Prop where
  isOpen : j.host.streams.get? handle = some stream'
  sound : stream'.Sound rest
  config : j.host.config = i₀.host.config
  content : stream.left ++ supply =
    past.flatMap ReadCall.taken ++ (stream'.left ++ rest)
  told : ∀ call ∈ past, call.Told i₀.host.config.pairEncoding
  atEnd : ∀ earlier call later, past = earlier ++ call :: later →
    call.answer = .ok .empty → Live.readLimit call.outLen i₀.host.config = 0 ∨
    stream.left ++ supply = earlier.flatMap ReadCall.taken

theorem pieces (h : ReadRun fuel handle i₀ past log j)
    (hopen : i₀.host.streams.get? handle = some stream) (hsound : stream.Sound supply)
    (hsupply : Supplied supply log rest) :
    ∃ stream', Pieces i₀ handle stream supply past rest j stream' := by
  induction h generalizing rest with
  | start =>
      cases hsupply
      exact ⟨stream, hopen, hsound, rfl, rfl, by simp, by simp⟩
  | between _ hstream hconfig ih =>
      obtain ⟨stream', hp⟩ := ih hsupply
      exact ⟨stream', hstream.trans hp.isOpen, hp.sound, hconfig.trans hp.config,
        hp.content, hp.told, hp.atEnd⟩
  | read _ hcall ih =>
      obtain ⟨middle, hbefore, hmore⟩ := hsupply.split
      obtain ⟨stream', hp⟩ := ih hbefore
      obtain ⟨_, stream'', hanswer, hstream, hconfig, hgives, htold⟩ :=
        hcall.reads hp.isOpen hp.sound hmore
      cases hanswer
      rw [hp.config] at hgives htold
      have hcontent := hp.content
      rw [hgives.content, ← List.append_assoc] at hcontent
      refine ⟨stream'', hstream, hgives.sound, hconfig.trans hp.config, ?_, ?_, ?_⟩
      · rw [List.flatMap_append, List.flatMap_singleton]
        exact hcontent
      · exact List.forall_mem_append.mpr ⟨hp.told, List.forall_mem_singleton.mpr htold⟩
      · intro earlier call later hpast hempty
        obtain ⟨rfl, rfl, rfl⟩ | ⟨more, rfl, hearlier⟩ := snoc_eq_append_cons hpast
        · rcases hgives.atEnd hempty with hlimit | hend
          · exact .inl hlimit
          · right
            cases hempty
            rw [hend] at hcontent
            simpa [readContent, contentOf_empty] using hcontent
        · exact hp.atEnd earlier call more hearlier hempty

/-- However a core reads a stream: what it takes with one call after another is what
the stream holds, in its order. Of a call whose buffer is bad the piece is taken all
the same, and told by no other call, so the core gets the stream only if there is room
for each of its pieces. -/
theorem taken_in_order (h : ReadRun fuel handle i₀ past log j)
    (hopen : i₀.host.streams.get? handle = some stream) (hsound : stream.Sound supply)
    (hsupply : Supplied supply log rest) :
    (∀ call ∈ past, call.Told i₀.host.config.pairEncoding) ∧
      ∃ stream', j.host.streams.get? handle = some stream' ∧
        stream.left ++ supply = past.flatMap ReadCall.taken ++ (stream'.left ++ rest) ∧
        ((∀ call ∈ past, call.lost = true → call.taken = []) →
          stream.left ++ supply =
            past.flatMap ReadCall.told ++ (stream'.left ++ rest)) ∧
        ∀ call ∈ past, call.ToldZero i₀.host.config.pairEncoding →
          Live.readLimit call.outLen i₀.host.config = 0 ∨
          stream'.left ++ rest = [] := by
  obtain ⟨stream', hp⟩ := h.pieces hopen hsound hsupply
  refine ⟨hp.told, stream', hp.isOpen, hp.content, ?_, ?_⟩
  · intro hkept
    rw [ReadCall.told_eq_taken hkept]
    exact hp.content
  · intro call hcall hzero
    obtain ⟨earlier, later, hpast⟩ := List.append_of_mem hcall
    rcases hp.atEnd earlier call later hpast
      ((hp.told call hcall).answer_of_zero hzero) with hlimit | hall
    · exact .inl hlimit
    · right
      have hcontent := hp.content
      rw [hall, hpast, List.flatMap_append, List.append_assoc,
        List.self_eq_append_right, List.append_eq_nil_iff] at hcontent
      exact hcontent.2

/-- A core is told of no more bytes only when the reads before have taken all of
the stream, if the length of its buffer is from 1 to 2^31 - 1 and anything may be
read at all. -/
theorem told_zero_at_end (h : ReadRun fuel handle i₀ past log j)
    (hopen : i₀.host.streams.get? handle = some stream) (hsound : stream.Sound supply)
    (hsupply : Supplied supply log rest) {earlier later : List ReadCall}
    {call : ReadCall} (hpast : past = earlier ++ call :: later)
    (hzero : call.ToldZero i₀.host.config.pairEncoding) :
    stream.left ++ supply = earlier.flatMap ReadCall.taken ∨ call.outLen.toInt32 ≤ 0 ∨
      i₀.host.config.maxReadBytes = 0 := by
  obtain ⟨stream', hp⟩ := h.pieces hopen hsound hsupply
  have hcall : call ∈ past := hpast ▸ List.mem_append_right _ (List.mem_cons_self ..)
  rcases hp.atEnd earlier call later hpast ((hp.told call hcall).answer_of_zero hzero)
    with hlimit | hall
  · exact .inr ((Live.readLimit_eq_zero_iff _ _).mp hlimit)
  · exact .inl hall

end ReadRun

section Shelf

/-- A core with one open file, under handle 1. Its memory, its state and the slot are
as they are given. -/
def shelf (config : RuntimeConfig) (memory : Memory) (state : Int32)
    (bridge : Bridge Deferred Resolved) : Instance Int32 where
  core := ⟨memory, state⟩
  exports := (reader 0 none).exports
  host := { HostState.ofConfig config with
    streams := ⟨7, 2, [(1, .file 7)]⟩, bridge := bridge }

theorem shelf_open :
    (shelf {} (.ofPages 1) 0 ⟨none, 0⟩).host.streams.get? 1 = some (.file 7) := rfl

theorem shelf_answered {config : RuntimeConfig} {memory : Memory} {suspensions : Nat}
    {outPtr outLen : UInt32} {bytes : ByteArray} {word : UInt64} {j : Instance Int32}
    (hfinish : (serve (.streamRead 1 outPtr outLen)).on
      (shelf config memory 2 ⟨some (.resolved (.read (.ok bytes))), suspensions + 1⟩)
        = (.ok word, j)) :
    Answered 0 (.streamRead 1 outPtr outLen) (shelf config memory 0 ⟨none, suspensions⟩)
      [⟨.readFile 7 (Live.readLimit outLen config), .ok bytes⟩] (.read (.ok bytes))
      (shelf config memory 2 ⟨some (.resolved (.read (.ok bytes))), suspensions + 1⟩)
        word j :=
  .waited rfl rfl rfl ⟨_, [], rfl, rfl, rfl⟩ rfl rfl hfinish

def lostCall : ReadCall :=
  ⟨65533, 4, .ok ⟨#[97, 98, 99, 100]⟩, 4294967310, .ofPages 1, .ofPages 1⟩

def nextCall (memory : Memory) : ReadCall :=
  ⟨0, 4, .ok ⟨#[101, 102]⟩, 2, .ofPages 1, memory⟩

theorem shelf_lossy : ∃ (memory : Memory) (log : List Exchange) (j : Instance Int32),
    (Memory.ofPages 1).write? 0 ⟨#[101, 102]⟩ = some memory ∧
      ReadRun 0 1 (shelf {} (.ofPages 1) 0 ⟨none, 0⟩) [lostCall,
        nextCall memory] log j ∧
      Supplied (contentOf ⟨#[97, 98, 99, 100, 101, 102]⟩) log [] := by
  have hfault : (serve (.streamRead 1 65533 4)).on
      (shelf {} (.ofPages 1) 2
        ⟨some (.resolved (.read (.ok ⟨#[97, 98, 99, 100]⟩))), 1⟩) =
          (.ok 4294967310, shelf {} (.ofPages 1) 0 ⟨none, 1⟩) := rfl
  obtain ⟨memory, hwrite⟩ : ∃ memory, (Memory.ofPages 1).write? 0 ⟨#[101, 102]⟩ =
    some memory := ⟨_, rfl⟩
  have hgood : (serve (.streamRead 1 0 4)).on
      (shelf {} (.ofPages 1) 2 ⟨some (.resolved (.read (.ok ⟨#[101, 102]⟩))), 2⟩) =
        (.ok 2, shelf {} memory 0 ⟨none, 2⟩) := by
    cases hwrite
    rfl
  have hrun := (ReadRun.start.read (shelf_answered hfault)).read (shelf_answered hgood)
  have hsecond : Supplied (contentOf ⟨#[101, 102]⟩ ++ [])
      [⟨.readFile 7 (Live.readLimit 4 {}), .ok ⟨#[101, 102]⟩⟩] [] :=
    .piece (by decide) (by decide) (.nothing [])
  have hfirst :
      Supplied (contentOf ⟨#[97, 98, 99, 100]⟩ ++ (contentOf ⟨#[101, 102]⟩ ++ []))
        [⟨.readFile 7 (Live.readLimit 4 {}), .ok ⟨#[97, 98, 99, 100]⟩⟩,
          ⟨.readFile 7 (Live.readLimit 4 {}), .ok ⟨#[101, 102]⟩⟩] [] :=
    .piece (by decide) (by decide) hsecond
  exact ⟨memory, _, _, hwrite, hrun, hfirst⟩

/-- All that the file holds is taken from it, by two calls of which one is told
of an error. -/
theorem shelf_taken_in_order :
    ∃ (memory : Memory) (log : List Exchange) (j : Instance Int32),
    ReadRun 0 1 (shelf {} (.ofPages 1) 0 ⟨none, 0⟩) [lostCall, nextCall memory] log j ∧
      lostCall.lost = true ∧ lostCall.Told .wide ∧ (nextCall memory).Told .wide := by
  obtain ⟨memory, log, j, -, hrun, hsupply⟩ := shelf_lossy
  have htold := (hrun.taken_in_order shelf_open trivial hsupply).1
  exact ⟨memory, log, j, hrun, rfl, htold _ (List.mem_cons_self ..), htold _ (by simp)⟩

/-- What a call has not delivered for a bad buffer is gone: the next one is answered
with what comes behind it. -/
theorem bad_buffer_loses_piece :
    ∃ (memory : Memory) (log : List Exchange) (j : Instance Int32),
    ReadRun 0 1 (shelf {} (.ofPages 1) 0 ⟨none, 0⟩) [lostCall, nextCall memory] log j ∧
      Supplied (contentOf ⟨#[97, 98, 99, 100, 101, 102]⟩) log [] ∧
      PairEncoding.wide.Conveys lostCall.word (.error .fault) ∧
      PairEncoding.wide.Conveys (nextCall memory).word (.ok 2) ∧
      (nextCall memory).before.Wrote 0 ⟨#[101, 102]⟩ memory ∧
      ¬ contentOf ⟨#[101, 102]⟩ <+: contentOf ⟨#[97, 98, 99, 100, 101, 102]⟩ := by
  obtain ⟨memory, log, j, hwrite, hrun, hsupply⟩ := shelf_lossy
  have htwo : PairEncoding.wide.Conveys 2 (.ok 2) := ⟨2, rfl, rfl⟩
  refine ⟨memory, log, j, hrun, hsupply, ⟨.fault, rfl, rfl⟩, htwo,
    Memory.wrote_of_write? hwrite, ?_⟩
  rintro ⟨rest, hrest⟩
  cases hrest

def zeroCall (outLen : UInt32) (before after : Memory) : ReadCall :=
  ⟨0, outLen, .ok .empty, 0, before, after⟩

theorem wide_zero : PairEncoding.wide.Conveys 0 (.ok 0) := ⟨0, rfl, rfl⟩

/-- A file with two bytes is read to its end. -/
theorem shelf_read_to_end :
    ∃ (memory memory' : Memory) (log : List Exchange) (j : Instance Int32)
      (past earlier later : List ReadCall) (call : ReadCall),
      ReadRun 0 1 (shelf {} (.ofPages 1) 0 ⟨none, 0⟩) past log j ∧
      past = earlier ++ call :: later ∧
        earlier = [nextCall memory] ∧ call = zeroCall 4 memory memory' ∧
        call.ToldZero .wide ∧
        (contentOf ⟨#[101, 102]⟩ = earlier.flatMap ReadCall.taken ∨
          call.outLen.toInt32 ≤ 0 ∨ RuntimeConfig.maxReadBytes {} = 0) := by
  obtain ⟨memory, hwrite⟩ : ∃ memory, (Memory.ofPages 1).write? 0 ⟨#[101, 102]⟩ =
    some memory := ⟨_, rfl⟩
  obtain ⟨memory', hwrite'⟩ : ∃ memory', memory.write? 0 .empty = some memory' := by
    cases hwrite
    exact ⟨_, rfl⟩
  have hgood : (serve (.streamRead 1 0 4)).on
      (shelf {} (.ofPages 1) 2 ⟨some (.resolved (.read (.ok ⟨#[101, 102]⟩))), 1⟩) =
        (.ok 2, shelf {} memory 0 ⟨none, 1⟩) := by
    cases hwrite
    rfl
  have hzero : (serve (.streamRead 1 0 4)).on
      (shelf {} memory 2 ⟨some (.resolved (.read (.ok .empty))), 2⟩) =
      (.ok 0, shelf {} memory' 0 ⟨none, 2⟩) := by
    cases hwrite
    cases hwrite'
    rfl
  have hrun := (ReadRun.start.read (shelf_answered hgood)).read (shelf_answered hzero)
  have hend :
      Supplied (contentOf .empty ++ [])
        [⟨.readFile 7 (Live.readLimit 4 {}), .ok .empty⟩] [] :=
    .piece (by decide) (fun _ => .inr rfl) (.nothing [])
  have hsupply : Supplied (contentOf ⟨#[101, 102]⟩ ++ (contentOf .empty ++ []))
      [⟨.readFile 7 (Live.readLimit 4 {}), .ok ⟨#[101, 102]⟩⟩,
        ⟨.readFile 7 (Live.readLimit 4 {}), .ok .empty⟩] [] :=
    .piece (by decide) (by decide) hend
  have hpast : [nextCall memory, zeroCall 4 memory memory'] =
    [nextCall memory] ++ zeroCall 4 memory memory' :: [] := rfl
  exact ⟨memory, memory', _, _, _, _, _, _, hrun, hpast, rfl, rfl, wide_zero,
    hrun.told_zero_at_end shelf_open trivial hsupply hpast wide_zero⟩

/-- A length of 2^32 - 1 is read as -1, and a limit of 0 lets nothing be read. Either
way a core is told of no more bytes while the file has some. -/
theorem zero_told_before_end :
    (∃ (memory : Memory) (log : List Exchange) (j : Instance Int32),
      ReadRun 0 1 (shelf {} (.ofPages 1) 0 ⟨none, 0⟩)
        [zeroCall 4294967295 (.ofPages 1) memory] log j ∧
        Supplied (contentOf ⟨#[97, 98, 99]⟩) log (contentOf ⟨#[97, 98, 99]⟩) ∧
        (zeroCall 4294967295 (.ofPages 1) memory).ToldZero .wide) ∧
      ∃ (memory : Memory) (log : List Exchange) (j : Instance Int32),
        ReadRun 0 1 (shelf { maxReadBytes := 0 } (.ofPages 1) 0 ⟨none, 0⟩)
          [zeroCall 16 (.ofPages 1) memory] log j ∧
          Supplied (contentOf ⟨#[97, 98, 99]⟩) log (contentOf ⟨#[97, 98, 99]⟩) ∧
          (zeroCall 16 (.ofPages 1) memory).ToldZero .wide := by
  obtain ⟨memory, hwrite⟩ : ∃ memory, (Memory.ofPages 1).write? 0 .empty =
    some memory := ⟨_, rfl⟩
  have hnegative : (serve (.streamRead 1 0 4294967295)).on
      (shelf {} (.ofPages 1) 2 ⟨some (.resolved (.read (.ok .empty))), 1⟩) =
        (.ok 0, shelf {} memory 0 ⟨none, 1⟩) := by
    cases hwrite
    rfl
  have hlimited : (serve (.streamRead 1 0 16)).on
      (shelf { maxReadBytes := 0 } (.ofPages 1) 2
        ⟨some (.resolved (.read (.ok .empty))), 1⟩) =
          (.ok 0, shelf { maxReadBytes := 0 } memory 0 ⟨none, 1⟩) := by
    cases hwrite
    rfl
  have hsupply :
      Supplied (contentOf .empty ++ contentOf ⟨#[97, 98, 99]⟩)
        [⟨.readFile 7 0, .ok .empty⟩] (contentOf ⟨#[97, 98, 99]⟩) :=
    .piece (by decide) (by decide) (.nothing _)
  exact ⟨⟨memory, _, _, .read .start (shelf_answered hnegative), hsupply, wide_zero⟩,
    memory, _, _, .read .start (shelf_answered hlimited), hsupply, wide_zero⟩

end Shelf

end Instance

end Resumable
