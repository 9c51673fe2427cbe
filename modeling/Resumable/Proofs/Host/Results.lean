import Resumable.Proofs.Host.Resumption

namespace Resumable

/-- The number that is told of a result: how many bytes, or the code. -/
def resultNumber : Except Errno Nat → Nat
  | .ok count => count
  | .error errno => errno.code.toNat

namespace PairEncoding

variable {encoding : PairEncoding} {result : Except Errno Nat}

/-- The word is split into the very count of bytes, or the very code. -/
def Conveys (encoding : PairEncoding) (word : UInt64) : Except Errno Nat → Prop
  | .ok count =>
      ∃ told, AbiResult.decode encoding word = .ok (.ok told) ∧ told.toNat = count
  | .error errno =>
      ∃ told, AbiResult.decode encoding word = .ok (.err told) ∧ told.code = errno.code

/-- How a result is answered. -/
inductive Answers (encoding : PairEncoding) (result : Except Errno Nat) :
    Except CallError UInt64 → Prop where
  | told {word : UInt64} (hfits : resultNumber result < 2 ^ encoding.firstBits)
      (hconveys : encoding.Conveys word result) : Answers encoding result (.ok word)
  | unpacked (hsafe : encoding = .safe) (hlarge : 2 ^ 31 ≤ resultNumber result) :
      Answers encoding result
        (.error (.other
          (.abi (.halfOutOfRange (UInt32.ofNat (resultNumber result)) 31))))

theorem exists_conveys (hfits : resultNumber result < 2 ^ encoding.firstBits) :
    ∃ word, (AbiResult.ofExcept (result.map UInt32.ofNat)).encode encoding = .ok word ∧
      encoding.Conveys word result := by
  cases result with
  | ok count =>
      obtain ⟨word, hword⟩ := AbiResult.exists_packs_ok hfits
      exact ⟨word, hword.encoded, UInt32.ofNat count, hword.decoded,
        encoding.toNat_ofNat_of_lt hfits⟩
  | error errno =>
      have hpair : (⟨errno.code, 1⟩ : Pair).Fits encoding :=
        ⟨hfits, encoding.one_le_maxSecond⟩
      obtain ⟨word, hencoded, hdecoded⟩ := hpair.packs
      refine ⟨word, hencoded, Errno.ofCode errno.code, ?_, Errno.code_ofCode _⟩
      rw [AbiResult.decode, hdecoded]
      rfl

/-- The safe packing refuses a number of more than 31 bits, and names it. -/
theorem encode_of_large (hsmall : resultNumber result < 2 ^ 32)
    (hlarge : 2 ^ 31 ≤ resultNumber result) :
    (AbiResult.ofExcept (result.map UInt32.ofNat)).encode .safe =
      .error (.halfOutOfRange (UInt32.ofNat (resultNumber result)) 31) := by
  have hfirst : (AbiResult.ofExcept (result.map UInt32.ofNat)).toPair.first =
      UInt32.ofNat (resultNumber result) := by
    cases result with
    | ok count => rfl
    | error errno => exact UInt32.ofNat_toNat.symm
  have hgt : UInt32.ofNat (resultNumber result) > 2147483647 := by
    rw [gt_iff_lt, UInt32.lt_iff_toNat_lt, UInt32.toNat_ofNat_of_lt' hsmall]
    exact hlarge
  rw [AbiResult.encode, Pair.encode, hfirst, if_pos hgt]

/-- A number of 32 bits has a word, unless it has more than 31 bits and the packing is
the safe one. -/
theorem encode_cases (encoding : PairEncoding) (hsmall : resultNumber result < 2 ^ 32) :
    resultNumber result < 2 ^ encoding.firstBits ∨
    encoding = .safe ∧ 2 ^ 31 ≤ resultNumber result := by
  cases encoding with
  | wide => exact .inl hsmall
  | safe => exact (Nat.lt_or_ge _ _).imp_right fun hlarge => ⟨rfl, hlarge⟩

end PairEncoding

namespace Live

variable {G : Type}

theorem on_answer_eq (result : Except Errno UInt32) (i : Instance G) :
    (answer result).on i =
    (ofAbi ((AbiResult.ofExcept result).encode i.encoding)).on i :=
  Act.on_bind_ok (Act.on_read _ _)

/-- Answering a result leaves everything as it is. -/
theorem exists_answers (result : Except Errno Nat)
    (hsmall : resultNumber result < 2 ^ 32) (i : Instance G) :
    ∃ r, (answer (result.map UInt32.ofNat)).on i = (r, i) ∧
    i.encoding.Answers result r := by
  rw [on_answer_eq]
  obtain hfits | ⟨hsafe, hlarge⟩ := i.encoding.encode_cases hsmall
  · obtain ⟨word, hword, hconveys⟩ := PairEncoding.exists_conveys hfits
    rw [hword]
    exact ⟨.ok word, rfl, .told hfits hconveys⟩
  · rw [hsafe, PairEncoding.encode_of_large hsmall hlarge]
    exact ⟨_, rfl, .unpacked rfl hlarge⟩

end Live

namespace ImportCall

def TellsResult : ImportCall → Prop
  | .messageExchange .. => False
  | _ => True

/-- The result that a call is answered with at once, if it need not wait. -/
def immediate (m : Memory) (h : HostState) : ImportCall → Option (Except Errno Nat)
  | .messageExchange .. => none
  | .messageRetrieve handle outPtr outLen =>
      match h.messages.get? handle with
      | none => some (.error .badF)
      | some bytes =>
          if outLen.toNat < bytes.size then some (.error .range)
          else if m.size < outPtr.toNat + bytes.size then some (.error .fault)
          else some (.ok bytes.size)
  | .streamRead handle _ _ | .streamClose handle =>
      match h.streams.get? handle with
      | none => some (.error .badF)
      | some _ => none
  | .streamWrite handle inPtr inLen =>
      match h.streams.get? handle with
      | none => some (.error .badF)
      | some _ =>
          if m.size < inPtr.toNat + inLen.toNat then some (.error .fault) else none

theorem immediate_of_missing {m : Memory} {h : HostState} {call : ImportCall}
    {handle : Handle} (hcall : call.stream? = some handle)
    (hnone : h.streams.get? handle = none) :
    call.immediate m h = some (.error .badF) := by
  cases call with
  | messageExchange | messageRetrieve => cases hcall
  | streamRead | streamWrite | streamClose =>
      cases hcall
      rw [immediate, hnone]

/-- The result that a resumed call is answered with, if the value is one of its own. -/
def final (m : Memory) : ImportCall → Resolved → Option (Except Errno Nat)
  | .streamRead _ outPtr _, .read (.ok bytes) =>
      if m.size < outPtr.toNat + bytes.size then some (.error .fault)
        else some (.ok bytes.size)
  | .streamRead .., .read (.error errno) => some (.error errno)
  | .streamWrite .., .write result => some result
  | .streamClose _, .close result => some (result.map fun _ => 0)
  | _, _ => none

end ImportCall

def Deferred.capacity : Deferred → Nat
  | .read _ _ max => max
  | .write _ bytes => bytes.size
  | _ => 0

/-- What the contract of a stream lets an operation come to: no more bytes are read
than were asked for, and no more are written than there are. -/
def Deferred.Allows (operation : Deferred) (value : Resolved) : Prop :=
  value.caller = operation.caller ∧
    match value with
    | .read (.ok bytes) => bytes.size ≤ operation.capacity
    | .write (.ok count) => count ≤ operation.capacity
    | _ => True

namespace Live

variable {G : Type}

theorem readLimit_lt (outLen : UInt32) (config : RuntimeConfig) :
    readLimit outLen config < 2 ^ 31 := by
  refine Nat.lt_of_le_of_lt (Nat.min_le_left _ _) ?_
  have := outLen.toInt32.toInt_lt
  omega

/-- What a call waits for is an operation of its own, on no more bytes than a
length can tell. -/
theorem start_suspends {call : ImportCall} {operation : Deferred} {i : Instance G}
    (h : (call.start.on i).1 = .ok (.suspend operation)) :
    operation.caller = call.name ∧ operation.capacity < 2 ^ 32 ∧
      ∀ handle stream max, operation = .read handle stream max → max < 2 ^ 31 := by
  cases Instance.awaits_of_start h with
  | openFile | head | close => exact ⟨rfl, Nat.two_pow_pos 32, fun _ _ _ h => nomatch h⟩
  | @read _ _ outLen =>
      have hlimit := readLimit_lt outLen i.host.config
      refine ⟨rfl, Nat.lt_trans hlimit (by decide), ?_⟩
      rintro _ _ _ ⟨⟩
      exact hlimit
  | @write _ _ inLen _ _ hsize =>
      refine ⟨rfl, ?_, fun _ _ _ h => nomatch h⟩
      rw [Deferred.capacity, hsize]
      exact inLen.toNat_lt

end Live

namespace Instance

variable {G : Type} {i : Instance G} {call : ImportCall} {result : Except Errno Nat}

theorem on_retrieve_immediate {handle outPtr outLen : UInt32}
    (h : (ImportCall.messageRetrieve handle outPtr outLen).immediate i.core.memory
      i.host = some result) :
    resultNumber result < 2 ^ 32 ∧
      ∃ j : Instance G, (Live.retrieve handle outPtr outLen).on i =
      (.ok (result.map UInt32.ofNat), j) ∧
        j.encoding = i.encoding := by
  rw [ImportCall.immediate] at h
  rcases hstored : i.host.messages.get? handle with _ | bytes
  · rw [hstored] at h
    cases h
    exact ⟨by decide, i, Live.on_retrieve_none hstored, rfl⟩
  · rw [hstored] at h
    dsimp only at h
    split at h
    · next hlong =>
        cases h
        exact ⟨by decide, i, Live.on_retrieve_long hstored hlong, rfl⟩
    · next hfits =>
        split at h
        · next houtside =>
            cases h
            refine ⟨by decide, i, ?_, rfl⟩
            exact Live.on_retrieve_outside hstored (Nat.not_lt.mp hfits)
              (Memory.write?_eq_none_iff.mpr houtside)
        · next hinside =>
            cases h
            obtain ⟨memory, hwrite⟩ := Option.ne_none_iff_exists'.mp
              (mt Memory.write?_eq_none_iff.mp hinside)
            exact ⟨Nat.lt_of_le_of_lt (Nat.not_lt.mp hfits) outLen.toNat_lt, _,
              Live.on_retrieve_written hstored (Nat.not_lt.mp hfits) hwrite, rfl⟩

/-- A call with a result at once is answered with it. -/
theorem start_of_immediate (h : call.immediate i.core.memory i.host = some result) :
    ∃ r j, call.start.on i = readied (r, j) ∧ i.encoding.Answers result r := by
  have hstarts := starts call i
  generalize call.start.on i = outcome at hstarts
  cases hstarts with
  | tooLong | outside | replied | deferred => cases h
  | retrieved =>
      obtain ⟨hsmall, j, hretrieve, hencoding⟩ := on_retrieve_immediate h
      obtain ⟨r, hanswer, hanswers⟩ := Live.exists_answers result hsmall j
      rw [Act.on_bind_ok hretrieve, hanswer]
      exact ⟨r, j, rfl, hencoding ▸ hanswers⟩
  | missing hcall hnone =>
      cases h.symm.trans (ImportCall.immediate_of_missing hcall hnone)
      obtain ⟨r, hanswer, hanswers⟩ := Live.exists_answers (.error .badF) (by decide) i
      exact ⟨r, i, congrArg readied hanswer, hanswers⟩
  | unreadable hstream hread =>
      rw [ImportCall.immediate, hstream] at h
      dsimp only at h
      rw [if_pos (Memory.read?_eq_none_iff.mp hread)] at h
      cases h
      obtain ⟨r, hanswer, hanswers⟩ := Live.exists_answers (.error .fault) (by decide) i
      exact ⟨r, i, congrArg readied hanswer, hanswers⟩
  | read hstream | close hstream =>
      rw [ImportCall.immediate, hstream] at h
      cases h
  | write hstream hread =>
      rw [ImportCall.immediate, hstream] at h
      dsimp only at h
      rw [if_neg fun houtside => nomatch hread.symm.trans
        (Memory.read?_eq_none_iff.mpr houtside)] at h
      cases h

/-- A call with no result at once waits, and keeps the slot as it is. -/
theorem start_of_waiting (hcall : call.TellsResult)
    (h : call.immediate i.core.memory i.host = none) :
    ∃ operation host, call.start.on i =
    (.ok (.suspend operation), i.onward i.core host) ∧
      host.bridge = i.host.bridge ∧ host.config = i.host.config := by
  have hstarts := starts call i
  generalize call.start.on i = outcome at hstarts
  cases hstarts with
  | tooLong | outside | replied | deferred => exact hcall.elim
  | @retrieved handle outPtr outLen =>
      rw [ImportCall.immediate] at h
      repeat' split at h
      all_goals cases h
  | missing hcall hnone =>
      cases h.symm.trans (ImportCall.immediate_of_missing hcall hnone)
  | unreadable hstream hread =>
      rw [ImportCall.immediate, hstream] at h
      dsimp only at h
      rw [if_pos (Memory.read?_eq_none_iff.mp hread)] at h
      cases h
  | read | write => exact ⟨_, i.host, rfl, rfl, rfl⟩
  | close => exact ⟨_, _, rfl, rfl, rfl⟩

/-- A call that is finished with a value of its own is answered with what the
value comes to. -/
theorem finish_of_own {value : Resolved} (hcall : call.TellsResult)
    (hown : value.caller = call.name)
    (hsmall : ∀ result, call.final i.core.memory value = some result →
      resultNumber result < 2 ^ 32) : ∃ result, call.final i.core.memory value = some
        result ∧ i.encoding.Answers result ((call.finish value).on i).1 := by
  have hfinishes := finishes call value i
  have hanswers (result : Except Errno Nat) (k : Instance G)
      (hfinal : call.final i.core.memory value = some result)
      (hencoding : k.encoding = i.encoding) : ∃ result', call.final i.core.memory
      value = some result' ∧
        i.encoding.Answers result'
          ((Live.answer (result.map UInt32.ofNat)).on k).1 := by
    obtain ⟨r, hanswer, hanswers⟩ := Live.exists_answers result (hsmall result hfinal) k
    rw [hanswer]
    exact ⟨result, hfinal, hencoding ▸ hanswers⟩
  generalize (call.finish value).on i = outcome at hfinishes
  cases hfinishes with
  | completed => exact hcall.elim
  | @read _ outPtr _ bytes memory hwrite =>
      refine hanswers (.ok bytes.size) (i.withMemory memory)
        (if_neg fun houtside => ?_) rfl
      cases hwrite.symm.trans (Memory.write?_eq_none_iff.mpr houtside)
  | outside hwrite =>
      exact hanswers (.error .fault) i (if_pos (Memory.write?_eq_none_iff.mp hwrite))
        rfl
  | @unread _ _ _ errno => exact hanswers (.error errno) i rfl rfl
  | written => exact hanswers _ i rfl rfl
  | @closed _ result =>
      have hmap : (result.map fun _ => (0 : UInt32)) =
          (result.map fun _ => 0).map UInt32.ofNat := by
        cases result <;> rfl
      rw [hmap]
      exact hanswers _ i rfl rfl
  | mismatched hother => exact absurd hown hother

/-- The value is one that a stream may let an operation come to that a call of the
same import waits for. -/
def MayFinish (G : Type) (call : ImportCall) (value : Resolved) : Prop :=
  ∃ (k : Instance G) (started : ImportCall) (operation : Deferred),
    (started.start.on k).1 = .ok (.suspend operation) ∧ started.name = call.name ∧
    operation.Allows value

theorem MayFinish.caller {value : Resolved} (h : MayFinish G call value) :
    value.caller = call.name := by
  obtain ⟨k, started, operation, hstart, hname, hallows⟩ := h
  exact (hallows.1.trans (Live.start_suspends hstart).1).trans hname

/-- What a call is finished with tells a number of 32 bits. -/
theorem MayFinish.small {value : Resolved} {m : Memory} (h : MayFinish G call value)
    (hfinal : call.final m value = some result) : resultNumber result < 2 ^ 32 := by
  obtain ⟨k, started, operation, hstart, -, hallows⟩ := h
  have hcapacity := (Live.start_suspends hstart).2.1
  have hcode (errno : Errno) : resultNumber (.error errno) < 2 ^ 32 :=
    errno.code.toNat_lt
  unfold ImportCall.final at hfinal
  split at hfinal
  · next bytes =>
      split at hfinal
      · cases hfinal
        exact hcode .fault
      · cases hfinal
        exact Nat.lt_of_le_of_lt hallows.2 hcapacity
  · cases hfinal
    exact hcode _
  · next result' =>
      cases hfinal
      cases result with
      | ok count => exact Nat.lt_of_le_of_lt hallows.2 hcapacity
      | error errno => exact hcode errno
  · next result' =>
      cases hfinal
      cases result' with
      | ok => exact Nat.two_pow_pos 32
      | error errno => exact hcode errno
  · cases hfinal

/-- What is read has fewer than 2^31 bytes. -/
theorem MayFinish.read_lt {bytes : ByteArray} {m : Memory}
    (h : MayFinish G call (.read (.ok bytes)))
    (hfinal : call.final m (.read (.ok bytes)) = some result) :
    resultNumber result < 2 ^ 31 := by
  obtain ⟨k, started, operation, hstart, -, hallows⟩ := h
  have hread := (Live.start_suspends hstart).2.2
  have hsize : bytes.size < 2 ^ 31 := by
    cases operation with
    | read handle stream max =>
        exact Nat.lt_of_le_of_lt hallows.2 (hread handle stream max rfl)
    | openFile | head | write | close =>
        simp [Deferred.Allows, Resolved.caller, Deferred.caller] at hallows
  cases call with
  | messageExchange | messageRetrieve | streamWrite | streamClose => cases hfinal
  | streamRead handle outPtr outLen =>
      rw [ImportCall.final] at hfinal
      split at hfinal
      · cases hfinal
        decide
      · cases hfinal
        exact hsize

/-- How a call is served that answers a result. While the core runs on by itself it is
answered at once or it waits, and when the core is rewound it is finished. -/
structure TellsResults (i : Instance G) (call : ImportCall) : Prop where
  immediate : ∀ {core result}, i.exports.getState i.core =
    (.ok SuspendState.normal.raw, core) →
    call.immediate core.memory i.host = some result →
    i.encoding.Answers result ((serve call).on i).1
  waiting : ∀ {core core'}, i.exports.getState i.core =
    (.ok SuspendState.normal.raw, core) → call.immediate core.memory i.host = none →
    i.host.bridge.pending = none →
    i.exports.startUnwind i.host.config.asyncifyDataAddr core = (.ok (), core') →
      ∃ operation host, (serve call).on i = (.ok 0, i.onward core' host) ∧
        host.bridge.pending = some (.inFlight operation) ∧ operation.caller = call.name
  final : ∀ {value core core'}, i.exports.getState i.core =
    (.ok SuspendState.rewinding.raw, core) →
    i.host.bridge.pending = some (.resolved value) → MayFinish G call value →
    i.exports.stopRewind core = (.ok (), core') →
      ∃ result, call.final core'.memory value = some result ∧
        i.encoding.Answers result ((serve call).on i).1 ∧
        ∀ bytes, value = .read (.ok bytes) → resultNumber result < 2 ^ 31

theorem serve_of_waiting {core core' : CoreState G} (hcall : call.TellsResult)
    (htold : i.exports.getState i.core = (.ok SuspendState.normal.raw, core))
    (h : call.immediate core.memory i.host = none)
    (hidle : i.host.bridge.pending = none)
    (hunwind : i.exports.startUnwind i.host.config.asyncifyDataAddr core =
      (.ok (), core')) : ∃ operation host, (serve call).on i =
        (.ok 0, i.onward core' host) ∧
        host.bridge.pending = some (.inFlight operation) ∧
        operation.caller = call.name := by
  obtain ⟨operation, host, hstart, hbridge, hconfig⟩ :=
    start_of_waiting (i := i.onward core i.host) hcall h
  have hfree : host.bridge.pending = none := by
    rw [hbridge]
    exact hidle
  have hparked :
      control.startUnwind.on
        (i.onward core (host.withPending (some (.inFlight operation)))) =
        (.ok (), i.onward core' (host.withPending (some (.inFlight operation)))) := by
    refine (Act.on_bind_ok (Act.on_read _ _)).trans (Live.control_on ?_)
    change i.exports.startUnwind host.config.asyncifyDataAddr core = _
    rw [hconfig]
    exact hunwind
  refine ⟨operation, host.withPending (some (.inFlight operation)), ?_, rfl, ?_⟩
  · rw [serve_eq]
    exact Control.hostCall_suspend (state_on_of_getState htold) hstart hfree hparked
  · exact (Live.start_suspends (congrArg Prod.fst hstart)).1

/-- Every import that answers a result is answered with a word that is split into that
very count or code. The one exception is a number of more than 31 bits in the safe
packing, and what is read never comes to that. -/
theorem results_told (i : Instance G) (hcall : call.TellsResult) :
    i.TellsResults call where
  immediate := by
    intro core result htold h
    obtain ⟨r, j, hstart, hanswers⟩ := start_of_immediate (i := i.onward core i.host) h
    rw [serve_of_readied htold hstart]
    exact hanswers
  waiting := serve_of_waiting hcall
  final := by
    intro value core core' htold hvalue hmay hstop
    rw [serve_of_rewound htold hvalue hstop]
    obtain ⟨result, hfinal, hanswers⟩ := finish_of_own
      (i := i.onward core' (i.host.withPending none)) hcall hmay.caller
        fun _ => hmay.small
    refine ⟨result, hfinal, hanswers, ?_⟩
    rintro bytes rfl
    exact hmay.read_lt hfinal

section Reader

/-- A core in the safe packing that reads from its one stream, in a state and with a
slot as they are given. -/
def reader (state : Int32) (pending : Option (Pending Deferred Resolved)) :
    Instance Int32 where
  core := ⟨.ofPages 1, state⟩
  exports :=
    { getState := fun s => (.ok s.globals, s)
      startUnwind := fun _ s => (.ok (), { s with globals := 1 })
      stopUnwind := fun s => (.ok (), { s with globals := 0 })
      startRewind := fun _ s => (.ok (), { s with globals := 2 })
      stopRewind := fun s => (.ok (), { s with globals := 0 })
      setup := fun s => .finish s ()
      teardown := fun s => .finish s ()
      perform := fun s => .call s (.streamRead 1 0 16) fun s _ => .finish s ()
      getMetrics := fun s => .finish s 0
      clearMetrics := fun s => .finish s ()
      getDeveloperDump := fun s => .finish s 0 }
  host :=
    { HostState.ofConfig { pairEncoding := .safe } with
      streams := ⟨7, 2, [(1, .file 7)]⟩, bridge := ⟨pending, 0⟩ }

/-- Reading may fail with any code. -/
theorem reader_mayFinish (code : UInt32) :
    MayFinish Int32 (.streamRead 1 0 16) (.read (.error (.other code))) :=
  ⟨reader 0 none, .streamRead 1 0 16, .read 1 (.file 7) 16, rfl, rfl, rfl, trivial⟩

/-- The largest code that has a word in the safe packing. -/
theorem reader_told_code :
    (ImportCall.streamRead 1 0 16).TellsResult ∧ ∃ result,
      (ImportCall.streamRead 1 0 16).final (.ofPages 1)
        (.read (.error (.other 2147483647))) = some result ∧
      PairEncoding.safe.Answers result ((serve (.streamRead 1 0 16)).on
        (reader 2 (some (.resolved (.read (.error (.other 2147483647))))))).1 := by
  have htold :=
    results_told (reader 2 (some (.resolved (.read (.error (.other 2147483647))))))
      (show (ImportCall.streamRead 1 0 16).TellsResult from trivial)
  obtain ⟨result, hfinal, hanswers, -⟩ := htold.final rfl rfl
    (reader_mayFinish 2147483647) rfl
  exact ⟨trivial, result, hfinal, hanswers⟩

/-- The next code has none, and the call fails. -/
theorem reader_code_unpacked :
    (ImportCall.streamRead 1 0 16).TellsResult ∧
      MayFinish Int32 (.streamRead 1 0 16) (.read (.error (.other 2147483648))) ∧
      (control.state.on
        (reader 2 (some (.resolved (.read (.error (.other 2147483648))))))).1 =
          .ok .rewinding ∧
      ((serve (.streamRead 1 0 16)).on
        (reader 2 (some (.resolved (.read (.error (.other 2147483648))))))).1 =
          .error (.other (.abi (.halfOutOfRange 2147483648 31))) :=
  ⟨trivial, reader_mayFinish 2147483648, rfl, rfl⟩

end Reader

end Instance

end Resumable
