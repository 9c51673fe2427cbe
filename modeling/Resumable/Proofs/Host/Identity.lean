import Resumable.Proofs.Host.Replies
import Resumable.Proofs.Host.Tables
import Resumable.Scripted.Scene

/-!
# Handles keep what they stand for

Whatever a core asks for, in any order and with any handles, it gets at no other
stream or response than the one that its handle was answered for, and at none once
that is gone.
-/

namespace Resumable

open Event

def Deferred.stream? : Deferred → Option Stream
  | .read _ stream _ => some stream
  | .write stream _ => some stream
  | .close stream => some stream
  | _ => none

namespace HostState

variable {h : HostState} {raw : ByteArray}

theorem dispatch_head_of_none {handle : Handle}
    (hreads : h.reads raw = some (.httpCallHead handle))
    (hnone : h.responses.get? handle = none) :
    ∃ text, h.dispatch raw = (.reply (.error .invalidHandle text none), h) := by
  rw [dispatch_of_reads hreads]
  change ∃ text, h.claimHead handle = _
  rw [claimHead, HandleTable.remove, hnone]
  exact ⟨_, rfl⟩

end HostState

namespace Instance

variable {G : Type} {i j t : Instance G} {call : ImportCall} {deed : Deed}
  {answer : Except CallError UInt64} {handle : Handle}

/-- A call about a stream that is not there is answered so at once, and changes
nothing on the host's side. -/
theorem serve_of_none {handle : Handle} {t : Instance G}
    (hcall : call.stream? = some handle) (hnone : i.host.streams.get? handle = none)
    (hnormal : control.state.on i = (.ok .normal, t)) :
    ∃ word, (serve call).on i = (.ok word, t) ∧ t.host = i.host ∧
      AbiResult.Packs i.host.config.pairEncoding (.err .badF) word := by
  have hhost : t.host = i.host := by rw [state_on_snd hnormal, onward]
  rw [← hhost] at hnone ⊢
  obtain ⟨word, hword⟩ := AbiResult.exists_packs_err t.host.config.pairEncoding .badF
    (by decide) (by decide)
  have hanswer : (Live.answer (.error .badF)).on t = (.ok word, t) :=
    Live.on_answer hword
  have hready :
      (do return HostStep.ready (← Live.answer (.error .badF)) :
        Live G (HostStep UInt64 Deferred)).on t = (.ok (.ready word), t) := by
    rw [Act.on_bind_ok hanswer]
    rfl
  have hget :
      (Act.read fun i => i.host.streams.get? handle : Live G (Option Stream)).on t =
      (.ok none, t) := by
    rw [Act.on_read, hnone]
  refine ⟨word, ?_, rfl, hword⟩
  cases call with
  | messageExchange | messageRetrieve => cases hcall
  | streamRead h outPtr outLen =>
      cases hcall
      refine Control.hostCall_ready hnormal ?_
      unfold Live.beginRead
      rw [Act.on_bind_ok hget]
      exact hready
  | streamWrite h inPtr inLen =>
      cases hcall
      refine Control.hostCall_ready hnormal ?_
      unfold Live.beginWrite
      rw [Act.on_bind_ok hget]
      exact hready
  | streamClose h =>
      cases hcall
      refine Control.hostCall_ready hnormal ?_
      have hremove : (Live.host fun h => ((h.streams.remove handle).1,
          { h with streams := (h.streams.remove handle).2 })).on t = (.ok none, t) := by
        change (Except.ok (t.host.streams.remove handle).1,
          { t with host := { t.host with streams := (t.host.streams.remove handle).2 }
            }) = _
        rw [HandleTable.remove, hnone]
      unfold Live.beginClose
      rw [Act.on_bind_ok hremove]
      exact hready

theorem on_beginClose_streams (handle : Handle) (i : Instance G) :
    ((Live.beginClose handle).on i).2.host.streams =
    (i.host.streams.remove handle).2 := by
  have hhost : (Live.host fun h => ((h.streams.remove handle).1,
      { h with streams := (h.streams.remove handle).2 })).on i =
        (.ok (i.host.streams.remove handle).1,
          i.onward i.core
            { i.host with streams := (i.host.streams.remove handle).2 }) := rfl
  unfold Live.beginClose
  rw [Act.on_bind_ok hhost]
  rcases (i.host.streams.remove handle).1 with _ | stream
  · dsimp only
    rw [Act.on_bind]
    have hsame := Live.on_answer_snd (.error .badF)
      (i.onward i.core { i.host with streams := (i.host.streams.remove handle).2 })
    split
    · next heq =>
        rw [heq] at hsame
        cases hsame
        rfl
    · next heq =>
        rw [heq] at hsame
        cases hsame
        rfl
  · rfl

/-- A stream is gone as soon as closing it has started. -/
theorem serve_close (handle : Handle)
    (hnormal : control.state.on i = (.ok .normal, t)) :
    ((serve (.streamClose handle)).on i).2.host.streams.get? handle = none := by
  have hremoved : (i.host.streams.remove handle).2.get? handle = none := by
    rw [HandleTable.get?_remove, if_pos rfl]
  have hstreams := on_beginClose_streams handle t
  cases state_on_snd hnormal
  have hosted := control.hosted_normal 0 (Live.beginClose handle) Live.endClose hnormal
  change ((control.hostCall 0 (Live.beginClose handle) Live.endClose).on
    i).2.host.streams.get? handle = none
  generalize (control.hostCall 0 (Live.beginClose handle) Live.endClose).on i =
    outcome at hosted ⊢
  cases hosted with
  | unknown hs | unwinding hs | unresolved hs | unrewound hs | rewound hs =>
      cases hs.symm.trans hnormal
  | failed hs hstart | ready hs hstart | overlapping hs hstart =>
      cases hs.symm.trans hnormal
      rw [hstart] at hstreams
      exact (congrArg (HandleTable.get? · handle) hstreams).trans hremoved
  | parked hs hstart hidle hunwind =>
      cases hs.symm.trans hnormal
      rw [hstart] at hstreams
      cases startUnwind_on_snd hunwind
      exact (congrArg (HandleTable.get? · handle) hstreams).trans hremoved

end Instance

/-- What is so of the host of an instance behind its events: the tables hold what the
events say, no handle is live twice or 0, no fetch is issued, claimed or awaited
twice, and the slot holds what was left there. -/
structure Identified {G : Type} (past : List (Event G)) (h : HostState) : Prop where
  sound : h.Sound
  streams : HostRun.HoldsStreams past h.streams
  responses : HostRun.HoldsResponses past h.responses h.tickets
  heads : HostRun.HoldsHeads past h.bridge.pending
  slot : ∀ pending, h.bridge.pending = some pending → Occupies pending past

/-- What is so of an import call that comes after some events. -/
structure Accounted {G : Type} (earlier : List (Event G)) (i : Instance G)
    (call : ImportCall) (deed : Deed) (answer : Except CallError UInt64)
    (j : Instance G) : Prop where
  identified : Identified earlier i.host
  serve : (Instance.serve call).on i = (answer, j)
  serving : i.Serving call deed answer j
  /-- A call that is started about a stream which is not there changes nothing, and is
  answered so. -/
  missing : ∀ handle, call.stream? = some handle →
    (∀ stream, ¬ Designates handle stream earlier) →
    ∀ t, Instance.control.state.on i = (.ok .normal, t) → j = t ∧ j.host = i.host ∧
      ∃ word, answer = .ok word ∧
      AbiResult.Packs i.host.config.pairEncoding (.err .badF) word
  /-- A stream that is waited for is what the handle stands for. -/
  waiting : ∀ operation stream', Instance.Parks i.host call deed operation →
    operation.stream? = some stream' →
    ∃ handle stream, call.stream? = some handle ∧ Designates handle stream earlier ∧
    stream.Continues stream'
  /-- A handle stands for nothing once closing it has started. -/
  closed : ∀ handle t, call = .streamClose handle →
    Instance.control.state.on i = (.ok .normal, t) →
    ∀ stream, ¬ Designates handle stream (earlier ++ [.served i call deed answer j])
  /-- A stream is opened by what has been waited for. -/
  opened : ∀ completion, deed = .completed completion →
    Occupies (.resolved (.message completion)) earlier
  /-- The handle that is answered for a request stands for the fetch that the request
  has caused. -/
  issued : ∀ handle ticket, deed.issues i.host = some (handle, ticket) → ∃ raw request,
    deed = .dispatched raw ∧ i.host.reads raw = some (.httpCall request) ∧
      (i.host.dispatch raw).1 = .reply (.httpCalled handle) ∧
      j.host.outbox = .fetch ticket request :: i.host.outbox
  /-- A head that is waited for is that of the fetch that the handle stands for. -/
  claimed : ∀ ticket, Instance.Parks i.host call deed (.head ticket) → ∃ raw handle,
    deed = .dispatched raw ∧ i.host.reads raw = some (.httpCallHead handle) ∧
    Pends handle ticket earlier
  /-- A head is refused that is asked for by a handle which stands for no fetch. -/
  unclaimed : ∀ raw handle, deed = .dispatched raw →
    i.host.reads raw = some (.httpCallHead handle) →
    (∀ ticket, ¬ Pends handle ticket earlier) → ∃ text, i.host.dispatch raw =
    (.reply (.error .invalidHandle text none), i.host)

namespace HostRun

variable {G : Type} {fuel : Nat} {config : RuntimeConfig} {h : HostState}
  {past : List (Event G)} {broken : Bool}

theorem identified (hrun : HostRun fuel (.ofConfig config) past broken h) :
    Identified past h where
  sound := hrun.sound (HostState.ofConfig_sound config)
  streams := hrun.holdsStreams rfl (HostState.ofConfig_sound config) fun _ => rfl
  responses := hrun.holdsResponses (HostState.ofConfig_sound config) fun _ => rfl
  heads := hrun.holdsHeads rfl (HostState.ofConfig_sound config) fun _ => rfl
  slot := fun _ => hrun.occupied rfl

theorem accounted {i j : Instance G} {call : ImportCall} {deed : Deed}
    {answer : Except CallError UInt64}
    (hrun : HostRun fuel (.ofConfig config) past broken i.host)
    (hserve : (Instance.serve call).on i = (answer, j))
    (hserving : i.Serving call deed answer j) :
    Accounted past i call deed answer j where
  identified := hrun.identified
  serve := hserve
  serving := hserving
  missing := by
    intro handle hcall hnone t hnormal
    have hstream : i.host.streams.get? handle = none := by
      rw [Option.eq_none_iff_forall_ne_some]
      intro stream' h
      obtain ⟨stream, h⟩ := hrun.identified.streams.told handle stream' h
      exact hnone stream h
    obtain ⟨word, hon, hhost, hword⟩ := Instance.serve_of_none hcall hstream hnormal
    cases hserve.symm.trans hon
    exact ⟨rfl, hhost, word, rfl, hword⟩
  waiting := by
    intro operation stream' hparks hstream'
    -- The table holds a stream that continues the one which the handle
    -- was answered for.
    have hfound {handle : Handle} {stream' : Stream}
        (h : i.host.streams.get? handle = some stream') : ∃ stream,
        Designates handle stream past ∧ stream.Continues stream' := by
      obtain ⟨stream, hstream⟩ := hrun.identified.streams.told handle stream' h
      obtain ⟨_, h', hcontinues⟩ := hrun.identified.streams.designated handle
        stream hstream
      cases h.symm.trans h'
      exact ⟨stream, hstream, hcontinues⟩
    cases hparks with
    | message hdispatch =>
        obtain ⟨_, _, _, rfl⟩ | ⟨_, _, _, _, rfl, _⟩ :=
          HostState.dispatch_deferred hdispatch
        all_goals cases hstream'
    | read hstream | write hstream | close hstream =>
        cases hstream'
        obtain ⟨stream, hdesignates, hcontinues⟩ := hfound hstream
        exact ⟨_, stream, rfl, hdesignates, hcontinues⟩
  closed := by
    rintro handle t rfl hnormal stream hdesignates
    have hgone := Instance.serve_close handle hnormal
    rw [hserve] at hgone
    obtain ⟨stream', h, -⟩ :=
      (hrun.served hserve hserving).identified.streams.designated handle
        stream hdesignates
    cases hgone.symm.trans h
  opened := by
    rintro completion rfl
    exact hrun.identified.slot _ hserving.completes.1
  issued := by
    intro handle ticket hissues
    cases deed with
    | dispatched raw =>
        obtain ⟨request, hreads, hreply, houtbox⟩ := HostState.dispatch_issued hissues
        obtain ⟨core, host, hcore, hagrees, rfl⟩ := hserving.follows
        exact ⟨raw, request, rfl, hreads, hreply, hagrees.outbox.trans houtbox⟩
    | none | completed | closed => cases hissues
  claimed := by
    intro ticket hparks
    obtain ⟨raw, handle, hdeed, hreads, hresponse, -⟩ := hparks.claims
    exact ⟨raw, handle, hdeed, hreads,
      (hrun.identified.responses.pends handle ticket).mpr hresponse⟩
  unclaimed := by
    intro raw handle hdeed hreads hnone
    refine HostState.dispatch_head_of_none hreads ?_
    rw [Option.eq_none_iff_forall_ne_some]
    exact fun ticket h =>
      hnone ticket ((hrun.identified.responses.pends handle ticket).mpr h)

end HostRun

/-- Handles keep what they stand for. Behind any passage from a new instance, and
before each of its events, the tables hold what the events say; every import call
is accounted for by what came before it; and what is awaited is what was last left
in the slot. -/
theorem Passage.resources_identified {G : Type} {fuel : Nat} {config : RuntimeConfig}
    {i₀ i : Instance G} {log : List Exchange} {past : List (Event G)}
    {standing : Standing} (hfresh : i₀.host = .ofConfig config)
    (h : Passage fuel i₀ log past standing i) : Identified past i.host ∧
    (∀ earlier later i call deed answer j, past =
      earlier ++ .served i call deed answer j :: later →
      Accounted earlier i call deed answer j) ∧
    ∀ earlier later before operation log value after,
      past = earlier ++ .awaited before operation log value after :: later →
      Identified earlier before ∧ Occupies (.inFlight operation) earlier ∧
        Deferred.Served fuel before operation log value after ∧
        ∀ handle stream max, operation = .read handle stream max →
        before.streams.get? handle = some stream := by
  obtain ⟨broken, hrun, -⟩ := h.hostRun
  rw [hfresh] at hrun
  refine ⟨hrun.identified, ?_, ?_⟩
  · rintro earlier later i call deed answer j rfl
    obtain ⟨hserve, hserving, _, hearlier⟩ := hrun.at_served
    exact hearlier.accounted hserve hserving
  · rintro earlier later before operation log value after rfl
    obtain ⟨hserved, h', rfl, hpending, hearlier⟩ := hrun.at_awaited
    refine ⟨(hearlier.dropped rfl).identified,
      hearlier.identified.slot _ hpending, hserved, ?_⟩
    rintro handle stream max rfl
    exact hearlier.reading rfl rfl hpending

section Fetcher

open Scripted

/-- A core that sends a request, asks for the head of the response, then reads its
body and closes it: one after another, in three performs. Both replies are left where
the host stashes them. -/
def fetcher : Machine where
  performs :=
    [ [ .store (.word 32)
        "\x7b\"kind\":\"http-call\",\"method\":\"GET\",\"url\":\"http://h/\"\x7d".toUTF8,
        .call (.exchange (.word 32) (.word 53) (.word 0) (.word 0)) false none ],
      [ .store (.word 32) "\x7b\"kind\":\"http-call-head\",\"handle\":1\x7d".toUTF8,
        .call (.exchange (.word 32) (.word 36) (.word 0) (.word 0)) false none ],
      [ .call (.read (.word 1) (.word 32) (.word 8)) false none,
        .call (.close (.word 1)) false none ] ]

namespace Instance

def fetching : Instance Registers :=
  ⟨⟨.ofPages 1, ⟨0, 0, 0, 0⟩⟩, fetcher.exports, .ofConfig {}⟩

/-- Perform, and come to no end if that fails. -/
def performed (i : Instance Registers) : Task (Instance Registers) := do
  let (r, j) ← i.call 8 fun x s => x.perform s
  Task.ofOption (r.toOption.map fun _ => j)

def thrice (i : Instance Registers) :
    Task (Instance Registers × Instance Registers × Instance Registers) := do
  let i₁ ← i.performed
  let i₂ ← i₁.performed
  let i₃ ← i₂.performed
  return (i₁, i₂, i₃)

theorem performed_passage {i₀ i j : Instance Registers} {log : List Exchange}
    {past : List (Event Registers)} (h : Passage 8 i₀ log past .ready i)
    (hends : i.performed.Ends j) :
    ∃ log' events, Passage 8 i₀ log' (past ++ events) .ready j := by
  obtain ⟨⟨r, k⟩, hcall, hsome⟩ := Task.ends_bind.mp hends
  obtain ⟨log', hruns⟩ := hcall.runs
  obtain ⟨events, standing, hpassage, -, -, hready⟩ := h.call hruns
  cases r with
  | error e => cases Task.ends_ofOption.mp hsome
  | ok _ =>
      cases Task.ends_ofOption.mp hsome
      cases hready ⟨_, rfl⟩
      exact ⟨_, events, hpassage⟩

/-- The fetch pends, then its body is open, then the body has been read and closed. -/
structure Uses (i₁ i₂ i₃ : Instance Registers) : Prop where
  pends : i₁.host.responses.get? 1 = some 0
  claimed : i₂.host.responses.get? 1 = none
  opened : (i₂.host.streams.get? 1).isSome
  closed : i₃.host.streams.get? 1 = none
  read : i₃.core.memory.read? 32 3 = some "abc".toUTF8
  normal : (control.state.on i₃).1.toOption = some .normal

theorem Uses.exists_normal {i₁ i₂ i₃ : Instance Registers} (h : Uses i₁ i₂ i₃) :
    ∃ t, control.state.on i₃ = (.ok .normal, t) := by
  have hnormal := h.normal
  generalize control.state.on i₃ = outcome at hnormal ⊢
  rcases outcome with ⟨e | state, t⟩
  · cases hnormal
  · cases hnormal
    exact ⟨t, rfl⟩

def uses : Instance Registers × Instance Registers × Instance Registers → Bool
  | (i₁, i₂, i₃) =>
      i₁.host.responses.get? 1 = some 0 && (i₂.host.responses.get? 1).isNone &&
        (i₂.host.streams.get? 1).isSome && (i₃.host.streams.get? 1).isNone &&
        (i₃.core.memory.read? 32 3).map (·.data) = some "abc".toUTF8.data &&
        (control.state.on i₃).1.toOption = some .normal

theorem of_uses {i₁ i₂ i₃ : Instance Registers} (h : uses (i₁, i₂, i₃) = true) :
    Uses i₁ i₂ i₃ := by
  simp only [uses, Bool.and_eq_true, decide_eq_true_eq, Option.isNone_iff_eq_none] at h
  obtain ⟨⟨⟨⟨⟨hpends, hclaimed⟩, hopened⟩, hclosed⟩, hread⟩, hnormal⟩ := h
  exact ⟨hpends, hclaimed, hopened, hclosed, eq_some_of_data hread, hnormal⟩

end Instance

/-- Stated for any instance, since the run of a given one is costly to unfold. -/
theorem Passage.exists_uses {i₀ : Instance Registers} {W : Type}
    {serve : (r : Request) → W → r.Response × W} {w : W}
    (h : ((i₀.thrice.run serve w).any fun ended => Instance.uses ended.1) = true) :
    ∃ log₁ log₂ log₃ asked headed used i₁ i₂ i₃, Instance.Uses i₁ i₂ i₃ ∧
      Passage 8 i₀ log₁ asked .ready i₁ ∧
      Passage 8 i₀ log₂ (asked ++ headed) .ready i₂ ∧
      Passage 8 i₀ log₃ (asked ++ headed ++ used) .ready i₃ := by
  obtain ⟨⟨i₁, i₂, i₃⟩, hends, huses⟩ := Task.exists_ends_of_run (p := Instance.uses) h
  obtain ⟨j₁, hends₁, hends⟩ := Task.ends_bind.mp hends
  obtain ⟨j₂, hends₂, hends⟩ := Task.ends_bind.mp hends
  obtain ⟨j₃, hends₃, hends⟩ := Task.ends_bind.mp hends
  cases hends
  obtain ⟨log₁, asked, hasked⟩ := Instance.performed_passage .start hends₁
  obtain ⟨log₂, headed, hheaded⟩ := Instance.performed_passage hasked hends₂
  obtain ⟨log₃, used, hused⟩ := Instance.performed_passage hheaded hends₃
  exact ⟨log₁, log₂, log₃, _, headed, used, i₁, i₂, i₃, Instance.of_uses huses,
    hasked, hheaded, hused⟩

/-- The handle of a fetch stands for nothing once the head was asked for; that of the
body, which is the same number, stands for nothing once it was closed, and reading it
is refused. -/
theorem fetched_read_and_closed :
    ∃ log asked headed used stream ticket i j k deed word,
      Passage 8 Instance.fetching log
        (asked ++ headed ++ used ++
          [.served i (.streamRead 1 32 8) deed (.ok word) j]) .ready k ∧
      Pends 1 ticket asked ∧ (∀ ticket, ¬ Pends 1 ticket (asked ++ headed)) ∧
      Designates 1 stream (asked ++ headed) ∧
      i.core.memory.read? 32 3 = some "abc".toUTF8 ∧
      (∀ stream, ¬ Designates 1 stream (asked ++ headed ++ used)) ∧
      AbiResult.Packs i.host.config.pairEncoding (.err .badF) word := by
  have hrun : ((Instance.fetching.thrice.run Scene.serve
      (.bare [.response 200 [] [.ok "abc".toUTF8]])).any
        fun ended => Instance.uses ended.1) = true := by
    decide +kernel
  obtain ⟨log₁, log₂, log₃, asked, headed, used, i₁, i₂, i₃, huses, hasked, hheaded,
    hused⟩ := Passage.exists_uses hrun
  obtain ⟨hpended, -⟩ := Passage.resources_identified rfl hasked
  obtain ⟨hopened, -⟩ := Passage.resources_identified rfl hheaded
  obtain ⟨hclosed, -⟩ := Passage.resources_identified rfl hused
  have hclaimed (ticket : Nat) : ¬ Pends 1 ticket (asked ++ headed) := by
    intro h
    cases huses.claimed.symm.trans ((hopened.responses.pends 1 ticket).mp h)
  obtain ⟨stream', hstream'⟩ := Option.isSome_iff_exists.mp huses.opened
  obtain ⟨stream, hstream⟩ := hopened.streams.told 1 stream' hstream'
  have hgone (stream : Stream) : ¬ Designates 1 stream (asked ++ headed ++ used) := by
    intro h
    obtain ⟨_, hget, -⟩ := hclosed.streams.designated 1 stream h
    cases huses.closed.symm.trans hget
  -- The core reads on from the handle that it has closed.
  let entry (_ : Exports Registers) (s : CoreState Registers) :
      Activation Registers Unit :=
    .call s (.streamRead 1 32 8) fun s _ => .finish s ()
  have hcall : (ImportCall.streamRead 1 32 8).stream? = some 1 := rfl
  obtain ⟨t, hnormal⟩ := huses.exists_normal
  obtain ⟨word, hserve, -⟩ := Instance.serve_of_none hcall huses.closed hnormal
  obtain ⟨deed, hserving⟩ := Instance.exists_serving i₃ (.streamRead 1 32 8)
  rw [hserve] at hserving
  have htold : (entry i₃.exports i₃.core).Tells i₃ _ (.ok ()) _ :=
    .answered hserve hserving (.finish _ () _)
  obtain ⟨k, hflush⟩ := (Instance.total_flush (i := t)).exists_ends
  obtain ⟨log, hflush⟩ := hflush.runs
  have hpassage := hused.acted nofun htold hflush
  obtain ⟨-, haccounted, -⟩ := Passage.resources_identified rfl hpassage
  obtain ⟨-, -, _, hword, hpacks⟩ :=
    (haccounted _ [] _ _ _ _ _ rfl).missing 1 rfl hgone t hnormal
  cases hword
  exact ⟨_, asked, headed, used, stream, 0, i₃, t, k, deed, word, hpassage,
    (hpended.responses.pends 1 0).mpr huses.pends, hclaimed, hstream, huses.read,
    hgone, hpacks⟩

end Fetcher

end Resumable
