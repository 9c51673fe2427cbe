import Resumable.Proofs.Host.Resources

namespace Resumable

open Event

namespace HostState

structure Sound (h : HostState) : Prop where
  streams : h.streams.Sound
  responses : h.responses.Sound
  messages : h.messages.Sound

theorem ofConfig_sound (config : RuntimeConfig) : (ofConfig config).Sound :=
  ⟨HandleTable.withLimit_sound _, HandleTable.withLimit_sound _,
    HandleTable.withLimit_sound _⟩

variable {h : HostState} {raw : ByteArray} {operation : Deferred}

/-- The messages that are not answered at once open a file, or ask for the head of a
fetch that pends. -/
theorem dispatch_deferred (hdispatch : (h.dispatch raw).1 = .deferred operation) :
    (∃ path flags, h.reads raw = some (.fileOpen path flags) ∧
      operation = .openFile path flags) ∨
    ∃ handle ticket, h.reads raw = some (.httpCallHead handle) ∧
    h.responses.get? handle = some ticket ∧
      operation = .head ticket ∧
      (Deed.dispatched raw).claims h = some (handle, ticket) := by
  have hclaims : (Deed.dispatched raw).claims h =
      (h.dispatch raw).1.claimed (h.reads raw) := rfl
  have hdispatched := h.dispatch_dispatched raw
  generalize (h.dispatch raw).1 = dispatch at hdispatch hclaims hdispatched
  generalize (h.dispatch raw).2 = h' at hdispatched
  subst hdispatch
  cases hdispatched with
  | handled hreads hhandled =>
      rw [hreads] at hclaims
      cases hhandled with
      | opening path flags => exact .inl ⟨path, flags, hreads, rfl⟩
      | claimed hresponse => exact .inr ⟨_, _, hreads, hresponse, rfl, hclaims⟩

/-- The handle that is answered for a request is answered for the fetch that the
request has caused. -/
theorem dispatch_issued {handle : Handle} {ticket : Nat}
    (hissues : (Deed.dispatched raw).issues h = some (handle, ticket)) :
    ∃ request, h.reads raw = some (.httpCall request) ∧
    (h.dispatch raw).1 = .reply (.httpCalled handle) ∧
      (h.dispatch raw).2.outbox = .fetch ticket request :: h.outbox := by
  change (h.dispatch raw).1.issued.map (fun handle => (handle, h.tickets)) =
    _ at hissues
  have hdispatched := h.dispatch_dispatched raw
  generalize (h.dispatch raw).1 = dispatch at hissues hdispatched ⊢
  generalize (h.dispatch raw).2 = h' at hdispatched ⊢
  cases hdispatched with
  | unread => cases hissues
  | handled hreads hhandled =>
      cases hhandled with
      | @answered _ reply hreply =>
          cases reply with
          | httpCalled handle => exact absurd rfl (hreply handle)
          | _ => cases hissues
      | issued hinsert =>
          cases hissues
          exact ⟨_, hreads, rfl, rfl⟩
      | stored | opening | unissued | claimed => cases hissues

end HostState

namespace Instance

variable {G : Type} {i j : Instance G} {call : ImportCall} {deed : Deed}
  {answer : Except CallError UInt64}

theorem Stored.bridge (h : i.Stored j) : j.host.bridge = i.host.bridge := by
  obtain ⟨memory, messages, rfl⟩ := h
  rfl

/-- What a call leaves in the slot: what was there, or nothing in place of a value, or
what it is to wait for. -/
theorem Serving.slot (h : i.Serving call deed answer j) :
    j.host.bridge.pending = i.host.bridge.pending ∨
    j.host.bridge.pending = none ∨
    i.host.bridge.pending = none ∧ ∃ operation, Parks i.host call deed operation ∧
      j.host.bridge.pending = some (.inFlight operation) := by
  cases h with
  | refused => exact .inl rfl
  | unrewound | finished => exact .inr (.inl rfl)
  | tooLong _ _ hdeliver => exact .inl (congrArg _ (stored_of_deliver hdeliver).bridge)
  | replied _ _ _ hdeliver =>
      exact .inl
        (congrArg _
          ((stored_of_deliver hdeliver).bridge.trans (i.host.dispatch_bridge _)))
  | completed _ _ hdeliver =>
      exact .inr (.inl (congrArg _ (stored_of_deliver hdeliver).bridge))
  | retrieved _ hretrieve =>
      exact .inl (congrArg _ (stored_of_retrieve hretrieve).bridge)
  | missing _ _ _ hanswer | unreadable _ _ hanswer =>
      cases eq_of_answer hanswer
      exact .inl rfl
  | parked _ hidle hparks => exact .inr (.inr ⟨hidle, _, hparks, rfl⟩)
  | overlapping => exact .inl (congrArg _ (deed.apply_bridge i.host))

theorem Serving.streams (h : i.Serving call deed answer j) :
    j.host.streams = (deed.apply i.host).streams := by
  obtain ⟨core, host, hcore, hagrees, rfl⟩ := h.follows
  exact hagrees.streams

theorem Serving.responses (h : i.Serving call deed answer j) :
    j.host.responses = (deed.apply i.host).responses := by
  obtain ⟨core, host, hcore, hagrees, rfl⟩ := h.follows
  exact hagrees.responses

theorem Serving.tickets (h : i.Serving call deed answer j) :
    j.host.tickets = (deed.apply i.host).tickets := by
  obtain ⟨core, host, hcore, hagrees, rfl⟩ := h.follows
  exact hagrees.tickets

/-- Only a close that is not waited for closes a stream while something is in the
slot, and then it fails. -/
theorem Serving.closes (h : i.Serving call deed answer j) {handle : Handle}
    (hcloses : deed.closes = some handle) (hanswer : answer.isOk) :
    i.host.bridge.pending = none ∧
      ∃ stream, j.host.bridge.pending = some (.inFlight (.close stream)) := by
  cases h with
  | parked _ hidle hparks =>
      cases hparks with
      | close => exact ⟨hidle, _, rfl⟩
      | message | read | write => cases hcloses
  | overlapping => cases hanswer
  | _ => cases hcloses

/-- Only what an operation has come to is completed, and that is then no longer
in the slot. -/
theorem Serving.completes {completion : Completion}
    (h : i.Serving call (.completed completion) answer j) :
    i.host.bridge.pending = some (.resolved (.message completion)) ∧
    j.host.bridge.pending = none := by
  generalize hdeed : Deed.completed completion = deed at h
  cases h with
  | completed _ hvalue hdeliver =>
      cases hdeed
      exact ⟨hvalue, congrArg _ (stored_of_deliver hdeliver).bridge⟩
  | parked _ _ hparks | overlapping _ _ hparks =>
      subst hdeed
      cases hparks
  | _ => cases hdeed

theorem lasting_sound : Lasting fun i : Instance G => i.host.messages.Sound where
  core := fun _ _ hi => hi
  host := fun _ _ hsame hi => hsame.messages ▸ hi
  stashed := fun _ _ hi => HandleTable.insert_sound hi _
  retrieved := fun _ _ hi => HandleTable.remove_sound hi _

theorem Parks.claims {h : HostState} {ticket : Nat}
    (hparks : Parks h call deed (.head ticket)) :
    ∃ raw handle, deed = .dispatched raw ∧ h.reads raw = some (.httpCallHead handle) ∧
      h.responses.get? handle = some ticket ∧
      deed.claims h = some (handle, ticket) := by
  cases hparks with
  | @message _ _ _ _ raw _ hdispatch =>
      obtain ⟨_, _, _, hhead⟩ | ⟨handle, _, hreads, hresponse, hhead, hclaims⟩ :=
        HostState.dispatch_deferred hdispatch
      · cases hhead
      · cases hhead
        exact ⟨raw, handle, rfl, hreads, hresponse, hclaims⟩

end Instance

namespace HostRun

variable {G : Type} {fuel : Nat} {h₀ h : HostState} {past : List (Event G)}
  {broken : Bool}

/-- What is in the slot has been left there by the last event that has touched it. -/
theorem occupied (hrun : HostRun fuel h₀ past broken h)
    (hidle : h₀.bridge.pending = none) {pending : Pending Deferred Resolved}
    (hpending : h.bridge.pending = some pending) :
    Occupies pending past := by
  induction hrun generalizing pending with
  | start => simp [hidle] at hpending
  | passedOn _ _ ih => exact ih hpending
  | dropped _ hnone => simp [hnone] at hpending
  | served hrun hserve hserving ih =>
      refine lasts_append.mpr ?_
      obtain hkept | hnone | ⟨hfree, operation, hparks, hleft⟩ := hserving.slot
      · exact .inr ⟨ih (hkept ▸ hpending), fun hdisturbs => hdisturbs hkept⟩
      · simp [hnone] at hpending
      · cases hleft.symm.trans hpending
        exact .inl ⟨hfree, operation, hparks, rfl⟩
  | awaited =>
      cases hpending
      exact lasts_append.mpr (.inl rfl)
  | began _ _ ih | concluded _ ih => exact lasts_append.mpr (.inr ⟨ih hpending, id⟩)
  | released => cases hpending

theorem reading (hrun : HostRun fuel h₀ past broken h)
    (hidle : h₀.bridge.pending = none) (hbroken : broken = false) {handle : Handle}
    {stream : Stream} {max : Nat}
    (hpending : h.bridge.pending = some (.inFlight (.read handle stream max))) :
    h.streams.get? handle = some stream := by
  induction hrun with
  | start => simp [hidle] at hpending
  | passedOn _ _ ih => exact ih hbroken hpending
  | dropped _ hnone => simp [hnone] at hpending
  | @served _ broken i j call deed answer hrun hserve hserving ih =>
      rw [Bool.or_eq_false_iff, Bool.not_eq_false'] at hbroken
      obtain ⟨hbroken, hanswer⟩ := hbroken
      -- Opening empties the slot, and a close that leaves something there has failed.
      have hon := deed.onStreams i.host
      rw [hserving.streams]
      generalize (deed.apply i.host).streams = streams at hon ⊢
      cases hon with
      | opened hopens =>
          cases deed with
          | completed completion => simp [hserving.completes.2] at hpending
          | none | dispatched | closed => cases hopens
      | closed _ hcloses =>
          obtain ⟨-, _, hleft⟩ := hserving.closes hcloses hanswer
          cases hleft.symm.trans hpending
      | same =>
          obtain hkept | hnone | ⟨-, operation, hparks, hleft⟩ := hserving.slot
          · exact ih hbroken (hkept ▸ hpending)
          · simp [hnone] at hpending
          · cases hleft.symm.trans hpending
            cases hparks with
            | read hstream => exact hstream
            | message hdispatch =>
                obtain ⟨_, _, _, hread⟩ | ⟨_, _, _, _, hread, _⟩ :=
                  HostState.dispatch_deferred hdispatch
                all_goals cases hread
  | awaited => cases hpending
  | began _ _ ih | concluded _ ih => exact ih hbroken hpending
  | released => cases hpending

theorem sound (hrun : HostRun fuel h₀ past broken h) (hsound : h₀.Sound) : h.Sound := by
  induction hrun with
  | start => exact hsound
  | passedOn _ _ ih | dropped _ _ ih | began _ _ ih | concluded _ ih =>
      exact ⟨ih.streams, ih.responses, ih.messages⟩
  | @served _ _ i j call deed answer hrun hserve hserving ih =>
      refine ⟨?_, ?_, ?_⟩
      · have hon := deed.onStreams i.host
        rw [hserving.streams]
        generalize (deed.apply i.host).streams = streams at hon ⊢
        cases hon with
        | @opened _ stream _ _ _ hinsert =>
            have hinserted := HandleTable.insert_sound ih.streams stream
            rwa [hinsert] at hinserted
        | closed => exact HandleTable.remove_sound ih.streams _
        | same => exact ih.streams
      · have hon := deed.onResponses i.host
        rw [hserving.responses]
        generalize (deed.apply i.host).responses = responses at hon ⊢
        generalize (deed.apply i.host).tickets = tickets at hon
        cases hon with
        | issued _ _ hinsert =>
            have hinserted := HandleTable.insert_sound ih.responses i.host.tickets
            rwa [hinsert] at hinserted
        | claimed => exact HandleTable.remove_sound ih.responses _
        | same => exact ih.responses
      · have hmaintains := Instance.lasting_sound.unbroken.serve call i ih.messages
        rwa [hserve] at hmaintains
  | awaited _ _ hserved ih =>
      cases hserved with
      | @read handle _ stream' =>
          exact ⟨HandleTable.modify_sound ih.streams handle fun _ => stream',
            ih.responses, ih.messages⟩
      | openFile | head | write | close => exact ⟨ih.streams, ih.responses, ih.messages⟩
  | released _ ih =>
      exact ⟨HandleTable.drain_sound ih.streams, HandleTable.drain_sound ih.responses,
        HandleTable.drain_sound ih.messages⟩

/-- A table of streams holds what the events say that its handles stand for. -/
structure HoldsStreams (past : List (Event G))
    (streams : HandleTable Stream) : Prop where
  designated : ∀ handle stream, Designates handle stream past →
    ∃ stream', streams.get? handle = some stream' ∧ stream.Continues stream'
  told : ∀ handle stream', streams.get? handle = some stream' →
    ∃ stream, Designates handle stream past

section HoldsStreams

variable {i j : Instance G} {call : ImportCall} {deed : Deed}
  {answer : Except CallError UInt64}
  {streams streams' : HandleTable Stream} {e : Event G}

theorem HoldsStreams.unopened (hholds : HoldsStreams past streams)
    (hopens : e.opens? = none) (hcloses : ∀ handle, ¬ e.Closes handle) :
    HoldsStreams (past ++ [e]) streams := by
  have hsame (handle : Handle) (stream : Stream) :
      Designates handle stream (past ++ [e]) ↔ Designates handle stream past :=
    lasts_append_of_not (by simp [hopens]) (hcloses handle)
  refine ⟨fun handle stream h => hholds.designated handle stream ((hsame _ _).mp h),
    fun handle stream' h => ?_⟩
  obtain ⟨stream, hstream⟩ := hholds.told handle stream' h
  exact ⟨stream, (hsame _ _).mpr hstream⟩

theorem HoldsStreams.opened (hholds : HoldsStreams past streams) {handle : Handle}
    {stream : Stream} (hopens : e.opens? = some (handle, stream))
    (hcloses : ∀ handle, ¬ e.Closes handle)
    (hinserted : streams.Inserted stream handle streams') :
    HoldsStreams (past ++ [e]) streams' := by
  refine ⟨fun k s hs => ?_, fun k s' hs' => ?_⟩
  · obtain hs | ⟨hs, -⟩ := lasts_append.mp hs
    · cases hopens.symm.trans hs
      exact ⟨_, (hinserted.get? _).trans (if_pos rfl), .refl _⟩
    · obtain ⟨s', hs', hcontinues⟩ := hholds.designated k s hs
      refine ⟨s', (hinserted.get? k).trans ?_, hcontinues⟩
      rw [if_neg, hs']
      rintro rfl
      simp [hinserted.fresh] at hs'
  · rw [hinserted.get?] at hs'
    split at hs'
    · next hk =>
        cases hk
        exact ⟨stream, lasts_append.mpr (.inl hopens)⟩
    · obtain ⟨s, hs⟩ := hholds.told k s' hs'
      exact ⟨s, lasts_append.mpr (.inr ⟨hs, hcloses k⟩)⟩

theorem HoldsStreams.closed (hholds : HoldsStreams past streams) {handle : Handle}
    (hopens : e.opens? = none) (hcloses : ∀ k, e.Closes k ↔ k = handle) :
    HoldsStreams (past ++ [e]) (streams.remove handle).2 := by
  refine ⟨fun k s hs => ?_, fun k s' hs' => ?_⟩
  · obtain hs | ⟨hs, hk⟩ := lasts_append.mp hs
    · simp [hopens] at hs
    · rw [HandleTable.get?_remove, if_neg (mt (hcloses k).mpr hk)]
      exact hholds.designated k s hs
  · rw [HandleTable.get?_remove] at hs'
    split at hs'
    · cases hs'
    · next hk =>
        obtain ⟨s, hs⟩ := hholds.told k s' hs'
        exact ⟨s, lasts_append.mpr (.inr ⟨hs, mt (hcloses k).mp hk⟩)⟩

/-- What is put back after reading continues what has been there. -/
theorem HoldsStreams.read (hholds : HoldsStreams past streams) {handle : Handle}
    {stream stream' : Stream} {fuel max : Nat} {log : List Exchange}
    {result : Except Errno ByteArray} (hstream : streams.get? handle = some stream)
    (hread : (stream.read fuel max).Runs log (result, stream')) :
    HoldsStreams past (streams.modify handle fun _ => stream') := by
  refine ⟨fun k s hs => ?_, fun k s' hs' => ?_⟩
  · obtain ⟨s', hs', hcontinues⟩ := hholds.designated k s hs
    rw [HandleTable.get?_modify]
    split
    · next hk =>
        subst hk
        cases hs'.symm.trans hstream
        rw [hstream]
        exact ⟨stream', rfl, hcontinues.read hread⟩
    · exact ⟨s', hs', hcontinues⟩
  · rw [HandleTable.get?_modify] at hs'
    split at hs'
    · next hk =>
        subst hk
        exact hholds.told _ stream hstream
    · exact hholds.told k s' hs'

theorem HoldsStreams.served (hholds : HoldsStreams past i.host.streams)
    (hsound : i.host.streams.Sound) (hserving : i.Serving call deed answer j) :
    HoldsStreams (past ++ [.served i call deed answer j]) j.host.streams := by
  have hon := deed.onStreams i.host
  rw [hserving.streams]
  generalize (deed.apply i.host).streams = streams at hon ⊢
  cases hon with
  | opened hopens hcloses hinsert =>
      refine hholds.opened hopens (fun handle h => ?_)
        (HandleTable.inserted_of_insert hsound.inOrder hinsert)
      cases hcloses.symm.trans h
  | closed hopens hcloses =>
      exact hholds.closed hopens fun k =>
        ⟨fun h => Option.some.inj (h.symm.trans hcloses), fun h => h ▸ hcloses⟩
  | same hopens hcloses =>
      refine hholds.unopened hopens fun handle h => ?_
      cases hcloses.symm.trans h

end HoldsStreams

theorem holdsStreams (hrun : HostRun fuel h₀ past broken h)
    (hidle : h₀.bridge.pending = none) (hsound : h₀.Sound)
    (hempty : ∀ handle, h₀.streams.get? handle = none) :
    HoldsStreams past h.streams := by
  induction hrun with
  | start =>
      exact ⟨fun _ _ h => absurd h not_lasts_nil,
        fun handle _ h => by simp [hempty] at h⟩
  | passedOn _ _ ih | dropped _ _ ih => exact ih
  | served hrun hserve hserving ih =>
      exact ih.served (hrun.sound hsound).streams hserving
  | awaited hrun hpending hserved ih =>
      cases hserved with
      | read hread =>
          exact (ih.read (hrun.reading hidle rfl hpending) hread).unopened
            rfl fun _ => id
      | openFile | head | write | close => exact ih.unopened rfl fun _ => id
  | began _ _ ih | concluded _ ih => exact ih.unopened rfl fun _ => id
  | released =>
      refine ⟨fun _ _ h => ?_, fun handle _ h => nomatch h⟩
      obtain h | ⟨-, h⟩ := lasts_append.mp h
      · cases h
      · exact absurd trivial h

/-- A table of responses holds what the events say that its handles stand for. No two
handles stand for one fetch, no fetch is issued twice, and none is claimed twice. -/
structure HoldsResponses (past : List (Event G)) (responses : HandleTable Nat)
    (tickets : Nat) : Prop where
  pends : ∀ handle ticket, Pends handle ticket past ↔
    responses.get? handle = some ticket
  unclaimed : ∀ handle ticket, responses.get? handle = some ticket →
    ticket ∈ issued past ∧ ticket ∉ claimed past
  injective : ∀ handle handle' ticket, responses.get? handle = some ticket →
    responses.get? handle' = some ticket → handle = handle'
  issued_lt : ∀ ticket ∈ issued past, ticket < tickets
  issued_nodup : (issued past).Nodup
  claimed_subset : claimed past ⊆ issued past
  claimed_nodup : (claimed past).Nodup

section HoldsResponses

variable {i j : Instance G} {call : ImportCall} {deed : Deed}
  {answer : Except CallError UInt64} {responses responses' : HandleTable Nat}
  {tickets tickets' : Nat} {e : Event G}

theorem HoldsResponses.unissued (hholds : HoldsResponses past responses tickets)
    (hissues : e.issues? = none) (hclaims : e.claims? = none)
    (hends : ∀ handle, ¬ e.Claims handle) (htickets : tickets ≤ tickets') :
    HoldsResponses (past ++ [e]) responses tickets' := by
  have hissued : issued (past ++ [e]) = issued past := by
    rw [issued_append, hissues]
    exact List.append_nil _
  have hclaimed : claimed (past ++ [e]) = claimed past := by
    rw [claimed_append, hclaims]
    exact List.append_nil _
  constructor
  case pends =>
    exact fun handle ticket =>
      (lasts_append_of_not (by simp [hissues]) (hends handle)).trans
      (hholds.pends handle ticket)
  case injective => exact hholds.injective
  case issued_lt =>
    rw [hissued]
    exact fun ticket h => Nat.lt_of_lt_of_le (hholds.issued_lt ticket h) htickets
  all_goals simp only [hissued, hclaimed]
  · exact hholds.unclaimed
  · exact hholds.issued_nodup
  · exact hholds.claimed_subset
  · exact hholds.claimed_nodup

theorem HoldsResponses.issued (hholds : HoldsResponses past responses tickets)
    {handle : Handle} (hissues : e.issues? = some (handle, tickets))
    (hclaims : e.claims? = none) (hends : ∀ handle, ¬ e.Claims handle)
    (hinserted : responses.Inserted tickets handle responses') :
    HoldsResponses (past ++ [e]) responses' (tickets + 1) := by
  have hissued : Event.issued (past ++ [e]) = Event.issued past ++ [tickets] := by
    rw [issued_append, hissues]
    rfl
  have hclaimed : claimed (past ++ [e]) = claimed past := by
    rw [claimed_append, hclaims]
    exact List.append_nil _
  -- Tickets are counted up, so this one is new.
  have hnew : tickets ∉ Event.issued past :=
    fun h => Nat.lt_irrefl _ (hholds.issued_lt _ h)
  have hold {k : Handle} {ticket : Nat} (h : responses.get? k = some ticket) :
      ticket ≠ tickets := by
    rintro rfl
    exact hnew (hholds.unclaimed k _ h).1
  constructor
  case pends =>
    intro k ticket
    rw [Pends, lasts_append, hinserted.get?]
    constructor
    · rintro (h | ⟨h, -⟩)
      · cases hissues.symm.trans h
        exact if_pos rfl
      · have hk := (hholds.pends k ticket).mp h
        rwa [if_neg]
        rintro rfl
        simp [hinserted.fresh] at hk
    · split
      · next hk =>
          rintro ⟨⟩
          exact .inl (hk ▸ hissues)
      · exact fun h => .inr ⟨(hholds.pends k ticket).mpr h, hends k⟩
  case unclaimed =>
    intro k ticket
    rw [hinserted.get?, hissued, hclaimed]
    split
    · rintro ⟨⟩
      exact ⟨List.mem_append_right _ (List.mem_singleton_self _),
        fun h => hnew (hholds.claimed_subset h)⟩
    · intro h
      exact ⟨List.mem_append_left _ (hholds.unclaimed k _ h).1,
        (hholds.unclaimed k _ h).2⟩
  case injective =>
    intro k k' ticket
    rw [hinserted.get?, hinserted.get?]
    split <;> split
    · next hk hk' => exact fun _ _ => hk.trans hk'.symm
    · rintro ⟨⟩ h
      exact absurd rfl (hold h)
    · rintro h ⟨⟩
      exact absurd rfl (hold h)
    · exact hholds.injective k k' ticket
  case issued_lt =>
    rw [hissued]
    intro ticket h
    obtain h | h := List.mem_append.mp h
    · exact Nat.lt_succ_of_lt (hholds.issued_lt ticket h)
    · rw [List.mem_singleton.mp h]
      exact Nat.lt_succ_self _
  case issued_nodup =>
    rw [hissued]
    exact List.nodup_append_comm.mp (List.nodup_cons.mpr ⟨hnew, hholds.issued_nodup⟩)
  case claimed_subset =>
    rw [hissued, hclaimed]
    exact fun ticket h => List.mem_append_left _ (hholds.claimed_subset h)
  case claimed_nodup =>
    rw [hclaimed]
    exact hholds.claimed_nodup

theorem HoldsResponses.claimed (hholds : HoldsResponses past responses tickets)
    {handle : Handle} {ticket : Nat} (hissues : e.issues? = none)
    (hclaims : e.claims? = some (handle, ticket))
    (hends : ∀ k, e.Claims k ↔ k = handle)
    (hresponse : responses.get? handle = some ticket) :
    HoldsResponses (past ++ [e]) (responses.remove handle).2 tickets := by
  have hissued : Event.issued (past ++ [e]) = Event.issued past := by
    rw [issued_append, hissues]
    exact List.append_nil _
  have hclaimed : Event.claimed (past ++ [e]) = Event.claimed past ++ [ticket] := by
    rw [claimed_append, hclaims]
    rfl
  obtain ⟨hold, hnew⟩ := hholds.unclaimed handle ticket hresponse
  have hleft {k : Handle} {t : Nat} (h : (responses.remove handle).2.get? k = some t) :
      k ≠ handle ∧ responses.get? k = some t := by
    rw [HandleTable.get?_remove] at h
    split at h
    · cases h
    · next hk => exact ⟨hk, h⟩
  constructor
  case pends =>
    intro k t
    rw [Pends, lasts_append, hends, HandleTable.get?_remove]
    constructor
    · rintro (h | ⟨h, hk⟩)
      · simp [hissues] at h
      · rw [if_neg hk]
        exact (hholds.pends k t).mp h
    · split
      · rintro ⟨⟩
      · next hk => exact fun h => .inr ⟨(hholds.pends k t).mpr h, hk⟩
  case unclaimed =>
    intro k t h
    obtain ⟨hk, h⟩ := hleft h
    obtain ⟨ht, ht'⟩ := hholds.unclaimed k t h
    rw [hissued, hclaimed]
    refine ⟨ht, List.not_mem_append ht' ?_⟩
    rw [List.mem_singleton]
    rintro rfl
    exact hk (hholds.injective _ _ _ h hresponse)
  case injective => exact fun k k' t h h' =>
    hholds.injective k k' t (hleft h).2 (hleft h').2
  case issued_lt => exact hissued ▸ hholds.issued_lt
  case issued_nodup => exact hissued ▸ hholds.issued_nodup
  case claimed_subset =>
    rw [hissued, hclaimed]
    exact List.append_subset.mpr ⟨hholds.claimed_subset,
      fun t h => List.mem_singleton.mp h ▸ hold⟩
  case claimed_nodup =>
    rw [hclaimed]
    exact List.nodup_append_comm.mp (List.nodup_cons.mpr ⟨hnew, hholds.claimed_nodup⟩)

theorem HoldsResponses.served
    (hholds : HoldsResponses past i.host.responses i.host.tickets)
    (hsound : i.host.responses.Sound) (hserving : i.Serving call deed answer j) :
    HoldsResponses (past ++ [.served i call deed answer j]) j.host.responses
      j.host.tickets := by
  have hends {handle : Handle} (hclaims : deed.claims i.host = none) :
      ¬ (Event.served i call deed answer j).Claims handle := by
    rintro ⟨ticket, h⟩
    cases hclaims.symm.trans h
  have hon := deed.onResponses i.host
  rw [hserving.responses, hserving.tickets]
  generalize (deed.apply i.host).responses = responses at hon ⊢
  generalize (deed.apply i.host).tickets = tickets at hon ⊢
  cases hon with
  | issued hissues hclaims hinsert =>
      exact hholds.issued hissues hclaims (fun _ => hends hclaims)
        (HandleTable.inserted_of_insert hsound.inOrder hinsert)
  | @claimed handle ticket hissues hclaims hresponse =>
      refine hholds.claimed hissues hclaims (fun k => ⟨?_, ?_⟩) hresponse
      · rintro ⟨t, h⟩
        cases hclaims.symm.trans h
        rfl
      · rintro rfl
        exact ⟨ticket, hclaims⟩
  | same hissues hclaims htickets =>
      exact hholds.unissued hissues hclaims (fun _ => hends hclaims) htickets

end HoldsResponses

theorem holdsResponses (hrun : HostRun fuel h₀ past broken h) (hsound : h₀.Sound)
    (hempty : ∀ handle, h₀.responses.get? handle = none) :
    HoldsResponses past h.responses h.tickets := by
  have hrest {past : List (Event G)} {e : Event G} {responses : HandleTable Nat}
      {tickets : Nat} (hholds : HoldsResponses past responses tickets)
      (hissues : e.issues? = none) (hclaims : e.claims? = none)
      (hends : ∀ handle, ¬ e.Claims handle) : HoldsResponses (past ++ [e])
      responses tickets :=
    hholds.unissued hissues hclaims hends (Nat.le_refl _)
  induction hrun with
  | start =>
      constructor
      case pends => exact fun handle ticket =>
        ⟨fun h => absurd h not_lasts_nil, fun h => by simp [hempty] at h⟩
      case unclaimed => exact fun handle ticket h => by simp [hempty] at h
      case injective => exact fun handle _ ticket h => by simp [hempty] at h
      case issued_lt => exact fun _ h => nomatch h
      case claimed_subset => exact fun _ h => h
      all_goals exact List.nodup_nil
  | passedOn _ _ ih | dropped _ _ ih => exact ih
  | served hrun hserve hserving ih =>
      exact ih.served (hrun.sound hsound).responses hserving
  | awaited _ _ hserved ih =>
      cases hserved with
      | openFile | head | read | write | close => exact hrest ih rfl rfl fun _ => id
  | began _ _ ih | concluded _ ih => exact hrest ih rfl rfl fun _ => id
  -- A release empties the table, but what has been issued and claimed stays so.
  | @released past _ h _ ih =>
      have hissued : issued (past ++ [.released]) = issued past := by
        rw [issued_append]
        exact List.append_nil _
      have hclaimed : claimed (past ++ [.released]) = claimed past := by
        rw [claimed_append]
        exact List.append_nil _
      constructor
      case pends =>
        refine fun handle ticket => ⟨fun h => ?_, nofun⟩
        obtain h | ⟨-, h⟩ := lasts_append.mp h
        · cases h
        · exact absurd trivial h
      case unclaimed | injective => nofun
      case issued_lt => exact hissued ▸ ih.issued_lt
      case issued_nodup => exact hissued ▸ ih.issued_nodup
      case claimed_subset => exact hissued ▸ hclaimed ▸ ih.claimed_subset
      case claimed_nodup => exact hclaimed ▸ ih.claimed_nodup

/-- The heads that have come are those of fetches that were claimed, each once. -/
structure HoldsHeads (past : List (Event G))
    (pending : Option (Pending Deferred Resolved)) : Prop where
  subset : heads past ⊆ claimed past
  nodup : (heads past).Nodup
  waiting : ∀ ticket, pending = some (.inFlight (.head ticket)) →
    ticket ∈ claimed past ∧ ticket ∉ heads past

theorem HoldsHeads.append
    {pending pending' : Option (Pending Deferred Resolved)} {e : Event G}
    (hholds : HoldsHeads past pending) (hhead : e.head? = none)
    (hwaiting : ∀ ticket, pending' = some (.inFlight (.head ticket)) →
      pending = some (.inFlight (.head ticket)) ∨
      (∃ handle, e.claims? = some (handle, ticket)) ∧ ticket ∉ heads past) :
    HoldsHeads (past ++ [e]) pending' := by
  have hheads : heads (past ++ [e]) = heads past := by
    rw [heads_append, hhead]
    exact List.append_nil _
  constructor
  case subset =>
    rw [hheads, claimed_append]
    exact fun t h => List.mem_append_left _ (hholds.subset h)
  case nodup => exact hheads ▸ hholds.nodup
  case waiting =>
    intro ticket h
    rw [hheads, claimed_append]
    obtain h | ⟨⟨handle, hclaims⟩, hfresh⟩ := hwaiting ticket h
    · obtain ⟨hclaimed, hfresh⟩ := hholds.waiting ticket h
      exact ⟨List.mem_append_left _ hclaimed, hfresh⟩
    · rw [hclaims]
      exact ⟨List.mem_append_right _ (List.mem_singleton_self _), hfresh⟩

/-- Once its head has come, a fetch is not waited for any more. -/
theorem HoldsHeads.awaited {pending : Option (Pending Deferred Resolved)}
    {e : Event G} {ticket : Nat} {value : Resolved} (hholds : HoldsHeads past pending)
    (hpending : pending = some (.inFlight (.head ticket)))
    (hhead : e.head? = some ticket) :
    HoldsHeads (past ++ [e]) (some (.resolved value)) := by
  have hheads : heads (past ++ [e]) = heads past ++ [ticket] := by
    rw [heads_append, hhead]
    rfl
  obtain ⟨hclaimed, hfresh⟩ := hholds.waiting ticket hpending
  constructor
  case subset =>
    rw [hheads, claimed_append]
    exact List.append_subset.mpr ⟨fun t h => List.mem_append_left _ (hholds.subset h),
      fun t h => List.mem_append_left _ (List.mem_singleton.mp h ▸ hclaimed)⟩
  case nodup =>
    rw [hheads]
    exact List.nodup_append_comm.mp (List.nodup_cons.mpr ⟨hfresh, hholds.nodup⟩)
  case waiting => nofun

theorem holdsHeads (hrun : HostRun fuel h₀ past broken h)
    (hidle : h₀.bridge.pending = none) (hsound : h₀.Sound)
    (hempty : ∀ handle, h₀.responses.get? handle = none) :
    HoldsHeads past h.bridge.pending := by
  induction hrun with
  | start => exact ⟨fun _ h => h, List.nodup_nil, fun ticket h => by simp [hidle] at h⟩
  | passedOn _ _ ih => exact ih
  | dropped _ hnone ih =>
      exact ⟨ih.subset, ih.nodup, fun ticket h => by simp [hnone] at h⟩
  | served hrun hserve hserving ih =>
      refine ih.append rfl fun ticket h => ?_
      obtain hkept | hnone | ⟨-, operation, hparks, hleft⟩ := hserving.slot
      · exact .inl (hkept ▸ h)
      · simp [hnone] at h
      · cases hleft.symm.trans h
        obtain ⟨raw, handle, rfl, -, hresponse, hclaims⟩ := hparks.claims
        have hunclaimed :=
          ((hrun.holdsResponses hsound hempty).unclaimed _ _ hresponse).2
        exact .inr ⟨⟨handle, hclaims⟩, fun h => hunclaimed (ih.subset h)⟩
  | awaited hrun hpending hserved ih =>
      cases hserved with
      | head => exact ih.awaited hpending rfl
      | openFile | read | write | close => exact ih.append rfl nofun
  | began _ _ ih | concluded _ ih => exact ih.append rfl fun _ => .inl
  | released _ ih => exact ih.append rfl nofun

end HostRun

end Resumable
