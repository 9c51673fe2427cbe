import Resumable.Proofs.Host.Halves

/-!
# Which call a value is for

A value is left for the call that has waited for it. The host does not know a call
again when the core is rewound: all it can tell is whether the value is of the kind
that the import waits for. So a value finishes a call of the import that parked its
operation, whatever the operands, and a call of any other import is refused.
-/

namespace Resumable

open Event

theorem Instance.Parks.caller {h : HostState} {call : ImportCall} {deed : Deed}
    {operation : Deferred} (hparks : Parks h call deed operation) :
    operation.caller = call.name := by
  cases hparks with
  | message hdispatch =>
      obtain ⟨_, _, _, rfl⟩ | ⟨_, _, _, _, rfl, _⟩ := HostState.dispatch_deferred
        hdispatch <;> rfl
  | read | write | close => rfl

/-- What an operation comes to is for the import that waits for it. -/
theorem Deferred.Served.caller {fuel : Nat} {h h' : HostState} {operation : Deferred}
    {log : List Exchange} {value : Resolved}
    (hserved : Deferred.Served fuel h operation log value h') :
    value.caller = operation.caller := by
  cases hserved <;> rfl

def Act.Obeys {σ E α : Type} (a : Act σ E α) : Prop :=
  ∀ s v, (a.on s).1 ≠ .error (.violation v)

namespace Act.Obeys

variable {σ E α β : Type}

theorem pure (v : α) : Obeys (Pure.pure v : Act σ E α) := fun _ _ h => nomatch h

theorem fail (e : E) : Obeys (Act.fail e : Act σ E α) := fun _ _ h => nomatch h

theorem read (f : σ → α) : Obeys (Act.read f : Act σ E α) := fun _ _ h => nomatch h

theorem bind {a : Act σ E α} {f : α → Act σ E β} (ha : a.Obeys)
    (hf : ∀ v, (f v).Obeys) : (a >>= f).Obeys := by
  intro s v h
  rw [Act.on_bind] at h
  rcases hr : a.on s with ⟨e | x, t⟩
  · rw [hr] at h
    cases h
    exact ha s v (congrArg Prod.fst hr)
  · rw [hr] at h
    exact hf x t v h

end Act.Obeys

namespace Live

variable {G : Type}

theorem obeys_writeMemory (ptr : UInt32) (bytes : ByteArray) :
    (writeMemory ptr bytes : Live G Bool).Obeys := by
  intro i v h
  rcases hwrite : i.core.memory.write? ptr.toNat bytes with _ | memory
  · rw [on_writeMemory_none hwrite] at h
    cases h
  · rw [on_writeMemory_some hwrite] at h
    cases h

theorem obeys_ofAbi (r : Except AbiError UInt64) : (ofAbi r : Live G UInt64).Obeys := by
  cases r with
  | ok word => exact .pure word
  | error e => exact .fail (Fault.abi e)

theorem obeys_answer (result : Except Errno UInt32) :
    (answer result : Live G UInt64).Obeys :=
  .bind (.read _) fun _ => obeys_ofAbi _

theorem obeys_stash (bytes : ByteArray) : (stash bytes : Live G Handle).Obeys := by
  refine .bind (fun _ _ h => nomatch h) fun handle => ?_
  cases handle with
  | some handle => exact .pure handle
  | none => exact .fail Fault.storeFull

theorem obeys_deliver (message : Outgoing) (outPtr outLen : UInt32) :
    (deliver message outPtr outLen : Live G UInt64).Obeys := by
  rcases Nat.lt_or_ge message.encode.size 4294967296 with hsmall | hlong
  · rw [deliver_eq hsmall]
    refine .bind ?_ fun handle => .bind (.read _) fun _ => obeys_ofAbi _
    split
    · refine .bind (obeys_writeMemory outPtr _) fun written => ?_
      cases written with
      | true => exact .pure 0
      | false => exact .fail Fault.replyOutside
    · exact obeys_stash _
  · rw [deliver_of_long hlong]
    exact .fail Fault.replyTooLong

/-- A call that is finished with a value of its own breaks no rule. -/
theorem obeys_finish {call : ImportCall} {value : Resolved}
    (h : value.caller = call.name) : (call.finish value : Live G UInt64).Obeys := by
  intro i
  have hfinishes := Instance.finishes call value i
  generalize (call.finish value).on i = outcome at hfinishes
  cases hfinishes with
  | completed => exact obeys_deliver _ _ _ _
  | read | outside | unread | written | closed => exact obeys_answer _ _
  | mismatched hother => exact absurd h hother

end Live

namespace Event

variable {G : Type} {started : ImportCall} {operation : Deferred} {value : Resolved}
  {past : List (Event G)} {e : Event G}

def Parked (started : ImportCall) (operation : Deferred) : Event G → Prop
  | .served before call _ _ after =>
      call = started ∧ before.host.bridge.pending = none ∧
        after.host.bridge.pending = some (.inFlight operation)
  | _ => False

/-- The slot holds what an operation has come to that a call has parked. From when it
was parked to when it was awaited, and from then on, nothing has touched the slot. -/
def ComesFrom (started : ImportCall) (operation : Deferred) (value : Resolved)
    (past : List (Event G)) : Prop :=
  ∃ earlier before log after later, past = earlier ++ .awaited before operation log
    value after :: later ∧ (∀ e ∈ later, ¬ e.Disturbs) ∧
    Lasts (Parked started operation) Disturbs earlier

theorem ComesFrom.append (h : ComesFrom started operation value past)
    (he : ¬ e.Disturbs) : ComesFrom started operation value (past ++ [e]) := by
  obtain ⟨earlier, before, log, after, later, rfl, hlater, hparked⟩ := h
  refine ⟨earlier, before, log, after, later ++ [e], by simp, ?_, hparked⟩
  exact List.forall_mem_append.mpr ⟨hlater, List.forall_mem_singleton.mpr he⟩

end Event

namespace HostRun

variable {G : Type} {fuel : Nat} {h₀ h : HostState} {past : List (Event G)}
  {broken : Bool}

theorem parked (hrun : HostRun fuel h₀ past broken h)
    (hidle : h₀.bridge.pending = none) {operation : Deferred}
    (hpending : h.bridge.pending = some (.inFlight operation)) :
    ∃ started, started.name = operation.caller ∧
    Lasts (Parked started operation) Disturbs past := by
  induction hrun with
  | start => simp [hidle] at hpending
  | passedOn _ _ ih => exact ih hpending
  | dropped _ hnone => simp [hnone] at hpending
  | @served _ _ i j call _ _ hrun hserve hserving ih =>
      obtain hkept | hnone | ⟨hfree, operation', hparks, hleft⟩ := hserving.slot
      · obtain ⟨started, hname, hlasts⟩ := ih (hkept ▸ hpending)
        exact ⟨started, hname,
          lasts_append.mpr (.inr ⟨hlasts, fun hdisturbs => hdisturbs hkept⟩)⟩
      · simp [hnone] at hpending
      · cases hleft.symm.trans hpending
        exact ⟨call, hparks.caller.symm, lasts_append.mpr (.inl ⟨rfl, hfree, hleft⟩)⟩
  | awaited => cases hpending
  | began _ _ ih | concluded _ ih =>
      obtain ⟨started, hname, hlasts⟩ := ih hpending
      exact ⟨started, hname, lasts_append.mpr (.inr ⟨hlasts, id⟩)⟩
  | released => cases hpending

/-- A value in the slot is what an operation came to that a call of the import
has parked. -/
theorem comesFrom (hrun : HostRun fuel h₀ past broken h)
    (hidle : h₀.bridge.pending = none) {value : Resolved}
    (hpending : h.bridge.pending = some (.resolved value)) : ∃ started operation,
    started.name = value.caller ∧ ComesFrom started operation value past := by
  induction hrun with
  | start => simp [hidle] at hpending
  | passedOn _ _ ih => exact ih hpending
  | dropped _ hnone => simp [hnone] at hpending
  | served hrun hserve hserving ih =>
      obtain hkept | hnone | ⟨-, _, -, hleft⟩ := hserving.slot
      · obtain ⟨started, operation, hname, hcomes⟩ := ih (hkept ▸ hpending)
        exact ⟨started, operation, hname,
          hcomes.append fun hdisturbs => hdisturbs hkept⟩
      · simp [hnone] at hpending
      · cases hleft.symm.trans hpending
  | @awaited past _ _ operation log _ hrun hflight hserved =>
      cases hpending
      obtain ⟨started, hname, hlasts⟩ := hrun.parked hidle hflight
      refine ⟨started, operation, hname.trans hserved.caller.symm, past, _, log, _,
        [], rfl, ?_, hlasts⟩
      exact List.forall_mem_nil _
  | began _ _ ih | concluded _ ih =>
      obtain ⟨started, operation, hname, hcomes⟩ := ih hpending
      exact ⟨started, operation, hname, hcomes.append id⟩
  | released => cases hpending

end HostRun

namespace Instance

variable {G : Type} {i j : Instance G} {call : ImportCall}
  {answer : Except CallError UInt64} {past : List (Event G)}

/-- What comes of a call that a rewound core makes, told by what has happened before
it. Unless it is finished, no more is done for it than to empty the slot and to stop
the rewinding. -/
inductive Rewound (past : List (Event G)) (i : Instance G) (call : ImportCall) :
    Except CallError UInt64 → Instance G → Prop where
  | unresolved (hnone : ∀ value, i.host.bridge.pending ≠ some (.resolved value)) :
      Rewound past i call (.error (.violation .nothingResolved))
        (i.onward (i.exports.getState i.core).2 i.host)
  | unstopped {value : Resolved} {cause : Trap} {core : CoreState G}
      (hvalue : i.host.bridge.pending = some (.resolved value))
      (hstop : i.exports.stopRewind (i.exports.getState i.core).2 =
        (.error cause, core)) :
      Rewound past i call (.error (.other (.trap cause)))
        (i.onward core (i.host.withPending none))
  | mismatched {started : ImportCall} {operation : Deferred} {value : Resolved}
      {core : CoreState G} (hvalue : i.host.bridge.pending = some (.resolved value))
      (hcomes : ComesFrom started operation value past)
      (hname : started.name ≠ call.name)
      (hstop : i.exports.stopRewind (i.exports.getState i.core).2 = (.ok (), core)) :
      Rewound past i call (.error (.violation .resolvedMismatch))
        (i.onward core (i.host.withPending none))
  | finished {started : ImportCall} {operation : Deferred} {value : Resolved}
      {core : CoreState G} {answer : Except CallError UInt64} {j : Instance G}
      (hvalue : i.host.bridge.pending = some (.resolved value))
      (hcomes : ComesFrom started operation value past)
      (hname : started.name = call.name)
      (hstop : i.exports.stopRewind (i.exports.getState i.core).2 = (.ok (), core))
      (hfinish : (call.finish value).on (i.onward core (i.host.withPending none)) =
        (answer, j)) (hanswer : ∀ v, answer ≠ .error (.violation v)) :
      Rewound past i call answer j

theorem rewound_of_serve {fuel : Nat} {h₀ : HostState} {broken : Bool}
    (hrun : HostRun fuel h₀ past broken i.host) (hidle : h₀.bridge.pending = none)
    (hs : (control.state.on i).1 = .ok .rewinding)
    (hserve : (serve call).on i = (answer, j)) : i.Rewound past call answer j := by
  cases course_of_serve hserve with
  | refused hs' => exact absurd hs hs'.2
  | started hs' | overlapping hs' | parked hs' => cases hs.symm.trans hs'
  | unresolved _ hnone => exact .unresolved hnone
  | unstopped _ hvalue hstop => exact .unstopped hvalue hstop
  | @finished value core _ _ _ hvalue hstop hfinish =>
      obtain ⟨started, operation, hname, hcomes⟩ := hrun.comesFrom hidle hvalue
      by_cases hsame : started.name = call.name
      · have hobeys :=
          Live.obeys_finish (hname.symm.trans hsame)
            (i.onward core (i.host.withPending none))
        rw [hfinish] at hobeys
        exact .finished hvalue hcomes hsame hstop hfinish hobeys
      · rw [finish_of_ne (hname ▸ hsame)] at hfinish
        cases hfinish
        exact .mismatched hvalue hcomes hsame hstop

end Instance

/-- Whatever a core does, what a rewound call is finished with has been waited for by
a call of the same import. A call of any other import is refused once the rewinding
has been stopped. -/
theorem Passage.resumed_by_same_import {G : Type} {fuel : Nat} {i₀ i k j : Instance G}
    {log : List Exchange} {past earlier later : List (Event G)} {standing : Standing}
    {call : ImportCall} {deed : Deed} {answer : Except CallError UInt64}
    (hidle : i₀.host.bridge.pending = none) (h : Passage fuel i₀ log past standing i)
    (hpast : past = earlier ++ .served k call deed answer j :: later)
    (hs : (Instance.control.state.on k).1 = .ok .rewinding) :
    k.Rewound earlier call answer j := by
  subst hpast
  obtain ⟨broken, hrun, -⟩ := h.hostRun
  obtain ⟨hserve, -, _, hearlier⟩ := hrun.at_served
  exact Instance.rewound_of_serve hearlier hidle hs hserve

section Crossed

/-- A core with two open streams that closes the first one. When it is rewound it asks
for the second. -/
def crossed : Instance Int32 where
  core := ⟨.ofPages 1, 0⟩
  exports :=
    { getState := fun s => (.ok s.globals, s)
      startUnwind := fun _ s => (.ok (), { s with globals := 1 })
      stopUnwind := fun s => (.ok (), { s with globals := 0 })
      startRewind := fun _ s => (.ok (), { s with globals := 2 })
      stopRewind := fun s => (.ok (), { s with globals := 0 })
      setup := fun s => .finish s ()
      teardown := fun s => .finish s ()
      perform :=
        fun s => .call s (.streamClose (if s.globals = 2 then 2 else 1))
          fun s _ => .finish s ()
      getMetrics := fun s => .finish s 0
      clearMetrics := fun s => .finish s ()
      getDeveloperDump := fun s => .finish s 0 }
  host := { HostState.ofConfig {} with streams := ⟨7, 3, [(1, .file 7), (2, .file 8)]⟩ }

namespace crossed

def left (memory : Memory) (state : Int32) (bridge : Bridge Deferred Resolved) :
    Instance Int32 :=
  ⟨⟨memory, state⟩, crossed.exports,
    { crossed.host with streams := ⟨7, 3, [(2, .file 8)]⟩, bridge := bridge }⟩

def waiting : Bridge Deferred Resolved := ⟨some (.inFlight (.close (.file 7))), 0⟩

def closed : Bridge Deferred Resolved := ⟨some (.resolved (.close (.ok ()))), 1⟩

theorem exists_called : ∃ memory deed deed' log,
    Instance.Called 0 (fun x s => x.perform s) crossed log
      [ .served (crossed.withMemory memory) (.streamClose 1) deed (.ok 0)
        (left memory 1 waiting)
      , .awaited (left memory 0 ⟨none, 0⟩).host (.close (.file 7))
        [⟨.closeFile 7, .ok ()⟩] (.close (.ok ()))
          (left memory 0 ⟨none, 0⟩).host
      , .served (left memory 2 closed) (.streamClose 2) deed' (.ok 0)
        (left memory 0 ⟨none, 1⟩) ]
      (some (.ok ())) (left memory 0 ⟨none, 1⟩) := by
  have hready : Instance.control.readyEntry.on crossed =
    (.ok (), crossed.withMemory
      (Instance.control.readyEntry.on crossed).2.core.memory) := rfl
  generalize (Instance.control.readyEntry.on crossed).2.core.memory = memory at hready
  have hrewind :
      (Instance.control.readyRewind (.close (.ok ()))).on (left memory 0 ⟨none, 0⟩) =
    (.ok (), left memory 2 closed) := rfl
  have hstart : (Instance.serve (.streamClose 1)).on (crossed.withMemory memory) =
    (.ok 0, left memory 1 waiting) := rfl
  have hfinish : (Instance.serve (.streamClose 2)).on (left memory 2 closed) =
    (.ok 0, left memory 0 ⟨none, 1⟩) := rfl
  have hclose : ((Deferred.close (.file 7)).serve 0 (left memory 0 ⟨none, 0⟩).host).Runs
    [⟨.closeFile 7, .ok ()⟩] (.close (.ok ()), (left memory 0 ⟨none, 0⟩).host) :=
      ⟨.ok (), [], rfl, rfl, rfl⟩
  have hflush (bridge : Bridge Deferred Resolved) :
    (left memory 0 bridge).host.flush.Runs [] (left memory 0 bridge).host := ⟨rfl, rfl⟩
  have hflush' (bridge : Bridge Deferred Resolved) :
    (left memory 0 bridge).flush.Runs [] (left memory 0 bridge) := ⟨rfl, rfl⟩
  obtain ⟨deed, hserving⟩ := (crossed.withMemory memory).exists_serving (.streamClose 1)
  rw [hstart] at hserving
  obtain ⟨deed', hserving'⟩ := (left memory 2 closed).exists_serving (.streamClose 2)
  rw [hfinish] at hserving'
  have htold :
      (crossed.exports.perform (crossed.withMemory memory).core).Tells
        (crossed.withMemory memory)
        [.served (crossed.withMemory memory) (.streamClose 1) deed (.ok 0)
          (left memory 1 waiting)]
      (.ok ()) (left memory 1 waiting) :=
    .answered hstart hserving (.finish _ () _)
  have htold' :
      (crossed.exports.perform (left memory 2 closed).core).Tells
        (left memory 2 closed)
        [.served (left memory 2 closed) (.streamClose 2) deed' (.ok 0)
          (left memory 0 ⟨none, 1⟩)]
      (.ok ()) (left memory 0 ⟨none, 1⟩) :=
    .answered hfinish hserving' (.finish _ () _)
  have hturn :
      Instance.Turn Instance.control.readyEntry (fun x s => x.perform s) crossed _ _ :=
    .taken hready htold
  have hturn' :
      Instance.Turn (Instance.control.readyRewind (.close (.ok ())))
        (fun x s => x.perform s) (left memory 0 ⟨none, 0⟩) _ _ :=
    .taken hrewind htold'
  have hdriven :=
    Instance.Driven.resumed (i := left memory 0 ⟨none, 0⟩) (hflush _) hclose hturn'
      (.returned () _)
  exact ⟨memory, deed, deed', _, .ended hturn hdriven (hflush' _)⟩

end crossed

/-- Operands are not compared: a call that asks for a stream to be closed is finished
with the closing of another one, and its own stream stays open. -/
theorem operands_not_compared :
    ∃ log earlier k deed word j,
    Passage 0 crossed log (earlier ++ [.served k (.streamClose 2) deed (.ok word) j])
        .ready j ∧
      (Instance.control.state.on k).1 = .ok .rewinding ∧
      (∃ operation value, k.host.bridge.pending = some (.resolved value) ∧
        ComesFrom (.streamClose 1) operation value earlier) ∧
      j.host.streams.get? 2 = some (.file 8) := by
  obtain ⟨memory, deed, deed', log, hcalled⟩ := crossed.exists_called
  refine ⟨_, [_, _], _, deed', 0, _, .called .start hcalled, rfl,
    ⟨_, _, rfl, [_], _, _, _, [], rfl, ?_, ?_⟩, rfl⟩
  · exact List.forall_mem_nil _
  · exact ⟨[], _, [], rfl, ⟨rfl, rfl, rfl⟩, List.forall_mem_nil _⟩

/-- What it is finished with has been waited for by a call of the same import, the
closing of the first. -/
theorem crossed_finished_by_close :
    crossed.host.bridge.pending = none ∧
      ∃ log past earlier later i k deed answer j, Passage 0 crossed log past .ready i ∧
        past = earlier ++ .served k (.streamClose 2) deed answer j :: later ∧
        (Instance.control.state.on k).1 = .ok .rewinding ∧
        k.Rewound earlier (.streamClose 2) answer j := by
  obtain ⟨memory, deed, deed', log, hcalled⟩ := crossed.exists_called
  have hpassage : Passage 0 crossed _ _ .ready _ := .called .start hcalled
  have hpast (x y z : Event Int32) : [] ++ [x, y, z] = [x, y] ++ z :: [] := rfl
  exact ⟨rfl, _, _, [_, _], [], _, _, deed', _, _, hpassage, hpast _ _ _, rfl,
    hpassage.resumed_by_same_import rfl (hpast _ _ _) rfl⟩

end Crossed

end Resumable
