import Resumable.Proofs.Host.Serving

namespace Resumable

/-- Something that happens to the host of an instance. -/
inductive Event (G : Type) where
  | served (before : Instance G) (call : ImportCall) (deed : Deed)
      (answer : Except CallError UInt64) (after : Instance G)
  | awaited (before : HostState) (operation : Deferred) (log : List Exchange)
      (value : Resolved) (after : HostState)
  | began (request : PerformRequest)
  | concluded
  | released

namespace Control

variable {σ E F V R : Type}

def readyEntry (c : Control σ E F V) : Act σ E Unit := do
  let s ← c.state
  if s ≠ .normal then Act.violate (.notNormalAtEntry s)
  if !(← c.isIdle) then Act.violate .pendingLeftBehind
  c.resetData

def readyRewind (c : Control σ E F V) (value : V) : Act σ E Unit := do
  let s ← c.state
  if s ≠ .normal then Act.violate (.notNormalAfterUnwind s)
  c.resolve value
  c.startRewind

theorem enter_eq (c : Control σ E F V) (invoke : Act σ E R) :
    c.enter invoke = c.readyEntry >>= fun _ => c.settle invoke := by
  unfold enter readyEntry
  rw [bind_assoc]
  refine congrArg _ (funext fun state => ?_)
  cases state with
  | normal =>
      change (c.isIdle >>= _) = (c.isIdle >>= _) >>= _
      rw [bind_assoc]
      refine congrArg _ (funext fun idle => ?_)
      cases idle <;> rfl
  | unwinding => rfl
  | rewinding => rfl

theorem resume_eq (c : Control σ E F V) (invoke : Act σ E R) (value : V) :
    c.resume invoke value = c.readyRewind value >>= fun _ => c.settle invoke := by
  unfold resume readyRewind
  rw [bind_assoc]
  refine congrArg _ (funext fun state => ?_)
  cases state with
  | normal =>
      change (c.resolve value >>= _) = (c.resolve value >>= _) >>= _
      rw [bind_assoc]
  | unwinding => rfl
  | rewinding => rfl

end Control

/-- The import calls of an activation that is run from `i`, up to where it
ends or fails. -/
inductive Activation.Tells {G R : Type} :
    Activation G R → Instance G → List (Event G) → Except CallError R →
    Instance G → Prop where
  | finish (core : CoreState G) (value : R) (i : Instance G) :
      Tells (.finish core value) i [] (.ok value) { i with core := core }
  | trap (core : CoreState G) (cause : Trap) (i : Instance G) :
      Tells (.trap core cause) i [] (.error (.other (.trap cause)))
        { i with core := core }
  | refused {core : CoreState G} {call : ImportCall}
      {resume : CoreState G → UInt64 → Activation G R} {i j : Instance G}
      {deed : Deed} {e : CallError}
      (hserve : (Instance.serve call).on { i with core := core } = (.error e, j))
      (hserving : Instance.Serving { i with core := core } call deed (.error e) j) :
      Tells (.call core call resume) i [.served { i with core := core } call deed
        (.error e) j] (.error e) j
  | answered {core : CoreState G} {call : ImportCall}
      {resume : CoreState G → UInt64 → Activation G R} {i j k : Instance G}
      {deed : Deed} {word : UInt64} {events : List (Event G)} {r : Except CallError R}
      (hserve : (Instance.serve call).on { i with core := core } = (.ok word, j))
      (hserving : Instance.Serving { i with core := core } call deed (.ok word) j)
      (hrest : Tells (resume j.core word) j events r k) :
      Tells (.call core call resume) i (.served { i with core := core } call deed
        (.ok word) j :: events) r k
  | remark {line : Remark} {rest : Activation G R} {i j : Instance G}
      {events : List (Event G)} {r : Except CallError R}
      (hrest : Tells rest { i with host := i.host.emit (.remark line) } events r j) :
      Tells (.remark line rest) i events r j

namespace Instance

variable {G R : Type} {i : Instance G}

theorem exists_tells (a : Activation G R) (i : Instance G) :
    ∃ events, a.Tells i events ((run serve a).on i).1 ((run serve a).on i).2 := by
  induction a generalizing i with
  | finish core value => exact ⟨[], .finish core value i⟩
  | trap core cause => exact ⟨[], .trap core cause i⟩
  | remark line rest ih =>
      obtain ⟨events, h⟩ := ih { i with host := i.host.emit (.remark line) }
      exact ⟨events, .remark h⟩
  | call core call resume ih =>
      obtain ⟨deed, hserving⟩ := exists_serving { i with core := core } call
      have hsaved : (Act.modify fun i => { i with core := core } : Live G Unit).on i =
          (.ok (), { i with core := core }) := rfl
      unfold run
      rw [Act.on_bind_ok hsaved, Act.on_bind]
      rcases hserve : (serve call).on { i with core := core } with ⟨e | word, j⟩
      · rw [hserve] at hserving
        exact ⟨_, .refused hserve hserving⟩
      · rw [hserve] at hserving
        obtain ⟨events, h⟩ := ih j.core word j
        exact ⟨_, .answered hserve hserving h⟩

/-- One turn of an export: what comes before it is invoked, the import calls it makes,
and how it came back. -/
inductive Turn (ready : Live G Unit)
    (entry : Exports G → CoreState G → Activation G R) (i : Instance G) :
    List (Event G) → Except CallError (Progress R Deferred) × Instance G → Prop where
  | refused {e : CallError} {j : Instance G} (hready : ready.on i = (.error e, j)) :
      Turn ready entry i [] (.error e, j)
  | taken {events : List (Event G)} {r : Except CallError R} {j k : Instance G}
      (hready : ready.on i = (.ok (), j))
      (htold : (entry j.exports j.core).Tells j events r k) :
      Turn ready entry i events ((control.settle fun _ => (r, k)).on j)

theorem exists_turn (ready : Live G Unit)
    (entry : Exports G → CoreState G → Activation G R) (i : Instance G) :
    ∃ events,
    Turn ready entry i events
      ((ready >>= fun _ => control.settle (invoke entry)).on i) := by
  rcases hready : ready.on i with ⟨e | _, j⟩
  · rw [Act.on_bind_error hready]
    exact ⟨[], .refused hready⟩
  · rw [Act.on_bind_ok hready]
    obtain ⟨events, htold⟩ := exists_tells (entry j.exports j.core) j
    have hsettle : (control.settle (invoke entry)).on j =
        (control.settle fun _ => (run serve (entry j.exports j.core)).on j).on j :=
      Control.settle_congr (Act.on_bind_ok (Act.on_read id j))
    rw [hsettle]
    exact ⟨events, .taken hready htold⟩

/-- An export that has got so far is driven on; `none` means that it waits. -/
inductive Driven (fuel : Nat) (entry : Exports G → CoreState G → Activation G R) :
    Except CallError (Progress R Deferred) × Instance G → List Exchange →
    List (Event G) →
      Option (Except CallError R) × Instance G → Prop where
  | failed (e : CallError) (i : Instance G) :
      Driven fuel entry (.error e, i) [] [] (some (.error e), i)
  | returned (value : R) (i : Instance G) :
      Driven fuel entry (.ok (.returned value), i) [] [] (some (.ok value), i)
  | waiting (operation : Deferred) (i : Instance G) :
      Driven fuel entry (.ok (.waiting operation), i) [] [] (none, i)
  | resumed {operation : Deferred} {value : Resolved} {i : Instance G}
      {before after : HostState} {log₁ log₂ log₃ : List Exchange}
      {events rest : List (Event G)}
      {outcome : Except CallError (Progress R Deferred) × Instance G}
      {out : Option (Except CallError R) × Instance G}
      (hflush : i.host.flush.Runs log₁ before)
      (hserve : (operation.serve fuel before).Runs log₂ (value, after))
      (hturn : Turn (control.readyRewind value) entry { i with host := after } events
        outcome) (hrest : Driven fuel entry outcome log₃ rest out) : Driven fuel entry
          (.ok (.waiting operation), i) (log₁ ++ (log₂ ++ log₃))
            (.awaited before operation log₂ value after :: (events ++ rest)) out

theorem exists_driven {fuel : Nat}
    {entry : Exports G → CoreState G → Activation G R} (turns : Nat)
    {progress : Except CallError (Progress R Deferred) × Instance G}
    {log : List Exchange} {r : Except CallError R} {j : Instance G}
    (h : (control.drive (invoke entry) (await fuel) turns progress).Runs log
      (some (r, j))) : ∃ events, Driven fuel entry progress log events (some r, j) := by
  have hdrives := Control.drives_of_runs turns h
  clear h
  induction hdrives with
  | settled =>
      rcases r with e | value
      · exact ⟨[], .failed e j⟩
      · exact ⟨[], .returned value j⟩
  | @resumed operation value i k log₁ log₂ hawait _ ih =>
      obtain ⟨before, log₁, _, rfl, hflush, hawait⟩ := Task.runs_bind.mp hawait
      obtain ⟨⟨_, after⟩, log₃, _, rfl, hserve, rfl, hk⟩ := Task.runs_bind.mp hawait
      cases hk
      obtain ⟨rest, hrest⟩ := ih
      -- A resumption is a turn that is settled, as the first entry was.
      rw [Control.resume_eq] at hrest
      obtain ⟨events, hturn⟩ := exists_turn (control.readyRewind value) entry
        { i with host := after }
      rw [List.append_nil, List.append_assoc]
      exact ⟨_, .resumed hflush hserve hturn hrest⟩

/-- A call of an export, as far as it has got. -/
inductive Called (fuel : Nat) (entry : Exports G → CoreState G → Activation G Unit)
    (i : Instance G) : List Exchange → List (Event G) →
    Option (Except CallError Unit) → Instance G → Prop where
  | ended {log₁ log₂ : List Exchange} {events rest : List (Event G)}
      {outcome : Except CallError (Progress Unit Deferred) × Instance G}
      {r : Except CallError Unit} {k j : Instance G}
      (hturn : Turn control.readyEntry entry i events outcome)
      (hdriven : Driven fuel entry outcome log₁ rest (some r, k))
      (hflush : k.flush.Runs log₂ j) :
      Called fuel entry i (log₁ ++ log₂) (events ++ rest) (some r) j
  | waiting {log : List Exchange} {events rest : List (Event G)}
      {outcome : Except CallError (Progress Unit Deferred) × Instance G}
      {j : Instance G} (hturn : Turn control.readyEntry entry i events outcome)
      (hdriven : Driven fuel entry outcome log rest (none, j)) :
      Called fuel entry i log (events ++ rest) none j

theorem exists_called {fuel : Nat}
    {entry : Exports G → CoreState G → Activation G Unit} {i j : Instance G}
    {log : List Exchange} {r : Except CallError Unit}
    (h : (i.call fuel entry).Runs log (r, j)) :
    ∃ events, Called fuel entry i log events (some r) j := by
  obtain ⟨driven, log₁, _, rfl, hrun, h⟩ := Task.runs_bind.mp h
  obtain ⟨⟨r, k⟩, _, log₂, rfl, hsome, h⟩ := Task.runs_bind.mp h
  obtain ⟨j, _, _, rfl, hflush, rfl, hr⟩ := Task.runs_bind.mp h
  obtain ⟨rfl, rfl⟩ := Task.runs_ofOption hsome
  cases hr
  rw [Control.run, Control.enter_eq] at hrun
  obtain ⟨events, hturn⟩ := exists_turn control.readyEntry entry i
  obtain ⟨rest, hdriven⟩ := exists_driven fuel hrun
  rw [List.nil_append, List.append_nil]
  exact ⟨_, .ended hturn hdriven hflush⟩

end Instance

end Resumable
