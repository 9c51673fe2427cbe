import Resumable.Proofs.Host.Events

namespace Resumable

/-- The hosts that events may lead to. A run is broken from an import call that fails
until the instance is released; nothing is awaited meanwhile. -/
inductive HostRun {G : Type} (fuel : Nat) (h₀ : HostState) :
    List (Event G) → Bool → HostState → Prop where
  | start : HostRun fuel h₀ [] false h₀
  | passedOn {past : List (Event G)} {broken : Bool} {h : HostState}
      (hrun : HostRun fuel h₀ past broken h) (outbox : List Effect) :
      HostRun fuel h₀ past broken { h with outbox := outbox }
  | dropped {past : List (Event G)} {broken : Bool} {h : HostState}
      (hrun : HostRun fuel h₀ past broken h) {bridge : Bridge Deferred Resolved}
      (hidle : bridge.pending = none) :
      HostRun fuel h₀ past broken { h with bridge := bridge }
  | served {past : List (Event G)} {broken : Bool} {i j : Instance G}
      {call : ImportCall} {deed : Deed} {answer : Except CallError UInt64}
      (hrun : HostRun fuel h₀ past broken i.host)
      (hserve : (Instance.serve call).on i = (answer, j))
      (hserving : i.Serving call deed answer j) :
      HostRun fuel h₀ (past ++ [.served i call deed answer j])
        (broken || !answer.isOk) j.host
  | awaited {past : List (Event G)} {h h' : HostState} {operation : Deferred}
      {log : List Exchange} {value : Resolved} (hrun : HostRun fuel h₀ past false h)
      (hpending : h.bridge.pending = some (.inFlight operation))
      (hserved : Deferred.Served fuel (h.withPending none) operation log value h') :
      HostRun fuel h₀ (past ++ [.awaited (h.withPending none) operation log value h'])
        false { h' with bridge := h'.bridge.resolve value }
  | began {past : List (Event G)} {h : HostState} (hrun : HostRun fuel h₀ past false h)
      (request : PerformRequest) :
      HostRun fuel h₀ (past ++ [.began request]) false
        { h with perform := some { request } }
  | concluded {past : List (Event G)} {broken : Bool} {h : HostState}
      (hrun : HostRun fuel h₀ past broken h) :
      HostRun fuel h₀ (past ++ [.concluded]) broken { h with perform := none }
  | released {past : List (Event G)} {broken : Bool} {h : HostState}
      (hrun : HostRun fuel h₀ past broken h) :
      HostRun fuel h₀ (past ++ [.released]) false h.release.2

namespace Instance

variable {G R : Type} {fuel : Nat} {h₀ h : HostState} {past events : List (Event G)}
  {i j : Instance G}

theorem maintains_host_control {α : Type}
    (call : Exports G → CoreState G → Except Trap α × CoreState G) :
    (Live.control call).Maintains fun i => i.host = h :=
  fun _ hi => hi

theorem maintains_host_state :
    (control.state : Live G _).Maintains fun i => i.host = h := by
  refine .bind (maintains_host_control _) fun raw => ?_
  split
  · exact .pure _
  · exact .violate _

theorem maintains_host_readyEntry :
    (control.readyEntry : Live G _).Maintains fun i => i.host = h := by
  refine .bind maintains_host_state fun state => ?_
  cases state with
  | normal =>
      refine .bind (.read _) fun idle => ?_
      cases idle with
      | false => exact .violate _
      | true =>
          refine .bind (.read _) fun config =>
            .bind (Unbroken.writeMemory ?_ _ _) fun _ => .ite (.fail _) (.pure _)
          exact fun _ _ hi => hi
  | unwinding => exact .violate _
  | rewinding => exact .violate _

theorem maintains_host_abandonSuspension :
    (abandonSuspension : Live G _).Maintains fun i => i.host = h := by
  refine .bind maintains_host_state fun state => ?_
  cases state with
  | normal => exact .pure _
  | unwinding => exact maintains_host_control fun x s => x.stopUnwind s
  | rewinding => exact maintains_host_control fun x s => x.stopRewind s

theorem ensures_host_readyRewind (value : Resolved) :
    Act.Ensures (fun i : Instance G => i.host = h) (control.readyRewind value)
      (fun _ i => i.host = { h with bridge := h.bridge.resolve value })
      (fun i => i.host = h ∨ i.host = { h with bridge := h.bridge.resolve value }) := by
  refine .bind (maintains_host_state.ensures.mono (fun _ => id) (fun _ _ => id)
    fun _ => .inl) fun state => ?_
  cases state with
  | normal =>
      refine .bind
        (.modify (q := fun _ i => i.host =
          { h with bridge := h.bridge.resolve value }) ?_) fun _ => ?_
      · rintro i rfl
        rfl
      · refine Act.Maintains.ensures ?_ |>.mono (fun _ => id) (fun _ _ => id) fun _ =>
          .inr
        exact .bind (.read _) fun config => maintains_host_control _
  | unwinding => exact .violate fun _ => .inl
  | rewinding => exact .violate fun _ => .inl

theorem ensures_host_takeInFlight :
    Act.Ensures (fun i : Instance G => i.host = h) control.takeInFlight
      (fun operation i => i.host = h.withPending none ∧
        h.bridge.pending = some (.inFlight operation))
      (fun i => i.host = h) := by
  rintro i rfl
  by_cases hpending : ∃ operation, i.host.bridge.pending = some (.inFlight operation)
  · obtain ⟨operation, hpending⟩ := hpending
    rw [Control.takeInFlight_on hpending]
    exact ⟨rfl, hpending⟩
  · rw [Control.takeInFlight_on_ne fun operation h => hpending ⟨operation, h⟩]
    rfl

/-- The events of a run have led to where an export stands. An operation that it waits
for has only just been taken out of the slot. -/
def Stands (fuel : Nat) (h₀ : HostState) (past : List (Event G)) :
    Except CallError (Progress R Deferred) × Instance G → Prop
  | (.error _, i) => ∃ broken, HostRun fuel h₀ past broken i.host
  | (.ok (.returned _), i) => HostRun fuel h₀ past false i.host
  | (.ok (.waiting operation), i) =>
      i.host.bridge.pending = none ∧
      HostRun fuel h₀ past false (i.host.withPending (some (.inFlight operation)))

theorem stands_settle {r : Except CallError R} {broken : Bool}
    (hrun : HostRun fuel h₀ past broken j.host)
    (hbroken : (∃ value, r = .ok value) → broken = false) :
    Stands fuel h₀ past ((control.settle fun _ => (r, j)).on i) := by
  rcases r with e | value
  · have herror :
        (control.settle fun _ => ((.error e : Except CallError R), j)).on i =
        (.error e, j) := rfl
    rw [herror]
    exact ⟨broken, hrun⟩
  · cases hbroken ⟨value, rfl⟩
    have hstop : (control.stopUnwind : Live G Unit).Maintains fun k =>
        k.host = j.host :=
      maintains_host_control fun x s => x.stopUnwind s
    -- What follows the invocation, which itself has come to what it has.
    have hrest :
        Act.Ensures (fun _ : Instance G => True)
          (control.settle fun _ => (Except.ok value, j))
          (fun progress k => Stands fuel h₀ past (.ok progress, k))
          (fun k => k.host = j.host) := by
      have hcame :
          Act.Ensures (fun _ => True) (fun _ => (Except.ok value, j) : Live G R)
            (fun _ k => k.host = j.host) (fun k => k.host = j.host) :=
            fun _ _ => (rfl : j.host = j.host)
      refine hcame.bind fun _ => .bind maintains_host_state.ensures fun state => ?_
      cases state with
      | normal =>
          refine .bind (.read (q := fun _ k => k.host = j.host) fun _ => id)
            fun idle => ?_
          cases idle with
          | false => exact .violate fun _ => id
          | true =>
              refine .pure fun k hk => ?_
              rw [Stands, hk]
              exact hrun
      | unwinding =>
          refine .bind hstop.ensures fun _ =>
            .bind ensures_host_takeInFlight fun operation => .pure ?_
          rintro k ⟨hk, hpending⟩
          have hback :
              (j.host.withPending none).withPending (some (.inFlight operation)) =
              j.host := by
            rw [← hpending]
            rfl
          rw [Stands, hk, hback]
          exact ⟨rfl, hrun⟩
      | rewinding => exact .violate fun _ => id
    have hsettled := hrest i trivial
    generalize (control.settle fun _ => (Except.ok value, j)).on i =
      outcome at hsettled ⊢
    obtain ⟨e | progress, k⟩ := outcome
    · exact ⟨false, (show k.host = j.host from hsettled) ▸ hrun⟩
    · exact hsettled

end Instance

namespace Activation

variable {G R : Type} {fuel : Nat} {h₀ : HostState} {past events : List (Event G)}
  {i j : Instance G}

theorem Tells.hostRun {a : Activation G R} {r : Except CallError R}
    (h : a.Tells i events r j) {broken : Bool}
    (hrun : HostRun fuel h₀ past broken i.host) :
    ∃ broken', HostRun fuel h₀ (past ++ events) broken' j.host ∧
      (broken = false → (∃ value, r = .ok value) → broken' = false) := by
  induction h generalizing past broken with
  | finish core value i => exact ⟨broken, by rwa [List.append_nil], fun h _ => h⟩
  | trap core cause i => exact ⟨broken, by rwa [List.append_nil], fun h _ => h⟩
  | @refused core _ _ i _ _ _ hserve hserving =>
      exact ⟨_, .served (i := { i with core := core }) hrun hserve hserving,
        fun _ h => nomatch h.choose_spec⟩
  | @answered core _ _ i _ _ _ _ _ _ hserve hserving hrest ih =>
      obtain ⟨broken', h, hbroken⟩ :=
        ih (.served (i := { i with core := core }) hrun hserve hserving)
      rw [List.append_assoc] at h
      refine ⟨broken', h, ?_⟩
      rintro rfl
      exact hbroken rfl
  | remark hrest ih => exact ih (hrun.passedOn _)

end Activation

theorem Deferred.Served.bridge {fuel : Nat} {h h' : HostState} {operation : Deferred}
    {log : List Exchange} {value : Resolved}
    (hserved : Deferred.Served fuel h operation log value h') :
    h'.bridge = h.bridge := by
  cases hserved <;> rfl

namespace HostState

theorem eq_of_flush {h h' : HostState} {log : List Exchange}
    (hruns : h.flush.Runs log h') : h' = { h with outbox := [] } :=
  ends_flush hruns.ends

end HostState

namespace Instance

variable {G R : Type} {fuel : Nat} {h₀ : HostState} {past events : List (Event G)}
  {i j : Instance G} {entry : Exports G → CoreState G → Activation G R}

theorem eq_of_flush {log : List Exchange} (hruns : i.flush.Runs log j) :
    j = { i with host := { i.host with outbox := [] } } := by
  obtain ⟨host, _, _, rfl, hflush, rfl, rfl⟩ := Task.runs_bind.mp hruns
  rw [HostState.eq_of_flush hflush]

theorem on_of_act {α : Type} {step : Live G α} {r : Except CallError α}
    {log : List Exchange} (hruns : (i.act step).Runs log (r, j)) :
    ∃ k, step.on i = (r, k) ∧ k.flush.Runs log j := by
  obtain ⟨_, _, _, rfl, hflush, rfl, hr⟩ := Task.runs_bind.mp hruns
  cases hr
  exact ⟨_, rfl, by rwa [List.append_nil]⟩

theorem Turn.stands {ready : Live G Unit}
    {outcome : Except CallError (Progress R Deferred) × Instance G}
    (h : Turn ready entry i events outcome)
    (hrefused : ∀ e j, ready.on i = (.error e, j) → HostRun fuel h₀ past false j.host)
    (hready : ∀ j, ready.on i = (.ok (), j) → HostRun fuel h₀ past false j.host) :
    Stands fuel h₀ (past ++ events) outcome := by
  cases h with
  | refused h =>
      rw [List.append_nil]
      exact ⟨false, hrefused _ _ h⟩
  | taken h htold =>
      obtain ⟨broken, hrun, hbroken⟩ := htold.hostRun (hready _ h)
      exact stands_settle hrun (hbroken rfl)

theorem Turn.stands_entry
    {outcome : Except CallError (Progress R Deferred) × Instance G}
    (h : Turn control.readyEntry entry i events outcome)
    (hrun : HostRun fuel h₀ past false i.host) :
    Stands fuel h₀ (past ++ events) outcome := by
  have hhost := maintains_host_readyEntry i rfl
  refine h.stands (fun e j hj => ?_) fun j hj => ?_ <;> rw [hj] at hhost <;>
    exact hhost ▸ hrun

theorem Turn.stands_rewind {value : Resolved}
    {outcome : Except CallError (Progress R Deferred) × Instance G}
    (h : Turn (control.readyRewind value) entry i events outcome)
    (hidle : i.host.bridge.pending = none)
    (hrun : HostRun fuel h₀ past false
      { i.host with bridge := i.host.bridge.resolve value }) : Stands fuel h₀
        (past ++ events) outcome := by
  have hhost := ensures_host_readyRewind value i rfl
  refine h.stands (fun e j hj => ?_) fun j hj => ?_
  · rw [hj] at hhost
    obtain hhost | hhost := (hhost : _ ∨ _)
    · rw [hhost]
      exact hrun.dropped hidle
    · exact hhost ▸ hrun
  · rw [hj] at hhost
    exact (hhost : j.host = _) ▸ hrun

/-- An export that is driven on makes a run of its host, and if it has not failed one
that is not broken. -/
theorem Driven.hostRun
    {progress : Except CallError (Progress R Deferred) × Instance G}
    {log : List Exchange} {out : Option (Except CallError R) × Instance G}
    (h : Driven fuel entry progress log events out)
    (hstands : Stands fuel h₀ past progress) :
    ∃ broken, HostRun fuel h₀ (past ++ events) broken out.2.host ∧
      ((∀ e, out.1 ≠ some (.error e)) → broken = false) := by
  induction h generalizing past with
  | failed e i =>
      obtain ⟨broken, hrun⟩ := hstands
      exact ⟨broken, by rwa [List.append_nil], fun h => absurd rfl (h e)⟩
  | returned value i => exact ⟨false, by rwa [List.append_nil], fun _ => rfl⟩
  | waiting operation i =>
      obtain ⟨hidle, hrun⟩ := hstands
      exact ⟨false, by rw [List.append_nil]; exact hrun.dropped hidle, fun _ => rfl⟩
  | @resumed operation value i before after _ _ _ events rest _ _ hflush hserve
      hturn hrest ih =>
      obtain ⟨hidle, hrun⟩ := hstands
      cases HostState.eq_of_flush hflush
      have hserved := Deferred.served_of_runs hserve
      -- Taking the operation out of the slot and having it there is the host as it was.
      have hback : HostState.withPending
          { i.host.withPending (some (.inFlight operation)) with outbox := [] } none =
          { i.host with outbox := [] } := by
        rw [← hidle]
        rfl
      have hawaited := (hrun.passedOn []).awaited rfl (hback ▸ hserved)
      rw [hback] at hawaited
      have hstands := hturn.stands_rewind (hserved.bridge ▸ hidle) hawaited
      obtain ⟨broken, hrun, hbroken⟩ := ih hstands
      refine ⟨broken, ?_, hbroken⟩
      rwa [List.append_assoc, List.append_assoc] at hrun

theorem Called.hostRun {entry : Exports G → CoreState G → Activation G Unit}
    {log : List Exchange} {r : Option (Except CallError Unit)}
    (h : Called fuel entry i log events r j)
    (hrun : HostRun fuel h₀ past false i.host) :
    ∃ broken, HostRun fuel h₀ (past ++ events) broken j.host ∧
      ((∀ e, r ≠ some (.error e)) → broken = false) := by
  cases h with
  | ended hturn hdriven hflush =>
      obtain ⟨broken, hrun, hbroken⟩ := hdriven.hostRun (hturn.stands_entry hrun)
      cases eq_of_flush hflush
      rw [List.append_assoc] at hrun
      exact ⟨broken, hrun.passedOn [], hbroken⟩
  | waiting hturn hdriven =>
      obtain ⟨broken, hrun, hbroken⟩ := hdriven.hostRun (hturn.stands_entry hrun)
      rw [List.append_assoc] at hrun
      exact ⟨broken, hrun, hbroken⟩

end Instance

namespace HostRun

variable {G : Type} {fuel : Nat} {h₀ h : HostState} {earlier later : List (Event G)}
  {broken : Bool}

/-- Wherever an import call is served in a run, the host it is served by has come from
what is before. -/
theorem at_served {i j : Instance G} {call : ImportCall} {deed : Deed}
    {answer : Except CallError UInt64}
    (hrun : HostRun fuel h₀ (earlier ++ .served i call deed answer j :: later) broken
      h) : (Instance.serve call).on i = (answer, j) ∧ i.Serving call deed answer j ∧
        ∃ broken', HostRun fuel h₀ earlier broken' i.host := by
  generalize hpast : earlier ++ Event.served i call deed answer j ::
    later = past at hrun
  induction hrun generalizing later with
  | start => exact absurd hpast (by simp)
  | passedOn _ _ ih | dropped _ _ ih => exact ih hpast
  | served hrun hserve hserving ih =>
      obtain ⟨rfl, rfl, hevent⟩ | ⟨rest, rfl, hrest⟩ := snoc_eq_append_cons hpast.symm
      · cases hevent
        exact ⟨hserve, hserving, _, hrun⟩
      · exact ih hrest.symm
  | awaited _ _ _ ih | began _ _ ih | concluded _ ih | released _ ih =>
      obtain ⟨-, -, hevent⟩ | ⟨rest, rfl, hrest⟩ := snoc_eq_append_cons hpast.symm
      · cases hevent
      · exact ih hrest.symm

/-- Wherever an operation is awaited in a run, it has been in the slot. -/
theorem at_awaited {before after : HostState} {operation : Deferred}
    {log : List Exchange} {value : Resolved}
    (hrun : HostRun fuel h₀ (earlier ++ .awaited before operation log value after ::
      later) broken h) : Deferred.Served fuel before operation log value after ∧
        ∃ h', before = h'.withPending none ∧
        h'.bridge.pending = some (.inFlight operation) ∧
        HostRun fuel h₀ earlier false h' := by
  generalize hpast : earlier ++ Event.awaited before operation log value after ::
    later = past at hrun
  induction hrun generalizing later with
  | start => exact absurd hpast (by simp)
  | passedOn _ _ ih | dropped _ _ ih => exact ih hpast
  | awaited hrun hpending hserved ih =>
      obtain ⟨rfl, rfl, hevent⟩ | ⟨rest, rfl, hrest⟩ := snoc_eq_append_cons hpast.symm
      · cases hevent
        exact ⟨hserved, _, rfl, hpending, hrun⟩
      · exact ih hrest.symm
  | served _ _ _ ih | began _ _ ih | concluded _ ih | released _ ih =>
      obtain ⟨-, -, hevent⟩ | ⟨rest, rfl, hrest⟩ := snoc_eq_append_cons hpast.symm
      · cases hevent
      · exact ih hrest.symm

end HostRun

end Resumable
