import Resumable.Proofs.Core.Watched
import Resumable.Proofs.Host.Journal
import Resumable.Proofs.Host.Serving

namespace Resumable

/-- One call of an export: a fresh invocation and one for every rewind. -/
def attempt (name : ExportName) (rewinds : Nat) : List Announcement :=
  .invoked name false :: List.replicate rewinds (.invoked name true)

/-- What a call announces that comes to `r`: an attempt, or nothing if it is refused. -/
def Attempted {α : Type} (name : ExportName) (r : Except CallError α)
    (told : List Announcement) : Prop :=
  (∃ rewinds, told = attempt name rewinds) ∨ told = [] ∧ ∃ e, r = .error e

namespace Attempted

variable {α : Type} {name : ExportName} {r : Except CallError α} {value : α}
  {told : List Announcement}

theorem returned (h : Attempted name (.ok value : Except CallError α) told) :
    ∃ rewinds, told = attempt name rewinds := by
  obtain h | ⟨-, e, h⟩ := h
  · exact h
  · cases h

theorem beginning (h : Attempted name r told) :
    ∃ rest rewinds, told ++ rest = attempt name rewinds := by
  obtain ⟨rewinds, rfl⟩ | ⟨rfl, -⟩ := h
  · exact ⟨[], rewinds, List.append_nil _⟩
  · exact ⟨attempt name 0, 0, rfl⟩

end Attempted

theorem Task.Outward.announced_eq_nil {α : Type} {t : Task α}
    {log : List Exchange} {a : α} (h : t.Outward) (hruns : t.Runs log a) :
    Exchange.announced log = [] := by
  refine List.filterMap_eq_nil_iff.mpr fun e he => ?_
  have houtward := h.runs hruns e he
  unfold Exchange.announcement?
  split
  · next heq =>
      rw [heq] at houtward
      cases houtward
  · rfl

namespace HostState

/-- What the effects announce that have not yet been passed on. -/
def announcing (h : HostState) : List Announcement :=
  h.outbox.reverse.filterMap Effect.announcement?

theorem announced_emitAll {effects : List Effect} {log : List Exchange}
    (h : (emitAll effects).Runs log ()) :
    Exchange.announced log = effects.filterMap Effect.announcement? := by
  induction effects generalizing log with
  | nil =>
      cases h.1
      rfl
  | cons e rest ih =>
      obtain ⟨_, tail, rfl, h⟩ := h
      rw [List.filterMap_cons, ← ih h]
      rfl

theorem runs_flush {h h' : HostState} {log : List Exchange}
    (hruns : h.flush.Runs log h') :
    Exchange.announced log = h.announcing ∧ h' = { h with outbox := [] } := by
  obtain ⟨_, log₁, _, rfl, hemit, rfl, rfl⟩ := Task.runs_bind.mp hruns
  rw [List.append_nil]
  exact ⟨announced_emitAll hemit, rfl⟩

theorem announcing_remark (h : HostState) (a : Announcement) :
    (h.emit (.remark a.line)).announcing = h.announcing ++ [a] := by
  rw [announcing, emit, List.reverse_cons, List.filterMap_append]
  simp [announcing, Effect.announcement?, a.announcement?_line]

theorem announcing_fetch (h : HostState) (ticket : Nat) (request : HttpRequest) :
    (h.emit (.fetch ticket request)).announcing = h.announcing := by
  rw [announcing, emit, List.reverse_cons, List.filterMap_append]
  simp [announcing, Effect.announcement?]

end HostState

theorem Deed.announcing_apply (deed : Deed) (h : HostState) :
    (deed.apply h).announcing = h.announcing := by
  cases deed with
  | none | closed => rfl
  | dispatched raw =>
      have hdispatched := h.dispatch_dispatched raw
      change (h.dispatch raw).2.announcing = _
      generalize h.dispatch raw = outcome at hdispatched ⊢
      obtain ⟨dispatch, h'⟩ := outcome
      cases hdispatched with
      | unread => rfl
      | handled _ hhandled =>
          cases hhandled with
          | answered | stored | opening | claimed => rfl
          | issued | unissued => exact h.announcing_fetch _ _
  | completed completion =>
      have hcompleted := h.apply_completed completion
      change (completion.apply h).2.announcing = _
      generalize completion.apply h = outcome at hcompleted ⊢
      obtain ⟨reply, h'⟩ := outcome
      cases hcompleted <;> rfl

/-- No control that serves a call tells the core to rewind. -/
theorem CoreState.Touched.again {G : Type} {x : Exports G} {s t : CoreState (Watched G)}
    (h : s.Touched x.watched t) : t.globals.again = s.globals.again := by
  induction h with
  | refl => rfl
  | memory _ _ ih | getState _ ih | startUnwind _ _ ih | stopRewind _ ih => exact ih

namespace Instance

variable {G R : Type} {x : Exports G} {name : ExportName} {lines : List Announcement}
  {again : Bool} {i j : Instance (Watched G)}

/-- What an instance of a watched core is known by: its exports, what it has announced
and not yet passed on, and whether it has been told to rewind. -/
structure Watching (x : Exports G) (lines : List Announcement) (again : Bool)
    (i : Instance (Watched G)) : Prop where
  exports : i.exports = x.watched
  announcing : i.host.announcing = lines
  again : i.core.globals.again = again

def Announces (x : Exports G) (name : ExportName)
    (entry : Exports (Watched G) → CoreState (Watched G) → Activation (Watched G) R) :
    Prop :=
  ∃ run : CoreState G → Activation G R, entry x.watched = Watched.entry name run

/-- What an instance is known by is not changed by anything on the host's side but
its effects. -/
theorem Watching.withHost (hi : i.Watching x lines again) {host : HostState}
    (houtbox : host.outbox = i.host.outbox) :
    Watching x lines again { i with host := host } := by
  refine ⟨hi.exports, ?_, hi.again⟩
  rw [← hi.announcing, HostState.announcing, HostState.announcing, houtbox]

theorem Watching.served (hi : i.Watching x lines again) (call : ImportCall) :
    ((serve call).on i).2.Watching x lines again := by
  obtain ⟨deed, hserving⟩ := i.exists_serving call
  obtain ⟨core, host, hcore, hagrees, hj⟩ := hserving.follows
  rw [hj]
  refine ⟨hi.exports, ?_, ?_⟩
  · rw [← hi.announcing, ← deed.announcing_apply i.host]
    simp only [HostState.announcing, onward, hagrees.outbox]
  · rw [hi.exports] at hcore
    exact hcore.again.trans hi.again

theorem Watching.saved (hi : i.Watching x lines again) (state : CoreState G) :
    Watching x lines false { i with core := state.watched false } :=
  ⟨hi.exports, hi.announcing, rfl⟩

theorem watching_run (a : Activation G R) (hi : i.Watching x lines again) :
    ((run serve a.watched).on i).2.Watching x lines false := by
  induction a generalizing i again with
  | finish state value => exact hi.saved state
  | trap state cause => exact hi.saved state
  | remark line rest ih => exact ih hi
  | call state request resume ih =>
      have hserved := (hi.saved state).served request
      have hsaved :
          (Act.modify fun i => { i with core := state.watched false } :
            Live (Watched G) Unit).on i =
              (.ok (), { i with core := state.watched false }) := rfl
      unfold Activation.watched run
      rw [Act.on_bind_ok hsaved, Act.on_bind]
      generalize (serve request).on { i with core := state.watched false } =
        outcome at hserved ⊢
      obtain ⟨e | word, j⟩ := outcome
      · exact hserved
      · exact ih j.core.unwatched word hserved

theorem watching_invoke
    {entry : Exports (Watched G) → CoreState (Watched G) → Activation (Watched G) R}
    (hentry : Announces x name entry) (hi : i.Watching x lines again) :
    ((invoke entry).on i).2.Watching x (lines ++ [.invoked name again]) false := by
  obtain ⟨run, hrun⟩ := hentry
  unfold invoke
  rw [Act.on_bind_ok (Act.on_read id i), id, hi.exports, hrun]
  have hannounced : Watching x (lines ++ [.invoked name again]) again
      { i with
        host := i.host.emit
          (.remark (Announcement.invoked name i.core.globals.again).line) } := by
    refine ⟨hi.exports, ?_, hi.again⟩
    rw [HostState.announcing_remark, hi.announcing, hi.again]
  exact watching_run (run i.core.unwatched) hannounced

theorem maintains_control {α : Type}
    {call : Exports (Watched G) → CoreState (Watched G) →
      Except Trap α × CoreState (Watched G)}
    (hcall : ∀ s, (call x.watched s).2.globals.again = s.globals.again) :
    (Live.control call).Maintains (Watching x lines again) := by
  intro i hi
  refine ⟨hi.exports, hi.announcing, ?_⟩
  change (call i.exports i.core).2.globals.again = again
  rw [hi.exports, hcall, hi.again]

theorem maintains_state : control.state.Maintains (Watching x lines again) := by
  refine .bind (maintains_control fun s => rfl) fun raw => ?_
  split
  · exact .pure _
  · exact .violate _

theorem maintains_resetData : control.resetData.Maintains (Watching x lines again) := by
  refine .bind (.read _) fun config => .bind (Unbroken.writeMemory ?_ _ _) fun _ =>
    .ite (.fail _) (.pure _)
  exact fun i memory hi => ⟨hi.exports, hi.announcing, hi.again⟩

theorem Watching.setBridge (hi : i.Watching x lines again)
    (b : Bridge Deferred Resolved) : (control.setBridge b i).Watching x lines again :=
  ⟨hi.exports, hi.announcing, hi.again⟩

theorem watching_settle
    {entry : Exports (Watched G) → CoreState (Watched G) →
      Activation (Watched G) Unit} (hentry : Announces x name entry) :
    Act.Ensures (Watching x lines again) (control.settle (invoke entry))
      (fun _ => Watching x (lines ++ [.invoked name again]) false)
      (Watching x (lines ++ [.invoked name again]) false) := by
  have hinvoke : Act.Ensures (Watching x lines again) (invoke entry)
      (fun _ => Watching x (lines ++ [.invoked name again]) false)
      (Watching x (lines ++ [.invoked name again]) false) := by
    intro i hi
    have hinvoked := watching_invoke hentry hi
    rcases hr : (invoke entry).on i with ⟨e | value, j⟩ <;> rw [hr] at hinvoked <;>
      exact hinvoked
  refine hinvoke.bind fun value =>
    Act.Maintains.ensures (.bind maintains_state fun state => ?_)
  cases state with
  | normal => exact .bind (.read _) fun idle => .ite (.pure _) (.violate _)
  | unwinding =>
      refine .bind (maintains_control fun s => rfl) fun _ =>
        .bind (.bind (.read _) fun b => ?_) fun _ => .pure _
      split
      · exact .bind (.modify fun i hi => hi.setBridge _) fun _ => .pure _
      · exact .violate _
  | rewinding => exact .violate _

theorem watching_enter
    {entry : Exports (Watched G) → CoreState (Watched G) →
      Activation (Watched G) Unit} (hentry : Announces x name entry) :
    Act.Ensures (Watching x [] false) (control.enter (invoke entry))
      (fun _ => Watching x [.invoked name false] false)
      (fun i => Watching x [] false i ∨ Watching x [.invoked name false] false i) :=
  Control.ensures_enter_of_settle
    (maintains_state.ensures.mono (fun _ => id) (fun _ _ => id) fun _ => .inl)
    (fun _ => .inl) (maintains_resetData.ensures.mono (fun _ => id) (fun _ _ => id)
      fun _ => .inl) ((watching_settle hentry).mono (fun _ => id) (fun _ _ => id)
      fun _ => .inr)

theorem ensures_startRewind :
    Act.Ensures (Watching x lines again) control.startRewind
      (fun _ => Watching x lines true) (Watching x lines again) := by
  refine .bind (.read (q := fun _ => Watching x lines again) fun _ hi => hi)
    fun config => ?_
  intro i hi
  have hrewind : i.exports.startRewind config.asyncifyDataAddr i.core =
      Watched.rewind (x.startRewind config.asyncifyDataAddr) i.core := by
    rw [hi.exports]
    rfl
  rcases hcall : x.startRewind config.asyncifyDataAddr i.core.unwatched
    with ⟨cause | _, t⟩
  · rw [Watched.rewind, hcall] at hrewind
    have hon : (Live.control fun x s => x.startRewind config.asyncifyDataAddr s).on i =
        (.error (.other (.trap cause)),
          { i with core := t.watched i.core.globals.again }) := by
      simp only [Live.control, Act.on, ExceptT.run, StateT.run, hrewind]
    rw [hon]
    exact ⟨hi.exports, hi.announcing, hi.again⟩
  · rw [Watched.rewind, hcall] at hrewind
    have hon : (Live.control fun x s => x.startRewind config.asyncifyDataAddr s).on i =
        (.ok (), { i with core := t.watched true }) := by
      simp only [Live.control, Act.on, ExceptT.run, StateT.run, hrewind]
    rw [hon]
    exact ⟨hi.exports, hi.announcing, rfl⟩

theorem watching_resume
    {entry : Exports (Watched G) → CoreState (Watched G) →
      Activation (Watched G) Unit} (hentry : Announces x name entry)
        (value : Resolved) :
    Act.Ensures (Watching x [] false) (control.resume (invoke entry) value)
      (fun _ => Watching x [.invoked name true] false)
      (fun i => Watching x [] false i ∨ Watching x [.invoked name true] false i) :=
  Control.ensures_resume_of_settle
    (maintains_state.ensures.mono (fun _ => id) (fun _ _ => id) fun _ => .inl)
    (fun _ => .inl) (fun _ hi => hi.setBridge _)
    (ensures_startRewind.mono (fun _ => id) (fun _ _ => id) fun _ => .inl)
    ((watching_settle hentry).mono (fun _ => id) (fun _ _ => id) fun _ => .inr)

variable {log : List Exchange} {fuel : Nat}

theorem Watching.flushed (hi : i.Watching x lines again) (hruns : i.flush.Runs log j) :
    Exchange.announced log = lines ∧ j.Watching x [] again := by
  obtain ⟨host, log₁, _, rfl, hflush, rfl, rfl⟩ := Task.runs_bind.mp hruns
  obtain ⟨hannounced, rfl⟩ := HostState.runs_flush hflush
  rw [List.append_nil]
  exact ⟨hannounced.trans hi.announcing, hi.exports, rfl, hi.again⟩

theorem Watching.awaited (hi : i.Watching x lines again) {operation : Deferred}
    {value : Resolved} (hruns : (i.await fuel operation).Runs log (value, j)) :
    Exchange.announced log = lines ∧ j.Watching x [] again := by
  obtain ⟨host, log₁, _, rfl, hflush, hruns⟩ := Task.runs_bind.mp hruns
  obtain ⟨⟨value', host'⟩, log₂, _, rfl, hserve, rfl, hj⟩ := Task.runs_bind.mp hruns
  obtain ⟨hannounced, rfl⟩ := HostState.runs_flush hflush
  cases hj
  rw [List.append_nil, Exchange.announced_append, hannounced, hi.announcing,
    (operation.outward_serve fuel _).announced_eq_nil hserve, List.append_nil]
  refine ⟨rfl, hi.exports, ?_, hi.again⟩
  cases Deferred.served_of_runs hserve <;> rfl

theorem announced_drive
    {entry : Exports (Watched G) → CoreState (Watched G) → Activation (Watched G) Unit}
    (hentry : Announces x name entry) {tries : Nat}
    {progress : Except CallError (Progress Unit Deferred) × Instance (Watched G)}
    (hp : progress.2.Watching x lines false) {r : Except CallError Unit}
    (hruns : (control.drive (invoke entry) (await fuel) tries progress).Runs log
      (some (r, j))) :
    ∃ rewinds left, j.Watching x left false ∧
      Exchange.announced log ++ left =
      lines ++ List.replicate rewinds (.invoked name true) := by
  have hdrives := Control.drives_of_runs tries hruns
  clear hruns
  induction hdrives generalizing lines with
  | settled => exact ⟨0, lines, hp, (List.append_nil lines).symm⟩
  | @resumed operation value k l log₁ log₂ hawait _ ih =>
      obtain ⟨hannounced, hl⟩ := hp.awaited hawait
      have hresumed : ∀ {more : List Announcement},
          ((control.resume (invoke entry) value).on l).2.Watching x more false →
            more = [] ∨ more = [.invoked name true] →
            ∃ rewinds left, j.Watching x left false ∧
              Exchange.announced (log₁ ++ log₂) ++ left =
                lines ++ List.replicate rewinds (.invoked name true) := by
        intro more hmore hcases
        obtain ⟨rewinds, left, hj, heq⟩ := ih hmore
        rw [Exchange.announced_append, hannounced]
        rcases hcases with rfl | rfl
        · exact ⟨rewinds, left, hj, by rw [List.append_assoc, heq]; rfl⟩
        · exact ⟨rewinds + 1, left, hj, by rw [List.append_assoc, heq]; rfl⟩
      -- A resumption that fails may have been refused, and then invokes nothing.
      have hresume := watching_resume hentry value l hl
      rcases hr : (control.resume (invoke entry) value).on l with ⟨e | next, m⟩ <;>
        rw [hr] at hresume hresumed
      · exact hresume.elim (fun h => hresumed h (.inl rfl)) fun h =>
          hresumed h (.inr rfl)
      · exact hresumed hresume (.inr rfl)

/-- A bridged call invokes its export afresh and then again for every rewind, or it
is refused. -/
theorem announced_call
    {entry : Exports (Watched G) → CoreState (Watched G) → Activation (Watched G) Unit}
    (hentry : Announces x name entry) (hi : i.Watching x [] false)
    {r : Except CallError Unit} (hruns : (i.call fuel entry).Runs log (r, j)) :
    j.Watching x [] false ∧ Attempted name r (Exchange.announced log) := by
  obtain ⟨outcome, log₁, _, rfl, hrun, hruns⟩ := Task.runs_bind.mp hruns
  obtain ⟨⟨result, k⟩, _, _, rfl, houtcome, hruns⟩ := Task.runs_bind.mp hruns
  obtain ⟨l, log₂, _, rfl, hflush, rfl, hr⟩ := Task.runs_bind.mp hruns
  obtain ⟨rfl, rfl⟩ := Task.runs_ofOption houtcome
  cases hr
  rw [List.nil_append, List.append_nil]
  have hdriven {lines : List Announcement}
      (hlines : ((control.enter (invoke entry)).on i).2.Watching x lines false) :
      j.Watching x [] false ∧ ∃ rewinds, Exchange.announced (log₁ ++ log₂) =
        lines ++ List.replicate rewinds (.invoked name true) := by
    obtain ⟨rewinds, left, hk, heq⟩ := announced_drive hentry hlines hrun
    obtain ⟨hannounced, hj⟩ := hk.flushed hflush
    rw [Exchange.announced_append, hannounced]
    exact ⟨hj, rewinds, heq⟩
  have henter := watching_enter hentry i hi
  rcases henter' : (control.enter (invoke entry)).on i with ⟨e | progress, l⟩
  · rw [henter'] at henter hdriven
    rcases henter with hl | hl
    · have hrefused : log₁ = [] ∧ r = .error e ∧ k = l := by
        rw [Control.run, henter'] at hrun
        cases fuel <;> (obtain ⟨hlog, h⟩ := hrun; cases h; exact ⟨hlog, rfl, rfl⟩)
      obtain ⟨rfl, rfl, rfl⟩ := hrefused
      obtain ⟨hannounced, hj⟩ := Watching.flushed hl hflush
      exact ⟨hj, .inr ⟨hannounced, e, rfl⟩⟩
    · obtain ⟨hj, hannounced⟩ := hdriven hl
      exact ⟨hj, .inl hannounced⟩
  · rw [henter'] at henter hdriven
    obtain ⟨hj, hannounced⟩ := hdriven henter
    exact ⟨hj, .inl hannounced⟩

theorem Watching.acted {α : Type} {step : Live (Watched G) α} {r : Except CallError α}
    (hstep : (step.on i).2.Watching x lines false)
    (hruns : (i.act step).Runs log (r, j)) :
    Exchange.announced log = lines ∧ j.Watching x [] false := by
  obtain ⟨k, _, _, rfl, hflush, rfl, hr⟩ := Task.runs_bind.mp hruns
  cases hr
  rw [List.append_nil]
  exact Watching.flushed hstep hflush

/-- A step that invokes an export and makes something of the answer invokes
it just once. -/
theorem announced_act {α β : Type}
    {entry : Exports (Watched G) → CoreState (Watched G) → Activation (Watched G) α}
    (hentry : Announces x name entry) {rest : α → Live (Watched G) β}
    (hrest : ∀ value, (rest value).Maintains (Watching x [.invoked name false] false))
    (hi : i.Watching x [] false) {r : Except CallError β}
    (hruns : (i.act (invoke entry >>= rest)).Runs log (r, j)) :
    Exchange.announced log = attempt name 0 ∧ j.Watching x [] false := by
  refine Watching.acted ?_ hruns
  have hinvoked := watching_invoke hentry hi
  rw [Act.on_bind]
  generalize (invoke entry).on i = outcome at hinvoked ⊢
  obtain ⟨e | value, k⟩ := outcome
  · exact hinvoked
  · exact hrest value k hinvoked

theorem announced_readMetrics (hi : i.Watching x [] false)
    {r : Except CallError (List String)} (hruns : (i.act readMetrics).Runs log (r, j)) :
    Exchange.announced log = attempt .getMetrics 0 ∧ j.Watching x [] false := by
  refine announced_act ⟨x.getMetrics, rfl⟩
    (fun ptr => .bind (.read _) fun memory => ?_) hi hruns
  split
  · exact .pure _
  · exact .fail _

theorem announced_readDeveloperDump (hi : i.Watching x [] false)
    {r : Except CallError (List String)}
    (hruns : (i.act readDeveloperDump).Runs log (r, j)) :
    Exchange.announced log = attempt .getDeveloperDump 0 ∧ j.Watching x [] false := by
  refine announced_act ⟨x.getDeveloperDump, rfl⟩
    (fun ptr => .bind (.read _) fun memory => ?_) hi hruns
  split
  · exact .pure _
  · exact .fail _

theorem announced_clearMetrics (hi : i.Watching x [] false) {r : Except CallError Unit}
    (hruns : (i.act clearMetrics).Runs log (r, j)) :
    Exchange.announced log = attempt .clearMetrics 0 ∧ j.Watching x [] false :=
  Watching.acted (watching_invoke ⟨x.clearMetrics, rfl⟩ hi) hruns

theorem announced_perform {request : PerformRequest} (hi : i.Watching x [] false)
    {r : Except CallError PerformState}
    (hruns : (i.perform fuel request).Runs log (r, j)) :
    j.Watching x [] false ∧ Attempted .perform r (Exchange.announced log) := by
  obtain ⟨⟨called, k⟩, log₁, _, rfl, hcall, hruns⟩ := Task.runs_bind.mp hruns
  have hbegun :
      Watching x [] false
        { i with host := { i.host with perform := some { request } } } :=
    hi.withHost rfl
  obtain ⟨hk, hannounced⟩ := announced_call ⟨x.perform, rfl⟩ hbegun hcall
  have hover :
      Watching x [] false { k with host := { k.host with perform := none } } :=
      hk.withHost rfl
  rcases called with e | _
  · obtain ⟨rfl, hr⟩ := hruns
    cases hr
    rw [List.append_nil]
    exact ⟨hover, hannounced.imp id fun h => ⟨h.1, e, rfl⟩⟩
  · rcases hperform : k.host.perform with _ | state
    · simp only [hperform] at hruns
      obtain ⟨rfl, hr⟩ := hruns
      cases hr
      rw [List.append_nil]
      exact ⟨hover, .inl hannounced.returned⟩
    · simp only [hperform] at hruns
      obtain ⟨rfl, hr⟩ := hruns
      cases hr
      rw [List.append_nil]
      exact ⟨hover, .inl hannounced.returned⟩

theorem announced_forward {kind : EventKind} {events : List String}
    (hruns : (kind.forward events).Runs log ()) : Exchange.announced log = [] := by
  obtain ⟨-, rfl⟩ | ⟨kept, rfl⟩ := EventKind.runs_forward hruns <;> rfl

theorem maintains_abandonSuspension :
    abandonSuspension.Maintains (Watching x lines again) := by
  refine .bind maintains_state fun state => ?_
  cases state with
  | normal => exact .pure _
  | unwinding => exact maintains_control fun s => rfl
  | rewinding => exact maintains_control fun s => rfl

theorem announced_salvage (hi : i.Watching x [] false) {e : CallError}
    {answer : PerformError} (hruns : (i.salvage e).Runs log answer) :
    Exchange.announced log = attempt .getDeveloperDump 0 ++ attempt .getMetrics 0 := by
  obtain ⟨⟨_, i₁⟩, log₁, _, rfl, habandon, hruns⟩ := Task.runs_bind.mp hruns
  obtain ⟨⟨dump, i₂⟩, log₂, _, rfl, hdump, hruns⟩ := Task.runs_bind.mp hruns
  obtain ⟨⟨metrics, i₃⟩, log₃, _, rfl, hmetrics, hruns⟩ := Task.runs_bind.mp hruns
  obtain ⟨_, log₄, _, rfl, hforward, hruns⟩ := Task.runs_bind.mp hruns
  obtain ⟨_, log₅, _, rfl, hforward', rfl, rfl⟩ := Task.runs_bind.mp hruns
  obtain ⟨habandoned, hi₁⟩ := Watching.acted (maintains_abandonSuspension i hi) habandon
  obtain ⟨hdumped, hi₂⟩ := announced_readDeveloperDump (i := i₁.release)
    (hi₁.withHost rfl) hdump
  obtain ⟨hread, -⟩ := announced_readMetrics hi₂ hmetrics
  simp only [Exchange.announced_append, habandoned, hdumped, hread,
    announced_forward hforward, announced_forward hforward', List.nil_append,
    List.append_nil]

/-- A flush reads the metrics and clears them; if the first fails it does not come to
the second. -/
theorem announced_flushMetrics (hi : i.Watching x [] false) {r : Except CallError Unit}
    (hruns : i.flushMetrics.Runs log (r, j)) :
    j.Watching x [] false ∧
      (Exchange.announced log = attempt .getMetrics 0 ++ attempt .clearMetrics 0 ∨
        Exchange.announced log = attempt .getMetrics 0 ∧ ∃ e, r = .error e) := by
  obtain ⟨⟨metrics, i₁⟩, log₁, _, rfl, hmetrics, hruns⟩ := Task.runs_bind.mp hruns
  obtain ⟨hread, hi₁⟩ := announced_readMetrics hi hmetrics
  cases metrics with
  | error e =>
      obtain ⟨rfl, hr⟩ := hruns
      cases hr
      rw [List.append_nil]
      exact ⟨hi₁, .inr ⟨hread, e, rfl⟩⟩
  | ok events =>
      obtain ⟨⟨cleared, i₂⟩, log₂, _, rfl, hclear, hruns⟩ := Task.runs_bind.mp hruns
      obtain ⟨hcleared, hi₂⟩ := announced_clearMetrics hi₁ hclear
      cases cleared with
      | error e =>
          obtain ⟨rfl, hr⟩ := hruns
          cases hr
          rw [List.append_nil, Exchange.announced_append, hread, hcleared]
          exact ⟨hi₂, .inl rfl⟩
      | ok _ =>
          obtain ⟨_, log₃, _, rfl, hforward, rfl, hr⟩ := Task.runs_bind.mp hruns
          cases hr
          rw [List.append_nil, Exchange.announced_append, Exchange.announced_append,
            hread, hcleared, announced_forward hforward, List.append_nil]
          exact ⟨hi₂, .inl rfl⟩

end Instance

end Resumable
