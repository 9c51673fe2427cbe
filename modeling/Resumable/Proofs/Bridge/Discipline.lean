import Resumable.Proofs.Bridge.Balance
import Resumable.Proofs.Bridge.Program

/-!
# The discipline of the slot

Whatever state a control reports, and whenever it fails, nothing in the slot is
overwritten, nothing is awaited twice and no value is handed out twice; a run that
returns has lost nothing either. The invariant is that the slot balances the
transcript: what is in it is what is owed or due.
-/

namespace Resumable

namespace Pending

variable {F V : Type}

def operation? : Pending F V → Option F
  | inFlight operation => some operation
  | resolved _ => none

def value? : Pending F V → Option V
  | inFlight _ => none
  | resolved value => some value

end Pending

namespace Act

variable {σ γ E α : Type}

def Keeps (f : σ → γ) (a : Act σ E α) : Prop := ∀ s, f (a.on s).2 = f s

end Act

namespace Body

variable {σ γ E F V A R : Type}

def Keeps (f : σ → γ) : Body σ E F V A R → Prop
  | .done _ => True
  | .work act next => act.Keeps f ∧ ∀ a, (next a).Keeps f
  | .call _ start finish next =>
      start.Keeps f ∧ (∀ value, (finish value).Keeps f) ∧ ∀ a, (next a).Keeps f

end Body

namespace Control

variable {σ E F V A R α : Type}

/-- A control whose own operations leave the slot alone. -/
structure SlotKept (c : Control σ E F V) : Prop where
  get_set : ∀ b s, c.getBridge (c.setBridge b s) = b
  rawState : c.rawState.Keeps c.getBridge
  startUnwind : c.startUnwind.Keeps c.getBridge
  stopUnwind : c.stopUnwind.Keeps c.getBridge
  startRewind : c.startRewind.Keeps c.getBridge
  stopRewind : c.stopRewind.Keeps c.getBridge
  resetData : c.resetData.Keeps c.getBridge

/-- The books of an export are in order, whatever is owed or due. -/
def Orderly (s : Noted σ F V R) : Prop := ∃ owed due, Balanced s.log owed due

def Even (c : Control σ E F V) (s : Noted σ F V R) : Prop :=
  Balanced s.log ((c.getBridge s.state).pending.bind Pending.operation?)
    ((c.getBridge s.state).pending.bind Pending.value?)

def Bare (c : Control σ E F V) (owed : Option F) (due : Option V)
    (s : Noted σ F V R) : Prop :=
  (c.getBridge s.state).pending = none ∧ Balanced s.log owed due

/-- An export that has settled: it has returned, or an operation has been
taken for it. -/
def Settled (c : Control σ E F V) : Progress R F → Noted σ F V R → Prop
  | .returned value, s =>
      c.Bare none none s ∧ ∃ log, s.log = log ++ [.returned value, .observed 0]
  | .waiting operation, s => c.Bare (some operation) none s

variable {c : Control σ E F V}

section Even

variable {s : Noted σ F V R}

theorem Even.orderly (h : c.Even s) : Orderly s := ⟨_, _, h⟩

theorem Bare.orderly {owed : Option F} {due : Option V} (h : c.Bare owed due s) :
    Orderly s :=
  ⟨owed, due, h.2⟩

theorem Bare.even (h : c.Bare none none s) : c.Even s := by
  rw [Even, h.1]
  exact h.2

end Even

/-- A condition on the slot and the transcript alone, and one under which the books
are in order. -/
structure Steady (c : Control σ E F V) (p : Noted σ F V R → Prop) : Prop where
  congr : ∀ s t log, c.getBridge t = c.getBridge s → p ⟨s, log⟩ → p ⟨t, log⟩
  orderly : ∀ s, p s → Orderly s

theorem steady_even : Steady c (c.Even (R := R)) where
  congr := by
    intro s t log h hs
    rwa [Even, h]
  orderly := fun _ => Even.orderly

theorem steady_bare {owed : Option F} {due : Option V} :
    Steady c (c.Bare (R := R) owed due) where
  congr := by
    rintro s t log h ⟨hbare, hlog⟩
    exact ⟨h ▸ hbare, hlog⟩
  orderly := fun _ => Bare.orderly

variable {p : Noted σ F V R → Prop}

/-- A step that keeps the slot, and of which nothing is written down, changes nothing
about the books. -/
theorem Steady.silently (hp : Steady c p) {a : Act σ E α} (ha : a.Keeps c.getBridge) :
    Act.Ensures p (Noted.silently a) (fun _ => p) Orderly := by
  intro s hs
  have hkept := hp.congr s.state (a.on s.state).2 s.log (ha s.state) hs
  rw [Noted.silently, Act.on_zoom]
  rcases hr : a.on s.state with ⟨_ | v, t⟩
  · rw [hr] at hkept
    exact hp.orderly _ hkept
  · rw [hr] at hkept
    exact hkept

theorem ensures_note {e : Note F V R} {q : Noted σ F V R → Prop}
    (h : ∀ s, p s → q ⟨s.state, s.log ++ [e]⟩) :
    Act.Ensures p (Noted.note e : Act (Noted σ F V R) E Unit) (fun _ => q) Orderly :=
  .modify h

theorem Steady.state (hc : c.SlotKept) (hp : Steady c p) :
    Act.Ensures p (c.noted R).state
      (fun state s => ∃ log raw,
        s.log = log ++ [.observed raw] ∧ SuspendState.ofRaw? raw = some state ∧
        p ⟨s.state, log⟩)
      Orderly := by
  have hraw : Act.Ensures p (c.noted R).rawState
      (fun raw s => ∃ log, s.log = log ++ [.observed raw] ∧
        p ⟨s.state, log⟩) Orderly := by
    refine .bind (hp.silently hc.rawState) fun raw => ?_
    refine .bind
      (ensures_note (q := fun s => ∃ log, s.log = log ++ [.observed raw] ∧
        p ⟨s.state, log⟩) fun s hs => ⟨s.log, rfl, hs⟩) fun _ => ?_
    exact .pure fun s hs => hs
  refine .bind hraw fun raw => ?_
  rcases hstate : SuspendState.ofRaw? raw with _ | state
  · refine .violate ?_
    rintro s ⟨log, hlog, hs⟩
    obtain ⟨owed, due, hbal⟩ := hp.orderly _ hs
    refine ⟨owed, due, ?_⟩
    rw [hlog]
    exact hbal.aside nofun nofun nofun
  · refine .pure ?_
    rintro s ⟨log, hlog, hs⟩
    exact ⟨log, raw, hlog, hstate, hs⟩

theorem Steady.state_keeps (hc : c.SlotKept) (hp : Steady c p)
    (hread : ∀ s log raw, p ⟨s, log⟩ → p ⟨s, log ++ [.observed raw]⟩) :
    Act.Ensures p (c.noted R).state (fun _ => p) Orderly := by
  refine (hp.state hc).mono (fun _ => id) ?_ (fun _ => id)
  rintro state ⟨s, log⟩ ⟨log', raw, rfl, -, hs⟩
  exact hread s log' raw hs

theorem ensures_state_even (hc : c.SlotKept) :
    Act.Ensures c.Even (c.noted R).state (fun _ => c.Even) Orderly :=
  steady_even.state_keeps hc fun _ _ _ hs => hs.aside nofun nofun nofun

theorem ensures_state_bare (hc : c.SlotKept) (owed : Option F) (due : Option V) :
    Act.Ensures (c.Bare owed due) (c.noted R).state
      (fun _ => c.Bare owed due) Orderly :=
  steady_bare.state_keeps hc fun _ _ _ hs => ⟨hs.1, hs.2.aside nofun nofun nofun⟩

theorem even_setBridge (hc : c.SlotKept) {b : Bridge F V} {s : Noted σ F V R}
    (h : Balanced (s.log ++ [.slot (c.getBridge s.state).pending b.pending])
      (b.pending.bind Pending.operation?) (b.pending.bind Pending.value?)) :
    c.Even ((c.noted R).setBridge b s) := by
  change Balanced _ ((c.getBridge (c.setBridge b s.state)).pending.bind _)
    ((c.getBridge (c.setBridge b s.state)).pending.bind _)
  rw [hc.get_set]
  exact h

theorem bare_setBridge (hc : c.SlotKept) {b : Bridge F V} {s : Noted σ F V R}
    {owed : Option F} {due : Option V} (hb : b.pending = none)
    (h : Balanced s.log owed due) : c.Bare owed due ((c.noted R).setBridge b s) := by
  refine ⟨?_, ?_⟩
  · change (c.getBridge (c.setBridge b s.state)).pending = none
    rw [hc.get_set, hb]
  · change Balanced (s.log ++ [.slot _ b.pending]) owed due
    rw [hb]
    exact h.take _

theorem ensures_park (hc : c.SlotKept) (operation : F) :
    Act.Ensures c.Even ((c.noted R).park operation) (fun _ => c.Even) Orderly := by
  intro s hs
  rcases hpending : ((c.noted R).getBridge s).pending with _ | pending
  · rw [Control.park_on hpending]
    change (c.getBridge s.state).pending = none at hpending
    rw [Even, hpending] at hs
    refine even_setBridge hc ?_
    rw [hpending]
    exact hs.park operation
  · rw [Control.park_on_some hpending]
    exact hs.orderly

theorem ensures_takeInFlight (hc : c.SlotKept) :
    Act.Ensures c.Even (c.noted R).takeInFlight
      (fun operation => c.Bare (some operation) none)
      Orderly := by
  intro s hs
  rcases hpending : ((c.noted R).getBridge s).pending with _ | operation | value
  · rw [Control.takeInFlight_on_ne (by simp [hpending])]
    exact hs.orderly
  · rw [Control.takeInFlight_on hpending]
    change (c.getBridge s.state).pending = _ at hpending
    rw [Even, hpending] at hs
    exact bare_setBridge hc rfl hs
  · rw [Control.takeInFlight_on_ne (by simp [hpending])]
    exact hs.orderly

theorem ensures_takeResolved (hc : c.SlotKept) :
    Act.Ensures c.Even (c.noted R).takeResolved
      (fun value => c.Bare none (some value)) Orderly := by
  intro s hs
  rcases hpending : ((c.noted R).getBridge s).pending with _ | operation | value
  · rw [Control.takeResolved_on_ne (by simp [hpending])]
    exact hs.orderly
  · rw [Control.takeResolved_on_ne (by simp [hpending])]
    exact hs.orderly
  · rw [Control.takeResolved_on hpending]
    change (c.getBridge s.state).pending = _ at hpending
    rw [Even, hpending] at hs
    exact bare_setBridge hc rfl hs

theorem ensures_resolve (hc : c.SlotKept) (value : V) :
    Act.Ensures (c.Bare none (some value)) ((c.noted R).resolve value)
      (fun _ => c.Even) Orderly := by
  refine .modify ?_
  rintro s ⟨hbare, hs⟩
  refine even_setBridge hc ?_
  rw [hbare]
  exact hs.resolve value

theorem ensures_hostCall (hc : c.SlotKept) (placeholder : A)
    {start : Act σ E (HostStep A F)} {finish : V → Act σ E A}
    (hstart : start.Keeps c.getBridge)
    (hfinish : ∀ value, (finish value).Keeps c.getBridge) : Act.Ensures c.Even
      ((c.noted R).hostCall placeholder (Noted.silently start) fun value => do
        Noted.note (.handed value)
        Noted.silently (finish value))
      (fun _ => c.Even) Orderly := by
  refine .bind (ensures_state_even hc) fun state => ?_
  cases state with
  | normal =>
      refine .bind (steady_even.silently hstart) fun step => ?_
      cases step with
      | ready answer => exact .pure fun _ => id
      | suspend operation =>
          refine .bind (ensures_park hc operation) fun _ => ?_
          refine .bind (steady_even.silently hc.startUnwind) fun _ => ?_
          exact .pure fun _ => id
  | unwinding => exact .violate fun _ => Even.orderly
  | rewinding =>
      refine .bind (ensures_takeResolved hc) fun value => ?_
      refine .bind (steady_bare.silently hc.stopRewind) fun _ => ?_
      refine .bind (q := fun _ => c.Bare none none) ?_ fun _ => ?_
      · refine ensures_note ?_
        rintro s ⟨hbare, hs⟩
        exact ⟨hbare, hs.hand⟩
      · exact (steady_bare.silently (hfinish value)).mono (fun _ => id)
          (fun _ _ => Bare.even) (fun _ => id)

theorem ensures_body (hc : c.SlotKept) {body : Body σ E F V A R}
    (hbody : body.Keeps c.getBridge) :
    Act.Ensures c.Even (body.noted.run (c.noted R)) (fun _ => c.Even) Orderly := by
  induction body with
  | done value => exact .pure fun _ => id
  | work act next ih =>
      obtain ⟨hact, hnext⟩ := hbody
      exact .bind (steady_even.silently hact) fun a => ih a (hnext a)
  | call placeholder start finish next ih =>
      obtain ⟨hstart, hfinish, hnext⟩ := hbody
      exact .bind (ensures_hostCall hc placeholder hstart hfinish) fun a =>
        ih a (hnext a)

theorem ensures_notedInvoke (hc : c.SlotKept) {body : Body σ E F V A R}
    (hbody : body.Keeps c.getBridge) :
    Act.Ensures c.Even (c.notedInvoke body)
      (fun value s => c.Even s ∧ ∃ log, s.log = log ++ [.returned value]) Orderly := by
  refine .bind (q := fun _ => c.Even)
    (ensures_note fun s hs => hs.aside nofun nofun nofun) fun _ => ?_
  refine .bind (ensures_body hc hbody) fun value => ?_
  refine .bind (q := fun _ s => c.Even s ∧ ∃ log, s.log = log ++ [.returned value])
    (ensures_note fun s hs => ⟨hs.aside nofun nofun nofun, s.log, rfl⟩) fun _ => ?_
  exact .pure fun _ => id

def SeenAfter (c : Control σ E F V) (value : R) (state : SuspendState)
    (s : Noted σ F V R) : Prop :=
  c.Even s ∧ ∃ log raw,
    s.log = log ++ [.returned value, .observed raw] ∧
    SuspendState.ofRaw? raw = some state

theorem steady_returned (value : R) :
    Steady c fun s => c.Even s ∧ ∃ log, s.log = log ++ [.returned value] where
  congr := by
    rintro s t log h ⟨hs, hlog⟩
    exact ⟨steady_even.congr s t log h hs, hlog⟩
  orderly := fun _ hs => hs.1.orderly

theorem ensures_seenAfter (hc : c.SlotKept) (value : R) :
    Act.Ensures (fun s => c.Even s ∧ ∃ log, s.log = log ++ [.returned value])
      (c.noted R).state (c.SeenAfter value) Orderly := by
  refine ((steady_returned value).state hc).mono (fun _ => id) ?_ (fun _ => id)
  rintro state ⟨s, _⟩ ⟨_, raw, rfl, hstate, hs, log, rfl⟩
  exact ⟨hs.aside nofun nofun nofun, log, raw, List.append_assoc _ _ _, hstate⟩

theorem ensures_settle (hc : c.SlotKept) {body : Body σ E F V A R}
    (hbody : body.Keeps c.getBridge) :
    Act.Ensures c.Even ((c.noted R).settle (c.notedInvoke body)) c.Settled Orderly := by
  refine .bind (ensures_notedInvoke hc hbody) fun value => ?_
  refine .bind (ensures_seenAfter hc value) fun state => ?_
  cases state with
  | normal =>
      refine .bind (ensures_isIdle _ _) fun idle => ?_
      cases idle with
      | false => exact .violate fun s hs => hs.1.1.orderly
      | true =>
          refine .pure ?_
          rintro s ⟨⟨heven, log, raw, hlog, hraw⟩, hidle⟩
          have hbare : (c.getBridge s.state).pending = none := hidle rfl
          rw [Even, hbare] at heven
          cases SuspendState.ofRaw?_eq_normal hraw
          exact ⟨⟨hbare, heven⟩, log, hlog⟩
  | unwinding =>
      refine .bind ((steady_even.silently hc.stopUnwind).of_pre fun s hs => hs.1)
        fun _ => ?_
      refine .bind (ensures_takeInFlight hc) fun operation => ?_
      exact .pure fun _ => id
  | rewinding => exact .violate fun s hs => hs.1.orderly

theorem ensures_resume (hc : c.SlotKept) {body : Body σ E F V A R}
    (hbody : body.Keeps c.getBridge) (value : V) :
    Act.Ensures (c.Bare none (some value)) ((c.noted R).resume (c.notedInvoke body)
      value) c.Settled
      Orderly := by
  refine .bind (ensures_state_bare hc none (some value)) fun state => ?_
  cases state with
  | normal =>
      refine .bind (ensures_resolve hc value) fun _ => ?_
      exact .bind (steady_even.silently hc.startRewind) fun _ => ensures_settle hc hbody
  | unwinding => exact .violate fun _ => Bare.orderly
  | rewinding => exact .violate fun _ => Bare.orderly

theorem steady_balanced {owed : Option F} {due : Option V} :
    Steady c fun s : Noted σ F V R => Balanced s.log owed due where
  congr := fun _ _ _ _ => id
  orderly := fun _ hs => ⟨owed, due, hs⟩

theorem ensures_enter (hc : c.SlotKept) {body : Body σ E F V A R}
    (hbody : body.Keeps c.getBridge) :
    Act.Ensures (fun s => Balanced s.log none none)
      ((c.noted R).enter (c.notedInvoke body)) c.Settled
      Orderly := by
  refine .bind
    (steady_balanced.state_keeps hc fun _ _ _ hs => hs.aside nofun nofun nofun)
    fun state => ?_
  cases state with
  | normal =>
      refine .bind (ensures_isIdle _ _) fun idle => ?_
      cases idle with
      | false => exact .violate fun s hs => ⟨none, none, hs.1⟩
      | true =>
          refine .bind (q := fun _ => c.Even) ?_ fun _ => ensures_settle hc hbody
          refine .bind (q := fun _ => c.Even) (ensures_note ?_) fun _ =>
            steady_even.silently hc.resetData
          rintro s ⟨hs, hidle⟩
          have hbare : (c.getBridge s.state).pending = none := hidle rfl
          rw [Even, hbare]
          exact hs.aside nofun nofun nofun
  | unwinding => exact .violate fun s hs => ⟨none, none, hs⟩
  | rewinding => exact .violate fun s hs => ⟨none, none, hs⟩

theorem came_advance (hc : c.SlotKept) {body : Body σ E F V A R}
    (hbody : body.Keeps c.getBridge) {await : F → σ → V × σ}
    (hawait : ∀ operation s, c.getBridge (await operation s).2 = c.getBridge s)
    (n : Nat) {p : Except (Failure E) (Progress R F) × Noted σ F V R}
    (hp : Act.Came c.Settled Orderly p) : Act.Came c.Settled Orderly
      ((c.noted R).advance (c.notedInvoke body) (Noted.await await) n p) := by
  induction n generalizing p with
  | zero => exact hp
  | succ n ih =>
      rcases p with ⟨_ | _ | operation, s⟩
      · exact hp
      · exact hp
      · obtain ⟨hbare, hs⟩ := hp
        refine ih (ensures_resume hc hbody _ _ ?_)
        refine ⟨?_, hs.await _⟩
        change (c.getBridge (await operation s.state).2).pending = none
        rw [hawait, hbare]

theorem advance_error (invoke : Act σ E R) (await : F → σ → V × σ) (n : Nat)
    (e : Failure E) (s : σ) :
    c.advance invoke await n (.error e, s) = (.error e, s) := by
  cases n <;> rfl

/-- Reading the state leaves the slot alone, and only what was read is written down. -/
theorem noted_state_on (hc : c.SlotKept) (s : σ) :
    ∃ r t, ∃ raws : List Int32, (c.noted R).state.on ⟨s, []⟩ =
    (r, ⟨t, raws.map .observed⟩) ∧
      c.state.on s = (r, t) ∧ c.getBridge t = c.getBridge s := by
  have hkept := hc.rawState s
  rcases hraw : c.rawState.on s with ⟨e | raw, t⟩
  · rw [hraw] at hkept
    have hnoted : (c.noted R).rawState.on ⟨s, []⟩ = (.error e, ⟨t, []⟩) := by
      refine Act.on_bind_error ?_
      rw [Noted.silently, Act.on_zoom, hraw]
    exact ⟨.error e, t, [], Act.on_bind_error hnoted, Act.on_bind_error hraw, hkept⟩
  · rw [hraw] at hkept
    have hnoted : (c.noted R).rawState.on ⟨s, []⟩ =
        (.ok raw, ⟨t, [.observed raw]⟩) := by
      have hsilent : (Noted.silently c.rawState).on (⟨s, []⟩ : Noted σ F V R) =
          (.ok raw, ⟨t, []⟩) := by
        rw [Noted.silently, Act.on_zoom, hraw]
      exact Act.on_bind_ok hsilent
    rcases hstate : SuspendState.ofRaw? raw with _ | state
    · refine ⟨.error (.violation (.unknownState raw)), t, [raw], ?_, ?_, hkept⟩
      · rw [Control.state, Act.on_bind_ok hnoted, hstate]
        rfl
      · rw [Control.state, Act.on_bind_ok hraw, hstate]
        rfl
    · exact ⟨.ok state, t, [raw], state_on hnoted hstate, state_on hraw hstate, hkept⟩

/-- An export that is refused at its entry is not invoked, and nothing is reset. -/
theorem enter_refused (hc : c.SlotKept) {s : σ} (invoke : Act (Noted σ F V R) E R)
    (h : (∀ t, c.state.on s ≠ (.ok .normal, t)) ∨ (c.getBridge s).pending ≠ none) :
    ∃ e t, ∃ raws : List Int32, ((c.noted R).enter invoke).on ⟨s, []⟩ =
    (.error e, ⟨t, raws.map .observed⟩) ∧
      c.getBridge t = c.getBridge s := by
  obtain ⟨r, t, raws, hnoted, hstate, hkept⟩ := c.noted_state_on (R := R) hc s
  rcases r with e | state
  · exact ⟨e, t, raws, Act.on_bind_error hnoted, hkept⟩
  · cases state with
    | normal =>
        have hpending : (c.getBridge t).isIdle = false := by
          rw [hkept]
          rcases h with h | h
          · exact absurd hstate (h t)
          · exact Option.isNone_eq_false_iff.mpr (Option.isSome_iff_ne_none.mpr h)
        refine ⟨.violation .pendingLeftBehind, t, raws, ?_, hkept⟩
        rw [enter, Act.on_bind_ok hnoted]
        change ((c.noted R).isIdle >>= _).on _ = _
        rw [isIdle, Act.on_bind_ok (Act.on_read _ _)]
        change ((if !(c.getBridge t).isIdle then _ else _ : Act _ _ _)).on _ = _
        rw [hpending]
        rfl
    | unwinding =>
        refine ⟨.violation (.notNormalAtEntry .unwinding), t, raws, ?_, hkept⟩
        rw [enter, Act.on_bind_ok hnoted]
        rfl
    | rewinding =>
        refine ⟨.violation (.notNormalAtEntry .rewinding), t, raws, ?_, hkept⟩
        rw [enter, Act.on_bind_ok hnoted]
        rfl

/-- What an export that has returned leaves behind: nothing pending, and nothing lost
on the way. -/
structure Returned (c : Control σ E F V) (value : R) (s : Noted σ F V R) : Prop where
  idle : (c.getBridge s.state).pending = none
  ends : ∃ log, s.log = log ++ [.returned value, .observed 0]
  awaited : s.log.filterMap Note.awaited? = s.log.filterMap Note.parked?
  handed : s.log.filterMap Note.handed? = s.log.filterMap Note.value?

theorem Settled.returned {value : R} {s : Noted σ F V R}
    (h : c.Settled (.returned value) s) : c.Returned value s := by
  obtain ⟨⟨hbare, hs⟩, hends⟩ := h
  refine ⟨hbare, hends, ?_, ?_⟩
  · simpa using hs.parked.symm
  · simpa using hs.values.symm

/-- The bridge is safe against any control that leaves its slot alone. Written down,
a run is the same run; at no moment of it, and however many resumptions it takes, is
the discipline of the slot broken; if it returns then everything parked has been
awaited and everything awaited handed out; and if it is refused at its entry then
nothing has happened. -/
theorem advance_disciplined (hc : c.SlotKept) (body : Body σ E F V A R)
    (hbody : body.Keeps c.getBridge) (await : F → σ → V × σ)
    (hawait : ∀ operation s, c.getBridge (await operation s).2 = c.getBridge s)
    (n : Nat) (s : σ) :
    (outcome? (c.notedAdvance body await n s)).map (Prod.map id Noted.state) =
        c.run (m := Id) (body.run c) await n s ∧
      (∀ log, log <+: (c.notedAdvance body await n s).2.log → Disciplined log) ∧
      (∀ value t, c.notedAdvance body await n s = (.ok (.returned value), t) →
        c.Returned value t) ∧
      ((∀ t, c.state.on s ≠ (.ok .normal, t)) ∨ (c.getBridge s).pending ≠ none →
        ∃ e t, ∃ raws : List Int32, c.notedAdvance body await n s =
          (.error e, ⟨t, raws.map .observed⟩) ∧ c.getBridge t = c.getBridge s) := by
  have hcame : Act.Came c.Settled Orderly (c.notedAdvance body await n s) :=
    came_advance hc hbody hawait n (ensures_enter hc hbody ⟨s, []⟩ .nil)
  refine ⟨c.outcome_notedAdvance body await n s, ?_, ?_, ?_⟩
  · rcases hp : c.notedAdvance body await n s with ⟨_ | _ | _, t⟩
    · rw [hp] at hcame
      obtain ⟨_, _, hbal⟩ := hcame
      exact hbal.disciplined
    · rw [hp] at hcame
      exact hcame.1.2.disciplined
    · rw [hp] at hcame
      exact hcame.2.disciplined
  · intro value t hp
    rw [hp] at hcame
    exact hcame.returned
  · intro h
    obtain ⟨e, t, raws, henter, hkept⟩ := enter_refused hc (c.notedInvoke body) h
    refine ⟨e, t, raws, ?_, hkept⟩
    rw [notedAdvance, henter, advance_error]

end Control

namespace Frame

variable {H E F V A : Type}

theorem control_slotKept : (control : Control (Frame H F V A) E F V).SlotKept where
  get_set := fun _ _ => rfl
  rawState := fun _ => rfl
  startUnwind := fun _ => rfl
  stopUnwind := fun _ => rfl
  startRewind := fun _ => rfl
  stopRewind := fun _ => rfl
  resetData := fun _ => rfl

def lookup : Body (Frame Unit Nat Nat Nat) Empty Nat Nat Nat Nat :=
  .call 0 (return .suspend 3) (fun value => return value) .done

theorem lookup_returned :
    control.Returned (E := Empty) 30
      (⟨⟨0, ⟨none, 1⟩, (), [], [.reset]⟩,
        [.observed 0, .reset, .invoked, .observed 0,
          .slot none (some (.inFlight 3)), .returned 0, .observed 1,
          .slot (some (.inFlight 3)) none, .awaited 3 30, .observed 0,
          .slot none (some (.resolved 30)), .invoked, .observed 2,
          .slot (some (.resolved 30)) none, .handed 30, .returned 30, .observed 0]⟩ :
            Noted (Frame Unit Nat Nat Nat) Nat Nat Nat) := by
  have hkeeps : lookup.Keeps Frame.bridge :=
    ⟨fun _ => rfl, fun _ _ => rfl, fun _ => trivial⟩
  have hadvance := Control.advance_disciplined control_slotKept lookup hkeeps
    (fun operation s => (10 * operation, s)) (fun _ _ => rfl) 1 ⟨0, .idle, (), [], []⟩
  exact hadvance.2.2.1 30 _ rfl

end Frame

end Resumable
