import Resumable.Proofs.Bridge.Control
import Resumable.Proofs.Bridge.Following

namespace Resumable

inductive Note (F V R : Type) where
  | observed (raw : Int32)
  | reset
  | invoked
  | returned (value : R)
  | slot (before after : Option (Pending F V))
  | awaited (operation : F) (value : V)
  | handed (value : V)

/-- A state beside what has been written down. -/
structure Noted (σ F V R : Type) where
  state : σ
  log : List (Note F V R)

/-- An export as its host sees it: work of its own, host calls, and a value. What
fails ends it. -/
inductive Body (σ E F V A R : Type) where
  | done (value : R)
  | work (act : Act σ E A) (next : A → Body σ E F V A R)
  | call (placeholder : A) (start : Act σ E (HostStep A F)) (finish : V → Act σ E A)
      (next : A → Body σ E F V A R)

namespace Note

variable {F V R : Type}

def parked? : Note F V R → Option F
  | slot _ (some (.inFlight operation)) => some operation
  | _ => none

def awaited? : Note F V R → Option F
  | awaited operation _ => some operation
  | _ => none

def value? : Note F V R → Option V
  | awaited _ value => some value
  | _ => none

def handed? : Note F V R → Option V
  | handed value => some value
  | _ => none

end Note

namespace Noted

variable {σ E F V R α : Type}

def note (e : Note F V R) : Act (Noted σ F V R) E Unit :=
  .modify fun s => { s with log := s.log ++ [e] }

def silently (a : Act σ E α) : Act (Noted σ F V R) E α :=
  .zoom Noted.state (fun state s => { s with state := state }) a

def await (await : F → σ → V × σ) (operation : F) (s : Noted σ F V R) :
    V × Noted σ F V R :=
  let (value, state) := await operation s.state
  (value, { s with state := state, log := s.log ++ [.awaited operation value] })

theorem projects_silently (a : Act σ E α) :
    Act.Projects Noted.state (silently a : Act (Noted σ F V R) E α) a :=
  .zoom (fun _ _ => rfl) a

end Noted

namespace Body

variable {σ E F V A R : Type}

def run (c : Control σ E F V) : Body σ E F V A R → Act σ E R
  | .done value => return value
  | .work act next => do
      let a ← act
      run c (next a)
  | .call placeholder start finish next => do
      let a ← c.hostCall placeholder start finish
      run c (next a)

def noted : Body σ E F V A R → Body (Noted σ F V R) E F V A R
  | .done value => .done value
  | .work act next => .work (Noted.silently act) fun a => noted (next a)
  | .call placeholder start finish next =>
      .call placeholder (Noted.silently start)
        (fun value => do Noted.note (.handed value); Noted.silently (finish value))
        fun a => noted (next a)

end Body

namespace Control

variable {σ τ E F V A R : Type}

def noted (c : Control σ E F V) (R : Type) : Control (Noted σ F V R) E F V where
  rawState := do
    let raw ← Noted.silently c.rawState
    Noted.note (.observed raw)
    return raw
  startUnwind := Noted.silently c.startUnwind
  stopUnwind := Noted.silently c.stopUnwind
  startRewind := Noted.silently c.startRewind
  stopRewind := Noted.silently c.stopRewind
  resetData := do
    Noted.note .reset
    Noted.silently c.resetData
  getBridge := fun s => c.getBridge s.state
  setBridge := fun b s =>
    ⟨c.setBridge b s.state, s.log ++ [.slot (c.getBridge s.state).pending b.pending]⟩

def notedInvoke (c : Control σ E F V) (body : Body σ E F V A R) :
    Act (Noted σ F V R) E R := do
  Noted.note .invoked
  let value ← body.noted.run (c.noted R)
  Noted.note (.returned value)
  return value

def advance (c : Control σ E F V) (invoke : Act σ E R) (await : F → σ → V × σ) :
    Nat → Except (Failure E) (Progress R F) × σ → Except (Failure E) (Progress R F) × σ
  | n + 1, (.ok (.waiting operation), s) =>
      advance c invoke await n
        ((c.resume invoke (await operation s).1).on (await operation s).2)
  | _, p => p

def outcome? : Except (Failure E) (Progress R F) × σ → Option (Except (Failure E) R × σ)
  | (.error e, s) => some (.error e, s)
  | (.ok (.returned value), s) => some (.ok value, s)
  | (.ok (.waiting _), _) => none

/-- Driving an export is having it advance until it is over. -/
theorem drive_eq_outcome_advance (c : Control σ E F V) (invoke : Act σ E R)
    (await : F → σ → V × σ) (n : Nat) (p : Except (Failure E) (Progress R F) × σ) :
    c.drive (m := Id) invoke await n p = outcome? (c.advance invoke await n p) := by
  induction n generalizing p with
  | zero => rcases p with ⟨_ | _ | _, _⟩ <;> rfl
  | succ n ih =>
      rcases p with ⟨_ | _ | operation, s⟩
      · rfl
      · rfl
      · exact ih _

/-- A control that does, seen through `g`, what another one does. -/
structure Projects (g : τ → σ) (c' : Control τ E F V) (c : Control σ E F V) : Prop where
  rawState : Act.Projects g c'.rawState c.rawState
  startUnwind : Act.Projects g c'.startUnwind c.startUnwind
  stopUnwind : Act.Projects g c'.stopUnwind c.stopUnwind
  startRewind : Act.Projects g c'.startRewind c.startRewind
  stopRewind : Act.Projects g c'.stopRewind c.stopRewind
  resetData : Act.Projects g c'.resetData c.resetData
  getBridge : ∀ t, c'.getBridge t = c.getBridge (g t)
  setBridge : ∀ b t, g (c'.setBridge b t) = c.setBridge b (g t)

namespace Projects

variable {g : τ → σ} {c' : Control τ E F V} {c : Control σ E F V}

theorem follows (h : Projects g c' c) : Follows (fun t s => g t = s) c' c where
  rawState := Act.projects_iff_follows.mp h.rawState
  startUnwind := Act.projects_iff_follows.mp h.startUnwind
  stopUnwind := Act.projects_iff_follows.mp h.stopUnwind
  startRewind := Act.projects_iff_follows.mp h.startRewind
  stopRewind := Act.projects_iff_follows.mp h.stopRewind
  resetData := Act.projects_iff_follows.mp h.resetData
  getBridge := by
    rintro t _ rfl
    exact h.getBridge t
  setBridge := by
    rintro b t _ rfl
    exact h.setBridge b t

theorem hostCall (h : Projects g c' c) (placeholder : R)
    {start' : Act τ E (HostStep R F)} {start : Act σ E (HostStep R F)}
    {finish' : V → Act τ E R} {finish : V → Act σ E R}
    (hstart : Act.Projects g start' start)
    (hfinish : ∀ v, Act.Projects g (finish' v) (finish v)) :
    Act.Projects g (c'.hostCall placeholder start' finish')
      (c.hostCall placeholder start finish) :=
  Act.projects_iff_follows.mpr <|
    h.follows.hostCall placeholder (Act.projects_iff_follows.mp hstart) fun v =>
    Act.projects_iff_follows.mp (hfinish v)

variable {invoke' : Act τ E R} {invoke : Act σ E R}

theorem enter (h : Projects g c' c) (hinvoke : Act.Projects g invoke' invoke) :
    Act.Projects g (c'.enter invoke') (c.enter invoke) :=
  Act.projects_iff_follows.mpr (h.follows.enter (Act.projects_iff_follows.mp hinvoke))

theorem resume (h : Projects g c' c)
    (hinvoke : Act.Projects g invoke' invoke) (value : V) :
    Act.Projects g (c'.resume invoke' value) (c.resume invoke value) :=
  Act.projects_iff_follows.mpr
    (h.follows.resume (Act.projects_iff_follows.mp hinvoke) value)

theorem run (h : Projects g c' c) (hinvoke : Act.Projects g invoke' invoke)
    {await' : F → τ → V × τ} {await : F → σ → V × σ}
    (hawait : ∀ operation t, ((await' operation t).1, g (await' operation t).2) =
      await operation (g t))
    (n : Nat) (t : τ) :
    (c'.run (m := Id) invoke' await' n t).map (Prod.map id g) =
    c.run (m := Id) invoke await n (g t) := by
  rw [Control.run, Control.run, ← h.enter hinvoke]
  generalize (c'.enter invoke').on t = p
  induction n generalizing p with
  | zero => rcases p with ⟨_ | _ | _, _⟩ <;> rfl
  | succ n ih =>
      rcases p with ⟨_ | _ | operation, u⟩
      · rfl
      · rfl
      · have hnext := h.resume hinvoke (await' operation u).1 (await' operation u).2
        change Option.map _
          (c'.drive (m := Id) _ _ n ((c'.resume _ (await' operation u).1).on _)) =
          c.drive (m := Id) _ _ n ((c.resume _ (await operation (g u)).1).on _)
        rw [ih, hnext, ← hawait]

end Projects

theorem projects_noted (c : Control σ E F V) (R : Type) :
    Projects Noted.state (c.noted R) c where
  rawState := .before_modify (fun _ _ => rfl) (Noted.projects_silently _)
  startUnwind := Noted.projects_silently _
  stopUnwind := Noted.projects_silently _
  startRewind := Noted.projects_silently _
  stopRewind := Noted.projects_silently _
  resetData := .behind_modify (fun _ => rfl) (Noted.projects_silently _)
  getBridge := fun _ => rfl
  setBridge := fun _ _ => rfl

theorem projects_body (c : Control σ E F V) (body : Body σ E F V A R) :
    Act.Projects Noted.state (body.noted.run (c.noted R)) (body.run c) := by
  induction body with
  | done value => exact .pure value
  | work act next ih => exact .bind (Noted.projects_silently act) ih
  | call placeholder start finish next ih =>
      refine .bind ?_ ih
      exact (c.projects_noted R).hostCall placeholder
        (Noted.projects_silently start) fun value =>
        .behind_modify (fun _ => rfl) (Noted.projects_silently (finish value))

def notedAdvance (c : Control σ E F V) (body : Body σ E F V A R)
    (await : F → σ → V × σ) (n : Nat) (s : σ) :
    Except (Failure E) (Progress R F) × Noted σ F V R :=
  (c.noted R).advance (c.notedInvoke body) (Noted.await await) n
    (((c.noted R).enter (c.notedInvoke body)).on ⟨s, []⟩)

/-- Without what is written down, a noted run is the run. -/
theorem outcome_notedAdvance (c : Control σ E F V) (body : Body σ E F V A R)
    (await : F → σ → V × σ) (n : Nat) (s : σ) :
    (outcome? (c.notedAdvance body await n s)).map (Prod.map id Noted.state) =
      c.run (m := Id) (body.run c) await n s := by
  rw [notedAdvance, ← drive_eq_outcome_advance]
  refine (c.projects_noted R).run ?_ (fun _ _ => rfl) n ⟨s, []⟩
  exact .behind_modify (fun _ => rfl)
    (.before_modify (fun _ _ => rfl) (c.projects_body body))

end Control

end Resumable
