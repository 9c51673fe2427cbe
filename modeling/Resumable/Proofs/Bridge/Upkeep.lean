import Resumable.Proofs.Bridge.Act
import Resumable.Proofs.Bridge.Driving

namespace Resumable

namespace Act

variable {σ E α β : Type} {p : σ → Prop}

def Maintains (p : σ → Prop) (a : Act σ E α) : Prop := ∀ s, p s → p (a.on s).2

theorem Maintains.pure (a : α) : Maintains p (Pure.pure a : Act σ E α) := fun _ h => h

theorem Maintains.violate (v : Violation) : Maintains p (violate v : Act σ E α) :=
  fun _ h => h

theorem Maintains.fail (e : E) : Maintains p (fail e : Act σ E α) := fun _ h => h

theorem Maintains.read (f : σ → α) : Maintains p (read f : Act σ E α) := fun _ h => h

theorem Maintains.modify {f : σ → σ} (hf : ∀ s, p s → p (f s)) :
    Maintains p (modify f : Act σ E Unit) :=
  hf

theorem Maintains.bind {a : Act σ E α} {f : α → Act σ E β} (ha : Maintains p a)
    (hf : ∀ v, Maintains p (f v)) : Maintains p (a >>= f) := by
  intro s hs
  have h := ha s hs
  rw [on_bind]
  rcases hr : a.on s with ⟨e | v, t⟩
  · rw [hr] at h
    exact h
  · rw [hr] at h
    exact hf v t h

theorem Maintains.ite {c : Prop} [Decidable c] {a b : Act σ E α} (ha : Maintains p a)
    (hb : Maintains p b) : Maintains p (if c then a else b) := by
  split
  · exact ha
  · exact hb

theorem Maintains.ensures {a : Act σ E α} (h : Maintains p a) :
    Ensures p a (fun _ => p) p := by
  intro s hs
  have h := h s hs
  rcases hr : a.on s with ⟨e | v, t⟩ <;> rw [hr] at h <;> exact h

end Act

namespace Control

variable {σ E F V R : Type}

/-- A condition that neither the controls nor a change of the slot can break. -/
structure Upholds (c : Control σ E F V) (p : σ → Prop) : Prop where
  rawState : c.rawState.Maintains p
  startUnwind : c.startUnwind.Maintains p
  stopUnwind : c.stopUnwind.Maintains p
  startRewind : c.startRewind.Maintains p
  stopRewind : c.stopRewind.Maintains p
  resetData : c.resetData.Maintains p
  setBridge : ∀ b s, p s → p (c.setBridge b s)

variable {c : Control σ E F V} {p : σ → Prop}

theorem maintains_state_of_rawState (h : c.rawState.Maintains p) :
    c.state.Maintains p := by
  refine .bind h fun raw => ?_
  split
  · exact .pure _
  · exact .violate _

namespace Upholds

theorem state (h : c.Upholds p) : c.state.Maintains p :=
  maintains_state_of_rawState h.rawState

theorem isIdle : c.isIdle.Maintains p := .read _

theorem park (h : c.Upholds p) (operation : F) : (c.park operation).Maintains p := by
  refine .bind (.read _) fun b => ?_
  split
  · exact .modify (h.setBridge _)
  · exact .violate _

theorem takeInFlight (h : c.Upholds p) : c.takeInFlight.Maintains p := by
  refine .bind (.read _) fun b => ?_
  split
  · exact .bind (.modify (h.setBridge _)) fun _ => .pure _
  · exact .violate _

theorem takeResolved (h : c.Upholds p) : c.takeResolved.Maintains p := by
  refine .bind (.read _) fun b => ?_
  split
  · exact .bind (.modify (h.setBridge _)) fun _ => .pure _
  · exact .violate _

theorem resolve (h : c.Upholds p) (value : V) : (c.resolve value).Maintains p :=
  .modify fun s => h.setBridge _ s

theorem hostCall (h : c.Upholds p) (placeholder : R) {start : Act σ E (HostStep R F)}
    {finish : V → Act σ E R} (hstart : start.Maintains p)
    (hfinish : ∀ v, (finish v).Maintains p) :
    (c.hostCall placeholder start finish).Maintains p := by
  refine .bind h.state fun state => ?_
  cases state with
  | normal =>
      refine .bind hstart fun step => ?_
      cases step with
      | ready answer => exact .pure _
      | suspend operation =>
          exact .bind (h.park operation) fun _ => .bind h.startUnwind fun _ => .pure _
  | rewinding =>
      exact .bind h.takeResolved fun value => .bind h.stopRewind fun _ => hfinish value
  | unwinding => exact .violate _

variable {invoke : Act σ E R}

theorem settle (h : c.Upholds p) (hinvoke : invoke.Maintains p) :
    (c.settle invoke).Maintains p := by
  refine .bind hinvoke fun value => .bind h.state fun state => ?_
  cases state with
  | normal =>
      refine .bind isIdle fun idle => ?_
      exact .ite (.pure _) (.violate _)
  | unwinding => exact .bind h.stopUnwind fun _ => .bind h.takeInFlight fun _ => .pure _
  | rewinding => exact .violate _

theorem enter (h : c.Upholds p) (hinvoke : invoke.Maintains p) :
    (c.enter invoke).Maintains p := by
  refine .bind h.state fun state => ?_
  cases state with
  | normal =>
      refine .bind isIdle fun idle => ?_
      cases idle with
      | false => exact .violate _
      | true => exact .bind h.resetData fun _ => h.settle hinvoke
  | unwinding => exact .violate _
  | rewinding => exact .violate _

theorem resume (h : c.Upholds p) (hinvoke : invoke.Maintains p) (value : V) :
    (c.resume invoke value).Maintains p := by
  refine .bind h.state fun state => ?_
  cases state with
  | normal =>
      exact .bind (h.resolve value) fun _ => .bind h.startRewind fun _ =>
        h.settle hinvoke
  | unwinding => exact .violate _
  | rewinding => exact .violate _

variable {await : F → σ → Task (V × σ)} {r : Except (Failure E) R} {s t : σ}

theorem drive (h : c.Upholds p) (hinvoke : invoke.Maintains p)
    (hawait : ∀ operation s value t, p s → (await operation s).Ends (value, t) → p t)
    (fuel : Nat) {progress : Except (Failure E) (Progress R F) × σ} (hp : p progress.2)
    (ends : (c.drive invoke await fuel progress).Ends (some (r, t))) : p t := by
  obtain ⟨log, hdrives⟩ := drives_of_ends fuel ends
  clear ends
  induction hdrives with
  | settled => exact hp
  | resumed hanswer _ ih =>
      exact ih (h.resume hinvoke _ _ (hawait _ _ _ _ hp hanswer.ends))

theorem run (h : c.Upholds p) (hinvoke : invoke.Maintains p)
    (hawait : ∀ operation s value t, p s → (await operation s).Ends (value, t) → p t)
    (fuel : Nat) (hp : p s) (ends : (c.run invoke await fuel s).Ends (some (r, t))) :
    p t :=
  h.drive hinvoke hawait fuel (h.enter hinvoke s hp) ends

end Upholds

end Control

end Resumable
