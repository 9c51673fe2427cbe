import Resumable.Proofs.Bridge.Control
import Resumable.Proofs.Bridge.Driving

namespace Resumable

namespace Control

variable {σ E F V R : Type} {c : Control σ E F V}

/-- Nothing is pending, and the core has just reported the normal state. -/
def Rested (c : Control σ E F V) (s : σ) : Prop :=
  (c.getBridge s).pending = none ∧ ∃ t, c.rawState.on t = (.ok 0, s)

def RestedOnReturn (c : Control σ E F V) : Progress R F → σ → Prop
  | .returned _, s => c.Rested s
  | .waiting _, _ => True

theorem ensures_state (p : σ → Prop) :
    Act.Ensures p c.state
      (fun state s => ∃ t raw, c.rawState.on t = (.ok raw, s) ∧
        SuspendState.ofRaw? raw = some state)
      (fun _ => True) := by
  intro s _
  rcases hraw : c.rawState.on s with ⟨e | raw, t⟩
  · rw [state, Act.on_bind_error hraw]
    trivial
  · rcases hstate : SuspendState.ofRaw? raw with _ | state
    · rw [Control.state, Act.on_bind_ok hraw, hstate]
      trivial
    · rw [state_on hraw hstate]
      exact ⟨s, raw, hraw, hstate⟩

theorem settle_rested (p : σ → Prop) (invoke : Act σ E R) :
    Act.Ensures p (c.settle invoke) c.RestedOnReturn (fun _ => True) := by
  refine .bind (.any p invoke) fun value => ?_
  refine .bind (ensures_state _) fun state => ?_
  cases state with
  | normal =>
      refine .bind (ensures_isIdle _ _) fun idle => ?_
      cases idle with
      | false => exact .violate fun _ _ => trivial
      | true =>
          refine .pure ?_
          rintro s ⟨⟨t, raw, hraw, hstate⟩, hidle⟩
          cases SuspendState.ofRaw?_eq_normal hstate
          exact ⟨hidle rfl, t, hraw⟩
  | unwinding =>
      refine .bind (.any _ _) fun _ => .bind (.any _ _) fun operation => ?_
      exact .pure fun _ _ => trivial
  | rewinding => exact .violate fun _ _ => trivial

theorem enter_rested (p : σ → Prop) (invoke : Act σ E R) :
    Act.Ensures p (c.enter invoke) c.RestedOnReturn (fun _ => True) := by
  refine .bind (.any p _) fun state => ?_
  cases state with
  | normal =>
      refine .bind (.any _ _) fun idle => ?_
      cases idle with
      | false => exact .violate fun _ _ => trivial
      | true => exact .bind (.any _ _) fun _ => settle_rested _ invoke
  | unwinding => exact .violate fun _ _ => trivial
  | rewinding => exact .violate fun _ _ => trivial

theorem resume_rested (p : σ → Prop) (invoke : Act σ E R) (value : V) :
    Act.Ensures p (c.resume invoke value) c.RestedOnReturn (fun _ => True) := by
  refine .bind (.any p _) fun state => ?_
  cases state with
  | normal =>
      exact .bind (.any _ _) fun _ => .bind (.any _ _) fun _ => settle_rested _ invoke
  | unwinding => exact .violate fun _ _ => trivial
  | rewinding => exact .violate fun _ _ => trivial

variable {invoke : Act σ E R} {await : F → σ → Task (V × σ)} {value : R} {s t : σ}

theorem rested_of_drive (fuel : Nat) {p : Except (Failure E) (Progress R F) × σ}
    (hp : Act.Came c.RestedOnReturn (fun _ => True) p)
    (h : (c.drive invoke await fuel p).Ends (some (.ok value, s))) : c.Rested s := by
  obtain ⟨log, hdrives⟩ := drives_of_ends fuel h
  clear h
  induction hdrives with
  | settled => exact hp
  | resumed _ _ ih => exact ih (resume_rested (fun _ => True) invoke _ _ trivial)

theorem rested_of_run (fuel : Nat)
    (h : (c.run invoke await fuel t).Ends (some (.ok value, s))) : c.Rested s :=
  rested_of_drive fuel (enter_rested (fun _ => True) invoke t trivial) h

end Control

end Resumable
