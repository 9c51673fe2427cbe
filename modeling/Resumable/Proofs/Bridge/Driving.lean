import Resumable.Bridge.Basic
import Resumable.Proofs.Service.Exchanges

namespace Resumable

namespace Control

variable {σ E F V R : Type}

inductive Drives (c : Control σ E F V) (invoke : Act σ E R)
    (await : F → σ → Task (V × σ)) (r : Except (Failure E) R) (t : σ) :
    Except (Failure E) (Progress R F) × σ → List Exchange → Prop where
  | settled : Drives c invoke await r t (r.map .returned, t) []
  | resumed {operation : F} {value : V} {s s' : σ} {log log' : List Exchange}
      (hawait : (await operation s).Runs log (value, s'))
      (h : Drives c invoke await r t ((c.resume invoke value).on s') log') :
      Drives c invoke await r t (.ok (.waiting operation), s) (log ++ log')

variable {c : Control σ E F V} {invoke : Act σ E R} {await : F → σ → Task (V × σ)}
  {r : Except (Failure E) R} {t : σ}

theorem drives_of_runs (fuel : Nat) {progress : Except (Failure E) (Progress R F) × σ}
    {log : List Exchange}
    (h : (c.drive invoke await fuel progress).Runs log (some (r, t))) :
    c.Drives invoke await r t progress log := by
  induction fuel generalizing progress log with
  | zero =>
      rcases progress with ⟨_ | _ | operation, s⟩
      · obtain ⟨rfl, h⟩ := h
        cases h
        exact .settled
      · obtain ⟨rfl, h⟩ := h
        cases h
        exact .settled
      · cases h.2
  | succ fuel ih =>
      rcases progress with ⟨_ | _ | operation, s⟩
      · obtain ⟨rfl, h⟩ := h
        cases h
        exact .settled
      · obtain ⟨rfl, h⟩ := h
        cases h
        exact .settled
      · obtain ⟨⟨value, s'⟩, log₁, log₂, rfl, hawait, h⟩ := Task.runs_bind.mp h
        exact .resumed hawait (ih h)

theorem drives_of_ends (fuel : Nat) {progress : Except (Failure E) (Progress R F) × σ}
    (h : (c.drive invoke await fuel progress).Ends (some (r, t))) :
    ∃ log, c.Drives invoke await r t progress log := by
  obtain ⟨log, h⟩ := h.runs
  exact ⟨log, drives_of_runs fuel h⟩

end Control

end Resumable
