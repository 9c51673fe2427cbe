import Resumable.Proofs.Bridge.Control

namespace Resumable

namespace Control

variable {σ E F V R : Type}

/-- What comes of a host call, and how. -/
inductive Hosted (c : Control σ E F V) (placeholder : R)
    (start : Act σ E (HostStep R F)) (finish : V → Act σ E R) (s : σ) :
    Except (Failure E) R × σ → Prop where
  | unknown {e : Failure E} {t : σ} (hs : c.state.on s = (.error e, t)) :
      Hosted c placeholder start finish s (.error e, t)
  | unwinding {t : σ} (hs : c.state.on s = (.ok .unwinding, t)) :
      Hosted c placeholder start finish s (.error (.violation .unwindingAtHostCall), t)
  | failed {e : Failure E} {t u : σ} (hs : c.state.on s = (.ok .normal, t))
      (hstart : start.on t = (.error e, u)) :
      Hosted c placeholder start finish s (.error e, u)
  | ready {answer : R} {t u : σ} (hs : c.state.on s = (.ok .normal, t))
      (hstart : start.on t = (.ok (.ready answer), u)) :
      Hosted c placeholder start finish s (.ok answer, u)
  | overlapping {operation : F} {pending : Pending F V} {t u : σ}
      (hs : c.state.on s = (.ok .normal, t))
      (hstart : start.on t = (.ok (.suspend operation), u))
      (hbusy : (c.getBridge u).pending = some pending) :
      Hosted c placeholder start finish s
        (.error (.violation .overlappingSuspension), u)
  | parked {operation : F} {r : Except (Failure E) Unit} {t u w : σ}
      (hs : c.state.on s = (.ok .normal, t))
      (hstart : start.on t = (.ok (.suspend operation), u))
      (hidle : (c.getBridge u).pending = none) (hunwind : c.startUnwind.on
        (c.setBridge { c.getBridge u with pending := some (.inFlight operation) } u) =
        (r, w)) :
      Hosted c placeholder start finish s (r.map fun _ => placeholder, w)
  | unresolved {t : σ} (hs : c.state.on s = (.ok .rewinding, t))
      (hnone : ∀ value, (c.getBridge t).pending ≠ some (.resolved value)) :
      Hosted c placeholder start finish s (.error (.violation .nothingResolved), t)
  | unrewound {e : Failure E} {value : V} {t u : σ}
      (hs : c.state.on s = (.ok .rewinding, t))
      (hvalue : (c.getBridge t).pending = some (.resolved value))
      (hstop : c.stopRewind.on (c.setBridge { c.getBridge t with pending := none } t) =
        (.error e, u)) :
      Hosted c placeholder start finish s (.error e, u)
  | rewound {value : V} {t u : σ} (hs : c.state.on s = (.ok .rewinding, t))
      (hvalue : (c.getBridge t).pending = some (.resolved value))
      (hstop : c.stopRewind.on (c.setBridge { c.getBridge t with pending := none } t) =
        (.ok (), u)) :
      Hosted c placeholder start finish s ((finish value).on u)

variable (c : Control σ E F V) (placeholder : R) (start : Act σ E (HostStep R F))
  (finish : V → Act σ E R)

theorem hosted_normal {s t : σ} (hs : c.state.on s = (.ok .normal, t)) :
    c.Hosted placeholder start finish s
      ((c.hostCall placeholder start finish).on s) := by
  rcases hstart : start.on t with ⟨e | answer | operation, u⟩
  · rw [hostCall_start_error hs hstart]
    exact .failed hs hstart
  · rw [hostCall_ready hs hstart]
    exact .ready hs hstart
  · rw [hostCall, Act.on_bind_ok hs]
    change c.Hosted placeholder start finish s ((start >>= _).on t)
    rw [Act.on_bind_ok hstart]
    change c.Hosted placeholder start finish s ((c.park operation >>= _).on u)
    rcases hpending : (c.getBridge u).pending with _ | pending
    · rw [Act.on_bind_ok (park_on hpending)]
      rcases hunwind : c.startUnwind.on
        (c.setBridge { c.getBridge u with pending := some (.inFlight operation) } u)
          with ⟨e | _, w⟩
      · rw [Act.on_bind_error hunwind]
        exact .parked hs hstart hpending hunwind
      · rw [Act.on_bind_ok hunwind]
        exact .parked hs hstart hpending hunwind
    · rw [Act.on_bind_error (park_on_some hpending)]
      exact .overlapping hs hstart hpending

theorem hosted_rewinding {s t : σ} (hs : c.state.on s = (.ok .rewinding, t)) :
    c.Hosted placeholder start finish s
      ((c.hostCall placeholder start finish).on s) := by
  by_cases hvalue : ∃ value, (c.getBridge t).pending = some (.resolved value)
  · obtain ⟨value, hvalue⟩ := hvalue
    rcases hstop : c.stopRewind.on
      (c.setBridge { c.getBridge t with pending := none } t) with
      ⟨e | _, u⟩
    · rw [hostCall, Act.on_bind_ok hs]
      change c.Hosted placeholder start finish s ((c.takeResolved >>= _).on t)
      rw [Act.on_bind_ok (takeResolved_on hvalue), Act.on_bind_error hstop]
      exact .unrewound hs hvalue hstop
    · rw [hostCall_rewinding hs hvalue hstop]
      exact .rewound hs hvalue hstop
  · have hnone : ∀ value, (c.getBridge t).pending ≠ some (.resolved value) :=
      not_exists.mp hvalue
    rw [hostCall, Act.on_bind_ok hs]
    change c.Hosted placeholder start finish s ((c.takeResolved >>= _).on t)
    rw [Act.on_bind_error (takeResolved_on_ne hnone)]
    exact .unresolved hs hnone

theorem hosted (s : σ) :
    c.Hosted placeholder start finish s
      ((c.hostCall placeholder start finish).on s) := by
  rcases hs : c.state.on s with ⟨e | _ | _ | _, t⟩
  · rw [hostCall, Act.on_bind_error hs]
    exact .unknown hs
  · exact c.hosted_normal placeholder start finish hs
  · rw [hostCall, Act.on_bind_ok hs]
    exact .unwinding hs
  · exact c.hosted_rewinding placeholder start finish hs

end Control

end Resumable
