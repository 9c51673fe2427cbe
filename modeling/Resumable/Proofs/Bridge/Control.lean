import Resumable.Proofs.Bridge.Act

namespace Resumable

namespace SuspendState

theorem ofRaw?_eq_normal {raw : Int32} (h : ofRaw? raw = some .normal) : raw = 0 := by
  unfold ofRaw? at h
  split at h
  · assumption
  · split at h
    · cases h
    · split at h <;> cases h

end SuspendState

namespace Control

variable {σ E F V R : Type} {c : Control σ E F V} {s t u w : σ}

theorem state_on {raw : Int32} {state : SuspendState}
    (h : c.rawState.on s = (.ok raw, t))
    (hraw : SuspendState.ofRaw? raw = some state) : c.state.on s = (.ok state, t) := by
  rw [Control.state, Act.on_bind_ok h, hraw]
  rfl

theorem park_on {operation : F} (h : (c.getBridge s).pending = none) :
    (c.park operation).on s =
      (.ok (), c.setBridge
        { c.getBridge s with pending := some (.inFlight operation) } s) := by
  rw [park, Act.on_bind_ok (Act.on_read _ _), Bridge.park?, h]
  rfl

theorem park_on_some {operation : F} {pending : Pending F V}
    (h : (c.getBridge s).pending = some pending) :
    (c.park operation).on s = (.error (.violation .overlappingSuspension), s) := by
  rw [park, Act.on_bind_ok (Act.on_read _ _), Bridge.park?, h]
  rfl

theorem takeInFlight_on {operation : F}
    (h : (c.getBridge s).pending = some (.inFlight operation)) : c.takeInFlight.on s =
      (.ok operation, c.setBridge { c.getBridge s with pending := none } s) := by
  rw [takeInFlight, Act.on_bind_ok (Act.on_read _ _), Bridge.takeInFlight?, h]
  rfl

theorem takeInFlight_on_ne
    (h : ∀ operation, (c.getBridge s).pending ≠ some (.inFlight operation)) :
    c.takeInFlight.on s = (.error (.violation .nothingInFlight), s) := by
  rw [takeInFlight, Act.on_bind_ok (Act.on_read _ _), Bridge.takeInFlight?]
  rcases hp : (c.getBridge s).pending with _ | operation | value
  · rfl
  · exact absurd hp (h operation)
  · rfl

theorem takeResolved_on {value : V}
    (h : (c.getBridge s).pending = some (.resolved value)) : c.takeResolved.on s =
    (.ok value, c.setBridge { c.getBridge s with pending := none } s) := by
  rw [takeResolved, Act.on_bind_ok (Act.on_read _ _), Bridge.takeResolved?, h]
  rfl

theorem takeResolved_on_ne
    (h : ∀ value, (c.getBridge s).pending ≠ some (.resolved value)) :
    c.takeResolved.on s = (.error (.violation .nothingResolved), s) := by
  rw [takeResolved, Act.on_bind_ok (Act.on_read _ _), Bridge.takeResolved?]
  rcases hp : (c.getBridge s).pending with _ | operation | value
  · rfl
  · rfl
  · exact absurd hp (h value)

theorem ensures_isIdle (p x : σ → Prop) :
    Act.Ensures p (c.isIdle : Act σ E Bool)
      (fun idle s => p s ∧ (idle = true → (c.getBridge s).pending = none)) x :=
  .read fun _ hs => ⟨hs, Option.isNone_iff_eq_none.mp⟩

section HostCall

variable {placeholder : R} {start : Act σ E (HostStep R F)} {finish : V → Act σ E R}

theorem hostCall_ready {answer : R} (hs : c.state.on s = (.ok .normal, t))
    (h : start.on t = (.ok (.ready answer), u)) :
    (c.hostCall placeholder start finish).on s = (.ok answer, u) := by
  rw [hostCall, Act.on_bind_ok hs]
  change (start >>= _).on t = _
  rw [Act.on_bind_ok h]
  rfl

theorem hostCall_start_error {e : Failure E} (hs : c.state.on s = (.ok .normal, t))
    (h : start.on t = (.error e, u)) :
    (c.hostCall placeholder start finish).on s = (.error e, u) := by
  rw [hostCall, Act.on_bind_ok hs]
  change (start >>= _).on t = _
  rw [Act.on_bind_error h]

theorem hostCall_suspend {operation : F} (hs : c.state.on s = (.ok .normal, t))
    (h : start.on t = (.ok (.suspend operation), u))
    (hidle : (c.getBridge u).pending = none) (hunwind : c.startUnwind.on
      (c.setBridge { c.getBridge u with pending := some (.inFlight operation) } u) =
      (.ok (), w)) :
    (c.hostCall placeholder start finish).on s = (.ok placeholder, w) := by
  rw [hostCall, Act.on_bind_ok hs]
  change (start >>= _).on t = _
  rw [Act.on_bind_ok h]
  change (c.park operation >>= _).on u = _
  rw [Act.on_bind_ok (park_on hidle), Act.on_bind_ok hunwind]
  rfl

theorem hostCall_rewinding {value : V} (hs : c.state.on s = (.ok .rewinding, t))
    (hvalue : (c.getBridge t).pending = some (.resolved value))
    (hrewound : c.stopRewind.on
      (c.setBridge { c.getBridge t with pending := none } t) = (.ok (), u)) :
    (c.hostCall placeholder start finish).on s = (finish value).on u := by
  rw [hostCall, Act.on_bind_ok hs]
  change (c.takeResolved >>= _).on t = _
  rw [Act.on_bind_ok (takeResolved_on hvalue), Act.on_bind_ok hrewound]

end HostCall

section Export

variable {invoke : Act σ E R} {value : R}

theorem settle_returned (h : invoke.on s = (.ok value, t))
    (hs : c.state.on t = (.ok .normal, u)) (hidle : (c.getBridge u).pending = none) :
    (c.settle invoke).on s = (.ok (.returned value), u) := by
  rw [settle, Act.on_bind_ok h, Act.on_bind_ok hs]
  change (c.isIdle >>= _).on u = _
  rw [isIdle, Act.on_bind_ok (Act.on_read _ _), Bridge.isIdle, hidle]
  rfl

theorem settle_waiting {operation : F} (h : invoke.on s = (.ok value, t))
    (hs : c.state.on t = (.ok .unwinding, u)) (hstop : c.stopUnwind.on u = (.ok (), w))
    (hparked : (c.getBridge w).pending = some (.inFlight operation)) :
    (c.settle invoke).on s =
      (.ok (.waiting operation),
        c.setBridge { c.getBridge w with pending := none } w) := by
  rw [settle, Act.on_bind_ok h, Act.on_bind_ok hs]
  change (c.stopUnwind >>= _).on u = _
  rw [Act.on_bind_ok hstop, Act.on_bind_ok (takeInFlight_on hparked)]
  rfl

theorem settle_error {e : Failure E} (h : invoke.on s = (.error e, t)) :
    (c.settle invoke).on s = (.error e, t) := by
  rw [settle, Act.on_bind_error h]

theorem settle_congr {invoke' : Act σ E R} (h : invoke.on s = invoke'.on t) :
    (c.settle invoke).on s = (c.settle invoke').on t := by
  rw [settle, settle, Act.on_bind, Act.on_bind, h]

theorem enter_on (hs : c.state.on s = (.ok .normal, t))
    (hidle : (c.getBridge t).pending = none)
    (hreset : c.resetData.on t = (.ok (), u)) :
    (c.enter invoke).on s = (c.settle invoke).on u := by
  rw [enter, Act.on_bind_ok hs]
  change (c.isIdle >>= _).on t = _
  rw [isIdle, Act.on_bind_ok (Act.on_read _ _), Bridge.isIdle, hidle]
  change (c.resetData >>= _).on t = _
  rw [Act.on_bind_ok hreset]

theorem resume_on {value : V} (hs : c.state.on s = (.ok .normal, t))
    (hrewind : c.startRewind.on (c.setBridge ((c.getBridge t).resolve value) t) =
      (.ok (), u)) :
    (c.resume invoke value).on s = (c.settle invoke).on u := by
  rw [resume, Act.on_bind_ok hs]
  change (c.resolve value >>= _).on t = _
  rw [resolve, Act.on_bind_ok (Act.on_modify _ _), Act.on_bind_ok hrewind]

end Export

section Ensures

variable {invoke : Act σ E R} {p q x : σ → Prop} {r : Progress R F → σ → Prop}

/-- What an invocation that is settled is sure of is sure behind a fresh entry. -/
theorem ensures_enter_of_settle (hstate : Act.Ensures p c.state (fun _ => p) x)
    (hrefused : ∀ s, p s → x s) (hreset : Act.Ensures p c.resetData (fun _ => q) x)
    (hsettle : Act.Ensures q (c.settle invoke) r x) :
    Act.Ensures p (c.enter invoke) r x := by
  refine .bind hstate fun state => ?_
  cases state with
  | normal =>
      refine .bind ((ensures_isIdle p x).mono (fun _ => id) (fun _ _ h => h.1)
        fun _ => id) fun idle => ?_
      cases idle with
      | false => exact .violate hrefused
      | true => exact .bind hreset fun _ => hsettle
  | unwinding => exact .violate hrefused
  | rewinding => exact .violate hrefused

theorem ensures_resume_of_settle {value : V}
    (hstate : Act.Ensures p c.state (fun _ => p) x) (hrefused : ∀ s, p s → x s)
    (hresolve : ∀ s, p s → p (c.setBridge ((c.getBridge s).resolve value) s))
    (hrewind : Act.Ensures p c.startRewind (fun _ => q) x)
    (hsettle : Act.Ensures q (c.settle invoke) r x) :
    Act.Ensures p (c.resume invoke value) r x := by
  refine .bind hstate fun state => ?_
  cases state with
  | normal =>
      exact .bind (.modify (q := fun _ => p) hresolve) fun _ =>
        .bind hrewind fun _ => hsettle
  | unwinding => exact .violate hrefused
  | rewinding => exact .violate hrefused

end Ensures

section Drive

variable {invoke : Act σ E R} {await : F → σ → V × σ}

theorem drive_error (fuel : Nat) (e : Failure E) (s : σ) :
    c.drive (m := Id) invoke await fuel (.error e, s) = some (.error e, s) := by
  cases fuel <;> rfl

theorem drive_returned (fuel : Nat) (value : R) (s : σ) :
    c.drive (m := Id) invoke await fuel (.ok (.returned value), s) =
    some (.ok value, s) := by
  cases fuel <;> rfl

theorem drive_waiting {operation : F} {s t : σ} {value : V}
    (h : await operation s = (value, t)) (fuel : Nat) :
    c.drive (m := Id) invoke await (fuel + 1) (.ok (.waiting operation), s) =
      c.drive (m := Id) invoke await fuel ((c.resume invoke value).on t) := by
  change c.drive (m := Id) invoke await fuel
    ((c.resume invoke (await operation s).1).on (await operation s).2) = _
  rw [h]

end Drive

end Control

end Resumable
