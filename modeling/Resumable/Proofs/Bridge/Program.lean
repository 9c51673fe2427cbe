import Resumable.Proofs.Bridge.Control

namespace Resumable

/-- Host calls, one after another, and a value. The first half of a call works on the
host state `H` and answers or names an operation to await, the second half gets what
the operation came to. -/
inductive Program (H E F V A R : Type) where
  | done (value : R)
  | call (placeholder : A) (start : Act H E (HostStep A F)) (finish : V → Act H E A)
      (next : A → Program H E F V A R)

inductive HostEvent (F V : Type) where
  | reset
  | started
  | awaited (operation : F) (value : V)
  | finished (value : V)

/-- A call as the export sees it: answered or failed at once, or awaited. -/
inductive LogicalCall (F V : Type) where
  | immediate
  | awaited (operation : F) (value : V)

/-- An instrumented core beside its host. `answers` are those of the completed calls,
which an unwind saves and a rewind goes by. -/
structure Frame (H F V A : Type) where
  raw : Int32
  bridge : Bridge F V
  host : H
  answers : List A
  journal : List (HostEvent F V)

structure DirectRun (H E F V R : Type) where
  result : Except (Failure E) R
  host : H
  calls : List (LogicalCall F V)

namespace LogicalCall

variable {F V : Type}

def isAwaited : LogicalCall F V → Bool
  | immediate => false
  | awaited _ _ => true

def events : LogicalCall F V → List (HostEvent F V)
  | immediate => [.started]
  | awaited operation value => [.started, .awaited operation value, .finished value]

end LogicalCall

namespace DirectRun

variable {H E F V R : Type}

def suspensions (d : DirectRun H E F V R) : Nat := d.calls.countP LogicalCall.isAwaited

def events (d : DirectRun H E F V R) : List (HostEvent F V) :=
  d.calls.flatMap LogicalCall.events

def behind (call : LogicalCall F V) (d : DirectRun H E F V R) : DirectRun H E F V R :=
  { d with calls := call :: d.calls }

@[simp]
theorem suspensions_behind_immediate (d : DirectRun H E F V R) :
    (d.behind .immediate).suspensions = d.suspensions := by
  simp [behind, suspensions, LogicalCall.isAwaited]

@[simp]
theorem suspensions_behind_awaited (operation : F) (value : V)
    (d : DirectRun H E F V R) :
    (d.behind (.awaited operation value)).suspensions = d.suspensions + 1 := by
  simp [behind, suspensions, List.countP_cons, LogicalCall.isAwaited]

@[simp]
theorem host_behind (call : LogicalCall F V) (d : DirectRun H E F V R) :
    (d.behind call).host = d.host := rfl

@[simp]
theorem events_behind (call : LogicalCall F V) (d : DirectRun H E F V R) :
    (d.behind call).events = call.events ++ d.events := by
  simp [behind, events]

end DirectRun

namespace Frame

variable {H E F V A α : Type}

def note (e : HostEvent F V) : Act (Frame H F V A) E Unit :=
  .modify fun s => { s with journal := s.journal ++ [e] }

def setRaw (raw : Int32) : Act (Frame H F V A) E Unit :=
  .modify fun s => { s with raw := raw }

def onHost (a : Act H E α) : Act (Frame H F V A) E α :=
  .zoom Frame.host (fun host s => { s with host := host }) a

def control : Control (Frame H F V A) E F V where
  rawState := .read Frame.raw
  startUnwind := setRaw 1
  stopUnwind := setRaw 0
  startRewind := setRaw 2
  stopRewind := setRaw 0
  resetData := note .reset
  getBridge := Frame.bridge
  setBridge := fun b s => { s with bridge := b }

def await (wait : F → H → V × H) (operation : F) (s : Frame H F V A) :
    V × Frame H F V A :=
  let (value, host) := wait operation s.host
  (value, { s with host := host, journal := s.journal ++ [.awaited operation value] })

variable {s : Frame H F V A}

theorem state_on {raw : Int32} {state : SuspendState} (hraw : s.raw = raw)
    (h : SuspendState.ofRaw? raw = some state) :
    (control : Control (Frame H F V A) E F V).state.on s = (.ok state, s) := by
  subst hraw
  exact Control.state_on (Act.on_read _ _) h

def record (s : Frame H F V A) (h : H) (e : HostEvent F V) : Frame H F V A :=
  { s with host := h, journal := s.journal ++ [e] }

def complete (s : Frame H F V A) (a : A) : Frame H F V A :=
  { s with answers := s.answers ++ [a] }

def served (s : Frame H F V A) : Frame H F V A :=
  { s with bridge := ⟨none, s.bridge.suspensions + 1⟩ }

theorem note_onHost_on {e : HostEvent F V} {a : Act H E α}
    {r : Except (Failure E) α} {h : H} (ha : a.on s.host = (r, h)) :
    (do note e; onHost a : Act (Frame H F V A) E α).on s = (r, s.record h e) := by
  rw [note, Act.on_bind_ok (Act.on_modify _ _)]
  change ((a.on s.host).1, s.record (a.on s.host).2 e) = _
  rw [ha]

theorem await_on {wait : F → H → V × H} {operation : F} {value : V} {h : H}
    (hwait : wait operation s.host = (value, h)) :
    await wait operation s = (value, s.record h (.awaited operation value)) := by
  rw [await, hwait]
  rfl

def after {R : Type} (s : Frame H F V A) (d : DirectRun H E F V R)
    (answers : List A) : Frame H F V A where
  raw := 0
  bridge := ⟨none, s.bridge.suspensions + d.suspensions⟩
  host := d.host
  answers := answers
  journal := s.journal ++ d.events

theorem after_immediate {R : Type} (d : DirectRun H E F V R) (answers : List A)
    (h : H) (a : A) : ((s.record h .started).complete a).after d answers =
    s.after (d.behind .immediate) answers := by
  simp [after, record, complete, LogicalCall.events]

theorem after_awaited {R : Type} (d : DirectRun H E F V R)
    (answers : List A) (h h₁ h₂ : H) (operation : F) (value : V) (a : A) :
    (((((s.record h .started).record h₁ (.awaited operation value)).served).record h₂
        (.finished value)).complete a).after d answers =
      s.after (d.behind (.awaited operation value)) answers := by
  simp [after, record, complete, served, LogicalCall.events,
    Nat.add_assoc, Nat.add_comm]

end Frame

namespace Program

variable {H E F V A R : Type}

def skip : List A → Program H E F V A R → Program H E F V A R
  | [], p => p
  | _ :: _, .done value => .done value
  | a :: rest, .call _ _ _ next => skip rest (next a)

/-- Run a program up to its end, or up to a call that leaves the core unwinding. -/
def run (unwound : R) : Program H E F V A R → Act (Frame H F V A) E R
  | .done value => return value
  | .call placeholder start finish next => do
      let a ← Frame.control.hostCall placeholder
        (do Frame.note .started; Frame.onHost start)
        (fun value => do Frame.note (.finished value); Frame.onHost (finish value))
      if (← Act.read Frame.raw) = 1 then
        return unwound
      else
        Act.modify fun s => { s with answers := s.answers ++ [a] }
        run unwound (next a)

/-- The export: in the normal state it begins anew, else it goes on behind the
completed calls. -/
def invoke (unwound : R) (p : Program H E F V A R) : Act (Frame H F V A) E R := do
  if (← Act.read Frame.raw) = 0 then Act.modify fun s => { s with answers := [] }
  let answers ← Act.read Frame.answers
  (p.skip answers).run unwound

/-- Run a program as if the core could wait. -/
def direct (wait : F → H → V × H) : Program H E F V A R → H → DirectRun H E F V R
  | .done value, h => ⟨.ok value, h, []⟩
  | .call _ start finish next, h =>
      match start.on h with
      | (.error e, h) => ⟨.error e, h, [.immediate]⟩
      | (.ok (.ready a), h) => (direct wait (next a) h).behind .immediate
      | (.ok (.suspend operation), h) =>
          let (value, h) := wait operation h
          match (finish value).on h with
          | (.error e, h) => ⟨.error e, h, [.awaited operation value]⟩
          | (.ok a, h) => (direct wait (next a) h).behind (.awaited operation value)

variable {s : Frame H F V A} {unwound : R}

theorem invoke_on_normal (p : Program H E F V A R) (hraw : s.raw = 0) :
    (p.invoke unwound).on s = (p.run unwound).on { s with answers := [] } := by
  rw [invoke, Act.on_bind_ok (Act.on_read _ _), if_pos hraw,
    Act.on_bind_ok (Act.on_modify _ _), Act.on_bind_ok (Act.on_read _ _)]
  rfl

theorem invoke_on_rewinding (p : Program H E F V A R) (hraw : s.raw = 2) :
    (p.invoke unwound).on s = ((p.skip s.answers).run unwound).on s := by
  rw [invoke, Act.on_bind_ok (Act.on_read _ _), if_neg (by rw [hraw]; decide)]
  rfl

section Call

variable {wait : F → H → V × H} {placeholder : A} {start : Act H E (HostStep A F)}
  {finish : V → Act H E A} {next : A → Program H E F V A R}

theorem direct_start_error {e : Failure E} {h h' : H}
    (hstart : start.on h = (.error e, h')) :
    (call placeholder start finish next).direct wait h =
    ⟨.error e, h', [.immediate]⟩ := by
  rw [direct, hstart]

theorem direct_ready {a : A} {h h' : H} (hstart : start.on h = (.ok (.ready a), h')) :
    (call placeholder start finish next).direct wait h =
      ((next a).direct wait h').behind .immediate := by
  rw [direct, hstart]

theorem direct_finish_error {operation : F} {value : V} {e : Failure E} {h h₁ h₂ h₃ : H}
    (hstart : start.on h = (.ok (.suspend operation), h₁))
    (hwait : wait operation h₁ = (value, h₂))
    (hfinish : (finish value).on h₂ = (.error e, h₃)) :
    (call placeholder start finish next).direct wait h =
      ⟨.error e, h₃, [.awaited operation value]⟩ := by
  rw [direct, hstart]
  simp only [hwait, hfinish]

theorem direct_finished {operation : F} {value : V} {a : A} {h h₁ h₂ h₃ : H}
    (hstart : start.on h = (.ok (.suspend operation), h₁))
    (hwait : wait operation h₁ = (value, h₂))
    (hfinish : (finish value).on h₂ = (.ok a, h₃)) :
    (call placeholder start finish next).direct wait h =
      ((next a).direct wait h₃).behind (.awaited operation value) := by
  rw [direct, hstart]
  simp only [hwait, hfinish]

theorem skip_append_answer {p : Program H E F V A R} {answers : List A}
    (h : p.skip answers = call placeholder start finish next) (a : A) :
    p.skip (answers ++ [a]) = next a := by
  induction answers generalizing p with
  | nil =>
      rw [skip] at h
      subst h
      rfl
  | cons b answers ih =>
      cases p with
      | done value => cases h
      | call _ _ _ _ => exact ih h

end Call

end Program

end Resumable
