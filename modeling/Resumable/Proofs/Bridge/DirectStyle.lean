import Resumable.Proofs.Bridge.Program

/-!
# Suspended and direct execution

Nobody can tell a program that is driven through the bridge from one that is run
directly: not by the result, nor by the state of the host, nor by what was started,
awaited and finished, and in which order. The induction is on the program that is left
behind the completed calls, and what carries it is that the core, whenever it has
unwound, holds exactly their answers.
-/

namespace Resumable

namespace Program

variable {H E F V A R : Type} {unwound : R} {s : Frame H F V A}

section Call

variable {placeholder : A} {start : Act H E (HostStep A F)} {finish : V → Act H E A}
  {next : A → Program H E F V A R}

theorem run_call_completed {a : A} {t : Frame H F V A}
    (h : (Frame.control.hostCall placeholder
        (do Frame.note .started; Frame.onHost start)
        (fun value =>
          do Frame.note (.finished value); Frame.onHost (finish value))).on s =
      (.ok a, t)) (hraw : t.raw = 0) :
    ((call placeholder start finish next).run unwound).on s =
      ((next a).run unwound).on (t.complete a) := by
  rw [run, Act.on_bind_ok h, Act.on_bind_ok (Act.on_read _ _),
    if_neg (by rw [hraw]; decide), Act.on_bind_ok (Act.on_modify _ _)]
  rfl

theorem run_ready {a : A} {h : H} (hraw : s.raw = 0)
    (hstart : start.on s.host = (.ok (.ready a), h)) :
    ((call placeholder start finish next).run unwound).on s =
      ((next a).run unwound).on ((s.record h .started).complete a) :=
  run_call_completed
    (Control.hostCall_ready (Frame.state_on hraw rfl) (Frame.note_onHost_on hstart))
      hraw

theorem run_start_error {e : Failure E} {h : H} (hraw : s.raw = 0)
    (hstart : start.on s.host = (.error e, h)) :
    ((call placeholder start finish next).run unwound).on s =
    (.error e, s.record h .started) :=
  Act.on_bind_error
    (Control.hostCall_start_error (Frame.state_on hraw rfl)
      (Frame.note_onHost_on hstart))

/-- A call that has to wait leaves its operation in the slot and the core unwinding. -/
theorem run_suspend {operation : F} {h : H} (hraw : s.raw = 0)
    (hidle : s.bridge.pending = none)
    (hstart : start.on s.host = (.ok (.suspend operation), h)) :
    ((call placeholder start finish next).run unwound).on s =
      (.ok unwound,
        { s.record h .started with
          raw := 1,
          bridge := { s.bridge with pending := some (.inFlight operation) } }) := by
  rw [run, Act.on_bind_ok (Control.hostCall_suspend (Frame.state_on hraw rfl)
    (Frame.note_onHost_on hstart) hidle (Act.on_modify _ _))]
  rfl

/-- Once it has been settled, a call that has to wait has done nothing but start. -/
theorem settle_suspend {operation : F} {h : H} (hraw : s.raw = 0)
    (hidle : s.bridge.pending = none)
    (hstart : start.on s.host = (.ok (.suspend operation), h)) :
    (Frame.control.settle ((call placeholder start finish next).run unwound)).on s =
      (.ok (.waiting operation), s.record h .started) := by
  rw [Control.settle_waiting (run_suspend hraw hidle hstart) (Frame.state_on rfl rfl)
    (Act.on_modify _ _) rfl]
  obtain ⟨raw, ⟨pending, suspensions⟩, host, answers, journal⟩ := s
  cases hraw
  cases hidle
  rfl

/-- The suspended call, entered again, finishes with the value left for it. -/
theorem hostCall_rewound {value : V} {r : Except (Failure E) A} {h : H}
    (hfinish : (finish value).on s.host = (r, h)) :
    (Frame.control.hostCall placeholder
        (do Frame.note .started; Frame.onHost start)
        (fun value => do Frame.note (.finished value); Frame.onHost (finish value))).on
        { s with raw := 2, bridge := s.bridge.resolve value } =
      (r, { s.served.record h (.finished value) with raw := 0 }) := by
  rw [Control.hostCall_rewinding (Frame.state_on rfl rfl) rfl (Act.on_modify _ _)]
  exact Frame.note_onHost_on hfinish

theorem resume_on (p : Program H E F V A R) (hraw : s.raw = 0) (value : V) :
    (Frame.control.resume (p.invoke unwound) value).on s =
      (Frame.control.settle ((p.skip s.answers).run unwound)).on
        { s with raw := 2, bridge := s.bridge.resolve value } := by
  rw [Control.resume_on (Frame.state_on hraw rfl) (Act.on_modify _ _)]
  exact Control.settle_congr (invoke_on_rewinding p rfl)

theorem resume_finish_error {p : Program H E F V A R} {value : V}
    {e : Failure E} {h : H}
    (hq : p.skip s.answers = call placeholder start finish next) (hraw : s.raw = 0)
    (hfinish : (finish value).on s.host = (.error e, h)) :
    (Frame.control.resume (p.invoke unwound) value).on s =
      (.error e, s.served.record h (.finished value)) := by
  have hrun : ((call placeholder start finish next).run unwound).on
      { s with raw := 2, bridge := s.bridge.resolve value } =
        (.error e, { s.served.record h (.finished value) with raw := 0 }) :=
    Act.on_bind_error (hostCall_rewound hfinish)
  rw [resume_on p hraw, hq, Control.settle_error hrun, ← hraw]
  rfl

theorem resume_finished {p : Program H E F V A R} {value : V} {a : A} {h : H}
    (hq : p.skip s.answers = call placeholder start finish next) (hraw : s.raw = 0)
    (hfinish : (finish value).on s.host = (.ok a, h)) :
    (Frame.control.resume (p.invoke unwound) value).on s =
      (Frame.control.settle ((next a).run unwound)).on
        ((s.served.record h (.finished value)).complete a) := by
  have hrun : ((call placeholder start finish next).run unwound).on
      { s with raw := 2, bridge := s.bridge.resolve value } =
        ((next a).run unwound).on
          (Frame.complete { s.served.record h (.finished value) with raw := 0 } a) :=
    run_call_completed (hostCall_rewound hfinish) rfl
  rw [resume_on p hraw, hq, Control.settle_congr hrun, ← hraw]
  rfl

end Call

/-- Behind the completed calls, driving the export is running the rest directly. -/
theorem drive_settle_run (wait : F → H → V × H) (unwound : R)
    (p q : Program H E F V A R) (fuel : Nat) (hq : p.skip s.answers = q)
    (hraw : s.raw = 0) (hidle : s.bridge.pending = none)
    (hfuel : (q.direct wait s.host).suspensions ≤ fuel) : ∃ answers,
      Frame.control.drive (m := Id) (p.invoke unwound) (Frame.await wait) fuel
          ((Frame.control.settle (q.run unwound)).on s) =
        some ((q.direct wait s.host).result,
          s.after (q.direct wait s.host) answers) := by
  -- On what is left of the program: a call that has to wait enters `p` again from
  -- its beginning.
  induction q generalizing s fuel with
  | done value =>
      have hrun : ((done value : Program H E F V A R).run unwound).on s =
          (.ok value, s) := rfl
      rw [Control.settle_returned hrun (Frame.state_on hraw rfl) hidle,
        Control.drive_returned]
      refine ⟨s.answers, ?_⟩
      simp [direct, Frame.after, DirectRun.events, DirectRun.suspensions,
        ← hraw, ← hidle]
  | call placeholder start finish next ih =>
      rcases hstart : start.on s.host with ⟨e | a | operation, h⟩
      · rw [Control.settle_error (run_start_error hraw hstart), Control.drive_error,
          direct_start_error hstart]
        refine ⟨s.answers, ?_⟩
        simp [Frame.after, Frame.record, DirectRun.events, DirectRun.suspensions,
          LogicalCall.events, LogicalCall.isAwaited, ← hraw, ← hidle]
      · rw [direct_ready hstart] at hfuel ⊢
        rw [DirectRun.suspensions_behind_immediate] at hfuel
        rw [Control.settle_congr (run_ready hraw hstart)]
        obtain ⟨answers, hrest⟩ := ih a (s := (s.record h .started).complete a) fuel
          (skip_append_answer hq a) hraw hidle hfuel
        refine ⟨answers, hrest.trans ?_⟩
        rw [Frame.after_immediate]
        rfl
      · rw [settle_suspend hraw hidle hstart]
        rcases hwait : wait operation h with ⟨value, h₁⟩
        have hawait := Frame.await_on (s := s.record h .started) hwait
        have hq₁ :
            p.skip ((s.record h .started).record h₁
              (.awaited operation value)).answers = _ := hq
        rcases hfinish : (finish value).on h₁ with ⟨e | a, h₂⟩
        · rw [direct_finish_error hstart hwait hfinish] at hfuel ⊢
          obtain ⟨n, rfl⟩ : ∃ n, fuel = n + 1 := Nat.exists_eq_succ_of_ne_zero
            (Nat.ne_of_gt hfuel)
          rw [Control.drive_waiting hawait, resume_finish_error hq₁ hraw hfinish,
            Control.drive_error]
          refine ⟨s.answers, ?_⟩
          simp [Frame.after, Frame.record, Frame.served, DirectRun.events,
            DirectRun.suspensions, LogicalCall.events, LogicalCall.isAwaited, hraw]
        · rw [direct_finished hstart hwait hfinish] at hfuel ⊢
          rw [DirectRun.suspensions_behind_awaited] at hfuel
          obtain ⟨n, rfl⟩ : ∃ n, fuel =
            n + 1 := Nat.exists_eq_succ_of_ne_zero (by omega)
          rw [Control.drive_waiting hawait, resume_finished hq₁ hraw hfinish]
          obtain ⟨answers, hrest⟩ := ih a
            (s := (((s.record h .started).record h₁
              (.awaited operation value)).served.record h₂ (.finished value)).complete
                a)
            n (skip_append_answer hq₁ a) hraw rfl (Nat.le_of_succ_le_succ hfuel)
          refine ⟨answers, hrest.trans ?_⟩
          rw [Frame.after_awaited]
          rfl

/-- Driving an export through the bridge is running it directly. The header is written
once, a call is started once, awaited once and finished once, and the bridge counts
the operations awaited. -/
theorem run_eq_direct (p : Program H E F V A R) (wait : F → H → V × H) (unwound : R)
    (hraw : s.raw = 0) (hidle : s.bridge.pending = none) (fuel : Nat)
    (hfuel : (p.direct wait s.host).suspensions ≤ fuel) :
    ∃ answers,
      Frame.control.run (m := Id) (p.invoke unwound) (Frame.await wait) fuel s =
        some ((p.direct wait s.host).result,
          { raw := 0
            bridge := ⟨none, s.bridge.suspensions + (p.direct wait s.host).suspensions⟩
            host := (p.direct wait s.host).host
            answers := answers
            journal := s.journal ++ .reset :: (p.direct wait s.host).events }) := by
  have henter : (Frame.control.enter (p.invoke unwound)).on s =
      (Frame.control.settle (p.run unwound)).on
        { s with answers := [], journal := s.journal ++ [.reset] } := by
    rw [Control.enter_on (Frame.state_on hraw rfl) hidle (Act.on_modify _ _)]
    exact Control.settle_congr (invoke_on_normal p hraw)
  obtain ⟨answers, hrun⟩ := drive_settle_run wait unwound
    (s := { s with answers := [], journal := s.journal ++ [.reset] }) p p fuel rfl
      hraw hidle hfuel
  refine ⟨answers, ?_⟩
  rw [Control.run, henter, hrun]
  simp [Frame.after]

def lookups : Program (List Nat) Empty Nat Nat Nat Nat :=
  .call 0 (return .suspend 3)
    (fun value => do Act.modify (· ++ [value]); return value + 1) fun a =>
    .call 0 (return .suspend a)
      (fun value => do Act.modify (· ++ [value]); return a + value) .done

theorem run_lookups_eq_direct :
    ∃ answers,
      Frame.control.run (m := Id) (lookups.invoke 0)
        (Frame.await fun key found => (10 * key, found)) 2
          ⟨0, .idle, [], [], []⟩ =
        some (.ok 341, ⟨0, ⟨none, 2⟩, [30, 310], answers,
          [.reset, .started, .awaited 3 30, .finished 30, .started, .awaited 31 310,
            .finished 310]⟩) :=
  run_eq_direct (s := ⟨0, .idle, [], [], []⟩) lookups
    (fun key found => (10 * key, found)) 0 rfl rfl 2 (by decide)

end Program

end Resumable
