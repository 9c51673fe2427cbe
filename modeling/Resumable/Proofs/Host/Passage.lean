import Resumable.Proofs.Host.HostRun
import Resumable.Proofs.Host.Journal

namespace Resumable

def Event.OfCore {G : Type} : Event G → Prop
  | .served .. => True
  | .awaited .. => True
  | _ => False

/-- How what was last called has come out: it has returned, or failed, or it waits. -/
inductive Standing where
  | ready
  | failed
  | waiting

def Standing.andThen : Standing → Standing → Standing
  | .ready, standing => standing
  | standing, _ => standing

def Standing.of {α : Type} : Option (Except CallError α) → Standing
  | some (.ok _) => .ready
  | some (.error _) => .failed
  | none => .waiting

theorem Standing.andThen_ne_waiting {α : Type} {standing : Standing}
    (h : standing ≠ .waiting) (r : Except CallError α) :
    standing.andThen (.of (some r)) ≠ .waiting := by
  cases standing with
  | ready => cases r <;> nofun
  | failed => nofun
  | waiting => exact absurd rfl h

/-- Whatever may be done with an instance, one thing after another, with all that is
exchanged meanwhile. Nothing but a release makes good for a failure. -/
inductive Passage {G : Type} (fuel : Nat) (i₀ : Instance G) :
    List Exchange → List (Event G) → Standing → Instance G → Prop where
  | start : Passage fuel i₀ [] [] .ready i₀
  | called {log log' : List Exchange} {past events : List (Event G)}
      {r : Option (Except CallError Unit)} {i j : Instance G}
      {entry : Exports G → CoreState G → Activation G Unit}
      (h : Passage fuel i₀ log past .ready i)
      (hcalled : Instance.Called fuel entry i log' events r j) :
      Passage fuel i₀ (log ++ log') (past ++ events) (.of r) j
  | acted {R : Type} {log log' : List Exchange} {past events : List (Event G)}
      {standing : Standing} {r : Except CallError R} {i j k : Instance G}
      {entry : Exports G → CoreState G → Activation G R}
      (h : Passage fuel i₀ log past standing i) (hended : standing ≠ .waiting)
      (htold : (entry i.exports i.core).Tells i events r k)
      (hflush : k.flush.Runs log' j) :
      Passage fuel i₀ (log ++ log') (past ++ events) (standing.andThen (.of (some r))) j
  | quieted {log log' : List Exchange} {past : List (Event G)} {standing : Standing}
      {r : Except CallError Unit} {i j : Instance G}
      (h : Passage fuel i₀ log past standing i) (hended : standing ≠ .waiting)
      (hruns : (i.act Instance.abandonSuspension).Runs log' (r, j)) :
      Passage fuel i₀ (log ++ log') past standing j
  | began {log : List Exchange} {past : List (Event G)} {i : Instance G}
      (h : Passage fuel i₀ log past .ready i) (request : PerformRequest) :
      Passage fuel i₀ log (past ++ [.began request]) .ready
        { i with host := { i.host with perform := some { request } } }
  | concluded {log : List Exchange} {past : List (Event G)} {standing : Standing}
      {i : Instance G} (h : Passage fuel i₀ log past standing i)
      (hended : standing ≠ .waiting) :
      Passage fuel i₀ log (past ++ [.concluded]) standing
        { i with host := { i.host with perform := none } }
  | released {log : List Exchange} {past : List (Event G)} {standing : Standing}
      {i : Instance G} (h : Passage fuel i₀ log past standing i)
      (hended : standing ≠ .waiting) :
      Passage fuel i₀ log (past ++ [.released]) .ready i.release
  | aside {log log' : List Exchange} {past : List (Event G)} {standing : Standing}
      {i : Instance G} (h : Passage fuel i₀ log past standing i)
      (haside : ∀ e ∈ log', e.request.forCore = false) :
      Passage fuel i₀ (log ++ log') past standing i

namespace Passage

variable {G : Type} {fuel : Nat} {i₀ i j : Instance G} {log log' : List Exchange}
  {past : List (Event G)} {standing : Standing}

theorem hostRun (h : Passage fuel i₀ log past standing i) :
    ∃ broken, HostRun fuel i₀.host past broken i.host ∧
    (standing ≠ .failed → broken = false) := by
  induction h with
  | start => exact ⟨false, .start, fun _ => rfl⟩
  | @called _ _ _ _ r _ _ _ _ hcalled ih =>
      obtain ⟨broken, hrun, hbroken⟩ := ih
      cases hbroken nofun
      obtain ⟨broken, hrun, hbroken⟩ := hcalled.hostRun hrun
      refine ⟨broken, hrun, fun hr => hbroken fun e he => ?_⟩
      cases he
      exact hr rfl
  | @acted _ _ _ _ _ standing r _ _ _ _ h hended htold hflush ih =>
      obtain ⟨broken, hrun, hbroken⟩ := ih
      obtain ⟨broken', hrun, hbroken'⟩ := htold.hostRun hrun
      cases Instance.eq_of_flush hflush
      refine ⟨broken', hrun.passedOn [], fun hr => ?_⟩
      -- A step that returns does not mend a failure before it, and no step is made
      -- while a call waits.
      cases standing with
      | ready =>
          rcases r with e | value
          · exact absurd rfl hr
          · exact hbroken' (hbroken nofun) ⟨value, rfl⟩
      | failed => exact absurd rfl hr
      | waiting => exact absurd rfl hended
  | @quieted _ _ past _ _ i _ h hended hruns ih =>
      obtain ⟨broken, hrun, hbroken⟩ := ih
      obtain ⟨k, hon, hflush⟩ := Instance.on_of_act hruns
      have hhost := Instance.maintains_host_abandonSuspension i rfl
      rw [hon] at hhost
      cases Instance.eq_of_flush hflush
      rw [← show k.host = i.host from hhost] at hrun
      exact ⟨broken, hrun.passedOn [], hbroken⟩
  | began h request ih =>
      obtain ⟨broken, hrun, hbroken⟩ := ih
      cases hbroken nofun
      exact ⟨false, hrun.began request, fun _ => rfl⟩
  | concluded h hended ih =>
      obtain ⟨broken, hrun, hbroken⟩ := ih
      exact ⟨broken, hrun.concluded, hbroken⟩
  | released h hended ih =>
      obtain ⟨broken, hrun, hbroken⟩ := ih
      exact ⟨false, hrun.released, fun _ => rfl⟩
  | aside h haside ih => exact ih

theorem trans {events : List (Event G)} (h : Passage fuel i₀ log past .ready i)
    (h' : Passage fuel i log' events standing j) :
    Passage fuel i₀ (log ++ log') (past ++ events) standing j := by
  induction h' with
  | start => simpa only [List.append_nil] using h
  | called _ hcalled ih =>
      rw [← List.append_assoc, ← List.append_assoc]
      exact ih.called hcalled
  | acted _ hended htold hflush ih =>
      rw [← List.append_assoc, ← List.append_assoc]
      exact ih.acted hended htold hflush
  | quieted _ hended hruns ih =>
      rw [← List.append_assoc]
      exact ih.quieted hended hruns
  | began _ request ih =>
      rw [← List.append_assoc]
      exact ih.began request
  | concluded _ hended ih =>
      rw [← List.append_assoc]
      exact ih.concluded hended
  | released _ hended ih =>
      rw [← List.append_assoc]
      exact ih.released hended
  | aside _ haside ih =>
      rw [← List.append_assoc]
      exact ih.aside haside

/-- A passage goes on with events that calls of a core make, and is ready for more if
these have come to something. -/
def GoesOn (fuel : Nat) (i₀ : Instance G) (log : List Exchange)
    (past : List (Event G)) (came : Prop) (j : Instance G) : Prop :=
  ∃ events standing, Passage fuel i₀ log (past ++ events) standing j ∧
  (∀ e ∈ events, e.OfCore) ∧
    standing ≠ .waiting ∧ (came → standing = .ready)

end Passage

namespace Activation

variable {G R : Type} {a : Activation G R} {i j : Instance G}
  {events : List (Event G)} {r : Except CallError R}

theorem Tells.ofCore (h : a.Tells i events r j) : ∀ e ∈ events, e.OfCore := by
  induction h with
  | finish | trap => exact fun e he => nomatch he
  | refused => exact List.forall_mem_singleton.mpr trivial
  | answered _ _ _ ih => exact List.forall_mem_cons.mpr ⟨trivial, ih⟩
  | remark _ ih => exact ih

end Activation

namespace Instance

variable {G R : Type} {fuel : Nat} {entry : Exports G → CoreState G → Activation G R}
  {i j : Instance G} {log : List Exchange} {events : List (Event G)}

theorem Turn.ofCore {ready : Live G Unit}
    {outcome : Except CallError (Progress R Deferred) × Instance G}
    (h : Turn ready entry i events outcome) : ∀ e ∈ events, e.OfCore := by
  cases h with
  | refused => exact fun e he => nomatch he
  | taken _ htold => exact htold.ofCore

theorem Driven.ofCore {progress : Except CallError (Progress R Deferred) × Instance G}
    {out : Option (Except CallError R) × Instance G}
    (h : Driven fuel entry progress log events out) : ∀ e ∈ events, e.OfCore := by
  induction h with
  | failed | returned | waiting => exact fun e he => nomatch he
  | resumed _ _ hturn _ ih =>
      exact List.forall_mem_cons.mpr
        ⟨trivial, List.forall_mem_append.mpr ⟨hturn.ofCore, ih⟩⟩

theorem Called.ofCore {entry : Exports G → CoreState G → Activation G Unit}
    {r : Option (Except CallError Unit)} (h : Called fuel entry i log events r j) :
    ∀ e ∈ events, e.OfCore := by
  cases h with
  | ended hturn hdriven | waiting hturn hdriven =>
      exact List.forall_mem_append.mpr ⟨hturn.ofCore, hdriven.ofCore⟩

end Instance

namespace Passage

variable {G : Type} {fuel : Nat} {i₀ i j : Instance G} {log log' : List Exchange}
  {past : List (Event G)} {standing : Standing}

theorem GoesOn.mono {came came' : Prop} (h : GoesOn fuel i₀ log past came j)
    (hcame : came' → came) :
    GoesOn fuel i₀ log past came' j := by
  obtain ⟨events, standing, hpassage, hcore, hended, hready⟩ := h
  exact ⟨events, standing, hpassage, hcore, hended, fun h => hready (hcame h)⟩

theorem GoesOn.behind {came : Prop} {events : List (Event G)}
    (h : GoesOn fuel i₀ log (past ++ events) came j) (hcore : ∀ e ∈ events, e.OfCore) :
    GoesOn fuel i₀ log past came j := by
  obtain ⟨rest, standing, hpassage, hrest, hready⟩ := h
  rw [List.append_assoc] at hpassage
  exact ⟨_, standing, hpassage, List.forall_mem_append.mpr ⟨hcore, hrest⟩, hready⟩

theorem call {entry : Exports G → CoreState G → Activation G Unit}
    {r : Except CallError Unit} (h : Passage fuel i₀ log past .ready i)
    (hruns : (i.call fuel entry).Runs log' (r, j)) :
    GoesOn fuel i₀ (log ++ log') past (∃ value, r = .ok value) j := by
  obtain ⟨events, hcalled⟩ := Instance.exists_called hruns
  refine ⟨events, _, h.called hcalled, hcalled.ofCore, ?_, ?_⟩
  · cases r <;> nofun
  · rintro ⟨value, rfl⟩
    rfl

theorem act {R α : Type} {entry : Exports G → CoreState G → Activation G R}
    {rest : R → Live G α} (hrest : ∀ value i, ((rest value).on i).2 = i)
    {r : Except CallError α} (h : Passage fuel i₀ log past standing i)
    (hended : standing ≠ .waiting)
    (hruns : (i.act (Instance.invoke entry >>= rest)).Runs log' (r, j)) :
    GoesOn fuel i₀ (log ++ log') past (standing = .ready ∧
      ∃ value, r = .ok value) j := by
  obtain ⟨k, hon, hflush⟩ := Instance.on_of_act hruns
  obtain ⟨events, htold⟩ := Instance.exists_tells (entry i.exports i.core) i
  have hinvoke : (Instance.invoke entry).on i =
      (Instance.run Instance.serve (entry i.exports i.core)).on i :=
    Act.on_bind_ok (Act.on_read id i)
  rcases hran : (Instance.run Instance.serve (entry i.exports i.core)).on i
    with ⟨e | value, l⟩
  · rw [hran] at htold hinvoke
    rw [Act.on_bind_error hinvoke] at hon
    cases hon
    refine ⟨events, _, h.acted hended htold hflush, htold.ofCore,
      Standing.andThen_ne_waiting hended _, ?_⟩
    rintro ⟨-, value, hr⟩
    cases hr
  · rw [hran] at htold hinvoke
    rw [Act.on_bind_ok hinvoke] at hon
    have hsame := hrest value l
    rw [hon] at hsame
    cases hsame
    refine ⟨events, _, h.acted hended htold hflush, htold.ofCore,
      Standing.andThen_ne_waiting hended _, ?_⟩
    rintro ⟨rfl, -⟩
    rfl

theorem readMetrics {r : Except CallError (List String)}
    (h : Passage fuel i₀ log past standing i) (hended : standing ≠ .waiting)
    (hruns : (i.act Instance.readMetrics).Runs log' (r, j)) :
    GoesOn fuel i₀ (log ++ log') past (standing = .ready ∧
      ∃ value, r = .ok value) j := by
  refine h.act (fun ptr k => ?_) hended hruns
  rw [Act.on_bind_ok (Act.on_read _ _)]
  split <;> rfl

theorem readDeveloperDump {r : Except CallError (List String)}
    (h : Passage fuel i₀ log past standing i) (hended : standing ≠ .waiting)
    (hruns : (i.act Instance.readDeveloperDump).Runs log' (r, j)) :
    GoesOn fuel i₀ (log ++ log') past (standing = .ready ∧
      ∃ value, r = .ok value) j := by
  refine h.act (fun ptr k => ?_) hended hruns
  rw [Act.on_bind_ok (Act.on_read _ _)]
  split <;> rfl

theorem clearMetrics {r : Except CallError Unit}
    (h : Passage fuel i₀ log past standing i) (hended : standing ≠ .waiting)
    (hruns : (i.act Instance.clearMetrics).Runs log' (r, j)) :
    GoesOn fuel i₀ (log ++ log') past (standing = .ready ∧
      ∃ value, r = .ok value) j := by
  rw [← bind_pure Instance.clearMetrics] at hruns
  exact h.act (fun _ _ => rfl) hended hruns

theorem forCore_of_forward {kind : EventKind} {events : List String}
    (hruns : (kind.forward events).Runs log ()) :
    ∀ e ∈ log, e.request.forCore = false := by
  obtain ⟨-, rfl⟩ | ⟨kept, rfl⟩ := EventKind.runs_forward hruns
  · exact fun e he => nomatch he
  · exact List.forall_mem_singleton.mpr rfl

theorem flushMetrics {r : Except CallError Unit} (h : Passage fuel i₀ log past .ready i)
    (hruns : i.flushMetrics.Runs log' (r, j)) :
    GoesOn fuel i₀ (log ++ log') past (∃ value, r = .ok value) j := by
  obtain ⟨⟨metrics, i₁⟩, log₁, _, rfl, hmetrics, hruns⟩ := Task.runs_bind.mp hruns
  have hread := h.readMetrics nofun hmetrics
  cases metrics with
  | error e =>
      obtain ⟨rfl, hr⟩ := hruns
      cases hr
      rw [List.append_nil]
      exact hread.mono nofun
  | ok metrics =>
      obtain ⟨events, standing, h, hcore, -, hready⟩ := hread
      cases hready ⟨rfl, _, rfl⟩
      obtain ⟨⟨cleared, i₂⟩, log₂, _, rfl, hclear, hruns⟩ := Task.runs_bind.mp hruns
      have hcleared := (h.clearMetrics nofun hclear).behind hcore
      rw [← List.append_assoc]
      cases cleared with
      | error e =>
          obtain ⟨rfl, hr⟩ := hruns
          cases hr
          rw [List.append_nil]
          exact hcleared.mono nofun
      | ok _ =>
          obtain ⟨_, log₃, _, rfl, hforward, rfl, hr⟩ := Task.runs_bind.mp hruns
          cases hr
          obtain ⟨events, standing, h, hcore, hended, hready⟩ := hcleared
          rw [List.append_nil, ← List.append_assoc]
          exact ⟨events, standing, h.aside (forCore_of_forward hforward), hcore, hended,
            fun _ => hready ⟨rfl, _, rfl⟩⟩

/-- Giving an instance up releases it, then turns to its core only to read
what it leaves. -/
theorem salvage {e : CallError} {answer : PerformError}
    (h : Passage fuel i₀ log past standing i) (hended : standing ≠ .waiting)
    (hruns : (i.salvage e).Runs log' answer) :
    ∃ j, GoesOn fuel i₀ (log ++ log') (past ++ [.released]) False j := by
  obtain ⟨⟨_, i₁⟩, log₁, _, rfl, habandon, hruns⟩ := Task.runs_bind.mp hruns
  obtain ⟨⟨dump, i₂⟩, log₂, _, rfl, hdump, hruns⟩ := Task.runs_bind.mp hruns
  obtain ⟨⟨metrics, i₃⟩, log₃, _, rfl, hmetrics, hruns⟩ := Task.runs_bind.mp hruns
  obtain ⟨_, log₄, _, rfl, hforward, hruns⟩ := Task.runs_bind.mp hruns
  obtain ⟨_, log₅, _, rfl, hforward', rfl, rfl⟩ := Task.runs_bind.mp hruns
  have hreleased := (h.quieted hended habandon).released hended
  obtain ⟨events, standing, h, hcore, hended, -⟩ :=
    hreleased.readDeveloperDump nofun hdump
  obtain ⟨events, standing, h, hcore, hended, -⟩ :=
    (h.readMetrics hended hmetrics).behind hcore
  have hforwarded :=
    (h.aside (forCore_of_forward hforward)).aside (forCore_of_forward hforward')
  refine ⟨i₃, events, standing, ?_, hcore, hended, nofun⟩
  simpa only [List.append_assoc, List.append_nil] using hforwarded

theorem perform {request : PerformRequest} {r : Except CallError PerformState}
    (h : Passage fuel i₀ log past .ready i)
    (hruns : (i.perform fuel request).Runs log' (r, j)) :
    ∃ k, GoesOn fuel i₀ (log ++ log') (past ++ [.began request])
      (∃ value, r = .ok value) k ∧
      j = { k with host := { k.host with perform := none } } ∧
      ∀ state, r = .ok state → k.host.perform = some state := by
  obtain ⟨⟨called, k⟩, log₁, _, rfl, hcall, hruns⟩ := Task.runs_bind.mp hruns
  have hcalled := (h.began request).call hcall
  refine ⟨k, ?_⟩
  rcases called with e | _
  · obtain ⟨rfl, hr⟩ := hruns
    cases hr
    rw [List.append_nil]
    exact ⟨hcalled.mono nofun, rfl, nofun⟩
  · rcases hperform : k.host.perform with _ | state
    · simp only [hperform] at hruns
      obtain ⟨rfl, hr⟩ := hruns
      cases hr
      rw [List.append_nil]
      exact ⟨hcalled.mono nofun, rfl, nofun⟩
    · simp only [hperform] at hruns
      obtain ⟨rfl, hr⟩ := hruns
      cases hr
      rw [List.append_nil]
      refine ⟨hcalled.mono fun _ => ⟨(), rfl⟩, rfl, ?_⟩
      rintro _ ⟨⟩
      rfl

end Passage

end Resumable
