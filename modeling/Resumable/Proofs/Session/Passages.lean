import Resumable.Proofs.Host.Passage
import Resumable.Proofs.Session.Instances
import Resumable.Proofs.Session.Story

namespace Resumable

namespace Passage

variable {G : Type} {setup : Setup G} {i₀ i j : Instance G} {log log' : List Exchange}
  {past : List (Event G)}

theorem finish {r : Except CallError Unit} (h : Passage setup.fuel i₀ log past .ready i)
    (hruns : (setup.finish i).Runs log' (r, j)) :
    GoesOn setup.fuel i₀ (log ++ log') past (∃ value, r = .ok value) j := by
  obtain ⟨⟨flushed, k⟩, log₁, _, rfl, hflush, hruns⟩ := Task.runs_bind.mp hruns
  have hflushed := h.flushMetrics hflush
  cases flushed with
  | error e =>
      obtain ⟨rfl, hr⟩ := hruns
      cases hr
      rw [List.append_nil]
      exact hflushed.mono nofun
  | ok _ =>
      obtain ⟨events, standing, h, hcore, -, hready⟩ := hflushed
      cases hready ⟨_, rfl⟩
      rw [← List.append_assoc]
      exact (h.call hruns).behind hcore

end Passage

namespace Setup

variable {G : Type}

def Fresh (setup : Setup G) (i : Instance G) : Prop :=
  ∃ core exports, i = ⟨core, exports, .ofConfig setup.config⟩

/-- What an operation does with an instance. `driven` are the events of the calls it
makes for itself, `rest` those of the last look at an instance that is given up. -/
inductive Treated (setup : Setup G) (s : Slot G) :
    Operation → List Exchange → Answer → Slot G → Prop where
  | untouched {operation : Operation} {log : List Exchange}
      {answer : Answer} {s' : Slot G} (hlive : s'.live = s.live) :
      Treated setup s operation log answer s'
  | madeLive {log₁ log₂ : List Exchange} {driven : List (Event G)}
      {i j : Instance G} {s' : Slot G} (hfresh : setup.Fresh i)
      (hpassage : Passage setup.fuel i log₂ driven .ready j)
      (hdriven : ∀ e ∈ driven, e.OfCore) (hlive : s'.live = some j) :
      Treated setup s .init (log₁ ++ log₂) (.initialized (.ok ())) s'
  | stillborn {log₁ log₂ : List Exchange} {driven rest : List (Event G)}
      {answer : Answer} {standing : Standing} {i j : Instance G} {s' : Slot G}
      (hfresh : setup.Fresh i)
      (hpassage : Passage setup.fuel i log₂ (driven ++ .released :: rest) standing j)
      (hdriven : ∀ e ∈ driven ++ rest, e.OfCore) (hlive : s'.live = s.live) :
      Treated setup s .init (log₁ ++ log₂) answer s'
  | performed {log₁ log₂ : List Exchange} {request : PerformRequest}
      {driven : List (Event G)} {state : PerformState} {i k : Instance G}
      {s' : Slot G} (hbefore : s.live = some i)
      (hpassage : Passage setup.fuel i log₁ (.began request :: driven) .ready k)
      (hdriven : ∀ e ∈ driven, e.OfCore) (hstate : k.host.perform = some state)
      (haside : ∀ e ∈ log₂, e.request.forCore = false)
      (hlive : s'.live = some { k with host := { k.host with perform := none } }) :
      Treated setup s (.perform request) (log₁ ++ log₂) (.performed state.result) s'
  | performFailed {log : List Exchange} {request : PerformRequest}
      {driven rest : List (Event G)} {answer : PerformError} {standing : Standing}
      {i j : Instance G} {s' : Slot G} (hbefore : s.live = some i)
      (hpassage : Passage setup.fuel i log
        (.began request :: (driven ++ .concluded :: .released :: rest)) standing j)
      (hdriven : ∀ e ∈ driven ++ rest, e.OfCore) (hlive : s'.live = none) :
      Treated setup s (.perform request) log (.performed (.error answer)) s'
  | tended {operation : Operation} {log : List Exchange} {driven : List (Event G)}
      {answer : Answer} {i j : Instance G} {s' : Slot G}
      (hoperation : operation = .destroy ∨ ∃ n, operation = .fire n)
      (hbefore : s.live = some i)
      (hpassage : Passage setup.fuel i log driven .ready j)
      (hdriven : ∀ e ∈ driven, e.OfCore) (hlive : s'.live = some j ∨ s'.live = none) :
      Treated setup s operation log answer s'
  | givenUp {operation : Operation} {log : List Exchange}
      {driven rest : List (Event G)} {answer : Answer} {standing : Standing}
      {i j : Instance G} {s' : Slot G}
      (hoperation : operation = .destroy ∨ ∃ n, operation = .fire n)
      (hbefore : s.live = some i)
      (hpassage : Passage setup.fuel i log (driven ++ .released :: rest) standing j)
      (hdriven : ∀ e ∈ driven ++ rest, e.OfCore) (hlive : s'.live = none) :
      Treated setup s operation log answer s'

variable {setup : Setup G} {s s' : Slot G} {operation : Operation}
  {log : List Exchange} {answer : Answer}

theorem forCore_of_armTimer {config : RuntimeConfig}
    (h : (s.armTimer config).Runs log s') : ∀ e ∈ log, e.request.forCore = false := by
  obtain ⟨-, rfl, -⟩ | ⟨-, id, rfl, -⟩ := Slot.runs_armTimer h
  · exact fun e he => nomatch he
  · exact List.forall_mem_singleton.mpr rfl

theorem forCore_of_clearing (s : Slot G) :
    ∀ e ∈ s.clearing, e.request.forCore = false := by
  unfold Slot.clearing
  split
  · exact fun e he => nomatch he
  · exact List.forall_mem_singleton.mpr rfl

/-- One case for each course that an operation may take. -/
theorem Course.treated (h : setup.Course operation log answer s s') :
    setup.Treated s operation log answer s' := by
  cases h with
  | unreadable | uncompiled | rejected | installed | readyAlready | unmade
      | unprepared | blank | notLive
  | goneAlready | stale => exact .untouched rfl
  | goneIdle _ hlive => exact .untouched hlive.symm
  | firedIdle _ hlive => exact .untouched hlive.symm
  | initialized hl hcore hmade hcall =>
      obtain ⟨events, standing, hpassage, hevents, -, hready⟩ :=
        Passage.start.call hcall
      cases hready ⟨_, rfl⟩
      exact .madeLive (Core.ends_instantiate hmade.ends) hpassage hevents rfl
  | stillborn hl hcore hmade hcall hsalvage =>
      obtain ⟨events, standing, hpassage, hevents, hended, -⟩ :=
        Passage.start.call hcall
      obtain ⟨j, rest, standing, hpassage, hrest, -⟩ := hpassage.salvage hended hsalvage
      simp only [List.append_assoc, List.nil_append, List.cons_append] at hpassage
      exact .stillborn (Core.ends_instantiate hmade.ends) hpassage
        (List.forall_mem_append.mpr ⟨hevents, hrest⟩) rfl
  | performed hblank hlive hcall harm =>
      obtain ⟨k, ⟨events, standing, hpassage, hevents, -, hready⟩, rfl, hstate⟩ :=
        Passage.start.perform hcall
      cases hready ⟨_, rfl⟩
      refine .performed hlive hpassage hevents (hstate _ rfl)
        (forCore_of_armTimer harm) ?_
      obtain ⟨-, -, rfl⟩ | ⟨-, id, -, rfl⟩ := Slot.runs_armTimer harm <;> rfl
  | failed hblank hlive hcall hsalvage =>
      obtain ⟨k, ⟨events, standing, hpassage, hevents, hended, -⟩, rfl, -⟩ :=
        Passage.start.perform hcall
      obtain ⟨j, rest, standing, hpassage, hrest, -⟩ :=
        ((hpassage.concluded hended).aside (forCore_of_clearing s)).salvage
          hended hsalvage
      simp only [List.append_assoc, List.nil_append, List.cons_append] at hpassage
      exact .performFailed hlive hpassage
        (List.forall_mem_append.mpr ⟨hevents, hrest⟩) rfl
  | gone hl hlive hfinish =>
      obtain ⟨events, standing, hpassage, hevents, -, hready⟩ :=
        (Passage.start.aside (forCore_of_clearing s)).finish hfinish
      cases hready ⟨_, rfl⟩
      exact .tended (.inl rfl) hlive hpassage hevents (.inr rfl)
  | goneFailing hl hlive hfinish hsalvage =>
      obtain ⟨events, standing, hpassage, hevents, hended, -⟩ :=
        (Passage.start.aside (forCore_of_clearing s)).finish hfinish
      obtain ⟨j, rest, standing, hpassage, hrest, -⟩ := hpassage.salvage hended hsalvage
      simp only [List.append_assoc, List.nil_append, List.cons_append] at hpassage
      exact .givenUp (.inl rfl) hlive hpassage
        (List.forall_mem_append.mpr ⟨hevents, hrest⟩) rfl
  | flushed htimer hlive hflush =>
      obtain ⟨events, standing, hpassage, hevents, -, hready⟩ :=
        Passage.start.flushMetrics hflush
      cases hready ⟨_, rfl⟩
      exact .tended (.inr ⟨_, rfl⟩) hlive hpassage hevents (.inl rfl)
  | unflushed htimer hlive hflush hsalvage =>
      obtain ⟨events, standing, hpassage, hevents, hended, -⟩ :=
        Passage.start.flushMetrics hflush
      obtain ⟨j, rest, standing, hpassage, hrest, -⟩ := hpassage.salvage hended hsalvage
      simp only [List.append_assoc, List.nil_append, List.cons_append] at hpassage
      exact .givenUp (.inr ⟨_, rfl⟩) hlive hpassage
        (List.forall_mem_append.mpr ⟨hevents, hrest⟩) rfl

/-- A live instance has come to where it is by a passage from where it was made. -/
theorem Story.passage {past : List (Entry G)} (h : setup.Story past s) {i : Instance G}
    (hlive : s.live = some i) :
    ∃ i₀ log events, setup.Fresh i₀ ∧ Passage setup.fuel i₀ log events .ready i := by
  induction h generalizing i with
  | new => cases hlive
  | next h runs ih =>
      cases (carryOut_course runs).treated with
      | untouched hsame => exact ih (hsame ▸ hlive)
      | madeLive hfresh hpassage _ hmade =>
          cases hmade.symm.trans hlive
          exact ⟨_, _, _, hfresh, hpassage⟩
      | stillborn _ _ _ hsame => exact ih (hsame ▸ hlive)
      | performed hbefore hpassage _ _ _ hafter =>
          cases hafter.symm.trans hlive
          obtain ⟨i₀, log, events, hfresh, hearlier⟩ := ih hbefore
          exact ⟨i₀, _, _, hfresh, hearlier.trans (hpassage.concluded nofun)⟩
      | tended _ hbefore hpassage _ hafter =>
          obtain ⟨i₀, log, events, hfresh, hearlier⟩ := ih hbefore
          obtain hafter | hafter := hafter
          · cases hafter.symm.trans hlive
            exact ⟨i₀, _, _, hfresh, hearlier.trans hpassage⟩
          · cases hafter.symm.trans hlive
      | performFailed _ _ _ hafter | givenUp _ _ _ _ hafter =>
          cases hafter.symm.trans hlive

end Setup

end Resumable
