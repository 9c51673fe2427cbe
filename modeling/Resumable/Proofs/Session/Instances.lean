import Resumable.Proofs.Host.Replies
import Resumable.Proofs.Session.History

namespace Resumable

theorem Core.ends_instantiate {G : Type} {c : Core G} {config : RuntimeConfig}
    {i : Instance G} (h : (c.instantiate config).Ends (.ok i)) :
    ∃ core exports, i = ⟨core, exports, .ofConfig config⟩ := by
  unfold instantiate at h
  rcases hcreate : c.create with e | fresh
  · rw [hcreate] at h
    cases h
  · rw [hcreate] at h
    obtain ⟨_, _, h⟩ := Task.ends_bind.mp h
    split at h
    · cases h
    · cases h
    · cases h
      exact ⟨_, _, rfl⟩

namespace Instance

variable {G : Type} {p : Instance G → Prop} {i i' : Instance G}

theorem Unbroken.readMetrics (h : Unbroken p) :
    (readMetrics : Live G _).Maintains p := by
  refine .bind (h.invoke _) fun ptr => .bind (.read _) fun memory => ?_
  split
  · exact .pure _
  · exact .fail _

theorem Unbroken.flushMetrics (h : Unbroken p) (hi : p i) {r : Except CallError Unit}
    (ends : (i.flushMetrics).Ends (r, i')) : p i' := by
  obtain ⟨⟨read, j⟩, hread, ends⟩ := Task.ends_bind.mp ends
  have hj : p j := h.enduring.act h.readMetrics hi hread
  cases read with
  | error e =>
      cases ends
      exact hj
  | ok events =>
      obtain ⟨⟨cleared, k⟩, hclear, ends⟩ := Task.ends_bind.mp ends
      have hk : p k := h.enduring.act (h.invoke _) hj hclear
      cases cleared with
      | error e =>
          cases ends
          exact hk
      | ok _ =>
          obtain ⟨_, _, ends⟩ := Task.ends_bind.mp ends
          cases ends
          exact hk

end Instance

namespace Setup

variable {G : Type} {setup : Setup G} {s s' : Slot G} {operation : Operation}
  {answer : Answer} {p : Instance G → Prop}

theorem Step.unbroken (hstep : setup.Step operation answer s s')
    (hp : Instance.Unbroken p)
    (hfresh : ∀ core exports, p ⟨core, exports, .ofConfig setup.config⟩)
    (h : ∀ i, s.live = some i → p i) : ∀ i, s'.live = some i → p i := by
  intro i hlive
  cases hstep with
  | unreadable | uncompiled | rejected | installed | readyAlready | uninitialized
      | blank | notLive
  | goneAlready | stale => exact h i hlive
  | initialized _ _ hmade hcall =>
      cases hlive
      obtain ⟨core, exports, rfl⟩ := Core.ends_instantiate hmade
      exact hp.enduring.call (hp.invoke _) (hfresh core exports) hcall
  | performed _ hbefore hcall harm =>
      have hi := hp.enduring.perform (hp.invoke _) (h _ hbefore) hcall
      cases harm <;> cases hlive <;> exact hi
  | flushed _ hbefore hflush =>
      cases hlive
      exact hp.flushMetrics (h _ hbefore) hflush
  | failed | goneIdle | gone | goneFailing | firedIdle | unflushed => cases hlive

theorem Reachable.unbroken (h : setup.Reachable s) (hp : Instance.Unbroken p)
    (hfresh : ∀ core exports, p ⟨core, exports, .ofConfig setup.config⟩)
    {i : Instance G} (hlive : s.live = some i) : p i := by
  induction h generalizing i with
  | empty => cases hlive
  | step _ ends ih =>
      exact (carryOut_step ends).unbroken hp hfresh (fun _ => ih) i hlive

theorem Reachable.config (h : setup.Reachable s) {i : Instance G}
    (hlive : s.live = some i) : i.host.config = setup.config := by
  have hlasting : Instance.Lasting fun i : Instance G => i.host.config = setup.config :=
    ⟨fun _ _ h => h, fun _ _ hsame h => hsame.config.trans h, fun _ _ h => h,
      fun _ _ h => h⟩
  exact h.unbroken hlasting.unbroken (fun _ _ => rfl) hlive

theorem Reachable.reached (h : setup.Reachable s) {i : Instance G}
    (hlive : s.live = some i) : i.Reached :=
  h.unbroken Instance.lasting_reached.unbroken
    (fun core exports => .fresh core exports _) hlive

end Setup

end Resumable
