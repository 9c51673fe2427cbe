import Resumable.Proofs.Bridge.Transcript

namespace Resumable

/-- Nothing is overwritten, and what is awaited and handed out was parked and awaited
before, in the same order, and once for each time. -/
structure Disciplined {F V R : Type} (log : List (Note F V R)) : Prop where
  not_overwritten : ∀ before after, .slot before after ∈ log →
    before = none ∨ after = none
  awaited_parked : log.filterMap Note.awaited? <+: log.filterMap Note.parked?
  handed_values : log.filterMap Note.handed? <+: log.filterMap Note.value?

/-- `owed` has been parked and not awaited, `due` has come of an operation and has not
been handed out. -/
structure Balanced {F V R : Type} (log : List (Note F V R)) (owed : Option F)
    (due : Option V) : Prop where
  disciplined : ∀ l, l <+: log → Disciplined l
  parked : log.filterMap Note.parked? = log.filterMap Note.awaited? ++ owed.toList
  values : log.filterMap Note.value? = log.filterMap Note.handed? ++ due.toList

namespace Balanced

variable {F V R : Type} {log : List (Note F V R)} {owed owed' : Option F}
  {due due' : Option V}

theorem nil : Balanced ([] : List (Note F V R)) none none where
  disciplined := by
    intro l hl
    rw [List.prefix_nil.mp hl]
    exact ⟨by simp, List.prefix_rfl, List.prefix_rfl⟩
  parked := rfl
  values := rfl

theorem snoc (h : Balanced log owed due) {e : Note F V R}
    (hslot : ∀ before after, e = .slot before after → before = none ∨ after = none)
    (hparked : owed.toList ++ [e].filterMap Note.parked? =
      [e].filterMap Note.awaited? ++ owed'.toList)
    (hvalues : due.toList ++ [e].filterMap Note.value? =
      [e].filterMap Note.handed? ++ due'.toList) :
    Balanced (log ++ [e]) owed' due' := by
  have hp : (log ++ [e]).filterMap Note.parked? =
      (log ++ [e]).filterMap Note.awaited? ++ owed'.toList := by
    rw [List.filterMap_append, List.filterMap_append, h.parked,
      List.append_assoc, hparked, List.append_assoc]
  have hv : (log ++ [e]).filterMap Note.value? =
      (log ++ [e]).filterMap Note.handed? ++ due'.toList := by
    rw [List.filterMap_append, List.filterMap_append, h.values,
      List.append_assoc, hvalues, List.append_assoc]
  refine ⟨?_, hp, hv⟩
  intro l hl
  rcases List.prefix_concat_iff.mp hl with rfl | hl
  · refine ⟨?_, ⟨_, hp.symm⟩, ⟨_, hv.symm⟩⟩
    intro before after hmem
    rcases List.mem_append.mp hmem with hmem | hmem
    · exact (h.disciplined log List.prefix_rfl).not_overwritten before after hmem
    · exact hslot before after (List.mem_singleton.mp hmem).symm
  · exact h.disciplined l hl

theorem aside (h : Balanced log owed due) {e : Note F V R}
    (hslot : ∀ before after, e ≠ .slot before after)
    (hawaited : ∀ operation value, e ≠ .awaited operation value)
    (hhanded : ∀ value, e ≠ .handed value) : Balanced (log ++ [e]) owed due := by
  cases e with
  | slot before after => exact absurd rfl (hslot before after)
  | awaited operation value => exact absurd rfl (hawaited operation value)
  | handed value => exact absurd rfl (hhanded value)
  | _ =>
      exact h.snoc (fun _ _ he => by cases he) (List.append_nil _) (List.append_nil _)

theorem park (h : Balanced log none due) (operation : F) :
    Balanced (log ++ [.slot none (some (.inFlight operation))]) (some operation) due :=
  h.snoc (fun _ _ he => by cases he; exact .inl rfl) rfl (List.append_nil _)

theorem resolve (h : Balanced log owed due) (value : V) :
    Balanced (log ++ [.slot none (some (.resolved value))]) owed due :=
  h.snoc (fun _ _ he => by cases he; exact .inl rfl) (List.append_nil _)
    (List.append_nil _)

theorem take (h : Balanced log owed due) (pending : Option (Pending F V)) :
    Balanced (log ++ [.slot pending none]) owed due :=
  h.snoc (fun _ _ he => by cases he; exact .inr rfl) (List.append_nil _)
    (List.append_nil _)

theorem await {operation : F} (h : Balanced log (some operation) none) (value : V) :
    Balanced (log ++ [.awaited operation value]) none (some value) :=
  h.snoc (fun _ _ he => by cases he) rfl rfl

theorem hand {value : V} (h : Balanced log owed (some value)) :
    Balanced (log ++ [.handed value]) owed none :=
  h.snoc (fun _ _ he => by cases he) (List.append_nil _) rfl

end Balanced

end Resumable
