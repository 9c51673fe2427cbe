import Resumable.Service.Task

namespace Resumable

namespace Task

variable {α β : Type}

def Ends : Task α → α → Prop
  | .done a, b => b = a
  | .ask _ k, b => ∃ answer, (k answer).Ends b
  | .never, _ => False

@[simp]
theorem ends_bind {t : Task α} {f : α → Task β} {b : β} :
    (t >>= f).Ends b ↔ ∃ a, t.Ends a ∧ (f a).Ends b := by
  change (t.bind f).Ends b ↔ _
  induction t with
  | done a => simp [bind, Ends]
  | ask r k ih =>
      simp only [bind, Ends, ih]
      constructor
      · rintro ⟨answer, a, ha, hb⟩
        exact ⟨a, ⟨answer, ha⟩, hb⟩
      · rintro ⟨a, ⟨answer, ha⟩, hb⟩
        exact ⟨answer, a, ha, hb⟩
  | never => simp [bind, Ends]

@[simp]
theorem ends_ofOption {a : Option α} {b : α} : (ofOption a).Ends b ↔ a = some b := by
  cases a with
  | none => simp [ofOption, Ends]
  | some a => simp [ofOption, Ends, eq_comm]

theorem ends_of_run {W : Type} {serve : (r : Request) → W → r.Response × W}
    {t : Task α} {w w' : W} {a : α} (h : t.run serve w = some (a, w')) : t.Ends a := by
  induction t generalizing w with
  | done b =>
      cases h
      rfl
  | ask r k ih => exact ⟨_, ih _ h⟩
  | never => cases h

theorem exists_ends_of_run {W : Type} {serve : (r : Request) → W → r.Response × W}
    {t : Task α} {w : W} {p : α → Bool}
    (h : ((t.run serve w).any fun ended => p ended.1) = true) :
    ∃ a, t.Ends a ∧ p a = true := by
  rcases hrun : t.run serve w with _ | ⟨a, w'⟩
  · rw [hrun] at h
    cases h
  · rw [hrun] at h
    exact ⟨a, ends_of_run hrun, h⟩

end Task

end Resumable
