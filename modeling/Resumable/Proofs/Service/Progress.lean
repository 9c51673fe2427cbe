import Resumable.Proofs.Service.Exchanges

namespace Resumable

namespace Task

variable {α β : Type}

inductive Reaches : Task α → List Exchange → Task α → Prop where
  | refl (t : Task α) : Reaches t [] t
  | ask {r : Request} {k : r.Response → Task α} {answer : r.Response}
      {log : List Exchange} {u : Task α} (h : Reaches (k answer) log u) :
      Reaches (.ask r k) (⟨r, answer⟩ :: log) u

namespace Reaches

variable {t u v : Task α} {log log' : List Exchange} {a : α}

theorem trans (h : t.Reaches log u) (h' : u.Reaches log' v) :
    t.Reaches (log ++ log') v := by
  induction h with
  | refl => exact h'
  | ask _ ih => exact .ask (ih h')

theorem snoc {r : Request} {k : r.Response → Task α} (h : t.Reaches log (.ask r k))
    (answer : r.Response) : t.Reaches (log ++ [⟨r, answer⟩]) (k answer) :=
  h.trans (.ask (.refl _))

theorem runs (h : t.Reaches log u) (h' : u.Runs log' a) : t.Runs (log ++ log') a := by
  induction h with
  | refl => exact h'
  | @ask r k answer _ _ _ ih => exact ⟨answer, _, rfl, ih h'⟩

theorem bind (h : t.Reaches log u) (f : α → Task β) :
    (t >>= f).Reaches log (u >>= f) := by
  induction h with
  | refl => exact .refl _
  | ask _ ih => exact .ask ih

theorem only {p : Request → Prop} (h : t.Reaches log u) (ht : t.Only p) :
    (∀ e ∈ log, p e.request) ∧ u.Only p := by
  induction h with
  | refl => exact ⟨(fun e he => nomatch he), ht⟩
  | @ask r k answer _ _ _ ih =>
      obtain ⟨hlog, hu⟩ := ih (ht.2 answer)
      exact ⟨List.forall_mem_cons.mpr ⟨ht.1, hlog⟩, hu⟩

end Reaches

theorem reaches_done {t : Task α} {log : List Exchange} {a : α} :
    t.Reaches log (.done a) ↔ t.Runs log a := by
  constructor
  · intro h
    have hdone : (done a).Runs [] a := ⟨rfl, rfl⟩
    rw [← List.append_nil log]
    exact h.runs hdone
  · intro h
    induction t generalizing log with
    | done b =>
        obtain ⟨rfl, rfl⟩ := h
        exact .refl _
    | ask r k ih =>
        obtain ⟨answer, rest, rfl, h⟩ := h
        exact .ask (ih answer h)
    | never => exact h.elim

end Task

end Resumable
