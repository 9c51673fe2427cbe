import Resumable.Proofs.Service.Ending

namespace Resumable

/-- What stands somewhere in a list stands at its end or somewhere in what comes
before that. -/
theorem snoc_eq_append_cons {α : Type} {l earlier later : List α} {a b : α}
    (h : l ++ [a] = earlier ++ b :: later) :
    later = [] ∧ l = earlier ∧ a = b ∨ ∃ rest, later = rest ++ [a] ∧
    l = earlier ++ b :: rest := by
  rcases List.eq_nil_or_concat later with rfl | ⟨rest, last, rfl⟩
  · obtain ⟨hl, hlast⟩ := List.append_inj' h rfl
    exact .inl ⟨rfl, hl, List.singleton_inj.mp hlast⟩
  · rw [List.concat_eq_append, ← List.cons_append, ← List.append_assoc] at h
    obtain ⟨hl, hlast⟩ := List.append_inj' h rfl
    cases hlast
    exact .inr ⟨rest, List.concat_eq_append, hl⟩

structure Exchange where
  request : Request
  answer : request.Response

namespace Request

/-- A request that is made for the core. The others a session makes for itself. -/
def forCore : Request → Bool
  | .persist _ _ => false
  | .setTimer _ _ => false
  | .clearTimer _ => false
  | _ => true

def timed : Request → Bool
  | .setTimer _ _ => true
  | .clearTimer _ => true
  | _ => false

theorem untimed_of_forCore {r : Request} (h : r.forCore = true) : r.timed = false := by
  cases r <;> first | rfl | cases h

end Request

namespace Task

variable {α β : Type}

def Runs : Task α → List Exchange → α → Prop
  | .done a, log, b => log = [] ∧ b = a
  | .ask r k, log, b =>
      ∃ answer rest, log = ⟨r, answer⟩ :: rest ∧ (k answer).Runs rest b
  | .never, _, _ => False

theorem runs_request {r : Request} {log : List Exchange} {answer : r.Response} :
    (request r).Runs log answer ↔ log = [⟨r, answer⟩] := by
  constructor
  · rintro ⟨_, _, rfl, rfl, rfl⟩
    rfl
  · rintro rfl
    exact ⟨answer, [], rfl, rfl, rfl⟩

theorem runs_bind {t : Task α} {f : α → Task β} {log : List Exchange} {b : β} :
    (t >>= f).Runs log b ↔
      ∃ a log₁ log₂, log = log₁ ++ log₂ ∧ t.Runs log₁ a ∧ (f a).Runs log₂ b := by
  change (t.bind f).Runs log b ↔ _
  induction t generalizing log with
  | done a =>
      constructor
      · intro h
        exact ⟨a, [], log, rfl, ⟨rfl, rfl⟩, h⟩
      · rintro ⟨_, _, log₂, rfl, ⟨rfl, rfl⟩, h⟩
        exact h
  | ask r k ih =>
      simp only [bind, Runs, ih]
      constructor
      · rintro ⟨answer, _, rfl, a, log₁, log₂, rfl, ha, hb⟩
        exact ⟨a, ⟨r, answer⟩ :: log₁, log₂, rfl, ⟨answer, log₁, rfl, ha⟩, hb⟩
      · rintro ⟨a, _, log₂, rfl, ⟨answer, log₁, rfl, ha⟩, hb⟩
        exact ⟨answer, log₁ ++ log₂, rfl, a, log₁, log₂, rfl, ha, hb⟩
  | never => simp [bind, Runs]

theorem runs_ofOption {a : Option α} {log : List Exchange} {b : α}
    (h : (ofOption a).Runs log b) : log = [] ∧ a = some b := by
  cases a with
  | none => exact h.elim
  | some a => exact ⟨h.1, congrArg some h.2.symm⟩

theorem Runs.ends {t : Task α} {log : List Exchange} {a : α} (h : t.Runs log a) :
    t.Ends a := by
  induction t generalizing log with
  | done b => exact h.2
  | ask r k ih =>
      obtain ⟨answer, rest, rfl, h⟩ := h
      exact ⟨answer, ih answer h⟩
  | never => exact h.elim

theorem Ends.runs {t : Task α} {a : α} (h : t.Ends a) : ∃ log, t.Runs log a := by
  induction t with
  | done b => exact ⟨[], rfl, h⟩
  | ask r k ih =>
      obtain ⟨answer, h⟩ := h
      obtain ⟨rest, hrest⟩ := ih answer h
      exact ⟨⟨r, answer⟩ :: rest, answer, rest, rfl, hrest⟩
  | never => exact h.elim

/-- Carry a task out with a given way to serve requests, and tell what is exchanged. -/
def follow {W : Type} (serve : (r : Request) → W → r.Response × W) :
    Task α → W → Option (List Exchange × α × W)
  | .done a, w => some ([], a, w)
  | .ask r k, w => do
      let (log, ended) ← (k (serve r w).1).follow serve (serve r w).2
      return (⟨r, (serve r w).1⟩ :: log, ended)
  | .never, _ => none

theorem runs_of_follow {W : Type}
    {serve : (r : Request) → W → r.Response × W} {t : Task α} {w w' : W}
    {log : List Exchange} {a : α} (h : t.follow serve w = some (log, a, w')) :
    t.Runs log a := by
  induction t generalizing w log with
  | done b =>
      cases h
      exact ⟨rfl, rfl⟩
  | ask r k ih =>
      obtain ⟨⟨rest, ended⟩, hrest, h⟩ := Option.bind_eq_some_iff.mp h
      cases h
      exact ⟨_, rest, rfl, ih _ hrest⟩
  | never => cases h

/-- The answers decide how a task goes on, so two runs of it that begin one log
are the same. -/
theorem Runs.eq_of_append {t : Task α} {log log' rest rest' : List Exchange} {a b : α}
    (h : t.Runs log a) (h' : t.Runs log' b) (hlog : log ++ rest = log' ++ rest') :
    log = log' ∧ a = b ∧ rest = rest' := by
  induction t generalizing log log' with
  | done c =>
      obtain ⟨rfl, rfl⟩ := h
      obtain ⟨rfl, rfl⟩ := h'
      exact ⟨rfl, rfl, hlog⟩
  | ask r k ih =>
      obtain ⟨answer, tail, rfl, h⟩ := h
      obtain ⟨answer', tail', rfl, h'⟩ := h'
      simp only [List.cons_append, List.cons.injEq, Exchange.mk.injEq, heq_eq_eq,
        true_and] at hlog
      obtain ⟨rfl, htail⟩ := hlog
      obtain ⟨rfl, rfl, hrest⟩ := ih answer h h' htail
      exact ⟨rfl, rfl, hrest⟩
  | never => exact h.elim

theorem Runs.eq_of_prefix {t : Task α} {log log' rest : List Exchange} {a b : α}
    (h : t.Runs log a) (h' : t.Runs log' b) (hlog : log ++ rest = log') : a = b :=
  (h.eq_of_append h' (hlog.trans (List.append_nil _).symm)).2.1

theorem Runs.iff_eq {t : Task α} {log : List Exchange} {a b : α} (h : t.Runs log a) :
    t.Runs log b ↔ b = a := by
  constructor
  · intro h'
    exact h'.eq_of_prefix h (List.append_nil log)
  · rintro rfl
    exact h

section Only

variable {p : Request → Prop}

def Only (p : Request → Prop) : Task α → Prop
  | .done _ => True
  | .ask r k => p r ∧ ∀ answer, (k answer).Only p
  | .never => True

theorem only_pure (a : α) : (pure a : Task α).Only p := trivial

theorem only_request {r : Request} (h : p r) : (request r).Only p :=
  ⟨h, fun _ => trivial⟩

theorem Only.bind {t : Task α} {f : α → Task β} (h : t.Only p)
    (hf : ∀ a, (f a).Only p) : (t >>= f).Only p := by
  change (t.bind f).Only p
  induction t with
  | done a => exact hf a
  | ask r k ih => exact ⟨h.1, fun answer => ih answer (h.2 answer)⟩
  | never => trivial

theorem Only.mono {q : Request → Prop} {t : Task α} (h : t.Only p)
    (hpq : ∀ r, p r → q r) : t.Only q := by
  induction t with
  | done a => trivial
  | ask r k ih => exact ⟨hpq r h.1, fun answer => ih answer (h.2 answer)⟩
  | never => trivial

theorem only_ofOption (a : Option α) : (ofOption a).Only p := by
  cases a <;> trivial

theorem Only.runs {t : Task α} {log : List Exchange} {a : α} (h : t.Only p)
    (hruns : t.Runs log a) : ∀ e ∈ log, p e.request := by
  induction t generalizing log with
  | done b =>
      obtain ⟨rfl, -⟩ := hruns
      exact fun e he => nomatch he
  | ask r k ih =>
      obtain ⟨answer, rest, rfl, hruns⟩ := hruns
      exact List.forall_mem_cons.mpr ⟨h.1, ih answer (h.2 answer) hruns⟩
  | never => exact hruns.elim

end Only

def Total : Task α → Prop
  | .done _ => True
  | .ask _ k => ∀ answer, (k answer).Total
  | .never => False

theorem total_pure (a : α) : (pure a : Task α).Total := trivial

theorem total_request (r : Request) : (request r).Total := fun _ => trivial

theorem Total.bind {t : Task α} {f : α → Task β} (h : t.Total) (hf : ∀ a, (f a).Total) :
    (t >>= f).Total := by
  change (t.bind f).Total
  induction t with
  | done a => exact hf a
  | ask r k ih => exact fun answer => ih answer (h answer)
  | never => exact h.elim

/-- A task that comes to an end whatever it is answered comes to some end, since any
request can be answered. -/
theorem Total.exists_ends {t : Task α} (h : t.Total) : ∃ a, t.Ends a := by
  induction t with
  | done a => exact ⟨a, rfl⟩
  | ask r k ih =>
      have hanswer : Nonempty r.Response := by
        cases r with
        | emit | clearTimer => exact ⟨()⟩
        | fileExists => exact ⟨true⟩
        | openFile | writeFile => exact ⟨.ok 0⟩
        | readFile => exact ⟨.ok .empty⟩
        | closeFile | persist => exact ⟨.ok ()⟩
        | response => exact ⟨.error .timeout⟩
        | pullBody => exact ⟨.ended⟩
        | setTimer => exact ⟨(0 : Nat)⟩
      obtain ⟨answer⟩ := hanswer
      obtain ⟨a, ha⟩ := ih answer (h answer)
      exact ⟨a, answer, ha⟩
  | never => exact h.elim

end Task

end Resumable
