import Resumable.Proofs.Service.Exchanges

namespace Resumable

def Effect.isRemark : Effect → Bool
  | .remark _ => true
  | .fetch _ _ => false

def Request.isRemark : Request → Bool
  | .emit effect => effect.isRemark
  | _ => false

def Exchange.unremarked (log : List Exchange) : List Exchange :=
  log.filter fun e => !e.request.isRemark

namespace Task

variable {α β γ δ : Type} {S : β → α → Prop} {t' : Task β} {t : Task α}

inductive Alike (S : β → α → Prop) : Task β → Task α → Prop where
  | done {b : β} {a : α} (h : S b a) : Alike S (.done b) (.done a)
  | ask (r : Request) {k' : r.Response → Task β} {k : r.Response → Task α}
      (h : ∀ answer, Alike S (k' answer) (k answer)) : Alike S (.ask r k') (.ask r k)
  | left (line : Remark) {k' : Unit → Task β} {t : Task α} (h : Alike S (k' ()) t) :
      Alike S (.ask (.emit (.remark line)) k') t
  | right (line : Remark) {t' : Task β} {k : Unit → Task α} (h : Alike S t' (k ())) :
      Alike S t' (.ask (.emit (.remark line)) k)
  | never : Alike S .never .never

namespace Alike

theorem refl (t : Task α) : Alike Eq t t := by
  induction t with
  | done a => exact .done rfl
  | ask r k ih => exact .ask r ih
  | never => exact .never

theorem pure {b : β} {a : α} (h : S b a) :
    Alike S (Pure.pure b) (Pure.pure a) := .done h

theorem bind {S' : δ → γ → Prop} {f' : β → Task δ} {f : α → Task γ} (h : Alike S t' t)
    (hf : ∀ b a, S b a → Alike S' (f' b) (f a)) : Alike S' (t' >>= f') (t >>= f) := by
  induction h with
  | done h => exact hf _ _ h
  | ask r _ ih => exact .ask r ih
  | left line _ ih => exact .left line ih
  | right line _ ih => exact .right line ih
  | never => exact .never

theorem symm (h : Alike S t' t) : Alike (fun a b => S b a) t t' := by
  induction h with
  | done h => exact .done h
  | ask r _ ih => exact .ask r ih
  | left line _ ih => exact .right line ih
  | right line _ ih => exact .left line ih
  | never => exact .never

theorem runs {log' : List Exchange} {b : β} (h : Alike S t' t)
    (hruns : t'.Runs log' b) : ∃ log a, t.Runs log a ∧ S b a ∧
    Exchange.unremarked log' = Exchange.unremarked log := by
  induction h generalizing log' with
  | done h =>
      obtain ⟨rfl, rfl⟩ := hruns
      exact ⟨[], _, ⟨rfl, rfl⟩, h, rfl⟩
  | ask r _ ih =>
      obtain ⟨answer, rest', rfl, hruns⟩ := hruns
      obtain ⟨rest, a, hruns, hba, hrest⟩ := ih answer hruns
      refine ⟨⟨r, answer⟩ :: rest, a, ⟨answer, rest, rfl, hruns⟩, hba, ?_⟩
      rw [Exchange.unremarked, List.filter_cons, Exchange.unremarked, List.filter_cons]
      exact congrArg (fun l => if !r.isRemark then ⟨r, answer⟩ :: l else l) hrest
  | left line _ ih =>
      obtain ⟨answer, rest', rfl, hruns⟩ := hruns
      obtain ⟨rest, a, hruns, hba, hrest⟩ := ih hruns
      exact ⟨rest, a, hruns, hba, hrest⟩
  | right line _ ih =>
      obtain ⟨rest, a, hruns, hba, hrest⟩ := ih hruns
      exact ⟨⟨.emit (.remark line), ()⟩ :: rest, a, ⟨(), rest, rfl, hruns⟩, hba, hrest⟩
  | never => exact hruns.elim

end Alike

end Task

end Resumable
