import Resumable.Bridge.Basic

namespace Resumable

namespace Act

variable {σ E α β : Type}

@[simp]
theorem on_modify (f : σ → σ) (s : σ) :
    (modify f : Act σ E Unit).on s = (.ok (), f s) := rfl

@[simp]
theorem on_read (f : σ → α) (s : σ) : (read f : Act σ E α).on s = (.ok (f s), s) := rfl

theorem on_bind (a : Act σ E α) (f : α → Act σ E β) (s : σ) :
    (a >>= f).on s =
      match a.on s with
      | (.ok x, t) => (f x).on t
      | (.error e, t) => (.error e, t) := by
  simp only [on, ExceptT.run, bind, ExceptT.bind, ExceptT.mk, StateT.run, StateT.bind]
  rcases a s with ⟨_ | _, _⟩ <;> rfl

theorem on_bind_ok {a : Act σ E α} {f : α → Act σ E β} {s t : σ} {x : α}
    (h : a.on s = (.ok x, t)) : (a >>= f).on s = (f x).on t := by
  rw [on_bind, h]

theorem on_bind_error {a : Act σ E α} {f : α → Act σ E β} {s t : σ} {e : Failure E}
    (h : a.on s = (.error e, t)) : (a >>= f).on s = (.error e, t) := by
  rw [on_bind, h]

/-- What has come of a step: `q` with its value, or `x` if it has failed. -/
def Came (q : α → σ → Prop) (x : σ → Prop) : Except (Failure E) α × σ → Prop
  | (.ok v, s) => q v s
  | (.error _, s) => x s

def Ensures (p : σ → Prop) (a : Act σ E α) (q : α → σ → Prop) (x : σ → Prop) : Prop :=
  ∀ s, p s → Came q x (a.on s)

variable {p : σ → Prop} {q : α → σ → Prop} {x : σ → Prop}

theorem Ensures.pure {a : α} (h : ∀ s, p s → q a s) :
    Ensures p (Pure.pure a : Act σ E α) q x :=
  h

theorem Ensures.violate {v : Violation} (h : ∀ s, p s → x s) :
    Ensures p (violate v : Act σ E α) q x :=
  h

theorem Ensures.modify {f : σ → σ} {q : Unit → σ → Prop} (h : ∀ s, p s → q () (f s)) :
    Ensures p (modify f : Act σ E Unit) q x :=
  h

theorem Ensures.read {f : σ → α} (h : ∀ s, p s → q (f s) s) :
    Ensures p (read f : Act σ E α) q x :=
  h

theorem Ensures.bind {a : Act σ E α} {f : α → Act σ E β} {r : β → σ → Prop}
    (ha : Ensures p a q x) (hf : ∀ v, Ensures (q v) (f v) r x) :
    Ensures p (a >>= f) r x := by
  intro s hs
  have h := ha s hs
  rw [on_bind]
  rcases hr : a.on s with ⟨_ | v, t⟩
  · rw [hr] at h
    exact h
  · rw [hr] at h
    exact hf v t h

theorem Ensures.mono {a : Act σ E α} {p' : σ → Prop} {q' : α → σ → Prop} {x' : σ → Prop}
    (h : Ensures p a q x) (hp : ∀ s, p' s → p s) (hq : ∀ v s, q v s → q' v s)
    (hx : ∀ s, x s → x' s) : Ensures p' a q' x' := by
  intro s hs
  have h := h s (hp s hs)
  rcases hr : a.on s with ⟨_ | v, t⟩
  · rw [hr] at h
    exact hx t h
  · rw [hr] at h
    exact hq v t h

theorem Ensures.any (p : σ → Prop) (a : Act σ E α) :
    Ensures p a (fun _ _ => True) (fun _ => True) := by
  intro s _
  rcases a.on s with ⟨_ | v, t⟩ <;> trivial

theorem Ensures.of_pre {a : Act σ E α} {p' : σ → Prop} (h : Ensures p a q x)
    (hp : ∀ s, p' s → p s) : Ensures p' a q x :=
  h.mono hp (fun _ _ => id) fun _ => id

section Projects

variable {τ : Type} {g : τ → σ}

def zoom (get : τ → σ) (set : σ → τ → τ) (a : Act σ E α) : Act τ E α := fun t =>
  ((a.on (get t)).1, set (a.on (get t)).2 t)

@[simp]
theorem on_zoom (get : τ → σ) (set : σ → τ → τ) (a : Act σ E α) (t : τ) :
    (zoom get set a).on t = ((a.on (get t)).1, set (a.on (get t)).2 t) := rfl

/-- The first step does to the part of the state that `g` shows what the
second one does. -/
def Projects (g : τ → σ) (a : Act τ E α) (b : Act σ E α) : Prop :=
  ∀ t, ((a.on t).1, g (a.on t).2) = b.on (g t)

theorem Projects.pure (v : α) : Projects g (Pure.pure v : Act τ E α) (Pure.pure v) :=
  fun _ => rfl

theorem Projects.zoom {set : σ → τ → τ} (h : ∀ s t, g (set s t) = s) (a : Act σ E α) :
    Projects g (zoom g set a) a := by
  intro t
  rw [on_zoom, h]

theorem Projects.bind {a : Act τ E α} {b : Act σ E α} {f : α → Act τ E β}
    {f' : α → Act σ E β} (h : Projects g a b) (hf : ∀ v, Projects g (f v) (f' v)) :
    Projects g (a >>= f) (b >>= f') := by
  intro t
  have h := h t
  rw [on_bind, on_bind, ← h]
  rcases a.on t with ⟨_ | v, u⟩
  · rfl
  · exact hf v u

theorem Projects.behind_modify {f : τ → τ} {a : Act τ E α} {b : Act σ E α}
    (hf : ∀ t, g (f t) = g t) (h : Projects g a b) :
    Projects g (do Act.modify f; a) b := by
  intro t
  rw [on_bind_ok (on_modify f t), h, hf]

theorem Projects.before_modify {f : α → τ → τ} {a : Act τ E α} {b : Act σ E α}
    (hf : ∀ v t, g (f v t) = g t) (h : Projects g a b) :
    Projects g (do let v ← a; Act.modify (f v); return v) b := by
  intro t
  rw [on_bind, ← h t]
  rcases a.on t with ⟨_ | v, u⟩
  · rfl
  · change (Except.ok v, g (f v u)) = _
    rw [hf]

end Projects

end Act

end Resumable
