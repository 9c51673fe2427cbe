import Resumable.Proofs.Bridge.Act
import Resumable.Proofs.Service.Alike

namespace Resumable

/-- The same value, and states that `S` relates. -/
structure Alongside {σ τ α : Type} (S : τ → σ → Prop) (r' : α × τ)
    (r : α × σ) : Prop where
  value : r'.1 = r.1
  state : S r'.2 r.2

namespace Act

variable {σ τ ρ ρ' E α β : Type} {S : τ → σ → Prop}

/-- From states that `S` relates, `a` comes to the same as `b` and leaves states that
`S` relates. -/
def Follows (S : τ → σ → Prop) (a : Act τ E α) (b : Act σ E α) : Prop :=
  ∀ t s, S t s → Alongside S (a.on t) (b.on s)

theorem Follows.pure (v : α) : Follows S (Pure.pure v : Act τ E α) (Pure.pure v) :=
  fun _ _ h => ⟨rfl, h⟩

theorem Follows.violate (v : Violation) :
    Follows S (Act.violate v : Act τ E α) (Act.violate v) :=
  fun _ _ h => ⟨rfl, h⟩

theorem Follows.fail (e : E) : Follows S (Act.fail e : Act τ E α) (Act.fail e) :=
  fun _ _ h => ⟨rfl, h⟩

theorem Follows.read {f : τ → α} {f' : σ → α} (hf : ∀ t s, S t s → f t = f' s) :
    Follows S (Act.read f : Act τ E α) (Act.read f') :=
  fun t s h => ⟨congrArg Except.ok (hf t s h), h⟩

theorem Follows.modify {f : τ → τ} {f' : σ → σ} (hf : ∀ t s, S t s → S (f t) (f' s)) :
    Follows S (Act.modify f : Act τ E Unit) (Act.modify f') :=
  fun t s h => ⟨rfl, hf t s h⟩

theorem Follows.bind {a : Act τ E α} {b : Act σ E α} {f : α → Act τ E β}
    {f' : α → Act σ E β} (h : Follows S a b) (hf : ∀ v, Follows S (f v) (f' v)) :
    Follows S (a >>= f) (b >>= f') := by
  intro t s hts
  obtain ⟨hvalue, hstate⟩ := h t s hts
  rw [on_bind, on_bind]
  rcases ha : a.on t with ⟨e | v, t'⟩ <;> rcases hb : b.on s with ⟨e' | v', s'⟩ <;>
    rw [ha, hb] at hvalue hstate
  · cases hvalue
    exact ⟨rfl, hstate⟩
  · cases hvalue
  · cases hvalue
  · cases hvalue
    exact hf v t' s' hstate

theorem Follows.bind_read {f : τ → ρ'} {f' : σ → ρ} {a : ρ' → Act τ E α}
    {b : ρ → Act σ E α} (h : ∀ t s, S t s → Follows S (a (f t)) (b (f' s))) :
    Follows S (do a (← Act.read f)) (do b (← Act.read f')) := by
  intro t s hts
  rw [on_bind_ok (on_read f t), on_bind_ok (on_read f' s)]
  exact h t s hts t s hts

theorem Follows.behind_left {f : τ → τ} {a : Act τ E α} {b : Act σ E α}
    (hf : ∀ t s, S t s → S (f t) s) (h : Follows S a b) :
    Follows S (do Act.modify f; a) b := by
  intro t s hts
  rw [on_bind_ok (on_modify f t)]
  exact h _ _ (hf t s hts)

theorem Follows.behind_right {f : σ → σ} {a : Act τ E α} {b : Act σ E α}
    (hf : ∀ t s, S t s → S t (f s)) (h : Follows S a b) :
    Follows S a (do Act.modify f; b) := by
  intro t s hts
  rw [on_bind_ok (on_modify f s)]
  exact h _ _ (hf t s hts)

theorem projects_iff_follows {g : τ → σ} {a : Act τ E α} {b : Act σ E α} :
    Projects g a b ↔ Follows (fun t s => g t = s) a b := by
  constructor
  · rintro h t _ rfl
    exact ⟨congrArg Prod.fst (h t), congrArg Prod.snd (h t)⟩
  · exact fun h t => Prod.ext (h t _ rfl).value (h t _ rfl).state

end Act

namespace Control

variable {σ τ E F V R : Type} {S : τ → σ → Prop}

/-- A control whose operations follow those of another one. -/
structure Follows (S : τ → σ → Prop) (c' : Control τ E F V)
    (c : Control σ E F V) : Prop where
  rawState : Act.Follows S c'.rawState c.rawState
  startUnwind : Act.Follows S c'.startUnwind c.startUnwind
  stopUnwind : Act.Follows S c'.stopUnwind c.stopUnwind
  startRewind : Act.Follows S c'.startRewind c.startRewind
  stopRewind : Act.Follows S c'.stopRewind c.stopRewind
  resetData : Act.Follows S c'.resetData c.resetData
  getBridge : ∀ t s, S t s → c'.getBridge t = c.getBridge s
  setBridge : ∀ b t s, S t s → S (c'.setBridge b t) (c.setBridge b s)

namespace Follows

variable {c' : Control τ E F V} {c : Control σ E F V}

theorem state (h : Follows S c' c) : Act.Follows S c'.state c.state := by
  refine .bind h.rawState fun raw => ?_
  cases SuspendState.ofRaw? raw with
  | none => exact .violate _
  | some state => exact .pure state

theorem isIdle (h : Follows S c' c) :
    Act.Follows S (c'.isIdle : Act τ E Bool) c.isIdle :=
  .read fun t s hts => by rw [h.getBridge t s hts]

theorem park (h : Follows S c' c) (operation : F) :
    Act.Follows S (c'.park operation) (c.park operation) := by
  refine .bind (.read h.getBridge) fun b => ?_
  cases b.park? operation with
  | none => exact .violate _
  | some b => exact .modify (h.setBridge b)

theorem takeInFlight (h : Follows S c' c) :
    Act.Follows S c'.takeInFlight c.takeInFlight := by
  refine .bind (.read h.getBridge) fun b => ?_
  cases b.takeInFlight? with
  | none => exact .violate _
  | some taken => exact .bind (.modify (h.setBridge taken.2)) fun _ => .pure taken.1

theorem takeResolved (h : Follows S c' c) :
    Act.Follows S c'.takeResolved c.takeResolved := by
  refine .bind (.read h.getBridge) fun b => ?_
  cases b.takeResolved? with
  | none => exact .violate _
  | some taken => exact .bind (.modify (h.setBridge taken.2)) fun _ => .pure taken.1

theorem resolve (h : Follows S c' c) (value : V) :
    Act.Follows S (c'.resolve value) (c.resolve value) := by
  refine .modify fun t s hts => ?_
  rw [h.getBridge t s hts]
  exact h.setBridge _ t s hts

theorem hostCall (h : Follows S c' c) (placeholder : R)
    {start' : Act τ E (HostStep R F)} {start : Act σ E (HostStep R F)}
    {finish' : V → Act τ E R} {finish : V → Act σ E R}
    (hstart : Act.Follows S start' start)
    (hfinish : ∀ v, Act.Follows S (finish' v) (finish v)) :
    Act.Follows S (c'.hostCall placeholder start' finish')
      (c.hostCall placeholder start finish) := by
  refine .bind h.state fun state => ?_
  cases state with
  | normal =>
      refine .bind hstart fun step => ?_
      cases step with
      | ready answer => exact .pure answer
      | suspend operation =>
          exact .bind (h.park operation) fun _ => .bind h.startUnwind fun _ =>
            .pure placeholder
  | unwinding => exact .violate _
  | rewinding =>
      exact .bind h.takeResolved fun value => .bind h.stopRewind fun _ => hfinish value

variable {invoke' : Act τ E R} {invoke : Act σ E R}

theorem settle (h : Follows S c' c) (hinvoke : Act.Follows S invoke' invoke) :
    Act.Follows S (c'.settle invoke') (c.settle invoke) := by
  refine .bind hinvoke fun value => .bind h.state fun state => ?_
  cases state with
  | normal =>
      refine .bind h.isIdle fun idle => ?_
      cases idle with
      | false => exact .violate _
      | true => exact .pure _
  | unwinding => exact .bind h.stopUnwind fun _ => .bind h.takeInFlight fun _ => .pure _
  | rewinding => exact .violate _

theorem enter (h : Follows S c' c) (hinvoke : Act.Follows S invoke' invoke) :
    Act.Follows S (c'.enter invoke') (c.enter invoke) := by
  refine .bind h.state fun state => ?_
  cases state with
  | normal =>
      refine .bind h.isIdle fun idle => ?_
      cases idle with
      | false => exact .violate _
      | true => exact .bind h.resetData fun _ => h.settle hinvoke
  | unwinding => exact .violate _
  | rewinding => exact .violate _

theorem resume (h : Follows S c' c)
    (hinvoke : Act.Follows S invoke' invoke) (value : V) :
    Act.Follows S (c'.resume invoke' value) (c.resume invoke value) := by
  refine .bind h.state fun state => ?_
  cases state with
  | normal =>
      exact .bind (h.resolve value) fun _ => .bind h.startRewind fun _ =>
        h.settle hinvoke
  | unwinding => exact .violate _
  | rewinding => exact .violate _

theorem drive (h : Follows S c' c) (hinvoke : Act.Follows S invoke' invoke)
    {await' : F → τ → Task (V × τ)} {await : F → σ → Task (V × σ)}
    (hawait : ∀ operation t s, S t s →
      Task.Alike (Alongside S) (await' operation t) (await operation s))
    (fuel : Nat) {p' : Except (Failure E) (Progress R F) × τ}
    {p : Except (Failure E) (Progress R F) × σ} (hp : Alongside S p' p) :
    Task.Alike (Option.Rel (Alongside S)) (c'.drive invoke' await' fuel p')
      (c.drive invoke await fuel p) := by
  induction fuel generalizing p' p with
  | zero =>
      obtain ⟨progress, t⟩ := p'
      obtain ⟨_, s⟩ := p
      obtain ⟨rfl, hts⟩ := hp
      rcases progress with e | value | operation
      · exact .done (.some ⟨rfl, hts⟩)
      · exact .done (.some ⟨rfl, hts⟩)
      · exact .done .none
  | succ fuel ih =>
      obtain ⟨progress, t⟩ := p'
      obtain ⟨_, s⟩ := p
      obtain ⟨rfl, hts⟩ := hp
      rcases progress with e | value | operation
      · exact .done (.some ⟨rfl, hts⟩)
      · exact .done (.some ⟨rfl, hts⟩)
      · refine (hawait operation t s hts).bind ?_
        rintro ⟨value, t⟩ ⟨_, s⟩ ⟨rfl, hts⟩
        exact ih (h.resume hinvoke value t s hts)

end Follows

end Control

end Resumable
