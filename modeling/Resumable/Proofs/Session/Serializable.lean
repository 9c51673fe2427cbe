import Mathlib.Data.List.Basic
import Resumable.Proofs.Core.Watched
import Resumable.Proofs.Session.History
import Resumable.Proofs.Session.Turns
import Resumable.Service.EventStore

/-!
# A shared session is as good as one of its own

However callers of one session get in each other's way, all of it could as well have
happened to calls made one after another, in the order in which they got inside: the
answers are the same, and so are the slot, the events that are kept and all else that
services are told.
-/

namespace Resumable

/-- An exchange that tells a service something: an effect, events to keep, or what is
to be with a timer. -/
def Exchange.telling (e : Exchange) : Bool := !e.request.outward

namespace EventStore

def heed (store : EventStore) : Exchange → EventStore
  | ⟨.persist kind events, .ok ()⟩ => store.persist kind events
  | _ => store

def after (store : EventStore) (log : List Exchange) : EventStore :=
  log.foldl heed store

theorem heed_of_not_telling {e : Exchange} (h : e.telling = false)
    (store : EventStore) : store.heed e = store := by
  obtain ⟨r, answer⟩ := e
  cases r with
  | persist => cases h
  | _ => rfl

theorem after_filter_telling (store : EventStore) (log : List Exchange) :
    store.after (log.filter Exchange.telling) = store.after log := by
  induction log generalizing store with
  | nil => rfl
  | cons e rest ih =>
      by_cases he : e.telling = true
      · rw [List.filter_cons_of_pos he]
        exact ih _
      · rw [List.filter_cons_of_neg he, ih]
        change _ = (store.heed e).after rest
        rw [heed_of_not_telling (eq_false_of_ne_true he)]

end EventStore

namespace Occurrence

def exchange? : Occurrence → Option (Nat × Exchange)
  | .approached id e => some (id, e)
  | .exchanged id e => some (id, e)
  | _ => none

def exchanges (past : List Occurrence) : List (Nat × Exchange) :=
  past.filterMap exchange?

def told? (exchange : Nat × Exchange) : Option (Nat × Announcement) :=
  exchange.2.announcement?.map (exchange.1, ·)

theorem filterMap_exchanges_guarded {β : Type} {past : List Occurrence}
    {f : Nat × Exchange → Option β}
    (h : ∀ id e, .approached id e ∈ past → f (id, e) = none) :
    (exchanges past).filterMap f = (exchanges (past.filter guarded)).filterMap f := by
  induction past with
  | nil => rfl
  | cons o rest ih =>
      have ih := ih fun id e he => h id e (List.mem_cons_of_mem _ he)
      cases o with
      | approached id e =>
          simpa [exchanges, exchange?, guarded, h id e (.head _)] using ih
      | exchanged id e =>
          simp only [exchanges, exchange?, guarded, List.filterMap_cons,
            List.filter_cons, if_true] at ih ⊢
          cases f (id, e) <;> simp [ih]
      | _ => exact ih

def announcements (past : List Occurrence) : List (Nat × Announcement) :=
  (exchanges past).filterMap told?

theorem told?_of_outward {id : Nat} {e : Exchange} (h : e.request.outward = true) :
    told? (id, e) = none := by
  obtain ⟨r, answer⟩ := e
  cases r with
  | emit => cases h
  | _ => rfl

theorem entrances_guarded (past : List Occurrence) :
    entrances (past.filter guarded) = entrances past := by
  induction past with
  | nil => rfl
  | cons o rest ih =>
      cases o with
      | entered id => exact congrArg (id :: ·) ih
      | _ => exact ih

end Occurrence

open Occurrence

namespace Stay

def exchanges (x : Stay) : List (Nat × Exchange) := x.log.map (x.id, ·)

def announcements (x : Stay) : List (Nat × Announcement) :=
  (Exchange.announced x.log).map (x.id, ·)

theorem filterMap_told (x : Stay) : x.exchanges.filterMap told? = x.announcements := by
  unfold exchanges announcements Exchange.announced
  rw [List.filterMap_map, List.map_filterMap]
  rfl

theorem exchanges_block (x : Stay) :
    Occurrence.exchanges x.block = x.inside.map (x.id, ·) := by
  change List.filterMap exchange? (x.inside.map (.exchanged x.id)) = _
  rw [List.filterMap_map]
  exact congrFun List.filterMap_eq_map x.inside

theorem entrances_block (x : Stay) : entrances x.block = [x.id] := by
  refine congrArg (x.id :: ·) (List.filterMap_eq_nil_iff.mpr ?_)
  intro o ho
  obtain ⟨e, -, rfl⟩ := List.mem_map.mp ho
  rfl

theorem filterMap_exchanges {β : Type} {x : Stay} {f : Nat × Exchange → Option β}
    (hf : ∀ id e, e.request.outward = true → f (id, e) = none)
    (hx : ∀ e ∈ x.before, e.request.outward = true) :
    x.exchanges.filterMap f = (Occurrence.exchanges x.block).filterMap f := by
  have hbefore : (x.before.map (x.id, ·)).filterMap f = [] := by
    refine List.filterMap_eq_nil_iff.mpr ?_
    intro exchange hexchange
    obtain ⟨e, he, rfl⟩ := List.mem_map.mp hexchange
    exact hf x.id e (hx e he)
  rw [exchanges_block, exchanges, log, List.map_append, List.filterMap_append,
    hbefore, List.nil_append]

end Stay

namespace Callers

variable {G : Type} {setup : Setup G} {past : List Occurrence} {c : Callers G}
  {turns : List Turn} {now : Option Stay}

namespace InTurns

theorem of_now {x : Stay} (h : InTurns setup past c turns now) (hx : now = some x) :
    ∃ task, c.callers x.id = some ⟨x.call, .inside task⟩ ∧
    x.before = outside x.id past ∧
      (setup.serve x.call c.slot).Reaches x.log task := by
  obtain ⟨call, stage, hid, hstage⟩ := h.present x hx
  cases stage with
  | inside task =>
      obtain ⟨log, hnow, hreaches⟩ := h.of_inside hid
      have hstay := Option.some.inj (hx.symm.trans hnow)
      have hcall : x.call = call := congrArg Stay.call hstay
      have hbefore : x.before = outside x.id past := congrArg Stay.before hstay
      have hlog : x.log = outside x.id past ++ log := congrArg Stay.log hstay
      rw [hcall, hlog]
      exact ⟨task, hid, hbefore, hreaches⟩
  | _ => cases hstage

theorem outward_before (h : InTurns setup past c turns now) :
    (∀ t ∈ turns, ∀ e ∈ t.before, e.request.outward = true) ∧
      ∀ x ∈ now.toList, ∀ e ∈ x.before, e.request.outward = true := by
  constructor
  · intro t ht e he
    rw [(h.left t ht).2] at he
    exact h.outward _ e (mem_outside he)
  · intro x hx e he
    obtain ⟨_, -, hbefore, -⟩ := h.of_now (Option.mem_toList.mp hx)
    rw [hbefore] at he
    exact h.outward _ e (mem_outside he)

theorem exchanges {β : Type} {f : Nat × Exchange → Option β}
    (h : InTurns setup past c turns now)
    (hf : ∀ id e, e.request.outward = true → f (id, e) = none) :
    (Occurrence.exchanges past).filterMap f =
      (turns.flatMap (·.exchanges) ++ now.toList.flatMap Stay.exchanges).filterMap
        f := by
  obtain ⟨hturns, hnow⟩ := h.outward_before
  -- What is exchanged before the gate can be left out of the past, and of the
  -- turns as well.
  rw [filterMap_exchanges_guarded fun id e he => hf id e (h.outward id e he), h.blocks]
  simp only [Occurrence.exchanges, List.filterMap_append, List.filterMap_flatMap]
  congr 1
  · refine List.flatMap_congr fun t ht => ?_
    refine Eq.trans ?_ (t.toStay.filterMap_exchanges hf (hturns t ht)).symm
    unfold Turn.block Occurrence.exchanges
    rw [List.filterMap_append]
    exact congrArg _ (List.append_nil _)
  · exact List.flatMap_congr fun x hx => (x.filterMap_exchanges hf (hnow x hx)).symm

theorem announcements (h : InTurns setup past c turns now) :
    Occurrence.announcements past =
      turns.flatMap (·.announcements) ++ now.toList.flatMap Stay.announcements := by
  unfold Occurrence.announcements
  rw [h.exchanges fun _ _ => told?_of_outward, List.filterMap_append,
    List.filterMap_flatMap, List.filterMap_flatMap]
  simp only [Stay.filterMap_told]

theorem effects (h : InTurns setup past c turns now) :
    (Occurrence.exchanges past).filter (·.2.telling) =
      (turns.flatMap (·.exchanges) ++ now.toList.flatMap Stay.exchanges).filter
        (·.2.telling) := by
  rw [← List.filterMap_eq_filter]
  refine h.exchanges fun id e he => ?_
  simp [Option.guard, Exchange.telling, he]

end InTurns

/-- What has happened among callers, told as the turns of the calls that left, and the
stay of the one that is inside now. -/
structure Serialized (setup : Setup G) (past : List Occurrence) (c : Callers G)
    (turns : List Turn) (now : Option Stay) : Prop where
  /-- Behind the gate, each call is a block. -/
  blocks : past.filter guarded =
    turns.flatMap Turn.block ++ now.toList.flatMap Stay.block
  /-- So are the exports that are invoked, as watched cores announce them. -/
  announced : announcements past = turns.flatMap (·.announcements) ++
    now.toList.flatMap Stay.announcements
  /-- The turns are in the order in which callers got inside, and that is the one in
  which they came. -/
  order : turns.map (·.id) ++ now.toList.map (·.id) = entrances past
  fifo : (entrances past).Sublist (arrivals past)
  nodup : (entrances past).Nodup
  /-- The turns are calls that were made and answered so, with all they exchanged
  before the gate. -/
  left : ∀ t ∈ turns, c.callers t.id = some ⟨t.call, .answered t.reply⟩ ∧
    t.before = outside t.id past
  /-- Made one after another, with what services answered, they come to those answers
  and that slot, and to no others. -/
  serial : ∀ ended, (setup.serially (turns.map (·.call)) .empty).Runs
    (turns.flatMap (·.log)) ended ↔ ended = (turns.map (·.reply), c.slot)
  /-- The call that is inside goes on from there as the next one. -/
  inside : ∀ x, now = some x → ∃ task, c.callers x.id = some ⟨x.call, .inside task⟩ ∧
    x.before = outside x.id past ∧ (setup.serve x.call c.slot).Reaches x.log task
  holder : c.gate.holder = now.map (·.id)
  /-- A call that is answered without a turn is answered so whatever the slot is, and
  leaves that alone. -/
  answered : ∀ id call reply, c.callers id = some ⟨call, .answered reply⟩ →
    (∃ t ∈ turns, t.id = id) ∨
    ∀ s, (setup.serve call s).Runs (outside id past) (reply, s)
  /-- What services are told is the same, in the same order. -/
  effects : (exchanges past).filter (·.2.telling) =
    (turns.flatMap (·.exchanges) ++ now.toList.flatMap Stay.exchanges).filter
    (·.2.telling)
  /-- And so is what is kept. -/
  stored : ∀ store : EventStore, store.after ((exchanges past).map (·.2)) =
    store.after (turns.flatMap (·.log) ++ now.toList.flatMap Stay.log)

namespace InTurns

theorem order (h : InTurns setup past c turns now) :
    turns.map (·.id) ++ now.toList.map (·.id) = entrances past := by
  have hturn (t : Turn) : entrances t.block = [t.id] := by
    unfold Turn.block
    rw [entrances_append, Stay.entrances_block]
    rfl
  rw [← entrances_guarded, h.blocks, entrances_append, List.map_eq_flatMap,
    List.map_eq_flatMap]
  unfold entrances at hturn ⊢
  rw [List.filterMap_flatMap, List.filterMap_flatMap]
  simp only [hturn]
  congr 1
  exact List.flatMap_congr fun x _ => x.entrances_block.symm

theorem stored (h : InTurns setup past c turns now) (store : EventStore) :
    store.after ((Occurrence.exchanges past).map (·.2)) =
      store.after (turns.flatMap (·.log) ++ now.toList.flatMap Stay.log) := by
  have hheard (l : List (Nat × Exchange)) :
      store.after (l.map (·.2)) = store.after ((l.filter (·.2.telling)).map (·.2)) := by
    rw [← store.after_filter_telling, List.filter_map]
    rfl
  have hlog (x : Stay) : x.exchanges.map (·.2) = x.log := by
    unfold Stay.exchanges
    rw [List.map_map]
    exact List.map_id _
  rw [hheard, h.effects, ← hheard, List.map_append, List.map_flatMap, List.map_flatMap]
  simp only [hlog]

theorem answered (h : InTurns setup past c turns now) {id : Nat} {call : Call}
    {reply : Reply} (hid : c.callers id = some ⟨call, .answered reply⟩) :
    (∃ t ∈ turns, t.id = id) ∨
    ∀ s, (setup.serve call s).Runs (outside id past) (reply, s) := by
  have htold := h.told id
  rw [hid] at htold
  generalize hbefore : outside id past = before at htold
  cases htold with
  | served ht hturn => exact .inl ⟨_, ht, hturn⟩
  | refused hrefused =>
      refine .inr fun s => ?_
      rw [setup.serve_eq_approach]
      exact Task.runs_bind.mpr ⟨_, before, [], (List.append_nil _).symm,
        hrefused, rfl, rfl⟩

theorem holder (h : InTurns setup past c turns now) (hc : c.Attended past) :
    c.gate.holder = now.map (·.id) := by
  cases now with
  | some x => exact (hc.holder x.id).mpr (h.present x rfl)
  | none =>
      refine Option.eq_none_iff_forall_ne_some.mpr fun id hid => ?_
      obtain ⟨call, stage, hid, hstage⟩ := (hc.holder id).mp hid
      cases stage with
      | inside task =>
          obtain ⟨_, hnow, -⟩ := h.of_inside hid
          cases hnow
      | _ => cases hstage

theorem serialized (h : InTurns setup past c turns now) (hc : c.Attended past) :
    Serialized setup past c turns now where
  blocks := h.blocks
  announced := h.announcements
  order := h.order
  fifo := (List.sublist_append_left _ _).trans hc.fifo
  nodup := hc.nodup.sublist ((List.sublist_append_left _ _).trans hc.fifo)
  left := h.left
  serial := fun _ => h.serial.iff_eq
  inside := fun _ => h.of_now
  holder := h.holder hc
  answered := fun _ _ _ => h.answered
  effects := h.effects
  stored := h.stored

end InTurns

end Callers

namespace Setup

variable {G : Type} {setup : Setup G} {past : List Occurrence} {c : Callers G}

/-- Calls of a shared session are serializable, whoever is polled when, and in
whatever order that comes which is waited for. -/
theorem Shared.serializable (h : setup.Shared past c) :
    ∃ turns now, Callers.Serialized setup past c turns now := by
  obtain ⟨turns, now, hturns⟩ := h.inTurns
  exact ⟨turns, now, hturns.serialized h.attended⟩

/-- One caller loads the quiet core, the next sets it up, and meanwhile a third waits
that finds it ready. -/
theorem quiet_shared :
    ∃ past c, quiet.watched.Shared past c ∧
      arrivals past = [0, 1, 2] ∧
      announcements past = [(1, .created), (1, .invoked .setup false)] ∧
      c.callers 2 = some ⟨.lifecycle, .answered (.lifecycle .ready)⟩ ∧
      ∃ turns now, Callers.Serialized quiet.watched past c turns now := by
  have h :=
    (@Shared.start _ quiet.watched).step
      (@Callers.Step.called _ _ _ 0 rfl (.carry (.load .empty)))
  have h := h.step (@Callers.Step.called _ _ _ 1 rfl (.carry .init))
  have h := h.step (@Callers.Step.called _ _ _ 2 rfl .lifecycle)
  have h := h.step (@Callers.Step.walkedIn _ _ _ 0 _ _ rfl rfl)
  have h := h.step (@Callers.Step.linedUp _ _ _ 1 _ _ rfl (by decide))
  have h := h.step (@Callers.Step.left _ _ _ 0 _ _ _ rfl)
  have h := h.step (@Callers.Step.entered _ _ _ 1 _ _ rfl rfl)
  have h := h.step (@Callers.Step.exchanged _ _ _ 1 _ _ _ rfl ())
  have h := h.step (@Callers.Step.linedUp _ _ _ 2 _ _ rfl (by decide))
  have h := h.step (@Callers.Step.exchanged _ _ _ 1 _ _ _ rfl ())
  have h := h.step (@Callers.Step.left _ _ _ 1 _ _ _ rfl)
  have h := h.step (@Callers.Step.entered _ _ _ 2 _ _ rfl rfl)
  have h := h.step (@Callers.Step.left _ _ _ 2 _ _ _ rfl)
  exact ⟨_, _, h, rfl, rfl, rfl, h.serializable⟩
end Setup

end Resumable
