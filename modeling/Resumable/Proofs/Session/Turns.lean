import Resumable.Proofs.Session.Attendance

namespace Resumable

namespace Occurrence

def guarded : Occurrence → Bool
  | .entered _ => true
  | .exchanged _ _ => true
  | .left _ _ => true
  | _ => false

def outside? (id : Nat) : Occurrence → Option Exchange
  | .approached n e => if n = id then some e else none
  | _ => none

def outside (id : Nat) (past : List Occurrence) : List Exchange :=
  past.filterMap (outside? id)

theorem outside_append (id : Nat) (past more : List Occurrence) :
    outside id (past ++ more) = outside id past ++ outside id more :=
  List.filterMap_append

theorem outside_append_of_nil {id : Nat} {past more : List Occurrence}
    (h : outside id more = []) : outside id (past ++ more) = outside id past := by
  rw [outside_append, h, List.append_nil]

@[simp]
theorem outside_approached (id n : Nat) (e : Exchange) :
    outside id [.approached n e] = if n = id then [e] else [] := by
  unfold outside outside?
  split <;> simp [*]

theorem mem_outside {id : Nat} {past : List Occurrence} {e : Exchange}
    (h : e ∈ outside id past) : .approached id e ∈ past := by
  obtain ⟨o, ho, he⟩ := List.mem_filterMap.mp h
  cases o with
  | approached n e' =>
      obtain ⟨rfl, rfl⟩ : n = id ∧ e' = e := by simpa [outside?] using he
      exact ho
  | _ => cases he

end Occurrence

open Occurrence

/-- A call from when it gets inside, with what it has exchanged before the gate
and behind it. -/
structure Stay where
  id : Nat
  call : Call
  before : List Exchange
  inside : List Exchange

structure Turn extends Stay where
  reply : Reply

namespace Stay

def log (x : Stay) : List Exchange := x.before ++ x.inside

def block (x : Stay) : List Occurrence :=
  .entered x.id :: x.inside.map (.exchanged x.id)

end Stay

def Turn.block (t : Turn) : List Occurrence := t.toStay.block ++ [.left t.id t.reply]

namespace Setup

variable {G : Type} {setup : Setup G}

def serially (setup : Setup G) : List Call → Slot G → Task (List Reply × Slot G)
  | [], s => return ([], s)
  | call :: rest, s => do
      let (reply, s) ← setup.serve call s
      let (replies, s) ← setup.serially rest s
      return (reply :: replies, s)

theorem runs_serially_snoc {calls : List Call} {call : Call} {s t u : Slot G}
    {log log' : List Exchange} {replies : List Reply} {reply : Reply}
    (h : (setup.serially calls s).Runs log (replies, t))
    (h' : (setup.serve call t).Runs log' (reply, u)) :
    (setup.serially (calls ++ [call]) s).Runs (log ++ log')
      (replies ++ [reply], u) := by
  -- On the calls before, since each of them changes the slot for the next.
  induction calls generalizing s log replies with
  | nil =>
      obtain ⟨rfl, h⟩ := h
      cases h
      exact Task.runs_bind.mpr ⟨_, log', [], (List.append_nil _).symm, h', rfl, rfl⟩
  | cons first rest ih =>
      obtain ⟨⟨reply₁, s₁⟩, log₁, _, rfl, hfirst, h⟩ := Task.runs_bind.mp h
      obtain ⟨⟨replies₁, s₂⟩, log₂, _, rfl, hrest, rfl, hended⟩ := Task.runs_bind.mp h
      cases hended
      rw [List.append_nil, List.append_assoc]
      refine Task.runs_bind.mpr ⟨_, log₁, log₂ ++ log', rfl, hfirst, ?_⟩
      exact Task.runs_bind.mpr ⟨_, log₂ ++ log', [], (List.append_nil _).symm,
        ih hrest, rfl, rfl⟩

end Setup

namespace Callers

variable {G : Type} {setup : Setup G} {past more : List Occurrence}
  {c c' : Callers G} {id : Nat} {call : Call} {turns turns' : List Turn}
  {now now' : Option Stay} {slot slot' : Slot G} {before : List Exchange}
  {stage : Stage G}

/-- How a caller has got to where it stands. -/
inductive Told (setup : Setup G) (turns : List Turn) (now : Option Stay)
    (slot : Slot G) (id : Nat) (before : List Exchange) : Option (Caller G) → Prop where
  | nobody (h : before = []) : Told setup turns now slot id before none
  | approaching {call : Call} {task : Task (Approach G)}
      (h : (setup.approach call).Reaches before task) :
      Told setup turns now slot id before (some ⟨call, .approaching task⟩)
  | lining {call : Call} {work : Slot G → Task (Reply × Slot G)}
      (h : (setup.approach call).Runs before (.gated work)) :
      Told setup turns now slot id before (some ⟨call, .lining work⟩)
  | inside {call : Call} {task : Task (Reply × Slot G)} {log : List Exchange}
      (hnow : now = some ⟨id, call, before, log⟩)
      (h : (setup.serve call slot).Reaches (before ++ log) task) :
      Told setup turns now slot id before (some ⟨call, .inside task⟩)
  | served {t : Turn} (ht : t ∈ turns) (hid : t.id = id) :
      Told setup turns now slot id before (some ⟨t.call, .answered t.reply⟩)
  | refused {call : Call} {reply : Reply}
      (h : (setup.approach call).Runs before (.answered reply)) :
      Told setup turns now slot id before (some ⟨call, .answered reply⟩)
  | gone {call : Call} : Told setup turns now slot id before (some ⟨call, .gone⟩)

/-- Whoever is not inside does not notice what those do that are. -/
theorem Told.aside {caller : Option (Caller G)}
    (h : Told setup turns now slot id before caller)
    (hnow : ∀ x, now = some x → x.id ≠ id) (hturns : turns ⊆ turns') :
    Told setup turns' now' slot' id before caller := by
  cases h with
  | nobody h => exact .nobody h
  | approaching h => exact .approaching h
  | lining h => exact .lining h
  | inside hin => exact absurd rfl (hnow _ hin)
  | served ht hid => exact .served (hturns ht) hid
  | refused h => exact .refused h
  | gone => exact .gone

/-- The callers that have been inside, one after another, and the one that is. -/
structure InTurns (setup : Setup G) (past : List Occurrence) (c : Callers G)
    (turns : List Turn) (now : Option Stay) : Prop where
  blocks : past.filter guarded =
    turns.flatMap Turn.block ++ now.toList.flatMap Stay.block
  serial : (setup.serially (turns.map (·.call)) .empty).Runs (turns.flatMap (·.log))
    (turns.map (·.reply), c.slot)
  left : ∀ t ∈ turns, c.callers t.id = some ⟨t.call, .answered t.reply⟩ ∧
    t.before = outside t.id past
  present : ∀ x, now = some x → c.Inside x.id
  told : ∀ id, Told setup turns now c.slot id (outside id past) (c.callers id)
  outward : ∀ id e, .approached id e ∈ past → e.request.outward = true

theorem Attended.inside_unique (h : c.Attended past) {n : Nat} (hid : c.Inside id)
    (hn : c.Inside n) : id = n :=
  Option.some.inj (((h.holder id).mpr hid).symm.trans ((h.holder n).mpr hn))

namespace InTurns

/-- A caller goes on. What the others have to do with it is that the turns and the one
inside change. -/
theorem put (h : InTurns setup past c turns now) (gate : Gate Nat) (slot : Slot G)
    (hid : ¬ ∃ call reply,
      c.callers id = some ⟨call, .answered reply⟩)
    (hblocks : (past ++ more).filter guarded = turns'.flatMap Turn.block ++
      now'.toList.flatMap Stay.block)
    (hserial : (setup.serially (turns'.map (·.call)) .empty).Runs
      (turns'.flatMap (·.log)) (turns'.map (·.reply), slot))
    (hleft : ∀ t ∈ turns', t ∈ turns ∨
      t.id = id ∧ t.call = call ∧ stage = .answered t.reply ∧
      t.before = outside id (past ++ more))
    (hpresent : ∀ x, now' = some x → (c.put id call stage).Inside x.id)
    (htold : Told setup turns' now' slot id (outside id (past ++ more))
      (some ⟨call, stage⟩))
    (haside : ∀ n ≠ id, Told setup turns' now' slot n (outside n past) (c.callers n))
    (hmore : ∀ n ≠ id, outside n more = [])
    (houtward : ∀ n e, .approached n e ∈ more → e.request.outward = true) :
    InTurns setup (past ++ more)
      { c.put id call stage with slot := slot, gate := gate } turns' now' where
  blocks := hblocks
  serial := hserial
  left := by
    intro t ht
    change (c.put id call stage).callers t.id = _ ∧ _
    rcases hleft t ht with ht | ⟨rfl, rfl, rfl, hbefore⟩
    · obtain ⟨hanswered, hbefore⟩ := h.left t ht
      have hne : t.id ≠ id := by
        rintro rfl
        exact hid ⟨_, _, hanswered⟩
      rw [put_of_ne hne, outside_append, hmore _ hne, List.append_nil]
      exact ⟨hanswered, hbefore⟩
    · exact ⟨put_self .., hbefore⟩
  present := hpresent
  told := by
    intro n
    change Told _ _ _ _ _ _ ((c.put id call stage).callers n)
    by_cases hn : n = id
    · subst hn
      rw [put_self]
      exact htold
    · rw [put_of_ne hn, outside_append, hmore n hn, List.append_nil]
      exact haside n hn
  outward := by
    intro n e he
    rcases List.mem_append.mp he with he | he
    · exact h.outward n e he
    · exact houtward n e he

theorem quiet (h : InTurns setup past c turns now) (gate : Gate Nat)
    (hid : ¬ ∃ call reply,
      c.callers id = some ⟨call, .answered reply⟩) (hout : ¬ c.Inside id)
        (hmore : more.filter guarded = [])
    (htold : Told setup turns now c.slot id (outside id (past ++ more))
      (some ⟨call, stage⟩))
    (hothers : ∀ n ≠ id, outside n more = [])
    (houtward : ∀ n e, .approached n e ∈ more → e.request.outward = true) :
    InTurns setup (past ++ more) { c.put id call stage with gate := gate }
      turns now := by
  have hne : ∀ x, now = some x → x.id ≠ id := by
    rintro x hx rfl
    exact hout (h.present x hx)
  refine h.put gate c.slot hid ?_ h.serial (fun t ht => .inl ht) ?_ htold
    (fun n _ => h.told n) hothers houtward
  · rw [List.filter_append, hmore, List.append_nil]
    exact h.blocks
  · exact fun x hx => inside_put.mpr (.inr ⟨hne x hx, h.present x hx⟩)

theorem free (h : InTurns setup past c turns now) {gate : Gate Nat}
    {past' : List Occurrence}
    (hc : { c.put id call stage with gate := gate }.Attended past')
    (hstage : stage.Within) (hout : ¬ c.Inside id) : now = none := by
  refine Option.eq_none_iff_forall_ne_some.mpr fun x hx => ?_
  have hin := h.present x hx
  have hne : x.id ≠ id := by
    rintro rfl
    exact hout hin
  exact hne
    (hc.inside_unique (inside_put.mpr (.inr ⟨hne, hin⟩))
      (inside_put.mpr (.inl ⟨rfl, hstage⟩)))

theorem enter {work : Slot G → Task (Reply × Slot G)}
    (h : InTurns setup past c turns none) (gate : Gate Nat)
    (hid : ¬ ∃ call reply, c.callers id = some ⟨call, .answered reply⟩)
    (hwork : (setup.approach call).Runs (outside id past) (.gated work))
    (hguarded : more.filter guarded = [.entered id])
    (hmore : ∀ n, outside n more = []) (houtward : ∀ n e, .approached n e ∉ more) :
    InTurns setup (past ++ more)
      { c.put id call (.inside (work c.slot)) with gate := gate } turns
        (some ⟨id, call, outside id past, []⟩) := by
  refine h.put gate c.slot hid ?_ h.serial (fun t ht => .inl ht) ?_ ?_ ?_
    (fun n _ => hmore n) (fun n e he => absurd he (houtward n e))
  · rw [List.filter_append, h.blocks, hguarded]
    exact congrArg (· ++ _) (List.append_nil _)
  · rintro x ⟨⟩
    exact inside_put.mpr (.inl ⟨rfl, trivial⟩)
  · rw [outside_append_of_nil (hmore id)]
    refine .inside rfl ?_
    rw [List.append_nil, setup.serve_eq_approach]
    exact (Task.reaches_done.mpr hwork).bind fun approach => approach.goOn c.slot
  · exact fun n _ => (h.told n).aside nofun (List.Subset.refl _)

section Standing

variable (h : InTurns setup past c turns now)

include h

theorem of_approaching {task : Task (Approach G)}
    (hid : c.callers id = some ⟨call, .approaching task⟩) :
    (setup.approach call).Reaches (outside id past) task := by
  have htold := h.told id
  rw [hid] at htold
  cases htold with
  | approaching hreaches => exact hreaches

theorem of_lining {work : Slot G → Task (Reply × Slot G)}
    (hid : c.callers id = some ⟨call, .lining work⟩) :
    (setup.approach call).Runs (outside id past) (.gated work) := by
  have htold := h.told id
  rw [hid] at htold
  cases htold with
  | lining hwork => exact hwork

theorem of_inside {task : Task (Reply × Slot G)}
    (hid : c.callers id = some ⟨call, .inside task⟩) :
    ∃ log, now = some ⟨id, call, outside id past, log⟩ ∧
      (setup.serve call c.slot).Reaches (outside id past ++ log) task := by
  have htold := h.told id
  rw [hid] at htold
  cases htold with
  | inside hnow hreaches => exact ⟨_, hnow, hreaches⟩

end Standing

theorem not_answered (hid : c.callers id = some ⟨call, stage⟩)
    (hstage : ∀ reply, stage ≠ .answered reply) :
    ¬ ∃ call reply, c.callers id = some ⟨call, .answered reply⟩ := by
  rintro ⟨_, reply, hid'⟩
  cases hid.symm.trans hid'
  exact hstage reply rfl

theorem exchange {r : Request} {k : r.Response → Task (Reply × Slot G)}
    (h : InTurns setup past c turns now)
    (hid : c.callers id = some ⟨call, .inside (.ask r k)⟩) (answer : r.Response) :
    ∃ now', InTurns setup (past ++ [.exchanged id ⟨r, answer⟩])
      (c.put id call (.inside (k answer))) turns
      now' := by
  obtain ⟨log, hnow, hreaches⟩ := h.of_inside hid
  refine ⟨some ⟨id, call, outside id past, log ++ [⟨r, answer⟩]⟩, ?_⟩
  refine h.put c.gate c.slot (not_answered hid nofun) ?_ h.serial
    (fun t ht => .inl ht) ?_ ?_ ?_ (fun _ _ => rfl) (by simp)
  · rw [List.filter_append, h.blocks, hnow]
    simp [Stay.block, guarded]
  · rintro x ⟨⟩
    exact inside_put.mpr (.inl ⟨rfl, trivial⟩)
  · rw [outside_append_of_nil rfl]
    refine .inside rfl ?_
    rw [← List.append_assoc]
    exact hreaches.snoc answer
  · intro n hn
    refine (h.told n).aside ?_ (List.Subset.refl _)
    rw [hnow]
    rintro x ⟨⟩
    exact hn.symm

/-- The caller that is inside leaves, and its call is the next of those that are made
one after another. -/
theorem leave {reply : Reply} {s : Slot G} (h : InTurns setup past c turns now)
    (gate : Gate Nat) (hid : c.callers id = some ⟨call, .inside (.done (reply, s))⟩) :
    ∃ turns', InTurns setup (past ++ [.left id reply])
      { c.put id call (.answered reply) with slot := s, gate := gate } turns' none := by
  obtain ⟨log, hnow, hreaches⟩ := h.of_inside hid
  refine ⟨turns ++ [⟨⟨id, call, outside id past, log⟩, reply⟩], ?_⟩
  refine h.put gate s (not_answered hid nofun) ?_ ?_ ?_ nofun ?_ ?_
    (fun _ _ => rfl) (by simp)
  · rw [List.filter_append, h.blocks, hnow]
    simp [Turn.block, guarded]
  · rw [List.map_append, List.map_append, List.flatMap_append, List.flatMap_singleton]
    exact Setup.runs_serially_snoc h.serial (Task.reaches_done.mp hreaches)
  · intro t ht
    rw [outside_append_of_nil rfl]
    refine (List.mem_append.mp ht).imp_right fun ht => ?_
    cases List.mem_singleton.mp ht
    exact ⟨rfl, rfl, rfl, rfl⟩
  · exact .served (List.mem_append_right _ (List.mem_singleton_self _)) rfl
  · intro n hn
    refine (h.told n).aside ?_ (List.subset_append_left _ _)
    rw [hnow]
    rintro x ⟨⟩
    exact hn.symm

theorem step (h : InTurns setup past c turns now) (hc' : c'.Attended (past ++ more))
    (hstep : c.Step setup more c') :
    ∃ turns' now', InTurns setup (past ++ more) c' turns' now' := by
  cases hstep with
  | @called id hnew call =>
      have htold := h.told id
      rw [hnew] at htold
      cases htold with
      | nobody hnone =>
          refine ⟨turns, now, h.quiet c.gate ?_ ?_ rfl ?_ (fun _ _ => rfl) (by simp)⟩
          · rintro ⟨_, _, hid⟩
            cases hnew.symm.trans hid
          · rintro ⟨_, _, hid, -⟩
            cases hnew.symm.trans hid
          · rw [outside_append_of_nil rfl, hnone]
            exact .approaching (.refl _)
  | @approached id call r k hid answer =>
      have hreaches := h.of_approaching hid
      refine ⟨turns, now,
        h.quiet c.gate (not_answered hid nofun) (inside_iff hid).mp rfl ?_ ?_ ?_⟩
      · rw [outside_append, outside_approached, if_pos rfl]
        exact .approaching (hreaches.snoc answer)
      · intro n hn
        rw [outside_approached, if_neg hn.symm]
      · intro n e he
        cases List.mem_singleton.mp he
        exact (hreaches.only (setup.outward_approach call)).2.1
  | refused hid =>
      refine ⟨turns, now,
        h.quiet c.gate (not_answered hid nofun) (inside_iff hid).mp rfl ?_
        (fun _ _ => rfl) (by simp)⟩
      rw [outside_append_of_nil rfl]
      exact .refused (Task.reaches_done.mp (h.of_approaching hid))
  -- Two callers inside would be one, since the gate has one holder. So nobody was
  -- inside before.
  | walkedIn hid hfree =>
      cases h.free hc' trivial (inside_iff hid).mp
      exact ⟨turns, _,
        h.enter _ (not_answered hid nofun)
        (Task.reaches_done.mp (h.of_approaching hid)) rfl (fun _ => rfl) (by simp)⟩
  | linedUp hid htaken =>
      refine ⟨turns, now, h.quiet _ (not_answered hid nofun) (inside_iff hid).mp rfl
        ?_ (fun _ _ => rfl) (by simp)⟩
      rw [outside_append_of_nil rfl]
      exact .lining (Task.reaches_done.mp (h.of_approaching hid))
  | entered hid hfree =>
      cases h.free hc' trivial (inside_iff hid).mp
      exact ⟨turns, _, h.enter _ (not_answered hid nofun) (h.of_lining hid) rfl
        (fun _ => rfl) (by simp)⟩
  | polled hid htaken =>
      rw [List.append_nil]
      exact ⟨turns, now, h.blocks, h.serial, h.left, h.present, h.told, h.outward⟩
  | exchanged hid answer => exact ⟨turns, h.exchange hid answer⟩
  | left hid =>
      obtain ⟨turns', h⟩ := h.leave c.gate.release hid
      exact ⟨turns', none, h⟩
  | gaveUp hid =>
      exact ⟨turns, now, h.quiet _ (not_answered hid nofun) (inside_iff hid).mp rfl
        .gone (fun _ _ => rfl) (by simp)⟩

end InTurns

end Callers

theorem Setup.Shared.inTurns {G : Type} {setup : Setup G} {past : List Occurrence}
    {c : Callers G} (h : setup.Shared past c) :
    ∃ turns now, c.InTurns setup past turns now := by
  induction h with
  | start =>
      refine ⟨[], none, rfl, ⟨rfl, rfl⟩, List.forall_mem_nil _, ?_,
        fun _ => .nobody rfl, ?_⟩
      · rintro x ⟨⟩
      · exact fun id e he => absurd he List.not_mem_nil
  | step h hstep ih =>
      obtain ⟨_, _, hturns⟩ := ih
      exact hturns.step (h.attended.step hstep) hstep

end Resumable
