import Resumable.Proofs.Gate.Tenure
import Resumable.Proofs.Service.Exchanges

namespace Resumable

namespace Gate

variable {T R : Type}

namespace Guarded

section Callers

variable (g : Guarded T R) (id k : String) (c c' : Caller T R)

theorem caller?_setCaller :
    (g.setCaller id c).caller? k = if k = id then some c else g.caller? k := by
  unfold caller? setCaller
  by_cases hk : k = id
  · simp [hk]
  · rw [if_neg hk, List.find?_cons_of_neg (by simpa using Ne.symm hk),
      List.find?_filter]
    refine congrArg (fun p => (g.callers.find? p).map Prod.snd) (funext fun e => ?_)
    by_cases he : e.1 = k
    · simp [he, hk]
    · simp [he]

theorem caller?_forget :
    (g.forget id).caller? k = if k = id then none else g.caller? k := by
  unfold caller? forget
  rw [List.find?_filter]
  by_cases hk : k = id
  · rw [if_pos hk, List.find?_eq_none.mpr fun e _ => by simp [hk], Option.map_none]
  · rw [if_neg hk]
    refine congrArg (fun p => (g.callers.find? p).map Prod.snd) (funext fun e => ?_)
    by_cases he : e.1 = k
    · simp [he, hk]
    · simp [he]

theorem caller?_setCaller_self : (g.setCaller id c).caller? id = some c := by
  rw [caller?_setCaller, if_pos rfl]

variable {id k} in
theorem caller?_setCaller_of_ne (hk : k ≠ id) :
    (g.setCaller id c).caller? k = g.caller? k := by
  rw [caller?_setCaller, if_neg hk]

theorem caller?_forget_self : (g.forget id).caller? id = none := by
  rw [caller?_forget, if_pos rfl]

variable {id k} in
theorem caller?_forget_of_ne (hk : k ≠ id) : (g.forget id).caller? k = g.caller? k := by
  rw [caller?_forget, if_neg hk]

theorem setCaller_setCaller :
    (g.setCaller id c).setCaller id c' = g.setCaller id c' := by
  simp [setCaller]

theorem forget_setCaller : (g.setCaller id c).forget id = g.forget id := by
  simp [setCaller, forget]

/-- Going on with an operation does not look at how its caller stands. -/
theorem proceed_setCaller (operation : Operation T R) :
    (g.setCaller id c).proceed id operation = g.proceed id operation := by
  cases operation with
  | finish act =>
      exact congrArg (Prod.mk _)
        (forget_setCaller { g with value := (act g.value).2, gate := g.gate.release }
          id c)
  | pause act rest =>
      exact congrArg (Prod.mk _)
        (setCaller_setCaller { g with value := act g.value } id c _)

theorem enter_of_held {operation : Option (Operation T R)}
    (hheld : g.gate.holder = some id) : g.enter id operation =
      operation.elim (.held, g.setCaller id .holding) fun operation =>
      g.proceed id operation := by
  unfold enter
  rw [if_pos hheld]
  cases operation <;> rfl

theorem enter_of_out {operation : Option (Operation T R)}
    (hout : g.gate.holder ≠ some id) :
    g.enter id operation = (.pending, g.setCaller id (.lining operation)) := by
  unfold enter
  rw [if_neg hout]

theorem enter_setCaller (operation : Option (Operation T R)) :
    (g.setCaller id c).enter id operation = g.enter id operation := by
  by_cases hheld : g.gate.holder = some id
  · rw [enter_of_held g id hheld, enter_of_held (g.setCaller id c) id hheld]
    cases operation with
    | none => exact congrArg (Prod.mk _) (setCaller_setCaller g id c _)
    | some operation => exact proceed_setCaller g id c operation
  · rw [enter_of_out g id hheld, enter_of_out (g.setCaller id c) id hheld,
      setCaller_setCaller]

end Callers

section Guards

variable {g g' : Guarded T R} {id k : String}

theorem hasGuard_congr (h : g'.caller? k = g.caller? k) :
    g'.HasGuard k ↔ g.HasGuard k := by
  unfold HasGuard
  rw [h]

theorem not_hasGuard_of_lining {operation : Option (Operation T R)}
    (h : g.caller? k = some (.lining operation)) : ¬ g.HasGuard k := by
  rintro (hheld | ⟨_, hinside⟩)
  · cases h.symm.trans hheld
  · cases h.symm.trans hinside

theorem not_hasGuard_of_none (h : g.caller? k = none) : ¬ g.HasGuard k := by
  rintro (hheld | ⟨_, hinside⟩)
  · cases h.symm.trans hheld
  · cases h.symm.trans hinside

theorem hasGuard_of_goesOn {v : T} {x : Tenure T R} {c : Caller T R} (h : x.GoesOn v c)
    (hx : g.caller? x.id = some c) : g.HasGuard x.id := by
  cases h with
  | holding => exact .inl hx
  | inside => exact .inr ⟨_, hx⟩

end Guards

/-- The history of a gate, told as tenures: `done` are over, `now` is not, and began
with the value `w`. -/
structure Told (v : T) (past : List (Happening T R)) (g : Guarded T R)
    (done : List (Tenure T R)) (now : Option (Tenure T R)) (w : T) : Prop where
  sound : g.gate.Sound
  holder : g.gate.holder = now.map (·.id)
  queue : g.gate.queue = (Happening.queued past).map Prod.fst
  nodup : ((Happening.queued past).map Prod.fst).Nodup
  lining : ∀ id operation,
    (id, operation) ∈ Happening.queued past ↔ g.caller? id = some (.lining operation)
  inside : ∀ id, g.HasGuard id → now.map (·.id) = some id
  goesOn : ∀ x, now = some x → ∃ c, g.caller? x.id = some c ∧ x.GoesOn w c
  blocks : past.filter Happening.gated =
    done.flatMap Tenure.block ++ now.toList.flatMap Tenure.begun
  serial : Tenure.Serial v done w
  value : g.value = valueAfter w (now.toList.flatMap (·.acts))
  fifo : ∀ earlier id operation later, past =
    earlier ++ .entered id operation :: later → ∃ rest, Happening.queued earlier =
    (id, operation) :: rest

namespace Told

variable {v w : T} {past : List (Happening T R)} {g g' : Guarded T R}
  {done : List (Tenure T R)} {now : Option (Tenure T R)} {id : String}
  {operation : Option (Operation T R)}

theorem ofValue (v : T) : Told v [] (.ofValue v : Guarded T R) [] none v where
  sound := idle_sound
  holder := rfl
  queue := rfl
  nodup := List.nodup_nil
  lining := fun _ _ => ⟨nofun, nofun⟩
  inside := fun _ h => absurd h (not_hasGuard_of_none rfl)
  goesOn := nofun
  blocks := rfl
  serial := .nil
  value := rfl
  fifo := by
    intro earlier id operation later h
    exact absurd h.symm (List.append_ne_nil_of_right_ne_nil _ (List.cons_ne_nil _ _))

theorem congr (h : Told v past g done now w) (hgate : g'.gate = g.gate)
    (hvalue : g'.value = g.value) (hcallers : ∀ k, g'.caller? k = g.caller? k) :
    Told v past g' done now w where
  sound := hgate ▸ h.sound
  holder := hgate ▸ h.holder
  queue := hgate ▸ h.queue
  nodup := h.nodup
  lining := fun k operation => (h.lining k operation).trans (by rw [hcallers])
  inside := fun k hk => h.inside k ((hasGuard_congr (hcallers k)).mp hk)
  goesOn := fun x hx => by rw [hcallers]; exact h.goesOn x hx
  blocks := h.blocks
  serial := h.serial
  value := hvalue.trans h.value
  fifo := h.fifo

theorem fifo_append (h : Told v past g done now w) {more : List (Happening T R)}
    (hmore : ∀ id operation, .entered id operation ∉ more) :
    ∀ earlier id operation later, past ++ more =
    earlier ++ .entered id operation :: later →
      ∃ rest, Happening.queued earlier = (id, operation) :: rest := by
  intro earlier id operation later hpast
  -- The entry stands in `past`: it is none of `more`.
  obtain ⟨between, -, hlater⟩ | ⟨between, hpast, hlater⟩ :=
    List.append_eq_append_iff.mp hpast
  · exact absurd (hlater ▸ List.mem_append_right _ List.mem_cons_self)
      (hmore id operation)
  · cases between with
    | nil =>
        rw [List.nil_append] at hlater
        exact absurd (hlater ▸ List.mem_cons_self) (hmore id operation)
    | cons e rest =>
        cases (List.cons.inj hlater).1
        exact h.fifo earlier id operation rest hpast

theorem eq_none_of_free (h : Told v past g done now w)
    (hfree : g.gate.holder = none) : now = none := by
  have hholder := h.holder
  rw [hfree] at hholder
  exact Option.map_eq_none_iff.mp hholder.symm

theorem hasGuard (h : Told v past g done now w) (hheld : g.gate.holder = some id) :
    g.HasGuard id := by
  rw [h.holder] at hheld
  obtain ⟨x, rfl, rfl⟩ := Option.map_eq_some_iff.mp hheld
  obtain ⟨c, hc, hgoes⟩ := h.goesOn x rfl
  exact hasGuard_of_goesOn hgoes hc

theorem notMem_queued (h : Told v past g done now w) (id : String)
    (hid : ∀ operation, g.caller? id ≠ some (.lining operation)) :
    id ∉ (Happening.queued past).map Prod.fst := by
  intro hmem
  obtain ⟨⟨k, operation⟩, hqueued, rfl⟩ := List.mem_map.mp hmem
  exact hid operation ((h.lining k operation).mp hqueued)

theorem arrive (h : Told v past g done now w) (hnew : g.caller? id = none)
    (gate : Gate String) (hsound : gate.Sound) (hholder : gate.holder = g.gate.holder)
    (hqueue : gate.queue = g.gate.queue ++ [id]) (operation : Option (Operation T R)) :
    Told v (past ++ [.arrived id operation])
      ({ g with gate := gate }.setCaller id (.lining operation)) done now w := by
  have hother : ∀ k, k ≠ id →
      ({ g with gate := gate }.setCaller id (.lining operation)).caller? k =
        g.caller? k :=
    fun _ hk => caller?_setCaller_of_ne _ _ hk
  have hself : ({ g with gate := gate }.setCaller id (.lining operation)).caller? id =
      some (.lining operation) := caller?_setCaller_self _ _ _
  have hfresh := h.notMem_queued id (by simp [hnew])
  refine ⟨hsound, hholder.trans h.holder, ?_, ?_, ?_, ?_, ?_, ?_, h.serial, h.value,
    h.fifo_append (by simp)⟩
  · rw [Happening.queued_snoc, Happening.requeue, List.map_append, ← h.queue]
    exact hqueue
  · rw [Happening.queued_snoc, Happening.requeue, List.map_append]
    refine List.nodup_append.mpr ⟨h.nodup, List.pairwise_singleton _ _, ?_⟩
    rintro k hk _ hk' rfl
    cases List.mem_singleton.mp hk'
    exact hfresh hk
  · intro k wish
    rw [Happening.queued_snoc, Happening.requeue, List.mem_append, List.mem_singleton]
    by_cases hk : k = id
    · subst hk
      rw [hself, Prod.mk.injEq, h.lining, hnew]
      simp [eq_comm]
    · rw [hother k hk, h.lining]
      simp [hk]
  · intro k hguard
    by_cases hk : k = id
    · subst hk
      exact absurd hguard (not_hasGuard_of_lining hself)
    · exact h.inside k ((hasGuard_congr (hother k hk)).mp hguard)
  · intro x hx
    obtain ⟨c, hc, hgoes⟩ := h.goesOn x hx
    rw [hother x.id (by rintro heq; simp [heq, hnew] at hc)]
    exact ⟨c, hc, hgoes⟩
  · rw [List.filter_append, h.blocks]
    exact List.append_nil _

theorem enter (h : Told v past g done none w)
    (hlining : g.caller? id = some (.lining operation)) {gate : Gate String}
    (hsound : gate.Sound) (hheld : gate.holder = some id)
    (hqueue : g.gate.queue = id :: gate.queue) :
    Told v (past ++ [.entered id operation])
      ({ g with gate := gate }.setCaller id (.entered operation)) done
      (some ⟨id, operation, [], none⟩) w := by
  have hother : ∀ k, k ≠ id →
      ({ g with gate := gate }.setCaller id (.entered operation)).caller? k =
        g.caller? k :=
    fun _ hk => caller?_setCaller_of_ne _ _ hk
  have hself : ({ g with gate := gate }.setCaller id (.entered operation)).caller? id =
      some (.entered operation) := caller?_setCaller_self _ _ _
  have hfirst : ∃ rest, Happening.queued past = (id, operation) :: rest := by
    have hmap := h.queue.symm.trans hqueue
    obtain ⟨⟨k, wish⟩, rest, hqueued, rfl, -⟩ := List.map_eq_cons_iff.mp hmap
    have hwish := (h.lining k wish).mp (hqueued ▸ List.mem_cons_self)
    cases hlining.symm.trans hwish
    exact ⟨rest, hqueued⟩
  obtain ⟨rest, hfirst⟩ := hfirst
  have hnodup := h.nodup
  rw [hfirst, List.map_cons, List.nodup_cons] at hnodup
  -- Only its head leaves the line, since nobody is in it twice.
  have hrest : Happening.queued (past ++ [.entered id operation]) = rest := by
    rw [Happening.queued_snoc, Happening.requeue, hfirst,
      List.filter_cons_of_neg (by simp), List.filter_eq_self.mpr]
    intro e he
    have hmem : e.1 ∈ rest.map Prod.fst := List.mem_map_of_mem he
    simpa using fun heq : e.1 = id => hnodup.1 (heq ▸ hmem)
  have hoperation :
      (⟨id, operation, [], none⟩ : Tenure T R).GoesOn w (.entered operation) := by
    cases operation with
    | none => exact .holding id []
    | some operation => exact .inside id rfl rfl
  refine ⟨hsound, hheld, ?_, ?_, ?_, ?_, ?_, ?_, h.serial, h.value, ?_⟩
  · rw [hrest]
    have hmap := h.queue
    rw [hqueue, hfirst, List.map_cons] at hmap
    exact (List.cons.inj hmap).2
  · rw [hrest]
    exact hnodup.2
  · intro k wish
    rw [hrest]
    by_cases hk : k = id
    · subst hk
      rw [hself]
      refine ⟨fun hmem => absurd (List.mem_map_of_mem hmem) hnodup.1, fun heq => ?_⟩
      cases operation <;> cases heq
    · rw [hother k hk, ← h.lining, hfirst]
      simp [hk]
  · intro k hguard
    by_cases hk : k = id
    · rw [hk]
      rfl
    · exact absurd (h.inside k ((hasGuard_congr (hother k hk)).mp hguard)) (by simp)
  · rintro _ ⟨⟩
    exact ⟨_, hself, hoperation⟩
  · rw [List.filter_append, h.blocks, Option.toList_none, List.flatMap_nil,
      List.append_nil]
    rfl
  · intro earlier k wish later hpast
    obtain ⟨-, rfl, hlast⟩ | ⟨rest, -, hpast⟩ := snoc_eq_append_cons hpast
    · cases hlast
      exact ⟨_, hfirst⟩
    · exact h.fifo earlier k wish rest hpast

theorem change {x : Tenure T R} (h : Told v past g done (some x) w) (act : T → T)
    {c : Caller T R}
    (hc : ({ x with acts := x.acts ++ [act] } : Tenure T R).GoesOn w c) :
    Told v (past ++ [.changed x.id act])
      ({ g with value := act g.value }.setCaller x.id c) done
        (some { x with acts := x.acts ++ [act] }) w := by
  have hwithin : ∀ e ∈ [(.changed x.id act : Happening T R)], e.within := by
    simp [Happening.within]
  have hother : ∀ k, k ≠ x.id →
      ({ g with value := act g.value }.setCaller x.id c).caller? k = g.caller? k :=
    fun _ hk => caller?_setCaller_of_ne _ _ hk
  have hself :
      ({ g with value := act g.value }.setCaller x.id c).caller? x.id = some c :=
    caller?_setCaller_self _ _ _
  have hqueued := Happening.queued_append_of_within hwithin past
  obtain ⟨before, hbefore, hgoes⟩ := h.goesOn x rfl
  refine ⟨h.sound, h.holder, ?_, ?_, ?_, ?_, ?_, ?_, h.serial, ?_, ?_⟩
  · rw [hqueued]
    exact h.queue
  · rw [hqueued]
    exact h.nodup
  · intro k wish
    rw [hqueued, h.lining]
    by_cases hk : k = x.id
    · subst hk
      rw [hself, hbefore]
      cases hgoes <;> cases hc <;> exact ⟨nofun, nofun⟩
    · rw [hother k hk]
  · intro k hguard
    by_cases hk : k = x.id
    · rw [hk]
      rfl
    · exact h.inside k ((hasGuard_congr (hother k hk)).mp hguard)
  · rintro _ ⟨⟩
    exact ⟨c, hself, hc⟩
  · rw [List.filter_append, h.blocks, Happening.filter_gated_of_within hwithin]
    simp [Tenure.begun]
  · have hvalue := h.value
    rw [Option.toList_some, List.flatMap_singleton] at hvalue ⊢
    rw [valueAfter_append, ← hvalue]
    rfl
  · exact h.fifo_append (Happening.entered_notMem_of_within hwithin)

/-- The caller inside leaves, and lets the gate go. -/
theorem leave {x x' : Tenure T R} (h : Told v past g done (some x) w)
    {more : List (Happening T R)} (hwithin : ∀ e ∈ more, e.within)
    (hblock : x.begun ++ more = x'.block) (hproper : x'.Proper w) {value : T}
    (hvalue : value = valueAfter w x'.acts) :
    Told v (past ++
      more) ({ g with value := value, gate := g.gate.release }.forget x.id)
        (done ++ [x']) none (valueAfter w x'.acts) := by
  have hother : ∀ k, k ≠ x.id →
      ({ g with value := value, gate := g.gate.release }.forget x.id).caller? k =
        g.caller? k :=
    fun _ hk => caller?_forget_of_ne _ hk
  have hself :
      ({ g with value := value, gate := g.gate.release }.forget x.id).caller?
        x.id = none :=
    caller?_forget_self _ _
  have hqueued := Happening.queued_append_of_within hwithin past
  obtain ⟨before, hbefore, hgoes⟩ := h.goesOn x rfl
  obtain ⟨hsound, hnone, hqueue⟩ := release_sound h.sound h.holder
  refine ⟨hsound, hnone, ?_, ?_, ?_, ?_, nofun, ?_, h.serial.snoc hproper, hvalue, ?_⟩
  · rw [hqueued]
    exact hqueue.trans h.queue
  · rw [hqueued]
    exact h.nodup
  · intro k wish
    rw [hqueued, h.lining]
    by_cases hk : k = x.id
    · subst hk
      rw [hself, hbefore]
      cases hgoes <;> exact ⟨nofun, nofun⟩
    · rw [hother k hk]
  · intro k hguard
    by_cases hk : k = x.id
    · subst hk
      exact absurd hguard (not_hasGuard_of_none hself)
    · have hinside := h.inside k ((hasGuard_congr (hother k hk)).mp hguard)
      exact absurd (Option.some.inj hinside).symm hk
  · rw [List.filter_append, h.blocks, Happening.filter_gated_of_within hwithin,
      List.append_assoc, List.flatMap_append]
    simp [hblock]
  · exact h.fifo_append (Happening.entered_notMem_of_within hwithin)

theorem giveUp (h : Told v past g done now w)
    (hlining : g.caller? id = some (.lining operation)) :
    Told v (past ++ [.gaveUp id]) ({ g with gate := g.gate.abandon id }.forget id)
      done now w := by
  have hother : ∀ k, k ≠ id →
      ({ g with gate := g.gate.abandon id }.forget id).caller? k = g.caller? k :=
    fun _ hk => caller?_forget_of_ne _ hk
  have hself : ({ g with gate := g.gate.abandon id }.forget id).caller? id = none :=
    caller?_forget_self _ _
  obtain ⟨hsound, hholder, -⟩ := abandon_sound h.sound id
  have hmap : (Happening.queued (past ++ [.gaveUp id])).map Prod.fst =
      ((Happening.queued past).map Prod.fst).filter (· ≠ id) := by
    rw [Happening.queued_snoc, Happening.requeue, List.filter_map]
    rfl
  refine ⟨hsound, hholder.trans h.holder, ?_, ?_, ?_, ?_, ?_, ?_, h.serial, h.value, ?_⟩
  · rw [hmap, ← h.queue]
    exact abandon_queue (h.queue ▸ h.nodup) id
  · rw [hmap]
    exact h.nodup.filter _
  · intro k wish
    rw [Happening.queued_snoc, Happening.requeue, List.mem_filter, h.lining]
    by_cases hk : k = id
    · subst hk
      rw [hself]
      simp
    · rw [hother k hk]
      simp [hk]
  · intro k hguard
    by_cases hk : k = id
    · subst hk
      exact absurd hguard (not_hasGuard_of_none hself)
    · exact h.inside k ((hasGuard_congr (hother k hk)).mp hguard)
  · intro x hx
    obtain ⟨c, hc, hgoes⟩ := h.goesOn x hx
    -- The one inside is another one, for it has a guard.
    have hne : x.id ≠ id := by
      rintro rfl
      exact not_hasGuard_of_lining hlining (hasGuard_of_goesOn hgoes hc)
    exact ⟨c, (hother _ hne).trans hc, hgoes⟩
  · rw [List.filter_append, h.blocks]
    exact List.append_nil _
  · exact h.fifo_append (by simp)

theorem proceed {x : Tenure T R} {operation : Operation T R}
    (h : Told v past g done (some x) w)
    (hx : g.caller? x.id = some (.inside operation)) :
    ∃ done' now' w', Told v (past ++ Happening.going x.id g.value operation)
      (g.proceed x.id operation).2 done' now' w' := by
  obtain ⟨c, hc, hgoes⟩ := h.goesOn x rfl
  cases hx.symm.trans hc
  have hvalue := h.value
  rw [Option.toList_some, List.flatMap_singleton] at hvalue
  cases hgoes with
  | @inside id whole _ acts hacts hrun =>
      cases operation with
      | pause act rest =>
          refine ⟨_, _, _, h.change act (.inside id ?_ ?_)⟩
          · rw [hacts, List.append_assoc]
            rfl
          · rw [hrun, valueAfter_append]
            rfl
      | finish act =>
          have hend : act g.value = whole.run w := by rw [hvalue, hrun, Operation.run]
          refine ⟨_, _, _, h.leave ?_ ?_ (.finished id whole) ?_⟩
          · simp [Happening.going, Happening.within]
          · simp [Happening.going, Tenure.begun, Tenure.block, hacts,
              Operation.acts, hend]
          · rw [valueAfter_acts, ← hend]

/-- Who gets the gate enters, and its operation goes on. -/
theorem letIn (h : Told v past g done none w)
    (hlining : g.caller? id = some (.lining operation)) {gate : Gate String}
    (hsound : gate.Sound) (hheld : gate.holder = some id)
    (hqueue : g.gate.queue = id :: gate.queue) :
    ∃ done' now' w', Told v (past ++ { g with gate := gate }.entering id operation)
      ({ g with gate := gate }.enter id operation).2 done' now' w' := by
  have hentered := h.enter hlining hsound hheld hqueue
  rw [entering, if_pos hheld, enter_of_held { g with gate := gate } id hheld]
  cases operation with
  | none => exact ⟨_, _, _, hentered⟩
  | some operation =>
      obtain ⟨done', now', w', htold⟩ :=
        hentered.proceed (caller?_setCaller_self _ _ _)
      rw [List.append_assoc, Caller.entered, proceed_setCaller] at htold
      exact ⟨done', now', w', htold⟩

theorem start (h : Told v past g done now w) (hnew : g.caller? id = none)
    (operation : Option (Operation T R)) :
    ∃ done' now' w', Told v
      (past ++ .arrived id operation ::
        { g with gate := g.gate.arrive id }.entering id operation)
      (g.start id operation).2 done' now' w' := by
  obtain ⟨hsound, ⟨hnone, hheld, hempty, hempty'⟩ | ⟨hsame, hqueue⟩⟩ :=
    arrive_sound h.sound id
  · cases h.eq_none_of_free hnone
    -- Who walks in is as one to whom the free gate was promised on arrival.
    let promised : Gate String := { g.gate with promised := some id }
    have hpromised : promised.queue = [id] :=
      congrArg (id :: ·) (List.append_eq_nil_iff.mp hempty).2
    have harrived := h.arrive hnew promised ⟨.inl hnone, nofun⟩ rfl
      (by rw [hpromised, hempty, List.nil_append]) operation
    obtain ⟨done', now', w', htold⟩ := harrived.letIn
      (caller?_setCaller_self _ _ _) hsound hheld (hpromised.trans (by rw [hempty']))
    rw [List.append_assoc] at htold
    have henter :=
      enter_setCaller { g with gate := g.gate.arrive id } id
        (.lining operation) operation
    rw [Guarded.start, ← henter]
    exact ⟨done', now', w', htold⟩
  · have hout : (g.gate.arrive id).holder ≠ some id := by
      rw [hsame]
      exact fun hheld => not_hasGuard_of_none hnew (h.hasGuard hheld)
    rw [entering, if_neg hout, Guarded.start,
      enter_of_out { g with gate := g.gate.arrive id } id hout]
    exact ⟨_, _, _, h.arrive hnew _ hsound hsame hqueue operation⟩

theorem poll (h : Told v past g done now w) (id : String) :
    ∃ done' now' w', Told v (past ++ g.polling id) (g.poll id).2 done' now' w' := by
  unfold polling Guarded.poll
  rcases hid : g.caller? id with _ | operation | _ | operation
  · rw [List.append_nil]
    exact ⟨_, _, _, h⟩
  · obtain ⟨hsound, ⟨hnone, hheld, hqueue⟩ | hsame⟩ := poll_sound h.sound id
    · cases h.eq_none_of_free hnone
      exact h.letIn hid hsound hheld hqueue
    · have hout : g.gate.holder ≠ some id :=
        fun hheld => not_hasGuard_of_lining hid (h.hasGuard hheld)
      dsimp only
      rw [hsame, entering, if_neg hout, List.append_nil, enter_of_out g id hout]
      refine ⟨_, _, _, h.congr rfl rfl fun k => (caller?_setCaller _ _ _ _).trans ?_⟩
      split
      · next hk => rw [hk, hid]
      · rfl
  · rw [List.append_nil]
    exact ⟨_, _, _, h⟩
  · obtain ⟨x, rfl, rfl⟩ := Option.map_eq_some_iff.mp
      (h.inside id (.inr ⟨operation, hid⟩))
    exact h.proceed hid

theorem step {more : List (Happening T R)} (h : Told v past g done now w)
    (hstep : g.Step more g') :
    ∃ done' now' w', Told v (past ++ more) g' done' now' w' := by
  cases hstep with
  | started hnew operation => exact h.start hnew operation
  | polled id => exact h.poll id
  | @modified id f _ hmodify =>
      unfold modify? at hmodify
      split at hmodify
      · next hholding =>
          cases hmodify
          obtain ⟨x, rfl, rfl⟩ := Option.map_eq_some_iff.mp
            (h.inside id (.inl hholding))
          obtain ⟨c, hc, hgoes⟩ := h.goesOn x rfl
          cases hholding.symm.trans hc
          cases hgoes with
          | holding id acts =>
              have hchanged := h.change f (.holding id _)
              refine ⟨_, _, _, hchanged.congr rfl rfl fun k => ?_⟩
              rw [caller?_setCaller]
              split
              · next hk => exact hk ▸ hholding
              · rfl
      · cases hmodify
  | @dropped id _ hguard hdrop =>
      obtain ⟨x, rfl, rfl⟩ := Option.map_eq_some_iff.mp (h.inside id hguard)
      obtain ⟨c, hc, hgoes⟩ := h.goesOn x rfl
      have hg' : g' = { g with gate := g.gate.release }.forget x.id := by
        unfold drop? at hdrop
        rw [hc] at hdrop
        cases hgoes <;> exact (Option.some.inj hdrop).symm
      obtain ⟨hproper, hresult⟩ := hgoes.dropped
      have hvalue := h.value
      rw [Option.toList_some, List.flatMap_singleton] at hvalue
      rw [hg']
      refine ⟨_, _, _, h.leave ?_ ?_ hproper hvalue⟩
      · simp [Happening.within]
      · rw [Tenure.block, hresult]
        rfl
  | gaveUp hlining hdrop =>
      unfold drop? at hdrop
      rw [hlining] at hdrop
      cases hdrop
      exact ⟨_, _, _, h.giveUp hlining⟩

end Told

/-- What holds at a gate, whatever has happened there: the tenures in `done` are over,
the one in `now` is not, and it began with the value `w`. -/
structure Exclusive (v : T) (past : List (Happening T R)) (g : Guarded T R)
    (done : List (Tenure T R)) (now : Option (Tenure T R)) (w : T) : Prop where
  /-- There is one guard at most, and the gate is held while there is one. -/
  guard : ∀ id, g.HasGuard id ↔ now.map (·.id) = some id
  held : g.gate.isHeld = true ↔ ∃ id, g.HasGuard id
  /-- Behind the gate, what one caller does is a block, and an operation is one too. -/
  blocks : past.filter Happening.gated =
    done.flatMap Tenure.block ++ now.toList.flatMap Tenure.begun
  serial : Tenure.Serial v done w
  goesOn : ∀ x, now = some x → ∃ c, g.caller? x.id = some c ∧ x.GoesOn w c
  /-- Nothing else changes the value. -/
  value : g.value = valueAfter w (now.toList.flatMap (·.acts))
  /-- Who entered was the first of those who then waited, in the order of arrival. -/
  fifo : ∀ earlier id operation later, past =
    earlier ++ .entered id operation :: later → ∃ rest, Happening.queued earlier =
    (id, operation) :: rest
  waiting : ∀ id operation,
    (id, operation) ∈ Happening.queued past ↔ g.caller? id = some (.lining operation)
  /-- While nobody holds the gate, the first of those who wait gets it when polled,
  and a newcomer if nobody waits. -/
  next : g.gate.isHeld = false → ∀ id operation rest,
    Happening.queued past = (id, operation) :: rest →
      ∃ more, g.polling id = .entered id operation :: more
  free : g.gate.isHeld = false → Happening.queued past = [] → ∀ id operation,
    ∃ more, { g with gate := g.gate.arrive id }.entering id operation =
      .entered id operation :: more

theorem Told.exclusive {v w : T} {past : List (Happening T R)} {g : Guarded T R}
    {done : List (Tenure T R)} {now : Option (Tenure T R)}
    (h : Told v past g done now w) : Exclusive v past g done now w where
  guard := fun id => ⟨h.inside id, fun hnow => h.hasGuard (h.holder.trans hnow)⟩
  held := by
    rw [isHeld, Option.isSome_iff_exists]
    refine exists_congr fun id => ⟨h.hasGuard, fun hguard => ?_⟩
    exact h.holder.trans (h.inside id hguard)
  blocks := h.blocks
  serial := h.serial
  goesOn := h.goesOn
  value := h.value
  fifo := h.fifo
  waiting := h.lining
  next := by
    intro hfree id operation rest hqueued
    have hnone : g.gate.holder = none := by simpa [isHeld] using hfree
    have hlining := (h.lining id operation).mp (hqueued ▸ List.mem_cons_self)
    have hpromised := promised_eq_head? h.sound hnone
    rw [h.queue, hqueued, List.map_cons, List.head?_cons] at hpromised
    unfold polling
    rw [hlining]
    exact ⟨_, if_pos (by rw [Gate.poll, if_pos hpromised])⟩
  free := by
    intro hfree hqueued id operation
    have hnone : g.gate.holder = none := by simpa [isHeld] using hfree
    have hpromised := promised_eq_head? h.sound hnone
    rw [h.queue, hqueued, List.map_nil, List.head?_nil] at hpromised
    exact ⟨_,
      if_pos (by rw [Gate.arrive, if_pos (by rw [hnone, hpromised]; exact ⟨rfl, rfl⟩)])⟩

theorem Ran.told {v : T} {past : List (Happening T R)} {g : Guarded T R}
    (h : Ran v past g) : ∃ done now w, Told v past g done now w := by
  induction h with
  | start => exact ⟨[], none, v, .ofValue v⟩
  | step _ hstep ih =>
      obtain ⟨done, now, w, htold⟩ := ih
      exact htold.step hstep

/-- However many callers there are, and whichever is started, polled or dropped next:
one is inside at a time, the others enter in the order in which they have come, and
what one does inside is not mixed with what others do. -/
theorem Ran.held_exclusively {v : T} {past : List (Happening T R)} {g : Guarded T R}
    (h : Ran v past g) : ∃ done now w, Exclusive v past g done now w := by
  obtain ⟨done, now, w, htold⟩ := h.told
  exact ⟨done, now, w, htold.exclusive⟩

/-- A guard, an operation that waits for it and is polled in the end, and a caller
that gives up in between. -/
theorem three_callers_exclusive :
    ∃ past g done now w, Ran (R := Nat) 0 past g ∧ g.value = 6 ∧ g.gate.isHeld = true ∧
      (∃ rest, g.caller? "b" = some (.inside rest)) ∧
      Exclusive (R := Nat) 0 past g done now w := by
  let operation : Operation Nat Nat := .pause (· + 1) (.finish fun v => (v, 2 * v))
  have h : Ran (R := Nat) 0 _ _ := .start
  have h := h.step (@Step.started _ _ _ "a" rfl none)
  have h := h.step (@Step.started _ _ _ "b" rfl (some operation))
  have h := h.step (@Step.started _ _ _ "c" rfl none)
  have h := h.step (@Step.modified _ _ _ "a" (· + 5) _ rfl)
  have h := h.step (@Step.dropped _ _ _ "a" _ (.inl rfl) rfl)
  have h := h.step (.polled "c")
  have h := h.step (@Step.gaveUp _ _ _ "c" none _ rfl rfl)
  have h := h.step (.polled "b")
  obtain ⟨done, now, w, hexclusive⟩ := h.held_exclusively
  exact ⟨_, _, done, now, w, h, rfl, rfl, ⟨_, rfl⟩, hexclusive⟩

end Guarded

end Gate

end Resumable
