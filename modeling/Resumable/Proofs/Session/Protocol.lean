import Resumable.Proofs.Session.Reload
import Resumable.Proofs.Session.Story
import Resumable.Proofs.Session.Visits

/-!
# In which order a session invokes the exports of an instance

Seen through watched cores. Every instance is set up first. While no call into it
fails, performs and flushes of its metrics may follow in any order, and a last flush
with the teardown ends it. A call that fails ends it too: what is invoked behind that
is the getter of the developer dump and then that of the metrics.
-/

namespace Resumable

/-- What is invoked on an instance up to now if no call into it has failed and it is
not torn down. -/
inductive Working : List Announcement → Prop where
  | setUp (rewinds : Nat) : Working (attempt .setup rewinds)
  | performed {told : List Announcement} (h : Working told) (rewinds : Nat) :
      Working (told ++ attempt .perform rewinds)
  | flushed {told : List Announcement} (h : Working told) : Working (told ++ flushing)

/-- What is invoked on an instance if no call into it fails. -/
inductive Whole : List Announcement → Prop where
  | working {told : List Announcement} (h : Working told) : Whole told
  | tornDown {told : List Announcement} (h : Working told) (rewinds : Nat) :
      Whole (told ++ (flushing ++ attempt .teardown rewinds))

/-- What is invoked on an instance: the beginning of a whole, and if a call failed at
the end of that, a last look. -/
def Life (told : List Announcement) : Prop :=
  ∃ early rest, Whole (early ++ rest) ∧ (told = early ∨ told = early ++ lastLook)

theorem life_nil : Life [] := ⟨[], attempt .setup 0, .working (.setUp 0), .inl rfl⟩

theorem Whole.life {told : List Announcement} (h : Whole told) : Life told :=
  ⟨told, [], by rwa [List.append_nil], .inl rfl⟩

/-- The lives of instances, one after another. If an instance is live, it is
the last one. -/
def Chronicle (live : Bool) (told : List Announcement) : Prop :=
  ∃ lives : List (List Announcement), told = lives.flatMap (.created :: ·) ∧
  (∀ life ∈ lives, Life life) ∧
    (live = true → ∃ earlier last, lives = earlier ++ [last] ∧ Working last)

namespace Chronicle

variable {live live' : Bool} {told more : List Announcement}

theorem nil : Chronicle false [] := ⟨[], rfl, nofun, nofun⟩

theorem snoc (h : Chronicle live told) (hlife : Life more)
    (hworking : live' = true → Working more) :
    Chronicle live' (told ++ .created :: more) := by
  obtain ⟨lives, rfl, hlives, -⟩ := h
  refine ⟨lives ++ [more], ?_, ?_, fun hlive' => ⟨lives, more, rfl, hworking hlive'⟩⟩
  · rw [List.flatMap_append, List.flatMap_singleton]
  · rw [List.forall_mem_append, List.forall_mem_singleton]
    exact ⟨hlives, hlife⟩

theorem append (h : Chronicle true told)
    (hlife : ∀ last, Working last → Life (last ++ more))
    (hworking : live' = true → ∀ last, Working last → Working (last ++ more)) :
    Chronicle live' (told ++ more) := by
  obtain ⟨lives, rfl, hlives, hlast⟩ := h
  obtain ⟨earlier, last, rfl, hlast'⟩ := hlast rfl
  rw [List.forall_mem_append, List.forall_mem_singleton] at hlives
  refine ⟨earlier ++ [last ++ more], ?_, ?_,
    fun hlive' => ⟨_, _, rfl, hworking hlive' last hlast'⟩⟩
  · rw [List.flatMap_append, List.flatMap_singleton, List.flatMap_append,
      List.flatMap_singleton, List.append_assoc, List.cons_append]
  · rw [List.forall_mem_append, List.forall_mem_singleton]
    exact ⟨hlives.1, hlife last hlast'⟩

end Chronicle

namespace Setup

variable {G : Type} {operation : Operation} {log : List Exchange}

/-- Whatever is invoked for an operation on an instance at work is the beginning
of a whole. -/
theorem Operation.Word.whole {told more : List Announcement} (h : operation.Word more)
    (hw : Working told) : Whole (told ++ more) := by
  cases h with
  | perform request rewinds => exact .working (hw.performed rewinds)
  | destroy rewinds => exact .tornDown hw rewinds
  | fire generation => exact .working hw.flushed

theorem Visit.chronicle {setup : Setup G} {s s' : Slot G}
    (h : setup.Visit s operation log s') {told : List Announcement}
    (htold : Chronicle s.live.isSome told) :
    Chronicle s'.live.isSome (told ++ Exchange.announced log) := by
  cases h with
  | idle hlog hlive =>
      rw [hlog, List.append_nil, hlive]
      exact htold
  | unmade hlive hlog =>
      rw [hlog, hlive]
      exact htold.snoc life_nil nofun
  | @made _ _ rewinds hlive hlog hlive' =>
      rw [hlog]
      exact htold.snoc (Whole.life (.working (.setUp rewinds))) fun _ => .setUp rewinds
  | @performed _ _ _ rewinds hlive hlog hlive' =>
      rw [hlog]
      rw [hlive] at htold
      exact htold.append (fun last h => (Whole.working (h.performed rewinds)).life)
        fun _ last h => h.performed rewinds
  | flushed hlive hlog hlive' =>
      rw [hlog]
      rw [hlive] at htold
      exact htold.append (fun last h => (Whole.working h.flushed).life)
        fun _ last h => h.flushed
  | @ended _ _ rewinds hlive hlog hlive' =>
      rw [hlog, hlive']
      rw [hlive] at htold
      exact htold.append (fun last h => (Whole.tornDown h rewinds).life) nofun
  | @failing _ early late _ _ _ hfails hearly hlate hlive' =>
      rw [Exchange.announced_append, hlate, hlive']
      -- A life of its own if the instance was only being made, else the end
      -- of the last one.
      generalize Exchange.announced early = begun at hearly ⊢
      generalize s.live.isSome = live at hearly htold
      cases hearly with
      | @setUp told rest rewinds hword =>
          refine htold.snoc ⟨told, rest, ?_, .inr rfl⟩ nofun
          rw [hword]
          exact .working (.setUp rewinds)
      | @called _ _ rest _ hword hrest =>
          refine htold.append (fun last h => ⟨last ++ begun, rest, ?_, .inr ?_⟩) nofun
          · rw [List.append_assoc, hrest]
            exact hword.whole h
          · rw [List.append_assoc]

def announced (past : List (Entry G)) : List Announcement :=
  past.flatMap fun e => Exchange.announced e.log

variable {setup : Setup G} {t s : Slot (Watched G)}
  {past later : List (Entry (Watched G))}

theorem Continues.chronicle (h : setup.watched.Continues t later s) (ht : t.Watches)
    (hc : t.Consistent) {told : List Announcement}
    (htold : Chronicle t.live.isSome told) :
    Chronicle s.live.isSome (told ++ announced later) ∧ s.Watches ∧ s.Consistent := by
  induction h with
  | refl => exact ⟨by rwa [announced, List.flatMap_nil, List.append_nil], ht, hc⟩
  | next h runs ih =>
      obtain ⟨htold, hs, hc⟩ := ih
      obtain ⟨hvisit, hs'⟩ := (carryOut_course runs).visit hs hc
      refine ⟨?_, hs', (carryOut_step runs.ends).consistent hc⟩
      rw [announced, List.flatMap_append, List.flatMap_singleton, ← List.append_assoc]
      exact hvisit.chronicle htold

/-- What an operation announces, as it fails or does not. -/
structure Entry.Orderly (setup : Setup G) (e : Entry G) : Prop where
  unfailing : (∀ early late i error, e.log = early ++ late →
      ¬ setup.Fails e.before e.operation early i error) →
    Exchange.announced e.log = [] ∨ Exchange.announced e.log = [.created] ∨
      (∃ rewinds, Exchange.announced e.log = .created :: attempt .setup rewinds) ∨
      e.operation.Word (Exchange.announced e.log)
  failing : ∀ early late i error, e.log = early ++ late →
    setup.Fails e.before e.operation early i error →
    e.operation.Begun e.before.live.isSome (Exchange.announced early) ∧
    Exchange.announced late = lastLook ∧
      e.after.live = none
  destroyed : e.operation = .destroy → e.after.live = none

theorem Entry.orderly {e : Entry (Watched G)}
    (runs : (setup.watched.carryOut e.operation e.before).Runs e.log
      (e.answer, e.after))
    (hs : e.before.Watches) (hc : e.before.Consistent) : e.Orderly setup.watched where
  unfailing := by
    intro hunfailing
    have hcourse := carryOut_course runs
    have hvisit := (hcourse.visit hs hc).1
    obtain ⟨before, operation, log, answer, after⟩ := e
    cases hvisit with
    | idle hlog => exact .inl hlog
    | unmade _ hlog => exact .inr (.inl hlog)
    | made _ hlog => exact .inr (.inr (.inl ⟨_, hlog⟩))
    | performed _ hlog => exact .inr (.inr (.inr (by rw [hlog]; exact .perform _ _)))
    | flushed _ hlog => exact .inr (.inr (.inr (by rw [hlog]; exact .fire _)))
    | ended _ hlog => exact .inr (.inr (.inr (by rw [hlog]; exact .destroy _)))
    | failing hfails => exact absurd hfails (hunfailing _ _ _ _ rfl)
  failing := by
    intro early late i error hlog hfails
    rw [hlog] at runs
    obtain ⟨hbegun, x, hi⟩ := hfails.begun hs hc
    obtain ⟨hlive, clearing, rest, left, rfl, hclearing, hsalvage⟩ :=
      hfails.salvaged (carryOut_course runs) hc
    refine ⟨hbegun, ?_, hlive⟩
    rw [Exchange.announced_append, hclearing]
    exact Instance.announced_salvage hi hsalvage
  destroyed := by
    intro hoperation
    rw [hoperation] at runs
    exact (carryOut_course runs).destroyed hc

/-- The protocol of the instances of a session. What is announced of its instances
falls into lives, one after another: the beginning of a whole, and if a call failed at
the end of that a last look. An operation in which no call fails announces all of its
word, or turns to no live instance at all. One in which a call fails announces what it
got to, then the last look, and nothing else ever on that instance; nor does anything
follow on an instance behind a destroy. -/
theorem Story.export_protocol (h : setup.watched.Story past s) :
    (∃ lives : List (List Announcement), announced past =
      lives.flatMap (.created :: ·) ∧ ∀ life ∈ lives, Life life) ∧
    ∀ earlier e later, past = earlier ++ e :: later →
      e.Orderly setup.watched ∧
      (e.after.live = none → ∃ lives : List (List Announcement),
        announced later = lives.flatMap (.created :: ·) ∧
        ∀ life ∈ lives, Life life) := by
  have hchronicle {t : Slot (Watched G)} {later : List (Entry (Watched G))}
      (h : setup.watched.Continues t later s) (ht : t.Watches) (hc : t.Consistent)
      (hlive : t.live = none) : ∃ lives : List (List Announcement), announced later =
      lives.flatMap (.created :: ·) ∧
        ∀ life ∈ lives, Life life := by
    have hnone : Chronicle t.live.isSome [] := by
      rw [hlive]
      exact .nil
    obtain ⟨⟨lives, htold, hlives, -⟩, -⟩ := h.chronicle ht hc hnone
    exact ⟨lives, htold, hlives⟩
  refine ⟨hchronicle h.continues .empty .empty rfl, ?_⟩
  rintro earlier e later rfl
  obtain ⟨hearlier, runs, hlater⟩ := h.split
  obtain ⟨-, hs, hc⟩ := hearlier.continues.chronicle .empty .empty Chronicle.nil
  have hs' := ((carryOut_course runs).visit hs hc).2
  have hc' := (carryOut_step runs.ends).consistent hc
  exact ⟨e.orderly runs hs hc, hchronicle hlater hs' hc'⟩

def Entry.announced (e : Entry G) : List Announcement := Exchange.announced e.log

/-- The session performs and flushes, gives its instance up when that fails, and
starts over with another. -/
def startsOver (past : List (Entry G)) : Bool :=
  (past.take 4).map Entry.announced =
      [[], .created :: attempt .setup 0, attempt .perform 0, flushing] &&
    match past.drop 4 with
    | [] => false
    | e :: later =>
        e.after.live.isNone && e.announced = attempt .perform 0 ++ lastLook &&
          later.map Entry.announced =
            [.created :: attempt .setup 0, flushing ++ attempt .teardown 0]

/-- The first life of the tiring core ends with a last look, and the second with
its teardown. -/
theorem tiring_lives_twice :
    ∃ earlier e later s, tiring.watched.Story (earlier ++ e :: later) s ∧
      earlier.map Entry.announced =
        [[], .created :: attempt .setup 0, attempt .perform 0, flushing] ∧
      e.announced = attempt .perform 0 ++ lastLook ∧ e.Orderly tiring.watched ∧
      later.map Entry.announced =
        [.created :: attempt .setup 0, flushing ++ attempt .teardown 0] ∧
      (∃ lives : List (List Announcement),
        Setup.announced (earlier ++ e :: later) = lives.flatMap (.created :: ·) ∧
          ∀ life ∈ lives, Life life) ∧
      ∃ lives : List (List Announcement),
        Setup.announced later = lives.flatMap (.created :: ·) ∧
          ∀ life ∈ lives, Life life := by
  let request : PerformRequest :=
    { profileUrl := "p", providerUrl := "v", mapUrl := "m", usecase := "u" }
  have hrun : ((tiring.watched.tell Scripted.Scene.serve
      [.load .empty, .init, .perform request, .fire 0, .perform request, .init,
        .destroy] .empty (.bare [])).any fun told => startsOver told.1) = true := by
    decide +kernel
  obtain ⟨past, s, hstory, -, hcheck⟩ := exists_story_of_tell hrun
  obtain ⟨hearlier, hrest⟩ := Bool.and_eq_true_iff.mp hcheck
  rw [← List.take_append_drop 4 past] at hstory
  rcases hdrop : past.drop 4 with _ | ⟨e, later⟩
  · rw [hdrop] at hrest
    cases hrest
  · rw [hdrop] at hstory hrest
    simp only [Bool.and_eq_true, decide_eq_true_eq, Option.isNone_iff_eq_none]
      at hearlier hrest
    obtain ⟨⟨hgone, he⟩, hlater⟩ := hrest
    obtain ⟨hlives, hentries⟩ := hstory.export_protocol
    obtain ⟨horderly, hstarted⟩ := hentries _ _ _ rfl
    exact ⟨_, e, later, s, hstory, hearlier, he, horderly, hlater, hlives,
      hstarted hgone⟩

end Setup

end Resumable
