import Resumable.Proofs.Session.Loading
import Resumable.Proofs.Session.Salvage
import Resumable.Proofs.Session.Story
import Resumable.Proofs.Session.Turns

namespace Resumable

def Setup.Answer.Failed : Setup.Answer → Prop
  | .loaded (.error _) => True
  | .initialized (.error _) => True
  | _ => False

def Reply.Failed : Reply → Prop
  | .carried answer => answer.Failed
  | _ => False

namespace Setup

variable {G : Type} {setup : Setup G} {s s' t : Slot G} {operation : Operation}
  {answer : Answer} {log : List Exchange}

/-- The ways in which a load or an initialization may fail. -/
inductive Fruitless (setup : Setup G) (s : Slot G) :
    Operation → List Exchange → Answer → Prop where
  | unreadable {path : String} {n : Nat} {log : List Exchange} {e : LoadError}
      (hn : n ≤ setup.fuel) (hread : Fetches path n log (.error e)) :
      Fruitless setup s (.loadFrom path) log (.loaded (.error e))
  | uncompiled {operation : Operation} {log : List Exchange} {bytes : ByteArray}
      (hsource : setup.Sourced operation log bytes)
      (hcompile : setup.compile bytes = none) :
      Fruitless setup s operation log (.loaded (.error .compile))
  | rejected {operation : Operation} {log : List Exchange} {bytes : ByteArray}
      {core : Core G} {e : LoadError} (hsource : setup.Sourced operation log bytes)
      (hcompile : setup.compile bytes = some core)
      (hl : s.lifecycle = .ready ∧ e = .alreadyInitialized ∨ s.lifecycle = .tornDown ∧
        e = .destroyed) : Fruitless setup s operation log (.loaded (.error e))
  | unprepared (hl : s.lifecycle = .unloaded ∨ s.lifecycle = .tornDown) :
      Fruitless setup s .init [] (.initialized (.error s.lifecycle.notReady))
  | unmade {log : List Exchange} {core : Core G} {e : InstantiateError}
      (hl : s.lifecycle = .compiled) (hcore : s.compiled = some core)
      (hmade : (core.instantiate setup.config).Runs log (.error e)) :
      Fruitless setup s .init log (.initialized (.error (.unexpected .host e.message)))
  | stillborn {made called left : List Exchange} {core : Core G} {i i' : Instance G}
      {e : CallError} {answer : PerformError} (hl : s.lifecycle = .compiled)
      (hcore : s.compiled = some core)
      (hmade : (core.instantiate setup.config).Runs made (.ok i))
      (hcall : (i.setup setup.fuel).Runs called (.error e, i'))
      (hleft : i'.Salvaged e left answer) :
      Fruitless setup s .init (made ++ (called ++ left)) (.initialized (.error answer))

theorem unchanged_of_failed (hruns : (setup.carryOut operation s).Runs log (answer, s'))
    (hfailed : answer.Failed) : s' = s := by
  cases carryOut_course hruns with
  | unreadable | uncompiled | rejected | unmade | stillborn | unprepared => rfl
  | _ => exact hfailed.elim

theorem fruitless_of_failed (hs : s.Consistent)
    (hruns : (setup.carryOut operation s).Runs log (answer, s'))
    (hfailed : answer.Failed) : setup.Fruitless s operation log answer := by
  cases carryOut_course hruns with
  | unreadable hread =>
    obtain ⟨n, hn, hread⟩ := runs_readFile_iff.mp hread
    exact .unreadable hn hread
  | uncompiled hsource hcompile => exact .uncompiled hsource hcompile
  | rejected hsource hcompile hl => exact .rejected hsource hcompile hl
  | unmade hl hcore hmade => exact .unmade hl hcore hmade
  | stillborn hl hcore hmade hcall hsalvage =>
    exact .stillborn hl hcore hmade hcall (Instance.runs_salvage_iff.mp hsalvage)
  | unprepared hl =>
    rcases hl with ⟨hl, hnone⟩ | ⟨hcompiled, hready, rfl⟩
    · -- A compiled slot without a core is not consistent.
      have hsome := hs.compiled_iff.mpr (.inl hl)
      rw [hnone] at hsome
      cases hsome
    · cases hl : s.lifecycle with
      | compiled => exact absurd hl hcompiled
      | ready => exact absurd hl hready
      | unloaded => exact hl ▸ .unprepared (.inl hl)
      | tornDown => exact hl ▸ .unprepared (.inr hl)
  | _ => exact hfailed.elim

theorem runs_carryOut_loadFrom {path : String} {r : Except LoadError Unit}
    (h : (setup.loadFrom path s).Runs log (r, s')) :
    (setup.carryOut (.loadFrom path) s).Runs log (.loaded r, s') :=
  Task.runs_bind.mpr ⟨(r, s'), log, [], (List.append_nil _).symm, h, rfl, rfl⟩

theorem runs_carryOut_init {r : Except PerformError Unit}
    (h : (setup.init s).Runs log (r, s')) :
    (setup.carryOut .init s).Runs log (.initialized r, s') :=
  Task.runs_bind.mpr ⟨(r, s'), log, [], (List.append_nil _).symm, h, rfl, rfl⟩

theorem Sourced.runs {bytes : ByteArray} {r : Except LoadError Unit}
    (h : setup.Sourced operation log bytes) (hload : setup.load bytes s = (r, s')) :
    (setup.carryOut operation s).Runs log (.loaded r, s') := by
  cases h with
  | given =>
    refine ⟨rfl, ?_⟩
    rw [hload]
  | read hread =>
    exact runs_carryOut_loadFrom
      (runs_loadFrom_iff.mpr ⟨_, runs_readFile_iff.mp hread, hload.symm⟩)

section Compiled

variable {core : Core G} {i i' : Instance G} {made called left : List Exchange}

theorem init_of_compiled (hl : s.lifecycle = .compiled)
    (hcore : s.compiled = some core) : setup.init s = do
      match ← core.instantiate setup.config with
      | .error e => return (.error (.unexpected .host e.message), s)
      | .ok i =>
          match ← i.setup setup.fuel with
          | (.ok (), i) => return (.ok (), s.initialized i)
          | (.error e, i) => return (.error (← i.salvage e), s) := by
  cases s
  cases hl
  cases hcore
  rfl

theorem runs_init_of_unmade {e : InstantiateError} (hl : s.lifecycle = .compiled)
    (hcore : s.compiled = some core)
    (hmade : (core.instantiate setup.config).Runs log (.error e)) :
    (setup.init s).Runs log (.error (.unexpected .host e.message), s) := by
  rw [init_of_compiled hl hcore]
  exact Task.runs_bind.mpr ⟨_, log, [], (List.append_nil _).symm, hmade, rfl, rfl⟩

theorem runs_init_of_stillborn {e : CallError} {answer : PerformError}
    (hl : s.lifecycle = .compiled) (hcore : s.compiled = some core)
    (hmade : (core.instantiate setup.config).Runs made (.ok i))
    (hcall : (i.setup setup.fuel).Runs called (.error e, i'))
    (hleft : i'.Salvaged e left answer) :
    (setup.init s).Runs (made ++ (called ++ left)) (.error answer, s) := by
  rw [init_of_compiled hl hcore]
  refine Task.runs_bind.mpr ⟨_, made, _, rfl, hmade,
    Task.runs_bind.mpr ⟨_, called, left, rfl, hcall, ?_⟩⟩
  exact Task.runs_bind.mpr
    ⟨answer, left, [], (List.append_nil _).symm,
      Instance.runs_salvage_iff.mpr hleft, rfl, rfl⟩

/-- A compiled core is set up if it can be instantiated and its own setup comes to
a good end. -/
theorem runs_init_of_made (hl : s.lifecycle = .compiled)
    (hcore : s.compiled = some core)
    (hmade : (core.instantiate setup.config).Runs made (.ok i))
    (hcall : (i.setup setup.fuel).Runs called (.ok (), i')) :
    (setup.init s).Runs (made ++ called) (.ok (), s.initialized i') := by
  rw [init_of_compiled hl hcore]
  refine Task.runs_bind.mpr ⟨_, made, called, rfl, hmade, ?_⟩
  exact Task.runs_bind.mpr ⟨_, called, [], (List.append_nil _).symm, hcall, rfl, rfl⟩

end Compiled

theorem Fruitless.runs (h : setup.Fruitless s operation log answer) :
    (setup.carryOut operation s).Runs log (answer, s) := by
  cases h with
  | unreadable hn hread =>
      exact runs_carryOut_loadFrom (runs_loadFrom_iff.mpr ⟨_, ⟨_, hn, hread⟩, rfl⟩)
  | uncompiled hsource hcompile =>
      exact hsource.runs (by rw [load, compileCore, hcompile])
  | @rejected _ _ bytes core e hsource hcompile hl =>
    have hload : setup.load bytes s = s.install core := by
      rw [load, compileCore, hcompile]
    refine hsource.runs (hload.trans ?_)
    unfold Slot.install
    rcases hl with ⟨hl, rfl⟩ | ⟨hl, rfl⟩ <;> rw [hl]
  | unprepared hl =>
    refine runs_carryOut_init ?_
    unfold init
    rcases hl with hl | hl <;> rw [hl] <;> exact ⟨rfl, rfl⟩
  | unmade hl hcore hmade =>
      exact runs_carryOut_init (runs_init_of_unmade hl hcore hmade)
  | stillborn hl hcore hmade hcall hleft =>
    exact runs_carryOut_init (runs_init_of_stillborn hl hcore hmade hcall hleft)

/-- A load or an initialization that fails changes nothing. -/
theorem runs_failed_iff (hs : s.Consistent) (hfailed : answer.Failed) :
    (setup.carryOut operation s).Runs log (answer, s') ↔
    s' = s ∧ setup.Fruitless s operation log answer := by
  constructor
  · intro h
    exact ⟨unchanged_of_failed h hfailed, fruitless_of_failed hs h hfailed⟩
  · rintro ⟨rfl, h⟩
    exact h.runs

theorem Continues.unchanged {later : List (Entry G)} (h : setup.Continues s later t)
    (hfailed : ∀ entry ∈ later, entry.answer.Failed) : t = s := by
  induction h with
  | refl => rfl
  | next h hruns ih =>
    obtain ⟨hlater, hlast⟩ := List.forall_mem_append.mp hfailed
    rw [unchanged_of_failed hruns (hlast _ (List.mem_singleton_self _)), ih hlater]

end Setup

/-- A caller whose load or initialization failed leaves the slot to the
others as it was. -/
theorem Callers.Step.unchanged {G : Type} {setup : Setup G}
    {past more : List Occurrence} {c c' : Callers G} {id : Nat} {reply : Reply}
    (hstep : c.Step setup more c') (h : setup.Shared past c)
    (hreply : .left id reply ∈ more ∨ .refused id reply ∈ more)
    (hfailed : reply.Failed) : c'.slot = c.slot := by
  cases hstep with
  | @left id' call reply' s hid =>
    obtain ⟨-, rfl⟩ : id = id' ∧ reply = reply' := by simpa using hreply
    obtain ⟨turns, now, hturns⟩ := h.inTurns
    obtain ⟨log, -, hreaches⟩ := hturns.of_inside hid
    have hserved := Task.reaches_done.mp hreaches
    cases call with
    | lifecycle | suspensions =>
      obtain ⟨-, hended⟩ := hserved
      cases hended
      exact hfailed.elim
    | carry operation =>
      obtain ⟨⟨answer, s'⟩, _, _, -, hruns, -, hended⟩ := Task.runs_bind.mp hserved
      cases hended
      exact Setup.unchanged_of_failed hruns hfailed
  | _ => rfl

namespace Setup

variable {G : Type}

/-- Loading does not depend on how a file is cut up, and is all or nothing like an
initialization. Pieces that are read one after another are loaded as one, before the
gate and behind it. What fails leaves the slot as it was, and that is all: a core that
was compiled before can be set up behind any number of failures. Nor do other callers
find anything changed. -/
theorem loading_atomic (setup : Setup G) :
    (∀ path file pieces, (∀ piece ∈ pieces, piece ≠ .empty) →
      pieces.length < setup.fuel →
      (∀ s out, (setup.loadFrom path s).Runs (wholly path file pieces) out ↔
        out = setup.load (joined pieces) s) ∧
          ∀ approach, (setup.approach (.carry (.loadFrom path))).Runs
          (wholly path file pieces) approach ↔
          approach = setup.approachLoad (joined pieces)) ∧
    (∀ s, setup.Reachable s →
      (∀ operation log answer s', answer.Failed →
        ((setup.carryOut operation s).Runs log (answer, s') ↔
          s' = s ∧ setup.Fruitless s operation log answer)) ∧
      ∀ later t, setup.Continues s later t → (∀ entry ∈ later, entry.answer.Failed) →
        t = s ∧ (s.lifecycle = .compiled → ∃ core, s.compiled = some core ∧
          ∀ made called i i', (core.instantiate setup.config).Runs made (.ok i) →
          (i.setup setup.fuel).Runs called (.ok (), i') →
            (setup.init t).Runs (made ++ called) (.ok (), t.initialized i'))) ∧
    ∀ past more (c c' : Callers G) id reply, setup.Shared past c →
    c.Step setup more c' →
      (.left id reply ∈ more ∨ .refused id reply ∈ more) → reply.Failed →
      c'.slot = c.slot := by
  refine ⟨?_, ?_, fun _ _ _ _ _ _ hshared hstep => hstep.unchanged hshared⟩
  · intro path file pieces hpieces hfuel
    exact ⟨fun _ _ => runs_loadFrom_wholly_iff hpieces hfuel,
      fun _ => runs_approach_wholly_iff hpieces hfuel⟩
  · intro s hs
    refine ⟨fun _ _ _ _ hfailed => runs_failed_iff hs.consistent hfailed, ?_⟩
    intro later t hlater hfailed
    cases hlater.unchanged hfailed
    refine ⟨rfl, fun hl => ?_⟩
    obtain ⟨core, hcore⟩ := Option.isSome_iff_exists.mp
      (hs.consistent.compiled_iff.mpr (.inl hl))
    exact ⟨core, hcore, fun _ _ _ _ => runs_init_of_made hl hcore⟩

section Picky

/-- Whatever is not empty is compiled to the quiet core. -/
def picky : Setup Unit :=
  ⟨{}, fun bytes => if bytes.isEmpty then none else some quietCore, 3⟩

def emptyHanded : Callers Unit :=
  Callers.new.put 0 (.carry (.load .empty))
    (.approaching (picky.approach (.carry (.load .empty))))

/-- A core of two pieces is loaded, then nothing is, and the core is set up
all the same. -/
theorem picky_loads_in_pieces :
    (picky.loadFrom "core" .empty).Runs (wholly "core" 0 [⟨#[0]⟩, ⟨#[1]⟩])
      (.ok (), Slot.empty.installed quietCore) ∧
    (picky.carryOut (.load .empty) (Slot.empty.installed quietCore)).Runs []
      (.loaded (.error .compile), Slot.empty.installed quietCore) ∧
    (∃ i, (picky.init (Slot.empty.installed quietCore)).Runs []
      (.ok (), (Slot.empty.installed quietCore).initialized i)) ∧
    ∃ c', emptyHanded.Step picky [.refused 0 (.carried (.loaded (.error .compile)))]
      c' ∧ c'.slot = emptyHanded.slot := by
  obtain ⟨hpieces, hreached, hshared⟩ := picky.loading_atomic
  have hload : (picky.loadFrom "core" .empty).Runs (wholly "core" 0 [⟨#[0]⟩, ⟨#[1]⟩])
      (.ok (), Slot.empty.installed quietCore) :=
    ((hpieces "core" 0 [⟨#[0]⟩, ⟨#[1]⟩] (by decide) (by decide)).1 .empty _).mpr rfl
  have hreachable : picky.Reachable (Slot.empty.installed quietCore) :=
    .step .empty (runs_carryOut_loadFrom hload).ends
  obtain ⟨hfailed, hlater⟩ := hreached _ hreachable
  have hempty := (hfailed (.load .empty) [] (.loaded (.error .compile)) _ trivial).mpr
    ⟨rfl, .uncompiled (.given .empty) rfl⟩
  refine ⟨hload, hempty, ?_, ?_⟩
  · obtain ⟨-, hinit⟩ := hlater _ _ (.next .refl hempty) (by simp [Answer.Failed])
    obtain ⟨core, hcore, hmade⟩ := hinit rfl
    cases hcore
    exact ⟨_, hmade [] [] _ _ ⟨rfl, rfl⟩ ⟨rfl, rfl⟩⟩
  · have hcalled :=
      (@Shared.start _ picky).step
        (@Callers.Step.called _ _ _ 0 rfl (.carry (.load .empty)))
    have hrefused :
        emptyHanded.Step picky [.refused 0 (.carried (.loaded (.error .compile)))]
          _ := .refused rfl
    exact ⟨_, hrefused,
      hshared _ _ _ _ 0 _ hcalled hrefused (.inr (List.mem_singleton_self _)) trivial⟩

end Picky

end Setup

end Resumable
