import Resumable.Proofs.Stream.Filling

namespace Resumable

abbrev Script := Nat → Pull

namespace Script

/-- A source that goes by the script. The state counts how often it has been asked. -/
def pull (script : Script) (u : Unit) : StateM Nat (Pull × Unit) :=
  fun asked => ((script asked, u), asked + 1)

def stretch (script : Script) (start len : Nat) : List Pull :=
  (List.range' start len).map script

def contents (script : Script) (n : Nat) : Content :=
  (script.stretch 0 n).flatMap Pull.content

def EndsAt (script : Script) (e : Nat) : Prop :=
  script e = .ended ∧ ∀ k < e, script k ≠ .ended

variable (script : Script)

theorem stretch_succ (start len : Nat) :
    script.stretch start (len + 1) =
    script start :: script.stretch (start + 1) len := by
  simp [stretch, List.range'_succ]

theorem stretch_snoc (start len : Nat) :
    script.stretch start (len + 1) =
    script.stretch start len ++ [script (start + len)] := by
  simp [stretch, List.range'_concat]

theorem contents_add (n len : Nat) :
    script.contents (n + len) =
    script.contents n ++ (script.stretch n len).flatMap Pull.content := by
  have hrange := List.range'_append_1 (s := 0) (m := n) (n := len)
  rw [Nat.zero_add] at hrange
  rw [contents, contents, ← List.flatMap_append, stretch, stretch, stretch,
    ← List.map_append, hrange]

theorem contents_succ (n : Nat) :
    script.contents (n + 1) = script.contents n ++ (script n).content := by
  rw [contents_add, stretch_succ]
  simp [stretch]

theorem stretch_eq_snoc {script : Script} {start len : Nat}
    {skipped : List Pull} {last : Pull}
    (h : script.stretch start len = skipped ++ [last]) : ∃ more, len = more + 1 ∧
    script.stretch start more = skipped ∧ script (start + more) = last := by
  cases len with
  | zero => simp [stretch] at h
  | succ more =>
      rw [stretch_snoc] at h
      obtain ⟨hskipped, hlast⟩ := List.append_inj' h rfl
      exact ⟨more, rfl, hskipped, List.head_eq_of_cons_eq hlast⟩

end Script

namespace ChunkReader

variable {script : Script} {r r' : ChunkReader Unit} {n n' : Nat}

theorem fill_script_of_source (script : Script) (fuel : Nat) (hnone : r.queue = [])
    (hsource : r.source = some ()) :
    fill script.pull (fuel + 1) r n =
      match script n with
      | .chunk bytes =>
          fill script.pull fuel ({ r with source := some () }.push bytes) (n + 1)
      | .failed errno => (some (.error errno, { r with source := some () }), n + 1)
      | .ended => (some (.ok false, { r with source := none }), n + 1) := by
  rw [fill, if_neg (by simp [hnone]), hsource]
  change (match script n with
    | .chunk bytes => fill script.pull fuel ({ r with source := some () }.push bytes)
    | .failed errno => pure (some (.error errno, { r with source := some () }))
    | .ended =>
        pure (some (.ok false, { r with source := none })) : StateM Nat _) (n + 1) = _
  cases script n <;> rfl

theorem fill_script (script : Script) (fuel : Nat) (r : ChunkReader Unit) (n : Nat) :
    (∃ len answer r', fill script.pull fuel r n = (some (answer, r'), n + len) ∧
        Fills r (script.stretch n len) answer r') ∨
      fill script.pull fuel r n = (none, n + fuel) ∧ r.queue = [] ∧
      (fuel = 0 ∨ r.source ≠ none) ∧
        ∀ k, n ≤ k → k < n + fuel → script k = .chunk .empty := by
  induction fuel generalizing r n with
  | zero =>
      by_cases hqueue : r.queue = []
      · refine .inr ⟨?_, hqueue, .inl rfl, by omega⟩
        simp only [fill, hqueue]
        rfl
      · refine .inl ⟨0, .ok true, r, ?_, .queued hqueue⟩
        rw [fill, if_neg (by simp [hqueue])]
        rfl
  | succ fuel ih =>
      by_cases hqueue : r.queue = []
      · rcases hsource : r.source with _ | ⟨⟩
        · refine .inl ⟨0, .ok false, r, ?_, .exhausted hqueue hsource⟩
          rw [fill, if_neg (by simp [hqueue]), hsource]
          rfl
        · rw [fill_script_of_source script fuel hqueue hsource]
          cases hitem : script n with
          | failed errno =>
              refine .inl ⟨1, _, _, rfl, ?_⟩
              rw [Script.stretch_succ, hitem]
              exact .failed hqueue hsource
          | ended =>
              refine .inl ⟨1, _, _, rfl, ?_⟩
              rw [Script.stretch_succ, hitem]
              exact .ended hqueue hsource
          | chunk bytes =>
              rcases ih ({ r with source := some () }.push bytes) (n + 1) with
                  ⟨len, answer, r', hfill, hfills⟩ | ⟨hfill, hnone, -, hskipped⟩
              · refine .inl ⟨len + 1, answer, r', ?_, ?_⟩
                · exact hfill.trans (congrArg (Prod.mk _) (by omega))
                · rw [Script.stretch_succ, hitem]
                  exact .chunk hqueue hsource hfills
              · have hempty : bytes = .empty := by
                  rcases push_queue (r := { r with source := some () })
                    bytes hqueue with
                      ⟨hempty, -⟩ | ⟨-, hpush⟩
                  · exact hempty
                  · simp [hpush] at hnone
                refine .inr ⟨?_, hqueue, .inr (by simp), ?_⟩
                · exact hfill.trans (congrArg (Prod.mk _) (by omega))
                · intro k hfrom hto
                  rcases Nat.eq_or_lt_of_le hfrom with rfl | hlater
                  · rw [hitem, hempty]
                  · exact hskipped k hlater (by omega)
      · refine .inl ⟨0, .ok true, r, ?_, .queued hqueue⟩
        rw [fill, if_pos (by simp [hqueue])]
        rfl

/-- A read is answered as its items tell, or all that it pulls are empty chunks. -/
theorem read_script (script : Script) (fuel max : Nat)
    (r : ChunkReader Unit) (n : Nat) :
    (∃ len answer r', r.read script.pull fuel max n = (some (answer, r'), n + len) ∧
        Reads max r (script.stretch n len) answer r') ∨
      r.read script.pull fuel max n = (none, n + fuel) ∧ r.queue = [] ∧
        (fuel = 0 ∨ r.source ≠ none) ∧ ∀ k, n ≤ k → k < n + fuel →
        script k = .chunk .empty := by
  unfold read
  split
  · next hclosed => exact .inl ⟨0, _, _, rfl, .closed hclosed⟩
  · next hclosed =>
      have hopen : r.closed = false := by simpa using hclosed
      split
      · next hmax => exact .inl ⟨0, _, _, rfl, .nothing hopen hmax⟩
      · next hmax =>
          have hpos : 0 < max := Nat.pos_of_ne_zero hmax
          rcases fill_script script fuel r n with
              ⟨len, answer, r', hfill, hfills⟩ | ⟨hfill, hrest⟩
          · left
            rcases answer with errno | _ | _
            · exact ⟨len, _, r', by simp only [bind, StateT.bind, hfill]; rfl,
                .failed hopen hpos hfills⟩
            · exact ⟨len, _, r', by simp only [bind, StateT.bind, hfill]; rfl,
                .atEnd hopen hpos hfills⟩
            · exact ⟨len, _, _, by simp only [bind, StateT.bind, hfill]; rfl,
                .taken hopen hpos hfills⟩
          · right
            refine ⟨?_, hrest⟩
            simp only [bind, StateT.bind, hfill]; rfl

theorem fill_succ_fuel {fuel : Nat} {x : Except Errno Bool × ChunkReader Unit}
    (h : fill script.pull fuel r n = (some x, n')) :
    fill script.pull (fuel + 1) r n = (some x, n') := by
  induction fuel generalizing r n with
  | zero =>
      by_cases hqueue : r.queue = []
      · simp only [fill, hqueue] at h
        cases h
      · rw [fill, if_neg (by simp [hqueue])] at h
        rw [fill, if_pos (by simp [hqueue])]
        exact h
  | succ fuel ih =>
      by_cases hqueue : r.queue = []
      · rcases hsource : r.source with _ | ⟨⟩
        · rw [fill, if_neg (by simp [hqueue]), hsource] at h
          rw [fill, if_neg (by simp [hqueue]), hsource]
          exact h
        · rw [fill_script_of_source script _ hqueue hsource] at h ⊢
          cases hitem : script n with
          | chunk bytes =>
              rw [hitem] at h
              exact ih h
          | failed | ended =>
              rw [hitem] at h
              exact h
      · rw [fill, if_pos (by simp [hqueue])] at h ⊢
        exact h

theorem read_more_fuel {fuel fuel' max : Nat}
    {x : Except Errno ByteArray × ChunkReader Unit}
    (h : r.read script.pull fuel max n = (some x, n')) (hfuel : fuel ≤ fuel') :
    r.read script.pull fuel' max n = (some x, n') := by
  induction hfuel with
  | refl => exact h
  | step _ ih =>
      unfold read at ih ⊢
      split
      · next hclosed =>
          rw [if_pos hclosed] at ih
          exact ih
      · next hclosed =>
          rw [if_neg hclosed] at ih
          split
          · next hmax =>
              rw [if_pos hmax] at ih
              exact ih
          · next hmax =>
              rw [if_neg hmax] at ih
              rename_i fuel _
              rcases hfill : fill script.pull fuel r n with ⟨_ | filled, m⟩
              · simp only [bind, StateT.bind, hfill] at ih
                cases ih
              · simp only [bind, StateT.bind, hfill, fill_succ_fuel hfill] at ih ⊢
                exact ih

/-- Filling that pulls something: nothing is queued before, and the last item decides
the answer. -/
theorem Fills.decided_script {more : Nat} {answer : Except Errno Bool}
    (h : Fills r (script.stretch n (more + 1)) answer r') :
    r.queue = [] ∧ r.source ≠ none ∧
    (∀ k, n ≤ k → k < n + more → script k = .chunk .empty) ∧
      ((∃ bytes, script (n + more) = .chunk bytes ∧ bytes ≠ .empty ∧ answer = .ok true ∧
          r'.queue = [bytes] ∧ r'.source ≠ none) ∨
        (∃ errno, script (n + more) = .failed errno ∧ answer = .error errno ∧
          r'.source ≠ none) ∨ script (n + more) = .ended ∧ answer = .ok false ∧
            r'.source = none) := by
  have hitems : script.stretch n (more + 1) ≠ [] := by simp [Script.stretch_succ]
  obtain ⟨skipped, last, hsnoc, hskipped, hqueue, hsource, hlast⟩ := h.decided hitems
  obtain ⟨_, hmore, rfl, rfl⟩ := Script.stretch_eq_snoc hsnoc
  cases hmore
  refine ⟨hqueue, hsource, ?_, hlast⟩
  intro k hfrom hto
  apply hskipped
  exact List.mem_map_of_mem (List.mem_range'_1.mpr ⟨hfrom, hto⟩)

namespace Reads

variable {len max : Nat} {answer : Except Errno ByteArray}

theorem of_nil (h : Reads max r [] answer r') : r'.source = r.source ∧
    (r'.queue = r.queue ∨ r'.queue = (r.take max).2.queue) := by
  generalize hitems : [] = items at h
  cases h with
  | closed | nothing => exact ⟨rfl, .inl rfl⟩
  | failed _ _ hfills | atEnd _ _ hfills =>
      rw [(hfills.of_nil hitems.symm).1]
      exact ⟨rfl, .inl rfl⟩
  | taken _ _ hfills =>
      rw [(hfills.of_nil hitems.symm).1]
      exact ⟨rfl, .inr rfl⟩

/-- A read that pulls something: nothing is queued before, and the last item is what
the read is for. -/
theorem decided_script {more : Nat}
    (h : Reads max r (script.stretch n (more + 1)) answer r') :
    r.queue = [] ∧ r.source ≠ none ∧ 0 < max ∧
      (∀ k, n ≤ k → k < n + more → script k = .chunk .empty) ∧
      ((∃ bytes, script (n + more) = .chunk bytes ∧ r'.source ≠ none ∧
        readContent answer ≠ [] ∧
          ∀ chunk ∈ r'.queue, ∃ given, bytes = given ++ chunk) ∨
        (∃ errno, script (n + more) = .failed errno ∧ answer = .error errno ∧
          r'.source ≠ none ∧ r'.queue = []) ∨
          script (n + more) = .ended ∧ answer = .ok .empty ∧ r'.source = none ∧
          r'.queue = []) := by
  generalize hitems : script.stretch n (more + 1) = items at h
  have hne : items ≠ [] := by simp [← hitems, Script.stretch_succ]
  cases h with
  | closed | nothing => exact absurd rfl hne
  | failed _ hmax hfills =>
      subst hitems
      obtain ⟨hqueue, hsource, hskipped,
        ⟨_, -, -, hover, -⟩ | ⟨errno, hlast, hanswer, hrest⟩ | ⟨-, hover, -⟩⟩ :=
        hfills.decided_script
      · simp at hover
      · refine ⟨hqueue, hsource, hmax, hskipped,
          .inr (.inl ⟨errno, hlast, ?_, hrest, ?_⟩)⟩
        · exact congrArg Except.error (Except.error.inj hanswer)
        · simpa using hfills.queue_iff
      · simp at hover
  | atEnd _ hmax hfills =>
      subst hitems
      obtain ⟨hqueue, hsource, hskipped,
        ⟨_, -, -, hover, -⟩ | ⟨_, -, hover, -⟩ | ⟨hlast, -, hrest⟩⟩ :=
        hfills.decided_script
      · simp at hover
      · simp at hover
      · refine ⟨hqueue, hsource, hmax, hskipped, .inr (.inr ⟨hlast, rfl, hrest, ?_⟩)⟩
        simpa using hfills.queue_iff
  | @taken _ filled _ hmax hfills =>
      subst hitems
      obtain ⟨hqueue, hsource, hskipped,
        ⟨bytes, hlast, hbytes, -, hfilled, hrest⟩ | ⟨_, -, hover, -⟩
          | ⟨-, hover, -⟩⟩ := hfills.decided_script
      · have htidy : filled.Tidy := .inr ⟨bytes, hfilled, hbytes⟩
        refine ⟨hqueue, hsource, hmax, hskipped, .inl ⟨bytes, hlast, hrest, ?_, ?_⟩⟩
        · intro hnone
          exact htidy.take_ne_empty (hfills.queue_iff.mp rfl) hmax
            (contentOf_eq_nil.mp hnone)
        · intro chunk hchunk
          rcases htidy.take max with hnone | ⟨given, _, hwhole, hqueue', -⟩
          · simp [hnone] at hchunk
          · rw [hqueue', List.mem_singleton] at hchunk
            subst hchunk
            rw [hfilled] at hwhole
            exact ⟨given, List.head_eq_of_cons_eq hwhole⟩
      · simp at hover
      · simp at hover

end Reads

/-- Whether it is answered or not, a read pulls only while nothing is queued. -/
theorem read_pulls {fuel max : Nat} (hread : (r.read script.pull fuel max n).2 = n') :
    n ≤ n' ∧ (r.queue ≠ [] → n' = n) ∧ ∀ k, n ≤ k → k + 1 < n' →
    script k = .chunk .empty := by
  rcases read_script script fuel max r n with ⟨len, answer, r', hsome, hreads⟩
    | ⟨hnone, hqueue, -, hskipped⟩
  · rw [hsome] at hread
    subst hread
    cases len with
    | zero => exact ⟨Nat.le_refl _, fun _ => rfl, by omega⟩
    | succ more =>
        obtain ⟨hqueue, -, -, hskipped, -⟩ := hreads.decided_script
        refine ⟨by omega, fun hsome => absurd hqueue hsome, ?_⟩
        intro k hfrom hto
        exact hskipped k hfrom (by omega)
  · rw [hnone] at hread
    subst hread
    refine ⟨by omega, fun hsome => absurd hqueue hsome, ?_⟩
    intro k hfrom hto
    exact hskipped k hfrom (by omega)

end ChunkReader

end Resumable
