import Resumable.Proofs.Service.Exchanges
import Resumable.Proofs.Stream.Script

/-!
# A reader of chunks is faithful and lazy

The source goes by a script, without an end or with one, and whoever holds the reader
reads, writes and closes as they like. What the reads tell, failures included, is what
the script holds, in the same order, but for what is queued. Nothing is pulled before
it is needed and nothing after the end.
-/

namespace Resumable

/-- What is done with a reader, and what it answers. -/
inductive Dealing where
  | read (max : Nat) (answer : Except Errno ByteArray)
  | write (bytes : ByteArray) (answer : Except Errno Nat)
  | close (answer : Except Errno Unit)

namespace Dealing

/-- What the one who reads is told of the stream. -/
def told : Dealing → Content
  | .read _ answer => readContent answer
  | .write _ _ | .close _ => []

def isClose : Dealing → Bool
  | .close _ => true
  | _ => false

end Dealing

namespace ChunkReader

/-- A reader is dealt with: what is done, the reader behind it, and how often its
source has been asked. -/
inductive Dealt (script : Script) (r₀ : ChunkReader Unit) (n₀ : Nat) :
    List Dealing → ChunkReader Unit → Nat → Prop where
  | start : Dealt script r₀ n₀ [] r₀ n₀
  | read {past : List Dealing} {r r' : ChunkReader Unit} {n n' fuel max : Nat}
      {answer : Except Errno ByteArray} (before : Dealt script r₀ n₀ past r n)
      (hread : r.read script.pull fuel max n = (some (answer, r'), n')) :
      Dealt script r₀ n₀ (past ++ [.read max answer]) r' n'
  | write {past : List Dealing} {r : ChunkReader Unit} {n : Nat} (bytes : ByteArray)
      (before : Dealt script r₀ n₀ past r n) :
      Dealt script r₀ n₀ (past ++ [.write bytes (r.write bytes).1]) (r.write bytes).2 n
  | close {past : List Dealing} {r : ChunkReader Unit} {n : Nat}
      (before : Dealt script r₀ n₀ past r n) :
      Dealt script r₀ n₀ (past ++ [.close r.close.1]) r.close.2 n

variable {script : Script} {past : List Dealing} {r r' : ChunkReader Unit} {n n' : Nat}

/-- What is queued is the end of the item that was pulled last. -/
def OfLast (script : Script) (r : ChunkReader Unit) (n : Nat) : Prop :=
  ∀ chunk ∈ r.queue, 0 < n ∧ ∃ given, script (n - 1) = .chunk (given ++ chunk)

/-- Without the item that was pulled last, less could be told, or not that the end
is reached. -/
def Needed (script : Script) (past : List Dealing) (n : Nat) : Prop :=
  0 < n → (script.contents (n - 1)).length < (past.flatMap Dealing.told).length ∨
    script (n - 1) = .ended ∧ ∃ max, 0 < max ∧ .read max (.ok .empty) ∈ past

/-- How an open reader stands to its source and to what it has told. -/
structure Delivered (script : Script) (past : List Dealing) (r : ChunkReader Unit)
    (n : Nat) : Prop where
  isOpen : r.closed = false
  tidy : r.Tidy
  ofLast : OfLast script r n
  conserved : past.flatMap Dealing.told ++ r.left = script.contents n
  ended : ∀ k < n, script k = .ended → k + 1 = n ∧ r.source = none
  source : r.source = none → 0 < n ∧ script (n - 1) = .ended
  needed : Needed script past n

theorem Delivered.start (script : Script) : Delivered script [] (.ofSource ()) 0 where
  isOpen := rfl
  tidy := .inl rfl
  ofLast := by simp [OfLast, ofSource]
  conserved := rfl
  ended := by simp
  source := by simp [ofSource]
  needed := by simp [Needed]

namespace Delivered

variable {len max : Nat} {answer : Except Errno ByteArray}

theorem ofLast_read (h : Delivered script past r n)
    (hreads : Reads max r (script.stretch n len) answer r') :
    OfLast script r' (n + len) := by
  intro chunk hchunk
  cases len with
  | zero =>
      rcases hreads.of_nil.2 with hqueue | hqueue
      · exact h.ofLast chunk (hqueue ▸ hchunk)
      · rcases h.tidy.take max with hnone | ⟨given, _, hwhole, hrest, -⟩
        · simp [hqueue, hnone] at hchunk
        · rw [hqueue, hrest, List.mem_singleton] at hchunk
          subst hchunk
          obtain ⟨hpos, before, hlast⟩ := h.ofLast (given ++ chunk) (by simp [hwhole])
          exact ⟨hpos,
            before ++ given, by rw [Nat.add_zero, hlast, ByteArray.append_assoc]⟩
  | succ more =>
      obtain ⟨-, -, -, -,
        ⟨bytes, hlast, -, -, hrest⟩ | ⟨_, -, -, -, hnone⟩ | ⟨-, -, -, hnone⟩⟩ :=
        hreads.decided_script
      · obtain ⟨given, rfl⟩ := hrest chunk hchunk
        exact ⟨by omega, given, hlast⟩
      · simp [hnone] at hchunk
      · simp [hnone] at hchunk

theorem ended_read (h : Delivered script past r n)
    (hreads : Reads max r (script.stretch n len) answer r') {k : Nat}
    (hk : k < n + len) (hended : script k = .ended) :
    k + 1 = n + len ∧ r'.source = none := by
  cases len with
  | zero =>
      rw [hreads.of_nil.1]
      exact h.ended k hk hended
  | succ more =>
      obtain ⟨-, hsource, -, hskipped, hlast⟩ := hreads.decided_script
      rcases Nat.lt_or_ge k n with hearlier | hfrom
      · exact absurd (h.ended k hearlier hended).2 hsource
      · rcases Nat.lt_or_ge k (n + more) with hskip | hto
        · simp [hskipped k hfrom hskip] at hended
        · obtain rfl : k = n + more := by omega
          rcases hlast with ⟨_, hchunk, -⟩ | ⟨_, hfailed, -⟩ | ⟨-, -, hrest, -⟩
          · simp [hended] at hchunk
          · simp [hended] at hfailed
          · exact ⟨rfl, hrest⟩

theorem source_read (h : Delivered script past r n)
    (hreads : Reads max r (script.stretch n len) answer r')
    (hnone : r'.source = none) : 0 < n + len ∧ script (n + len - 1) = .ended := by
  cases len with
  | zero => exact h.source (hreads.of_nil.1 ▸ hnone)
  | succ more =>
      obtain ⟨-, -, -, -, ⟨_, -, hsome, -⟩ | ⟨_, -, -, hsome, -⟩ | ⟨hlast, -⟩⟩ :=
        hreads.decided_script
      · exact absurd hnone hsome
      · exact absurd hnone hsome
      · exact ⟨by omega, hlast⟩

theorem needed_read (h : Delivered script past r n)
    (hreads : Reads max r (script.stretch n len) answer r') :
    Needed script (past ++ [.read max answer]) (n + len) := by
  intro hpos
  rw [List.flatMap_append, List.length_append, List.flatMap_singleton, Dealing.told]
  cases len with
  | zero =>
      rcases h.needed hpos with hmore | ⟨hlast, size, hsize, hmem⟩
      · left
        rw [Nat.add_zero]
        omega
      · exact .inr ⟨hlast, size, hsize, List.mem_append_left _ hmem⟩
  | succ more =>
      obtain ⟨hqueue, -, hmax, hskipped, hlast⟩ := hreads.decided_script
      have hcontents : script.contents (n + more) = past.flatMap Dealing.told := by
        have hnothing : (script.stretch n more).flatMap Pull.content = [] := by
          rw [List.flatMap_eq_nil_iff]
          intro item hitem
          obtain ⟨k, hk, rfl⟩ := List.mem_map.mp hitem
          obtain ⟨hfrom, hto⟩ := List.mem_range'_1.mp hk
          rw [hskipped k hfrom hto]
          rfl
        rw [Script.contents_add, hnothing, ← h.conserved, h.tidy.left_eq_nil.mpr hqueue]
        simp
      rw [show n + (more + 1) - 1 = n + more by omega, hcontents]
      rcases hlast with ⟨_, -, -, htold, -⟩ | ⟨_, -, rfl, -⟩ | ⟨hlast, rfl, -⟩
      · left
        exact Nat.lt_add_of_pos_right (List.length_pos_iff.mpr htold)
      · left
        simp [readContent]
      · exact .inr ⟨hlast, max, hmax, by simp⟩

/-- A read keeps the reader in step with its source. -/
theorem read (h : Delivered script past r n)
    (hreads : Reads max r (script.stretch n len) answer r') :
    Delivered script (past ++ [.read max answer]) r' (n + len) where
  isOpen := hreads.closed_eq.trans h.isOpen
  tidy := hreads.tidy h.tidy
  ofLast := h.ofLast_read hreads
  conserved := by
    rw [List.flatMap_append, List.flatMap_singleton, Dealing.told, List.append_assoc,
      ← hreads.content h.isOpen, ← List.append_assoc, h.conserved, Script.contents_add]
  ended := fun _ => h.ended_read hreads
  source := h.source_read hreads
  needed := h.needed_read hreads

theorem write (h : Delivered script past r n) (bytes : ByteArray) :
    Delivered script (past ++ [.write bytes (r.write bytes).1])
      (r.write bytes).2 n where
  isOpen := h.isOpen
  tidy := h.tidy
  ofLast := h.ofLast
  conserved := by
    rw [List.flatMap_append, List.flatMap_singleton, Dealing.told, List.append_nil]
    exact h.conserved
  ended := h.ended
  source := h.source
  needed := by
    intro hpos
    rw [List.flatMap_append, List.flatMap_singleton, Dealing.told, List.append_nil]
    rcases h.needed hpos with hmore | ⟨hlast, max, hmax, hmem⟩
    · exact .inl hmore
    · exact .inr ⟨hlast, max, hmax, List.mem_append_left _ hmem⟩

end Delivered

/-- What holds of a reader that is not closed yet, whatever its source does and
however it is read. -/
structure Faithful (script : Script) (past : List Dealing) (r : ChunkReader Unit)
    (n : Nat) : Prop where
  /-- What has been told and what is queued is what the pulled items hold,
  failures included. -/
  conserved : past.flatMap Dealing.told ++ r.left = script.contents n
  bounded : ∀ max bytes, .read max (.ok bytes) ∈ past → bytes.size ≤ max
  /-- Where something is asked for, nothing is told only at the end, when all else
  has been told. -/
  atEnd : ∀ earlier max answer later, past = earlier ++ .read max answer ::
    later → 0 < max → (answer = .ok .empty ↔
      ∃ e, script.EndsAt e ∧ earlier.flatMap Dealing.told = script.contents e)
  /-- A read is answered unless the source goes on with empty chunks for ever. -/
  returns : ∀ max, (max = 0 ∨ r.queue ≠ [] ∨ ∃ k, script k = .ended ∨
    n ≤ k ∧ script k ≠ .chunk .empty) →
      ∃ fuel x n', ∀ fuel' ≥ fuel, r.read script.pull fuel' max n = (some x, n')
  readNothing : ∀ fuel, r.read script.pull fuel 0 n = (some (.ok .empty, r), n)
  write : ∀ bytes, (r.write bytes).2 = r
  queue : r.queue = [] ∨ ∃ given chunk, r.queue = [chunk] ∧ chunk ≠ .empty ∧
    0 < n ∧ script (n - 1) = .chunk (given ++ chunk)
  /-- Each item is pulled while nothing is queued, also by a read that is
  not answered. -/
  pulls : ∀ fuel max n', (r.read script.pull fuel max n).2 = n' →
    n ≤ n' ∧ (r.queue ≠ [] → n' = n) ∧ ∀ k, n ≤ k → k + 1 < n' →
    script k = .chunk .empty
  needed : Needed script past n
  /-- The end is pulled once, and nothing behind it. -/
  endedOnce : ∀ fuel max n', (r.read script.pull fuel max n).2 = n' →
    ∀ k < n', script k = .ended → k + 1 = n'
  closed : ∀ later r' n', Dealt script r.close.2 n later r' n' →
    r'.queue = [] ∧ n' = n ∧
    (∀ max answer, .read max answer ∈ later → answer = .error .badF) ∧
      ∀ fuel max, r'.read script.pull fuel max n' = (some (.error .badF, r'), n')

namespace Dealt

theorem delivered (h : Dealt script (.ofSource ()) 0 past r n)
    (hopen : ∀ dealing ∈ past, dealing.isClose = false) :
    Delivered script past r n := by
  induction h with
  | start => exact .start script
  | @read past r r' n n' fuel max answer _ hread ih =>
      have hbefore := ih fun dealing hmem => hopen dealing (List.mem_append_left _ hmem)
      rcases read_script script fuel max r n
        with ⟨len, answer', r'', hread', hreads⟩ | ⟨hnone, -⟩
      · cases hread.symm.trans hread'
        exact hbefore.read hreads
      · cases hread.symm.trans hnone
  | write bytes _ ih =>
      have hbefore := ih fun dealing hmem => hopen dealing (List.mem_append_left _ hmem)
      exact hbefore.write bytes
  | close =>
      exact absurd (hopen _ (List.mem_append_right _ (List.mem_singleton_self _)))
        (by simp [Dealing.isClose])

theorem at_read {r₀ : ChunkReader Unit} {n₀ max : Nat} {answer : Except Errno ByteArray}
    {earlier later : List Dealing} (h : Dealt script r₀ n₀ past r n)
    (hpast : past = earlier ++ .read max answer :: later) :
    ∃ r₁ n₁ r₂ len, Dealt script r₀ n₀ earlier r₁ n₁ ∧
    Reads max r₁ (script.stretch n₁ len) answer r₂ := by
  induction h generalizing later with
  | start => simp at hpast
  | @read _ r _ n _ fuel _ _ hbefore hread ih =>
      obtain ⟨-, rfl, hlast⟩ | ⟨rest, -, hrest⟩ := snoc_eq_append_cons hpast
      · cases hlast
        rcases read_script script fuel max r n
          with ⟨len, _, after, hread', hreads⟩ | ⟨hnone, -⟩
        · cases hread.symm.trans hread'
          exact ⟨r, n, _, len, hbefore, hreads⟩
        · cases hread.symm.trans hnone
      · exact ih hrest
  | write _ _ ih | close _ ih =>
      obtain ⟨-, -, hlast⟩ | ⟨rest, -, hrest⟩ := snoc_eq_append_cons hpast
      · cases hlast
      · exact ih hrest

theorem closed {r₀ : ChunkReader Unit} {n₀ : Nat}
    (h : Dealt script r₀.close.2 n₀ past r n) : r = r₀.close.2 ∧ n = n₀ ∧
    ∀ max answer, .read max answer ∈ past → answer = .error .badF := by
  induction h with
  | start => exact ⟨rfl, rfl, by simp⟩
  | read _ hread ih =>
      obtain ⟨rfl, rfl, hanswers⟩ := ih
      cases hread
      refine ⟨rfl, rfl, ?_⟩
      intro max answer hmem
      rcases List.mem_append.mp hmem with hmem | hmem
      · exact hanswers max answer hmem
      · cases List.mem_singleton.mp hmem
        rfl
  | write _ _ ih | close _ ih =>
      obtain ⟨rfl, rfl, hanswers⟩ := ih
      refine ⟨rfl, rfl, ?_⟩
      intro max answer hmem
      rcases List.mem_append.mp hmem with hmem | hmem
      · exact hanswers max answer hmem
      · cases List.mem_singleton.mp hmem

end Dealt

namespace Delivered

variable {max fuel : Nat} (h : Delivered script past r n)

include h

theorem readNothing (fuel : Nat) :
    r.read script.pull fuel 0 n = (some (.ok .empty, r), n) := by
  rw [ChunkReader.read, if_neg (by simp [h.isOpen]), if_pos rfl]
  rfl

theorem returns
    (hmax : max = 0 ∨ r.queue ≠ [] ∨ ∃ k, script k = .ended ∨
      n ≤ k ∧ script k ≠ .chunk .empty) : ∃ fuel x n', ∀ fuel' ≥ fuel,
        r.read script.pull fuel' max n = (some x, n') := by
  rcases hmax with rfl | hmax
  · exact ⟨0, _, _, fun fuel' _ => h.readNothing fuel'⟩
  · obtain ⟨k, hk⟩ : ∃ k, r.queue ≠ [] ∨ script k = .ended ∨
      n ≤ k ∧ script k ≠ .chunk .empty := by
      rcases hmax with hqueue | ⟨k, hk⟩
      · exact ⟨0, .inl hqueue⟩
      · exact ⟨k, .inr hk⟩
    rcases read_script script (k + 1) max r n with ⟨len, answer, r', hread, -⟩
      | ⟨-, hnone, hfuel, hskipped⟩
    · exact ⟨k + 1, _, _, fun fuel' hfuel => read_more_fuel hread hfuel⟩
    · exfalso
      rcases hk with hqueue | hended | ⟨hfrom, hitem⟩
      · exact hqueue hnone
      · rcases Nat.lt_or_ge k n with hearlier | hfrom
        · rcases hfuel with hzero | hsource
          · omega
          · exact hsource (h.ended k hearlier hended).2
        · simp [hskipped k hfrom (by omega)] at hended
      · exact hitem (hskipped k hfrom (by omega))

theorem endedOnce (hread : (r.read script.pull fuel max n).2 = n')
    {k : Nat} (hk : k < n') (hended : script k = .ended) : k + 1 = n' := by
  rcases read_script script fuel max r n with
      ⟨len, answer, r', hsome, hreads⟩ | ⟨hnone, -, hfuel, hskipped⟩
  · rw [hsome] at hread
    subst hread
    exact (h.ended_read hreads hk hended).1
  · rw [hnone] at hread
    subst hread
    rcases Nat.lt_or_ge k n with hearlier | hfrom
    · obtain ⟨hlast, hsource⟩ := h.ended k hearlier hended
      rcases hfuel with rfl | hsome
      · exact hlast
      · exact absurd hsource hsome
    · simp [hskipped k hfrom hk] at hended

/-- The end is told when and only when everything else has been told. -/
theorem atEnd {len : Nat} {answer : Except Errno ByteArray}
    (hreads : Reads max r (script.stretch n len) answer r') (hmax : 0 < max) :
    answer = .ok .empty ↔ ∃ e, script.EndsAt e ∧
    past.flatMap Dealing.told = script.contents e := by
  have hafter := h.read hreads
  have hconserved := hafter.conserved
  rw [List.flatMap_append, List.flatMap_singleton, Dealing.told, List.append_assoc]
    at hconserved
  constructor
  · intro hanswer
    obtain ⟨hqueue, hsource⟩ := hreads.at_end h.tidy hmax hanswer
    obtain ⟨hpos, hlast⟩ := hafter.source hsource
    refine ⟨n + len - 1, ⟨hlast, ?_⟩, ?_⟩
    · intro k hk hended
      have hk' := (hafter.ended k (by omega) hended).1
      omega
    · obtain ⟨e, he⟩ : ∃ e, n + len = e + 1 := ⟨n + len - 1, by omega⟩
      rw [he, Nat.add_sub_cancel] at hlast ⊢
      rw [he, Script.contents_succ, hlast, hanswer,
        hafter.tidy.left_eq_nil.mpr hqueue] at hconserved
      simpa [readContent, contentOf_empty, Pull.content] using hconserved
  · rintro ⟨e, ⟨hlast, hfirst⟩, htold⟩
    have hreached : n + len ≤ e + 1 := by
      rcases Nat.lt_or_ge e (n + len) with hlt | hge
      · exact Nat.le_of_eq (hafter.ended e hlt hlast).1.symm
      · omega
    obtain ⟨rest, hrest⟩ := Nat.exists_eq_add_of_le hreached
    have hend : script.contents (e + 1) = script.contents e := by
      rw [Script.contents_succ, hlast, Pull.content, List.append_nil]
    rw [hrest, Script.contents_add, ← hconserved, ← htold, List.append_assoc,
      List.append_right_eq_self, List.append_eq_nil_iff, List.append_eq_nil_iff] at hend
    have hnothing := hend.1.1
    rcases answer with errno | bytes
    · simp [readContent] at hnothing
    · exact congrArg Except.ok (contentOf_eq_nil.mp hnothing)

end Delivered

namespace Dealt

/-- A reader tells all that its source gives and in this order, tells the end from an
empty chunk, and asks its source no more often than it must. Once it is closed it asks
and tells nothing. -/
theorem faithful_and_lazy (h : Dealt script (.ofSource ()) 0 past r n)
    (hopen : ∀ dealing ∈ past, dealing.isClose = false) : Faithful script past r n where
  conserved := (h.delivered hopen).conserved
  bounded := by
    intro max bytes hmem
    obtain ⟨earlier, later, hpast⟩ := List.append_of_mem hmem
    obtain ⟨_, _, _, _, -, hreads⟩ := h.at_read hpast
    exact hreads.size_le rfl
  atEnd := by
    intro earlier max answer later hpast hmax
    obtain ⟨r₁, n₁, r₂, len, hearlier, hreads⟩ := h.at_read hpast
    have hopen' : ∀ dealing ∈ earlier, dealing.isClose = false := by
      intro dealing hmem
      apply hopen
      rw [hpast]
      exact List.mem_append_left _ hmem
    exact (hearlier.delivered hopen').atEnd hreads hmax
  returns := fun _ => (h.delivered hopen).returns
  readNothing := (h.delivered hopen).readNothing
  write := fun _ => rfl
  queue := by
    rcases (h.delivered hopen).tidy with hnone | ⟨chunk, hqueue, hchunk⟩
    · exact .inl hnone
    · obtain ⟨hpos, given, hlast⟩ := (h.delivered hopen).ofLast chunk (by simp [hqueue])
      exact .inr ⟨given, chunk, hqueue, hchunk, hpos, hlast⟩
  pulls := fun _ _ _ => read_pulls
  needed := (h.delivered hopen).needed
  endedOnce := fun _ _ _ hread _ => (h.delivered hopen).endedOnce hread
  closed := by
    intro later r' n' hlater
    obtain ⟨rfl, rfl, hanswers⟩ := hlater.closed
    exact ⟨rfl, rfl, hanswers, fun _ _ => rfl⟩

end Dealt

/-- A chunk that is read in two pieces, an empty one, a failure, another chunk,
and the end. -/
def faltering : Script
  | 0 => .chunk ⟨#[1, 2, 3]⟩
  | 1 => .chunk .empty
  | 2 => .failed .io
  | 3 => .chunk ⟨#[4]⟩
  | _ => .ended

theorem faltering_told : ∃ past r, Dealt faltering (.ofSource ()) 0 past r 5 ∧
    past.flatMap Dealing.told = [.ok 1, .ok 2, .ok 3, .error .io, .ok 4] ∧
      .read 8 (.ok .empty) ∈ past ∧ Faithful faltering past r 5 := by
  have hfirst : ChunkReader.read faltering.pull 1 2 (.ofSource ()) 0 =
      (some (.ok ⟨#[1, 2]⟩, ⟨some (), [⟨#[3]⟩], false⟩), 1) := rfl
  have hrest : ChunkReader.read faltering.pull 1 5 ⟨some (), [⟨#[3]⟩], false⟩ 1 =
      (some (.ok ⟨#[3]⟩, ⟨some (), [], false⟩), 1) := rfl
  have hfailed : ChunkReader.read faltering.pull 2 1 ⟨some (), [], false⟩ 1 =
      (some (.error .io, ⟨some (), [], false⟩), 3) := rfl
  have hsecond : ChunkReader.read faltering.pull 2 8 ⟨some (), [], false⟩ 3 =
      (some (.ok ⟨#[4]⟩, ⟨some (), [], false⟩), 4) := rfl
  have hend : ChunkReader.read faltering.pull 2 8 ⟨some (), [], false⟩ 4 =
      (some (.ok .empty, ⟨none, [], false⟩), 5) := rfl
  have hdealt := (((((Dealt.start.read hfirst).write .empty).read hrest).read
    hfailed).read hsecond).read hend
  exact ⟨_, _, hdealt,
    rfl, by simp, hdealt.faithful_and_lazy (by simp [Dealing.isClose])⟩

end ChunkReader

end Resumable
