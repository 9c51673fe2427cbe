import Resumable.Stream.ChunkReader

namespace Resumable

/-- Bytes, with the failures that stand between them. -/
abbrev Content := List (Except Errno UInt8)

def contentOf (bytes : ByteArray) : Content := bytes.data.toList.map .ok

def Pull.content : Pull → Content
  | .chunk bytes => contentOf bytes
  | .failed errno => [.error errno]
  | .ended => []

def failureContent {α : Type} : Except Errno α → Content
  | .ok _ => []
  | .error errno => [.error errno]

def readContent : Except Errno ByteArray → Content
  | .ok bytes => contentOf bytes
  | .error errno => [.error errno]

theorem contentOf_empty : contentOf .empty = [] := rfl

theorem length_contentOf (bytes : ByteArray) :
    (contentOf bytes).length = bytes.size := by
  rw [contentOf, List.length_map]
  rfl

theorem contentOf_eq_nil {bytes : ByteArray} :
    contentOf bytes = [] ↔ bytes = .empty := by
  constructor
  · intro h
    apply ByteArray.ext
    simpa [contentOf] using h
  · rintro rfl
    rfl

theorem contentOf_append (front back : ByteArray) :
    contentOf (front ++ back) = contentOf front ++ contentOf back := by
  simp [contentOf]

theorem contentOf_split (bytes : ByteArray) (n : Nat) :
    contentOf (bytes.extract 0 n) = (contentOf bytes).take n ∧
      contentOf (bytes.extract n bytes.size) = (contentOf bytes).drop n := by
  constructor
  · simp [contentOf, List.map_take]
  · have hlength : (bytes.data.toList.drop n).length ≤ bytes.size - n := by
      rw [List.length_drop]
      exact Nat.le_refl _
    rw [contentOf, ByteArray.data_extract, Array.toList_extract,
      List.extract_eq_take_drop, List.take_of_length_le hlength,
      List.map_drop, contentOf]

theorem contentOf_injective {bytes bytes' : ByteArray}
    (h : contentOf bytes = contentOf bytes') : bytes = bytes' := by
  apply ByteArray.ext
  apply Array.toList_inj.mp
  exact (List.map_inj_right fun _ _ heq => Except.ok.inj heq).mp h

theorem isEmpty_iff_eq_empty {bytes : ByteArray} :
    bytes.isEmpty = true ↔ bytes = .empty := by
  rw [← contentOf_eq_nil, ← List.length_eq_zero_iff, length_contentOf]
  simp [ByteArray.isEmpty]

namespace ChunkReader

variable {U : Type} {r r' : ChunkReader U} {items : List Pull} {max : Nat}

def left (r : ChunkReader U) : Content := r.queue.flatMap contentOf

/-- At most one chunk is queued, and it is not empty. -/
def Tidy (r : ChunkReader U) : Prop := r.queue = [] ∨ ∃ chunk, r.queue = [chunk] ∧
    chunk ≠ .empty

/-- Seeing to it that something is queued, with the items that are pulled for it. -/
inductive Fills :
    ChunkReader U → List Pull → Except Errno Bool → ChunkReader U → Prop where
  | queued {r : ChunkReader U} (hqueue : r.queue ≠ []) : Fills r [] (.ok true) r
  | exhausted {r : ChunkReader U} (hnone : r.queue = []) (hsource : r.source = none) :
      Fills r [] (.ok false) r
  | chunk {r r' : ChunkReader U} {u u' : U} {bytes : ByteArray} {items : List Pull}
      {answer : Except Errno Bool} (hnone : r.queue = []) (hsource : r.source = some u)
      (hrest : Fills ({ r with source := some u' }.push bytes) items answer r') :
      Fills r (.chunk bytes :: items) answer r'
  | failed {r : ChunkReader U} {u u' : U} {errno : Errno} (hnone : r.queue = [])
      (hsource : r.source = some u) :
      Fills r [.failed errno] (.error errno) { r with source := some u' }
  | ended {r : ChunkReader U} {u : U} (hnone : r.queue = [])
      (hsource : r.source = some u) :
      Fills r [.ended] (.ok false) { r with source := none }

/-- A read of at most `max` bytes, with the items that are pulled for it. -/
inductive Reads (max : Nat) (r : ChunkReader U) :
    List Pull → Except Errno ByteArray → ChunkReader U → Prop where
  | closed (hclosed : r.closed = true) : Reads max r [] (.error .badF) r
  | nothing (hopen : r.closed = false) (hmax : max = 0) : Reads max r [] (.ok .empty) r
  | failed {items : List Pull} {errno : Errno} {r' : ChunkReader U}
      (hopen : r.closed = false) (hmax : 0 < max)
      (hfills : Fills r items (.error errno) r') : Reads max r items (.error errno) r'
  | atEnd {items : List Pull} {r' : ChunkReader U} (hopen : r.closed = false)
      (hmax : 0 < max) (hfills : Fills r items (.ok false) r') :
      Reads max r items (.ok .empty) r'
  | taken {items : List Pull} {r' : ChunkReader U} (hopen : r.closed = false)
      (hmax : 0 < max) (hfills : Fills r items (.ok true) r') :
      Reads max r items (.ok (r'.take max).1) (r'.take max).2

section Queue

theorem left_push (bytes : ByteArray) (r : ChunkReader U) :
    (r.push bytes).left = r.left ++ contentOf bytes := by
  unfold push
  split
  · next hempty => simp [isEmpty_iff_eq_empty.mp hempty, contentOf_empty]
  · simp [left]

theorem push_source (bytes : ByteArray) (r : ChunkReader U) :
    (r.push bytes).source = r.source ∧ (r.push bytes).closed = r.closed := by
  unfold push
  split <;> exact ⟨rfl, rfl⟩

theorem push_queue (bytes : ByteArray) (hnone : r.queue = []) :
    (bytes = .empty ∧ r.push bytes = r) ∨
      bytes ≠ .empty ∧ r.push bytes = { r with queue := [bytes] } := by
  unfold push
  split
  · next hempty => exact .inl ⟨isEmpty_iff_eq_empty.mp hempty, rfl⟩
  · next hempty =>
      refine .inr ⟨fun heq => hempty (isEmpty_iff_eq_empty.mpr heq), ?_⟩
      rw [hnone, List.nil_append]

/-- Taking splits what is queued at `max`, wherever the chunks begin. -/
theorem takeFrom_content (max : Nat) (queue : List ByteArray) (out : ByteArray) :
    contentOf (takeFrom max out queue).1 =
        contentOf out ++ (queue.flatMap contentOf).take (max - out.size) ∧
      (takeFrom max out queue).2.flatMap contentOf =
      (queue.flatMap contentOf).drop (max - out.size) := by
  induction queue generalizing out with
  | nil => simp [takeFrom]
  | cons chunk queue ih =>
      unfold takeFrom
      split
      · next hfull =>
          rw [Nat.sub_eq_zero_of_le hfull]
          simp
      · next hroom =>
          have hlength := length_contentOf chunk
          dsimp only
          split
          · next hsplit =>
              rw [contentOf_append, (contentOf_split chunk _).1, List.flatMap_cons,
                List.flatMap_cons, (contentOf_split chunk _).2]
              constructor
              · rw [List.take_append_of_le_length (by omega)]
              · rw [List.drop_append_of_le_length (by omega)]
          · next hwhole =>
              have hsize : max - (out ++ chunk).size = max - out.size -
                  (contentOf chunk).length := by
                rw [ByteArray.size_append, hlength]
                omega
              have hall : (contentOf chunk).length ≤ max - out.size := by omega
              rw [(ih _).1, (ih _).2, hsize, contentOf_append, List.flatMap_cons,
                List.append_assoc]
              constructor
              · rw [List.take_append, List.take_of_length_le hall]
              · rw [List.drop_append, List.drop_of_length_le hall, List.nil_append]

theorem take_content (r : ChunkReader U) (max : Nat) :
    contentOf (r.take max).1 = r.left.take max ∧
    (r.take max).2.left = r.left.drop max := by
  exact takeFrom_content max r.queue .empty

theorem size_take_le (r : ChunkReader U) (max : Nat) : (r.take max).1.size ≤ max := by
  rw [← length_contentOf, (take_content r max).1, List.length_take]
  exact Nat.min_le_left ..

theorem Tidy.take (htidy : r.Tidy) (max : Nat) :
    (r.take max).2.queue = [] ∨ ∃ given chunk,
      r.queue = [given ++ chunk] ∧ (r.take max).2.queue = [chunk] ∧ chunk ≠ .empty := by
  rcases htidy with hnone | ⟨bytes, hqueue, hbytes⟩
  · left
    simp [ChunkReader.take, takeFrom, hnone]
  · simp only [ChunkReader.take, hqueue, takeFrom]
    split
    · right
      exact ⟨.empty, bytes, by simp, rfl, hbytes⟩
    · split
      · next hsplit =>
          obtain ⟨hfront, hback⟩ := contentOf_split bytes (max - ByteArray.empty.size)
          right
          refine ⟨bytes.extract 0 (max - ByteArray.empty.size), _, ?_, rfl, ?_⟩
          · apply congrArg (· :: [])
            apply contentOf_injective
            rw [contentOf_append, hfront, hback, List.take_append_drop]
          · intro hempty
            have hlength := congrArg List.length hback
            rw [hempty, contentOf_empty, List.length_drop, length_contentOf,
              List.length_nil] at hlength
            omega
      · left
        rfl

theorem Tidy.left_eq_nil (htidy : r.Tidy) : r.left = [] ↔ r.queue = [] := by
  rcases htidy with hnone | ⟨chunk, hqueue, hchunk⟩
  · simp [left, hnone]
  · simp [left, hqueue, contentOf_eq_nil, hchunk]

theorem Tidy.take_ne_empty (htidy : r.Tidy) (hqueue : r.queue ≠ []) (hmax : 0 < max) :
    (r.take max).1 ≠ .empty := by
  intro h
  rw [← contentOf_eq_nil, (take_content r max).1, List.take_eq_nil_iff] at h
  rcases h with h | h
  · omega
  · exact hqueue (htidy.left_eq_nil.mp h)

end Queue

namespace Fills

variable {answer : Except Errno Bool} (h : Fills r items answer r')

include h

theorem of_queued (hqueue : r.queue ≠ []) :
    items = [] ∧ answer = .ok true ∧ r' = r := by
  cases h with
  | queued => exact ⟨rfl, rfl, rfl⟩
  | exhausted hnone | chunk hnone | failed hnone | ended hnone =>
      exact absurd hnone hqueue

theorem queue_iff : answer = .ok true ↔ r'.queue ≠ [] := by
  induction h with
  | queued hqueue => exact ⟨fun _ => hqueue, fun _ => rfl⟩
  | exhausted hnone | ended hnone | failed hnone => simp [hnone]
  | chunk _ _ _ ih => exact ih

theorem closed : r'.closed = r.closed := by
  induction h with
  | queued | exhausted | failed | ended => rfl
  | chunk _ _ _ ih => exact ih.trans (push_source _ _).2

theorem content :
    r.left ++ items.flatMap Pull.content = failureContent answer ++ r'.left := by
  induction h with
  | queued | exhausted => simp [failureContent]
  | @chunk r _ _ u' bytes _ _ hnone _ _ ih =>
      rw [left_push, List.append_assoc] at ih
      exact ih
  | failed hnone | ended hnone => simp [left, hnone, Pull.content, failureContent]

/-- The last item decides the answer. Every other item is an empty chunk. -/
theorem decided (hitems : items ≠ []) :
    ∃ skipped last, items = skipped ++ [last] ∧
    (∀ item ∈ skipped, item = .chunk .empty) ∧
      r.queue = [] ∧ r.source ≠ none ∧
      ((∃ bytes, last = .chunk bytes ∧ bytes ≠ .empty ∧ answer = .ok true ∧
        r'.queue = [bytes] ∧
          r'.source ≠ none) ∨
        (∃ errno, last = .failed errno ∧ answer = .error errno ∧ r'.source ≠ none) ∨
          last = .ended ∧ answer = .ok false ∧ r'.source = none) := by
  induction h with
  | queued | exhausted => exact absurd rfl hitems
  | failed hnone hsource =>
      refine ⟨[], _,
        rfl, by simp, hnone, by simp [hsource], .inr (.inl ⟨_, rfl, rfl, ?_⟩)⟩
      simp
  | ended hnone hsource =>
      exact ⟨[], _, rfl, by simp, hnone, by simp [hsource], .inr (.inr ⟨rfl, rfl, rfl⟩)⟩
  | chunk hnone hsource hrest ih =>
      rename_i r r' u u' bytes items answer
      rcases push_queue (r := { r with source := some u' }) bytes hnone with
          ⟨rfl, hpush⟩ | ⟨hbytes, hpush⟩
      · have hmore : items ≠ [] := by
          rintro rfl
          rw [hpush] at hrest
          cases hrest with
          | queued hqueue => exact hqueue hnone
          | exhausted _ hover => simp at hover
        obtain ⟨skipped, last, rfl, hskipped, -, -, hlast⟩ := ih hmore
        refine ⟨.chunk .empty :: skipped, last, rfl, ?_,
          hnone, by simp [hsource], hlast⟩
        intro item hitem
        rcases List.mem_cons.mp hitem with rfl | hitem
        · rfl
        · exact hskipped item hitem
      · rw [hpush] at hrest
        obtain ⟨rfl, rfl, rfl⟩ := hrest.of_queued (by simp)
        exact ⟨[], _,
          rfl, by
          simp, hnone, by simp [hsource], .inl ⟨bytes, rfl, hbytes, rfl, rfl, by simp⟩⟩

theorem of_nil (hitems : items = []) :
    r' = r ∧ (answer = .ok true ∨ answer = .ok false ∧ r.source = none) := by
  cases h with
  | queued => exact ⟨rfl, .inl rfl⟩
  | exhausted _ hsource => exact ⟨rfl, .inr ⟨rfl, hsource⟩⟩
  | chunk | failed | ended => simp at hitems

theorem tidy (htidy : r.Tidy) : r'.Tidy := by
  by_cases hitems : items = []
  · rw [(h.of_nil hitems).1]
    exact htidy
  · obtain ⟨_, _, -, -, -, -, ⟨bytes, -, hbytes, -, hqueue, -⟩ | ⟨errno, -, rfl, -⟩
      | ⟨-, rfl, -⟩⟩ :=
      h.decided hitems
    · exact .inr ⟨bytes, hqueue, hbytes⟩
    · left
      simpa using h.queue_iff
    · left
      simpa using h.queue_iff

theorem source_gone (hnone : r'.source = none) : r.source = none ∨ .ended ∈ items := by
  by_cases hitems : items = []
  · rw [(h.of_nil hitems).1] at hnone
    exact .inl hnone
  · obtain ⟨_, _, rfl, -, -, -,
      ⟨_, -, -, -, -, hsome⟩ | ⟨_, -, -, hsome⟩ | ⟨rfl, -, -⟩⟩ := h.decided hitems
    · exact absurd hnone hsome
    · exact absurd hnone hsome
    · exact .inr (List.mem_append_right _ (List.mem_singleton_self _))

theorem source_of_end (hanswer : answer = .ok false) :
    r'.queue = [] ∧ r'.source = none := by
  constructor
  · have hqueue := h.queue_iff
    rw [hanswer] at hqueue
    simpa using hqueue
  · by_cases hitems : items = []
    · obtain ⟨rfl, hanswer' | ⟨-, hsource⟩⟩ := h.of_nil hitems
      · simp [hanswer] at hanswer'
      · exact hsource
    · subst hanswer
      obtain ⟨_, _, -, -, -, -,
        ⟨_, -, -, hanswer, -⟩ | ⟨_, -, hanswer, -⟩ | ⟨-, -, hsource⟩⟩ :=
        h.decided hitems
      · simp at hanswer
      · simp at hanswer
      · exact hsource

end Fills

namespace Reads

variable {answer : Except Errno ByteArray} (h : Reads max r items answer r')

include h

/-- What was queued and what is pulled is what is told and what is queued then. -/
theorem content (hopen : r.closed = false) :
    r.left ++ items.flatMap Pull.content = readContent answer ++ r'.left := by
  cases h with
  | closed hclosed => simp [hopen] at hclosed
  | nothing => simp [readContent, contentOf_empty]
  | failed _ _ hfills | atEnd _ _ hfills => exact hfills.content
  | @taken _ filled _ _ hfills =>
      rw [hfills.content, readContent, (take_content filled max).1,
        (take_content filled max).2, List.take_append_drop]
      rfl

theorem closed_eq : r'.closed = r.closed := by
  cases h with
  | closed | nothing => rfl
  | failed _ _ hfills | atEnd _ _ hfills | taken _ _ hfills => exact hfills.closed

theorem tidy (htidy : r.Tidy) : r'.Tidy := by
  cases h with
  | closed | nothing => exact htidy
  | failed _ _ hfills | atEnd _ _ hfills => exact hfills.tidy htidy
  | taken _ _ hfills =>
      rcases (hfills.tidy htidy).take max with hnone | ⟨_, chunk, -, hqueue, hchunk⟩
      · exact .inl hnone
      · exact .inr ⟨chunk, hqueue, hchunk⟩

theorem source_gone (hnone : r'.source = none) : r.source = none ∨ .ended ∈ items := by
  cases h with
  | closed | nothing => exact .inl hnone
  | failed _ _ hfills | atEnd _ _ hfills | taken _ _ hfills =>
      exact hfills.source_gone hnone

theorem size_le {bytes : ByteArray} (hanswer : answer = .ok bytes) :
    bytes.size ≤ max := by
  cases h with
  | closed | failed => simp at hanswer
  | nothing | atEnd =>
      cases hanswer
      exact Nat.zero_le _
  | taken =>
      cases hanswer
      exact size_take_le _ _

/-- Nothing is read only where nothing is asked for, or at the end. -/
theorem at_end (htidy : r.Tidy) (hmax : 0 < max) (hanswer : answer = .ok .empty) :
    r'.queue = [] ∧ r'.source = none := by
  cases h with
  | closed | failed => simp at hanswer
  | nothing _ hnone => omega
  | atEnd _ _ hfills => exact hfills.source_of_end rfl
  | taken _ _ hfills =>
      have hempty := (hfills.tidy htidy).take_ne_empty (hfills.queue_iff.mp rfl) hmax
      exact absurd (Except.ok.inj hanswer) hempty

end Reads

end ChunkReader

end Resumable
