import Resumable.Host.Arena
import Resumable.Proofs.Core.Words
import Resumable.Proofs.Json.Quoting

namespace Resumable

def Region.Outside (r : Region) (m : Memory) : Prop :=
  0 < r.length ∧ m.size < r.start + r.length

instance (r : Region) (m : Memory) : Decidable (r.Outside m) :=
  inferInstanceAs (Decidable (_ ∧ _))

namespace Arena

/-- Bytes are cut at their zero bytes. -/
structure Cut (bytes : List UInt8) (pieces : List (List UInt8)) : Prop where
  joined : [0].intercalate pieces = bytes
  some : pieces ≠ []
  clear : ∀ piece ∈ pieces, 0 ∉ piece

section Cut

variable {bytes : List UInt8} {pieces : List (List UInt8)}

theorem segments_eq_splitOn (bytes : List UInt8) :
    segments bytes = bytes.splitOn 0 := by
  induction bytes with
  | nil => exact (List.splitOn_nil 0).symm
  | cons b rest ih =>
      rw [segments, List.splitOn_cons_eq_if_modifyHead, ih]
      by_cases hb : b = 0
      · rw [if_pos hb, if_pos (beq_iff_eq.mpr hb)]
      · rw [if_neg hb, if_neg (mt beq_iff_eq.mp hb)]
        rcases hsplit : rest.splitOn 0 with _ | ⟨piece, more⟩
        · exact absurd hsplit (List.splitOn_ne_nil 0 rest)
        · rfl

theorem segments_append (a b : List UInt8) :
    segments (a ++ 0 :: b) = segments a ++ segments b := by
  rw [segments_eq_splitOn, segments_eq_splitOn, segments_eq_splitOn,
    List.splitOn_append_cons_self]

theorem segments_ne_nil (bytes : List UInt8) : segments bytes ≠ [] := by
  rw [segments_eq_splitOn]
  exact List.splitOn_ne_nil 0 bytes

theorem zero_notMem_of_mem_segments {piece : List UInt8}
    (h : piece ∈ segments bytes) : 0 ∉ piece := by
  induction bytes generalizing piece with
  | nil => simp_all [segments]
  | cons b rest ih =>
      unfold segments at h
      split at h
      · obtain rfl | h := List.mem_cons.mp h
        · exact List.not_mem_nil
        · exact ih h
      · next hb =>
          rcases hrest : segments rest with _ | ⟨first, more⟩
          · exact absurd hrest (segments_ne_nil rest)
          · rw [hrest] at h ih
            obtain rfl | h := List.mem_cons.mp h
            · rw [List.mem_cons, not_or]
              exact ⟨Ne.symm hb, ih List.mem_cons_self⟩
            · exact ih (List.mem_cons_of_mem _ h)

theorem cut_segments (bytes : List UInt8) : Cut bytes (segments bytes) where
  joined := by
    rw [segments_eq_splitOn]
    exact List.intercalate_splitOn 0
  some := segments_ne_nil bytes
  clear := fun _ => zero_notMem_of_mem_segments

/-- There is one way to cut bytes at their zero bytes. -/
theorem Cut.eq_segments (h : Cut bytes pieces) : pieces = segments bytes := by
  rw [segments_eq_splitOn, ← h.joined]
  exact (List.splitOn_intercalate 0 h.clear h.some).symm

theorem segments_of_notMem (h : 0 ∉ bytes) : segments bytes = [bytes] :=
  (Cut.eq_segments ⟨List.intercalate_singleton,
    List.cons_ne_nil _ _, by simpa using h⟩).symm

end Cut

section Texts

variable {piece : List UInt8} {text : String}

def IsEvent (piece : List UInt8) : Prop :=
  piece ≠ [] ∧ (⟨piece.toArray⟩ : ByteArray).IsValidUTF8

instance : DecidablePred IsEvent := fun _ => inferInstanceAs (Decidable (_ ∧ _))

theorem textOf?_eq_some (h : textOf? piece = some text) :
    text.toUTF8.toList = piece := by
  unfold textOf? String.fromUTF8? at h
  split at h
  · cases h
    rw [Json.toList_eq_data]
    rfl
  · cases h

theorem textOf?_toUTF8 (text : String) : textOf? text.toUTF8.toList = some text := by
  rw [Json.toList_toUTF8]
  exact Json.fromUTF8?_utf8 text

theorem textOf?_eq_none_iff :
    textOf? piece = none ↔ ¬ (⟨piece.toArray⟩ : ByteArray).IsValidUTF8 := by
  unfold textOf? String.fromUTF8?
  split <;> simp_all

theorem toUTF8_inj {s t : String} (h : s.toUTF8.toList = t.toUTF8.toList) : s = t :=
  Option.some.inj
    ((textOf?_toUTF8 s).symm.trans ((congrArg textOf? h).trans (textOf?_toUTF8 t)))

theorem map_textOf? (piece : List UInt8) :
    (if !piece.isEmpty then textOf? piece else none).map (·.toUTF8.toList) =
      Option.guard (IsEvent ·) piece := by
  rw [Option.guard]
  by_cases hempty : piece = []
  · have hevent : ¬ IsEvent piece := fun h => h.1 hempty
    rw [hempty] at hevent ⊢
    rw [if_neg (by simp), if_neg (by simpa using hevent), Option.map_none]
  · rw [if_pos (by simp [hempty])]
    rcases htext : textOf? piece with _ | text
    · have hevent : ¬ IsEvent piece := fun h => textOf?_eq_none_iff.mp htext h.2
      rw [if_neg (by simpa using hevent), Option.map_none]
    · have hvalid : (⟨piece.toArray⟩ : ByteArray).IsValidUTF8 := by
        refine Decidable.byContradiction fun hvalid => ?_
        cases htext.symm.trans (textOf?_eq_none_iff.mpr hvalid)
      have hevent : IsEvent piece := ⟨hempty, hvalid⟩
      rw [if_pos (by simpa using hevent), Option.map_some, textOf?_eq_some htext]

theorem map_filterMap_textOf? (pieces : List (List UInt8)) :
    ((pieces.filter (!·.isEmpty)).filterMap textOf?).map (·.toUTF8.toList) =
    pieces.filter (IsEvent ·) := by
  rw [List.filterMap_filter, List.map_filterMap, ← List.filterMap_eq_filter]
  exact congrArg (List.filterMap · pieces) (funext map_textOf?)

theorem events_eq_iff {bytes : List UInt8} {texts : List String} :
    events bytes = texts ↔ ∃ pieces, Cut bytes pieces ∧
    texts.map (·.toUTF8.toList) = pieces.filter (IsEvent ·) := by
  have hevents := map_filterMap_textOf? (segments bytes)
  constructor
  · rintro rfl
    exact ⟨segments bytes, cut_segments bytes, hevents⟩
  · rintro ⟨pieces, hcut, htexts⟩
    rw [hcut.eq_segments, ← hevents] at htexts
    exact ((List.map_inj_right fun _ _ => toUTF8_inj).mp htexts).symm

theorem events_append (a b : List UInt8) :
    events (a ++ 0 :: b) = events a ++ events b := by
  rw [events, segments_append, List.filter_append, List.filterMap_append]
  rfl

theorem utf8EncodeChar_zero_notMem {c : Char} (hc : c ≠ '\x00') :
    0 ∉ String.utf8EncodeChar c := by
  intro hmem
  by_cases hascii : c.toNat ≤ 127
  · rw [Json.utf8EncodeChar_ascii hascii, List.mem_singleton] at hmem
    refine hc (Char.toNat_inj.mp ?_)
    have hnat := congrArg UInt8.toNat hmem
    rw [UInt8.toNat_ofNat'] at hnat
    change c.toNat = 0
    have : (0 : UInt8).toNat = 0 := rfl
    omega
  · -- Each byte of a longer character has its highest bit set.
    have hquote : c ≠ '"' := by rintro rfl; simp at hascii
    have hback : c ≠ '\\' := by rintro rfl; simp at hascii
    exact (Json.unescaped_of_mem hquote hback (by omega) hmem).2.2 (by decide)

theorem zero_notMem_toUTF8 (h : '\x00' ∉ text.toList) : 0 ∉ text.toUTF8.toList := by
  rw [Json.toList_toUTF8, Json.utf8, List.mem_flatMap]
  rintro ⟨c, hc, hmem⟩
  exact utf8EncodeChar_zero_notMem (by rintro rfl; exact h hc) hmem

/-- A text that may stand in an arena as one event. -/
def IsName (text : String) : Prop := text ≠ "" ∧ '\x00' ∉ text.toList

def layout (texts : List String) : List UInt8 :=
  texts.flatMap fun text => text.toUTF8.toList ++ [0]

theorem events_toUTF8 (h : IsName text) : events text.toUTF8.toList = [text] := by
  have hsome : text.toUTF8.toList ≠ [] := by
    intro hempty
    refine h.1 (toUTF8_inj (hempty.trans ?_))
    rw [Json.toList_toUTF8]
    rfl
  have hkept : (!text.toUTF8.toList.isEmpty) = true := by
    rw [Bool.not_eq_true', List.isEmpty_eq_false_iff]
    exact hsome
  rw [events, segments_of_notMem (zero_notMem_toUTF8 h.2),
    List.filter_cons_of_pos (p := fun piece : List UInt8 => !piece.isEmpty) hkept,
    List.filter_nil, List.filterMap_cons_some (textOf?_toUTF8 text), List.filterMap_nil]

theorem events_layout {texts : List String} (h : ∀ text ∈ texts, IsName text) :
    events (layout texts) = texts := by
  induction texts with
  | nil => rfl
  | cons text rest ih =>
      rw [List.forall_mem_cons] at h
      have hlayout : layout (text :: rest) =
          text.toUTF8.toList ++ 0 :: layout rest := by
        rw [layout, List.flatMap_cons, List.append_assoc]
        rfl
      rw [hlayout, events_append, events_toUTF8 h.1, ih h.2, List.singleton_append]

end Texts

variable {m : Memory} {ptr : UInt32}

def ranges (m : Memory) (ptr : UInt32) : List Region :=
  [⟨m.word ptr.toNat, m.word (ptr.toNat + 4)⟩,
    ⟨m.word (ptr.toNat + 8), m.word (ptr.toNat + 12)⟩]

def content (m : Memory) (ptr : UInt32) : List UInt8 :=
  (ranges m ptr).flatMap fun r => (m.bytes r.start r.length).toList

theorem wordAt_bytes {start length k : Nat} (h : 4 * k + 4 ≤ length) :
    wordAt (m.bytes start length) k = m.word (start + 4 * k) := by
  have hbyte (j : Nat) (hj : j < 4) :
      (m.bytes start length).data.getD (4 * k + j) 0 = m.byte (start + 4 * k + j) := by
    rw [Array.getD_eq_getD_getElem?, Memory.getElem?_bytes, if_pos (by omega),
      Nat.add_assoc]
    rfl
  have h₀ := hbyte 0 (by omega)
  rw [Nat.add_zero (start + 4 * k)] at h₀
  unfold wordAt Memory.word
  dsimp only
  rw [h₀, hbyte 1 (by omega), hbyte 2 (by omega), hbyte 3 (by omega)]

theorem readRange_eq (m : Memory) (r : Region) : readRange m r.start r.length =
    if r.Outside m then .error (.rangeOutside r.start r.length)
      else .ok (m.bytes r.start r.length) := by
  unfold readRange
  by_cases hempty : r.length = 0
  · rw [if_pos hempty,
      if_neg fun hout => absurd hout.1 (hempty ▸ Nat.lt_irrefl 0), hempty]
    rfl
  · rw [if_neg hempty]
    by_cases hout : r.Outside m
    · rw [if_pos hout, Memory.read?_eq_none_iff.mpr hout.2]
    · have hle : r.start + r.length ≤ m.size :=
        Nat.not_lt.mp fun hlt => hout ⟨Nat.pos_of_ne_zero hempty, hlt⟩
      rw [if_neg hout, Memory.read?_of_le hle]

theorem read_of_outside (h : m.size < ptr.toNat + 16) :
    read m ptr = .error .descriptorOutside := by
  rw [read, Memory.read?_eq_none_iff.mpr h]

theorem read_of_inside (h : ptr.toNat + 16 ≤ m.size) : read m ptr =
    match (ranges m ptr).find? (·.Outside m) with
    | some r => .error (.rangeOutside r.start r.length)
    | none => .ok (events (content m ptr)) := by
  have hfirst := readRange_eq m ⟨m.word ptr.toNat, m.word (ptr.toNat + 4)⟩
  have hsecond := readRange_eq m ⟨m.word (ptr.toNat + 8), m.word (ptr.toNat + 12)⟩
  rw [read, Memory.read?_of_le h]
  dsimp only
  rw [wordAt_bytes (by omega), wordAt_bytes (by omega), wordAt_bytes (by omega),
    wordAt_bytes (by omega)]
  simp only [Nat.mul_zero, Nat.add_zero, Nat.mul_one, Nat.reduceMul]
  dsimp only at hfirst hsecond
  rw [hfirst, hsecond, ranges, List.find?_cons, List.find?_cons]
  split
  · next hout => simp [hout, bind, Except.bind]
  · next hin =>
      split
      · next hout => simp [hin, hout, bind, Except.bind]
      · next hin' =>
          simp [hin, hin', bind, Except.bind, pure, Except.pure, content, ranges,
            ByteArray.data_append]

/-- Reading ends well just if the descriptor and the ranges lie in the memory. -/
theorem read_eq_ok_iff {texts : List String} : read m ptr = .ok texts ↔
    ptr.toNat + 16 ≤ m.size ∧ (∀ r ∈ ranges m ptr, ¬ r.Outside m) ∧
    events (content m ptr) = texts := by
  rcases Nat.lt_or_ge m.size (ptr.toNat + 16) with hout | hin
  · rw [read_of_outside hout]
    exact ⟨nofun, fun h => absurd h.1 (Nat.not_le.mpr hout)⟩
  · rw [read_of_inside hin]
    rcases hfind : (ranges m ptr).find? (·.Outside m) with _ | r
    · have hinside :
          ∀ r ∈ ranges m ptr, ¬ r.Outside m := by
          simpa using List.find?_eq_none.mp hfind
      rw [hfind]
      exact ⟨fun h => ⟨hin, hinside, Except.ok.inj h⟩,
        fun h => congrArg Except.ok h.2.2⟩
    · have hout : r.Outside m := by simpa using List.find?_some hfind
      rw [hfind]
      refine ⟨fun h => ?_,
        fun h => absurd hout (h.2.1 r (List.mem_of_find?_eq_some hfind))⟩
      cases h

theorem read_eq_error_iff : (∃ e, read m ptr = .error e) ↔
    m.size < ptr.toNat + 16 ∨ ∃ r ∈ ranges m ptr, r.Outside m := by
  have hok : (∃ texts, read m ptr = .ok texts) ↔
      ptr.toNat + 16 ≤ m.size ∧ ∀ r ∈ ranges m ptr, ¬ r.Outside m :=
    ⟨fun ⟨_, h⟩ => ⟨(read_eq_ok_iff.mp h).1, (read_eq_ok_iff.mp h).2.1⟩,
      fun h => ⟨_, read_eq_ok_iff.mpr ⟨h.1, h.2, rfl⟩⟩⟩
  have hnot : (∃ e, read m ptr = .error e) ↔ ¬ ∃ texts, read m ptr = .ok texts := by
    rcases read m ptr with e | texts <;> simp
  rw [hnot, hok, Classical.not_and_iff_not_or_not, Nat.not_le]
  simp

/-- A memory holds some bytes as an arena, in two pieces of which either
may be empty. -/
structure Holds (m : Memory) (ptr : UInt32) (first second : List UInt8) : Prop where
  descriptor : ptr.toNat + 16 ≤ m.size
  inside : ∀ r ∈ ranges m ptr, ¬ r.Outside m
  pieces : (ranges m ptr).map (fun r => (m.bytes r.start r.length).toList) =
    [first, second]

theorem Holds.content {first second : List UInt8} (h : Holds m ptr first second) :
    Arena.content m ptr = first ++ second := by
  rw [Arena.content, List.flatMap, h.pieces]
  simp

/-- Reading an arena fails just if its descriptor or one of its ranges that has bytes
is not in the memory, and gives else the events in the bytes of both ranges. So it
gives back the events that have been laid out, wherever they are cut in two; and what
is behind a zero byte does not matter to what is before it. -/
theorem read_exact :
    (∀ (m : Memory) (ptr : UInt32),
      ((∃ e, read m ptr = .error e) ↔ m.size < ptr.toNat + 16 ∨ ∃ r ∈ ranges m ptr,
        r.Outside m) ∧
      ∀ texts, read m ptr = .ok texts ↔
        ptr.toNat + 16 ≤ m.size ∧ (∀ r ∈ ranges m ptr, ¬ r.Outside m) ∧
          ∃ pieces, Cut (content m ptr) pieces ∧
            texts.map (·.toUTF8.toList) = pieces.filter (IsEvent ·)) ∧
    (∀ texts : List String, (∀ text ∈ texts, IsName text) →
      ∀ m ptr first second, first ++ second = layout texts → Holds m ptr first second →
        read m ptr = .ok texts) ∧
    ∀ a b, events (a ++ 0 :: b) = events a ++ events b := by
  refine ⟨fun m ptr => ⟨read_eq_error_iff, fun texts => ?_⟩, ?_, events_append⟩
  · rw [read_eq_ok_iff, events_eq_iff]
  · intro texts hnames m ptr first second hlayout hholds
    refine read_eq_ok_iff.mpr ⟨hholds.descriptor, hholds.inside, ?_⟩
    rw [hholds.content, hlayout, events_layout hnames]

/-- The events "ab" and "cd" in a ring of eight bytes from address 16 on, of which the
second goes over its end. -/
def ring : Memory :=
  ⟨24, ⟨#[20, 0, 0, 0, 4, 0, 0, 0, 16, 0, 0, 0, 2, 0, 0, 0, 100, 0, 0, 0,
    97, 98, 0, 99]⟩⟩

theorem ring_read :
    Holds ring 0 [97, 98, 0, 99] [100, 0] ∧ (∀ text ∈ ["ab", "cd"], IsName text) ∧
      [97, 98, 0, 99] ++ [100, 0] = layout ["ab", "cd"] ∧
      read ring 0 = .ok ["ab", "cd"] := by
  have hholds : Holds ring 0 [97, 98, 0, 99] [100, 0] := by
    refine ⟨by decide, by decide, ?_⟩
    simp only [Json.toList_eq_data, ranges, List.map_cons, List.map_nil]
    decide
  have hnames : ∀ text ∈ ["ab", "cd"], IsName text := by simp [IsName]
  have hlayout : [97, 98, 0, 99] ++ [100, 0] = layout ["ab", "cd"] := by
    simp only [layout, List.flatMap_cons, List.flatMap_nil, Json.toList_toUTF8]
    decide
  exact ⟨hholds, hnames, hlayout, read_exact.2.1 _ hnames _ _ _ _ hlayout hholds⟩

end Arena

end Resumable
