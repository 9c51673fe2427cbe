import Resumable.Core.Memory

namespace Resumable

theorem eq_some_of_data {held : Option ByteArray} {bytes : ByteArray}
    (h : held.map (·.data) = some bytes.data) : held = some bytes := by
  obtain ⟨found, rfl, hdata⟩ := Option.map_eq_some_iff.mp h
  rw [ByteArray.ext hdata]

namespace Memory

section Bytes

def room (data : ByteArray) (start : Nat) : ByteArray :=
  data ++ zeros (start - data.size)

theorem append_zeros (data : ByteArray) (start : Nat) :
    data ++ zeros (start - data.size) = room data start :=
  rfl

variable {data bytes : ByteArray} {start k : Nat}

theorem data_room :
    (room data start).data = data.data ++ Array.replicate (start - data.size) 0 := by
  rw [room, zeros, ByteArray.data_append]

theorem size_room : start ≤ (room data start).data.size := by
  rw [data_room, Array.size_append, Array.size_replicate]
  change start ≤ data.size + (start - data.size)
  omega

theorem getElem?_room : (room data start).data[k]?.getD 0 = data.data[k]?.getD 0 := by
  rw [data_room]
  rcases Nat.lt_or_ge k data.data.size with hk | hk
  · rw [Array.getElem?_append_left hk]
  · rw [Array.getElem?_append_right hk, Array.getElem?_eq_none hk,
      Array.getElem?_replicate]
    split <;> rfl

theorem data_copySlice {into : ByteArray} :
    (bytes.copySlice 0 into start bytes.size).data = into.data.extract 0 start ++
      bytes.data ++ into.data.extract (start + bytes.size) into.size := by
  have hall : bytes.data.extract 0 (0 + bytes.size) = bytes.data := by
    rw [Nat.zero_add]
    exact Array.extract_size
  have hend : start + min bytes.size (bytes.data.size - 0) = start + bytes.size := by
    rw [Nat.sub_zero]
    exact congrArg _ (Nat.min_self _)
  rw [ByteArray.copySlice, hall, hend]
  rfl

theorem getElem?_splice {into piece : Array UInt8} (h : start ≤ into.size) :
    (into.extract 0 start ++ piece ++ into.extract (start + piece.size) into.size)[k]? =
      if start ≤ k ∧ k < start + piece.size then piece[k - start]? else into[k]? := by
  have hsize : (into.extract 0 start).size = start := by
    rw [Array.size_extract]
    omega
  have hsize' : (into.extract 0 start ++ piece).size = start + piece.size := by
    rw [Array.size_append, hsize]
  rcases Nat.lt_or_ge k start with hk | hk
  · rw [Array.getElem?_append_left (by omega), Array.getElem?_append_left (by omega),
      if_neg (by omega), Array.getElem?_extract, if_pos (by omega), Nat.zero_add]
  · rcases Nat.lt_or_ge k (start + piece.size) with hk' | hk'
    · rw [Array.getElem?_append_left (by omega),
        Array.getElem?_append_right (by omega), hsize, if_pos ⟨hk, hk'⟩]
    · rw [Array.getElem?_append_right (by omega), hsize', if_neg (by omega),
        Array.getElem?_extract]
      split
      · rw [Nat.add_sub_cancel' hk']
      · rw [Array.getElem?_eq_none (by omega)]

theorem getElem?_copySlice :
    (bytes.copySlice 0 (room data start) start bytes.size).data[k]? =
    if start ≤ k ∧ k < start + bytes.size then bytes.data[k - start]?
    else (room data start).data[k]? := by
  rw [data_copySlice]
  exact getElem?_splice size_room

theorem extract_copySlice :
    (bytes.copySlice 0 (room data start) start bytes.size).extract start
      (start + bytes.size) = bytes := by
  refine ByteArray.ext (Array.ext_getElem? fun k => ?_)
  have hsize : start + bytes.size ≤
      (bytes.copySlice 0 (room data start) start bytes.size).data.size := by
    rw [data_copySlice, Array.size_append, Array.size_append, Array.size_extract]
    have : start ≤ (room data start).data.size := size_room
    change start + bytes.data.size ≤ _
    omega
  rw [ByteArray.data_extract, Array.getElem?_extract, Nat.min_eq_left hsize,
    Nat.add_sub_cancel_left]
  split
  · next hk =>
      rw [getElem?_copySlice, if_pos ⟨Nat.le_add_right _ _, by omega⟩,
        Nat.add_sub_cancel_left]
  · next hk => exact (Array.getElem?_eq_none (Nat.not_lt.mp hk)).symm

end Bytes

variable {m m' : Memory} {start : Nat} {bytes : ByteArray}

/-- The bytes are written, and nothing else is changed. -/
structure Wrote (m : Memory) (start : Nat) (bytes : ByteArray)
    (m' : Memory) : Prop where
  size : m'.size = m.size
  read : m'.read? start bytes.size = some bytes
  outside : ∀ a, a < start ∨ start + bytes.size ≤ a → m'.byte a = m.byte a

theorem read?_eq_none_iff {length : Nat} :
    m.read? start length = none ↔ m.size < start + length := by
  unfold read? covers
  split
  · next h => simp at h ⊢; omega
  · next h => simp at h ⊢; omega

theorem size_of_read? {length : Nat} (h : m.read? start length = some bytes) :
    bytes.size = length := by
  unfold read? at h
  split at h
  · cases h
    change (_ ++ zeros _).data.size = _
    rw [ByteArray.data_append, Array.size_append, zeros, Array.size_replicate]
    have hle : (m.data.extract start (start + length)).data.size ≤ length := by
      rw [ByteArray.data_extract, Array.size_extract]
      omega
    change _ + (length - (m.data.extract start (start + length)).data.size) = length
    omega
  · cases h

theorem write?_eq_none_iff :
    m.write? start bytes = none ↔ m.size < start + bytes.size := by
  unfold write? covers
  split
  · next h => simp at h ⊢; omega
  · next h => simp at h ⊢; omega

theorem wrote_of_write? (h : m.write? start bytes = some m') :
    m.Wrote start bytes m' := by
  unfold write? at h
  split at h
  · next hcovered =>
      cases h
      refine ⟨rfl, ?_, ?_⟩
      · have hread :
            ByteArray.extract (bytes.copySlice 0 (room m.data start) start bytes.size)
              start (start + bytes.size) = bytes := extract_copySlice
        unfold read?
        refine (if_pos hcovered).trans ?_
        dsimp only
        rw [append_zeros m.data start, hread, Nat.sub_self]
        exact congrArg some (ByteArray.append_empty)
      · intro a ha
        simp only [byte, Array.getD_eq_getD_getElem?]
        rw [append_zeros m.data start, getElem?_copySlice, if_neg (by omega),
          getElem?_room]
  · cases h

end Memory

end Resumable
