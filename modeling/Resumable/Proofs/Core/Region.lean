import Resumable.Proofs.Core.Memory

namespace Resumable

/-- A range of addresses. It may end behind the memory, and it does not wrap. -/
structure Region where
  start : Nat
  length : Nat

namespace Region

def empty : Region := ⟨0, 0⟩

def Holds (r : Region) (a : Nat) : Prop := r.start ≤ a ∧ a < r.start + r.length

/-- All bytes that are written from an address on are in the region. -/
def Covers (r : Region) (start : Nat) (bytes : ByteArray) : Prop :=
  r.start ≤ start ∧ start + bytes.size ≤ r.start + r.length

end Region

namespace Memory

def bytes (m : Memory) (start length : Nat) : ByteArray :=
  ⟨Array.ofFn fun k : Fin length => m.byte (start + k)⟩

variable {m m' n n' : Memory} {start length : Nat} {piece : ByteArray} {r : Region}

theorem getElem?_bytes (k : Nat) :
    (m.bytes start length).data[k]? = if k < length then some (m.byte (start + k))
      else none := by
  rw [bytes, Array.getElem?_ofFn]
  split <;> rfl

theorem getElem?_extract_zeros {data : ByteArray} (k : Nat) :
    (data.extract start (start + length) ++
      zeros (length - (data.extract start (start + length)).size)).data[k]? =
      if k < length then some (data.data.getD (start + k) 0) else none := by
  have hsize : (data.extract start (start + length)).data.size =
      min (start + length) data.data.size - start := by
    rw [ByteArray.data_extract, Array.size_extract]
  have hsize' : (data.extract start (start + length)).size =
      min (start + length) data.data.size - start := hsize
  rw [ByteArray.data_append, hsize', zeros, Array.getD_eq_getD_getElem?]
  rcases Nat.lt_or_ge k (data.extract start (start + length)).data.size with hk | hk
  · rw [Array.getElem?_append_left hk, ByteArray.data_extract, Array.getElem?_extract,
      if_pos (by omega), if_pos (by omega), Array.getElem?_eq_getElem (by omega)]
    rfl
  · rw [Array.getElem?_append_right hk, Array.getElem?_replicate, hsize]
    by_cases hlength : k < length
    · rw [if_pos (by omega), if_pos hlength, Array.getElem?_eq_none (by omega)]
      rfl
    · rw [if_neg (by omega), if_neg hlength]

theorem read?_of_le (h : start + length ≤ m.size) :
    m.read? start length = some (m.bytes start length) := by
  have hcovers : m.covers start length = true := decide_eq_true h
  rw [read?, if_pos hcovers]
  refine congrArg some (ByteArray.ext (Array.ext_getElem? fun k => ?_))
  rw [getElem?_bytes]
  exact getElem?_extract_zeros k

/-- The memories have the same size, and the same bytes in the region. -/
structure AgreeOn (r : Region) (m n : Memory) : Prop where
  size : n.size = m.size
  byte : ∀ a, r.Holds a → n.byte a = m.byte a

theorem AgreeOn.refl (r : Region) (m : Memory) : AgreeOn r m m := ⟨rfl, fun _ _ => rfl⟩

theorem AgreeOn.bytes (h : AgreeOn ⟨start, length⟩ m n) :
    n.bytes start length = m.bytes start length := by
  refine ByteArray.ext (Array.ext_getElem? fun k => ?_)
  rw [getElem?_bytes, getElem?_bytes]
  split
  · next hk => rw [h.byte _ ⟨Nat.le_add_right _ _, Nat.add_lt_add_left hk _⟩]
  · rfl

theorem AgreeOn.read? (h : AgreeOn ⟨start, length⟩ m n) :
    n.read? start length = m.read? start length := by
  rcases Nat.lt_or_ge m.size (start + length) with hout | hin
  · rw [read?_eq_none_iff.mpr hout, read?_eq_none_iff.mpr (h.size ▸ hout)]
  · rw [read?_of_le hin, read?_of_le (h.size ▸ hin), h.bytes]

theorem Wrote.agreeOn (h : m.Wrote start piece m')
    (hoff : r.start + r.length ≤ start ∨ start + piece.size ≤ r.start) :
    AgreeOn r m m' := by
  refine ⟨h.size, fun a ha => h.outside a ?_⟩
  obtain ⟨hlow, hhigh⟩ := ha
  omega

def Written (m : Memory) : List (Nat × ByteArray) → Memory → Prop
  | [], m' => m' = m
  | (start, bytes) :: rest, m' =>
      ∃ m₁, m.write? start bytes = some m₁ ∧ m₁.Written rest m'

theorem Written.append {m₁ : Memory} {pieces rest : List (Nat × ByteArray)}
    (h : m.Written pieces m₁) (hrest : m₁.Written rest m') :
    m.Written (pieces ++ rest) m' := by
  induction pieces generalizing m with
  | nil =>
      cases h
      exact hrest
  | cons piece pieces ih =>
      obtain ⟨m₂, hwrite, h⟩ := h
      exact ⟨m₂, hwrite, ih h⟩

theorem exists_wrote_of_le (h : start + piece.size ≤ m.size) :
    ∃ m', m.write? start piece = some m' ∧ m.Wrote start piece m' := by
  obtain ⟨m', hwrite⟩ := Option.ne_none_iff_exists'.mp
    (mt write?_eq_none_iff.mp (Nat.not_lt.mpr h))
  exact ⟨m', hwrite, wrote_of_write? hwrite⟩

theorem byte_of_write? (h : m.write? start piece = some m') {k : Nat}
    (hk : k < piece.size) : m'.byte (start + k) = piece.data.getD k 0 := by
  have hle : start + piece.size ≤ m.size := Nat.not_lt.mp fun hout => by
    cases h.symm.trans (write?_eq_none_iff.mpr hout)
  have hwrote := wrote_of_write? h
  have hread := read?_of_le (m := m') (hwrote.size ▸ hle)
  rw [hwrote.read] at hread
  rw [Option.some.inj hread, Array.getD_eq_getD_getElem?, getElem?_bytes, if_pos hk]
  rfl

/-- The same bytes written into two memories leave them as alike as they were. -/
theorem AgreeOn.write? (h : AgreeOn r m n) (hm : m.write? start piece = some m')
    (hn : n.write? start piece = some n') : AgreeOn r m' n' := by
  have hm' := wrote_of_write? hm
  have hn' := wrote_of_write? hn
  refine ⟨by rw [hm'.size, hn'.size, h.size], fun a ha => ?_⟩
  by_cases hpiece : start ≤ a ∧ a < start + piece.size
  · obtain ⟨k, rfl⟩ := Nat.exists_eq_add_of_le hpiece.1
    have hk : k < piece.size := Nat.lt_of_add_lt_add_left hpiece.2
    rw [byte_of_write? hm hk, byte_of_write? hn hk]
  · rw [hm'.outside a (by omega), hn'.outside a (by omega), h.byte a ha]

theorem AgreeOn.written {pieces : List (Nat × ByteArray)} (h : AgreeOn r m n)
    (hm : m.Written pieces m') (hn : n.Written pieces n') : AgreeOn r m' n' := by
  induction pieces generalizing m n with
  | nil =>
      cases hm
      cases hn
      exact h
  | cons piece pieces ih =>
      obtain ⟨m₁, hwrite, hm⟩ := hm
      obtain ⟨n₁, hwrite', hn⟩ := hn
      exact ih (h.write? hwrite hwrite') hm hn

end Memory

end Resumable
