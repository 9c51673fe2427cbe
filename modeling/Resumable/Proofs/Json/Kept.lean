import Resumable.Proofs.Json.Members
import Resumable.Proofs.Json.ReadBack

namespace Resumable.Json

/-- A value whose text is read as the value, with so many brackets to open. -/
structure Kept (room : Nat) (v : Json) : Prop where
  canonical : v.normalize = v
  reread : v.reread = some v
  depth : v.depth ≤ room

namespace Kept

variable {room : Nat}

theorem mono {v : Json} {more : Nat} (h : Kept room v) (hmore : room ≤ more) :
    Kept more v :=
  ⟨h.canonical, h.reread, h.depth.trans hmore⟩

theorem null : Kept room .null := ⟨rfl, rfl, Nat.zero_le _⟩

theorem bool (b : Bool) : Kept room (.bool b) := ⟨rfl, rfl, Nat.zero_le _⟩

theorem str (s : String) : Kept room (.str s) := ⟨rfl, rfl, Nat.zero_le _⟩

theorem int {n : Int} (hlow : -9223372036854775808 ≤ n)
    (hhigh : n < 18446744073709551616) : Kept room (.int n) :=
  ⟨rfl, by rw [Json.reread, if_pos ⟨hlow, hhigh⟩], Nat.zero_le _⟩

theorem nat {n : Nat} (h : n < 18446744073709551616) : Kept room (.int n) :=
  int (by omega) (by omega)

theorem rereadItems_eq {items : List Json} (h : ∀ v ∈ items, Kept room v) :
    rereadItems items = some items := by
  induction items with
  | nil => rfl
  | cons v items ih =>
    rw [List.forall_mem_cons] at h
    rw [rereadItems, h.1.reread, ih h.2]
    rfl

theorem itemsDepth_le {items : List Json} (h : ∀ v ∈ items, Kept room v) :
    itemsDepth items ≤ room := by
  induction items with
  | nil => exact Nat.zero_le _
  | cons v items ih =>
    rw [List.forall_mem_cons] at h
    exact Nat.max_le.mpr ⟨h.1.depth, ih h.2⟩

theorem arr {items : List Json} (h : ∀ v ∈ items, Kept room v) :
    Kept (room + 1) (.arr items) where
  canonical := normalize_list fun v hv => (h v hv).canonical
  reread := by rw [Json.reread, rereadItems_eq h]; rfl
  depth := Nat.succ_le_succ (itemsDepth_le h)

theorem rereadMembers_eq {members : List (String × Json)}
    (h : ∀ m ∈ members, Kept room m.2) : rereadMembers members = some members := by
  induction members with
  | nil => rfl
  | cons m members ih =>
    rw [List.forall_mem_cons] at h
    rw [rereadMembers, h.1.reread, ih h.2]
    rfl

theorem membersDepth_le {members : List (String × Json)}
    (h : ∀ m ∈ members, m.2.depth ≤ room) :
    membersDepth members ≤ room := by
  induction members with
  | nil => exact Nat.zero_le _
  | cons m members ih =>
    rw [List.forall_mem_cons] at h
    exact Nat.max_le.mpr ⟨h.1, ih h.2⟩

theorem obj {members : List (String × Json)} (hascending : Ascending members)
    (h : ∀ m ∈ members, Kept room m.2) : Kept (room + 1) (.obj members) where
  canonical := normalize_of_ascending hascending fun m hm => (h m hm).canonical
  reread := by rw [Json.reread, rereadMembers_eq h]; rfl
  depth := Nat.succ_le_succ (membersDepth_le fun m hm => (h m hm).depth)

theorem object {members : List (String × Json)} (h : ∀ m ∈ members, Kept room m.2) :
    Kept (room + 1) (Json.object members) :=
  obj (ascending_foldl List.Pairwise.nil) fun m hm => by
    rcases mem_foldl_insertMember hm with hm | hm
    · exact h m hm
    · cases hm

/-- A kept value is what its text is read as. -/
theorem ofBytes {v : Json} (h : Kept 127 v) : ofBytes v.bytes.toList = .ok v := by
  rw [Json.ofBytes, read_bytes h.reread h.depth, Except.map, h.canonical]

end Kept

/-- Values without doubles: numbers are whole and have 64 bits, and the keys of an
object go up. -/
inductive Plain : Json → Prop where
  | null : Plain .null
  | bool (b : Bool) : Plain (.bool b)
  | int {n : Int} (hlow : -9223372036854775808 ≤ n)
      (hhigh : n < 18446744073709551616) : Plain (.int n)
  | str (s : String) : Plain (.str s)
  | arr {items : List Json} (h : ∀ v ∈ items, Plain v) : Plain (.arr items)
  | obj {members : List (String × Json)} (hascending : Ascending members)
      (h : ∀ m ∈ members, Plain m.2) : Plain (.obj members)

theorem depth_le_itemsDepth {items : List Json} {v : Json} (h : v ∈ items) :
    v.depth ≤ itemsDepth items := by
  induction items with
  | nil => cases h
  | cons w items ih =>
    rw [itemsDepth]
    rcases List.mem_cons.mp h with rfl | h
    · exact le_max_left _ _
    · exact (ih h).trans (le_max_right _ _)

theorem depth_le_membersDepth {members : List (String × Json)} {m : String × Json}
    (h : m ∈ members) : m.2.depth ≤ membersDepth members := by
  induction members with
  | nil => cases h
  | cons n members ih =>
    rw [membersDepth]
    rcases List.mem_cons.mp h with rfl | h
    · exact le_max_left _ _
    · exact (ih h).trans (le_max_right _ _)

/-- A plain value is kept, as deep as it is. -/
theorem Plain.kept {v : Json} (h : Plain v) : Kept v.depth v := by
  induction h with
  | null => exact .null
  | bool b => exact .bool b
  | int hlow hhigh => exact .int hlow hhigh
  | str s => exact .str s
  | arr _ ih => exact .arr fun v hv => (ih v hv).mono (depth_le_itemsDepth hv)
  | obj hascending _ ih =>
      exact .obj hascending fun m hm => (ih m hm).mono (depth_le_membersDepth hm)

theorem exists_rereadMembers {members : List (String × Json)}
    (h : ∀ m ∈ members, ∃ w, reread m.2 = some w) :
    ∃ ws, rereadMembers members = some ws := by
  induction members with
  | nil => exact ⟨[], rfl⟩
  | cons m members ih =>
    rw [List.forall_mem_cons] at h
    obtain ⟨w, hw⟩ := h.1
    obtain ⟨ws, hws⟩ := ih h.2
    exact ⟨(m.1, w) :: ws, by rw [rereadMembers, hw, hws]; rfl⟩

theorem mem_rereadMembers {members ws : List (String × Json)}
    (h : rereadMembers members = some ws) (k : String) (w : Json) :
    (k, w) ∈ ws ↔ ∃ v, (k, v) ∈ members ∧ reread v = some w := by
  induction members generalizing ws with
  | nil =>
    cases h
    simp
  | cons m members ih =>
    obtain ⟨w', hw', hws⟩ := Option.bind_eq_some_iff.mp h
    obtain ⟨ws', hws', rfl⟩ := Option.map_eq_some_iff.mp hws
    simp only [List.mem_cons, ih hws', Prod.mk.injEq]
    constructor
    · rintro (⟨rfl, rfl⟩ | ⟨v, hv, hw⟩)
      · exact ⟨m.2, .inl rfl, hw'⟩
      · exact ⟨v, .inr hv, hw⟩
    · rintro ⟨v, rfl | hv, hw⟩
      · exact .inl ⟨rfl, Option.some.inj (hw.symm.trans hw')⟩
      · exact .inr ⟨v, hv, hw⟩

/-- A written object whose members are all read is read, and a kept member that is
alone with its key is found in the document. -/
theorem exists_read_obj (members : List (String × Json))
    (hread : ∀ m ∈ members, ∃ w, reread m.2 = some w)
    (hdepth : ∀ m ∈ members, m.2.depth ≤ 126) :
    ∃ tree, read .wire (Json.obj members).bytes.toList = .ok tree ∧
      ∀ k v, (k, v) ∈ members → (∀ v', (k, v') ∈ members → v' = v) → Kept 126 v →
        tree.last? k = some v := by
  obtain ⟨ws, hws⟩ := exists_rereadMembers hread
  have hreread : reread (.obj members) = some (.obj ws) := by
    rw [reread, hws]
    rfl
  refine ⟨.obj ws,
    read_bytes hreread (Nat.succ_le_succ (Kept.membersDepth_le hdepth)), ?_⟩
  intro k v hmem hunique hkept
  have hmem' : (k, v) ∈ ws := (mem_rereadMembers hws k v).mpr ⟨v, hmem, hkept.reread⟩
  -- The last member with the key need not be the one at hand, but all of them hold `v`.
  obtain ⟨⟨k', w⟩, hfind⟩ : ∃ m, ws.reverse.find? (·.1 == k) = some m :=
    Option.isSome_iff_exists.mp
      (List.find?_isSome.mpr ⟨(k, v), List.mem_reverse.mpr hmem', by simp⟩)
  obtain rfl : k' = k := by simpa using List.find?_some hfind
  have hw := List.mem_reverse.mp (List.mem_of_find?_eq_some hfind)
  obtain ⟨v', hv', hv'w⟩ := (mem_rereadMembers hws k' w).mp hw
  obtain rfl := hunique v' hv'
  obtain rfl : v' = w := Option.some.inj (hkept.reread.symm.trans hv'w)
  rw [last?, hfind, Option.map_some, hkept.canonical]

end Resumable.Json
