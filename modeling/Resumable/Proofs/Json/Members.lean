import Mathlib.Order.Basic
import Mathlib.Data.String.Basic
import Mathlib.Tactic.SplitIfs
import Resumable.Json.Reader

namespace Resumable.Json

/-- The value of the last member with a key, as it is read. -/
def last? (v : Json) (key : String) : Option Json :=
  match v with
  | .obj members => (members.reverse.find? (·.1 == key)).map (·.2.normalize)
  | _ => none

theorem find?_insertMember (key : String) (value : Json)
    (members : List (String × Json)) (k : String) :
    (insertMember key value members).find? (·.1 == k) =
      if key = k then some (key, value) else members.find? (·.1 == k) := by
  induction members with
  | nil => by_cases hk : key = k <;> simp [insertMember, hk]
  | cons m members ih =>
    have hskip {n : String × Json} (hn : n.1 ≠ k) (ns : List (String × Json)) :
        (n :: ns).find? (·.1 == k) = ns.find? (·.1 == k) :=
      List.find?_cons_of_neg (by simpa using hn)
    rw [insertMember]
    split_ifs with hlt hk heq hk hk
    · exact List.find?_cons_of_pos (by simpa using hk)
    · exact hskip hk _
    · exact List.find?_cons_of_pos (by simpa using hk)
    · rw [hskip hk, hskip (heq ▸ hk)]
    · rw [hskip (fun hm => heq (hk.trans hm.symm)), ih, if_pos hk]
    · rw [List.find?_cons, List.find?_cons, ih, if_neg hk]

theorem find?_foldl_insertMember (members sorted : List (String × Json)) (k : String) :
    (members.foldl (fun sorted m => insertMember m.1 m.2 sorted) sorted).find?
      (·.1 == k) = (members.reverse.find? (·.1 == k)).or (sorted.find? (·.1 == k)) := by
  induction members generalizing sorted with
  | nil => simp
  | cons m members ih =>
    have hone : [m].find? (·.1 == k) = if m.1 = k then some m else none := by
      by_cases hk : m.1 = k <;> simp [hk]
    rw [List.foldl_cons, ih, find?_insertMember, List.reverse_cons, List.find?_append,
      Option.or_assoc, hone]
    split_ifs <;> rfl

theorem get?_object (members : List (String × Json)) (k : String) :
    (object members).get? k = (members.reverse.find? (·.1 == k)).map (·.2) := by
  rw [object, get?, find?_foldl_insertMember]
  simp

theorem normalizeItems_eq_map (items : List Json) :
    normalizeItems items = items.map normalize := by
  induction items with
  | nil => rfl
  | cons v items ih => rw [normalizeItems, ih, List.map_cons]

theorem normalizeMembers_eq_map (members : List (String × Json)) :
    normalizeMembers members = members.map fun m => (m.1, m.2.normalize) := by
  induction members with
  | nil => rfl
  | cons m members ih => rw [normalizeMembers, ih, List.map_cons]

/-- What is looked up in a value that was read is the last member with the key. -/
theorem get?_normalize (v : Json) (k : String) : v.normalize.get? k = v.last? k := by
  cases v with
  | obj members =>
    rw [normalize, get?_object, last?, normalizeMembers_eq_map, ← List.map_reverse,
      List.find?_map]
    simp only [Option.map_map]
    rfl
  | _ => rfl

def Ascending (members : List (String × Json)) : Prop :=
  members.Pairwise fun m n => m.1 < n.1

theorem mem_insertMember {key : String} {value : Json} {members : List (String × Json)}
    {m : String × Json} (h : m ∈ insertMember key value members) :
    m = (key, value) ∨ m ∈ members := by
  induction members with
  | nil => exact .inl (List.mem_singleton.mp h)
  | cons n members ih =>
    rw [insertMember] at h
    split_ifs at h
    · exact List.mem_cons.mp h
    · exact (List.mem_cons.mp h).imp id (List.mem_cons_of_mem n)
    · rcases List.mem_cons.mp h with rfl | h
      · exact .inr List.mem_cons_self
      · exact (ih h).imp id (List.mem_cons_of_mem n)

theorem ascending_insertMember {key : String} {value : Json}
    {members : List (String × Json)} (h : Ascending members) :
    Ascending (insertMember key value members) := by
  induction members with
  | nil => exact List.pairwise_singleton _ _
  | cons n members ih =>
    obtain ⟨hhead, htail⟩ := List.pairwise_cons.mp h
    rw [insertMember]
    split_ifs with hlt heq
    · refine List.pairwise_cons.mpr ⟨fun m hm => ?_, h⟩
      rcases List.mem_cons.mp hm with rfl | hm
      · exact hlt
      · exact lt_trans hlt (hhead m hm)
    · exact List.pairwise_cons.mpr ⟨fun m hm => heq ▸ hhead m hm, htail⟩
    · refine List.pairwise_cons.mpr ⟨fun m hm => ?_, ih htail⟩
      rcases mem_insertMember hm with rfl | hm
      · exact lt_of_le_of_ne (not_lt.mp hlt) (Ne.symm heq)
      · exact hhead m hm

theorem ascending_foldl {members sorted : List (String × Json)} (h : Ascending sorted) :
    Ascending (members.foldl (fun sorted m => insertMember m.1 m.2 sorted) sorted) := by
  induction members generalizing sorted with
  | nil => exact h
  | cons m members ih => exact ih (ascending_insertMember h)

theorem insertMember_last {key : String} {value : Json} {members : List (String × Json)}
    (h : ∀ m ∈ members, m.1 < key) :
    insertMember key value members = members ++ [(key, value)] := by
  induction members with
  | nil => rfl
  | cons n members ih =>
    rw [List.forall_mem_cons] at h
    rw [insertMember, if_neg (lt_asymm h.1), if_neg (ne_of_gt h.1), ih h.2,
      List.cons_append]

theorem foldl_insertMember_of_ascending {members sorted : List (String × Json)}
    (h : Ascending (sorted ++ members)) :
    members.foldl (fun sorted m => insertMember m.1 m.2 sorted) sorted =
    sorted ++ members := by
  induction members generalizing sorted with
  | nil => simp
  | cons m members ih =>
    have hlast : ∀ n ∈ sorted, n.1 < m.1 := fun n hn =>
      (List.pairwise_append.mp h).2.2 n hn m List.mem_cons_self
    rw [List.foldl_cons, insertMember_last hlast, ih (by rwa [List.append_assoc])]
    simp

/-- An object with its members in order is that object. -/
theorem object_of_ascending {members : List (String × Json)} (h : Ascending members) :
    object members = .obj members := by
  rw [object, foldl_insertMember_of_ascending (by simpa using h), List.nil_append]

theorem normalize_of_ascending {members : List (String × Json)} (h : Ascending members)
    (hvalues : ∀ m ∈ members, m.2.normalize = m.2) :
    (Json.obj members).normalize = .obj members := by
  have hmembers : normalizeMembers members = members := by
    have hsame : members.map (fun m => (m.1, m.2.normalize)) = members.map id :=
      List.map_congr_left fun m hm => by rw [hvalues m hm]; rfl
    rw [normalizeMembers_eq_map, hsame, List.map_id]
  rw [normalize, hmembers, object_of_ascending h]

theorem mem_foldl_insertMember {members sorted : List (String × Json)}
    {m : String × Json}
    (h : m ∈ members.foldl (fun sorted m => insertMember m.1 m.2 sorted) sorted) :
    m ∈ members ∨ m ∈ sorted := by
  induction members generalizing sorted with
  | nil => exact .inr h
  | cons n members ih =>
    rcases ih h with h | h
    · exact .inl (List.mem_cons_of_mem n h)
    · rcases mem_insertMember h with rfl | h
      · exact .inl List.mem_cons_self
      · exact .inr h

theorem normalize_list {items : List Json} (hitems : ∀ v ∈ items, v.normalize = v) :
    (Json.arr items).normalize = .arr items := by
  rw [normalize, normalizeItems_eq_map]
  exact congrArg Json.arr ((List.map_congr_left hitems).trans (List.map_id items))

end Resumable.Json
