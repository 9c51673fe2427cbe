import Resumable.Proofs.Config.Placeholders
import Resumable.Proofs.Json.Quoting

namespace Resumable.Environment

open Json (utf8 utf8_append utf8_cons)

variable {env : Environment} {name s t : List Char} {held rest : List UInt8}

theorem utf8EncodeChar_append_inj {c d : Char} {x y : List UInt8}
    (h : String.utf8EncodeChar c ++ x = String.utf8EncodeChar d ++ y) :
    c = d ∧ x = y := by
  have hdecode (c : Char) (x : List UInt8) :
      (String.utf8EncodeChar c ++ x).toByteArray.utf8DecodeChar? 0 = some c := by
    rw [List.toByteArray_append]
    exact ByteArray.utf8DecodeChar?_utf8EncodeChar_append
  have hc := hdecode c x
  rw [h, hdecode d y] at hc
  cases hc
  exact ⟨rfl, List.append_cancel_left h⟩

theorem utf8_isPrefix_iff (hrest : ∀ c : Char, ¬ String.utf8EncodeChar c <+: rest) :
    utf8 s <+: utf8 t ++ rest ↔ s <+: t := by
  constructor
  · intro h
    induction s generalizing t with
    | nil => exact List.nil_prefix
    | cons c s ih =>
      obtain ⟨x, hx⟩ := h
      rw [utf8_cons, List.append_assoc] at hx
      cases t with
      | nil => exact absurd ⟨_, hx⟩ (hrest c)
      | cons d t =>
        rw [utf8_cons, List.append_assoc] at hx
        obtain ⟨rfl, hbehind⟩ := utf8EncodeChar_append_inj hx
        exact List.cons_prefix_cons.mpr ⟨rfl, ih ⟨x, hbehind⟩⟩
  · rintro ⟨more, rfl⟩
    exact ⟨utf8 more ++ rest, by rw [utf8_append, List.append_assoc]⟩

namespace Content

variable {content : Content}

def bytes (content : Content) : List UInt8 := utf8 content.text ++ content.rest

theorem bytes_injective : Function.Injective bytes := by
  intro a b h
  have hle {a b : Content} (h : a.bytes = b.bytes) : a.text <+: b.text :=
    (utf8_isPrefix_iff b.rest_unreadable).mp ⟨a.rest, h⟩
  have htext : a.text = b.text := (hle h).eq_of_length_le (hle h.symm).length_le
  have hrest : a.rest = b.rest := by
    rw [bytes, bytes, htext] at h
    exact List.append_cancel_left h
  cases a
  cases b
  cases htext
  cases hrest
  rfl

/-- Whatever bytes a variable may hold, there is a content of them. -/
theorem exists_bytes_eq (held : List UInt8) :
    ∃ content : Content, content.bytes = held := by
  by_cases hbegins : ∃ c : Char, String.utf8EncodeChar c <+: held
  · obtain ⟨c, rest, hrest⟩ := hbegins
    have hlt : rest.length < held.length := by
      have hpos := List.length_pos_iff.mpr (String.utf8EncodeChar_ne_nil (c := c))
      rw [← hrest, List.length_append]
      omega
    obtain ⟨content, hcontent⟩ := exists_bytes_eq rest
    refine ⟨{ content with text := c :: content.text }, ?_⟩
    rw [← hrest, ← hcontent, Content.bytes, Content.bytes, utf8_cons, List.append_assoc]
  · exact ⟨⟨[], held, not_exists.mp hbegins⟩, rfl⟩
termination_by held.length

theorem read?_eq_some_iff : content.read? = some s ↔ content.bytes = utf8 s := by
  constructor
  · intro h
    obtain ⟨hempty, rfl⟩ : content.rest.isEmpty = true ∧ content.text = s := by
      simpa [read?, Option.ite_none_right_eq_some] using h
    rw [bytes, List.isEmpty_iff.mp hempty, List.append_nil]
  · intro h
    obtain rfl : content = { text := s, rest := [] } :=
      bytes_injective (h.trans (List.append_nil _).symm)
    rfl

end Content

def line (entry : String × Content) : List UInt8 :=
  utf8 (entry.1.toList ++ ['=']) ++ entry.2.bytes

theorem line_eq (entry : String × Content) :
    line entry = utf8 (entry.1.toList ++ '=' :: entry.2.text) ++ entry.2.rest := by
  rw [line, Content.bytes, ← List.append_assoc, ← utf8_append, List.append_assoc,
    List.singleton_append]

theorem isPrefix_line_iff {entry : String × Content} :
    utf8 (name ++ ['=']) <+: line entry ↔ name ++ ['='] <+: entry.1.toList ++ '=' ::
      entry.2.text := by
  rw [line_eq, utf8_isPrefix_iff entry.2.rest_unreadable]

/-- The first line that begins with a name and the sign behind it goes on with
some bytes. -/
def Holds (env : Environment) (name : List Char) (held : List UInt8) : Prop :=
  ∃ before entry after, env = before ++ entry :: after ∧
  line entry = utf8 (name ++ ['=']) ++ held ∧
    ∀ other ∈ before, ¬ utf8 (name ++ ['=']) <+: line other

theorem get?_eq_some_iff {content : Content} :
    env.get? name = some content ↔ env.Holds name content.bytes := by
  rw [get?, List.findSome?_eq_some_iff, Holds]
  refine exists_congr fun before => exists_congr fun entry => exists_congr fun after =>
    and_congr_right fun _ => and_congr ?_ (forall₂_congr fun other _ => ?_)
  · rw [Option.ite_none_right_eq_some, List.isPrefixOf_iff_prefix, Option.some.injEq]
    constructor
    · rintro ⟨⟨x, hx⟩, rfl⟩
      rw [line_eq, ← hx, Content.bytes, ← List.append_assoc, ← utf8_append]
      simp
    · intro hline
      obtain ⟨x, hx⟩ := isPrefix_line_iff.mp ⟨_, hline.symm⟩
      refine ⟨⟨x, hx⟩, Content.bytes_injective ?_⟩
      rw [line_eq, ← hx, utf8_append, List.append_assoc] at hline
      rw [← List.append_cancel_left hline, Content.bytes, ← hx]
      simp
  · rw [ite_eq_right_iff, isPrefix_line_iff, List.isPrefixOf_iff_prefix]
    simp

theorem holds_iff : env.Holds name held ↔ ∃ content, env.get? name = some content ∧
    content.bytes = held := by
  constructor
  · intro h
    obtain ⟨content, rfl⟩ := Content.exists_bytes_eq held
    exact ⟨content, get?_eq_some_iff.mpr h, rfl⟩
  · rintro ⟨content, hget, rfl⟩
    exact get?_eq_some_iff.mp hget

/-- What a placeholder of a name stands for. -/
inductive Stands (env : Environment) (name : List Char) : List Char → Prop where
  | unnamed (hname : name = []) : Stands env name []
  | unset (hunset : ∀ held, ¬ env.Holds name held) : Stands env name []
  | unreadable (held : List UInt8) (hheld : env.Holds name held)
      (hunreadable : ∀ s, held ≠ utf8 s) : Stands env name []
  | text (s : List Char) (hname : name ≠ []) (hs : env.Holds name (utf8 s)) :
      Stands env name s

theorem value_of_get? {content : Content} (hname : name ≠ [])
    (hget : env.get? name = some content) : env.value name = content.read?.getD [] := by
  rw [value, hget, if_neg (by simpa using hname), Option.bind_some]

theorem stands_value (env : Environment) (name : List Char) :
    env.Stands name (env.value name) := by
  by_cases hname : name = []
  · rw [value, if_pos (by simpa using hname)]
    exact .unnamed hname
  · cases hget : env.get? name with
    | none =>
      rw [value, hget, Option.bind_none, Option.getD_none, ite_self]
      refine .unset fun held hheld => ?_
      obtain ⟨content, hcontent, -⟩ := holds_iff.mp hheld
      cases hget.symm.trans hcontent
    | some content =>
      rw [value_of_get? hname hget]
      have hheld := get?_eq_some_iff.mp hget
      cases hread : content.read? with
      | none =>
        refine .unreadable content.bytes hheld fun s hs => ?_
        cases hread.symm.trans (Content.read?_eq_some_iff.mpr hs)
      | some s => exact .text s hname (Content.read?_eq_some_iff.mp hread ▸ hheld)

theorem Stands.value_eq (h : env.Stands name s) : env.value name = s := by
  cases h with
  | unnamed hname => rw [value, if_pos (by simpa using hname)]
  | unset hunset =>
    have hnone : env.get? name = none :=
      Option.eq_none_iff_forall_ne_some.mpr fun content hget =>
        hunset _ (get?_eq_some_iff.mp hget)
    rw [value, hnone, Option.bind_none, Option.getD_none, ite_self]
  | unreadable held hheld hunreadable =>
    obtain ⟨content, hget, rfl⟩ := holds_iff.mp hheld
    have hnone : content.read? = none :=
      Option.eq_none_iff_forall_ne_some.mpr fun s hread =>
        hunreadable s (Content.read?_eq_some_iff.mp hread)
    rw [value, hget, Option.bind_some, hnone, Option.getD_none, ite_self]
  | text s hname hs =>
    obtain ⟨content, hget, hbytes⟩ := holds_iff.mp hs
    rw [value_of_get? hname hget, Content.read?_eq_some_iff.mpr hbytes,
      Option.getD_some]

theorem value_eq_iff : env.value name = s ↔ env.Stands name s :=
  ⟨by rintro rfl; exact stands_value env name, Stands.value_eq⟩

end Resumable.Environment
