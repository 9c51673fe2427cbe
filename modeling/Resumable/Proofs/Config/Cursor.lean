import Resumable.Proofs.Config.Template
import Resumable.Proofs.Config.Variables

namespace Resumable

open Json (utf8 utf8_append utf8_cons utf8EncodeChar_ascii le_toNat_of_mem
  toList_toUTF8)

namespace Cursor

section Marks

variable {α : Type} [BEq α]

def offset? (mark : List α) : List α → Option Nat
  | [] => none
  | x :: rest =>
      if mark.isPrefixOf (x :: rest) then some 0 else (offset? mark rest).map (· + 1)

variable [LawfulBEq α] {mark front rest : List α}

theorem offset?_of_isPrefix (hmark : mark ≠ []) (h : mark <+: rest) :
    offset? mark rest = some 0 := by
  cases rest with
  | nil => exact absurd (List.prefix_nil.mp h) hmark
  | cons x rest => rw [offset?, if_pos (List.isPrefixOf_iff_prefix.mpr h)]

theorem offset?_append (h : ∀ x, x ≠ [] → x <:+ front → ¬ mark <+: x ++ rest) :
    offset? mark (front ++ rest) = (offset? mark rest).map (· + front.length) := by
  induction front with
  | nil => simp
  | cons x front ih =>
    have hx : ¬ mark.isPrefixOf (x :: (front ++ rest)) = true :=
      fun hp => h (x :: front) (List.cons_ne_nil x front) List.suffix_rfl
        (List.isPrefixOf_iff_prefix.mp hp)
    have hbehind :=
      ih fun y hy hsuffix => h y hy (hsuffix.trans (List.suffix_cons x front))
    rw [List.cons_append, offset?, if_neg hx, hbehind, Option.map_map]
    rfl

theorem offset?_eq_none (h : ∀ x, x ≠ [] → x <:+ front → ¬ mark <+: x) :
    offset? mark front = none := by
  have happend : offset? mark (front ++ []) =
      (offset? mark []).map (· + front.length) :=
    offset?_append fun x hx hsuffix => by simpa using h x hx hsuffix
  rwa [List.append_nil] at happend

end Marks

/-- A mark that begins with a character below U+0080 is found in the bytes of a text
where it is in the text: no byte within a character is that character's. -/
theorem offset?_utf8 {c : Char} (hc : c.toNat ≤ 127) (mark text : List Char) :
    offset? (utf8 (c :: mark)) (utf8 text) = (offset? (c :: mark) text).map fun n =>
    (utf8 (text.take n)).length := by
  have hcons : utf8 (c :: mark) = UInt8.ofNat c.toNat :: utf8 mark := by
    rw [utf8_cons, utf8EncodeChar_ascii hc, List.singleton_append]
  have hiff {text : List Char} : utf8 (c :: mark) <+: utf8 text ↔
      c :: mark <+: text := by
    rw [← List.append_nil (utf8 text), Environment.utf8_isPrefix_iff (by simp)]
  induction text with
  | nil => rfl
  | cons d text ih =>
    by_cases hhere : c :: mark <+: d :: text
    · rw [offset?_of_isPrefix (by simp [hcons]) (hiff.mpr hhere),
        offset?_of_isPrefix (by simp) hhere]
      rfl
    · have hnot : ¬ utf8 (c :: mark) <+: String.utf8EncodeChar d ++ utf8 text :=
        fun h => hhere (hiff.mp h)
      -- A mark may begin at any byte of the character: at its first it was ruled out
      -- above, and the others of a longer character are not bytes of a character
      -- below U+0080.
      have hwithin : ∀ x, x ≠ [] → x <:+ String.utf8EncodeChar d →
          ¬ utf8 (c :: mark) <+: x ++ utf8 text := by
        rintro (_ | ⟨b, x⟩) hx hsuffix hbegins
        · exact hx rfl
        by_cases hd : d.toNat ≤ 127
        · rw [utf8EncodeChar_ascii hd] at hsuffix hnot
          rw [hsuffix.eq_of_length (Nat.le_antisymm hsuffix.length_le (by simp))]
            at hbegins
          exact hnot hbegins
        · have hb : 128 ≤ b.toNat :=
            le_toNat_of_mem (Nat.not_le.mp hd) (hsuffix.subset (List.mem_cons_self ..))
          rw [hcons, List.cons_append, List.cons_prefix_cons] at hbegins
          rw [← hbegins.1, UInt8.toNat_ofNat'] at hb
          omega
      rw [utf8_cons d text, offset?_append hwithin, ih, offset?,
        if_neg fun h => hhere (List.isPrefixOf_iff_prefix.mp h), Option.map_map,
        Option.map_map]
      congr 1
      funext n
      simp [Nat.add_comm]

/-- The two sides of a place in a text. -/
structure Cut (s : String) (n : Nat) where
  before : String
  behind : String
  eq_append : s = before ++ behind
  size_before : before.utf8ByteSize = n

def cut? (s : String) (n : Nat) : Option (Cut s n) :=
  if h : String.Pos.Raw.IsValid s ⟨n⟩ then
    some {
      before := (s.sliceTo (s.pos ⟨n⟩ h)).copy
      behind := (s.sliceFrom (s.pos ⟨n⟩ h)).copy
      eq_append := (s.pos ⟨n⟩ h).splits.eq_append
      size_before :=
        congrArg String.Pos.Raw.byteIdx (s.pos ⟨n⟩ h).splits.offset_eq_rawEndPos.symm }
  else none

theorem cut?_eq_some {s a b : String} {n : Nat} (hs : s = a ++ b)
    (hn : a.utf8ByteSize = n) : cut? s n = some ⟨a, b, hs, hn⟩ := by
  subst hs hn
  have hvalid : String.Pos.Raw.IsValid (a ++ b) ⟨a.utf8ByteSize⟩ :=
    String.Pos.Raw.isValid_iff_exists_append.mpr ⟨a, b, rfl, rfl⟩
  obtain ⟨hbefore, hbehind⟩ :=
    ((a ++ b).pos ⟨a.utf8ByteSize⟩ hvalid).splits.eq String.Pos.splits_append_rawEndPos
  rw [cut?, dif_pos hvalid]
  congr

def find? (s mark : String) : Option Nat := offset? mark.toUTF8.toList s.toUTF8.toList

end Cursor

open Cursor

def Environment.scan (env : Environment) (out rest : String) : Option String :=
  match find? rest "$\x7b" with
  | none => some (out ++ rest)
  | some start => do
      let lead ← cut? rest start
      let opened ← cut? rest (start + 2)
      match find? opened.behind "\x7d" with
      | none => return out ++ lead.before ++ lead.behind
      | some stop =>
          let name ← cut? opened.behind stop
          let closed ← cut? opened.behind (stop + 1)
          env.scan (out ++ lead.before ++
            String.ofList (env.value name.before.toList)) closed.behind
termination_by rest.utf8ByteSize
decreasing_by
  have hopened := congrArg String.utf8ByteSize opened.eq_append
  have hclosed := congrArg String.utf8ByteSize closed.eq_append
  rw [String.utf8ByteSize_append, opened.size_before] at hopened
  rw [String.utf8ByteSize_append, closed.size_before] at hclosed
  omega

namespace Cursor

theorem utf8ByteSize_ofList (s : List Char) :
    (String.ofList s).utf8ByteSize = (utf8 s).length := by
  have h := congrArg List.length (toList_toUTF8 (String.ofList s))
  rw [String.toList_ofList] at h
  rw [← h, Json.toList_eq_data]
  rfl

theorem find?_ofList {c : Char} (hc : c.toNat ≤ 127) (mark text : List Char) :
    find? (String.ofList text) (String.ofList (c :: mark)) =
      (offset? (c :: mark) text).map fun n =>
      (String.ofList (text.take n)).utf8ByteSize := by
  simp only [find?, toList_toUTF8, String.toList_ofList, offset?_utf8 hc,
    utf8ByteSize_ofList]

theorem find?_eq_none {c : Char} {mark text : List Char} (hc : c.toNat ≤ 127)
    (h : ∀ x, x ≠ [] → x <:+ text → ¬ c :: mark <+: x) :
    find? (String.ofList text) (String.ofList (c :: mark)) = none := by
  rw [find?_ofList hc, offset?_eq_none h, Option.map_none]

theorem find?_eq_some {c : Char} {mark front rest : List Char} (hc : c.toNat ≤ 127)
    (h : ∀ x, x ≠ [] → x <:+ front → ¬ c :: mark <+: x ++ (c :: mark ++ rest)) :
    find? (String.ofList (front ++ (c :: mark ++ rest))) (String.ofList (c :: mark)) =
      some (String.ofList front).utf8ByteSize := by
  rw [find?_ofList hc, offset?_append h,
    offset?_of_isPrefix (by simp) (List.prefix_append ..), Option.map_some,
    Option.map_some, Nat.zero_add, List.take_left]

end Cursor

namespace Template

variable {s x name : List Char}

theorem find?_free (hs : Free s) : find? (String.ofList s) "$\x7b" = none :=
  find?_eq_none (by decide) fun _ _ hsuffix hbegins =>
    hs (hbegins.isInfix.trans hsuffix.isInfix)

theorem find?_opening (hs : Free s) :
    find? (String.ofList (s ++ (opening ++ x))) "$\x7b" =
    some (String.ofList s).utf8ByteSize := by
  refine find?_eq_some (by decide) fun y hy hsuffix hbegins => ?_
  have hfree : Free y := fun h => hs (h.trans hsuffix.isInfix)
  match y with
  | [c] => simp at hbegins
  | c :: d :: y =>
    rw [List.cons_append, List.cons_append, List.cons_prefix_cons,
      List.cons_prefix_cons] at hbegins
    exact hfree.head?_ne hbegins.1.symm (congrArg some hbegins.2.1.symm)

theorem find?_closeless (hx : '\x7d' ∉ x) : find? (String.ofList x) "\x7d" = none :=
  find?_eq_none (by decide) fun _ _ hsuffix hbegins =>
    hx (hsuffix.subset (hbegins.subset (by simp)))

theorem find?_close (hname : '\x7d' ∉ name) :
    find? (String.ofList (name ++ '\x7d' :: x)) "\x7d" =
    some (String.ofList name).utf8ByteSize := by
  refine find?_eq_some (by decide)
    fun y hy hsuffix (hbegins : _ <+: y ++ ('\x7d' :: x)) => ?_
  obtain ⟨c, y, rfl⟩ := List.exists_cons_of_ne_nil hy
  rw [List.cons_append, List.cons_prefix_cons] at hbegins
  exact hname (hsuffix.subset (hbegins.1 ▸ List.mem_cons_self ..))

theorem cut?_opening (s x : List Char) :
    cut? (String.ofList (s ++ (opening ++ x))) (String.ofList s).utf8ByteSize =
        some ⟨String.ofList s, String.ofList (opening ++ x),
          String.ofList_append, rfl⟩ ∧
      ∃ hs hn, cut? (String.ofList (s ++ (opening ++ x)))
        ((String.ofList s).utf8ByteSize + 2) =
        some ⟨String.ofList (s ++ opening), String.ofList x, hs, hn⟩ := by
  have hs : String.ofList (s ++ (opening ++ x)) = String.ofList (s ++ opening) ++
      String.ofList x := by
    rw [← List.append_assoc, String.ofList_append]
  have hn : (String.ofList (s ++ opening)).utf8ByteSize =
      (String.ofList s).utf8ByteSize + 2 := by
    rw [String.ofList_append, String.utf8ByteSize_append]
    rfl
  exact ⟨cut?_eq_some String.ofList_append rfl, hs, hn, cut?_eq_some hs hn⟩

/-- The cursor gets to the end of a text, and puts values in the place of names. -/
theorem scan_text (env : Environment) (out : String) (t : Template) :
    env.scan out t.text = some (out ++ String.ofList (t.fill env)) := by
  induction t generalizing out with
  | piece s hs => rw [Environment.scan, text, chars, find?_free hs, fill]
  | unclosed s tail hs htail =>
    obtain ⟨hlead, _, _, hopened⟩ := cut?_opening s tail
    rw [Environment.scan, text, chars, List.append_assoc, find?_opening hs]
    simp only [hlead, hopened, find?_closeless htail, Option.bind_eq_bind,
      Option.bind_some, Option.pure_def]
    simp only [fill, String.ofList_append, String.append_assoc]
  | mark s name hs hname t ih =>
    obtain ⟨hlead, _, _, hopened⟩ := cut?_opening s (name ++ '\x7d' :: t.chars)
    have hclose : String.ofList (name ++ '\x7d' :: t.chars) =
        String.ofList (name ++ ['\x7d']) ++ t.text := by
      rw [text, ← String.ofList_append, List.append_assoc, List.singleton_append]
    have hsize : (String.ofList (name ++ ['\x7d'])).utf8ByteSize =
        (String.ofList name).utf8ByteSize + 1 := by
      rw [String.ofList_append, String.utf8ByteSize_append]
      rfl
    rw [Environment.scan, text, chars, List.append_assoc, find?_opening hs]
    simp only [hlead, hopened, find?_close hname,
      cut?_eq_some String.ofList_append rfl, cut?_eq_some hclose hsize,
      Option.bind_eq_bind, Option.bind_some, String.toList_ofList, ih]
    simp only [fill, String.ofList_append, String.append_assoc]

end Template

namespace Environment

variable {env : Environment}

theorem expand_text (t : Template) :
    env.expand t.text = String.ofList (t.fill env) := by
  rw [expand, Template.text, String.toList_ofList, Template.expandChars_chars]

theorem expand_append {t : Template} {s : String} (ht : t.Closed)
    (hseam : ¬ (t.text.toList.getLast? = some '$' ∧ s.toList.head? = some '\x7b')) :
    env.expand (t.text ++ s) = env.expand t.text ++ env.expand s := by
  rw [Template.text, String.toList_ofList] at hseam
  rw [expand_text, expand, String.toList_append, Template.text, String.toList_ofList,
    Template.expandChars_chars_append ht hseam, String.ofList_append]
  rfl

/-- A text is pieces with placeholders between them, in one way, and only the
placeholders are replaced: by what the environment holds, put in as it is. A cursor
that goes over the bytes of the text gets to its end. So texts can be replaced one by
one, and a text without placeholders stays as it is. -/
theorem expand_grammar (env : Environment) :
    (∀ s : String, ∃! t : Template, t.text = s) ∧
    (∀ t : Template, env.expand t.text = String.ofList (t.fill env)) ∧
    (∀ name v : List Char, env.value name = v ↔ env.Stands name v) ∧
    (∀ s : String, env.scan "" s = some (env.expand s)) ∧
    (∀ a b : String, (∀ t : Template, t.text = a → t.Closed) →
      ¬ (a.toList.getLast? = some '$' ∧ b.toList.head? = some '\x7b') →
      env.expand (a ++ b) = env.expand a ++ env.expand b) ∧
    (∀ s : String, Template.Free s.toList → env.expand s = s) := by
  refine ⟨Template.existsUnique_text, fun t => expand_text t,
    fun name v => value_eq_iff, ?_, ?_, ?_⟩
  · intro s
    obtain ⟨t, rfl, -⟩ := Template.existsUnique_text s
    rw [Template.scan_text, expand_text, String.empty_append]
  · intro a b hclosed hseam
    obtain ⟨t, rfl, -⟩ := Template.existsUnique_text a
    exact expand_append (hclosed t rfl) hseam
  · intro s hs
    rw [expand, Template.expandChars_free hs, String.ofList_toList]

/-- A value that looks like a placeholder itself, and behind it a brace and a
placeholder that is left open. -/
theorem expand_grammar_verbatim :
    (∀ t : Template, t.text = "$$\x7bA\x7d" → t.Closed) ∧
    ¬ ("$$\x7bA\x7d".toList.getLast? = some '$' ∧
      "\x7b$\x7bA".toList.head? = some '\x7b') ∧
    Environment.expand [("A", "$\x7bA\x7d")] ("$$\x7bA\x7d" ++ "\x7b$\x7bA") =
    "$$\x7bA\x7d\x7b$\x7bA" := by
  have hfree (s : List Char) (hs : s.length < 2) : Template.Free s := fun h => by
    have := h.length_le
    simp only [Template.opening, List.length_cons, List.length_nil] at this
    omega
  let front : Template :=
    .mark ['$'] ['A'] (hfree _ (by decide)) (by decide)
      (.piece [] (hfree _ (by decide)))
  let back : Template := .unclosed ['\x7b'] ['A'] (hfree _ (by decide)) (by decide)
  obtain ⟨-, hfill, -, -, happend, -⟩ := expand_grammar [("A", "$\x7bA\x7d")]
  have hclosed : ∀ t : Template, t.text = front.text → t.Closed := by
    intro t ht
    obtain rfl := (Template.existsUnique_text front.text).unique ht rfl
    exact trivial
  have hseam :
      ¬ ("$$\x7bA\x7d".toList.getLast? = some '$' ∧
        "\x7b$\x7bA".toList.head? = some '\x7b') := by
    decide
  refine ⟨hclosed, hseam, ?_⟩
  have hexpand := happend front.text back.text hclosed hseam
  rw [hfill, hfill] at hexpand
  exact hexpand

end Environment

end Resumable
