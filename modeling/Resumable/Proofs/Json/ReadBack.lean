import Resumable.Proofs.Json.Numerals
import Resumable.Proofs.Number.Shortest

namespace Resumable.Json

open Machine

mutual

/-- What the text of a value is read as: integers of 64 bits as they are, doubles as
the texts of theirs are read. -/
def reread : Json → Option Json
  | .int n =>
      if -9223372036854775808 ≤ n ∧ n < 18446744073709551616 then
        some (.int n) else none
  | .double x => (ofBytes (Json.double x).bytes.toList).toOption
  | .arr items => (rereadItems items).map .arr
  | .obj members => (rereadMembers members).map .obj
  | v => some v

def rereadItems : List Json → Option (List Json)
  | [] => some []
  | v :: rest => (reread v).bind fun w => (rereadItems rest).map (w :: ·)

def rereadMembers : List (String × Json) → Option (List (String × Json))
  | [] => some []
  | (k, v) :: rest => (reread v).bind fun w => (rereadMembers rest).map ((k, w) :: ·)

end

mutual

def depth : Json → Nat
  | .arr items => itemsDepth items + 1
  | .obj members => membersDepth members + 1
  | _ => 0

def itemsDepth : List Json → Nat
  | [] => 0
  | v :: rest => max (depth v) (itemsDepth rest)

def membersDepth : List (String × Json) → Nat
  | [] => 0
  | (_, v) :: rest => max (depth v) (membersDepth rest)

end

section Scalars

variable {stack : List Frame}

theorem passes_ident (b : UInt8) (rest : List UInt8) (v : Json) :
    (within (.ident (b :: rest) v) stack).Passes (b :: rest) (landed stack v) := by
  induction rest generalizing b with
  | nil =>
    refine .one fun p => ?_
    rw [← deliver_within (.ident [b] v), ← deliver_movedTo _ (p.after b)]
    simp [step, within, movedTo, deliver]
    rcases stack with _ | ⟨_ | _, _⟩ <;> rfl
  | cons c rest ih =>
    exact .cons (within (.ident (c :: rest) v) stack)
      (fun p => by simp [step, within, movedTo]) (ih c)

theorem spells_word {b c : UInt8} {rest : List UInt8} {v : Json}
    (hblank : isBlank b = false) (hclose : b ≠ 93)
    (hbegin : ∀ (m : Machine) (p : Place),
      m.beginValue .wire b p =
        .ok { m with mode := .ident (c :: rest) v, place := p }) :
    Spells 0 (b :: c :: rest) v := by
  refine .of_passes fun mode stack hmode _ =>
    .cons (within (.ident (c :: rest) v) stack) (fun p => ?_) (passes_ident c rest v)
  rw [step_due hmode stack p hblank hclose, hbegin]
  rfl

theorem spells_null : Spells 0 (utf8 (chars .null)) .null :=
  spells_word (by decide) (by decide) fun _ _ => rfl

theorem spells_bool (b : Bool) : Spells 0 (utf8 (chars (.bool b))) (.bool b) := by
  cases b with
  | true => exact spells_word (by decide) (by decide) fun _ _ => rfl
  | false => exact spells_word (by decide) (by decide) fun _ _ => rfl

theorem spells_int {n : Int} (hlow : -9223372036854775808 ≤ n)
    (hhigh : n < 18446744073709551616) : Spells 0 (utf8 (chars (.int n))) (.int n) :=
  spells_numeral (numeral?_int hlow hhigh)

open Parts in
theorem utf8EncodeChar_decimal {c : Char} (hc : isDecimalChar c = true) :
    ∃ b, String.utf8EncodeChar c = [b] ∧ isBlank b = false ∧
      (c = '-' ∨ c.isDigit = true → b = 45 ∨ isDigit b = true) := by
  by_cases hdigit : c.isDigit = true
  · have hbyte := (digitByte hdigit).1
    refine ⟨_, utf8EncodeChar_isDigit hdigit, ?_, fun _ => .inr hbyte⟩
    have hne (b : UInt8) (hb : isDigit b = false) : UInt8.ofNat c.toNat ≠ b := by
      intro heq
      simp [heq, hb] at hbyte
    simp [isBlank, hne 32 rfl, hne 10 rfl, hne 9 rfl, hne 13 rfl]
  · simp only [isDecimalChar, hdigit, Bool.false_or, Bool.or_eq_true, beq_iff_eq] at hc
    rcases hc with ((rfl | rfl) | rfl) | rfl
    · exact ⟨46, rfl, rfl, by decide⟩
    · exact ⟨101, rfl, rfl, by decide⟩
    · exact ⟨43, rfl, rfl, by decide⟩
    · exact ⟨45, rfl, rfl, by decide⟩

open Parts in
theorem notBlank_of_decimal {cs : List Char} (h : ∀ c ∈ cs, isDecimalChar c = true) :
    ∀ b ∈ utf8 cs, isBlank b = false := by
  intro b hb
  obtain ⟨c, hc, hbc⟩ := List.mem_flatMap.mp hb
  obtain ⟨b', hb', hblank, -⟩ := utf8EncodeChar_decimal (h c hc)
  rw [hb', List.mem_singleton] at hbc
  exact hbc ▸ hblank

theorem spells_double {x : Binary64} {v : Json}
    (h : ofBytes (Json.double x).bytes.toList = .ok v) :
    Spells 0 (utf8 (chars (.double x))) v := by
  obtain ⟨c, cs, hcs, hc⟩ := x.text_head
  have hdecimal := x.text_decimal
  rw [hcs, List.forall_mem_cons] at hdecimal
  obtain ⟨b, hb, -, hstart⟩ := utf8EncodeChar_decimal hdecimal.1
  have hbytes : utf8 (chars (.double x)) = b :: utf8 cs := by
    rw [chars, hcs, utf8_cons, hb]
    rfl
  rw [toList_bytes, hbytes, ofBytes] at h
  cases hread : read .wire (b :: utf8 cs) with
  | error e =>
    rw [hread] at h
    cases h
  | ok w =>
    have hnumeral := numeral?_of_read (hstart hc) (notBlank_of_decimal hdecimal.2) hread
    rw [hread] at h
    cases h
    rw [hbytes, normalize_of_numeral? hnumeral]
    exact spells_numeral hnumeral

end Scalars

section Brackets

variable {rest : List Frame}

theorem passes_open {mode : Mode} (hmode : Due mode) (rest : List Frame)
    (hroom : rest.length < 127) :
    (within mode rest).Passes [91] (within .firstItem (.list [] :: rest)) ∧
      (within mode rest).Passes [123] (within .firstKey (.object [] "" :: rest)) := by
  have hdepth : ¬ 127 ≤ rest.length := Nat.not_le.mpr hroom
  constructor
  · refine .one fun p => ?_
    rw [step_due hmode rest p (by decide) (by decide)]
    simp [beginValue, openBracket, Scope.wire, hdepth, within, movedTo]
  · refine .one fun p => ?_
    rw [step_due hmode rest p (by decide) (by decide)]
    simp [beginValue, openBracket, Scope.wire, hdepth, within, movedTo]

theorem step_closeList (items : List Json) (p : Place) :
    step .wire ((within .afterValue (.list items :: rest)).movedTo p) 93 =
      .ok ((landed rest (.arr items.reverse)).movedTo (p.after 93)) := by
  rcases rest with _ | ⟨_ | _, _⟩ <;> rfl

theorem step_closeObject (members : List (String × Json)) (key : String) (p : Place) :
    step .wire ((within .afterValue (.object members key :: rest)).movedTo p) 125 =
      .ok ((landed rest (.obj members.reverse)).movedTo (p.after 125)) := by
  rcases rest with _ | ⟨_ | _, _⟩ <;> rfl

theorem passes_emptyList :
    (within .firstItem (.list [] :: rest)).Passes [93] (landed rest (.arr [])) := by
  refine .one fun p => ?_
  rcases rest with _ | ⟨_ | _, _⟩ <;> rfl

theorem passes_emptyObject :
    (within .firstKey (.object [] "" :: rest)).Passes [125]
      (landed rest (.obj [])) := by
  refine .one fun p => ?_
  rcases rest with _ | ⟨_ | _, _⟩ <;> rfl

theorem passes_item {v : Json} {bytes : List UInt8} {room : Nat}
    (h : Spells room bytes v) {mode : Mode} (hmode : Due mode) (items : List Json)
    (hroom : rest.length + 1 + room ≤ 127) :
    (within mode (.list items :: rest)).Passes (bytes ++ [44])
        (within .nextItem (.list (v :: items) :: rest)) ∧
      (within mode (.list items :: rest)).Passes (bytes ++ [93])
        (landed rest (.arr (v :: items).reverse)) := by
  have hstack : (Frame.list items :: rest).length + room ≤ 127 := by
    simpa using hroom
  exact ⟨h.passes_delimiter hmode hstack (by decide) fun p => rfl,
    h.passes_delimiter hmode hstack (by decide) fun p => step_closeList _ p⟩

theorem passes_member {k : String} {v : Json} {bytes : List UInt8} {room : Nat}
    (h : Spells room bytes v) {mode : Mode} (hmode : mode = .firstKey ∨ mode = .nextKey)
    (members : List (String × Json)) (key : String)
    (hroom : rest.length + 1 + room ≤ 127) :
    (within mode (.object members key :: rest)).Passes (utf8 (quote k) ++
      58 :: (bytes ++ [44]))
        (within .nextKey (.object ((k, v) :: members) "" :: rest)) ∧
      (within mode (.object members key :: rest)).Passes (utf8 (quote k) ++
        58 :: (bytes ++ [125])) (landed rest (.obj ((k, v) :: members).reverse)) := by
  have hstack : (Frame.object members k :: rest).length + room ≤ 127 := by
    simpa using hroom
  have hcolon {b : List UInt8} {m : Machine}
      (h : (within .value (.object members k :: rest)).Passes b m) :
      (within mode (.object members key :: rest)).Passes
      (utf8 (quote k) ++ 58 :: b) m :=
    (passes_key hmode members key rest k).trans
      (.cons (within .value (.object members k :: rest)) (fun p => rfl) h)
  exact ⟨hcolon (h.passes_delimiter .value hstack (by decide) fun p => rfl),
    hcolon (h.passes_delimiter .value hstack (by decide) fun p =>
      step_closeObject _ _ p)⟩

end Brackets

mutual

-- By the value: its items and members are read with one bracket more on the stack and
-- one less to open.
/-- A value's text is read as what the value is read back as. -/
theorem spells_chars : (v : Json) → {w : Json} → reread v = some w → (room : Nat) →
    depth v ≤ room → Spells room (utf8 v.chars) w
  | .null, w, h, room, _ => by
    cases h
    exact spells_null.mono (Nat.zero_le room)
  | .bool b, w, h, room, _ => by
    cases h
    exact (spells_bool b).mono (Nat.zero_le room)
  | .int n, w, h, room, _ => by
    rw [reread] at h
    split at h
    · rename_i hrange
      cases h
      exact (spells_int hrange.1 hrange.2).mono (Nat.zero_le room)
    · cases h
  | .double x, w, h, room, _ => by
    rw [reread] at h
    cases hread : ofBytes (Json.double x).bytes.toList with
    | error e =>
      rw [hread] at h
      cases h
    | ok v =>
      rw [hread] at h
      cases h
      exact (spells_double hread).mono (Nat.zero_le room)
  | .str s, w, h, room, _ => by
    cases h
    exact (spells_quote s).mono (Nat.zero_le room)
  | .arr items, w, h, room, hdepth => by
    obtain ⟨ws, hws, rfl⟩ := Option.map_eq_some_iff.mp h
    refine .of_passes fun mode stack hmode hroom => ?_
    rw [depth] at hdepth
    have hopen := (passes_open hmode stack (by omega)).1
    cases items with
    | nil =>
      cases hws
      exact hopen.trans passes_emptyList
    | cons v items =>
      have hitems := passes_items (v :: items) (List.cons_ne_nil _ _) hws .firstItem []
        stack (room - 1) (by omega) (by omega)
      rw [chars, utf8_cons, utf8_append]
      exact hopen.trans hitems
  | .obj members, w, h, room, hdepth => by
    obtain ⟨ws, hws, rfl⟩ := Option.map_eq_some_iff.mp h
    refine .of_passes fun mode stack hmode hroom => ?_
    rw [depth] at hdepth
    have hopen := (passes_open hmode stack (by omega)).2
    cases members with
    | nil =>
      cases hws
      exact hopen.trans passes_emptyObject
    | cons m members =>
      have hmembers :=
        passes_members (m :: members) (List.cons_ne_nil _ _) hws (.inl rfl) [] ""
          stack (room - 1) (by omega) (by omega)
      rw [chars, utf8_cons, utf8_append]
      exact hopen.trans hmembers

theorem passes_items : (items : List Json) → items ≠ [] → {ws : List Json} →
    rereadItems items = some ws → {mode : Mode} → Due mode → (done : List Json) →
    (rest : List Frame) → (room : Nat) → itemsDepth items ≤ room →
    rest.length + 1 + room ≤ 127 →
    (within mode (.list done :: rest)).Passes (utf8 (itemChars items) ++ [93])
      (landed rest (.arr (done.reverse ++ ws)))
  | [], hne, _, _, _, _, _, _, _, _, _ => absurd rfl hne
  | [v], _, ws, h, mode, hmode, done, rest, room, hdepth, hroom => by
    obtain ⟨w, hw, hws⟩ := Option.bind_eq_some_iff.mp h
    cases hws
    rw [itemsDepth] at hdepth
    have hitem := (passes_item (spells_chars v hw room (by omega)) hmode done hroom).2
    simpa [itemChars] using hitem
  | v :: v' :: items, _, ws, h, mode, hmode, done, rest, room, hdepth, hroom => by
    obtain ⟨w, hw, hws⟩ := Option.bind_eq_some_iff.mp h
    obtain ⟨ws', hws', rfl⟩ := Option.map_eq_some_iff.mp hws
    rw [itemsDepth] at hdepth
    have hitem := (passes_item (spells_chars v hw room (by omega)) hmode done hroom).1
    have hrest :=
      passes_items (v' :: items) (List.cons_ne_nil _ _) hws' .nextItem (w :: done)
        rest room (by omega) hroom
    have hchars : utf8 (itemChars (v :: v' :: items)) ++ [93] =
        utf8 v.chars ++ [44] ++ (utf8 (itemChars (v' :: items)) ++ [93]) := by
      rw [itemChars, utf8_append, utf8_cons]
      simp [show String.utf8EncodeChar ',' = [44] from rfl]
    rw [hchars]
    simpa using hitem.trans hrest

theorem passes_members : (members : List (String × Json)) → members ≠ [] →
    {ws : List (String × Json)} → rereadMembers members = some ws → {mode : Mode} →
    mode = .firstKey ∨ mode = .nextKey → (done : List (String × Json)) →
    (key : String) → (rest : List Frame) → (room : Nat) → membersDepth members ≤ room →
    rest.length + 1 + room ≤ 127 →
    (within mode (.object done key :: rest)).Passes
      (utf8 (memberChars members) ++ [125]) (landed rest (.obj (done.reverse ++ ws)))
  | [], hne, _, _, _, _, _, _, _, _, _, _ => absurd rfl hne
  | [(k, v)], _, ws, h, mode, hmode, done, key, rest, room, hdepth, hroom => by
    obtain ⟨w, hw, hws⟩ := Option.bind_eq_some_iff.mp h
    cases hws
    rw [membersDepth] at hdepth
    have hmember :=
      (passes_member (k := k) (spells_chars v hw room (by omega)) hmode
        done key hroom).2
    simpa [memberChars, show String.utf8EncodeChar ':' = [58] from rfl] using hmember
  | (k, v) :: m :: members, _, ws, h, mode, hmode, done, key, rest, room,
      hdepth, hroom => by
    obtain ⟨w, hw, hws⟩ := Option.bind_eq_some_iff.mp h
    obtain ⟨ws', hws', rfl⟩ := Option.map_eq_some_iff.mp hws
    rw [membersDepth] at hdepth
    have hmember :=
      (passes_member (k := k) (spells_chars v hw room (by omega)) hmode
        done key hroom).1
    have hrest := passes_members (m :: members) (List.cons_ne_nil _ _) hws' (.inr rfl)
      ((k, w) :: done) "" rest room (by omega) hroom
    have hchars : utf8 (memberChars ((k, v) :: m :: members)) ++ [125] =
        utf8 (quote k) ++ 58 :: (utf8 v.chars ++ [44]) ++
          (utf8 (memberChars (m :: members)) ++ [125]) := by
      rw [memberChars]
      simp [show String.utf8EncodeChar ':' = [58] from rfl,
        show String.utf8EncodeChar ',' = [44] from rfl]
    rw [hchars]
    simpa using hmember.trans hrest

end

/-- The wire text of a value is read as what the value is read back as. -/
theorem read_bytes {v w : Json} (h : reread v = some w) (hdepth : depth v ≤ 127) :
    read .wire v.bytes.toList = .ok w := by
  rw [toList_bytes]
  exact (spells_chars v h 127 hdepth).read (Nat.le_refl _)

end Resumable.Json
