import Resumable.Proofs.Json.Numerals
import Resumable.Proofs.Number.Shortest

namespace Resumable.Json

open Parts

def escaped : List Char := ['"', '\\'] ++ (List.range 32).map Char.ofNat

theorem escapeChar_of_notMem {c : Char} (h : c ∉ escaped) : escapeChar c = [c] := by
  simp only [escaped, List.mem_append, List.mem_cons, List.not_mem_nil,
    or_false, not_or] at h
  obtain ⟨⟨hquote, hback⟩, hcontrol⟩ := h
  have hsize : ¬ c.toNat < 32 := fun hlt =>
    hcontrol (List.mem_map.mpr ⟨c.toNat, List.mem_range.mpr hlt, Char.ofNat_toNat c⟩)
  have hne (d : Char) (hd : d.toNat < 32) : c ≠ d := fun hcd => hsize (hcd ▸ hd)
  rw [escapeChar, if_neg hquote, if_neg hback, if_neg (hne _ (by decide)),
    if_neg (hne _ (by decide)), if_neg (hne _ (by decide)), if_neg (hne _ (by decide)),
    if_neg (hne _ (by decide)), if_neg hsize]

theorem head?_escapeChar_of_mem : ∀ c ∈ escaped, (escapeChar c).head? = some '\\' := by
  have hall : (escaped.all fun c => (escapeChar c).head? == some '\\') =
      true := by decide
  intro c hc
  exact eq_of_beq (List.all_eq_true.mp hall c hc)

theorem eq_of_isPrefixOf :
    ∀ c ∈ escaped, ∀ d ∈ escaped, (escapeChar c).isPrefixOf (escapeChar d) =
    true → c = d := by
  -- Over the list itself, so that no more characters are tried than are escaped.
  have hall : (escaped.all fun c => escaped.all fun d =>
      !(escapeChar c).isPrefixOf (escapeChar d) || c == d) = true := by decide +kernel
  intro c hc d hd hbegins
  have hsame := List.all_eq_true.mp (List.all_eq_true.mp hall c hc) d hd
  simpa [hbegins] using hsame

theorem escapeChar_ne_of_notMem {c d : Char} (hc : c ∈ escaped) (hd : d ∉ escaped)
    (a b : List Char) : escapeChar c ++ a ≠ escapeChar d ++ b := by
  intro h
  have hhead := congrArg List.head? h
  rw [escapeChar_of_notMem hd, List.head?_append, head?_escapeChar_of_mem c hc] at hhead
  obtain rfl : '\\' = d := Option.some.inj hhead
  exact hd (by decide)

/-- The spelling of a character says which character it is and where it ends. -/
theorem escapeChar_append_inj {c d : Char} {a b : List Char}
    (h : escapeChar c ++ a = escapeChar d ++ b) : c = d ∧ a = b := by
  have hsame : c = d := by
    by_cases hc : c ∈ escaped
    · by_cases hd : d ∈ escaped
      · rcases List.append_eq_append_iff.mp h with ⟨x, hx, -⟩ | ⟨x, hx, -⟩
        · exact eq_of_isPrefixOf c hc d hd (List.isPrefixOf_iff_prefix.mpr ⟨x, hx.symm⟩)
        · exact (eq_of_isPrefixOf d hd c hc
            (List.isPrefixOf_iff_prefix.mpr ⟨x, hx.symm⟩)).symm
      · exact absurd h (escapeChar_ne_of_notMem hc hd a b)
    · by_cases hd : d ∈ escaped
      · exact absurd h.symm (escapeChar_ne_of_notMem hd hc b a)
      · rw [escapeChar_of_notMem hc, escapeChar_of_notMem hd] at h
        exact (List.cons.inj h).1
  subst hsame
  exact ⟨rfl, List.append_cancel_left h⟩

theorem escapeChar_ne_quote (c : Char) (a b : List Char) :
    '"' :: a ≠ escapeChar c ++ b := by
  intro h
  have hhead := congrArg List.head? h
  by_cases hc : c ∈ escaped
  · rw [List.head?_append, head?_escapeChar_of_mem c hc] at hhead
    cases hhead
  · rw [escapeChar_of_notMem hc] at hhead
    exact hc ((Option.some.inj hhead) ▸ by decide)

theorem escaped_append_inj {cs ds r s : List Char}
    (h : cs.flatMap escapeChar ++ '"' :: r = ds.flatMap escapeChar ++ '"' :: s) :
    cs = ds ∧ r = s := by
  induction cs generalizing ds with
  | nil =>
    cases ds with
    | nil => exact ⟨rfl, (List.cons.inj h).2⟩
    | cons d ds =>
      rw [List.flatMap_cons, List.append_assoc] at h
      exact absurd h (escapeChar_ne_quote d _ _)
  | cons c cs ih =>
    cases ds with
    | nil =>
      rw [List.flatMap_cons, List.append_assoc] at h
      exact absurd h.symm (escapeChar_ne_quote c _ _)
    | cons d ds =>
      rw [List.flatMap_cons, List.flatMap_cons, List.append_assoc, List.append_assoc]
        at h
      obtain ⟨rfl, hrest⟩ := escapeChar_append_inj h
      obtain ⟨rfl, rfl⟩ := ih hrest
      exact ⟨rfl, rfl⟩

theorem quote_append_inj {s t : String} {r r' : List Char}
    (h : quote s ++ r = quote t ++ r') : s = t ∧ r = r' := by
  rw [quote, quote, List.cons_append, List.cons_append, List.append_assoc,
    List.append_assoc] at h
  obtain ⟨hchars, hrest⟩ := escaped_append_inj (List.cons.inj h).2
  exact ⟨String.toList_inj.mp hchars, hrest⟩

/-- Text behind a value that does not go on as a number. -/
def Stop (r : List Char) : Prop := ∀ c ∈ r.head?, isDecimalChar c = false

theorem int_chars (n : Int) :
    ∀ c ∈ (toString n).toList, isDecimalChar c = true ∧ c ≠ '.' ∧ c ≠ 'e' := by
  have hdigit {c : Char} (hc : c.isDigit = true) : isDecimalChar c = true ∧
      c ≠ '.' ∧ c ≠ 'e' := by
    refine ⟨isDecimalChar_of_isDigit hc, ?_, ?_⟩ <;>
    · rintro rfl
      exact absurd hc (by decide)
  rcases toString_int n with ⟨k, rfl, hchars⟩ | ⟨k, -, rfl, hchars⟩
  · rw [hchars]
    exact fun c hc => hdigit (isDigit_of_mem_toDigits c hc)
  · rw [hchars, List.forall_mem_cons]
    exact ⟨by decide, fun c hc => hdigit (isDigit_of_mem_toDigits c hc)⟩

theorem toDigits_injective {n k : Nat} (h : Nat.toDigits 10 n = Nat.toDigits 10 k) :
    n = k := by
  rw [← Nat.ofDigitChars_ten_toDigits (n := n), h, Nat.ofDigitChars_ten_toDigits]

theorem int_chars_injective {n k : Int}
    (h : (toString n).toList = (toString k).toList) : n = k := by
  have hsign (n k : Nat) : '-' :: Nat.toDigits 10 n ≠ Nat.toDigits 10 k := fun h =>
    absurd (isDigit_of_mem_toDigits (d := k) '-' (h ▸ List.mem_cons_self)) (by decide)
  rcases toString_int n with ⟨n, rfl, hn⟩ | ⟨n, -, rfl, hn⟩ <;>
    rcases toString_int k with ⟨k, rfl, hk⟩ | ⟨k, -, rfl, hk⟩ <;>
    rw [hn, hk] at h
  · rw [toDigits_injective h]
  · exact absurd h.symm (hsign k n)
  · exact absurd h (hsign n k)
  · rw [toDigits_injective (List.cons.inj h).2]

theorem int_chars_ne_nil (n : Int) : (toString n).toList ≠ [] := by
  rcases toString_int n with ⟨k, -, hchars⟩ | ⟨k, -, -, hchars⟩
  · rw [hchars]
    exact Nat.toDigits_ne_nil
  · rw [hchars]
    exact List.cons_ne_nil _ _

inductive IsNumber : Json → Prop
  | int (n : Int) : IsNumber (.int n)
  | double (x : Binary64) : IsNumber (.double x)

theorem IsNumber.chars_decimal {v : Json} (h : IsNumber v) :
    ∀ c ∈ v.chars, isDecimalChar c = true := by
  cases h with
  | int n => exact fun c hc => (int_chars n c hc).1
  | double x => exact x.text_decimal

theorem int_ne_double (n : Int) (x : Binary64) :
    chars (.int n) ≠ chars (.double x) := by
  intro h
  rcases x.text_mark with hmark | hmark
  · exact (int_chars n '.'
      (by rw [show (toString n).toList = x.text.toList from h]; exact hmark)).2.1 rfl
  · exact (int_chars n 'e'
      (by rw [show (toString n).toList = x.text.toList from h]; exact hmark)).2.2 rfl

theorem number_append_inj {v w : Json} (hv : IsNumber v) (hw : IsNumber w)
    {r s : List Char} (hr : Stop r) (hs : Stop s) (h : v.chars ++ r = w.chars ++ s) :
    v = w ∧ r = s := by
  obtain ⟨hchars, hrest⟩ := append_inj_of_stop hv.chars_decimal hw.chars_decimal hr hs h
  refine ⟨?_, hrest⟩
  cases hv with
  | int n =>
    cases hw with
    | int k => exact congrArg Json.int (int_chars_injective hchars)
    | double y => exact absurd hchars (int_ne_double n y)
  | double x =>
    cases hw with
    | int k => exact absurd hchars.symm (int_ne_double k x)
    | double y =>
        exact congrArg Json.double
          (Binary64.text_injective (String.toList_inj.mp hchars))

def opening : Json → Char
  | .null => 'n'
  | .bool true => 't'
  | .bool false => 'f'
  | .int _ => '0'
  | .double _ => '0'
  | .str _ => '"'
  | .arr _ => '['
  | .obj _ => '\x7b'

def sort (c : Char) : Char := if isDecimalChar c then '0' else c

theorem chars_opening (v : Json) : ∃ c cs, v.chars = c :: cs ∧ sort c = v.opening := by
  have hnumber (v : Json) (hv : IsNumber v) (hne : v.chars ≠ []) :
      ∃ c cs, v.chars = c :: cs ∧ sort c = '0' := by
    obtain ⟨c, cs, hc⟩ := List.exists_cons_of_ne_nil hne
    exact ⟨c, cs, hc, if_pos (hv.chars_decimal c (by simp [hc]))⟩
  cases v with
  | null => exact ⟨_, _, rfl, by decide⟩
  | bool b => cases b <;> exact ⟨_, _, rfl, by decide⟩
  | int n =>
    exact hnumber _ (.int n) (int_chars_ne_nil n)
  | double x =>
    obtain ⟨c, cs, hc, -⟩ := x.text_head
    exact hnumber _ (.double x) (by rw [chars, hc]; exact List.cons_ne_nil _ _)
  | str s => exact ⟨_, _, rfl, rfl⟩
  | arr items => exact ⟨_, _, by rw [chars], rfl⟩
  | obj members => exact ⟨_, _, by rw [chars], rfl⟩

theorem opening_eq {v w : Json} {r s : List Char} (h : v.chars ++ r = w.chars ++ s) :
    v.opening = w.opening := by
  obtain ⟨c, cs, hc, hv⟩ := chars_opening v
  obtain ⟨d, ds, hd, hw⟩ := chars_opening w
  rw [hc, hd] at h
  rw [← hv, ← hw, (List.cons.inj h).1]

theorem stop_delimiter {c : Char} (hc : c = ',' ∨ c = ']' ∨ c = '\x7d')
    (r : List Char) : Stop (c :: r) := by
  rcases hc with rfl | rfl | rfl <;> simp [Stop, isDecimalChar]

def itemTail : List Json → List Char
  | [] => [']']
  | v :: rest => ',' :: (itemChars (v :: rest) ++ [']'])

theorem itemChars_cons (v : Json) (rest : List Json) :
    itemChars (v :: rest) ++ [']'] = v.chars ++ itemTail rest := by
  cases rest <;> simp [itemChars, itemTail]

theorem itemTail_stop (rest : List Json) (r : List Char) :
    Stop (itemTail rest ++ r) := by
  cases rest with
  | nil => exact stop_delimiter (.inr (.inl rfl)) r
  | cons v rest => exact stop_delimiter (.inl rfl) _

def memberTail : List (String × Json) → List Char
  | [] => ['\x7d']
  | m :: rest => ',' :: (memberChars (m :: rest) ++ ['\x7d'])

theorem memberChars_cons (k : String) (v : Json) (rest : List (String × Json)) :
    memberChars ((k, v) :: rest) ++ ['\x7d'] =
    quote k ++ ':' :: (v.chars ++ memberTail rest) := by
  cases rest <;> simp [memberChars, memberTail]

theorem memberTail_stop (rest : List (String × Json)) (r : List Char) :
    Stop (memberTail rest ++ r) := by
  cases rest with
  | nil => exact stop_delimiter (.inr (.inr rfl)) r
  | cons m rest => exact stop_delimiter (.inl rfl) _

theorem chars_ne_closing (v : Json) (a b : List Char) : v.chars ++ a ≠ ']' :: b := by
  obtain ⟨c, cs, hc, hopening⟩ := chars_opening v
  have hne : v.opening ≠ ']' := by
    cases v with
    | bool b => cases b <;> decide
    | _ => simp [opening]
  rw [hc]
  intro h
  obtain rfl : c = ']' := (List.cons.inj h).1
  exact hne (hopening.symm.trans (by decide))

mutual

/-- The text of a value says which value it is and where it ends. -/
theorem chars_append_inj : (v w : Json) → {r s : List Char} → Stop r → Stop s →
    v.chars ++ r = w.chars ++ s → v = w ∧ r = s
  | .null, w, r, s, _, _, h => by
    cases w with
    | null => exact ⟨rfl, List.append_cancel_left h⟩
    | bool b => cases b <;> exact absurd (opening_eq h) (by decide)
    | _ => simpa [opening] using opening_eq h
  | .bool b, w, r, s, _, _, h => by
    cases w with
    | bool b' =>
      cases b <;> cases b'
      · exact ⟨rfl, List.append_cancel_left h⟩
      · exact absurd (opening_eq h) (by decide)
      · exact absurd (opening_eq h) (by decide)
      · exact ⟨rfl, List.append_cancel_left h⟩
    | _ => cases b <;> simpa [opening] using opening_eq h
  | .int n, w, r, s, hr, hs, h => by
    cases w with
    | int k => exact number_append_inj (.int n) (.int k) hr hs h
    | double y => exact number_append_inj (.int n) (.double y) hr hs h
    | bool b => cases b <;> simpa [opening] using opening_eq h
    | _ => simpa [opening] using opening_eq h
  | .double x, w, r, s, hr, hs, h => by
    cases w with
    | int k => exact number_append_inj (.double x) (.int k) hr hs h
    | double y => exact number_append_inj (.double x) (.double y) hr hs h
    | bool b => cases b <;> simpa [opening] using opening_eq h
    | _ => simpa [opening] using opening_eq h
  | .str t, w, r, s, _, _, h => by
    cases w with
    | str t' =>
      obtain ⟨rfl, hrest⟩ := quote_append_inj h
      exact ⟨rfl, hrest⟩
    | bool b => cases b <;> simpa [opening] using opening_eq h
    | _ => simpa [opening] using opening_eq h
  | .arr items, w, r, s, _, _, h => by
    cases w with
    | arr items' =>
      rw [chars, chars, List.cons_append, List.cons_append] at h
      obtain ⟨rfl, hrest⟩ := itemChars_append_inj items items' (List.cons.inj h).2
      exact ⟨rfl, hrest⟩
    | bool b => cases b <;> simpa [opening] using opening_eq h
    | _ => simpa [opening] using opening_eq h
  | .obj members, w, r, s, _, _, h => by
    cases w with
    | obj members' =>
      rw [chars, chars, List.cons_append, List.cons_append] at h
      obtain ⟨rfl, hrest⟩ := memberChars_append_inj members members' (List.cons.inj h).2
      exact ⟨rfl, hrest⟩
    | bool b => cases b <;> simpa [opening] using opening_eq h
    | _ => simpa [opening] using opening_eq h

theorem itemChars_append_inj : (items items' : List Json) → {r s : List Char} →
    itemChars items ++ [']'] ++ r = itemChars items' ++ [']'] ++ s →
    items = items' ∧ r = s
  | [], [], r, s, h => ⟨rfl, List.append_cancel_left h⟩
  | [], w :: ws, r, s, h => by
    rw [itemChars_cons, List.append_assoc w.chars] at h
    exact absurd h.symm (chars_ne_closing w _ _)
  | v :: vs, [], r, s, h => by
    rw [itemChars_cons, List.append_assoc] at h
    exact absurd h (chars_ne_closing v _ _)
  | v :: vs, w :: ws, r, s, h => by
    rw [itemChars_cons, itemChars_cons, List.append_assoc, List.append_assoc] at h
    obtain ⟨rfl, htail⟩ := chars_append_inj v w (itemTail_stop vs r)
      (itemTail_stop ws s) h
    cases vs with
    | nil =>
      cases ws with
      | nil => exact ⟨rfl, List.append_cancel_left htail⟩
      | cons w' ws => exact absurd (List.cons.inj htail).1 (by decide)
    | cons v' vs =>
      cases ws with
      | nil => exact absurd (List.cons.inj htail).1 (by decide)
      | cons w' ws =>
        obtain ⟨hitems, hrest⟩ := itemChars_append_inj (v' :: vs) (w' :: ws)
          (List.cons.inj htail).2
        exact ⟨by rw [hitems], hrest⟩

theorem memberChars_append_inj :
    (members members' : List (String × Json)) → {r s : List Char} →
    memberChars members ++ ['\x7d'] ++ r = memberChars members' ++ ['\x7d'] ++ s →
      members = members' ∧ r = s
  | [], [], r, s, h => ⟨rfl, List.append_cancel_left h⟩
  | [], (k, w) :: ws, r, s, h => by
    rw [memberChars_cons] at h
    exact absurd (List.cons.inj h).1 (by decide)
  | (k, v) :: vs, [], r, s, h => by
    rw [memberChars_cons] at h
    exact absurd (List.cons.inj h).1 (by decide)
  | (k, v) :: vs, (k', w) :: ws, r, s, h => by
    rw [memberChars_cons, memberChars_cons, List.append_assoc, List.append_assoc] at h
    obtain ⟨rfl, hmember⟩ := quote_append_inj h
    rw [List.cons_append, List.cons_append, List.append_assoc, List.append_assoc]
      at hmember
    obtain ⟨rfl, htail⟩ := chars_append_inj v w (memberTail_stop vs r)
      (memberTail_stop ws s) (List.cons.inj hmember).2
    cases vs with
    | nil =>
      cases ws with
      | nil => exact ⟨rfl, List.append_cancel_left htail⟩
      | cons w' ws => exact absurd (List.cons.inj htail).1 (by decide)
    | cons v' vs =>
      cases ws with
      | nil => exact absurd (List.cons.inj htail).1 (by decide)
      | cons w' ws =>
        obtain ⟨hmembers, hrest⟩ :=
          memberChars_append_inj (v' :: vs) (w' :: ws) (List.cons.inj htail).2
        exact ⟨by rw [hmembers], hrest⟩

end

theorem chars_injective : Function.Injective chars := by
  intro v w h
  have hstop : Stop [] := by simp [Stop]
  exact (chars_append_inj v w hstop hstop (by rw [h])).1

theorem text_injective : Function.Injective text := by
  intro v w h
  exact chars_injective (String.ofList_injective h)

theorem bytes_injective : Function.Injective bytes := by
  intro v w h
  exact text_injective (String.toByteArray_inj.mp h)

end Resumable.Json
