import Mathlib.Tactic.SplitIfs
import Resumable.Proofs.Json.Passing

namespace Resumable.Json

def utf8 (cs : List Char) : List UInt8 := cs.flatMap String.utf8EncodeChar

@[simp] theorem utf8_nil : utf8 [] = [] := rfl

@[simp] theorem utf8_cons (c : Char) (cs : List Char) :
    utf8 (c :: cs) = String.utf8EncodeChar c ++ utf8 cs := rfl

@[simp] theorem utf8_append (a b : List Char) : utf8 (a ++ b) = utf8 a ++ utf8 b := by
  simp [utf8]

theorem utf8EncodeChar_ascii {c : Char} (h : c.toNat ≤ 127) :
    String.utf8EncodeChar c = [UInt8.ofNat c.toNat] := by
  have htoNat : c.val.toNat = c.toNat := rfl
  simp only [String.utf8EncodeChar, htoNat, h, if_true]

theorem toList_loop (bytes : ByteArray) (i : Nat) (read : List UInt8) :
    ByteArray.toList.loop bytes i read = read.reverse ++ bytes.data.toList.drop i := by
  fun_induction ByteArray.toList.loop bytes i read with
  | case1 i read hi ih =>
    have hlt : i < bytes.data.toList.length := by simpa using hi
    rw [ih, List.drop_eq_getElem_cons hlt]
    simp [ByteArray.get!, getElem!_pos bytes.data i hi]
  | case2 i read hi =>
    have hle : bytes.data.toList.length ≤ i := by simpa using hi
    simp [List.drop_eq_nil_of_le hle]

@[simp] theorem toList_eq_data (bytes : ByteArray) :
    bytes.toList = bytes.data.toList := by
  simp [ByteArray.toList, toList_loop]

theorem toList_toUTF8 (s : String) : s.toUTF8.toList = utf8 s.toList := by
  rw [toList_eq_data, String.toUTF8_eq_toByteArray, ← String.utf8Encode_toList]
  exact List.toList_data_toByteArray

theorem toList_bytes (v : Json) : v.bytes.toList = utf8 v.chars := by
  rw [bytes, toList_toUTF8, text, String.toList_ofList]

theorem size_bytes (v : Json) : v.bytes.size = (utf8 v.chars).length := by
  rw [← toList_bytes, toList_eq_data]
  rfl

theorem fromUTF8?_utf8 (s : String) :
    String.fromUTF8? ⟨(utf8 s.toList).toArray⟩ = some s := by
  have hbytes : (⟨(utf8 s.toList).toArray⟩ : ByteArray) = s.toByteArray := by
    rw [← String.utf8Encode_toList]
    exact ByteArray.ext List.data_toByteArray.symm
  rw [hbytes, String.fromUTF8?, dif_pos s.isValidUTF8]
  exact congrArg some (String.toByteArray_inj.mp rfl)

def Unescaped (b : UInt8) : Prop := b ≠ 34 ∧ b ≠ 92 ∧ ¬ b < 32

theorem unescaped_of_le {b : UInt8} (h : 128 ≤ b.toNat) : Unescaped b := by
  refine ⟨?_, ?_, ?_⟩
  · rintro rfl
    simp at h
  · rintro rfl
    simp at h
  · rw [UInt8.lt_iff_toNat_lt]
    simp
    omega

theorem le_toNat_of_mem {c : Char} (h : 127 < c.toNat) {b : UInt8}
    (hb : b ∈ String.utf8EncodeChar c) : 128 ≤ b.toNat := by
  have htoNat : c.val.toNat = c.toNat := rfl
  simp only [String.utf8EncodeChar, htoNat, Nat.not_le.mpr h, if_false] at hb
  split at hb
  · simp only [List.mem_cons, List.not_mem_nil, or_false] at hb
    rcases hb with rfl | rfl <;> rw [UInt8.toNat_ofNat'] <;> omega
  · split at hb
    · simp only [List.mem_cons, List.not_mem_nil, or_false] at hb
      rcases hb with rfl | rfl | rfl <;> rw [UInt8.toNat_ofNat'] <;> omega
    · simp only [List.mem_cons, List.not_mem_nil, or_false] at hb
      rcases hb with rfl | rfl | rfl | rfl <;> rw [UInt8.toNat_ofNat'] <;> omega

theorem unescaped_of_mem {c : Char} (hquote : c ≠ '"') (hback : c ≠ '\\')
    (hsize : 32 ≤ c.toNat) {b : UInt8} (hb : b ∈ String.utf8EncodeChar c) :
    Unescaped b := by
  by_cases hascii : c.toNat ≤ 127
  · rw [utf8EncodeChar_ascii hascii, List.mem_singleton] at hb
    have hnat : b.toNat = c.toNat := by
      rw [hb, UInt8.toNat_ofNat']
      omega
    refine ⟨?_, ?_, ?_⟩
    · rintro rfl
      exact hquote (Char.toNat_inj.mp (by simpa using hnat.symm))
    · rintro rfl
      exact hback (Char.toNat_inj.mp (by simpa using hnat.symm))
    · rw [UInt8.lt_iff_toNat_lt, hnat]
      simpa using hsize
  · exact unescaped_of_le (le_toNat_of_mem (Nat.not_le.mp hascii) hb)

open Machine

variable {isKey : Bool} {stack : List Frame}

/-- The machine inside a string, behind the given bytes of it, last first. -/
abbrev inString (isKey : Bool) (stack : List Frame) (text : List UInt8) : Machine :=
  within (.string isKey text .plain) stack

theorem passes_unescaped (text : List UInt8) {b : UInt8} (hb : Unescaped b) :
    (inString isKey stack text).Passes [b] (inString isKey stack (b :: text)) :=
  .one fun p => by simp [step, within, movedTo, stringStep, hb.1, hb.2.1, hb.2.2]

theorem passes_allUnescaped (text bytes : List UInt8)
    (hbytes : ∀ b ∈ bytes, Unescaped b) :
    (inString isKey stack text).Passes bytes
      (inString isKey stack (bytes.reverse ++ text)) := by
  induction bytes generalizing text with
  | nil => exact .refl _
  | cons b bytes ih =>
    rw [List.forall_mem_cons] at hbytes
    simpa using (passes_unescaped text hbytes.1).trans (ih (b :: text) hbytes.2)

theorem passes_short (text : List UInt8) {letter byte : UInt8}
    (h : (letter, byte) ∈
      [(34, 34), (92, 92), (98, 8), (102, 12), (110, 10), (114, 13),
        ((116, 9) : UInt8 × UInt8)]) :
    (inString isKey stack text).Passes [92, letter]
      (inString isKey stack (byte :: text)) := by
  refine .cons (within (.string isKey text .escape) stack) (fun p => rfl)
    (.one fun p => ?_)
  simp only [List.mem_cons, Prod.mk.injEq, List.not_mem_nil, or_false] at h
  rcases h with ⟨rfl, rfl⟩ | ⟨rfl, rfl⟩ | ⟨rfl, rfl⟩ | ⟨rfl, rfl⟩ | ⟨rfl, rfl⟩
    | ⟨rfl, rfl⟩ |
    ⟨rfl, rfl⟩ <;> rfl

def hexByte (n : Nat) : UInt8 := UInt8.ofNat (hexDigit n).toNat

theorem utf8EncodeChar_hexDigit :
    ∀ n < 16, String.utf8EncodeChar (hexDigit n) = [hexByte n] := by
  decide

theorem hexNumber?_control :
    ∀ n < 32, hexNumber? [48, 48, hexByte (n / 16), hexByte (n % 16)] = some n := by
  decide

theorem passes_hex (text : List UInt8) {c : Char} (hc : c.toNat < 32) :
    (inString isKey stack text).Passes
      (utf8 ['\\', 'u', '0', '0', hexDigit (c.toNat / 16), hexDigit (c.toNat % 16)])
      (inString isKey stack ((String.utf8EncodeChar c).reverse ++ text)) := by
  have hbytes :
      utf8 ['\\', 'u', '0', '0', hexDigit (c.toNat / 16), hexDigit (c.toNat % 16)] =
      [92, 117, 48, 48, hexByte (c.toNat / 16), hexByte (c.toNat % 16)] := by
    simp only [utf8_cons, utf8_nil, utf8EncodeChar_hexDigit (c.toNat / 16) (by omega),
      utf8EncodeChar_hexDigit (c.toNat % 16) (by omega)]
    rfl
  rw [hbytes]
  refine .cons (within (.string isKey text .escape) stack) (fun p => rfl)
    (.cons (within (.string isKey text (.hex none [])) stack) (fun p => rfl)
      (.cons (within (.string isKey text (.hex none [48])) stack) (fun p => rfl)
        (.cons (within (.string isKey text (.hex none [48, 48])) stack) (fun p => rfl)
          (.cons
            (within (.string isKey text (.hex none [48, 48, hexByte (c.toNat / 16)]))
              stack)
            (fun p => rfl) (.one fun p => ?_)))))
  have htrail : ¬ (0xDC00 ≤ c.toNat ∧ c.toNat ≤ 0xDFFF) := by omega
  have hlead : ¬ (0xD800 ≤ c.toNat ∧ c.toNat ≤ 0xDBFF) := by omega
  simp [step, within, movedTo, stringStep, hexNumber?_control c.toNat hc, htrail,
    hlead, pushCodePoint, Char.ofNat_toNat]

/-- The spelling of a character takes the machine past the character. -/
theorem passes_escapeChar (text : List UInt8) (c : Char) :
    (inString isKey stack text).Passes (utf8 (escapeChar c))
      (inString isKey stack ((String.utf8EncodeChar c).reverse ++ text)) := by
  unfold escapeChar
  split_ifs with hquote hback hline hreturn htab hbell hfeed hcontrol
  · subst hquote
    exact passes_short text (by decide)
  · subst hback
    exact passes_short text (by decide)
  · subst hline
    exact passes_short text (by decide)
  · subst hreturn
    exact passes_short text (by decide)
  · subst htab
    exact passes_short text (by decide)
  · subst hbell
    exact passes_short text (by decide)
  · subst hfeed
    exact passes_short text (by decide)
  · exact passes_hex text hcontrol
  · rw [utf8_cons, utf8_nil, List.append_nil]
    exact passes_allUnescaped text _ fun b hb =>
      unescaped_of_mem hquote hback (Nat.not_lt.mp hcontrol) hb

theorem passes_escaped (text : List UInt8) (cs : List Char) :
    (inString isKey stack text).Passes (utf8 (cs.flatMap escapeChar))
      (inString isKey stack ((utf8 cs).reverse ++ text)) := by
  induction cs generalizing text with
  | nil => exact .refl _
  | cons c cs ih =>
    rw [List.flatMap_cons, utf8_append]
    simpa using (passes_escapeChar text c).trans
      (ih ((String.utf8EncodeChar c).reverse ++ text))

theorem utf8_quote (s : String) :
    utf8 (quote s) = 34 :: (utf8 (s.toList.flatMap escapeChar) ++ [34]) := by
  rw [quote, utf8_cons, utf8_append]
  rfl

theorem endString_value (m : Machine) (s : String) (p : Place) :
    m.endString .wire false (utf8 s.toList).reverse p =
    .ok ((m.deliver (.str s)).movedTo p) := by
  simp [endString, fromUTF8?_utf8, movedTo]

theorem spells_quote (s : String) : Spells 0 (utf8 (quote s)) (.str s) := by
  refine .of_passes fun mode stack hmode _ => ?_
  rw [utf8_quote]
  refine .cons (inString false stack []) (fun p => ?_)
    ((passes_escaped [] s.toList).trans (.one fun p => ?_))
  · rw [step_due hmode stack p (by decide) (by decide)]
    rfl
  · have hend :=
      endString_value ((inString false stack (utf8 s.toList).reverse).movedTo p)
        s (p.after 34)
    rw [deliver_movedTo, movedTo_movedTo, deliver_within] at hend
    rw [List.append_nil, ← hend]
    rfl

theorem passes_key {mode : Mode} (hmode : mode = .firstKey ∨ mode = .nextKey)
    (members : List (String × Json)) (key : String) (rest : List Frame) (k : String) :
    (within mode (.object members key :: rest)).Passes (utf8 (quote k))
      (within .colon (.object members k :: rest)) := by
  rw [utf8_quote]
  refine .cons (inString true (.object members key :: rest) []) (fun p => ?_)
    ((passes_escaped [] k.toList).trans (.one fun p => ?_))
  · rcases hmode with rfl | rfl <;> rfl
  · simp [step, within, stringStep, endString, fromUTF8?_utf8, movedTo, Scope.wire]

end Resumable.Json
