import Resumable.Message.Incoming
import Resumable.Proofs.Json.Members

namespace Resumable

theorem bind_eq_ok {ε α β : Type} {x : Except ε α} {f : α → Except ε β} {b : β} :
    x >>= f = .ok b ↔ ∃ a, x = .ok a ∧ f a = .ok b := by
  cases x with
  | error e => exact ⟨nofun, fun ⟨_, h, _⟩ => nomatch h⟩
  | ok a => exact ⟨fun h => ⟨a, rfl, h⟩, fun ⟨_, h, hf⟩ => by cases h; exact hf⟩

theorem map_eq_ok {ε α β : Type} {x : Except ε α} {f : α → β} {b : β} :
    x.map f = .ok b ↔ ∃ a, x = .ok a ∧ f a = b := by
  cases x with
  | error e => exact ⟨nofun, fun ⟨_, h, _⟩ => nomatch h⟩
  | ok a => simp [Except.map]

theorem mapM_eq_ok {ε α β : Type} {read : α → Except ε β} (write : β → α) (P : β → Prop)
    (h : ∀ a b, read a = .ok b ↔ a = write b ∧ P b) (as : List α) (bs : List β) :
    as.mapM read = .ok bs ↔ as = bs.map write ∧ ∀ b ∈ bs, P b := by
  induction as generalizing bs with
  | nil =>
    cases bs with
    | nil => simp [pure, Except.pure]
    | cons b bs => simp [pure, Except.pure]
  | cons a as ih =>
    rw [List.mapM_cons, bind_eq_ok]
    constructor
    · rintro ⟨b, hb, hrest⟩
      obtain ⟨bs', hbs', hcons⟩ := bind_eq_ok.mp hrest
      cases hcons
      obtain ⟨rfl, hP⟩ := (h a b).mp hb
      obtain ⟨rfl, hPs⟩ := (ih bs').mp hbs'
      exact ⟨rfl, List.forall_mem_cons.mpr ⟨hP, hPs⟩⟩
    · rintro ⟨hcons, hP⟩
      cases bs with
      | nil => cases hcons
      | cons b bs =>
        obtain ⟨ha, has⟩ := List.cons.inj hcons
        rw [List.forall_mem_cons] at hP
        exact ⟨b, (h a b).mpr ⟨ha, hP.1⟩,
          bind_eq_ok.mpr ⟨bs, (ih bs).mpr ⟨has, hP.2⟩, rfl⟩⟩

namespace Json

theorem expectText_eq_ok {v : Json} {s : String} :
    v.expectText = .ok s ↔ v = .str s := by
  cases v <;> simp [expectText]

theorem expectBool_eq_ok {v : Json} {b : Bool} :
    v.expectBool = .ok b ↔ v = .bool b := by
  cases v <;> simp [expectBool]

theorem expectNat_eq_ok (limit : Nat) (expected : Expected) {n : Nat} {v : Json} :
    v.expectNat limit expected = .ok n ↔ v = .int n ∧ n ≤ limit := by
  cases v with
  | int k =>
    rw [expectNat]
    split_ifs with hk
    · rw [Except.ok.injEq, Json.int.injEq]
      omega
    · refine ⟨nofun, fun ⟨heq, hle⟩ => absurd ?_ hk⟩
      rw [Json.int.injEq] at heq
      omega
  | _ => simp [expectNat]

def texts (ss : List String) : Json := .arr (ss.map .str)

def octets (bs : ByteArray) : Json := .arr (bs.data.toList.map fun b => .int b.toNat)

theorem expectTexts_eq_ok {v : Json} {ss : List String} :
    v.expectTexts = .ok ss ↔ v = texts ss := by
  cases v with
  | arr items =>
    rw [expectTexts, mapM_eq_ok .str (fun _ => True)
      (fun a b => by rw [expectText_eq_ok, and_true]), texts, Json.arr.injEq]
    simp
  | _ => simp [expectTexts, texts]

theorem toNat_ofNat_octets {ns : List Nat} (h : ∀ n ∈ ns, n ≤ 255) :
    (ns.map UInt8.ofNat).map UInt8.toNat = ns := by
  rw [List.map_map]
  refine (List.map_congr_left (g := id) fun n hn => ?_).trans (List.map_id ns)
  have := h n hn
  rw [Function.comp_apply, UInt8.toNat_ofNat']
  exact Nat.mod_eq_of_lt (by omega)

theorem expectBytes_eq_ok {v : Json} {bs : ByteArray} :
    v.expectBytes = .ok bs ↔ v = octets bs := by
  cases v with
  | arr items =>
    have hread (ns : List Nat) := mapM_eq_ok (fun n : Nat => Json.int n) (· ≤ 255)
      (fun a b => expectNat_eq_ok 255 .u8) items ns
    rw [expectBytes, map_eq_ok, octets, Json.arr.injEq]
    constructor
    · rintro ⟨ns, hns, rfl⟩
      obtain ⟨rfl, hsmall⟩ := (hread ns).mp hns
      conv_lhs => rw [← toNat_ofNat_octets hsmall]
      simp
    · rintro rfl
      refine ⟨bs.data.toList.map UInt8.toNat, (hread _).mpr ⟨by simp, ?_⟩, ?_⟩
      · intro n hn
        obtain ⟨b, -, rfl⟩ := List.mem_map.mp hn
        have := b.toNat_lt
        omega
      · have hsame : (UInt8.ofNat ∘ UInt8.toNat : UInt8 → UInt8) = id :=
          funext fun b => UInt8.ofNat_toNat
        rw [List.map_map, hsame, List.map_id]
  | _ => simp [expectBytes, octets]

theorem expectHeaders_eq_ok {v : Json} {h : Headers} :
    v.expectHeaders = .ok h ↔
    v = .obj (h.map fun entry => (entry.1, texts entry.2)) := by
  cases v with
  | obj members =>
    have hread (m : String × Json) (entry : String × List String) :
        (m.2.expectTexts).map (m.1, ·) = .ok entry ↔
          m = (entry.1, texts entry.2) ∧ True := by
      rw [map_eq_ok, and_true]
      constructor
      · rintro ⟨ss, hss, rfl⟩
        rw [← expectTexts_eq_ok.mp hss]
      · rintro rfl
        exact ⟨entry.2, expectTexts_eq_ok.mpr rfl, rfl⟩
    rw [expectHeaders, mapM_eq_ok _ _ hread, Json.obj.injEq]
    simp
  | _ => simp [expectHeaders]

section Members

variable {members : List (String × Json)} {name : String}

theorem require_eq_ok {v : Json} :
    require members name = .ok v ↔ (Json.obj members).get? name = some v := by
  rw [require, get?]
  cases members.find? (·.1 == name) <;> simp

theorem optional_eq_ok {α : Type} {absent a : α} {read : Json → Except Mismatch α} :
    optional members name absent read = .ok a ↔
      ((Json.obj members).get? name = none ∧ a = absent) ∨
        ∃ v, (Json.obj members).get? name = some v ∧ read v = .ok a := by
  rw [optional, get?]
  cases members.find? (·.1 == name) <;> simp [eq_comm]

theorem check_eq_ok {α : Type} {read : Json → Except Mismatch α} {done : Unit} :
    check members name read = .ok done ↔
      ∀ v, (Json.obj members).get? name = some v → ∃ a, read v = .ok a := by
  rw [check, get?]
  cases members.find? (·.1 == name) with
  | none => simp
  | some m => simp [map_eq_ok]

end Members

end Json

end Resumable
