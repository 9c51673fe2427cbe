import Resumable.Json.Reader
import Resumable.Json.Text

namespace Resumable.Json

namespace Machine

def movedTo (m : Machine) (p : Place) : Machine := { m with place := p }

@[simp] theorem movedTo_mode (m : Machine) (p : Place) :
    (m.movedTo p).mode = m.mode := rfl

@[simp] theorem movedTo_stack (m : Machine) (p : Place) :
    (m.movedTo p).stack = m.stack := rfl

@[simp] theorem movedTo_casual (m : Machine) (p : Place) :
    (m.movedTo p).casual = m.casual := rfl

@[simp] theorem movedTo_place (m : Machine) (p : Place) : (m.movedTo p).place = p := rfl

@[simp] theorem movedTo_movedTo (m : Machine) (p q : Place) :
    (m.movedTo p).movedTo q = m.movedTo q := rfl

theorem run_append (scope : Scope) (m m' : Machine) (a b : List UInt8)
    (h : run scope m a = .ok m') : run scope m (a ++ b) = run scope m' b := by
  induction a generalizing m with
  | nil =>
    obtain rfl : m = m' := by simpa [run] using h
    rfl
  | cons byte a ih =>
    rw [run] at h
    rw [List.cons_append, run]
    cases hs : step scope m byte with
    | error e => simp [hs] at h
    | ok m₁ => exact ih m₁ (by simpa only [hs] using h)

/-- From `m`, at whatever place, the bytes lead to `m'`. -/
def Passes (m : Machine) (bytes : List UInt8) (m' : Machine) : Prop :=
  ∀ p, ∃ q, run .wire (m.movedTo p) bytes = .ok (m'.movedTo q)

namespace Passes

variable {m m₁ m₂ : Machine} {a b : List UInt8}

theorem refl (m : Machine) : m.Passes [] m := fun p => ⟨p, rfl⟩

theorem trans (h₁ : m.Passes a m₁) (h₂ : m₁.Passes b m₂) : m.Passes (a ++ b) m₂ := by
  intro p
  obtain ⟨q, hq⟩ := h₁ p
  obtain ⟨r, hr⟩ := h₂ q
  exact ⟨r, by rw [run_append _ _ _ _ _ hq, hr]⟩

theorem one {byte : UInt8}
    (h : ∀ p, step .wire (m.movedTo p) byte = .ok (m₁.movedTo (p.after byte))) :
    m.Passes [byte] m₁ :=
  fun p => ⟨p.after byte, by rw [run, h p]; rfl⟩

theorem cons {byte : UInt8} (m₁ : Machine)
    (h : ∀ p, step .wire (m.movedTo p) byte = .ok (m₁.movedTo (p.after byte)))
    (h₁ : m₁.Passes b m₂) : m.Passes (byte :: b) m₂ :=
  (one h).trans h₁

end Passes

def delimiters : List UInt8 := [44, 93, 125]

/-- Two machines that nothing behind a value tells apart. -/
structure Settles (m m' : Machine) : Prop where
  step : ∀ p, ∀ b ∈ delimiters, step .wire (m.movedTo p) b = step .wire (m'.movedTo p) b
  finish : ∀ p, (m.movedTo p).finish = (m'.movedTo p).finish

theorem Settles.refl (m : Machine) : m.Settles m := ⟨fun _ _ _ => rfl, fun _ => rfl⟩

theorem Settles.passes {m m₁ m₂ : Machine} {b : UInt8} (h : m.Settles m₁)
    (hb : b ∈ delimiters)
    (h₁ : ∀ p, Machine.step .wire (m₁.movedTo p) b = .ok (m₂.movedTo (p.after b))) :
    m.Passes [b] m₂ :=
  .one fun p => by rw [h.step p b hb, h₁ p]

def within (mode : Mode) (stack : List Frame) : Machine :=
  ⟨mode, stack, none, false, .start⟩

/-- Where a machine inside of the given brackets takes a value. -/
def landed (stack : List Frame) (v : Json) : Machine :=
  (within .afterValue stack).deliver v

theorem deliver_movedTo (m : Machine) (p : Place) (v : Json) :
    (m.movedTo p).deliver v = (m.deliver v).movedTo p := by
  unfold deliver
  rcases m with ⟨mode, _ | ⟨_ | _, _⟩, result, casual, place⟩ <;> rfl

theorem deliver_within (mode : Mode) (stack : List Frame) (v : Json) :
    (within mode stack).deliver v = landed stack v := by
  unfold landed deliver
  rcases stack with _ | ⟨_ | _, _⟩ <;> rfl

@[simp] theorem landed_list (items : List Json) (rest : List Frame) (v : Json) :
    landed (.list items :: rest) v =
    within .afterValue (.list (v :: items) :: rest) := rfl

@[simp] theorem landed_object (members : List (String × Json)) (key : String)
    (rest : List Frame) (v : Json) :
    landed (.object members key :: rest) v =
      within .afterValue (.object ((key, v) :: members) "" :: rest) := rfl

theorem landed_mode (stack : List Frame) (v : Json) :
    (landed stack v).mode = .afterValue := by
  unfold landed deliver
  rcases stack with _ | ⟨_ | _, _⟩ <;> rfl

/-- The modes in which a value is due. -/
inductive Due : Mode → Prop
  | value : Due .value
  | firstItem : Due .firstItem
  | nextItem : Due .nextItem

/-- Where a value is due, a byte that is no blank and closes nothing begins it. -/
theorem step_due {mode : Mode} (hmode : Due mode) (stack : List Frame)
    (p : Place) {b : UInt8} (hblank : isBlank b = false) (hclose : b ≠ 93) :
    step .wire ((within mode stack).movedTo p) b =
      ((within mode stack).movedTo p).beginValue .wire b (p.after b) := by
  cases hmode <;> simp [step, within, hblank, hclose]

end Machine

open Machine

/-- The bytes write `v`: wherever a value is due with so many more brackets to open,
they lead to where `v` has been delivered. -/
def Spells (room : Nat) (bytes : List UInt8) (v : Json) : Prop :=
  ∀ mode stack, Due mode → stack.length + room ≤ 127 →
    ∃ m, (within mode stack).Passes bytes m ∧ m.Settles (landed stack v)

namespace Spells

variable {room : Nat} {bytes : List UInt8} {v : Json}

theorem of_passes
    (h : ∀ mode stack, Due mode → stack.length + room ≤ 127 →
      (within mode stack).Passes bytes (landed stack v)) : Spells room bytes v :=
  fun mode stack hmode hroom => ⟨_, h mode stack hmode hroom, .refl _⟩

theorem mono {more : Nat} (h : Spells room bytes v) (hmore : room ≤ more) :
    Spells more bytes v :=
  fun mode stack hmode hroom => h mode stack hmode (by omega)

/-- Behind a written value a delimiter leads on as behind the delivered one. -/
theorem passes_delimiter (h : Spells room bytes v) {mode : Mode} {stack : List Frame}
    (hmode : Due mode) (hroom : stack.length + room ≤ 127) {b : UInt8}
    (hb : b ∈ delimiters) {m : Machine}
    (hstep : ∀ p, step .wire ((landed stack v).movedTo p) b =
      .ok (m.movedTo (p.after b))) :
    (within mode stack).Passes (bytes ++ [b]) m := by
  obtain ⟨m₁, hpasses, hsettles⟩ := h mode stack hmode hroom
  exact hpasses.trans (hsettles.passes hb hstep)

theorem read (h : Spells room bytes v) (hroom : room ≤ 127) :
    read .wire bytes = .ok v := by
  obtain ⟨m, hpasses, hsettles⟩ := h .value [] .value (by simpa using hroom)
  obtain ⟨q, hq⟩ := hpasses .start
  have hfinish : (m.movedTo q).finish = .ok v := by rw [hsettles.finish q]; rfl
  have hstart : (within .value []).movedTo .start = Machine.start := rfl
  rw [Json.read, ← hstart, hq]
  exact hfinish

end Spells

end Resumable.Json
