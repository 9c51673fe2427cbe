import Resumable.Config.Runtime
import Resumable.Proofs.Core.Region

namespace Resumable

namespace Memory

def word (m : Memory) (a : Nat) : Nat :=
  (m.byte a).toNat + 256 * (m.byte (a + 1)).toNat + 65536 * (m.byte (a + 2)).toNat +
    16777216 * (m.byte (a + 3)).toNat

theorem toNat_littleEndian (w : UInt32) :
    w.toUInt8.toNat + 256 * (w >>> 8).toUInt8.toNat + 65536 * (w >>> 16).toUInt8.toNat +
      16777216 * (w >>> 24).toUInt8.toNat = w.toNat := by
  have hlt := w.toNat_lt
  have hshift (k : UInt32) : (w >>> k).toUInt8.toNat =
      w.toNat / 2 ^ (k.toNat % 32) % 256 := by
    rw [UInt32.toNat_toUInt8, UInt32.toNat_shiftRight, Nat.shiftRight_eq_div_pow]
  have h₀ : w.toUInt8.toNat = w.toNat % 256 := UInt32.toNat_toUInt8 w
  have h₁ : (w >>> 8).toUInt8.toNat = w.toNat / 256 % 256 := hshift 8
  have h₂ : (w >>> 16).toUInt8.toNat = w.toNat / 65536 % 256 := hshift 16
  have h₃ : (w >>> 24).toUInt8.toNat = w.toNat / 16777216 % 256 := hshift 24
  rw [h₀, h₁, h₂, h₃]
  omega

variable {m m' : Memory} {start : Nat} {w : UInt32}

theorem word_of_write? (before after : List UInt8)
    (h : m.write? start ⟨(before ++ (littleEndian w ++ after)).toArray⟩ = some m') :
    m'.word (start + before.length) = w.toNat := by
  have hbyte (k : Nat) (hk : k < 4) :
      m'.byte (start + before.length + k) = (littleEndian w)[k]?.getD 0 := by
    have hlittle : (littleEndian w).length = 4 := rfl
    rw [Nat.add_assoc, byte_of_write? h, Array.getD_eq_getD_getElem?]
    · rw [List.getElem?_toArray, List.getElem?_append_right (Nat.le_add_right _ _),
        Nat.add_sub_cancel_left, List.getElem?_append_left (hlittle ▸ hk)]
    · change before.length + k < (before ++ (littleEndian w ++ after)).toArray.size
      simp [hlittle]
      omega
  have h₀ := hbyte 0 (by omega)
  rw [Nat.add_zero] at h₀
  rw [word, h₀, hbyte 1 (by omega), hbyte 2 (by omega), hbyte 3 (by omega)]
  exact toNat_littleEndian w

end Memory

end Resumable
