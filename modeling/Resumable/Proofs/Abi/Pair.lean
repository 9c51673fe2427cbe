import Mathlib.Algebra.Group.Nat.Defs
import Resumable.Abi.Pair

namespace Resumable

namespace PairEncoding

def shift : PairEncoding → UInt64
  | .wide => 32
  | .safe => 31

def mask : PairEncoding → UInt64
  | .wide => 0xFFFFFFFF
  | .safe => 0x7FFFFFFF

def bits : PairEncoding → Nat
  | .wide => 64
  | .safe => 53

variable (encoding : PairEncoding)

theorem toNat_shift : encoding.shift.toNat = encoding.firstBits := by
  cases encoding <;> rfl

theorem toNat_mask : encoding.mask.toNat = 2 ^ encoding.firstBits - 1 := by
  cases encoding <;> rfl

theorem firstBits_le : encoding.firstBits ≤ 32 := by
  cases encoding <;> decide

theorem two_pow_firstBits_le : 2 ^ encoding.firstBits ≤ 4294967296 :=
  Nat.pow_le_pow_right (by decide) encoding.firstBits_le

theorem le_two_pow_firstBits : 2147483648 ≤ 2 ^ encoding.firstBits := by
  cases encoding <;> decide

theorem two_pow_bits :
    2 ^ encoding.bits = 2 ^ encoding.firstBits * (encoding.maxSecond.toNat + 1) := by
  cases encoding <;> decide

theorem toNat_ofNat_of_lt {n : Nat} (hn : n < 2 ^ encoding.firstBits) :
    (UInt32.ofNat n).toNat = n :=
  UInt32.toNat_ofNat_of_lt' (Nat.lt_of_lt_of_le hn encoding.two_pow_firstBits_le)

theorem one_le_maxSecond : 1 ≤ encoding.maxSecond := by
  cases encoding <;> decide

end PairEncoding

namespace Pair

/-- Both halves are in the range of the packing. -/
structure Fits (encoding : PairEncoding) (p : Pair) : Prop where
  first : p.first.toNat < 2 ^ encoding.firstBits
  second : p.second ≤ encoding.maxSecond

/-- The word is the number whose digits are the two halves. -/
structure Written (encoding : PairEncoding) (p : Pair) (word : UInt64) : Prop where
  fits : p.Fits encoding
  toNat : p.first.toNat + 2 ^ encoding.firstBits * p.second.toNat = word.toNat

/-- The word stands for the pair, both ways. -/
structure Packs (encoding : PairEncoding) (p : Pair) (word : UInt64) : Prop where
  encoded : p.encode encoding = .ok word
  decoded : decode encoding word = .ok p

def join (encoding : PairEncoding) (p : Pair) : UInt64 :=
  p.first.toUInt64 ||| (p.second.toUInt64 <<< encoding.shift)

def split (encoding : PairEncoding) (word : UInt64) : Pair :=
  ⟨(word &&& encoding.mask).toUInt32, (word >>> encoding.shift).toUInt32⟩

variable {encoding : PairEncoding} {p : Pair} {word : UInt64}

theorem encode_eq_join :
    p.encode encoding = .ok word ↔ p.Fits encoding ∧ p.join encoding = word := by
  cases encoding with
  | wide =>
      have hsecond : p.second ≤ PairEncoding.wide.maxSecond :=
        UInt32.le_iff_toNat_le.mpr (Nat.le_of_lt_succ p.second.toNat_lt)
      have hfits : p.Fits .wide := ⟨p.first.toNat_lt, hsecond⟩
      simp [encode, join, PairEncoding.shift, hfits]
  | safe =>
      have hfits : p.Fits .safe ↔ ¬ p.first > 2147483647 ∧ ¬ p.second > 4194303 := by
        rw [UInt32.not_lt, UInt32.not_lt, UInt32.le_iff_toNat_le, ← Nat.lt_succ_iff]
        exact ⟨fun h => ⟨h.first, h.second⟩, fun h => ⟨h.1, h.2⟩⟩
      by_cases hfirst : p.first > 2147483647 <;>
        by_cases hsecond : p.second > 4194303 <;>
        simp [encode, join, PairEncoding.shift, hfits, hfirst, hsecond]

theorem decode_eq_split :
    decode encoding word = .ok p ↔ word.toNat < 2 ^ encoding.bits ∧
    split encoding word = p := by
  cases encoding with
  | wide =>
      simp [decode, split, PairEncoding.shift, PairEncoding.mask, PairEncoding.bits,
        word.toNat_lt]
  | safe =>
      have hsmall : word.toNat < 2 ^ PairEncoding.safe.bits ↔
          ¬ word > 9007199254740991 := by
        rw [UInt64.not_lt, UInt64.le_iff_toNat_le]
        exact Nat.lt_succ_iff
      by_cases hlarge : word > 9007199254740991 <;>
        simp [decode, split, PairEncoding.shift, PairEncoding.mask, hsmall, hlarge]

theorem Written.lt (h : Written encoding p word) : word.toNat < 2 ^ encoding.bits := by
  have hsecond := UInt32.le_iff_toNat_le.mp h.fits.second
  calc
    word.toNat = p.first.toNat + 2 ^ encoding.firstBits * p.second.toNat := h.toNat.symm
    _ < 2 ^ encoding.firstBits + 2 ^ encoding.firstBits * p.second.toNat :=
      Nat.add_lt_add_right h.fits.first _
    _ = 2 ^ encoding.firstBits * (p.second.toNat + 1) := by
      rw [Nat.mul_succ, Nat.add_comm]
    _ ≤ 2 ^ encoding.firstBits * (encoding.maxSecond.toNat + 1) :=
      Nat.mul_le_mul_left _ (Nat.succ_le_succ hsecond)
    _ = 2 ^ encoding.bits := encoding.two_pow_bits.symm

theorem toNat_join (h : p.Fits encoding) :
    (p.join encoding).toNat = p.first.toNat + 2 ^ encoding.firstBits *
      p.second.toNat := by
  have hshift : encoding.firstBits < 64 :=
    Nat.lt_of_le_of_lt encoding.firstBits_le (by decide)
  have hsecond : p.second.toNat * 2 ^ encoding.firstBits < 2 ^ 64 := by
    calc
      p.second.toNat * 2 ^ encoding.firstBits < 2 ^ 32 * 2 ^ encoding.firstBits :=
        Nat.mul_lt_mul_of_pos_right p.second.toNat_lt (Nat.two_pow_pos _)
      _ ≤ 2 ^ 32 * 2 ^ 32 := Nat.mul_le_mul_left _ encoding.two_pow_firstBits_le
  rw [join, UInt64.toNat_or, UInt64.toNat_shiftLeft, UInt32.toNat_toUInt64,
    UInt32.toNat_toUInt64, encoding.toNat_shift, Nat.mod_eq_of_lt hshift,
    Nat.shiftLeft_eq, Nat.mod_eq_of_lt hsecond, Nat.or_comm, Nat.mul_comm,
    ← Nat.two_pow_add_eq_or_of_lt h.first, Nat.add_comm]

theorem toNat_split_first :
    (split encoding word).first.toNat = word.toNat % 2 ^ encoding.firstBits := by
  have hlt : word.toNat % 2 ^ encoding.firstBits < 2 ^ 32 :=
    Nat.lt_of_lt_of_le (Nat.mod_lt _ (Nat.two_pow_pos _)) encoding.two_pow_firstBits_le
  rw [split, UInt64.toNat_toUInt32, UInt64.toNat_and, encoding.toNat_mask,
    Nat.and_two_pow_sub_one_eq_mod, Nat.mod_eq_of_lt hlt]

theorem toNat_split_second (hword : word.toNat < 2 ^ encoding.bits) :
    (split encoding word).second.toNat = word.toNat / 2 ^ encoding.firstBits := by
  have hshift : encoding.firstBits < 64 :=
    Nat.lt_of_le_of_lt encoding.firstBits_le (by decide)
  rw [encoding.two_pow_bits] at hword
  have hlt : word.toNat / 2 ^ encoding.firstBits < 2 ^ 32 :=
    Nat.lt_of_lt_of_le (Nat.div_lt_of_lt_mul hword) encoding.maxSecond.toNat_lt
  rw [split, UInt64.toNat_toUInt32, UInt64.toNat_shiftRight, encoding.toNat_shift,
    Nat.mod_eq_of_lt hshift, Nat.shiftRight_eq_div_pow, Nat.mod_eq_of_lt hlt]

theorem split_written (hword : word.toNat < 2 ^ encoding.bits) :
    Written encoding (split encoding word) word := by
  have hfirst : (split encoding word).first.toNat =
      word.toNat % 2 ^ encoding.firstBits := toNat_split_first
  have hsecond := toNat_split_second hword
  refine ⟨⟨?_, ?_⟩, ?_⟩
  · rw [hfirst]
    exact Nat.mod_lt _ (Nat.two_pow_pos _)
  · rw [encoding.two_pow_bits] at hword
    rw [UInt32.le_iff_toNat_le, hsecond]
    exact Nat.le_of_lt_succ (Nat.div_lt_of_lt_mul hword)
  · rw [hfirst, hsecond, Nat.mod_add_div]

theorem Written.eq_split (h : Written encoding p word) : split encoding word = p := by
  obtain ⟨hdiv, hmod⟩ := (Nat.div_mod_unique (Nat.two_pow_pos _)).mpr
    ⟨h.toNat, h.fits.first⟩
  have hfirst : (split encoding word).first = p.first :=
    UInt32.toNat_inj.mp (toNat_split_first.trans hmod)
  have hsecond : (split encoding word).second = p.second :=
    UInt32.toNat_inj.mp ((toNat_split_second h.lt).trans hdiv)
  exact congrArg₂ Pair.mk hfirst hsecond

theorem encode_eq_ok_iff : p.encode encoding = .ok word ↔ Written encoding p word := by
  rw [encode_eq_join]
  constructor
  · rintro ⟨hfits, rfl⟩
    exact ⟨hfits, (toNat_join hfits).symm⟩
  · intro h
    exact ⟨h.fits, UInt64.toNat_inj.mp ((toNat_join h.fits).trans h.toNat)⟩

theorem decode_eq_ok_iff : decode encoding word = .ok p ↔ Written encoding p word := by
  rw [decode_eq_split]
  constructor
  · rintro ⟨hword, rfl⟩
    exact split_written hword
  · intro h
    exact ⟨h.lt, h.eq_split⟩

theorem Fits.written (h : p.Fits encoding) : Written encoding p (p.join encoding) :=
  ⟨h, (toNat_join h).symm⟩

theorem Fits.packs (h : p.Fits encoding) : ∃ word, Packs encoding p word :=
  ⟨_, encode_eq_ok_iff.mpr h.written, decode_eq_ok_iff.mpr h.written⟩

theorem exists_packs {n : Nat} {second : UInt32} (hn : n < 2 ^ encoding.firstBits)
    (hsecond : second ≤ encoding.maxSecond) :
    ∃ word, Packs encoding ⟨UInt32.ofNat n, second⟩ word := by
  apply Fits.packs
  refine ⟨?_, hsecond⟩
  rwa [encoding.toNat_ofNat_of_lt hn]

end Pair

namespace AbiResult

/-- The word stands for the result, both ways. -/
structure Packs (encoding : PairEncoding) (r : AbiResult) (word : UInt64) : Prop where
  encoded : r.encode encoding = .ok word
  decoded : decode encoding word = .ok r

/-- An error is the one that is known by its code. -/
def IsCanonical : AbiResult → Prop
  | .ok _ => True
  | .err errno => ∃ code, Errno.ofCode code = errno

variable {encoding : PairEncoding} {r : AbiResult} {p : Pair} {word : UInt64}

theorem toPair_second_le (r : AbiResult) (encoding : PairEncoding) :
    r.toPair.second ≤ encoding.maxSecond := by
  cases r with
  | ok value => exact UInt32.zero_le
  | err errno => exact encoding.one_le_maxSecond

/-- A pair is read as the result that it is told as. -/
theorem eq_toPair_iff : r.IsCanonical ∧ p = r.toPair ↔
    p.second = 0 ∧ r = .ok p.first ∨
    p.second = 1 ∧ r = .err (Errno.ofCode p.first) := by
  constructor
  · rintro ⟨hcanonical, rfl⟩
    cases r with
    | ok value => exact .inl ⟨rfl, rfl⟩
    | err errno =>
        obtain ⟨code, rfl⟩ := hcanonical
        exact .inr ⟨rfl, congrArg AbiResult.err (Errno.ofCode_code_ofCode code).symm⟩
  · rcases p with ⟨first, second⟩
    rintro (⟨rfl, rfl⟩ | ⟨rfl, rfl⟩)
    · exact ⟨trivial, rfl⟩
    · exact ⟨⟨first, rfl⟩, by rw [toPair, Errno.code_ofCode]⟩

theorem decode_eq_ok_iff :
    decode encoding word = .ok r ↔ r.IsCanonical ∧ Pair.decode encoding word =
    .ok r.toPair := by
  unfold decode
  cases Pair.decode encoding word with
  | error e => simp
  | ok p =>
      rw [Except.ok.injEq, eq_toPair_iff]
      by_cases hok : p.second = 0
      · simp [hok, eq_comm]
      · by_cases herr : p.second = 1
        · simp [herr, eq_comm]
        · simp [hok, herr]

/-- A canonical result comes back from its word, and no word is read as a result that
is packed otherwise. -/
theorem decode_eq_ok_iff_encode :
    decode encoding word = .ok r ↔ r.IsCanonical ∧ r.encode encoding = .ok word := by
  rw [decode_eq_ok_iff, Pair.decode_eq_ok_iff, encode, Pair.encode_eq_ok_iff]

theorem exists_encode_iff :
    (∃ word, r.encode encoding = .ok word) ↔
    r.toPair.first.toNat < 2 ^ encoding.firstBits := by
  constructor
  · rintro ⟨word, hword⟩
    exact (Pair.encode_eq_ok_iff.mp hword).fits.first
  · intro hfirst
    have hfits : r.toPair.Fits encoding := ⟨hfirst, r.toPair_second_le encoding⟩
    exact ⟨_, Pair.encode_eq_ok_iff.mpr hfits.written⟩

theorem exists_packs (hcanonical : r.IsCanonical)
    (hfirst : r.toPair.first.toNat < 2 ^ encoding.firstBits) :
    ∃ word, Packs encoding r word := by
  obtain ⟨word, hword⟩ := exists_encode_iff.mpr hfirst
  exact ⟨word, hword, decode_eq_ok_iff_encode.mpr ⟨hcanonical, hword⟩⟩

theorem exists_packs_ok {n : Nat} (hn : n < 2 ^ encoding.firstBits) :
    ∃ word, Packs encoding (.ok (UInt32.ofNat n)) word := by
  refine exists_packs (r := .ok (UInt32.ofNat n)) trivial ?_
  change (UInt32.ofNat n).toNat < _
  rwa [encoding.toNat_ofNat_of_lt hn]

theorem exists_packs_err (encoding : PairEncoding) (errno : Errno)
    (hcode : errno.code.toNat < 2147483648)
    (herrno : Errno.ofCode errno.code = errno) :
    ∃ word, Packs encoding (.err errno) word :=
  exists_packs ⟨_, herrno⟩ (Nat.lt_of_lt_of_le hcode encoding.le_two_pow_firstBits)

end AbiResult

end Resumable
