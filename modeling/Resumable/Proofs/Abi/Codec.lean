import Resumable.Proofs.Abi.Pair

namespace Resumable

namespace PairEncoding

def Packable : PairEncoding → Pair → Prop
  | .wide, _ => True
  | .safe, p => p.first.toNat < 2 ^ 31 ∧ p.second.toNat < 2 ^ 22

def Splittable : PairEncoding → UInt64 → Prop
  | .wide, _ => True
  | .safe, word => word.toNat < 2 ^ 53

theorem packable_iff_fits {encoding : PairEncoding} {p : Pair} :
    encoding.Packable p ↔ p.Fits encoding := by
  cases encoding with
  | wide =>
      have hsecond : p.second ≤ wide.maxSecond :=
        UInt32.le_iff_toNat_le.mpr (Nat.le_of_lt_succ p.second.toNat_lt)
      exact iff_of_true trivial ⟨p.first.toNat_lt, hsecond⟩
  | safe =>
      have hsecond : p.second.toNat < 2 ^ 22 ↔ p.second ≤ safe.maxSecond := by
        rw [UInt32.le_iff_toNat_le]
        exact Nat.lt_succ_iff
      exact ⟨fun h => ⟨h.1, hsecond.mp h.2⟩, fun h => ⟨h.first, hsecond.mpr h.second⟩⟩

theorem splittable_iff_lt {encoding : PairEncoding} {word : UInt64} :
    encoding.Splittable word ↔ word.toNat < 2 ^ encoding.bits := by
  cases encoding with
  | wide => exact iff_of_true trivial word.toNat_lt
  | safe => exact Iff.rfl

end PairEncoding

namespace Pair

variable {encoding : PairEncoding} {p q : Pair} {word : UInt64}

theorem exists_encode_iff :
    (∃ word, p.encode encoding = .ok word) ↔ encoding.Packable p := by
  rw [PairEncoding.packable_iff_fits]
  constructor
  · rintro ⟨word, hword⟩
    exact (encode_eq_ok_iff.mp hword).fits
  · intro hfits
    exact ⟨_, encode_eq_ok_iff.mpr hfits.written⟩

theorem exists_decode_iff :
    (∃ p, decode encoding word = .ok p) ↔ encoding.Splittable word := by
  rw [PairEncoding.splittable_iff_lt]
  constructor
  · rintro ⟨p, hp⟩
    exact (decode_eq_ok_iff.mp hp).lt
  · intro hlt
    exact ⟨_, decode_eq_ok_iff.mpr (split_written hlt)⟩

theorem Written.second_eq_zero (hwide : Written .wide p word)
    (hsafe : Written .safe q word) (heq : p.second = q.second) : p.second = 0 := by
  have hfirst : q.first.toNat < 2 ^ 31 := hsafe.fits.first
  have hnumber : p.first.toNat + 2 ^ 32 * p.second.toNat = q.first.toNat + 2 ^ 31 *
      q.second.toNat :=
    hwide.toNat.trans hsafe.toNat.symm
  rw [← heq] at hnumber
  have hzero : p.second.toNat = (0 : UInt32).toNat := by
    change p.second.toNat = 0
    omega
  exact UInt32.toNat_inj.mp hzero

theorem written_both_iff :
    (∃ word, Written .wide p word ∧ Written .safe p word) ↔
    p.second = 0 ∧ p.first.toNat < 2 ^ 31 := by
  constructor
  · rintro ⟨word, hwide, hsafe⟩
    exact ⟨hwide.second_eq_zero hsafe rfl, hsafe.fits.first⟩
  · rintro ⟨hsecond, hfirst⟩
    have hsafe : p.Fits .safe := ⟨hfirst, by rw [hsecond]; exact UInt32.zero_le⟩
    have hwide : p.Fits .wide :=
      ⟨p.first.toNat_lt, by rw [hsecond]; exact UInt32.zero_le⟩
    refine ⟨_, ⟨hwide, ?_⟩, hsafe.written⟩
    rw [← hsafe.written.toNat, hsecond]
    rfl

/-- Read by the other packing, a pair with a second half is refused or has another
second half. Only pairs without one, and whose first half has 31 bits, have one word
in both packings. -/
theorem packings_disagree (p : Pair) :
    (p.second ≠ 0 → ∀ packing reading word, packing ≠ reading →
      p.encode packing = .ok word → ∀ misread, decode reading word = .ok misread →
      misread.second ≠ p.second) ∧
    ((∃ word, p.encode .wide = .ok word ∧ p.encode .safe = .ok word) ↔
      p.second = 0 ∧ p.first.toNat < 2 ^ 31) := by
  constructor
  · intro hsecond packing reading word hother hpacked misread hmisread heq
    rw [encode_eq_ok_iff] at hpacked
    rw [decode_eq_ok_iff] at hmisread
    apply hsecond
    match packing, reading with
    | .wide, .safe => exact hpacked.second_eq_zero hmisread heq.symm
    | .safe, .wide => exact heq.symm.trans (hmisread.second_eq_zero hpacked heq)
    | .wide, .wide | .safe, .safe => exact absurd rfl hother
  · simp only [encode_eq_ok_iff]
    exact written_both_iff

/-- A reply of five bytes under the handle 3, in the wide packing and read in
the safe one. -/
theorem stashed_misread :
    encode .wide ⟨5, 3⟩ = .ok 0x300000005 ∧ decode .safe 0x300000005 = .ok ⟨5, 6⟩ ∧
    (6 : UInt32) ≠ 3 := by
  have hpacked : encode .wide ⟨5, 3⟩ = .ok 0x300000005 := rfl
  have hmisread : decode .safe 0x300000005 = .ok ⟨5, 6⟩ := rfl
  exact ⟨hpacked, hmisread,
    (packings_disagree ⟨5, 3⟩).1 (by decide) .wide .safe _ (by decide)
      hpacked _ hmisread⟩

end Pair

namespace AbiResult

variable {encoding : PairEncoding} {word : UInt64}

theorem exists_decode_iff :
    (∃ r, decode encoding word = .ok r) ↔ word.toNat / 2 ^ encoding.firstBits ≤ 1 := by
  constructor
  · rintro ⟨r, hr⟩
    have hwritten := Pair.decode_eq_ok_iff.mp (decode_eq_ok_iff.mp hr).2
    rw [← Pair.toNat_split_second hwritten.lt, hwritten.eq_split]
    cases r with
    | ok value => exact Nat.zero_le 1
    | err errno => exact Nat.le_refl 1
  · intro htag
    have hlt : word.toNat < 2 ^ encoding.bits := by
      have hone := UInt32.le_iff_toNat_le.mp encoding.one_le_maxSecond
      rw [encoding.two_pow_bits, Nat.mul_comm,
        ← Nat.div_lt_iff_lt_mul (Nat.two_pow_pos _)]
      exact Nat.lt_succ_of_le (Nat.le_trans htag hone)
    have hpair := Pair.decode_eq_ok_iff.mpr (Pair.split_written hlt)
    rw [← Pair.toNat_split_second hlt] at htag
    generalize Pair.split encoding word = p at hpair htag
    have hread {r : AbiResult} (h : p.second = 0 ∧ r = .ok p.first ∨
        p.second = 1 ∧ r = .err (Errno.ofCode p.first)) : decode encoding
          word = .ok r := by
      obtain ⟨hcanonical, hp⟩ := eq_toPair_iff.mpr h
      exact decode_eq_ok_iff.mpr ⟨hcanonical, hp ▸ hpair⟩
    rcases Nat.le_one_iff_eq_zero_or_eq_one.mp htag with hzero | hone
    · exact ⟨_, hread (.inl ⟨UInt32.toNat_inj.mp hzero, rfl⟩)⟩
    · exact ⟨_, hread (.inr ⟨UInt32.toNat_inj.mp hone, rfl⟩)⟩

end AbiResult

namespace Errno

theorem isCanonical_ofKind (kind : FailureKind) :
    (AbiResult.err (ofKind kind)).IsCanonical := by
  refine ⟨(ofKind kind).code, ?_⟩
  cases kind <;> rfl

theorem isCanonical_ofSystem (code : Int) :
    (AbiResult.err (ofSystem code)).IsCanonical := by
  unfold ofSystem
  split
  · exact ⟨_, rfl⟩
  · exact isCanonical_ofKind _

end Errno

namespace PairEncoding

/-- Packing and splitting undo each other, and each refuses what the other never
gives. So it is with results whose errors are known by their codes, and no other
errors are read or made of a failure. -/
theorem packing_exact (encoding : PairEncoding) :
    (∀ p word, p.encode encoding = .ok word ↔ Pair.decode encoding word = .ok p) ∧
    (∀ p, (∃ word, p.encode encoding = .ok word) ↔ encoding.Packable p) ∧
    (∀ word, (∃ p, Pair.decode encoding word = .ok p) ↔ encoding.Splittable word) ∧
    (∀ r word, AbiResult.decode encoding word = .ok r ↔
      r.IsCanonical ∧ r.encode encoding = .ok word) ∧
    (∀ r : AbiResult, (∃ word, r.encode encoding = .ok word) ↔
      r.toPair.first.toNat < 2 ^ encoding.firstBits) ∧
    (∀ word, (∃ r, AbiResult.decode encoding word = .ok r) ↔
      word.toNat / 2 ^ encoding.firstBits ≤ 1) ∧
    (∀ kind, (AbiResult.err (.ofKind kind)).IsCanonical) ∧
    ∀ code, (AbiResult.err (.ofSystem code)).IsCanonical := by
  refine ⟨?_, fun _ => Pair.exists_encode_iff, fun _ => Pair.exists_decode_iff, ?_,
    fun _ => AbiResult.exists_encode_iff, fun _ => AbiResult.exists_decode_iff,
    Errno.isCanonical_ofKind, Errno.isCanonical_ofSystem⟩
  · intro p word
    rw [Pair.encode_eq_ok_iff, Pair.decode_eq_ok_iff]
  · intro r word
    exact AbiResult.decode_eq_ok_iff_encode

/-- An error that goes by the code of another comes back as the other. -/
example : (AbiResult.err (.other 9)).encode .safe = .ok 0x80000009 ∧
    AbiResult.decode .safe 0x80000009 = .ok (.err .badF) := ⟨rfl, rfl⟩

end PairEncoding

end Resumable
