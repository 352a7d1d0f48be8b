import Mathlib
import ServerDiscovery.Exchange.Policy

/-! # Factors that do not shrink

The factor of a burst is a 64-bit floating-point number that is multiplied by the growth of the
exchange after each attempt, however many attempts there are.  This module is about the products
themselves, whatever they are used for: as long as both factors are at least one, their product is
too, and rounding never makes its whole part smaller than that of the first.  A product that is too
large becomes infinity and stays it.

Such a number is infinity or has a mantissa of 53 bits (`FullMantissa`) and a weight of
`2 ^ (k - 52)`: that is `AtLeastOne`.  The product of two mantissas has 105 bits or 106, so 52 of
them are dropped at least.  If exactly 52 are dropped, what is kept is no less than the first
mantissa, because the second is `2 ^ 52` at least; if more are, the weight makes up for it.
-/

namespace ServerDiscovery.Factor

open Float.Model (Format UnpackedFloat totalExponent)
open Float.Model.UnpackedFloat (ExtendedMantissa Sign Accuracy)

variable {m n r k l i j : Nat} {e : Int} {a b : UnpackedFloat}

/-! ## 1. Rounding -/

/-- A shift drops the lowest bits. -/
theorem mantissa_shiftRight (em : ExtendedMantissa) (count : Nat) :
    (em >>> count).mantissa = em.mantissa / 2 ^ count := by
  induction count with
  | zero => exact (Nat.div_one _).symm
  | succ count ih =>
    have hstep : (em >>> (count + 1)).mantissa = (em >>> count).mantissa / 2 := rfl
    rw [hstep, ih, Nat.div_div_eq_div_mul, Nat.pow_succ]

/-- Rounding only goes up from the mantissa that is kept. -/
theorem le_roundedMantissa (em : ExtendedMantissa) : em.mantissa ≤ em.roundedMantissa := by
  rcases em with ⟨m, _ | _, _ | _⟩ <;>
    simp only [ExtendedMantissa.roundedMantissa, ExtendedMantissa.accuracy,
      Accuracy.roundToNearestEven] <;> omega

/-- A mantissa of 53 bits. -/
structure FullMantissa (m : Nat) : Prop where
  le : 2 ^ 52 ≤ m
  lt : m < 2 ^ 53

/-- All bits of a mantissa but the first 53 are shifted out. -/
theorem fullMantissa_div (hm : 2 ^ 52 ≤ m) : FullMantissa (m / 2 ^ (m.log2 - 52)) := by
  have hlog : 52 ≤ m.log2 := (Nat.le_log2 (by omega)).mpr hm
  have hlow : 2 ^ m.log2 ≤ m := Nat.log2_self_le (by omega)
  have hhigh : m < 2 ^ (m.log2 + 1) := Nat.lt_log2_self
  constructor
  · rw [Nat.le_div_iff_mul_le (by positivity), ← Nat.pow_add, Nat.add_sub_of_le hlog]
    exact hlow
  · rw [Nat.div_lt_iff_lt_mul (by positivity), ← Nat.pow_add]
    rwa [show 53 + (m.log2 - 52) = m.log2 + 1 by omega]

theorem shiftToTargetExponent_eq (he : -1074 ≤ e) (hm : 2 ^ 52 ≤ m) :
    UnpackedFloat.shiftToTargetExponent .binary64 m e .exact =
      ((⟨m, false, false⟩ : ExtendedMantissa) >>> (m.log2 - 52), e + (m.log2 - 52 : Nat)) := by
  have hlog : 52 ≤ m.log2 := (Nat.le_log2 (by omega)).mpr hm
  have hshift : (Format.binary64.targetExponent (totalExponent m e) - e).toNat = m.log2 - 52 := by
    simp only [Format.targetExponent, totalExponent, Format.mantissaBits, Format.minExponent]
    omega
  simp only [UnpackedFloat.shiftToTargetExponent, UnpackedFloat.shiftToExponent, hshift,
    ExtendedMantissa.ofMantissaAndAccuracy]

/-- A mantissa that is long enough is rounded to 53 bits, and loses no more than the bits that are
dropped. -/
theorem exists_roundWithAccuracy_eq (he : -1074 ≤ e) (hm : 2 ^ 52 ≤ m) :
    ∃ r j pos, UnpackedFloat.roundWithAccuracy .binary64 .positive m e .exact =
      .finite .positive r (e + (j : Nat)) pos ∧ FullMantissa r ∧ m / 2 ^ j ≤ r := by
  -- Rounding can carry into a bit more, so there is a second shift.
  have hlow := (fullMantissa_div hm).le
  generalize hrounded :
    ((⟨m, false, false⟩ : ExtendedMantissa) >>> (m.log2 - 52)).roundedMantissa = rounded
  have hle := le_roundedMantissa ((⟨m, false, false⟩ : ExtendedMantissa) >>> (m.log2 - 52))
  rw [hrounded, mantissa_shiftRight] at hle
  have hfull : FullMantissa (rounded / 2 ^ (rounded.log2 - 52)) :=
    fullMantissa_div (Nat.le_trans hlow hle)
  refine ⟨rounded / 2 ^ (rounded.log2 - 52), (m.log2 - 52) + (rounded.log2 - 52),
    Nat.lt_of_lt_of_le (by positivity) hfull.le, ?_, hfull, ?_⟩
  · have hnonzero : rounded / 2 ^ (rounded.log2 - 52) ≠ 0 := by
      have := hfull.le
      omega
    simp only [UnpackedFloat.roundWithAccuracy, shiftToTargetExponent_eq he hm, hrounded,
      shiftToTargetExponent_eq (e := e + (m.log2 - 52 : Nat)) (by omega) (Nat.le_trans hlow hle),
      mantissa_shiftRight, hnonzero, dite_false]
    congr 1
    omega
  · rw [Nat.pow_add, ← Nat.div_div_eq_div_mul]
    exact Nat.div_le_div_right hle

/-! ## 2. Whole parts -/

/-- Whole numbers beyond the largest word are cut. -/
theorem toNat_ofNatClamp (n : Nat) : (UInt64.ofNatClamp n).toNat = min n (UInt64.size - 1) := by
  unfold UInt64.ofNatClamp
  split <;> rw [UInt64.toNat_ofNatLT] <;> omega

/-- Shifting up by `a` and down by `b` is shifting by the difference. -/
theorem mul_pow_div_pow {a b c d : Nat} (m : Nat) (h : a + d = c + b) :
    m * 2 ^ a / 2 ^ b = m * 2 ^ c / 2 ^ d := by
  calc m * 2 ^ a / 2 ^ b = m * 2 ^ a * 2 ^ d / (2 ^ b * 2 ^ d) :=
        (Nat.mul_div_mul_right _ _ (by positivity)).symm
    _ = m * 2 ^ c * 2 ^ b / (2 ^ d * 2 ^ b) := by
        rw [Nat.mul_assoc, ← Nat.pow_add, h, Nat.pow_add, ← Nat.mul_assoc, Nat.mul_comm (2 ^ b)]
    _ = m * 2 ^ c / 2 ^ d := Nat.mul_div_mul_right _ _ (by positivity)

theorem toNat_toUInt64_finite {pos : 0 < m} :
    (UnpackedFloat.finite .positive m (k - 52 : Int) pos).toUInt64.toNat =
      min (m * 2 ^ k / 2 ^ 52) (UInt64.size - 1) := by
  have hwhole : UnpackedFloat.roundToInt .positive m (k - 52) =
      ((m * 2 ^ k / 2 ^ 52 : Nat) : Int) := by
    unfold UnpackedFloat.roundToInt UnpackedFloat.decreaseExponent UnpackedFloat.shiftToExponent
    simp only [mantissa_shiftRight, ExtendedMantissa.ofMantissaAndAccuracy, Sign.apply,
      Nat.shiftLeft_eq]
    rw [mul_pow_div_pow m (c := k) (d := 52) (by omega)]
  rw [UnpackedFloat.toUInt64, toNat_ofNatClamp, UnpackedFloat.toInt, hwhole, Int.toNat_natCast]

theorem toNat_toUInt64_infinity :
    (UnpackedFloat.infinity .positive).toUInt64.toNat = UInt64.size - 1 := rfl

theorem toNat_toUInt64_le_infinity (a : UnpackedFloat) :
    a.toUInt64.toNat ≤ (UnpackedFloat.infinity .positive).toUInt64.toNat := by
  have := a.toUInt64.toNat_lt
  rw [toNat_toUInt64_infinity]
  unfold UInt64.size
  omega

/-! ## 3. Products -/

/-- Of the product of two mantissas 52 bits are dropped at least. -/
theorem dropped_of_mul (hm : FullMantissa m) (hn : FullMantissa n) (hr : FullMantissa r)
    (hkept : m * n / 2 ^ j ≤ r) : 52 ≤ j := by
  by_contra hj
  have hshort : m * n < 2 ^ 53 * 2 ^ j :=
    (Nat.div_lt_iff_lt_mul (by positivity)).mp (Nat.lt_of_le_of_lt hkept hr.lt)
  have hlong : 2 ^ 52 * 2 ^ 52 ≤ m * n := Nat.mul_le_mul hm.le hn.le
  have hpow : 2 ^ j ≤ 2 ^ 51 := Nat.pow_le_pow_right (by decide) (by omega)
  omega

/-- If more are dropped, their weight makes up for what the first mantissa may lose. -/
theorem le_of_mul (hm : FullMantissa m) (hn : FullMantissa n) (hr : FullMantissa r)
    (hkept : m * n / 2 ^ (52 + i) ≤ r) : m ≤ r * 2 ^ i := by
  cases i with
  | zero =>
    have hfactor : m * 2 ^ 52 ≤ m * n := Nat.mul_le_mul_left m hn.le
    have hfirst : m ≤ m * n / 2 ^ 52 := (Nat.le_div_iff_mul_le (by positivity)).mpr hfactor
    rw [Nat.pow_zero, Nat.mul_one]
    exact Nat.le_trans hfirst hkept
  | succ i =>
    have hpow : 2 ≤ 2 ^ (i + 1) := Nat.le_self_pow (Nat.succ_ne_zero i) 2
    have hlarge : 2 ^ 52 * 2 ≤ r * 2 ^ (i + 1) := Nat.mul_le_mul hr.le hpow
    have hlt := hm.lt
    omega

/-- The product of two numbers with mantissas of 53 bits is another one. -/
theorem exists_mul_eq (hm : FullMantissa m) (hn : FullMantissa n) (k l : Nat) (pos : 0 < m)
    (pos' : 0 < n) :
    ∃ r i hr, (UnpackedFloat.finite .positive m (k - 52) pos).mul .binary64
        (.finite .positive n (l - 52) pos') =
          .finite .positive r (((k + l + i : Nat) : Int) - 52) hr ∧
      FullMantissa r ∧ m ≤ r * 2 ^ i := by
  obtain ⟨r, j, hpos, hround, hr, hkept⟩ :=
    exists_roundWithAccuracy_eq (m := m * n) (e := (k - 52) + (l - 52)) (by omega)
      (Nat.le_trans hm.le (Nat.le_mul_of_pos_right m pos'))
  obtain ⟨i, rfl⟩ := Nat.exists_eq_add_of_le (dropped_of_mul hm hn hr hkept)
  refine ⟨r, i, hpos, hround.trans ?_, hr, le_of_mul hm hn hr hkept⟩
  congr 1
  omega

/-- A number that is at least one, as a mantissa and a weight. -/
inductive AtLeastOne : UnpackedFloat → Prop where
  | infinite : AtLeastOne (.infinity .positive)
  | finite {m : Nat} (full : FullMantissa m) (k : Nat) (pos : 0 < m) :
      AtLeastOne (.finite .positive m (k - 52 : Int) pos)

/-- **A product of numbers that are at least one** is one of them, and its whole part is no smaller
than that of the first. -/
theorem AtLeastOne.mul (ha : AtLeastOne a) (hb : AtLeastOne b) :
    AtLeastOne (a.mul .binary64 b) ∧ a.toUInt64.toNat ≤ (a.mul .binary64 b).toUInt64.toNat := by
  cases ha with
  | infinite =>
    have hproduct : (UnpackedFloat.infinity .positive).mul .binary64 b = .infinity .positive := by
      cases hb <;> rfl
    rw [hproduct]
    exact ⟨.infinite, Nat.le_refl _⟩
  | @finite m hm k pos =>
    cases hb with
    | infinite => exact ⟨.infinite, toNat_toUInt64_le_infinity _⟩
    | @finite n hn l pos' =>
      obtain ⟨r, i, hpos, hproduct, hr, hle⟩ := exists_mul_eq hm hn k l pos pos'
      rw [hproduct, toNat_toUInt64_finite, toNat_toUInt64_finite]
      refine ⟨.finite hr _ hpos, ?_⟩
      have hgrown : m * 2 ^ k ≤ r * 2 ^ (k + l + i) :=
        calc m * 2 ^ k ≤ r * 2 ^ i * 2 ^ k := Nat.mul_le_mul_right _ hle
          _ ≤ r * 2 ^ i * 2 ^ (k + l) :=
            Nat.mul_le_mul_left _ (Nat.pow_le_pow_right (by decide) (Nat.le_add_right ..))
          _ = r * 2 ^ (k + l + i) := by rw [Nat.mul_assoc, ← Nat.pow_add, Nat.add_comm i]
      have hwhole := Nat.div_le_div_right (c := 2 ^ 52) hgrown
      omega

/-! ## 4. Bit patterns -/

theorem unpackSign_packComponents {spec : Format} {sign : Sign}
    {exponent : BitVec spec.exponentBits} {mantissa : BitVec spec.mantissaBitsWithoutImplicit} :
    UnpackedFloat.unpackSign (UnpackedFloat.packComponents spec sign exponent mantissa) =
      sign.toBitVec := by
  ext i hi
  obtain rfl : i = 0 := by omega
  simp [UnpackedFloat.unpackSign, UnpackedFloat.packComponents, BitVec.getLsbD_append,
    BitVec.getElem_append]

/-- The highest bit of a mantissa is not kept. -/
theorem toNat_one_append (mantissa : BitVec 52) :
    (1#1 ++ mantissa).toNat = 2 ^ 52 + mantissa.toNat := by
  rw [BitVec.toNat_append, ← Nat.shiftLeft_add_eq_or_of_lt mantissa.isLt]
  rfl

theorem pack_finite (full : FullMantissa m) (pos : 0 < m) :
    UnpackedFloat.pack .binary64 (.finite .positive m (k - 52 : Int) pos) =
      if 2 ^ 11 ≤ k + 1024 then UnpackedFloat.packedInfinity .binary64 .positive
      else UnpackedFloat.packComponents .binary64 .positive (BitVec.ofNat _ (k + 1023))
        (BitVec.ofNat _ m) := by
  have hbits : m.log2 = 52 := by
    rw [Nat.log2_eq_iff (by omega)]
    exact ⟨full.le, full.lt⟩
  have hbiased : ((k - 52 : Int) + (Format.binary64.exponentBias : Nat) +
      (52 : Nat)).toNat = k + 1023 := by
    simp only [Format.exponentBias]
    omega
  simp only [UnpackedFloat.pack, hbiased, hbits, Format.mantissaBits]
  rfl

theorem unpack_pack_finite (full : FullMantissa m) (pos : 0 < m) (hk : k + 1024 < 2 ^ 11) :
    UnpackedFloat.unpack .binary64 (UnpackedFloat.pack .binary64
      (.finite .positive m (k - 52 : Int) pos)) = .finite .positive m (k - 52 : Int) pos := by
  rw [pack_finite full pos, if_neg (by omega), UnpackedFloat.unpack]
  simp only [UnpackedFloat.unpackMantissa_packComponents,
    UnpackedFloat.unpackExponent_packComponents, unpackSign_packComponents]
  have hexponent : (BitVec.ofNat 11 (k + 1023)).toNat = k + 1023 := by
    rw [BitVec.toNat_ofNat, Nat.mod_eq_of_lt (by omega)]
  have hmantissa : (1#1 ++ BitVec.ofNat 52 m).toNat = m := by
    have hle := full.le
    have hlt := full.lt
    rw [toNat_one_append, BitVec.toNat_ofNat]
    omega
  rw [if_neg, if_neg]
  · have hweight : ((k + 1023 : Nat) : Int) - (Format.binary64.exponentBias + (52 : Nat)) =
        k - 52 := by
      simp only [Format.exponentBias]
      omega
    simp only [hexponent, hmantissa, hweight]
    rfl
  · rw [← BitVec.toNat_inj, hexponent]
    simp
  · rw [← BitVec.toNat_inj, hexponent]
    simp
    omega

/-- A bit pattern keeps 53 bits, unless the weight is the smallest. -/
theorem fullMantissa_or_least_of_unpack_eq {bits : BitVec Format.binary64.numBits} {sign : Sign}
    {pos : 0 < m} (h : UnpackedFloat.unpack .binary64 bits = .finite sign m e pos) :
    FullMantissa m ∨ e = -1074 := by
  unfold UnpackedFloat.unpack at h
  simp only at h
  split at h
  · split at h <;> cases h
  · split at h
    · rename_i hexponent
      split at h
      · cases h
      · right
        injection h with _ _ he
        rw [← he, hexponent]
        rfl
    · left
      injection h with _ hm
      rw [← hm, toNat_one_append]
      have hkept : (UnpackedFloat.unpackMantissa bits).toNat < 2 ^ 52 := BitVec.isLt _
      constructor <;> omega

/-- Comparing with one tells whether a number is at least one; what is no number is not. -/
theorem atLeastOne_of_one_le {g : Float} (hg : 1.0 ≤ g) : AtLeastOne g.toModel.unpack := by
  have hone : (1.0 : Float).toModel.unpack = .finite .positive (2 ^ 52) (-52) (by decide) := by rfl
  have hle : UnpackedFloat.le (1.0 : Float).toModel.unpack g.toModel.unpack = true :=
    of_decide_eq_true hg
  rw [hone] at hle
  cases hunpack : g.toModel.unpack with
  | infinity sign =>
    rw [hunpack] at hle
    cases sign with
    | positive => exact .infinite
    | negative => cases hle
  | notANumber => rw [hunpack] at hle; cases hle
  | zero sign => rw [hunpack] at hle; cases hle
  | finite sign m e pos =>
    rw [hunpack] at hle
    cases sign with
    | negative => cases hle
    | positive =>
      have hfull := fullMantissa_or_least_of_unpack_eq hunpack
      simp only [UnpackedFloat.le, UnpackedFloat.compare, Option.any_some,
        Ordering.isLE_then_iff_or, compare_lt_iff_lt, compare_eq_iff_eq] at hle
      have hweight : -52 ≤ e := hle.elim Int.le_of_lt fun heq => Int.le_of_eq heq.1
      obtain ⟨k, hk⟩ := Int.eq_ofNat_of_zero_le (show 0 ≤ e + 52 by omega)
      obtain rfl : e = k - 52 := by omega
      exact .finite (hfull.resolve_right (by omega)) k pos

/-- A bit pattern keeps a number that is at least one, or it is that of infinity. -/
theorem AtLeastOne.pack (ha : AtLeastOne a) : AtLeastOne (Float.Model.pack a).unpack ∧
    a.toUInt64.toNat ≤ (Float.Model.pack a).unpack.toUInt64.toNat := by
  have hinfinite : UnpackedFloat.unpack .binary64
      (UnpackedFloat.packedInfinity .binary64 .positive) = .infinity .positive := by rfl
  change AtLeastOne (UnpackedFloat.unpack .binary64 (UnpackedFloat.pack .binary64 a)) ∧ _ ≤
    (UnpackedFloat.unpack .binary64 (UnpackedFloat.pack .binary64 a)).toUInt64.toNat
  cases ha with
  | infinite => exact ⟨.infinite, Nat.le_refl _⟩
  | @finite m full k pos =>
    by_cases hk : k + 1024 < 2 ^ 11
    · rw [unpack_pack_finite full pos hk]
      exact ⟨.finite full k pos, Nat.le_refl _⟩
    · rw [pack_finite full pos, if_pos (by omega), hinfinite]
      exact ⟨.infinite, toNat_toUInt64_le_infinity _⟩

/-! ## 5. Numbers -/

theorem atLeastOne_one : AtLeastOne (1.0 : Float).toModel.unpack :=
  atLeastOne_of_one_le (by decide +kernel)

/-- **A growth that is at least one makes no factor smaller** that is at least one. -/
theorem AtLeastOne.float_mul {f g : Float} (hf : AtLeastOne f.toModel.unpack)
    (hg : AtLeastOne g.toModel.unpack) :
    AtLeastOne (f * g).toModel.unpack ∧ f.toUInt64.toNat ≤ (f * g).toUInt64.toNat := by
  obtain ⟨hproduct, hle⟩ := hf.mul hg
  obtain ⟨hpacked, hle'⟩ := hproduct.pack
  exact ⟨hpacked, Nat.le_trans hle hle'⟩

end ServerDiscovery.Factor
