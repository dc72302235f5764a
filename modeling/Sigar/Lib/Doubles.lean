/-
  Natural numbers in doubles.

  A double has 53 significant bits, so a natural number below `2^53` IS a double, and so is a
  sum or a product of two of them that stays below `2^53`.  The operations are those of the IEEE
  model behind `Float`:

  1. rounding shifts low bits of a significand away, and those of a scaled natural number are
     zeros (`roundWithAccuracy_natural`);
  2. so conversion, multiplication and addition give the number itself (`ofNat_eq`, `mul_natural`,
     `add_natural`), and truncation gives it back (`toInt_natural`);
  3. packing into 64 bits and unpacking again changes nothing (`unpack_pack_natural`).

  `IsNat` says it of a `Float`, and its lemmas are what a proof about a program uses.
-/
import Mathlib

namespace Doubles

open Float.Model Float.Model.UnpackedFloat

variable {n a b : Nat}

/-! ## Shifting zeros away -/

theorem log2_scaled (hn : n ≠ 0) (k : Nat) : (n * 2 ^ k).log2 = n.log2 + k := by
  induction k with
  | zero => rw [Nat.pow_zero, Nat.mul_one, Nat.add_zero]
  | succ k ih =>
    have hpos : n * 2 ^ k ≠ 0 := Nat.mul_ne_zero hn (Nat.two_pow_pos k).ne'
    rw [show n * 2 ^ (k + 1) = 2 * (n * 2 ^ k) by ring, Nat.log2_two_mul hpos, ih, Nat.add_assoc]

/-- A shift by no more places than there are zeros leaves nothing to round. -/
theorem shiftRight_scaled (m k : Nat) :
    (⟨m * 2 ^ k, false, false⟩ : ExtendedMantissa) >>> k = ⟨m, false, false⟩ := by
  show Nat.repeat _ _ _ = _
  induction k generalizing m with
  | zero =>
    rw [Nat.pow_zero, Nat.mul_one]
    rfl
  | succ k ih =>
    have hdouble : m * 2 ^ (k + 1) = (m * 2) * 2 ^ k := by ring
    rw [hdouble, Nat.repeat, ih (m * 2)]
    show (⟨m * 2 / 2, m * 2 % 2 != 0, _⟩ : ExtendedMantissa) = _
    rw [Nat.mul_div_cancel m (by decide), Nat.mul_mod_left]
    rfl

/-! ## The double of a natural number -/

/-- The significand of a number: its bits, moved up until there are 53. -/
def significand (n : Nat) : Nat := n * 2 ^ (52 - n.log2)

theorem significand_pos (hn : n ≠ 0) : 0 < significand n :=
  Nat.mul_pos (Nat.pos_of_ne_zero hn) (Nat.two_pow_pos _)

/-- The double that a natural number below `2^53` is. -/
def natural (n : Nat) : UnpackedFloat :=
  if h : n = 0 then .zero .positive
  else .finite .positive (significand n) ((n.log2 : Int) - 52) (significand_pos h)

/-- The exponent that the format wants of a scaled number is the one of the number. -/
theorem targetExponent_scaled (hn : n ≠ 0) (k : Nat) :
    Format.binary64.targetExponent (totalExponent (n * 2 ^ k) (-(k : Int)))
      = (n.log2 : Int) - 52 := by
  have hmin : Format.binary64.minExponent = -1074 := by decide
  have hbits : (Format.binary64.mantissaBits : Int) = 53 := by decide
  rw [Format.targetExponent, totalExponent, log2_scaled hn, hmin, hbits, Nat.cast_add]
  omega

section Small

variable {n : Nat} (hn : n ≠ 0) (hsmall : n < 2 ^ 53)
include hn hsmall

theorem log2_le : n.log2 ≤ 52 := by
  have hlt : n.log2 < 53 := (Nat.log2_lt hn).mpr hsmall
  omega

theorem log2_significand : (significand n).log2 = 52 := by
  have hle := log2_le hn hsmall
  rw [significand, log2_scaled hn]
  omega

/-- Shifting a scaled number to its exponent loses no bit. -/
theorem shiftToTargetExponent_scaled {k : Nat} (hk : 52 ≤ n.log2 + k) :
    shiftToTargetExponent Format.binary64 (n * 2 ^ k) (-(k : Int)) .exact
      = (⟨significand n, false, false⟩, (n.log2 : Int) - 52) := by
  have hle := log2_le hn hsmall
  have hamount : ((n.log2 : Int) - 52 - -(k : Int)).toNat = n.log2 + k - 52 := by omega
  have hsplit : n * 2 ^ k = significand n * 2 ^ (n.log2 + k - 52) := by
    rw [significand, Nat.mul_assoc, ← Nat.pow_add,
      show 52 - n.log2 + (n.log2 + k - 52) = k by omega]
  rw [shiftToTargetExponent, targetExponent_scaled hn, shiftToExponent, hamount, hsplit]
  refine Prod.ext (shiftRight_scaled (significand n) (n.log2 + k - 52)) ?_
  show -(k : Int) + ((n.log2 + k - 52 : Nat) : Int) = _
  omega

/-- **A scaled natural number is rounded to itself.** -/
theorem roundWithAccuracy_natural {k : Nat} (hk : 52 ≤ n.log2 + k) :
    roundWithAccuracy Format.binary64 .positive (n * 2 ^ k) (-(k : Int)) .exact = natural n := by
  have hle := log2_le hn hsmall
  -- the second shift has nothing to do: the significand already has its 53 bits
  have hagain : shiftToTargetExponent Format.binary64 (significand n) ((n.log2 : Int) - 52) .exact
      = (⟨significand n, false, false⟩, (n.log2 : Int) - 52) := by
    have hshift := shiftToTargetExponent_scaled hn hsmall (k := 52 - n.log2) (by omega)
    have hexp : -((52 - n.log2 : Nat) : Int) = (n.log2 : Int) - 52 := by omega
    rwa [hexp] at hshift
  have hround : (⟨significand n, false, false⟩ : ExtendedMantissa).roundedMantissa
      = significand n := rfl
  rw [natural, dif_neg hn, roundWithAccuracy]
  simp only [shiftToTargetExponent_scaled hn hsmall hk, hround, hagain]
  exact dif_neg (significand_pos hn).ne'

end Small

/-! ## The operations -/

/-- A scaled natural number is rounded to the number itself. -/
theorem round_natural (hn : n ≠ 0) (hsmall : n < 2 ^ 53) (k : Nat) :
    UnpackedFloat.round Format.binary64 .positive (n * 2 ^ k) (-(k : Int)) = natural n := by
  have hshift : (-(k : Int) - ((n.log2 : Int) - 52)).toNat = 52 - n.log2 - k := by omega
  have hexp : -(k : Int) - ((52 - n.log2 - k : Nat) : Int)
      = -((k + (52 - n.log2 - k) : Nat) : Int) := by omega
  simp only [UnpackedFloat.round, decreaseExponent, targetExponent_scaled hn k, hshift,
    Nat.shiftLeft_eq, Nat.mul_assoc, ← Nat.pow_add, hexp]
  exact roundWithAccuracy_natural hn hsmall (by omega)

/-- The same for a number that comes as an integer. -/
theorem normalize_natural (hn : n ≠ 0) (hsmall : n < 2 ^ 53) (k : Nat) (s : Sign) :
    UnpackedFloat.normalize Format.binary64 ((n * 2 ^ k : Nat) : Int) (-(k : Int)) s
      = natural n := by
  have hpos : compare ((n * 2 ^ k : Nat) : Int) 0 = .gt := by
    simp [compare_gt_iff_gt]
    omega
  rw [UnpackedFloat.normalize, hpos]
  exact round_natural hn hsmall k

theorem ofNat_eq (hsmall : n < 2 ^ 53) : UnpackedFloat.ofNat Format.binary64 n = natural n := by
  by_cases hn : n = 0
  · subst hn
    rfl
  · have h := normalize_natural hn hsmall 0 .positive
    rw [Nat.pow_zero, Nat.mul_one, Nat.cast_zero, neg_zero] at h
    exact h

theorem log2_add_log2_le (ha : a ≠ 0) (hb : b ≠ 0) : a.log2 + b.log2 ≤ (a * b).log2 := by
  rw [Nat.le_log2 (Nat.mul_ne_zero ha hb), Nat.pow_add]
  exact Nat.mul_le_mul (Nat.log2_self_le ha) (Nat.log2_self_le hb)

theorem mul_natural (hsmall : a * b < 2 ^ 53) :
    UnpackedFloat.mul Format.binary64 (natural a) (natural b) = natural (a * b) := by
  by_cases ha : a = 0
  · subst ha
    rw [Nat.zero_mul]
    by_cases hb : b = 0
    · subst hb
      rfl
    · rw [natural, dif_pos rfl, natural, dif_neg hb]
      rfl
  by_cases hb : b = 0
  · subst hb
    rw [Nat.mul_zero, natural, dif_neg ha, natural, dif_pos rfl]
    rfl
  have hab : a * b ≠ 0 := Nat.mul_ne_zero ha hb
  have hale : a ≤ a * b := Nat.le_mul_of_pos_right a (Nat.pos_of_ne_zero hb)
  have hble : b ≤ a * b := Nat.le_mul_of_pos_left b (Nat.pos_of_ne_zero ha)
  have hla := log2_le ha (Nat.lt_of_le_of_lt hale hsmall)
  have hlb := log2_le hb (Nat.lt_of_le_of_lt hble hsmall)
  have hsum := log2_add_log2_le ha hb
  have hround := roundWithAccuracy_natural hab hsmall (k := 52 - a.log2 + (52 - b.log2)) (by omega)
  have hm : significand a * significand b = a * b * 2 ^ (52 - a.log2 + (52 - b.log2)) := by
    rw [significand, significand]
    ring
  have he : (a.log2 : Int) - 52 + ((b.log2 : Int) - 52)
      = -((52 - a.log2 + (52 - b.log2) : Nat) : Int) := by
    omega
  rw [natural, dif_neg ha, natural, dif_neg hb]
  show roundWithAccuracy _ _ (significand a * significand b) _ _ = _
  rw [hm, he]
  exact hround

/-- A significand that is moved to a lower exponent. -/
theorem decreaseExponent_natural {l : Nat} {e : Int} (hn : n.log2 ≤ 52) (hl : l ≤ n.log2)
    (he : e = (l : Int) - 52) :
    decreaseExponent (significand n) ((n.log2 : Int) - 52) e = (n * 2 ^ (52 - l), e) := by
  have hshift : ((n.log2 : Int) - 52 - e).toNat = n.log2 - l := by omega
  rw [decreaseExponent, hshift, Nat.shiftLeft_eq, significand, Nat.mul_assoc, ← Nat.pow_add,
    show 52 - n.log2 + (n.log2 - l) = 52 - l by omega, Prod.mk.injEq]
  exact ⟨rfl, by omega⟩

theorem add_natural (hsmall : a + b < 2 ^ 53) :
    UnpackedFloat.add Format.binary64 (natural a) (natural b) = natural (a + b) := by
  by_cases ha : a = 0
  · subst ha
    rw [Nat.zero_add]
    by_cases hb : b = 0
    · subst hb
      rfl
    · rw [natural, dif_pos rfl, natural, dif_neg hb]
      rfl
  by_cases hb : b = 0
  · subst hb
    rw [Nat.add_zero, natural, dif_neg ha, natural, dif_pos rfl]
    rfl
  have hla := log2_le ha (show a < 2 ^ 53 by omega)
  have hlb := log2_le hb (show b < 2 ^ 53 by omega)
  -- both are moved to the lower exponent, where the significands can be added
  obtain ⟨l, hl⟩ : ∃ l, l = min a.log2 b.log2 := ⟨_, rfl⟩
  have he : min ((a.log2 : Int) - 52) ((b.log2 : Int) - 52) = (l : Int) - 52 := by omega
  rw [natural, dif_neg ha, natural, dif_neg hb, UnpackedFloat.add]
  dsimp only
  rw [he, decreaseExponent_natural hla (by omega) rfl, decreaseExponent_natural hlb (by omega) rfl]
  show UnpackedFloat.normalize _ (((a * 2 ^ (52 - l) : Nat) : Int) + ((b * 2 ^ (52 - l) : Nat) : Int))
    _ _ = _
  rw [← Int.natCast_add, ← Nat.add_mul, show (l : Int) - 52 = -((52 - l : Nat) : Int) by omega]
  exact normalize_natural (by omega) hsmall (52 - l) .positive

theorem toInt_natural (hsmall : n < 2 ^ 53) (low high : Int) : (natural n).toInt low high = n := by
  by_cases hn : n = 0
  · subst hn
    rfl
  · have hle := log2_le hn hsmall
    have hup : ((n.log2 : Int) - 52 - 0).toNat = 0 := by omega
    have hdown : (0 - ((n.log2 : Int) - 52 - ((0 : Nat) : Int))).toNat = 52 - n.log2 := by omega
    have hexact : ExtendedMantissa.ofMantissaAndAccuracy (n * 2 ^ (52 - n.log2)) .exact
        = ⟨n * 2 ^ (52 - n.log2), false, false⟩ := rfl
    rw [natural, dif_neg hn, UnpackedFloat.toInt, roundToInt, decreaseExponent]
    simp only [hup, Nat.shiftLeft_zero, shiftToExponent]
    rw [hdown]
    show ((_ >>> _ : ExtendedMantissa).mantissa : Int) = _
    rw [significand, hexact, shiftRight_scaled]

/-! ## Into 64 bits and back -/

/-- The leading bit of a significand is not stored. -/
theorem toNat_implicit_bit {m : Nat} (hm : m.log2 = 52) (hpos : m ≠ 0) :
    (1#1 ++ BitVec.ofNat 52 m).toNat = m := by
  obtain ⟨hlow, hhigh⟩ := (Nat.log2_eq_iff hpos).mp hm
  rw [BitVec.toNat_append, BitVec.toNat_ofNat, BitVec.toNat_ofNat,
    ← Nat.shiftLeft_add_eq_or_of_lt (Nat.mod_lt _ (Nat.two_pow_pos 52)), Nat.shiftLeft_eq]
  omega

theorem exponentBias_binary64 : Format.binary64.exponentBias = 1023 := by decide

theorem pack_natural (hn : n ≠ 0) (hsmall : n < 2 ^ 53) :
    UnpackedFloat.pack Format.binary64 (natural n)
      = packComponents Format.binary64 .positive (BitVec.ofNat 11 (n.log2 + 1023))
          (BitVec.ofNat 52 (significand n)) := by
  have hle := log2_le hn hsmall
  have hbits := log2_significand hn hsmall
  have hbiased : ((n.log2 : Int) - 52 + Format.binary64.exponentBias
      + Format.binary64.mantissaBitsWithoutImplicit).toNat = n.log2 + 1023 := by
    simp [exponentBias_binary64]
    omega
  rw [natural, dif_neg hn, UnpackedFloat.pack]
  simp only [hbiased]
  rw [if_neg (by omega), if_pos (by rw [hbits]; rfl)]

theorem unpack_pack_natural (hsmall : n < 2 ^ 53) :
    (Float.Model.pack (natural n)).unpack = natural n := by
  show UnpackedFloat.unpack Format.binary64 (UnpackedFloat.pack Format.binary64 (natural n)) = _
  by_cases hn : n = 0
  · subst hn
    rfl
  have hle := log2_le hn hsmall
  have hbits := log2_significand hn hsmall
  have hexp : (BitVec.ofNat 11 (n.log2 + 1023)).toNat = n.log2 + 1023 := by
    rw [BitVec.toNat_ofNat]
    omega
  have hfinite : BitVec.ofNat 11 (n.log2 + 1023) ≠ -1#11 := by grind
  have hnormal : BitVec.ofNat 11 (n.log2 + 1023) ≠ 0#11 := by grind
  have hback : ((BitVec.ofNat 11 (n.log2 + 1023)).toNat : Int)
      - (Format.binary64.exponentBias + Format.binary64.mantissaBitsWithoutImplicit)
      = (n.log2 : Int) - 52 := by
        simp [hexp, exponentBias_binary64]
        omega
  rw [pack_natural hn hsmall, UnpackedFloat.unpack]
  simp only [unpackMantissa_packComponents, unpackExponent_packComponents,
    unpackSign_packComponents]
  rw [if_neg hfinite, if_neg hnormal, natural, dif_neg hn, UnpackedFloat.finite.injEq]
  exact ⟨rfl, toNat_implicit_bit hbits (significand_pos hn).ne', hback⟩

/-! ## Floats -/

/-- The float IS the natural number. -/
def IsNat (x : Float) (n : Nat) : Prop := x.toModel.unpack = natural n

theorem isNat_toFloat {n : UInt64} (hsmall : n.toNat < 2 ^ 53) : IsNat n.toFloat n.toNat := by
  show (Float.Model.pack (UnpackedFloat.ofNat _ n.toNat)).unpack = _
  rw [ofNat_eq hsmall, unpack_pack_natural hsmall]

theorem IsNat.mul {x y : Float} (hx : IsNat x a) (hy : IsNat y b) (hsmall : a * b < 2 ^ 53) :
    IsNat (x * y) (a * b) := by
  show (Float.Model.pack (UnpackedFloat.mul _ x.toModel.unpack y.toModel.unpack)).unpack = _
  rw [hx, hy, mul_natural hsmall, unpack_pack_natural hsmall]

theorem IsNat.add {x y : Float} (hx : IsNat x a) (hy : IsNat y b) (hsmall : a + b < 2 ^ 53) :
    IsNat (x + y) (a + b) := by
  show (Float.Model.pack (UnpackedFloat.add _ x.toModel.unpack y.toModel.unpack)).unpack = _
  rw [hx, hy, add_natural hsmall, unpack_pack_natural hsmall]

theorem IsNat.toUInt64 {x : Float} (hx : IsNat x n) (hsmall : n < 2 ^ 53) :
    x.toUInt64 = UInt64.ofNat n := by
  show UInt64.ofNatClamp (x.toModel.unpack.toInt 0 _).toNat = _
  rw [hx, toInt_natural hsmall, Int.toNat_natCast, UInt64.ofNatClamp,
    dif_pos (Nat.lt_trans hsmall (by decide))]
  exact UInt64.ofNatLT_eq_ofNat _

end Doubles
