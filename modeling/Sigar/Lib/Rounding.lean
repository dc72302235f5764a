/-
  Floating point by rounding.

  A binary floating-point format with `p` significant bits is taken here as what its operations do
  to EXACT numbers: each of them returns the number of `p` bits that is nearest to the exact result,
  and of two that are equally near the one whose last bit is zero.  `nearest p` is that rounding of
  a rational number; a double has 53 bits, a float 24.  The range of the exponent is left out: the
  numbers of a program that neither overflows nor comes near the smallest positive double are
  rounded in this way.

  1. **Rounding to an integer** (`halfEven`) — moves a number by one half at most.
  2. **Rounding to `p` bits** (`nearest`) — the same in units of the last place of the number.
     A natural number below `2^p` stays what it is (`nearest_natCast`), and every other number moves
     by a part of `2^p` of its size at most (`nearest_near`).
  3. **A quotient, times a number** (`scaled`) — rounded at each step.  It is a quarter of
     the distance to the next integer off at most, so its integer part is the one of the exact
     number if that number is no integer (`floor_scaled`).
-/
import Mathlib.Algebra.Order.Floor.Semifield
import Mathlib.Data.Int.Log
import Mathlib.Data.Rat.Floor
import Mathlib.Tactic.FieldSimp
import Mathlib.Tactic.Linarith
import Mathlib.Tactic.Positivity

namespace Rounding

/-! ## To an integer -/

/-- The nearest integer; of two, the even one. -/
def halfEven (y : ℚ) : ℤ :=
  if y - ⌊y⌋ < 1 / 2 ∨ (y - ⌊y⌋ = 1 / 2 ∧ ⌊y⌋ % 2 = 0) then ⌊y⌋ else ⌊y⌋ + 1

example : (halfEven (5 / 2), halfEven (7 / 2), halfEven (13 / 5)) = (2, 4, 3) := by decide +kernel

theorem halfEven_near (y : ℚ) : |(halfEven y : ℚ) - y| ≤ 1 / 2 := by
  have hfloor := Int.floor_le y
  have hnext := Int.lt_floor_add_one y
  unfold halfEven
  split
  · next h =>
    have hhalf : y - ⌊y⌋ ≤ 1 / 2 := h.elim le_of_lt fun h => h.1.le
    rw [abs_le]
    constructor <;> linarith
  · next h =>
    have hhalf : 1 / 2 ≤ y - ⌊y⌋ := not_lt.mp fun hlt => h (Or.inl hlt)
    push_cast
    rw [abs_le]
    constructor <;> linarith

theorem halfEven_intCast (n : ℤ) : halfEven n = n := by
  rw [halfEven, Int.floor_intCast, sub_self, if_pos (Or.inl (by norm_num))]

/-! ## To a number of bits -/

/-- The unit of the last of `p` bits of a positive number. -/
def unit (p : Nat) (x : ℚ) : ℚ := 2 ^ (Int.log 2 x + 1 - p)

/-- The nearest number with `p` significant bits to one that is not negative. -/
def nearest (p : Nat) (x : ℚ) : ℚ :=
  if x = 0 then 0 else halfEven (x / unit p x) * unit p x

variable {p : Nat} {x : ℚ}

theorem unit_pos (p : Nat) (x : ℚ) : 0 < unit p x := by
  exact zpow_pos (by norm_num) _

/-- The unit is a part of `2^(p-1)` of the number. -/
theorem unit_le (hx : 0 < x) : 2 ^ p * unit p x ≤ 2 * x := by
  have hlog : (2 : ℚ) ^ Int.log 2 x ≤ x := Int.zpow_log_le_self (by norm_num) hx
  have hsplit : (2 : ℚ) ^ p * unit p x = 2 * 2 ^ Int.log 2 x := by
    rw [unit, ← zpow_natCast, ← zpow_add₀ (by norm_num), ← zpow_one_add₀ (by norm_num)]
    congr 1
    ring
  linarith

/-- **A rounded number is near**: by a part of `2^p` of its size. -/
theorem nearest_near (hx : 0 ≤ x) : 2 ^ p * |nearest p x - x| ≤ x := by
  unfold nearest
  split
  · next h => simp [h]
  · next h =>
    have hunit := unit_pos p x
    have hdiff : (halfEven (x / unit p x) : ℚ) * unit p x - x
        = ((halfEven (x / unit p x) : ℚ) - x / unit p x) * unit p x := by
      field_simp
    have hhalf := mul_le_mul_of_nonneg_right (halfEven_near (x / unit p x)) hunit.le
    have hle := unit_le (p := p) (lt_of_le_of_ne hx (Ne.symm h))
    rw [hdiff, abs_mul, abs_of_pos hunit]
    have hpow : (0 : ℚ) < 2 ^ p := by positivity
    nlinarith

theorem nearest_nonneg (hx : 0 ≤ x) : 0 ≤ nearest p x := by
  have hpow : (1 : ℚ) ≤ 2 ^ p := one_le_pow₀ (by norm_num)
  have hnear := (le_mul_of_one_le_left (abs_nonneg _) hpow).trans (nearest_near hx)
  linarith [(abs_le.mp hnear).1]

/-- **A number that has no more than `p` bits is not changed.** -/
theorem nearest_natCast {n : Nat} (hn : n < 2 ^ p) : nearest p n = n := by
  unfold nearest
  split
  · next h => exact h.symm
  · next h =>
    have hne : n ≠ 0 := fun hzero => h (by rw [hzero, Nat.cast_zero])
    have hlog : Nat.log 2 n < p := Nat.log_lt_of_lt_pow hne hn
    -- so the unit is one over a power of two, and the quotient an integer
    have hunit : unit p n = (2 ^ (p - 1 - Nat.log 2 n))⁻¹ := by
      rw [unit, Int.log_natCast, ← zpow_natCast, ← zpow_neg]
      congr 1
      omega
    have hquotient : (n : ℚ) / unit p n = ((n * 2 ^ (p - 1 - Nat.log 2 n) : ℕ) : ℤ) := by
      rw [hunit, div_inv_eq_mul]
      push_cast
      ring
    rw [hquotient, halfEven_intCast, ← hquotient, div_mul_cancel₀ _ (unit_pos p n).ne']

/-! ## A scaled quotient -/

/-- `a / b * c` with two roundings. -/
def scaled (p : Nat) (a b c : ℚ) : ℚ := nearest p (nearest p (a / b) * c)

/-- The two roundings together. -/
theorem scaled_near (hx : 0 ≤ x) {c : ℚ} (hc : 0 ≤ c) :
    2 ^ p * |nearest p (nearest p x * c) - x * c| ≤ 3 * (x * c) := by
  have hpow : (1 : ℚ) ≤ 2 ^ p := one_le_pow₀ (by norm_num)
  have hfirst := mul_le_mul_of_nonneg_right (nearest_near (p := p) hx) hc
  have hhigh : nearest p x - x ≤ |nearest p x - x| := le_abs_self _
  have hsmall : |nearest p x - x| ≤ x :=
    (le_mul_of_one_le_left (abs_nonneg _) hpow).trans (nearest_near hx)
  have hfactor : 0 ≤ nearest p x * c := mul_nonneg (nearest_nonneg hx) hc
  have hsecond := nearest_near (p := p) hfactor
  have hsplit : |nearest p (nearest p x * c) - x * c|
      ≤ |nearest p (nearest p x * c) - nearest p x * c| + |nearest p x - x| * c := by
    have h := abs_add_le (nearest p (nearest p x * c) - nearest p x * c) ((nearest p x - x) * c)
    rw [abs_mul, abs_of_nonneg hc] at h
    refine le_trans (le_of_eq (congrArg abs ?_)) h
    ring
  have hdouble : nearest p x * c ≤ 2 * x * c := mul_le_mul_of_nonneg_right (by linarith) hc
  have hall := mul_le_mul_of_nonneg_left hsplit (by positivity : (0 : ℚ) ≤ 2 ^ p)
  linarith

/-- **The integer part of a scaled quotient** is that of the exact one, for numbers whose product
    has two bits to spare, if the quotient itself is an integer or the exact result is none. -/
theorem floor_scaled {a b c : Nat} (hb : 0 < b) (hsmall : 4 * (c * a) < 2 ^ p)
    (hdvd : b ∣ a ∨ ¬ b ∣ c * a) : ⌊scaled p a b c⌋₊ = c * a / b := by
  unfold scaled
  rcases Nat.eq_zero_or_pos c with rfl | hc
  · simp [nearest]
  by_cases hab : b ∣ a
  · obtain ⟨k, rfl⟩ := hab
    have hk : k ≤ c * (b * k) := by nlinarith [Nat.mul_pos hc hb]
    have hkc : k * c ≤ c * (b * k) := by nlinarith [Nat.mul_le_mul_left (c * k) hb]
    have hquotient : ((b * k : ℕ) : ℚ) / (b : ℚ) = (k : ℕ) := by
      push_cast
      field_simp
    rw [hquotient, nearest_natCast (by omega), ← Nat.cast_mul, nearest_natCast (by omega),
      Nat.floor_natCast]
    rw [show c * (b * k) = k * c * b by ring, Nat.mul_div_cancel _ hb]
  · have hrest : 0 < c * a % b :=
      Nat.pos_of_ne_zero fun h => (hdvd.resolve_left hab) (Nat.dvd_of_mod_eq_zero h)
    have hless := Nat.mod_lt (c * a) hb
    have hexact := Nat.div_add_mod (c * a) b
    generalize c * a / b = n at *
    generalize c * a % b = r at *
    have hbq : (0 : ℚ) < b := by exact_mod_cast hb
    have hvalue : (a : ℚ) / b * c = n + r / b := by
      field_simp
      rw [mul_comm]
      exact_mod_cast hexact.symm
    have hnear := scaled_near (p := p) (x := (a : ℚ) / b) (by positivity) (c := (c : ℚ))
      (by positivity)
    -- the roundings move the exact number by less than a part of `b`
    have hmove : |nearest p (nearest p ((a : ℚ) / b) * c) - (a : ℚ) / b * c| < 1 / b := by
      have hroom : (4 : ℚ) * (c * a) < 2 ^ p := by exact_mod_cast hsmall
      have hscale : (4 : ℚ) * (a / b * c) < 2 ^ p * (1 / b) := by
        rw [mul_one_div, lt_div_iff₀ hbq]
        calc (4 : ℚ) * (a / b * c) * b = 4 * (c * a) := by field_simp
          _ < 2 ^ p := hroom
      have hpos : (0 : ℚ) ≤ a / b * c := by positivity
      exact lt_of_mul_lt_mul_left (by linarith : (2 : ℚ) ^ p * _ < 2 ^ p * (1 / b)) (by positivity)
    obtain ⟨hlow, hhigh⟩ := abs_lt.mp hmove
    have hr : (1 : ℚ) / b ≤ r / b := by
      gcongr
      exact_mod_cast hrest
    have hr' : (r : ℚ) / b + 1 / b ≤ 1 := by
      rw [← add_div, div_le_one hbq]
      exact_mod_cast hless
    have hn : (0 : ℚ) ≤ n := Nat.cast_nonneg n
    rw [Nat.floor_eq_iff (by linarith)]
    constructor <;> linarith

end Rounding
