/-
  Conversions between machine integers, as integers.

  A C conversion to a narrower signed type keeps the value modulo `2^32`; one to a wider unsigned
  type extends the sign.  Both are stated here with `%` on `Int`, so that `omega` can go on.
-/
import Mathlib.Data.Int.Order.Basic

namespace Words

/-- The value of an `int` that is stored from the integer `x`. -/
def wrap32 (x : Int) : Int := (x + 2147483648) % 4294967296 - 2147483648

theorem bmod_eq_wrap32 (x : Int) : x.bmod 4294967296 = wrap32 x := by
  rw [Int.bmod_def, wrap32]
  split <;> omega

theorem wrap32_of_fits {x : Int} (hlow : -2147483648 ≤ x) (hhigh : x < 2147483648) :
    wrap32 x = x := by
  rw [wrap32]
  omega

theorem toInt_ofInt (x : Int) : (Int32.ofInt x).toInt = wrap32 x := by
  rw [Int32.toInt_ofInt]
  exact bmod_eq_wrap32 x

theorem toInt_ofNat (n : Nat) : (Int32.ofNat n).toInt = wrap32 n := by
  rw [Int32.toInt_ofNat']
  exact bmod_eq_wrap32 n

/-- The difference of two stored integers is the stored difference. -/
theorem wrap32_sub_wrap32 (x y : Int) : wrap32 (wrap32 x - wrap32 y) = wrap32 (x - y) := by
  simp only [wrap32]
  omega

theorem neg_iff_toInt {a : Int32} : a < 0 ↔ a.toInt < 0 := by
  rw [Int32.lt_iff_toInt_lt, Int32.toInt_zero]

theorem nonneg_iff_toInt {a : Int32} : 0 ≤ a ↔ 0 ≤ a.toInt := by
  rw [Int32.le_iff_toInt_le, Int32.toInt_zero]

/-- An `int` as an unsigned 64-bit number. -/
theorem toNat_signExtend (a : Int32) :
    (a.toInt64.toUInt64.toNat : Int)
      = if 0 ≤ a.toInt then a.toInt else a.toInt + 18446744073709551616 := by
  have hint : a.toInt64.toInt = a.toInt := Int32.toInt_toInt64 a
  have hbits := BitVec.toInt_eq_toNat_cond a.toInt64.toBitVec
  have hlt := a.toInt64.toBitVec.isLt
  rw [← hint, show a.toInt64.toInt = a.toInt64.toBitVec.toInt from rfl,
    show a.toInt64.toUInt64.toNat = a.toInt64.toBitVec.toNat from rfl]
  omega

/-- The residue that an unsigned 64-bit number is. -/
theorem toNat_ofInt64 (n : Int) :
    ((UInt64.ofInt n).toNat : Int) = n % 18446744073709551616 := by
  rw [UInt64.ofInt, UInt64.toNat_ofNat']
  omega

@[inherit_doc toNat_ofInt64] theorem toNat_ofInt64_toUInt32 (n : Int) :
    ((UInt64.ofInt n).toUInt32.toNat : Int) = n % 4294967296 := by
  have hwide := toNat_ofInt64 n
  rw [UInt64.toNat_toUInt32]
  omega

/-- The same 32 bits without and with a sign. -/
theorem toNat_eq_toInt32_mod (a : UInt32) : (a.toNat : Int) = a.toInt32.toInt % 4294967296 := by
  have hbits := BitVec.toInt_eq_toNat_cond a.toBitVec
  have hlt := a.toBitVec.isLt
  rw [show a.toInt32.toInt = a.toBitVec.toInt from rfl, show a.toNat = a.toBitVec.toNat from rfl]
  omega

end Words
