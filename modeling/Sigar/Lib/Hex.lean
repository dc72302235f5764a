/-
  Hexadecimal numerals in a text.

  `Writes width n digits` says that `digits` are `width` hexadecimal digits, each in EITHER CASE,
  that denote `n`: what `%08X` prints, what `%08x` prints, and every mixture.
  `Writes.strtoulHex_append` reads them back up to the blank that follows.
-/
import Sigar.Lib.CString
import Mathlib.Algebra.Group.Nat.Defs
import Mathlib.Data.List.Induction

namespace Hex

open CString List

/-- The codes of the digits: `0` to `9`, `a` to `f`, `A` to `F`. -/
theorem hexDigit_cases {c : Char} {d : Nat} (h : hexDigit c = some d) :
    (c.isDigit = true ∧ c.toNat = 48 + d ∧ d < 10)
      ∨ (c.isDigit = false ∧ c.toNat = 87 + d ∧ 10 ≤ d ∧ d < 16)
      ∨ (c.isDigit = false ∧ c.toNat = 55 + d ∧ 10 ≤ d ∧ d < 16) := by
  unfold hexDigit at h
  split at h
  case isTrue hdigit =>
    have hrange := hdigit
    rw [Char.isDigit, Bool.and_eq_true, decide_eq_true_eq, decide_eq_true_eq] at hrange
    have hlow : 48 ≤ c.toNat := UInt32.le_iff_toNat_le.mp hrange.1
    have hhigh : c.toNat ≤ 57 := UInt32.le_iff_toNat_le.mp hrange.2
    have hd : c.toNat - 48 = d := Option.some.inj h
    exact .inl ⟨hdigit, by omega, by omega⟩
  case isFalse hdigit =>
    have hother : c.isDigit = false := Bool.eq_false_iff.mpr hdigit
    split at h
    case isTrue hlower =>
      have hlow : 97 ≤ c.toNat := hlower.1
      have hhigh : c.toNat ≤ 102 := hlower.2
      have hd : c.toNat - 97 + 10 = d := Option.some.inj h
      exact .inr (.inl ⟨hother, by omega, by omega, by omega⟩)
    case isFalse =>
      split at h
      case isTrue hupper =>
        have hlow : 65 ≤ c.toNat := hupper.1
        have hhigh : c.toNat ≤ 70 := hupper.2
        have hd : c.toNat - 65 + 10 = d := Option.some.inj h
        exact .inr (.inr ⟨hother, by omega, by omega, by omega⟩)
      case isFalse => cases h

/-- A digit is neither a sign, a blank, a mark nor a separator. -/
theorem hexDigit_plain {c : Char} (h : (hexDigit c).isSome = true) :
    isSpace c = false ∧ c ≠ nul ∧ c ≠ '-' ∧ c ≠ '+' ∧ c ≠ 'x' ∧ c ≠ 'X' ∧ c ≠ ':' := by
  obtain ⟨d, hd⟩ := Option.isSome_iff_exists.mp h
  have hcode : 48 ≤ c.toNat := by
    rcases hexDigit_cases hd with hc | hc | hc <;> omega
  refine ⟨?_, ?_, ?_, ?_, ?_, ?_, ?_⟩
  case refine_1 => exact isSpace_of_le (Nat.le_trans (by decide) hcode)
  all_goals
    rintro rfl
    exact absurd h (by decide)

theorem skipHexMark_eq {p : Text} (h : deref p.tail ≠ 'x' ∧ deref p.tail ≠ 'X') :
    skipHexMark p = p := by
  unfold skipHexMark
  split
  case h_1 x d rest =>
    rw [if_neg]
    rintro ⟨hlower | hupper, -⟩
    · exact h.1 hlower
    · exact h.2 hupper
  case h_2 => rfl

/-! ## Numbers -/

/-- The digits, each of either case, of a number. -/
structure Writes (width n : Nat) (digits : Text) : Prop where
  length_eq : digits.length = width
  isDigit : ∀ c ∈ digits, (hexDigit c).isSome = true
  value_eq : hexDigitsValue digits = n

theorem writes_iff {width n : Nat} {digits : Text} :
    Writes width n digits ↔ digits.length = width ∧
      digits.all (fun c => (hexDigit c).isSome) = true ∧ hexDigitsValue digits = n := by
  rw [all_eq_true]
  exact ⟨fun h => ⟨h.length_eq, h.isDigit, h.value_eq⟩, fun h => ⟨h.1, h.2.1, h.2.2⟩⟩

instance (width n : Nat) (digits : Text) : Decidable (Writes width n digits) :=
  decidable_of_iff' _ writes_iff

theorem hexDigitsValue_concat (digits : Text) (c : Char) :
    hexDigitsValue (digits ++ [c]) = 16 * hexDigitsValue digits + (hexDigit c).getD 0 := by
  rw [hexDigitsValue, hexDigitsValue, foldl_append]
  rfl

/-- Sixteen digits fit 64 bits. -/
theorem hexDigitsValue_lt (digits : Text) : hexDigitsValue digits < 16 ^ digits.length := by
  induction digits using reverseRecOn with
  | nil => decide
  | append_singleton digits c ih =>
    have hc : (hexDigit c).getD 0 < 16 := by
      cases hdigit : hexDigit c with
      | none => decide
      | some d =>
        rcases hexDigit_cases hdigit with hd | hd | hd
        all_goals
          show d < 16
          omega
    rw [hexDigitsValue_concat, length_append, length_singleton, Nat.pow_succ]
    omega

section Writes

variable {width n : Nat} {digits : Text} (h : Writes width n digits)
include h

theorem Writes.ne_nil (hwidth : 0 < width) : digits ≠ [] := by
  rintro rfl
  have hzero : 0 = width := h.length_eq
  omega

theorem Writes.isToken : IsToken digits :=
  fun c hc => ⟨(hexDigit_plain (h.isDigit c hc)).2.1, (hexDigit_plain (h.isDigit c hc)).1⟩

/-- After its first digit a number goes on with a digit or ends at a blank. -/
theorem Writes.tail_plain (hwidth : 0 < width) {rest : Text}
    (hrest : isSpace (deref rest) = true) :
    deref (digits ++ rest).tail ≠ 'x' ∧ deref (digits ++ rest).tail ≠ 'X' := by
  cases digits with
  | nil => exact absurd rfl (h.ne_nil hwidth)
  | cons c digits =>
    show deref (digits ++ rest) ≠ 'x' ∧ deref (digits ++ rest) ≠ 'X'
    cases digits with
    | nil =>
      rw [nil_append]
      constructor
      all_goals
        intro heq
        rw [heq] at hrest
        exact absurd hrest (by decide)
    | cons c' digits =>
      have hdigit := hexDigit_plain (h.isDigit c' (mem_cons_of_mem c mem_cons_self))
      exact ⟨hdigit.2.2.2.2.1, hdigit.2.2.2.2.2.1⟩

/-- **A written number is read back** up to the blank that ends it. -/
theorem Writes.strtoulHex_append (hwidth : 0 < width) (hfits : width ≤ 16) {rest : Text}
    (hrest : isSpace (deref rest) = true) :
    strtoulHex (digits ++ rest) = ⟨UInt64.ofNat n, rest, false⟩ := by
  have hstart : (digits ++ rest).dropWhile isSpace = digits ++ rest
      ∧ takeSign (digits ++ rest) = (false, digits ++ rest) := by
    cases digits with
    | nil => exact absurd rfl (h.ne_nil hwidth)
    | cons c digits =>
      have hplain := hexDigit_plain (h.isDigit c mem_cons_self)
      exact ⟨dropWhile_cons_of_neg (by simp [hplain.1]),
        takeSign_cons hplain.2.2.1 hplain.2.2.2.1⟩
  have hend : hexDigit (deref rest) = none := by
    cases hdigit : hexDigit (deref rest) with
    | none => rfl
    | some d =>
      have hplain := hexDigit_plain (Option.isSome_iff_exists.mpr ⟨d, hdigit⟩)
      rw [hplain.1] at hrest
      cases hrest
  have htake : (digits ++ rest).takeWhile (fun c => (hexDigit c).isSome) = digits :=
    takeWhile_stop h.isDigit (by rw [hend]; rfl)
  have hdrop : (digits ++ rest).dropWhile (fun c => (hexDigit c).isSome) = rest :=
    dropWhile_stop h.isDigit (by rw [hend]; rfl)
  have hsmall : ¬ 18446744073709551616 ≤ n := by
    have hlt := hexDigitsValue_lt digits
    have hpow : 16 ^ digits.length ≤ 16 ^ 16 :=
      Nat.pow_le_pow_right (by decide) (h.length_eq ▸ hfits)
    rw [h.value_eq] at hlt
    omega
  have hmark := skipHexMark_eq (h.tail_plain hwidth hrest)
  simp only [strtoulHex, hstart.1, hstart.2, hmark, htake, hdrop, if_neg (h.ne_nil hwidth),
    h.value_eq, if_neg hsmall]
  rfl

end Writes

end Hex
