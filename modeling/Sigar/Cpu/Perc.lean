/-
  CPU percentages, `sigar_cpu_perc_calculate` of `src/sigar_format.c`.

  The eight differences of two samples are formed, clamped at zero, and divided by their sum.  The
  arithmetic of the model is exact: the differences are 64-bit, everything after them is rational,
  and a quotient by zero is not a number (`none`).

  1. **The program** — `sigarCpuPercCalculate`.
  2. **Its purpose** — `Normalised`: every counter's advance as a share of all that advanced.
  3. **When it does that** — `sigarCpuPercCalculate_normalised_iff`.  The differences are UNSIGNED,
     so the clamp never acts and a counter that went back counts as nearly `2^64`; and samples that
     are equal give 0/0.
-/
import Sigar.Cpu.Metrics
import Mathlib.Algebra.Order.Field.Basic
import Mathlib.Tactic.Linarith

namespace Sigar.Cpu

/-! ## The program -/

/-- `sigar_cpu_perc_t`; `none` is a NaN. -/
structure SigarCpuPerc extends Counters (Option ℚ) where
  combined : Option ℚ
  deriving DecidableEq

/-- The quotient of two `double`s. -/
def quotient (x y : ℚ) : Option ℚ := if y = 0 then none else some (x / y)

/-- The sum of two `double`s. -/
def plus (x y : Option ℚ) : Option ℚ := x.bind fun a => y.map fun b => a + b

/-- `diff_user` and its seven siblings, before the clamp: an unsigned difference, then converted. -/
def difference (curr prev : UInt64) : ℚ := ((curr - prev).toNat : ℚ)

/-- `sigar_cpu_perc_calculate`. -/
def sigarCpuPercCalculate (prev curr : SigarCpu) : SigarCpuPerc :=
  let diff := curr.toCounters.zipWith difference prev.toCounters
  let diff := diff.map fun d => if d < 0 then 0 else d
  let perc := diff.map fun d => quotient d diff.sum
  { perc with combined := plus (plus (plus perc.user perc.sys) perc.nice) perc.wait }

/-! ## What it is for -/

/-- How far a counter advanced; one that went back did not. -/
def advance (curr prev : UInt64) : ℚ := ((curr.toNat - prev.toNat : ℕ) : ℚ)

/-- The advances of all counters. -/
def advances (prev curr : SigarCpu) : Counters ℚ :=
  curr.toCounters.zipWith advance prev.toCounters

/-- The fractions are the shares of the counters in all that advanced, and zero if nothing did. -/
def Normalised (prev curr : SigarCpu) (perc : SigarCpuPerc) : Prop :=
  ∃ fraction : Counters ℚ,
    perc.toCounters = fraction.map some ∧
    (∀ c, 0 ≤ fraction.get c ∧ fraction.get c ≤ 1) ∧
    ((advances prev curr).sum ≠ 0 →
      fraction.sum = 1 ∧
      ∀ c, fraction.get c = (advances prev curr).get c / (advances prev curr).sum) ∧
    ((advances prev curr).sum = 0 → ∀ c, fraction.get c = 0) ∧
    perc.combined = some (fraction.user + fraction.sys + fraction.nice + fraction.wait) ∧
    fraction.user + fraction.sys + fraction.nice + fraction.wait ≤ 1

/-! ## Records of rationals -/

namespace Counters

/-- No value is above the sum of values none of which is negative. -/
theorem get_le_sum {r : Counters ℚ} (h : ∀ c, 0 ≤ r.get c) (c : Counter) : r.get c ≤ r.sum := by
  have hu : 0 ≤ r.user := h .user
  have hs : 0 ≤ r.sys := h .sys
  have hn : 0 ≤ r.nice := h .nice
  have hi : 0 ≤ r.idle := h .idle
  have hw : 0 ≤ r.wait := h .wait
  have hq : 0 ≤ r.irq := h .irq
  have hf : 0 ≤ r.softIrq := h .softIrq
  have ht : 0 ≤ r.stolen := h .stolen
  cases c <;> simp only [get, sum] <;> linarith

/-- The four that are combined are not above the sum either. -/
theorem combined_le_sum {r : Counters ℚ} (h : ∀ c, 0 ≤ r.get c) :
    r.user + r.sys + r.nice + r.wait ≤ r.sum := by
  have hi : 0 ≤ r.idle := h .idle
  have hq : 0 ≤ r.irq := h .irq
  have hf : 0 ≤ r.softIrq := h .softIrq
  have ht : 0 ≤ r.stolen := h .stolen
  rw [sum]
  linarith

/-- A sum of values none of which is negative is zero only if all of them are. -/
theorem get_eq_zero {r : Counters ℚ} (h : ∀ c, 0 ≤ r.get c) (hsum : r.sum = 0) (c : Counter) :
    r.get c = 0 := by
  have hle : r.get c ≤ r.sum := get_le_sum h c
  rw [hsum] at hle
  exact le_antisymm hle (h c)

theorem sum_div (r : Counters ℚ) (t : ℚ) : (r.map (· / t)).sum = r.sum / t := by
  simp only [sum, map, add_div]

end Counters

/-! ## When it does that -/

section Samples

variable {prev curr : SigarCpu}

/-- The clamp never acts. -/
theorem difference_nonneg (curr prev : UInt64) : 0 ≤ difference curr prev := by
  rw [difference]
  exact Nat.cast_nonneg _

/-- What the eight differences are after the clamp. -/
def differences (prev curr : SigarCpu) : Counters ℚ :=
  curr.toCounters.zipWith difference prev.toCounters

theorem differences_nonneg (c : Counter) : 0 ≤ (differences prev curr).get c := by
  rw [differences, Counters.get_zipWith]
  exact difference_nonneg _ _

theorem advances_nonneg (c : Counter) : 0 ≤ (advances prev curr).get c := by
  rw [advances, Counters.get_zipWith, advance]
  exact Nat.cast_nonneg _

theorem sigarCpuPercCalculate_eq (prev curr : SigarCpu) :
    (sigarCpuPercCalculate prev curr).toCounters
      = (differences prev curr).map fun d => quotient d (differences prev curr).sum := by
  have hclamp : (differences prev curr).map (fun d => if d < 0 then 0 else d)
      = differences prev curr := by
    apply Counters.ext_get
    intro c
    rw [Counters.get_map, if_neg (not_lt.mpr (differences_nonneg c))]
  show ((differences prev curr).map fun d => if d < 0 then 0 else d).map
      (fun d => quotient d ((differences prev curr).map fun d => if d < 0 then 0 else d).sum) = _
  rw [hclamp]

/-- A counter that did not go back contributes its advance. -/
theorem difference_eq_advance {curr prev : UInt64} (h : prev ≤ curr) :
    difference curr prev = advance curr prev := by
  rw [difference, advance, UInt64.toNat_sub_of_le curr prev h]

/-- One that went back contributes something. -/
theorem difference_pos_of_lt {curr prev : UInt64} (h : curr < prev) : 0 < difference curr prev := by
  rw [difference]
  have hne : (curr - prev).toNat ≠ 0 := by
    intro hzero
    have hsub : curr - prev = 0 := UInt64.toNat_inj.mp hzero
    rw [UInt64.sub_eq_iff_eq_add, UInt64.zero_add] at hsub
    exact absurd h (hsub ▸ UInt64.lt_irrefl curr)
  exact_mod_cast Nat.pos_of_ne_zero hne

theorem advance_eq_zero_iff {curr prev : UInt64} : advance curr prev = 0 ↔ curr ≤ prev := by
  rw [advance, Nat.cast_eq_zero, Nat.sub_eq_zero_iff_le, UInt64.le_iff_toNat_le]

theorem differences_eq_advances (h : ∀ c, prev.get c ≤ curr.get c) :
    differences prev curr = advances prev curr := by
  apply Counters.ext_get
  intro c
  rw [differences, advances, Counters.get_zipWith, Counters.get_zipWith,
    difference_eq_advance (h c)]

/-- Something advanced exactly if the advances do not add up to zero. -/
theorem advances_sum_ne_zero_iff :
    (advances prev curr).sum ≠ 0 ↔ ∃ c, prev.get c < curr.get c := by
  constructor
  · intro hsum
    by_contra hnone
    apply hsum
    have hzero : ∀ c, (advances prev curr).get c = 0 := by
      grind [advances, Counters.get_zipWith, advance_eq_zero_iff, UInt64.not_lt.mp]
    have hall : advances prev curr = ⟨0, 0, 0, 0, 0, 0, 0, 0⟩ := by
      apply Counters.ext_get
      intro c
      rw [hzero c]
      cases c <;> rfl
    rw [hall]
    norm_num [Counters.sum]
  · rintro ⟨c, hc⟩ hsum
    have hzero := Counters.get_eq_zero advances_nonneg hsum c
    rw [advances, Counters.get_zipWith, advance_eq_zero_iff] at hzero
    exact absurd hc (UInt64.not_lt.mpr hzero)

/-- With a positive total the four fractions that are combined are numbers. -/
theorem combined_eq (fraction : Counters ℚ)
    (h : (sigarCpuPercCalculate prev curr).toCounters = fraction.map some) :
    (sigarCpuPercCalculate prev curr).combined
      = some (fraction.user + fraction.sys + fraction.nice + fraction.wait) := by
  have hperc : (sigarCpuPercCalculate prev curr).combined
      = plus (plus (plus (sigarCpuPercCalculate prev curr).user
          (sigarCpuPercCalculate prev curr).sys) (sigarCpuPercCalculate prev curr).nice)
          (sigarCpuPercCalculate prev curr).wait := rfl
  rw [hperc, h]
  rfl

/-- **The percentages are normalised** as long as no counter goes back and one advances. -/
theorem normalised_of_advance (hback : ∀ c, prev.get c ≤ curr.get c)
    (hsome : ∃ c, prev.get c < curr.get c) :
    Normalised prev curr (sigarCpuPercCalculate prev curr) := by
  have hsum : (advances prev curr).sum ≠ 0 := advances_sum_ne_zero_iff.mpr hsome
  have hpos : 0 < (advances prev curr).sum :=
    lt_of_le_of_ne
      (le_trans (advances_nonneg .user) (Counters.get_le_sum advances_nonneg .user)) hsum.symm
  have hperc : (sigarCpuPercCalculate prev curr).toCounters
      = ((advances prev curr).map (· / (advances prev curr).sum)).map some := by
    rw [sigarCpuPercCalculate_eq, differences_eq_advances hback]
    apply Counters.ext_get
    intro c
    rw [Counters.get_map, Counters.get_map, Counters.get_map, quotient, if_neg hsum]
  have hnonneg : ∀ c, 0 ≤ ((advances prev curr).map (· / (advances prev curr).sum)).get c := by
    intro c
    rw [Counters.get_map]
    exact div_nonneg (advances_nonneg c) hpos.le
  have hone : ((advances prev curr).map (· / (advances prev curr).sum)).sum = 1 := by
    rw [Counters.sum_div, div_self hsum]
  refine ⟨_, hperc, fun c => ⟨hnonneg c, ?_⟩, fun _ => ⟨hone, fun c => Counters.get_map _ _ c⟩,
    fun hzero => absurd hzero hsum, combined_eq _ hperc, ?_⟩
  · rw [← hone]
    exact Counters.get_le_sum hnonneg c
  · rw [← hone]
    exact Counters.combined_le_sum hnonneg

/-- A counter that went back has a fraction above zero, where its share is zero. -/
theorem not_normalised_of_back {c : Counter} (h : curr.get c < prev.get c) :
    ¬ Normalised prev curr (sigarCpuPercCalculate prev curr) := by
  rintro ⟨fraction, hperc, -, hshare, hzero, -⟩
  have hpos : 0 < (differences prev curr).get c := by
    rw [differences, Counters.get_zipWith]
    exact difference_pos_of_lt h
  have htotal : 0 < (differences prev curr).sum :=
    lt_of_lt_of_le hpos (Counters.get_le_sum differences_nonneg c)
  have hfraction : fraction.get c = (differences prev curr).get c / (differences prev curr).sum := by
    have hget := congrArg (fun r => r.get c) hperc
    simp only [sigarCpuPercCalculate_eq, Counters.get_map, quotient, if_neg htotal.ne'] at hget
    exact (Option.some.inj hget).symm
  have hshare0 : fraction.get c = 0 := by
    grind [advances, Counters.get_zipWith, advance_eq_zero_iff, zero_div, UInt64.le_of_lt]
  have hne : (differences prev curr).get c / (differences prev curr).sum ≠ 0 :=
    (div_pos hpos htotal).ne'
  exact hne (hfraction ▸ hshare0)

/-- Equal samples give no numbers at all. -/
theorem not_normalised_of_still (hback : ∀ c, prev.get c ≤ curr.get c)
    (hnone : ¬ ∃ c, prev.get c < curr.get c) :
    ¬ Normalised prev curr (sigarCpuPercCalculate prev curr) := by
  rintro ⟨fraction, hperc, -⟩
  have hsum : (differences prev curr).sum = 0 := by
    rw [differences_eq_advances hback]
    by_contra hsum
    exact hnone (advances_sum_ne_zero_iff.mp hsum)
  have hget := congrArg (fun r => r.get .user) hperc
  simp only [sigarCpuPercCalculate_eq, Counters.get_map, quotient, if_pos hsum] at hget
  cases hget

/-- **The percentages are what they are for** exactly if no counter went back between the samples
    and at least one advanced. -/
theorem sigarCpuPercCalculate_normalised_iff (prev curr : SigarCpu) :
    Normalised prev curr (sigarCpuPercCalculate prev curr) ↔
      (∀ c, prev.get c ≤ curr.get c) ∧ ∃ c, prev.get c < curr.get c := by
  constructor
  · intro h
    have hback : ∀ c, prev.get c ≤ curr.get c := by
      intro c
      by_contra hc
      exact not_normalised_of_back (UInt64.not_le.mp hc) h
    refine ⟨hback, ?_⟩
    by_contra hnone
    exact not_normalised_of_still hback hnone h
  · rintro ⟨hback, hsome⟩
    exact normalised_of_advance hback hsome

end Samples

/-- `user` falls from 1 to 0 while `idle` goes from 0 to 1: the user fraction is not 0 but
    (2^64 - 1)/2^64. -/
theorem sigarCpuPercCalculate_user_went_back :
    (sigarCpuPercCalculate ⟨⟨1, 0, 0, 0, 0, 0, 0, 0⟩, 1⟩ ⟨⟨0, 0, 0, 1, 0, 0, 0, 0⟩, 1⟩).user
        = some (18446744073709551615 / 18446744073709551616) ∧
      ¬ Normalised ⟨⟨1, 0, 0, 0, 0, 0, 0, 0⟩, 1⟩ ⟨⟨0, 0, 0, 1, 0, 0, 0, 0⟩, 1⟩
        (sigarCpuPercCalculate ⟨⟨1, 0, 0, 0, 0, 0, 0, 0⟩, 1⟩
          ⟨⟨0, 0, 0, 1, 0, 0, 0, 0⟩, 1⟩) := by
  refine ⟨by decide +kernel, not_normalised_of_back (c := .user) ?_⟩
  decide

end Sigar.Cpu
