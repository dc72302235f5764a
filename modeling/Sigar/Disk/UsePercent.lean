/-
  How full a file system is.

  Source: `sigar_file_system_usage_calc_used` of `sigar_util.c`.

  The share of the used space is rounded up to whole percents.  It is computed in `unsigned long`,
  and that has 32 bits on Windows and in 32-bit builds: there the kilobytes and their hundredfold
  are cut to 32 bits before the division.  `percent` divides in UNBOUNDED integers; it depends on
  the used and the available kilobytes only, it is in [0, 1] and it grows with the used ones.

  The quotient of the last line is a `double` in the source and a rational here.
-/
import Sigar.Base
import Mathlib.Data.Rat.Floor
import Mathlib.Tactic.Positivity

namespace Sigar.Disk

/-! ## The program -/

/-- The sizes that `unsigned long` has. -/
inductive LongWidth where
  | bits32  -- LLP64 (Windows), and 32-bit builds
  | bits64
  deriving DecidableEq

/-- The number of values of an `unsigned long`. -/
def LongWidth.values : LongWidth → Nat
  | .bits32 => 4294967296
  | .bits64 => 18446744073709551616

/-- What the computation reads of a `sigar_file_system_usage_t`. -/
structure FileSystemUsage where
  total : UInt64
  free : UInt64
  avail : UInt64
  deriving DecidableEq

/-- `sigar_file_system_usage_calc_used`; the variables of the type `unsigned long` are reduced to
    its width. -/
def sigarFileSystemUsageCalcUsed (w : LongWidth) (fsusage : FileSystemUsage) : ℚ :=
  let bUsed := (fsusage.total - fsusage.free) / 1024
  let bAvail := fsusage.avail / 1024
  let utotal := (bUsed + bAvail).toNat % w.values
  let used := bUsed.toNat % w.values
  if utotal ≠ 0 then
    let u100 := used * 100 % w.values
    let pct := (u100 / utotal + if u100 % utotal ≠ 0 then 1 else 0) % w.values
    pct / 100
  else 0

/-! ## The share -/

/-- The used kilobytes, if no more is free than there is. -/
def usedKb (fsusage : FileSystemUsage) : Nat := (fsusage.total.toNat - fsusage.free.toNat) / 1024

/-- The available kilobytes. -/
def availKb (fsusage : FileSystemUsage) : Nat := fsusage.avail.toNat / 1024

/-- Whole percents, rounded up. -/
def percent (u a : Nat) : ℚ := if u + a = 0 then 0 else ⌈(100 * u : ℚ) / (u + a)⌉ / 100

/-- Rounding a quotient up. -/
theorem ceil_div_eq (n : Nat) {d : Nat} (hd : 0 < d) :
    ⌈(n : ℚ) / d⌉ = ((n / d + if n % d ≠ 0 then 1 else 0 : Nat) : Int) := by
  have hsplit := Nat.div_add_mod n d
  have hmod := Nat.mod_lt n hd
  generalize n / d = q at *
  generalize n % d = r at *
  subst hsplit
  have hpos : (0 : ℚ) < d := by exact_mod_cast hd
  have hless : (r : ℚ) < d := by exact_mod_cast hmod
  rw [Int.ceil_eq_iff, lt_div_iff₀ hpos, div_le_iff₀ hpos]
  by_cases hzero : r = 0
  · rw [hzero, if_neg (not_not_intro rfl)]
    push_cast
    constructor <;> linarith
  · have hrest : (0 : ℚ) < r := by exact_mod_cast Nat.pos_of_ne_zero hzero
    rw [if_pos hzero]
    push_cast
    constructor <;> linarith

/-- The two percents are the same number in another form. -/
theorem percent_eq {u a : Nat} (h : u + a ≠ 0) :
    percent u a
      = ((100 * u / (u + a) + if 100 * u % (u + a) ≠ 0 then 1 else 0 : Nat) : ℚ) / 100 := by
  have hceil := ceil_div_eq (100 * u) (Nat.pos_of_ne_zero h)
  push_cast at hceil
  rw [percent, if_neg h, hceil]
  push_cast
  rfl

theorem percent_nonneg (u a : Nat) : 0 ≤ percent u a := by
  rw [percent]
  split
  · exact le_refl 0
  · have hquot : (0 : ℚ) ≤ 100 * u / (u + a) := by positivity
    have hceil : (0 : ℚ) ≤ (⌈(100 * u : ℚ) / (u + a)⌉ : Int) := by
      exact_mod_cast Int.ceil_nonneg hquot
    positivity

theorem percent_le_one (u a : Nat) : percent u a ≤ 1 := by
  rw [percent]
  split
  · exact zero_le_one
  · next h =>
    have hpos : (0 : ℚ) < u + a := by exact_mod_cast Nat.pos_of_ne_zero h
    have hquot : (100 * u : ℚ) / (u + a) ≤ (100 : Int) := by
      have hu : (0 : ℚ) ≤ a := by positivity
      rw [div_le_iff₀ hpos]
      push_cast
      linarith
    have hceil : ((⌈(100 * u : ℚ) / (u + a)⌉ : Int) : ℚ) ≤ 100 := by
      exact_mod_cast Int.ceil_le.mpr hquot
    linarith

/-- More used space is no smaller share. -/
theorem percent_mono {u u' : Nat} (h : u ≤ u') (a : Nat) : percent u a ≤ percent u' a := by
  by_cases hzero : u + a = 0
  · rw [percent, if_pos hzero]
    exact percent_nonneg u' a
  · have hzero' : u' + a ≠ 0 := by omega
    have hpos : (0 : ℚ) < u + a := by exact_mod_cast Nat.pos_of_ne_zero hzero
    have hpos' : (0 : ℚ) < u' + a := by exact_mod_cast Nat.pos_of_ne_zero hzero'
    have hle : (u : ℚ) ≤ u' := by exact_mod_cast h
    have ha : (0 : ℚ) ≤ a := by positivity
    have hquot : (100 * u : ℚ) / (u + a) ≤ 100 * u' / (u' + a) := by
      rw [div_le_div_iff₀ hpos hpos']
      nlinarith
    have hceil : ((⌈(100 * u : ℚ) / (u + a)⌉ : Int) : ℚ) ≤ ⌈(100 * u' : ℚ) / (u' + a)⌉ := by
      exact_mod_cast Int.ceil_mono hquot
    rw [percent, percent, if_neg hzero, if_neg hzero']
    linarith

/-- A share of nothing is nothing, and no other one is. -/
theorem percent_zero (a : Nat) : percent 0 a = 0 := by
  rw [percent]
  split
  · rfl
  · simp

theorem percent_pos {u : Nat} (hu : 0 < u) (a : Nat) : 0 < percent u a := by
  have hzero : u + a ≠ 0 := by omega
  have hu' : (0 : ℚ) < u := by exact_mod_cast hu
  have hquot : (0 : ℚ) < 100 * u / (u + a) := by positivity
  have hceil : (0 : ℚ) < (⌈(100 * u : ℚ) / (u + a)⌉ : Int) := by
    exact_mod_cast Int.ceil_pos.mpr hquot
  rw [percent, if_neg hzero]
  positivity

/-! ## When the program computes it -/

variable {w : LongWidth} {fsusage : FileSystemUsage}

theorem toNat_bUsed (h : fsusage.free ≤ fsusage.total) :
    ((fsusage.total - fsusage.free) / 1024).toNat = usedKb fsusage := by
  rw [UInt64.toNat_div, UInt64.toNat_sub_of_le _ _ h]
  rfl

theorem toNat_bAvail (fsusage : FileSystemUsage) :
    (fsusage.avail / 1024).toNat = availKb fsusage := by
  rw [UInt64.toNat_div]
  rfl

theorem usedKb_lt (fsusage : FileSystemUsage) : usedKb fsusage < 18014398509481984 := by
  have hlt := fsusage.total.toNat_lt
  rw [usedKb]
  omega

theorem availKb_lt (fsusage : FileSystemUsage) : availKb fsusage < 18014398509481984 := by
  have hlt := fsusage.avail.toNat_lt
  rw [availKb]
  omega

/-- The sum of the kilobytes does not overflow as a `sigar_uint64_t`. -/
theorem toNat_utotal (h : fsusage.free ≤ fsusage.total) :
    ((fsusage.total - fsusage.free) / 1024 + fsusage.avail / 1024).toNat
      = usedKb fsusage + availKb fsusage := by
  have hu := usedKb_lt fsusage
  have ha := availKb_lt fsusage
  rw [UInt64.toNat_add, toNat_bUsed h, toNat_bAvail]
  omega

/-- The program in natural numbers. -/
theorem calcUsed_eq (w : LongWidth) (h : fsusage.free ≤ fsusage.total) :
    sigarFileSystemUsageCalcUsed w fsusage
      = if (usedKb fsusage + availKb fsusage) % w.values ≠ 0 then
          (((usedKb fsusage % w.values * 100 % w.values
              / ((usedKb fsusage + availKb fsusage) % w.values)
            + if usedKb fsusage % w.values * 100 % w.values
                % ((usedKb fsusage + availKb fsusage) % w.values) ≠ 0 then 1 else 0)
              % w.values : Nat) : ℚ) / 100
        else 0 := by
  rw [sigarFileSystemUsageCalcUsed]
  simp only [toNat_utotal h, toNat_bUsed h]

/-- **The share is right where nothing is cut**: the used kilobytes a hundredfold, and the sum of
    both, are values of an `unsigned long`. -/
theorem calcUsed_percent (h : fsusage.free ≤ fsusage.total)
    (hused : 100 * usedKb fsusage < w.values)
    (hsum : usedKb fsusage + availKb fsusage < w.values) :
    sigarFileSystemUsageCalcUsed w fsusage = percent (usedKb fsusage) (availKb fsusage) := by
  have hone : usedKb fsusage < w.values := by omega
  rw [calcUsed_eq w h, Nat.mod_eq_of_lt hone, Nat.mod_eq_of_lt hsum, Nat.mul_comm,
    Nat.mod_eq_of_lt hused]
  by_cases hzero : usedKb fsusage + availKb fsusage = 0
  · rw [hzero, if_neg (not_not_intro rfl), percent, if_pos hzero]
  · have hquot : 100 * usedKb fsusage / (usedKb fsusage + availKb fsusage) ≤ 100 :=
      Nat.div_le_of_le_mul (by nlinarith)
    have hpct : (100 * usedKb fsusage / (usedKb fsusage + availKb fsusage)
        + if 100 * usedKb fsusage % (usedKb fsusage + availKb fsusage) ≠ 0 then 1 else 0)
          < w.values := by
      have hvalues : 101 < w.values := by cases w <;> decide
      split <;> omega
    rw [if_pos hzero, Nat.mod_eq_of_lt hpct, percent_eq hzero]

/-- Nothing used is the share 0, even where the sum is cut. -/
theorem calcUsed_zero (h : fsusage.free ≤ fsusage.total) (hused : usedKb fsusage = 0) :
    sigarFileSystemUsageCalcUsed w fsusage = percent (usedKb fsusage) (availKb fsusage) := by
  rw [calcUsed_eq w h, hused, percent_zero]
  split
  · simp
  · rfl

/-- A file system with the given kilobytes. -/
def ofKb (u a : Nat) : FileSystemUsage :=
  ⟨UInt64.ofNat (u * 1024), 0, UInt64.ofNat (a * 1024)⟩

theorem usedKb_ofKb {u : Nat} (hu : u < 18014398509481984) (a : Nat) : usedKb (ofKb u a) = u := by
  rw [usedKb, ofKb, UInt64.toNat_ofNat', UInt64.toNat_zero]
  omega

theorem availKb_ofKb (u : Nat) {a : Nat} (ha : a < 18014398509481984) :
    availKb (ofKb u a) = a := by
  rw [availKb, ofKb, UInt64.toNat_ofNat']
  omega

theorem free_ofKb (u a : Nat) : (ofKb u a).free ≤ (ofKb u a).total :=
  UInt64.le_iff_toNat_le.mpr (Nat.zero_le _)

/-! ## Every file system -/

/-- The share is right for the file systems with at most `maxUsed` kilobytes used and at most
    `maxAvail` available: it is `percent`, it is in [0, 1], and it does not decrease when the used
    kilobytes grow and the available ones do not change. -/
structure UsedRight (w : LongWidth) (maxUsed maxAvail : Nat) : Prop where
  exact : ∀ fsusage : FileSystemUsage, fsusage.free ≤ fsusage.total →
    usedKb fsusage ≤ maxUsed → availKb fsusage ≤ maxAvail →
      sigarFileSystemUsageCalcUsed w fsusage = percent (usedKb fsusage) (availKb fsusage)
  bounds : ∀ fsusage : FileSystemUsage, fsusage.free ≤ fsusage.total →
    usedKb fsusage ≤ maxUsed → availKb fsusage ≤ maxAvail →
      0 ≤ sigarFileSystemUsageCalcUsed w fsusage ∧ sigarFileSystemUsageCalcUsed w fsusage ≤ 1
  mono : ∀ fsusage fsusage' : FileSystemUsage, fsusage.free ≤ fsusage.total →
    fsusage'.free ≤ fsusage'.total → usedKb fsusage' ≤ maxUsed → availKb fsusage' ≤ maxAvail →
      usedKb fsusage ≤ usedKb fsusage' → availKb fsusage = availKb fsusage' →
        sigarFileSystemUsageCalcUsed w fsusage ≤ sigarFileSystemUsageCalcUsed w fsusage'

/-- It is enough that it is `percent`. -/
theorem usedRight_of_exact {maxUsed maxAvail : Nat}
    (hexact : ∀ fsusage : FileSystemUsage, fsusage.free ≤ fsusage.total →
      usedKb fsusage ≤ maxUsed → availKb fsusage ≤ maxAvail →
        sigarFileSystemUsageCalcUsed w fsusage = percent (usedKb fsusage) (availKb fsusage)) :
    UsedRight w maxUsed maxAvail where
  exact := hexact
  bounds := by
    intro fsusage h hu ha
    rw [hexact fsusage h hu ha]
    exact ⟨percent_nonneg _ _, percent_le_one _ _⟩
  mono := by
    intro fsusage fsusage' h h' hu ha hle hsame
    rw [hexact fsusage h (hle.trans hu) (hsame ▸ ha), hexact fsusage' h' hu ha, hsame]
    exact percent_mono hle _

/-- The hundredfold of the used kilobytes is cut: 42949673 of them make 4 of 2^32 + 4. -/
theorem calcUsed_hundredfold :
    sigarFileSystemUsageCalcUsed .bits32 (ofKb 42949673 0) ≠ percent 42949673 0 := by
  have hright : percent 42949673 0 = 1 := by
    rw [percent_eq (by decide)]
    norm_num
  have hcode : sigarFileSystemUsageCalcUsed .bits32 (ofKb 42949673 0) = 1 / 100 := by
    rw [calcUsed_eq .bits32 (free_ofKb _ _), usedKb_ofKb (by decide), availKb_ofKb _ (by decide)]
    norm_num [LongWidth.values]
  rw [hright, hcode]
  norm_num

/-- The sum is cut to 0. -/
theorem calcUsed_sumZero {u a : Nat} (hu : 0 < u) (hu' : u < 4294967296)
    (hsum : u + a = 4294967296) :
    sigarFileSystemUsageCalcUsed .bits32 (ofKb u a) ≠ percent u a := by
  have hcode : sigarFileSystemUsageCalcUsed .bits32 (ofKb u a) = 0 := by
    rw [calcUsed_eq .bits32 (free_ofKb _ _), usedKb_ofKb (by omega), availKb_ofKb _ (by omega),
      hsum]
    rfl
  rw [hcode]
  exact (percent_pos hu a).ne

/-- **How large a file system may be.**  With 64 bits there is no limit.  With 32 bits a hundred
    times the used kilobytes, and the used and available ones together, have to be below 2^32,
    unless nothing is used. -/
theorem usedRight_iff (w : LongWidth) (maxUsed maxAvail : Nat) :
    UsedRight w maxUsed maxAvail ↔
      w = .bits64 ∨ maxUsed = 0 ∨ (100 * maxUsed < 4294967296 ∧ maxUsed + maxAvail < 4294967296) := by
  constructor
  · intro h
    cases w with
    | bits64 => exact .inl rfl
    | bits32 =>
      right
      by_contra hcut
      rw [not_or, not_and_or, not_lt, not_lt] at hcut
      obtain ⟨hsome, hlong⟩ := hcut
      by_cases hhundred : 4294967296 ≤ 100 * maxUsed
      · have hright := h.exact (ofKb 42949673 0) (free_ofKb _ _)
          (by rw [usedKb_ofKb (by decide)]; omega) (by rw [availKb_ofKb _ (by decide)]; omega)
        rw [usedKb_ofKb (by decide), availKb_ofKb _ (by decide)] at hright
        exact calcUsed_hundredfold hright
      · -- all of `maxUsed` is used, and the rest of 2^32 is available
        have hsum : 4294967296 ≤ maxUsed + maxAvail := hlong.resolve_left hhundred
        have hright := h.exact (ofKb maxUsed (4294967296 - maxUsed)) (free_ofKb _ _)
          (by rw [usedKb_ofKb (by omega)]) (by rw [availKb_ofKb _ (by omega)]; omega)
        rw [usedKb_ofKb (by omega), availKb_ofKb _ (by omega)] at hright
        exact calcUsed_sumZero (by omega) (by omega) (by omega) hright
  · intro hfits
    apply usedRight_of_exact
    intro fsusage hfree hu ha
    rcases hfits with rfl | hzero | ⟨hused, hsum⟩
    · have hlt := usedKb_lt fsusage
      have hlt' := availKb_lt fsusage
      exact calcUsed_percent hfree (by rw [LongWidth.values]; omega)
        (by rw [LongWidth.values]; omega)
    · exact calcUsed_zero hfree (by omega)
    · have hvalues : 4294967296 ≤ w.values := by cases w <;> decide
      exact calcUsed_percent hfree (by omega) (by omega)

/-- **Fifty of a hundred gigabytes**: with 32 bits the share is 0.1 and not 0.5. -/
theorem fiftyGigabytes_wrong :
    sigarFileSystemUsageCalcUsed .bits32 ⟨107374182400, 53687091200, 53687091200⟩ = 1 / 10 ∧
      percent (usedKb ⟨107374182400, 53687091200, 53687091200⟩)
        (availKb ⟨107374182400, 53687091200, 53687091200⟩) = 1 / 2 := by
  constructor
  · rw [calcUsed_eq .bits32 (by decide)]
    have hu : usedKb ⟨107374182400, 53687091200, 53687091200⟩ = 52428800 := by decide
    have ha : availKb ⟨107374182400, 53687091200, 53687091200⟩ = 52428800 := by decide
    rw [hu, ha]
    norm_num [LongWidth.values]
  · have hu : usedKb ⟨107374182400, 53687091200, 53687091200⟩ = 52428800 := by decide
    have ha : availKb ⟨107374182400, 53687091200, 53687091200⟩ = 52428800 := by decide
    rw [hu, ha, percent_eq (by decide)]
    norm_num

end Sigar.Disk
