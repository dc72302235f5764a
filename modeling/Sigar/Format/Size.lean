/-
  A size in four characters.

  Source: `sigar_format_size` of `sigar_format.c`, "copy apr_strfsize".

  Every round of the loop divides by 1024 and DISCARDS the remainder of the round before, so what
  is printed is rounded from the last ten bits only.  With `m` the size in units of the next smaller
  letter, the tenths that are printed are `tenths m`: up to 9.9 they are `m * 10 / 1024` rounded to
  a whole number, and from there on whole units.  That function is monotone, and across the letters
  it is compared at the threshold of 973.

  A text is read back by `reading`, and `Reading.value` is what it denotes.
-/
import Sigar.Base
import Sigar.Lib.Loop
import Sigar.Lib.Numerals
import Mathlib.Tactic.Linarith
import Mathlib.Tactic.Positivity
import Mathlib.Tactic.Ring

namespace Sigar.Format

open Loop Numerals CString List

variable {m : Nat} {size : UInt64} {k : Nat} {unit : Char}

/-! ## The program -/

/-- `ord`, without its terminator. -/
def ord : Text := ['K', 'M', 'G', 'T', 'P', 'E']

/-- How the function can fail to return. -/
inductive SizeFault where
  | outside  -- `*o` behind the last letter
  | rounds   -- more rounds than the loop was given
  deriving DecidableEq

/-- `%3d`. -/
def padThree (n : Nat) : Text := replicate (3 - (renderNat n).length) ' ' ++ renderNat n

/-- `%d.%d`. -/
def pointed (n r : Nat) : Text := renderNat n ++ '.' :: renderNat r

/-- The variables of the loop, and the text once the function has returned. -/
structure SizeLoop where
  size : UInt64
  o : Nat
  buf : Option Text

variable {s : SizeLoop}

/-- The text of the last round, without the letter. -/
def lastDigits (size : UInt64) (remain : Nat) : Text :=
  if size < 9 ∨ (size = 9 ∧ remain < 973) then
    let tenth := (remain * 5 + 256) / 512
    if 10 ≤ tenth then pointed (size + 1).toNat 0 else pointed size.toNat tenth
  else if 512 ≤ remain then padThree (size + 1).toNat
  else padThree size.toNat

/-- One round. -/
def sizeRound (s : SizeLoop) : Except SizeFault SizeLoop :=
  let remain := (s.size &&& 1023).toNat
  let size := s.size >>> 10
  if 973 ≤ size then .ok ⟨size, s.o + 1, none⟩
  else match ord[s.o]? with
    | none => .error .outside
    | some unit => .ok ⟨size, s.o, some (lastDigits size remain ++ [unit])⟩

/-- The loop goes on until the function returns. -/
def SizeLoop.live (s : SizeLoop) : Bool := s.buf.isNone

/-- `sigar_format_size`, with a bound on the rounds of its loop. -/
def sigarFormatSize (rounds : Nat) (size : UInt64) : Except SizeFault Text :=
  if size = sigarFieldNotImpl then .ok ['-']
  else if size < 973 then .ok (padThree size.toNat ++ [' '])
  else (iterate SizeLoop.live sizeRound .rounds rounds ⟨size, 0, none⟩).map (·.buf.getD [])

/-! ## What a text denotes -/

/-- The two forms: `ddd` units, and `d.d` units; the unit is a power of 1024. -/
inductive Reading where
  | whole (n k : Nat)
  | tenths (n r k : Nat)
  deriving DecidableEq

/-- The number of bytes. -/
def Reading.value : Reading → ℚ
  | .whole n k => n * 1024 ^ k
  | .tenths n r k => (n + r / 10) * 1024 ^ k

/-- How far a text may be from the size it stands for. -/
def Reading.tolerance : Reading → ℚ
  | .whole _ k => 1 / 2 * 1024 ^ k
  | .tenths _ _ k => (1 / 20 + 1 / 1024) * 1024 ^ k

/-- The power of a letter; a blank is for bytes. -/
def unitOf (c : Char) : Option Nat := if c = ' ' then some 0 else (ord.idxOf? c).map (· + 1)

/-- The digits of the four characters, without the letter. -/
def digitsOf (a b c : Char) (k : Nat) : Option Reading :=
  if b = '.' then
    if a.isDigit ∧ c.isDigit then some (.tenths (digitsValue [a]) (digitsValue [c]) k) else none
  else
    let digits := [a, b, c].dropWhile (· == ' ')
    if digits ≠ [] ∧ digits.all Char.isDigit then some (.whole (digitsValue digits) k) else none

/-- A text of four characters, read. -/
def reading : Text → Option Reading
  | [a, b, c, unit] => (unitOf unit).bind (digitsOf a b c)
  | _ => none

example : reading "9.5G".toList = some (.tenths 9 5 3) := by decide

/-! ## The last round -/

/-- The tenths of a unit that are printed for `m` parts of 1024. -/
def tenthsOf (m : Nat) : Nat := if m < 10189 then (5 * m + 256) / 512 else 10 * ((m + 512) / 1024)

/-- The form in which they are printed. -/
def readingOf (m k : Nat) : Reading :=
  if m < 10189 then .tenths (tenthsOf m / 10) (tenthsOf m % 10) k else .whole ((m + 512) / 1024) k

/-- The digits of that form. -/
def digitsText (m : Nat) : Text :=
  if m < 10189 then pointed (tenthsOf m / 10) (tenthsOf m % 10) else padThree ((m + 512) / 1024)

theorem tenthsOf_mono {m' : Nat} (h : m ≤ m') : tenthsOf m ≤ tenthsOf m' := by
  unfold tenthsOf
  split <;> split <;> omega

theorem ten_le_tenthsOf (h : 973 ≤ m) : 10 ≤ tenthsOf m := by
  unfold tenthsOf
  split <;> omega

theorem tenthsOf_le (h : m / 1024 < 973) : tenthsOf m ≤ 9730 := by
  unfold tenthsOf
  split <;> omega

theorem value_readingOf (m k : Nat) : 10 * (readingOf m k).value = tenthsOf m * 1024 ^ k := by
  unfold readingOf
  split
  case isTrue h =>
    have hsplit : ((10 * (tenthsOf m / 10) + tenthsOf m % 10 : Nat) : ℚ) = tenthsOf m := by
      rw [Nat.div_add_mod]
    rw [Reading.value, ← hsplit]
    push_cast
    ring
  case isFalse h =>
    rw [Reading.value, tenthsOf, if_neg h]
    push_cast
    ring

/-- A carry of the tenths goes into the digit before the point. -/
theorem lastDigits_eq (hsize : size.toNat = m / 1024) (hless : m / 1024 < 973) :
    lastDigits size (m % 1024) = digitsText m := by
  have hnext : (size + 1).toNat = m / 1024 + 1 := by
    simp [UInt64.toNat_add, hsize]
    omega
  have hpoint : (size < 9 ∨ (size = 9 ∧ m % 1024 < 973)) ↔ m < 10189 := by
    rw [UInt64.lt_iff_toNat_lt, ← UInt64.toNat_inj, hsize]
    show (m / 1024 < 9 ∨ m / 1024 = 9 ∧ m % 1024 < 973) ↔ _
    omega
  rw [lastDigits, digitsText, if_congr hpoint rfl rfl, hnext, hsize]
  split
  case isTrue h =>
    have htenths : tenthsOf m = 10 * (m / 1024) + (m % 1024 * 5 + 256) / 512 := by
      rw [tenthsOf, if_pos h]
      omega
    dsimp only
    split
    case isTrue hcarry => grind
    case isFalse hcarry => grind
  case isFalse h => grind

/-! ## Reading the digits back -/

theorem length_padThree {n : Nat} (h : n < 1000) : (padThree n).length = 3 := by
  have hlen : (renderNat n).length ≤ 3 := length_renderNat_le h
  rw [padThree, length_append, length_replicate]
  omega

theorem dropWhile_padThree (n : Nat) : (padThree n).dropWhile (· == ' ') = renderNat n := by
  refine dropWhile_stop (fun c hc => ?_) ?_
  · rw [eq_of_mem_replicate hc]
    rfl
  · cases hdigits : renderNat n with
    | nil => rfl
    | cons c digits =>
      have hc : c.isDigit = true :=
        isDigit_of_mem_renderNat (hdigits ▸ mem_cons_self : c ∈ renderNat n)
      show (c == ' ') = false
      rw [beq_eq_false_iff_ne]
      rintro rfl
      exact absurd hc (by decide)

theorem point_notMem_padThree (n : Nat) : '.' ∉ padThree n := by
  intro h
  rcases mem_append.mp h with h | h
  · exact absurd (eq_of_mem_replicate h) (by decide)
  · exact absurd (isDigit_of_mem_renderNat h) (by decide)

/-- The form `ddd` is read back. -/
theorem reading_padThree {n : Nat} (h : n < 1000) (hunit : unitOf unit = some k) :
    reading (padThree n ++ [unit]) = some (.whole n k) := by
  have hlen := length_padThree h
  have hdrop := dropWhile_padThree n
  have hpoint := point_notMem_padThree n
  match hpad : padThree n, hlen with
  | [a, b, c], _ =>
    rw [hpad] at hdrop hpoint
    have hb : b ≠ '.' := fun heq => hpoint (heq ▸ by simp)
    show (unitOf unit).bind (digitsOf a b c) = _
    rw [hunit]
    show digitsOf a b c k = _
    rw [digitsOf, if_neg hb, hdrop]
    dsimp only
    rw [if_pos ⟨renderNat_ne_nil n, all_eq_true.mpr fun _ => isDigit_of_mem_renderNat⟩,
      digitsValue_renderNat]

/-- The form `d.d` is read back. -/
theorem reading_pointed {n r : Nat} (hn : n < 10) (hr : r < 10) (hunit : unitOf unit = some k) :
    reading (pointed n r ++ [unit]) = some (.tenths n r k) := by
  have hnd : (Nat.digitChar n).isDigit = true :=
    isDigit_of_mem_renderNat (by rw [renderNat_digit hn]; exact mem_singleton_self _)
  have hrd : (Nat.digitChar r).isDigit = true :=
    isDigit_of_mem_renderNat (by rw [renderNat_digit hr]; exact mem_singleton_self _)
  have hnv : digitsValue [Nat.digitChar n] = n := by rw [← renderNat_digit hn, digitsValue_renderNat]
  have hrv : digitsValue [Nat.digitChar r] = r := by rw [← renderNat_digit hr, digitsValue_renderNat]
  rw [pointed, renderNat_digit hn, renderNat_digit hr]
  show (unitOf unit).bind (digitsOf (Nat.digitChar n) '.' (Nat.digitChar r)) = _
  rw [hunit]
  show digitsOf (Nat.digitChar n) '.' (Nat.digitChar r) k = _
  rw [digitsOf, if_pos rfl, if_pos ⟨hnd, hrd⟩, hnv, hrv]

theorem length_pointed {n r : Nat} (hn : n < 10) (hr : r < 10) : (pointed n r).length = 3 := by
  rw [pointed, renderNat_digit hn, renderNat_digit hr]
  rfl

/-- **The text of the last round** has four characters and is read as what was printed. -/
theorem digitsText_spec (hless : m / 1024 < 973) (hunit : unitOf unit = some k) :
    (digitsText m ++ [unit]).length = 4 ∧
    reading (digitsText m ++ [unit]) = some (readingOf m k) := by
  rw [digitsText, readingOf, length_append]
  split
  case isTrue h =>
    have hten : tenthsOf m / 10 < 10 := by
      rw [tenthsOf, if_pos h]
      omega
    have hmod : tenthsOf m % 10 < 10 := Nat.mod_lt _ (by decide)
    exact ⟨by rw [length_pointed hten hmod]; rfl, reading_pointed hten hmod hunit⟩
  case isFalse h =>
    have hn : (m + 512) / 1024 < 1000 := by omega
    exact ⟨by rw [length_padThree hn]; rfl, reading_padThree hn hunit⟩

/-! ## The rounds -/

/-- How a size is printed: as it is, or in the first unit of which there are less than 973. -/
inductive Shown (size : Nat) : Reading → Prop where
  | bytes (hless : size < 973) : Shown size (.whole size 0)
  | units (j : Nat) (hmore : 973 ≤ size / 1024 ^ j) (hless : size / 1024 ^ j / 1024 < 973) :
      Shown size (readingOf (size / 1024 ^ j) (j + 1))

/-- A letter of `ord`. -/
def letter (j : Nat) : Char := ord.getD j ' '

theorem ord_letter : ∀ j < 6, ord[j]? = some (letter j) := by decide

theorem unitOf_letter : ∀ j < 6, unitOf (letter j) = some (j + 1) := by decide

/-- How many letters are left. -/
def SizeLoop.left (s : SizeLoop) : Nat := if s.live then 6 - s.o else 0

theorem live_of_none (hbuf : s.buf = none) : s.live = true := by
  rw [SizeLoop.live, hbuf]
  rfl

theorem left_of_none (hbuf : s.buf = none) : s.left = 6 - s.o :=
  if_pos (live_of_none hbuf)

theorem shiftRight_toNat (size : UInt64) : (size >>> 10).toNat = size.toNat / 1024 := by
  rw [UInt64.toNat_shiftRight]
  exact Nat.shiftRight_eq_div_pow _ 10

theorem and_mask_toNat (size : UInt64) : (size &&& 1023).toNat = size.toNat % 1024 := by
  rw [UInt64.toNat_and]
  exact Nat.and_two_pow_sub_one_eq_mod _ 10

theorem sizeRound_next (h : 973 ≤ s.size.toNat / 1024) :
    sizeRound s = .ok ⟨s.size >>> 10, s.o + 1, none⟩ := by
  have hmore : (973 : UInt64) ≤ s.size >>> 10 := by
    rw [UInt64.le_iff_toNat_le, shiftRight_toNat]
    exact h
  exact if_pos hmore

theorem sizeRound_last (h : s.size.toNat / 1024 < 973) (ho : s.o < 6) :
    sizeRound s =
      .ok ⟨s.size >>> 10, s.o, some (digitsText s.size.toNat ++ [letter s.o])⟩ := by
  grind [UInt64.le_iff_toNat_le, shiftRight_toNat, sizeRound, ord_letter, and_mask_toNat,
      lastDigits_eq, Nat.not_le.mpr]

/-- The loop returns in the unit that the size is shown in, if there is a letter for it. -/
def Returns (s : SizeLoop) : Prop :=
  ∃ out j, Descends SizeLoop.live sizeRound SizeLoop.left s out ∧ s.o + j < 6 ∧
    973 ≤ s.size.toNat / 1024 ^ j ∧ s.size.toNat / 1024 ^ j / 1024 < 973 ∧
    out.buf = some (digitsText (s.size.toNat / 1024 ^ j) ++ [letter (s.o + j)])

theorem returns_last (hbuf : s.buf = none) (ho : s.o < 6) (hmore : 973 ≤ s.size.toNat)
    (hlast : s.size.toNat / 1024 < 973) : Returns s := by
  have hleft : 0 < s.left := by
    rw [left_of_none hbuf]
    omega
  have hone : s.size.toNat / 1024 ^ 0 = s.size.toNat := by rw [Nat.pow_zero, Nat.div_one]
  refine ⟨_, 0, .step (live_of_none hbuf) (sizeRound_last hlast ho) hleft (.done rfl), ho, ?_, ?_, ?_⟩
  · rw [hone]
    exact hmore
  · rw [hone]
    exact hlast
  · rw [hone]
    rfl

/-- By induction on the letters that are left: a round that goes on divides the size by 1024. -/
theorem returns_of_letters : ∀ (more : Nat) {s : SizeLoop}, s.buf = none → s.o + more < 6 →
    973 ≤ s.size.toNat → s.size.toNat < 973 * 1024 ^ (more + 1) → Returns s := by
  intro more
  induction more with
  | zero => grind [Nat.mul_comm, returns_last]
  | succ more ih =>
    intro s hbuf ho hmore hless
    by_cases hlast : s.size.toNat / 1024 < 973
    · exact returns_last hbuf (by omega) hmore hlast
    · have hdiv : (s.size >>> 10).toNat = s.size.toNat / 1024 := shiftRight_toNat s.size
      have hnext : s.size.toNat / 1024 < 973 * 1024 ^ (more + 1) :=
        Nat.div_lt_of_lt_mul (by rw [Nat.pow_succ] at hless; omega)
      obtain ⟨out, j, hdesc, hj, hmore', hless', hout⟩ :=
        @ih ⟨s.size >>> 10, s.o + 1, none⟩ rfl (by show s.o + 1 + more < 6; omega)
          (by rw [hdiv]; omega) (by rw [hdiv]; exact hnext)
      have hpow : s.size.toNat / 1024 / 1024 ^ j = s.size.toNat / 1024 ^ (j + 1) := by
        rw [Nat.div_div_eq_div_mul, Nat.pow_succ']
      simp only [hdiv, hpow] at hmore' hless' hout
      have hleft : SizeLoop.left ⟨s.size >>> 10, s.o + 1, none⟩ < s.left := by grind [left_of_none]
      refine ⟨out, j + 1, .step (live_of_none hbuf) (sizeRound_next (by omega)) hleft hdesc, ?_,
        hmore', hless', ?_⟩
      · grind
      · rw [hout, ← Nat.add_assoc, Nat.add_right_comm]

/-- **The function returns** four characters, which are read as the size in one of the units. -/
theorem sigarFormatSize_shows (hsize : size ≠ sigarFieldNotImpl) :
    ∃ text r, (∀ rounds, 7 ≤ rounds → sigarFormatSize rounds size = .ok text) ∧ text.length = 4 ∧
      reading text = some r ∧ Shown size.toNat r := by
  by_cases hsmall : size < 973
  · have hless : size.toNat < 973 := UInt64.lt_iff_toNat_lt.mp hsmall
    have hthree : size.toNat < 1000 := by omega
    refine ⟨padThree size.toNat ++ [' '], .whole size.toNat 0, ?_, ?_,
      reading_padThree hthree rfl, .bytes hless⟩
    · intro rounds _
      rw [sigarFormatSize, if_neg hsize, if_pos hsmall]
    · rw [length_append, length_padThree hthree]
      rfl
  · have hmore : 973 ≤ size.toNat := by
      have h := UInt64.le_iff_toNat_le.mp (UInt64.not_lt.mp hsmall)
      exact h
    have hbound : size.toNat < 973 * 1024 ^ 6 := Nat.lt_trans (UInt64.toNat_lt size) (by decide)
    obtain ⟨out, j, hdesc, hj, hmore', hless', hout⟩ :=
      @returns_of_letters 5 ⟨size, 0, none⟩ rfl (show 0 + 5 < 6 by decide) hmore hbound
    rw [Nat.zero_add] at hj hout
    obtain ⟨hlen, hread⟩ := digitsText_spec hless' (unitOf_letter j hj)
    refine ⟨_, _, fun rounds hrounds => ?_, hlen, hread, .units j hmore' hless'⟩
    have hloop : iterate SizeLoop.live sizeRound .rounds rounds ⟨size, 0, none⟩ = .ok out :=
      hdesc.iterate_eq (by rw [left_of_none rfl]; exact hrounds)
    rw [sigarFormatSize, if_neg hsize, if_neg hsmall, hloop]
    show Except.ok (out.buf.getD []) = _
    rw [hout]
    rfl

/-! ## Error and order -/

/-- A size in parts of a unit, and the bits that are discarded. -/
theorem size_split (size j : Nat) :
    ∃ low : ℚ, (size : ℚ) = ((size / 1024 ^ j : Nat) : ℚ) * 1024 ^ j + low ∧ 0 ≤ low ∧
      low ≤ 1024 ^ j := by
  refine ⟨((size % 1024 ^ j : Nat) : ℚ), ?_, by positivity, ?_⟩
  · have h := Nat.div_add_mod size (1024 ^ j)
    rw [Nat.mul_comm] at h
    exact_mod_cast h.symm
  · exact_mod_cast (Nat.mod_lt size (by positivity)).le

/-- Rounding to tenths of a unit. -/
theorem error_tenths {m t : ℚ} {w low : ℚ} (hw : 0 ≤ w) (hlow : 0 ≤ low) (hlow' : low ≤ w)
    (hle : 512 * t ≤ 5 * m + 256) (hge : 5 * m ≤ 512 * t + 256) :
    |t / 10 * (1024 * w) - (m * w + low)| ≤ (1 / 20 + 1 / 1024) * (1024 * w) := by
  have hup := mul_le_mul_of_nonneg_right hle hw
  have hdown := mul_le_mul_of_nonneg_right hge hw
  rw [abs_le]
  constructor <;> linarith

/-- Rounding to whole units. -/
theorem error_whole {m n : ℚ} {w low : ℚ} (hw : 0 ≤ w) (hlow : 0 ≤ low) (hlow' : low ≤ w)
    (hle : 1024 * n ≤ m + 512) (hge : m + 1 ≤ 1024 * n + 512) :
    |n * (1024 * w) - (m * w + low)| ≤ 1 / 2 * (1024 * w) := by
  have hup := mul_le_mul_of_nonneg_right hle hw
  have hdown := mul_le_mul_of_nonneg_right hge hw
  rw [abs_le]
  constructor <;> linarith

/-- **What is printed is near**: the last round rounds to half a unit, or to half a tenth, and the
    bits below the last ten were discarded before. -/
theorem Shown.error {size : Nat} {r : Reading} (h : Shown size r) :
    |r.value - size| ≤ r.tolerance := by
  cases h with
  | bytes hless =>
    rw [Reading.value, Reading.tolerance, pow_zero, mul_one, sub_self, abs_zero]
    norm_num
  | units j hmore hless =>
    obtain ⟨low, hsize, hlow, hlow'⟩ := size_split size j
    have hw : (0 : ℚ) ≤ 1024 ^ j := by positivity
    have hunit : (1024 : ℚ) ^ (j + 1) = 1024 * 1024 ^ j := pow_succ' _ _
    rw [hsize]
    generalize size / 1024 ^ j = m at hmore hless ⊢
    by_cases hpoint : m < 10189
    · have hten : tenthsOf m = (5 * m + 256) / 512 := if_pos hpoint
      have hle : 512 * tenthsOf m ≤ 5 * m + 256 := by omega
      have hge : 5 * m ≤ 512 * tenthsOf m + 256 := by omega
      have hvalue : (readingOf m (j + 1)).value = tenthsOf m / 10 * (1024 * 1024 ^ j) := by
        have h := value_readingOf m (j + 1)
        rw [hunit] at h
        linarith
      have htol : (readingOf m (j + 1)).tolerance = (1 / 20 + 1 / 1024) * (1024 * 1024 ^ j) := by
        rw [readingOf, if_pos hpoint, Reading.tolerance, hunit]
      rw [hvalue, htol]
      exact error_tenths hw hlow hlow' (by exact_mod_cast hle) (by exact_mod_cast hge)
    · have hle : 1024 * ((m + 512) / 1024) ≤ m + 512 := by omega
      have hge : m + 1 ≤ 1024 * ((m + 512) / 1024) + 512 := by omega
      rw [readingOf, if_neg hpoint, Reading.value, Reading.tolerance, hunit]
      exact error_whole hw hlow hlow' (by exact_mod_cast hle) (by exact_mod_cast hge)

/-- What is printed in a unit is at least one of it. -/
theorem one_le_value (h : 973 ≤ m) : (1024 : ℚ) ^ k ≤ (readingOf m k).value := by
  have hten : (10 : ℚ) ≤ tenthsOf m := by exact_mod_cast ten_le_tenthsOf h
  have hmul := mul_le_mul_of_nonneg_right hten (by positivity : (0 : ℚ) ≤ 1024 ^ k)
  rw [← value_readingOf] at hmul
  linarith

/-- What is printed in a unit is less than one of the next. -/
theorem value_le_next (h : m / 1024 < 973) : (readingOf m k).value ≤ 1024 ^ (k + 1) := by
  have hmany : (tenthsOf m : ℚ) ≤ 9730 := by exact_mod_cast tenthsOf_le h
  have hpos : (0 : ℚ) ≤ 1024 ^ k := by positivity
  have hmul := mul_le_mul_of_nonneg_right hmany hpos
  rw [← value_readingOf] at hmul
  rw [pow_succ]
  linarith

/-- A larger size is not shown in a smaller unit. -/
theorem unit_le {a b i j : Nat} (hle : a ≤ b) (hless : b / 1024 ^ j / 1024 < 973)
    (hmore : 973 ≤ a / 1024 ^ i) : i ≤ j := by
  by_contra hlt
  have hpow : 1024 ^ (j + 1) ≤ 1024 ^ i := Nat.pow_le_pow_right (by decide) (by omega)
  have hdiv : a / 1024 ^ i ≤ b / 1024 ^ (j + 1) := Nat.div_le_div hle hpow (by positivity)
  rw [Nat.div_div_eq_div_mul, ← pow_succ] at hless
  omega

/-- **What is printed grows with the size.** -/
theorem Shown.mono {a b : Nat} {r r' : Reading} (h : Shown a r) (h' : Shown b r') (hle : a ≤ b) :
    r.value ≤ r'.value := by
  cases h with
  | bytes hless =>
    have hzero : (Reading.whole a 0).value = a := by rw [Reading.value, pow_zero, mul_one]
    rw [hzero]
    cases h' with
    | bytes hless' =>
      rw [Reading.value, pow_zero, mul_one]
      exact_mod_cast hle
    | units j hmore' hless' =>
      calc (a : ℚ) ≤ 1024 ^ 1 := by norm_num; exact_mod_cast (by omega : a ≤ 1024)
        _ ≤ 1024 ^ (j + 1) := pow_le_pow_right₀ (by norm_num) (by omega)
        _ ≤ (readingOf (b / 1024 ^ j) (j + 1)).value := one_le_value hmore'
  | units i hmore hless =>
    cases h' with
    | bytes hless' =>
      -- fewer bytes than 973 are no unit
      have hdiv : a / 1024 ^ i ≤ a := Nat.div_le_self _ _
      omega
    | units j hmore' hless' =>
      rcases Nat.lt_or_eq_of_le (unit_le hle hless' hmore) with hlt | heq
      · calc (readingOf (a / 1024 ^ i) (i + 1)).value ≤ 1024 ^ (i + 1 + 1) := value_le_next hless
          _ ≤ 1024 ^ (j + 1) := pow_le_pow_right₀ (by norm_num) (by omega)
          _ ≤ (readingOf (b / 1024 ^ j) (j + 1)).value := one_le_value hmore'
      · subst heq
        have hten : (tenthsOf (a / 1024 ^ i) : ℚ) ≤ tenthsOf (b / 1024 ^ i) := by
          exact_mod_cast tenthsOf_mono (Nat.div_le_div_right hle)
        have hmul := mul_le_mul_of_nonneg_right hten (by positivity : (0 : ℚ) ≤ 1024 ^ (i + 1))
        rw [← value_readingOf, ← value_readingOf] at hmul
        linarith

/-- What is asked of the text of one size: it is returned, whatever number of rounds from seven on
    the loop is given, it has four characters, and the value that is read from it is near. -/
structure FormatsAs (size : UInt64) (text : Text) (r : Reading) : Prop where
  returns : ∀ rounds, 7 ≤ rounds → sigarFormatSize rounds size = .ok text
  four : text.length = 4
  read : reading text = some r
  near : |r.value - size.toNat| ≤ r.tolerance

theorem exists_formatsAs (hsize : size ≠ sigarFieldNotImpl) :
    ∃ text r, FormatsAs size text r ∧ Shown size.toNat r := by
  obtain ⟨text, r, hreturns, hfour, hread, hshown⟩ := sigarFormatSize_shows hsize
  exact ⟨text, r, ⟨hreturns, hfour, hread, hshown.error⟩, hshown⟩

/-- **Sizes in four characters**: every size is formatted within the tolerance of its form, and of
    two sizes the larger one does not denote less. -/
theorem sigarFormatSize_monotone {size size' : UInt64} (hsize : size ≠ sigarFieldNotImpl)
    (hsize' : size' ≠ sigarFieldNotImpl) (hle : size ≤ size') :
    ∃ text r text' r', FormatsAs size text r ∧ FormatsAs size' text' r' ∧ r.value ≤ r'.value := by
  obtain ⟨text, r, hformats, hshown⟩ := exists_formatsAs hsize
  obtain ⟨text', r', hformats', hshown'⟩ := exists_formatsAs hsize'
  exact ⟨text, r, text', r', hformats, hformats',
    hshown.mono hshown' (UInt64.le_iff_toNat_le.mp hle)⟩

/-- The last size in kilobytes, and the first one in megabytes. -/
theorem sigarFormatSize_threshold :
    ∃ text r text' r', FormatsAs 996351 text r ∧ FormatsAs 996352 text' r' ∧ r.value ≤ r'.value :=
  sigarFormatSize_monotone (by decide) (by decide) (by decide)

end Sigar.Format
