/-
  The string operators of PTQL.

  1. **The relations** — `Textbook`: equality, the lexicographic order, prefix, suffix and infix,
     on both strings with their case folded if the branch says so.
  2. **The search** — `sigarStrcasestr_eq`: two nested loops that restart by hand are the search
     for the first tail that starts with the needle up to case.
  3. **The operators** — every operator but `ew` decides its relation for all strings.  `ew` keeps
     the two lengths and their difference in `int`s: `SuffixLengths` says for which lengths that makes
     no difference.
-/
import Sigar.Ptql.Operators
import Sigar.Lib.Search
import Sigar.Lib.Words
import Mathlib

namespace Sigar.Ptql

open CString Search Words List

variable {c : Char} {icase : Bool} {needle : CStr}

/-! ## The relations -/

/-- A string as the operators see it. -/
def foldCase (icase : Bool) (s : CStr) : CStr := if icase then s.map tolower else s

/-- What the operators are for; `re` is left to the hook. -/
def Textbook (icase : Bool) (op : PtqlOpName) (haystack needle : CStr) : Prop :=
  let h := foldCase icase haystack
  let n := foldCase icase needle
  match op with
  | .eq => h = n
  | .ne => h ≠ n
  | .gt => n < h
  | .ge => n < h ∨ h = n
  | .lt => h < n
  | .le => h < n ∨ h = n
  | .ew => n <:+ h
  | .sw => n <+: h
  | .ct => n <:+: h
  | .re => False

/-- The needle starts, up to case, where the string `t` does. -/
def StartsWith (icase : Bool) (needle t : CStr) : Prop := foldCase icase needle <+: foldCase icase t

@[simp] theorem length_foldCase (icase : Bool) (s : CStr) : (foldCase icase s).length = s.length := by
  cases icase with
  | false => rfl
  | true => exact length_map _

@[simp] theorem foldCase_drop (icase : Bool) (s : CStr) (k : Nat) :
    foldCase icase (s.drop k) = (foldCase icase s).drop k := by
  cases icase with
  | false => rfl
  | true => exact map_drop

theorem branchStrcmp_eq (icase : Bool) (s1 s2 : CStr) :
    branchStrcmp icase s1 s2 = strcmp (foldCase icase s1) (foldCase icase s2) := by
  cases icase <;> rfl

theorem branchStrnEq_eq (icase : Bool) (s1 s2 : CStr) (n : Nat) :
    branchStrnEq icase s1 s2 n = strnEq (foldCase icase s1) (foldCase icase s2) n := by
  cases icase <;> rfl

/-! ## Comparing -/

theorem lt_iff_toNat_lt {a b : Char} : a < b ↔ a.toNat < b.toNat := Iff.rfl

/-- `strcmp` is the lexicographic order. -/
theorem strcmp_lt_iff : ∀ {s1 s2 : CStr}, strcmp s1 s2 = .lt ↔ s1 < s2 := by
  intro s1
  induction s1 with
  | nil =>
    intro s2
    cases s2 with
    | nil => simp [strcmp]
    | cons b bs => simp [strcmp]
  | cons a as ih =>
    intro s2
    cases s2 with
    | nil => simp [strcmp]
    | cons b bs =>
      rw [strcmp, cons_lt_cons_iff]
      by_cases hab : a = b
      · subst hab
        rw [if_pos rfl, ih]
        simp
      · rw [if_neg hab, Nat.compare_eq_lt, lt_iff_toNat_lt]
        simp [hab]

theorem strcmp_gt_iff : ∀ {s1 s2 : CStr}, strcmp s1 s2 = .gt ↔ s2 < s1 := by
  intro s1
  induction s1 with
  | nil =>
    intro s2
    cases s2 with
    | nil => simp [strcmp]
    | cons b bs => simp [strcmp]
  | cons a as ih =>
    intro s2
    cases s2 with
    | nil => simp [strcmp]
    | cons b bs =>
      rw [strcmp, cons_lt_cons_iff]
      by_cases hab : a = b
      · subst hab
        rw [if_pos rfl, ih]
        simp
      · rw [if_neg hab, Nat.compare_eq_gt, lt_iff_toNat_lt]
        have hba : b ≠ a := fun h => hab h.symm
        simp [hba]

/-- Comparing as many characters as the needle has. -/
theorem strnEq_length_iff {h n : CStr} : strnEq h n n.length = true ↔ n <+: h := by
  rw [strnEq, beq_iff_eq, take_length, prefix_iff_eq_take]
  exact eq_comm

/-! ## Searching -/

theorem tolower_eq_nul_iff : tolower c = nul ↔ c = nul := by
  constructor
  · intro h
    by_contra hc
    rw [tolower, Char.toLower] at h
    split at h
    case isTrue hup =>
      have hval := congrArg Char.toNat h
      have hle : c.toNat ≤ 90 := UInt32.le_iff_toNat_le.mp hup.2
      simp [nul] at hval
      omega
    case isFalse => exact hc h
  · intro h
    rw [h]
    rfl

theorem deref_ne_nul {s : CStr} (h : nul ∉ c :: s) : deref (c :: s) ≠ nul := by
  intro hc
  exact h (hc ▸ mem_cons_self)

/-- The inner loop compares the rest of the needle up to its end. -/
theorem restMatches_eq : ∀ {p1 p2 : CStr}, nul ∉ p1 → nul ∉ p2 →
    restMatches p1 p2 = (p2.map tolower).isPrefixOf (p1.map tolower) := by
  intro p1
  induction p1 with
  | nil =>
    intro p2 _ h2
    cases p2 with
    | nil => rfl
    | cons c p2 => simp [restMatches, deref_ne_nul h2]
  | cons x p1 ih =>
    intro p2 h1 h2
    have hx : x ≠ nul := fun h => h1 (h ▸ mem_cons_self)
    rw [restMatches, if_neg hx]
    cases p2 with
    | nil =>
      have hdiff : tolower x ≠ tolower (deref []) := fun h => hx (tolower_eq_nul_iff.mp h)
      rw [if_neg hdiff]
      rfl
    | cons c p2 =>
      rw [tail_cons, ih (fun h => h1 (mem_cons_of_mem x h))
        (fun h => h2 (mem_cons_of_mem c h))]
      show (if tolower x = tolower c then _ else _)
        = (tolower c == tolower x && (p2.map tolower).isPrefixOf (p1.map tolower))
      by_cases hxc : tolower x = tolower c
      · rw [if_pos hxc, beq_iff_eq.mpr hxc.symm, Bool.true_and]
      · have hne : (tolower c == tolower x) = false := beq_eq_false_iff_ne.mpr fun h => hxc h.symm
        rw [if_neg hxc, hne, Bool.false_and]
        exact decide_eq_false (deref_ne_nul h2)

/-- The place is accepted where the needle starts. -/
def startsWith (icase : Bool) (needle t : CStr) : Bool :=
  (foldCase icase needle).isPrefixOf (foldCase icase t)

theorem startsWith_iff {t : CStr} : startsWith icase needle t = true ↔ StartsWith icase needle t :=
  isPrefixOf_iff_prefix

/-- The outer loop is the search for the first such place. -/
theorem strcasestrLoop_eq {s2 : CStr} (h2 : nul ∉ c :: s2) : ∀ {s1 : CStr}, nul ∉ s1 →
    strcasestrLoop (c :: s2) s1 = firstTail (startsWith true (c :: s2)) s1 := by
  intro s1
  induction s1 with
  | nil => intro _; rfl
  | cons x s1 ih =>
    intro h1
    have hx : x ≠ nul := fun h => h1 (h ▸ mem_cons_self)
    have h1' : nul ∉ s1 := fun h => h1 (mem_cons_of_mem x h)
    have h2' : nul ∉ s2 := fun h => h2 (mem_cons_of_mem c h)
    have hhere : startsWith true (c :: s2) (x :: s1)
        = (tolower c == tolower x && restMatches s1 s2) := by
      rw [restMatches_eq h1' h2']
      rfl
    rw [strcasestrLoop, if_neg hx, firstTail, hhere, ih h1']
    show (if tolower x ≠ tolower c then _ else _) = _
    by_cases hxc : tolower x = tolower c
    · rw [if_neg (not_not.mpr hxc), beq_iff_eq.mpr hxc.symm, Bool.true_and]
      rfl
    · have hne : (tolower c == tolower x) = false := beq_eq_false_iff_ne.mpr fun h => hxc h.symm
      rw [if_pos hxc, hne, Bool.false_and]
      rfl

/-- An empty needle starts everywhere. -/
theorem firstTail_startsWith_nil (icase : Bool) (s : CStr) :
    firstTail (startsWith icase []) s = some s := by
  have hhere : ∀ t, startsWith icase [] t = true := by
    intro t
    rw [startsWith_iff, StartsWith]
    have hnil : foldCase icase [] = [] := by cases icase <;> rfl
    rw [hnil]
    exact nil_prefix
  cases s with
  | nil => rw [firstTail, if_pos (hhere [])]
  | cons x s => rw [firstTail, if_pos (hhere (x :: s))]

/-- **`sigar_strcasestr`** finds the first place where the needle starts up to case. -/
theorem sigarStrcasestr_eq {s1 s2 : CStr} (h1 : nul ∉ s1) (h2 : nul ∉ s2) :
    sigarStrcasestr s1 s2 = firstTail (startsWith true s2) s1 := by
  rw [sigarStrcasestr]
  cases s2 with
  | nil => rw [firstTail_startsWith_nil]; rfl
  | cons c s2 => rw [if_neg (deref_ne_nul h2), strcasestrLoop_eq h2 h1]

theorem strstr_eq : ∀ {s : CStr}, nul ∉ s →
    strstr s needle = firstTail (startsWith false needle) s := by
  intro s
  induction s with
  | nil =>
    intro _
    cases needle with
    | nil => rfl
    | cons c needle => rfl
  | cons x s ih =>
    intro h
    have hx : x ≠ nul := fun h0 => h (h0 ▸ mem_cons_self)
    rw [strstr, if_neg hx, firstTail, ih fun hs => h (mem_cons_of_mem x hs)]
    rfl

theorem branchStrstr_eq (icase : Bool) {s1 s2 : CStr} (h1 : nul ∉ s1) (h2 : nul ∉ s2) :
    branchStrstr icase s1 s2 = firstTail (startsWith icase s2) s1 := by
  cases icase with
  | false => exact strstr_eq h1
  | true => exact sigarStrcasestr_eq h1 h2

/-- The places of the folded string are those of the string. -/
theorem infix_foldCase_iff {h n : CStr} :
    foldCase icase n <:+: foldCase icase h ↔ ∃ t, t <:+ h ∧ startsWith icase n t = true := by
  rw [infix_iff_prefix_suffix]
  constructor
  · rintro ⟨t, hn, ht⟩
    cases icase with
    | false => exact ⟨t, ht, startsWith_iff.mpr hn⟩
    | true =>
      obtain ⟨t', ht', rfl⟩ := suffix_map_iff.mp ht
      exact ⟨t', ht', startsWith_iff.mpr hn⟩
  · rintro ⟨t, ht, hn⟩
    refine ⟨foldCase icase t, startsWith_iff.mp hn, ?_⟩
    cases icase with
    | false => exact ht
    | true => exact ht.map tolower

/-! ## The operators without a length -/

/-- **An operator decides its relation** on two strings: the call has a meaning, and this one. -/
def Decides (icase : Bool) (op : PtqlOpName) (haystack needle : CStr) : Prop :=
  ∃ verdict, ptqlOpStr icase op haystack needle = .ok verdict ∧
    (verdict = true ↔ Textbook icase op haystack needle)

/-- **Every operator but `ew`** decides its relation. -/
theorem decides_of_ne_ew {op : PtqlOpName} {haystack : CStr} (hh : nul ∉ haystack)
    (hn : nul ∉ needle) (hre : op ≠ .re) (hew : op ≠ .ew) : Decides icase op haystack needle := by
  have heq := @strcmp_eq_iff (foldCase icase haystack) (foldCase icase needle)
  have hlt := @strcmp_lt_iff (foldCase icase haystack) (foldCase icase needle)
  have hgt := @strcmp_gt_iff (foldCase icase haystack) (foldCase icase needle)
  cases op with
  | eq => exact ⟨_, rfl, by rw [branchStrcmp_eq, beq_iff_eq, heq]; rfl⟩
  | ne => exact ⟨_, rfl, by rw [branchStrcmp_eq, bne_iff_ne, ne_eq, heq]; rfl⟩
  | gt => exact ⟨_, rfl, by rw [branchStrcmp_eq, beq_iff_eq, hgt]; rfl⟩
  | lt => exact ⟨_, rfl, by rw [branchStrcmp_eq, beq_iff_eq, hlt]; rfl⟩
  | ge =>
    refine ⟨_, rfl, ?_⟩
    rw [branchStrcmp_eq, bne_iff_ne, Textbook, ← hgt, ← heq]
    cases strcmp (foldCase icase haystack) (foldCase icase needle) <;> simp
  | le =>
    refine ⟨_, rfl, ?_⟩
    rw [branchStrcmp_eq, bne_iff_ne, Textbook, ← hlt, ← heq]
    cases strcmp (foldCase icase haystack) (foldCase icase needle) <;> simp
  | sw =>
    refine ⟨_, rfl, ?_⟩
    rw [branchStrnEq_eq, ← length_foldCase icase needle, strnEq_length_iff]
    rfl
  | ct =>
    refine ⟨_, rfl, ?_⟩
    rw [branchStrstr_eq icase hh hn, firstTail_isSome_iff, ← infix_foldCase_iff]
    rfl
  | ew => exact absurd rfl hew
  | re => exact absurd rfl hre

/-! ## `ew` -/

/-- How many characters `strncmp` compares for a needle of `n` characters. -/
def comparedLength (n : Nat) : Nat :=
  (if 0 ≤ wrap32 n then wrap32 n else wrap32 n + 18446744073709551616).toNat

/-- `hlen - nlen`, for strings of `h` and `n` characters. -/
def intDiff (h n : Nat) : Int := wrap32 h - wrap32 n

/-- The difference is an `int`, and no place behind the haystack. -/
def DiffFits (h n : Nat) : Prop :=
  -2147483648 ≤ intDiff h n ∧ intDiff h n < 2147483648 ∧ intDiff h n ≤ h

/-- The lengths for which the `int`s make no difference. -/
def SuffixLengths (h n : Nat) : Prop :=
  DiffFits h n ∧
    ((h < n ∧ (intDiff h n < 0 ∨ wrap32 n < 0)) ∨
      (n ≤ h ∧ intDiff h n = h - n ∧ (n < 4294967296 ∨ wrap32 n < 0)) ∨
      (n = 0 ∧ 0 ≤ wrap32 h))

/-- Shorter strings than `2^31` are among them. -/
theorem suffixLengths_of_lt {h n : Nat} (hh : h < 2147483648) (hn : n < 2147483648) :
    SuffixLengths h n := by
  have hdiff : intDiff h n = h - n := by
    rw [intDiff, wrap32_of_fits (by omega) (by omega), wrap32_of_fits (by omega) (by omega)]
  refine ⟨⟨by omega, by omega, by omega⟩, ?_⟩
  by_cases hlt : h < n
  · exact Or.inl ⟨hlt, Or.inl (by omega)⟩
  · exact Or.inr (Or.inl ⟨by omega, hdiff, Or.inl (by omega)⟩)

/-- A call of `ew` that has a meaning. -/
theorem diffFits_of_ew {haystack : CStr} {verdict : Bool}
    (h : ptqlOpStrEw icase haystack needle = .ok verdict) :
    DiffFits haystack.length needle.length := by
  have hdiff : (intLength haystack).toInt - (intLength needle).toInt
      = intDiff haystack.length needle.length := by
    rw [intLength, intLength, toInt_ofNat, toInt_ofNat, intDiff]
  unfold ptqlOpStrEw at h
  simp only [hdiff] at h
  split at h
  · cases h
  · next hint =>
    split at h
    · exact ⟨by omega, by omega, by omega⟩
    · split at h
      · cases h
      · exact ⟨by omega, by omega, by omega⟩

/-- **`ew` compares from the difference on.** -/
theorem ptqlOpStrEw_fits {haystack : CStr} (hfit : DiffFits haystack.length needle.length) :
    ∃ verdict, ptqlOpStrEw icase haystack needle = .ok verdict ∧ (verdict = true ↔
      0 ≤ intDiff haystack.length needle.length ∧
      ((foldCase icase haystack).drop (intDiff haystack.length needle.length).toNat).take
          (comparedLength needle.length)
        = (foldCase icase needle).take (comparedLength needle.length)) := by
  have hdiff : (intLength haystack).toInt - (intLength needle).toInt
      = intDiff haystack.length needle.length := by
    rw [intLength, intLength, toInt_ofNat, toInt_ofNat, intDiff]
  have hcount : (intLength needle).toInt64.toUInt64.toNat = comparedLength needle.length := by
    have hext := toNat_signExtend (intLength needle)
    rw [intLength, toInt_ofNat] at hext
    rw [comparedLength, ← hext, Int.toNat_natCast, intLength]
  obtain ⟨hlow, hhigh, hplace⟩ := hfit
  unfold ptqlOpStrEw
  simp only [hdiff, hcount]
  rw [if_neg (by omega)]
  by_cases hneg : intDiff haystack.length needle.length < 0
  · rw [if_pos hneg]
    exact ⟨false, rfl, by simp [not_le.mpr hneg]⟩
  · rw [if_neg hneg, if_neg (by omega)]
    refine ⟨_, rfl, ?_⟩
    rw [branchStrnEq_eq, strnEq, beq_iff_eq, foldCase_drop]
    exact (and_iff_right (not_lt.mp hneg)).symm

/-- With a negative `int` the whole needle is compared. -/
theorem le_comparedLength {n : Nat} (hsize : n < 18446744073709551616)
    (h : n < 2147483648 ∨ wrap32 n < 0) : n ≤ comparedLength n := by
  rw [comparedLength]
  rw [wrap32] at *
  split <;> omega

/-- **`ew` is right for these lengths.** -/
theorem decides_ew {haystack : CStr} (hsize : needle.length < 18446744073709551616)
    (h : SuffixLengths haystack.length needle.length) : Decides icase .ew haystack needle := by
  obtain ⟨hfit, h⟩ := h
  obtain ⟨verdict, hcall, hverdict⟩ := @ptqlOpStrEw_fits icase _ _ hfit
  refine ⟨verdict, hcall, hverdict.trans ?_⟩
  show _ ↔ foldCase icase needle <:+ foldCase icase haystack
  rw [suffix_iff_eq_drop, length_foldCase, length_foldCase]
  rcases h with ⟨hlt, hint⟩ | ⟨hle, hdiff, hint⟩ | ⟨hzero, hint⟩
  · -- the needle is longer: the answer is no
    have hno : foldCase icase needle
        ≠ (foldCase icase haystack).drop (haystack.length - needle.length) := by
      intro heq
      have hlen := congrArg List.length heq
      simp only [length_foldCase, length_drop] at hlen
      omega
    simp only [hno, iff_false, not_and]
    intro hpos heq
    have hneg : wrap32 needle.length < 0 := by omega
    have hcount := le_comparedLength hsize (Or.inr hneg)
    have hlen := congrArg List.length heq
    simp only [length_take, length_drop, length_foldCase] at hlen
    omega
  · have hcount : needle.length ≤ comparedLength needle.length := by
      apply le_comparedLength hsize
      rcases hint with hshort | hneg
      · simp only [intDiff, wrap32] at *
        omega
      · exact Or.inr hneg
    have htail : ((foldCase icase haystack).drop (haystack.length - needle.length)).length
        ≤ comparedLength needle.length := by
      rw [length_drop, length_foldCase]
      omega
    have hwhole : (foldCase icase needle).length ≤ comparedLength needle.length := by
      rwa [length_foldCase]
    rw [hdiff, show ((haystack.length : Int) - needle.length).toNat
      = haystack.length - needle.length by omega, take_of_length_le htail,
      take_of_length_le hwhole]
    constructor
    · rintro ⟨-, heq⟩
      exact heq.symm
    · intro heq
      exact ⟨by omega, heq.symm⟩
  · -- the empty needle
    have hnil : needle = [] := length_eq_zero_iff.mp hzero
    subst hnil
    have hfold : foldCase icase [] = [] := by cases icase <;> rfl
    have hcount : comparedLength 0 = 0 := by decide
    have hdiff : 0 ≤ intDiff haystack.length 0 := by
      rw [intDiff, show wrap32 (0 : Nat) = 0 by decide, sub_zero]
      exact hint
    simp [hfold, hdiff, hcount]

/-! ### Where it is not -/

section Wrong

variable {h n : Nat}

/-- `ew` on two strings with case, as lists. -/
theorem ew_false_iff {haystack needle : CStr} (hh : haystack.length = h) (hn : needle.length = n)
    (hfit : DiffFits h n) :
    ptqlOpStrEw false haystack needle = .ok true ↔
      0 ≤ intDiff h n ∧
      (haystack.drop (intDiff h n).toNat).take (comparedLength n)
        = needle.take (comparedLength n) := by
  subst hh hn
  obtain ⟨verdict, hcall, hverdict⟩ := @ptqlOpStrEw_fits false _ _ hfit
  rw [hcall, Except.ok.injEq]
  exact hverdict

theorem comparedLength_of_nonneg (hint : 0 ≤ wrap32 n) : comparedLength n = (wrap32 n).toNat := by
  rw [comparedLength, if_pos hint]

theorem wrap32_natCast_le (n : Nat) : wrap32 n ≤ n := by
  rw [wrap32]
  omega

theorem wrap32_lt_of_ne {x : Int} (hx : 0 ≤ x) (hwrap : 0 ≤ wrap32 x) (hne : wrap32 x ≠ x) :
    wrap32 x < x := by
  simp only [wrap32] at *
  omega

/-- A longer needle that passes for a shorter one. -/
theorem longNeedle_accepted (hfit : DiffFits h n) (hlt : h < n) (hdiff : 0 ≤ intDiff h n) (hint : 0 ≤ wrap32 n) :
    ptqlOpStrEw false (replicate h 'a') (replicate n 'a') = .ok true := by
  rw [ew_false_iff length_replicate length_replicate hfit]
  refine ⟨hdiff, ?_⟩
  have hroom : (wrap32 n).toNat ≤ h - (intDiff h n).toNat := by
    have hle := wrap32_natCast_le h
    rw [intDiff] at hdiff ⊢
    omega
  have hshort : (wrap32 n).toNat ≤ n := by
    have hle := wrap32_natCast_le n
    omega
  rw [comparedLength_of_nonneg hint, drop_replicate, take_replicate, take_replicate,
    Nat.min_eq_left hroom, Nat.min_eq_left hshort]

/-- A suffix that is refused, because the difference is negative as an `int`. -/
theorem longHaystack_refused (hfit : DiffFits h n) (hdiff : intDiff h n < 0) :
    ptqlOpStrEw false (replicate h 'a') (replicate n 'a') ≠ .ok true := by
  rw [ne_eq, ew_false_iff length_replicate length_replicate hfit]
  rintro ⟨hpos, -⟩
  omega

/-- A difference that is not the one of the lengths is a smaller one. -/
theorem intDiff_lt (hfit : DiffFits h n) (hle : n ≤ h) (hdiff : 0 ≤ intDiff h n)
    (hne : intDiff h n ≠ h - n) : (intDiff h n).toNat < h - n := by
  have hwrap : wrap32 (h - n) = intDiff h n := by
    rw [← wrap32_sub_wrap32]
    exact wrap32_of_fits hfit.1 hfit.2.1
  have hless := @wrap32_lt_of_ne (h - n) (by omega) (hwrap ▸ hdiff) (hwrap ▸ hne)
  rw [hwrap] at hless
  omega

/-- The first characters that are compared differ. -/
theorem take_drop_ne {place count : Nat} (hcount : 0 < count) (hn : 0 < n) (hinside : place < h - n) :
    ((replicate (h - n) 'b' ++ replicate n 'a').drop place).take count
      ≠ (replicate n 'a').take count := by
  intro heq
  have hfirst := congrArg (fun s => s[0]?) heq
  simp only [getElem?_take_of_lt hcount, getElem?_drop, Nat.add_zero] at hfirst
  have hplace : place < (replicate (h - n) 'b').length := by rwa [length_replicate]
  rw [getElem?_append_left hplace, getElem?_replicate_of_lt hinside, getElem?_replicate_of_lt hn]
    at hfirst
  exact absurd (Option.some.inj hfirst) (by decide)

/-- A suffix that is compared with an earlier part of the haystack. -/
theorem longHaystack_misplaced (hfit : DiffFits h n) (hle : n ≤ h) (hdiff : 0 ≤ intDiff h n)
    (hne : intDiff h n ≠ h - n) (hcount : 0 < comparedLength n) (hn : 0 < n) :
    ptqlOpStrEw false (replicate (h - n) 'b' ++ replicate n 'a')
      (replicate n 'a') ≠ .ok true := by
  have hlen : (replicate (h - n) 'b' ++ replicate n 'a').length = h := by
    rw [length_append, length_replicate, length_replicate]
    omega
  intro hew
  exact take_drop_ne hcount hn (intDiff_lt hfit hle hdiff hne)
    ((ew_false_iff hlen length_replicate hfit).mp hew).2

/-- Nothing is compared. -/
theorem emptyCompare_accepted (hfit : DiffFits h n) (hdiff : 0 ≤ intDiff h n) (hcount : comparedLength n = 0) :
    ptqlOpStrEw false (replicate h 'b') (replicate n 'a') = .ok true := by
  rw [ew_false_iff length_replicate length_replicate hfit, hcount]
  exact ⟨hdiff, by rw [take_zero, take_zero]⟩

/-- The `int` of a length of more than 32 bits is a shorter one. -/
theorem wrap32_toNat_lt (hint : 0 ≤ wrap32 n) (hlong : 4294967296 ≤ n) : (wrap32 n).toNat < n := by
  simp only [wrap32] at *
  omega

/-- A haystack with `k` characters of the needle at its place, and others behind them. -/
theorem length_startHaystack {k : Nat} (hle : n ≤ h) (hk : k ≤ n) :
    (replicate (h - n + k) 'a' ++ replicate (n - k) 'b').length = h := by
  rw [length_append, length_replicate, length_replicate]
  omega

/-- Only the start of the needle is compared. -/
theorem startCompare_accepted (hfit : DiffFits h n) (hle : n ≤ h) (hdiff : intDiff h n = h - n)
    (hint : 0 ≤ wrap32 n) (hlong : 4294967296 ≤ n) :
    ptqlOpStrEw false
      (replicate (h - n + (wrap32 n).toNat) 'a' ++ replicate (n - (wrap32 n).toNat) 'b')
      (replicate n 'a') = .ok true := by
  have hshort := wrap32_toNat_lt hint hlong
  have hlen := length_startHaystack hle hshort.le
  rw [ew_false_iff hlen length_replicate hfit, comparedLength_of_nonneg hint, hdiff,
    show ((h : Int) - n).toNat = h - n by omega]
  refine ⟨by omega, ?_⟩
  rw [drop_append_of_le_length (by rw [length_replicate]; omega), drop_replicate,
    take_append_of_le_length (by rw [length_replicate]; omega), take_replicate, take_replicate,
    Nat.min_eq_left (by omega), Nat.min_eq_left hshort.le]

end Wrong

/-- `ew` decides only what it says. -/
theorem Decides.ew_iff {haystack needle : CStr} (h : Decides false .ew haystack needle) :
    DiffFits haystack.length needle.length ∧
      (ptqlOpStrEw false haystack needle = .ok true ↔ needle <:+ haystack) := by
  obtain ⟨verdict, hcall, hverdict⟩ := h
  have hew : ptqlOpStrEw false haystack needle = .ok verdict := hcall
  refine ⟨diffFits_of_ew hew, ?_⟩
  rw [hew, Except.ok.injEq]
  exact hverdict

/-- **For all other lengths there are strings on which `ew` is wrong**, or has no meaning. -/
theorem exists_ew_wrong {h n : Nat} (hwrong : ¬ SuffixLengths h n) :
    ∃ haystack needle : CStr, nul ∉ haystack ∧ nul ∉ needle ∧ haystack.length = h ∧
      needle.length = n ∧ ¬ Decides false .ew haystack needle := by
  have hnul : ∀ (k : Nat) (c : Char), c ≠ nul → nul ∉ replicate k c := by
    intro k c hc hmem
    exact hc (eq_of_mem_replicate hmem).symm
  have ha := fun k => hnul k 'a' (by decide)
  have hb := fun k => hnul k 'b' (by decide)
  rw [SuffixLengths] at hwrong
  by_cases hfit : DiffFits h n
  swap
  · refine ⟨_, _, ha h, ha n, length_replicate, length_replicate, fun hew => hfit ?_⟩
    have hfits := hew.ew_iff.1
    rwa [length_replicate, length_replicate] at hfits
  rw [and_iff_right hfit] at hwrong
  by_cases hlt : h < n
  · refine ⟨_, _, ha h, ha n, length_replicate, length_replicate, fun hew => ?_⟩
    have hlen := (hew.ew_iff.2.mp (longNeedle_accepted hfit hlt (by omega) (by omega))).length_le
    rw [length_replicate, length_replicate] at hlen
    omega
  · have hle : n ≤ h := Nat.le_of_not_lt hlt
    have hall : replicate n 'a' <:+ replicate h 'a' := by
      refine ⟨replicate (h - n) 'a', ?_⟩
      rw [replicate_append_replicate, Nat.sub_add_cancel hle]
    by_cases hdiff : intDiff h n = h - n
    · -- the right place, but only the start of the needle
      have hlong : 4294967296 ≤ n ∧ 0 ≤ wrap32 n := by omega
      have hshort := wrap32_toNat_lt hlong.2 hlong.1
      have hlen := length_startHaystack hle hshort.le
      refine ⟨_, _, not_mem_append (ha _) (hb _), ha n, hlen, length_replicate,
        fun hew => ?_⟩
      have hsuffix := hew.ew_iff.2.mp (startCompare_accepted hfit hle hdiff hlong.2 hlong.1)
      rw [suffix_iff_eq_drop, hlen, length_replicate,
        drop_append_of_le_length (by rw [length_replicate]; omega)] at hsuffix
      have hmem : 'b' ∈ replicate n 'a' := by
        rw [hsuffix]
        exact mem_append_right _ (mem_replicate.mpr ⟨by omega, rfl⟩)
      exact absurd (eq_of_mem_replicate hmem) (by decide)
    · by_cases hneg : intDiff h n < 0
      · refine ⟨_, _, ha h, ha n, length_replicate, length_replicate, fun hew => ?_⟩
        exact longHaystack_refused hfit hneg (hew.ew_iff.2.mpr hall)
      · have hpos : 0 < n := by
          by_contra hzero
          obtain rfl : n = 0 := by omega
          rw [intDiff, show wrap32 (0 : Nat) = 0 by decide, sub_zero] at hneg
          exact hwrong (.inr (.inr ⟨rfl, not_lt.mp hneg⟩))
        by_cases hcount : comparedLength n = 0
        · refine ⟨_, _, hb h, ha n, length_replicate, length_replicate, fun hew => ?_⟩
          have hsuffix := hew.ew_iff.2.mp (emptyCompare_accepted hfit (by omega) hcount)
          have hmem : 'a' ∈ replicate h 'b' :=
            hsuffix.subset (mem_replicate.mpr ⟨by omega, rfl⟩)
          exact absurd (eq_of_mem_replicate hmem) (by decide)
        · refine ⟨_, _, not_mem_append (hb (h - n)) (ha n), ha n, ?_,
            length_replicate, fun hew => ?_⟩
          · rw [length_append, length_replicate, length_replicate]
            omega
          · exact longHaystack_misplaced hfit hle (by omega) hdiff (by omega) hpos
              (hew.ew_iff.2.mpr (suffix_append _ _))

/-! ## All of them -/

/-- The operators decide their relations on two strings, and `sigar_strcasestr` finds the first
    place of the needle. -/
structure StringOperatorsRight (icase : Bool) (haystack needle : CStr) : Prop where
  operators : ∀ op, op ≠ .re → Decides icase op haystack needle
  found : ∀ t, sigarStrcasestr haystack needle = some t ↔ IsFirst (StartsWith true needle) haystack t
  missing : sigarStrcasestr haystack needle = none ↔
    ∀ t, t <:+ haystack → ¬ StartsWith true needle t

theorem stringOperatorsRight_of_ew {haystack : CStr} (hh : nul ∉ haystack) (hn : nul ∉ needle)
    (hew : Decides icase .ew haystack needle) :
    StringOperatorsRight icase haystack needle where
  operators := by
    intro op hre
    by_cases hop : op = .ew
    · rw [hop]
      exact hew
    · exact decides_of_ne_ew hh hn hre hop
  found := by
    intro t
    rw [sigarStrcasestr_eq hh hn, firstTail_eq_some_iff]
    simp only [startsWith_iff]
  missing := by
    rw [sigarStrcasestr_eq hh hn, firstTail_eq_none_iff]
    simp only [← startsWith_iff, Bool.not_eq_true]

/-- **The string operators** decide the textbook relations on all strings of two lengths exactly
    if an `int` makes no difference for these lengths to `ew`. -/
theorem stringOperators_right_iff (h n : Nat) (hsize : n < 18446744073709551616) :
    (∀ icase haystack needle, nul ∉ haystack → nul ∉ needle → haystack.length = h →
      needle.length = n → StringOperatorsRight icase haystack needle) ↔ SuffixLengths h n := by
  constructor
  · intro hright
    by_contra hfit
    obtain ⟨haystack, needle, hh, hn, hhlen, hnlen, hwrong⟩ := exists_ew_wrong hfit
    exact hwrong ((hright false haystack needle hh hn hhlen hnlen).operators .ew (by decide))
  · intro hfit icase haystack needle hh hn hhlen hnlen
    subst hhlen hnlen
    exact stringOperatorsRight_of_ew hh hn (decides_ew hsize hfit)

/-- Two strings of three and two characters. -/
theorem stringOperators_right_iff_example :
    2 < 18446744073709551616 ∧
      StringOperatorsRight true "aAb".toList "AB".toList :=
  ⟨by decide, (stringOperators_right_iff 3 2 (by decide)).mpr
    (suffixLengths_of_lt (by decide) (by decide)) true "aAb".toList "AB".toList (by decide)
    (by decide) (by decide) (by decide)⟩

/-- Every string ends with a needle of `2^32` characters. -/
theorem longNeedle_endsEverything :
    ptqlOpStr false .ew [] (replicate 4294967296 'a') = .ok true ∧
      ¬ Textbook false .ew [] (replicate 4294967296 'a') := by
  refine ⟨?_, ?_⟩
  · have hcount : comparedLength 4294967296 = 0 := by decide
    have hdiff : intDiff 0 4294967296 = 0 := by
      rw [intDiff]
      decide
    have hfit : DiffFits 0 4294967296 := by
      rw [DiffFits, hdiff]
      decide
    exact @emptyCompare_accepted 0 4294967296 hfit (by rw [hdiff]) hcount
  · intro hsuffix
    have hlen := List.IsSuffix.length_le hsuffix
    rw [length_foldCase, length_foldCase, length_replicate] at hlen
    exact absurd hlen (by decide)

end Sigar.Ptql
