/-
  Decimal numerals in a text.

  `leadingInt` is the integer that a text starts with, after blanks and a sign, with NO bound on
  its size, and `afterInt` is what follows it.  The C functions are these two and a range:
  `strtoull_eq` and `strtol_eq` say what they make of an integer that does not fit.
  `renderInt` writes an integer as `%d` does, and `leadingInt_render` reads it back;
  `fieldsLine` writes a line of them, and `strtoull_fieldsLine` takes the next one off it.
-/
import Sigar.Lib.CString
import Mathlib.Algebra.GroupWithZero.Nat
import Mathlib.Data.Int.Order.Basic

namespace Numerals

open CString List

/-- The digits that a text starts with, after blanks and a sign. -/
def leadingDigits (p : Text) : Text :=
  (takeSign (p.dropWhile isSpace)).2.takeWhile Char.isDigit

/-- The integer that a text starts with. -/
def leadingInt (p : Text) : Option Int :=
  if leadingDigits p = [] then none
  else if (takeSign (p.dropWhile isSpace)).1 then some (-(digitsValue (leadingDigits p) : Int))
  else some (digitsValue (leadingDigits p))

/-- What follows it. -/
def afterInt (p : Text) : Text :=
  (takeSign (p.dropWhile isSpace)).2.dropWhile Char.isDigit

/-- The integer that a text is, from its first to its last character. -/
def wholeInt (p : Text) : Option Int := if afterInt p = [] then leadingInt p else none

/-! ## The functions of the C library -/

theorem ofInt_natCast (n : Nat) : UInt64.ofInt n = UInt64.ofNat n := by
  apply UInt64.toNat_inj.mp
  rw [UInt64.ofInt, UInt64.toNat_ofNat', UInt64.toNat_ofNat']
  omega

/-- **`strtoull`** is the leading integer modulo `2^64`, if its size is below that. -/
theorem strtoull_eq (p : Text) :
    strtoull p = match leadingInt p with
      | none => ⟨0, p, false⟩
      | some i =>
        if 18446744073709551616 ≤ i.natAbs then ⟨18446744073709551615, afterInt p, true⟩
        else ⟨UInt64.ofInt i, afterInt p, false⟩ := by
  show (if leadingDigits p = [] then _ else _) = _
  rw [leadingInt]
  by_cases hnone : leadingDigits p = []
  · simp only [if_pos hnone]
  · simp only [if_neg hnone]
    cases hsign : (takeSign (p.dropWhile isSpace)).1 with
    | false =>
      simp only [Bool.false_eq_true, if_false, Int.natAbs_natCast, ofInt_natCast]
      rfl
    | true =>
      simp only [if_true, Int.natAbs_neg, Int.natAbs_natCast, UInt64.ofInt_neg, ofInt_natCast]
      rfl

/-- **`strtol`** is the leading integer, if it is a `long`. -/
theorem strtol_eq (p : Text) :
    strtol p = match leadingInt p with
      | none => ⟨0, p, false⟩
      | some i =>
        if 9223372036854775807 < i then ⟨9223372036854775807, afterInt p, true⟩
        else if i < -9223372036854775808 then ⟨-9223372036854775808, afterInt p, true⟩
        else ⟨i, afterInt p, false⟩ := by
  show (if leadingDigits p = [] then _ else _) = _
  rw [leadingInt]
  by_cases hnone : leadingDigits p = []
  · simp only [if_pos hnone]
  · simp only [if_neg hnone]
    cases hsign : (takeSign (p.dropWhile isSpace)).1 with
    | false =>
      simp only [Bool.false_eq_true, if_false]
      rfl
    | true =>
      simp only [if_true]
      rfl

theorem length_takeSign_le (p : Text) : (takeSign p).2.length ≤ p.length := by
  unfold takeSign
  split <;> simp

/-- Reading a number consumes something. -/
theorem length_afterInt_lt {p : Text} {i : Int} (h : leadingInt p = some i) :
    (afterInt p).length < p.length := by
  have hdigits : leadingDigits p ≠ [] := by grind [leadingInt]
  have hsplit : leadingDigits p ++ afterInt p = (takeSign (p.dropWhile isSpace)).2 :=
    takeWhile_append_dropWhile
  have hlen := congrArg List.length hsplit
  have hpos : 0 < (leadingDigits p).length := length_pos_of_ne_nil hdigits
  have hsign := length_takeSign_le (p.dropWhile isSpace)
  have hblank : (p.dropWhile isSpace).length ≤ p.length := (dropWhile_sublist _).length_le
  rw [length_append] at hlen
  omega

/-! ## Writing -/

/-- `%u`. -/
def renderNat (n : Nat) : Text := Nat.toDigits 10 n

/-- `%d`. -/
def renderInt (i : Int) : Text :=
  if i < 0 then '-' :: renderNat i.natAbs else renderNat i.natAbs

theorem isDigit_of_mem_renderNat {n : Nat} {c : Char} (h : c ∈ renderNat n) : c.isDigit = true :=
  Nat.isDigit_of_mem_toDigits (by decide) (by decide) h

theorem renderNat_ne_nil (n : Nat) : renderNat n ≠ [] := Nat.toDigits_ne_nil

theorem digitsValue_concat (digits : Text) (c : Char) :
    digitsValue (digits ++ [c]) = 10 * digitsValue digits + (c.toNat - '0'.toNat) := by
  rw [digitsValue, digitsValue, foldl_append]
  rfl

theorem digitChar_toNat {d : Nat} (h : d < 10) : (Nat.digitChar d).toNat - '0'.toNat = d := by
  have htable : ∀ d < 10, (Nat.digitChar d).toNat - '0'.toNat = d := by decide
  exact htable d h

/-- A written number has its value. -/
theorem digitsValue_renderNat (n : Nat) : digitsValue (renderNat n) = n := by
  induction n using Nat.strongRecOn with
  | ind n ih =>
    rw [renderNat, Nat.toDigits_eq_if (by decide)]
    split
    case isTrue hlt =>
      rw [show [Nat.digitChar n] = [] ++ [Nat.digitChar n] from rfl, digitsValue_concat,
        digitChar_toNat hlt]
      show 10 * 0 + n = n
      omega
    case isFalse hge =>
      rw [digitsValue_concat, digitChar_toNat (Nat.mod_lt n (by decide))]
      have hprev : digitsValue (Nat.toDigits 10 (n / 10)) = n / 10 := ih (n / 10) (by omega)
      rw [hprev]
      omega

/-- The text does not go on with a digit. -/
def NoDigit (rest : Text) : Prop := (deref rest).isDigit = false

theorem code_of_isDigit {c : Char} (h : c.isDigit = true) : 48 ≤ c.toNat := by
  rw [Char.isDigit, Bool.and_eq_true, decide_eq_true_eq, decide_eq_true_eq] at h
  exact UInt32.le_iff_toNat_le.mp h.1

theorem isSpace_of_isDigit {c : Char} (h : c.isDigit = true) : isSpace c = false :=
  isSpace_of_le (Nat.le_trans (by decide) (code_of_isDigit h))

/-- The text of a number: the sign, and the digits. -/
theorem takeSign_renderInt (i : Int) (rest : Text) :
    takeSign (renderInt i ++ rest) = (decide (i < 0), renderNat i.natAbs ++ rest) := by
  by_cases hneg : i < 0
  · rw [renderInt, if_pos hneg, decide_eq_true hneg]
    rfl
  · rw [renderInt, if_neg hneg, decide_eq_false hneg]
    cases hdigits : renderNat i.natAbs with
    | nil => exact absurd hdigits (renderNat_ne_nil _)
    | cons c digits =>
      have hc : c.isDigit = true :=
        isDigit_of_mem_renderNat (hdigits ▸ mem_cons_self : c ∈ renderNat i.natAbs)
      have hminus : c ≠ '-' := by
        rintro rfl
        exact absurd hc (by decide)
      have hplus : c ≠ '+' := by
        rintro rfl
        exact absurd hc (by decide)
      exact takeSign_cons hminus hplus

/-- A written number starts with no blank. -/
theorem dropWhile_renderInt (i : Int) (rest : Text) :
    (renderInt i ++ rest).dropWhile isSpace = renderInt i ++ rest := by
  have hhead : ∀ c text, renderInt i = c :: text → isSpace c = false := by
    intro c text h
    rw [renderInt] at h
    split at h
    · rw [← (cons.inj h).1]
      rfl
    · exact isSpace_of_isDigit
        (isDigit_of_mem_renderNat (h ▸ mem_cons_self : c ∈ renderNat i.natAbs))
  cases h : renderInt i with
  | nil => grind [renderInt, renderNat_ne_nil]
  | cons c text =>
    rw [cons_append, dropWhile_cons_of_neg (by simp [hhead c text h])]

/-- **A written number is read back**, whatever follows it but another digit. -/
theorem leadingInt_render (i : Int) {rest : Text} (hrest : NoDigit rest) :
    leadingInt (renderInt i ++ rest) = some i := by
  have hdigits : leadingDigits (renderInt i ++ rest) = renderNat i.natAbs := by
    rw [leadingDigits, dropWhile_renderInt, takeSign_renderInt]
    exact takeWhile_stop (fun c => isDigit_of_mem_renderNat) hrest
  rw [leadingInt, hdigits, if_neg (renderNat_ne_nil _), dropWhile_renderInt, takeSign_renderInt,
    digitsValue_renderNat]
  by_cases hneg : i < 0
  · grind
  · grind

theorem afterInt_render (i : Int) {rest : Text} (hrest : NoDigit rest) :
    afterInt (renderInt i ++ rest) = rest := by
  rw [afterInt, dropWhile_renderInt, takeSign_renderInt]
  exact dropWhile_stop (fun c => isDigit_of_mem_renderNat) hrest

theorem wholeInt_render (i : Int) : wholeInt (renderInt i) = some i := by
  have hafter := afterInt_render i (rfl : NoDigit [])
  have hleading := leadingInt_render i (rfl : NoDigit [])
  rw [append_nil] at hafter hleading
  rw [wholeInt, if_pos hafter, hleading]

theorem renderInt_ne_nil (i : Int) : renderInt i ≠ [] := by
  rw [renderInt]
  split
  · exact cons_ne_nil _ _
  · exact renderNat_ne_nil _

theorem mem_renderInt {i : Int} {c : Char} (h : c ∈ renderInt i) : c = '-' ∨ c.isDigit = true := by
  rw [renderInt] at h
  split at h
  · rcases mem_cons.mp h with hsign | hdigit
    · exact .inl hsign
    · exact .inr (isDigit_of_mem_renderNat hdigit)
  · exact .inr (isDigit_of_mem_renderNat h)

theorem isToken_renderInt (i : Int) : IsToken (renderInt i) := by
  apply isToken_of_le
  intro c hc
  rcases mem_renderInt hc with rfl | hdigit
  · decide
  · exact Nat.le_trans (by decide) (code_of_isDigit hdigit)

theorem isToken_renderNat (n : Nat) : IsToken (renderNat n) :=
  isToken_of_le fun c hc => Nat.le_trans (by decide) (code_of_isDigit (isDigit_of_mem_renderNat hc))

/-- Digits behind blanks are read whole. -/
theorem leadingInt_digits {gap digits rest : Text} (hgap : ∀ c ∈ gap, isSpace c = true)
    (hne : digits ≠ []) (hdigits : ∀ c ∈ digits, c.isDigit = true) (hrest : NoDigit rest) :
    leadingInt (gap ++ (digits ++ rest)) = some (digitsValue digits : Int) ∧
    afterInt (gap ++ (digits ++ rest)) = rest := by
  match digits, hne with
  | d :: digits, hne =>
    have hd : d.isDigit = true := hdigits d mem_cons_self
    have hskip : (gap ++ (d :: digits ++ rest)).dropWhile isSpace = d :: digits ++ rest :=
      dropWhile_stop hgap (isSpace_of_isDigit hd)
    have hsign : takeSign (d :: digits ++ rest) = (false, d :: digits ++ rest) := by
      apply takeSign_cons
      · rintro rfl
        exact absurd hd (by decide)
      · rintro rfl
        exact absurd hd (by decide)
    have hleading : leadingDigits (gap ++ (d :: digits ++ rest)) = d :: digits := by
      rw [leadingDigits, hskip, hsign]
      exact takeWhile_stop hdigits hrest
    constructor
    · rw [leadingInt, hleading, if_neg hne, hskip, hsign]
      rfl
    · rw [afterInt, hskip, hsign]
      exact dropWhile_stop hdigits hrest

/-- An integer of 64 bits, with or without a sign. -/
abbrev Word := {i : Int // i.natAbs < 18446744073709551616}

theorem strtoull_render (w : Word) {rest : Text} (hrest : NoDigit rest) :
    strtoull (renderInt w ++ rest) = ⟨UInt64.ofInt w, rest, false⟩ := by
  have hfits : ¬ 18446744073709551616 ≤ w.1.natAbs := Nat.not_le.mpr w.2
  rw [strtoull_eq, leadingInt_render w hrest, afterInt_render w hrest]
  exact if_neg hfits

/-- The same behind a blank. -/
theorem strtoull_blank (w : Word) {rest : Text} (hrest : NoDigit rest) :
    strtoull (' ' :: (renderInt w ++ rest)) = ⟨UInt64.ofInt w, rest, false⟩ := by
  have hfits : ¬ 18446744073709551616 ≤ w.1.natAbs := Nat.not_le.mpr w.2
  have hleading : leadingInt (' ' :: (renderInt w ++ rest)) = some w.1 := leadingInt_render w hrest
  have hafter : afterInt (' ' :: (renderInt w ++ rest)) = rest := afterInt_render w hrest
  rw [strtoull_eq, hleading, hafter]
  exact if_neg hfits

/-- The same for `%u`. -/
theorem strtoull_renderNat {n : Nat} (hn : n < 18446744073709551616) {rest : Text}
    (hrest : NoDigit rest) : strtoull (renderNat n ++ rest) = ⟨UInt64.ofNat n, rest, false⟩ := by
  have hread := strtoull_render ⟨(n : Int), by omega⟩ hrest
  rw [show renderInt ((n : Int)) = renderNat n from if_neg (by omega), ofInt_natCast] at hread
  exact hread

/-! ## Digits -/

/-- What a conversion to 64 bits makes of a number that does not fit. -/
def clamp64 (n : Nat) : Nat := min n 18446744073709551615

/-- A number with more than one digit. -/
theorem renderNat_concat {n : Nat} (hn : 10 ≤ n) :
    renderNat n = renderNat (n / 10) ++ [Nat.digitChar (n % 10)] := by
  rw [renderNat, Nat.toDigits_eq_if (by decide), if_neg (by omega)]
  rfl

theorem renderNat_digit {n : Nat} (hn : n < 10) : renderNat n = [Nat.digitChar n] := by
  rw [renderNat, Nat.toDigits_eq_if (by decide), if_pos hn]

theorem lt_pow_length_renderNat (n : Nat) : n < 10 ^ (renderNat n).length := by
  induction n using Nat.strongRecOn with
  | ind n ih => grind [renderNat_digit, renderNat_concat, length_append, length_singleton,
      Nat.pow_succ]

/-- The first digits of a number are those of a number. -/
theorem length_renderNat_le : ∀ {d n : Nat}, n < 10 ^ (d + 1) → (renderNat n).length ≤ d + 1 := by
  intro d
  induction d with
  | zero =>
    intro n h
    rw [renderNat_digit h]
    exact Nat.le_refl 1
  | succ d ih =>
    intro n h
    by_cases hn : n < 10
    · grind
    · grind [renderNat_concat, length_append, Nat.pow_succ', Nat.succ_le_succ]

theorem renderNat_take : ∀ {n k : Nat}, 0 < k →
    (renderNat n).take k = renderNat (n / 10 ^ ((renderNat n).length - k)) := by
  intro n
  induction n using Nat.strongRecOn with
  | ind n ih =>
    intro k hk
    rcases Nat.lt_or_ge n 10 with hn | hn
    · rw [renderNat_digit hn, take_of_length_le hk, length_singleton, show 1 - k = 0 by omega,
        Nat.pow_zero, Nat.div_one, renderNat_digit hn]
    · have hlength : (renderNat n).length = (renderNat (n / 10)).length + 1 := by
        rw [renderNat_concat hn, length_append, length_singleton]
      rcases Nat.lt_or_ge (renderNat (n / 10)).length k with h | h
      · rw [take_of_length_le (by omega), show (renderNat n).length - k = 0 by omega, Nat.pow_zero,
          Nat.div_one]
      · rw [show (renderNat n).length - k = (renderNat (n / 10)).length - k + 1 by omega,
          Nat.pow_succ', ← Nat.div_div_eq_div_mul, ← ih (n / 10) (by omega) hk, renderNat_concat hn,
          take_append_of_le_length h]

/-- Only zero is written with a leading zero. -/
theorem renderNat_zero_lead {n : Nat} : (renderNat n).head? = some '0' → n = 0 := by
  induction n using Nat.strongRecOn with
  | ind n ih =>
    intro hhead
    rcases Nat.lt_or_ge n 10 with hn | hn
    · have htable : ∀ d < 10, Nat.digitChar d = '0' → d = 0 := by decide
      rw [renderNat_digit hn] at hhead
      exact htable n hn (by simpa using hhead)
    · rw [renderNat_concat hn, head?_append_of_ne_nil _ (renderNat_ne_nil _)] at hhead
      have hprev : n / 10 = 0 := ih (n / 10) (by omega) hhead
      omega

section Digits

variable {blanks digits rest : Text} (hblanks : ∀ c ∈ blanks, isSpace c = true)
  (hdigits : ∀ c ∈ digits, c.isDigit = true) (hne : digits ≠ []) (hrest : NoDigit rest)
include hblanks hdigits hne

/-- Blanks are passed over, and digits are not taken for a sign. -/
theorem takeSign_digits : takeSign ((blanks ++ (digits ++ rest)).dropWhile isSpace) =
    (false, digits ++ rest) := by
  obtain ⟨c, digits, rfl⟩ := exists_cons_of_ne_nil hne
  have hc : c.isDigit = true := hdigits c mem_cons_self
  have hcode : 48 ≤ c.toNat := code_of_isDigit hc
  have hstop : isSpace (deref (c :: digits ++ rest)) = false := isSpace_of_isDigit hc
  rw [dropWhile_stop hblanks hstop]
  refine takeSign_cons ?_ ?_
  · rintro rfl
    exact absurd hcode (by decide)
  · rintro rfl
    exact absurd hcode (by decide)

include hrest

/-- `strtoull` behind any blanks. -/
theorem strtoull_digits : strtoull (blanks ++ (digits ++ rest)) =
    ⟨UInt64.ofNat (clamp64 (digitsValue digits)), rest,
      decide (18446744073709551616 ≤ digitsValue digits)⟩ := by
  unfold strtoull
  rw [takeSign_digits hblanks hdigits hne]
  dsimp only
  rw [takeWhile_stop hdigits hrest, dropWhile_stop hdigits hrest, if_neg hne]
  rcases Nat.lt_or_ge (digitsValue digits) 18446744073709551616 with hn | hn
  · grind [clamp64, decide_eq_false]
  · have hclamp : clamp64 (digitsValue digits) = 18446744073709551615 := by
      rw [clamp64]
      omega
    rw [if_pos hn, hclamp, decide_eq_true hn]
    rfl

end Digits

theorem skipHexMark_eq {p : Text} (h : ∀ x q, p = '0' :: x :: q → x ≠ 'x' ∧ x ≠ 'X') :
    skipHexMark p = p := by
  unfold skipHexMark
  split
  case h_1 x d rest => grind
  case h_2 => rfl

/-- A number written in decimal is read the same without a given base. -/
theorem strtoull0_renderNat {blanks rest : Text} (hblanks : ∀ c ∈ blanks, isSpace c = true)
    (n : Nat) (hrest : NoDigit rest) (hx : deref rest ≠ 'x' ∧ deref rest ≠ 'X') :
    strtoull0 (blanks ++ (renderNat n ++ rest)) = strtoull (blanks ++ (renderNat n ++ rest)) := by
  have hdigits : ∀ c ∈ renderNat n, c.isDigit = true := fun _ => isDigit_of_mem_renderNat
  unfold strtoull0
  rw [takeSign_digits hblanks hdigits (renderNat_ne_nil n)]
  dsimp only
  rcases Nat.eq_zero_or_pos n with rfl | hn
  · -- a zero is its own octal digit
    have hzero : renderNat 0 = ['0'] := rfl
    have hstop : ((deref rest).isDigit && decide ((deref rest).toNat < '8'.toNat)) = false := by
      rw [show (deref rest).isDigit = false from hrest, Bool.false_and]
    have hzeros : ∀ c ∈ ['0'], (c.isDigit && decide (c.toNat < '8'.toNat)) = true := by simp
    have hmark : skipHexMark (['0'] ++ rest) = ['0'] ++ rest := by
      apply skipHexMark_eq
      rintro x q heq
      have hrest' : rest = x :: q := (cons.inj heq).2
      rw [hrest'] at hx
      exact hx
    have hdec : deref (['0'] ++ rest) = '0' := rfl
    rw [strtoull_digits hblanks hdigits (renderNat_ne_nil 0) hrest, hzero,
      if_neg (not_not.mpr hmark), if_pos hdec, takeWhile_stop hzeros hstop,
      dropWhile_stop hzeros hstop]
    rfl
  · have hlead : ∀ q, renderNat n ++ rest ≠ '0' :: q := by
      intro q heq
      have hhead : (renderNat n ++ rest).head? = some '0' := by rw [heq]; rfl
      rw [head?_append_of_ne_nil _ (renderNat_ne_nil n)] at hhead
      have := renderNat_zero_lead hhead
      omega
    have hmark : skipHexMark (renderNat n ++ rest) = renderNat n ++ rest :=
      skipHexMark_eq fun x q heq => absurd heq (hlead (x :: q))
    have hdec : deref (renderNat n ++ rest) ≠ '0' := by
      intro heq
      obtain ⟨c, digits, hcons⟩ := exists_cons_of_ne_nil (renderNat_ne_nil n)
      rw [hcons] at heq
      have hc : c = '0' := heq
      exact hlead (digits ++ rest) (by rw [hcons, hc]; rfl)
    rw [if_neg (not_not.mpr hmark), if_neg hdec]

/-! ## A line of numbers -/

/-- Integers, each after a blank. -/
def renderFields (fields : List Int) : Text := fields.flatMap fun i => ' ' :: renderInt i

/-- Integers to the end of a line. -/
def fieldsLine (fields : List Int) : Text := renderFields fields ++ ['\n']

theorem renderFields_append (fields fields' : List Int) :
    renderFields (fields ++ fields') = renderFields fields ++ renderFields fields' :=
  flatMap_append

theorem fieldsLine_cons (i : Int) (fields : List Int) :
    fieldsLine (i :: fields) = ' ' :: (renderInt i ++ fieldsLine fields) := by
  rw [fieldsLine, fieldsLine, renderFields, flatMap_cons, append_assoc, cons_append]
  rfl

theorem isSpace_deref_fieldsLine (fields : List Int) :
    isSpace (deref (fieldsLine fields)) = true := by
  cases fields with
  | nil => rfl
  | cons i fields =>
    rw [fieldsLine_cons]
    rfl

theorem noDigit_fieldsLine (fields : List Int) : NoDigit (fieldsLine fields) := by
  cases fields with
  | nil => rfl
  | cons i fields =>
    rw [fieldsLine_cons]
    rfl

theorem mem_fieldsLine {fields : List Int} {c : Char} (h : c ∈ fieldsLine fields) :
    isSpace c = true ∨ c = '-' ∨ c.isDigit = true := by
  induction fields with
  | nil =>
    rw [mem_singleton.mp h]
    exact .inl rfl
  | cons i fields ih =>
    rw [fieldsLine_cons] at h
    rcases mem_cons.mp h with hblank | hrest
    · rw [hblank]
      exact .inl rfl
    · rcases mem_append.mp hrest with hnumber | hlater
      · exact .inr (mem_renderInt hnumber)
      · exact ih hlater

/-- The next number of the line, at its first digit. -/
theorem strtoull_number (w : Word) (fields : List Int) :
    strtoull (renderInt w ++ fieldsLine fields) = ⟨UInt64.ofInt w, fieldsLine fields, false⟩ :=
  strtoull_render w (noDigit_fieldsLine fields)

/-- The next number of the line, at its blank. -/
theorem strtoull_fieldsLine (w : Word) (fields : List Int) :
    strtoull (fieldsLine (w :: fields)) = ⟨UInt64.ofInt w, fieldsLine fields, false⟩ := by
  rw [fieldsLine_cons]
  exact strtoull_blank w (noDigit_fieldsLine fields)

end Numerals
