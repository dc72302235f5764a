/-
  The clock rate in the name of a CPU.

  Source: `sigar_cpu_mhz_from_model` of `sigar_util.c`.

  The scan goes from blank to blank.  Behind each it takes the next number, and it stops at the FIRST
  one that is followed by a point, `GHz` or `MHz`.  The number behind a point is added to 100 times
  the one in front of it, however many digits it has, and `GHz` multiplies by ten.

  1. **Program** — the string lies in memory with its NUL; a read behind that is a fault, and so is an
     `int` that overflows in a product.
  2. **Rates** — the groups of digits that a blank separates from the one before, and the rates among
     them.
  3. **Scan** (`scan_groups`) — the scan stops at the first SIGHTING: a rate, or a number with a point
     that is none.
  4. **Result** — what is returned is the rate, or `SIGAR_FIELD_NOTIMPL` if there is none, exactly when
     the first sighting is read right (`mhz_right_iff`).
-/
import Sigar.Base
import Sigar.Lib.Fallible
import Sigar.Lib.Numerals
import Mathlib.Data.List.Induction
import Mathlib.Data.List.TakeWhile

namespace Sigar.Cpu.ModelMhz

open CString Numerals Fallible List

variable {digits s : Text} {p : Char → Bool} {whole : Nat}

/-! ## The program -/

inductive MhzFault where
  | pastEnd   -- a byte behind the string is read
  | null      -- a null pointer is read
  | overflow  -- an `int` is multiplied out of its range
  | noEnd     -- the loop does not end
  deriving DecidableEq

/-- `SIGAR_FIELD_NOTIMPL`, as an `int`. -/
def notImpl : Int := -1

/-- The conversion to `int`: the low 32 bits. -/
def toInt (n : Int) : Int := n.bmod 4294967296

/-- `mhz *= k`. -/
def times (mhz k : Int) : Except MhzFault Int :=
  if -2147483648 ≤ mhz * k ∧ mhz * k ≤ intMax then .ok (mhz * k) else .error .overflow

/-- `*ptr`; the bytes of the string end with its NUL. -/
def read : Text → Except MhzFault Char
  | [] => .error .pastEnd
  | c :: _ => .ok c

/-- The functions of the C library read up to a NUL. -/
def ofString {α : Type} (ptr : Text) (a : α) : Except MhzFault α :=
  if nul ∈ ptr then .ok a else .error .pastEnd

/-- `while (*ptr && !sigar_isdigit(*ptr)) ptr++`. -/
def skipToDigit : Text → Except MhzFault Text
  | [] => .error .pastEnd
  | c :: ptr => if c ≠ nul ∧ c.isDigit = false then skipToDigit ptr else .ok (c :: ptr)

/-- `sigar_strtoul(ptr)`: the number, and where `ptr` is then. -/
def sigarStrtoul (ptr : Text) : Except MhzFault (Nat × Text) :=
  ofString ptr ((strtoull ptr).value.toNat, (strtoull ptr).rest)

/-- `strnEQ(ptr, word, 3)`. -/
def strnEQ (ptr : Text) (word : String) : Except MhzFault Bool :=
  ofString ptr (strnEq ptr word.toList 3)

/-- The `while` loop: `mhz` and `ptr` behind it. -/
def scanLoop : Nat → Text → Int → Except MhzFault (Int × Option Text)
  | 0, _, _ => .error .noEnd
  | fuel + 1, ptr, mhz => do
    let c ← read ptr
    if c = nul then return (mhz, some ptr)
    match ← ofString ptr (strchr ptr ' ') with
    | none => return (mhz, none)
    | some ptr =>
      let ptr ← skipToDigit ptr
      let (number, ptr) ← sigarStrtoul ptr
      let mhz := toInt number
      let c ← read ptr
      if c = '.' then  -- e.g. "2.40GHz"
        let ptr := ptr.tail
        let mhz ← times mhz 100
        let (number, ptr) ← sigarStrtoul ptr
        return (toInt (mhz + number), some ptr)  -- a sum of `unsigned long`
      else if (← strnEQ ptr "GHz") || (← strnEQ ptr "MHz") then
        return (mhz, some ptr)                   -- e.g. "1500MHz"
      else scanLoop fuel ptr notImpl

/-- The end of the function, behind the loop. -/
def applyUnit (mhz : Int) (ptr : Option Text) : Except MhzFault Int :=
  if mhz ≠ notImpl then
    match ptr with
    | none => .error .null
    | some ptr => do if ← strnEQ ptr "GHz" then times mhz 10 else return mhz
  else return mhz

/-- `sigar_cpu_mhz_from_model`. -/
def sigarCpuMhzFromModel (model : Text) : Except MhzFault Int := do
  let (mhz, ptr) ← scanLoop (model.length + 1) (model ++ [nul]) notImpl
  applyUnit mhz ptr

/-! ## The rates of a name -/

inductive RateUnit where
  | ghz
  | mhz
  deriving DecidableEq

variable {unit : RateUnit}

/-- The unit that a text starts with. -/
def unitAt (s : Text) : Option RateUnit :=
  if "GHz".toList.isPrefixOf s then some .ghz
  else if "MHz".toList.isPrefixOf s then some .mhz
  else none

/-- A clock rate as it is written: the integer part, the digits behind the point if there is one, and
    the unit. -/
structure Rate where
  whole : Nat
  fraction : Option Text
  unit : RateUnit
  deriving DecidableEq

/-- The rate in MHz, rounded down. -/
def Rate.mhz (r : Rate) : Nat :=
  let digits := r.fraction.getD []
  let scale := match r.unit with
    | .ghz => 1000
    | .mhz => 1
  (r.whole * 10 ^ digits.length + digitsValue digits) * scale / 10 ^ digits.length

/-- A number that the scan stops at: one with its unit, or one with the text behind its point. -/
inductive Sighting where
  | plain (whole : Nat) (unit : RateUnit)
  | pointed (whole : Nat) (behind : Text)
  deriving DecidableEq

/-- What a group of digits is. -/
def sighting (s : Text) : Option Sighting :=
  let whole := digitsValue (s.takeWhile Char.isDigit)
  let rest := s.dropWhile Char.isDigit
  if deref rest = '.' then some (.pointed whole rest.tail) else (unitAt rest).map (.plain whole)

/-- The rate that it is, if the unit follows. -/
def Sighting.rate : Sighting → Option Rate
  | .plain whole unit => some ⟨whole, none, unit⟩
  | .pointed whole behind => (unitAt (behind.dropWhile Char.isDigit)).map fun unit =>
      ⟨whole, some (behind.takeWhile Char.isDigit), unit⟩

/-- The text from each group of digits on that has a blank between it and the group before; `blank` is
    whether one was seen. -/
def groups : Bool → Text → List Text
  | _, [] => []
  | blank, c :: s =>
    if c.isDigit then if blank then (c :: s) :: groups false s else groups false s
    else groups (blank || c = ' ') s

/-- The numbers of a name that the scan would stop at. -/
def sightings (model : Text) : List Sighting := (groups false model).filterMap sighting

/-- The first rate of a name. -/
def clockRate (model : Text) : Option Rate := (sightings model).findSome? Sighting.rate

/-- What is to be returned. -/
def expected (model : Text) : Int :=
  match clockRate model with
  | none => notImpl
  | some rate => rate.mhz

/-- **The rate is returned**, and no byte behind the string is read. -/
def Right (model : Text) : Prop := sigarCpuMhzFromModel model = .ok (expected model)

/-! ## Groups of digits -/

theorem groups_digits (hdigits : ∀ c ∈ digits, c.isDigit = true) (rest : Text) :
    groups false (digits ++ rest) = groups false rest := by
  induction digits with
  | nil => rfl
  | cons c digits ih =>
    rw [cons_append, groups, if_pos (hdigits c mem_cons_self)]
    exact ih fun d hd => hdigits d (mem_cons_of_mem c hd)

/-- Up to the first blank there is no group. -/
theorem groups_append {before : Text} (hbefore : ' ' ∉ before) (rest : Text) :
    groups false (before ++ rest) = groups false rest := by
  induction before with
  | nil => rfl
  | cons c before ih => grind [groups]

theorem groups_blank (rest : Text) : groups false (' ' :: rest) = groups true rest := rfl

/-- Behind a blank the next digit starts one. -/
theorem groups_true (s : Text) :
    groups true s = match s.dropWhile (fun c => !c.isDigit) with
      | [] => []
      | d :: rest => (d :: rest) :: groups false rest := by
  induction s with
  | nil => rfl
  | cons c s ih =>
    cases hc : c.isDigit with
    | true => rw [groups, if_pos hc, dropWhile_cons_of_neg (by simp [hc])]; rfl
    | false =>
      rw [groups, if_neg (by simp [hc]), Bool.true_or, ih, dropWhile_cons_of_pos (by simp [hc])]

/-! ## Terminated strings -/

theorem read_terminated (s : Text) : read (s ++ [nul]) = .ok (deref s) := by
  cases s <;> rfl

theorem ofString_terminated {α : Type} (s : Text) (a : α) : ofString (s ++ [nul]) a = .ok a :=
  if_pos (mem_append_right s mem_cons_self)

theorem skipToDigit_terminated (hs : nul ∉ s) :
    skipToDigit (s ++ [nul]) = .ok (s.dropWhile (fun c => !c.isDigit) ++ [nul]) := by
  induction s with
  | nil => rfl
  | cons c s ih =>
    have hc : c ≠ nul := fun h => hs (h ▸ mem_cons_self)
    rw [cons_append, skipToDigit]
    cases hdigit : c.isDigit with
    | true => rw [if_neg (by simp), dropWhile_cons_of_neg (by simp [hdigit])]; rfl
    | false =>
      rw [if_pos ⟨hc, rfl⟩, dropWhile_cons_of_pos (by simp [hdigit])]
      exact ih fun h => hs (mem_cons_of_mem c h)

theorem strnEQ_terminated (s : Text) {word : String} (hlength : word.toList.length = 3)
    (hword : nul ∉ word.toList) : strnEQ (s ++ [nul]) word = .ok (word.toList.isPrefixOf s) := by
  rw [strnEQ, ofString_terminated, ← hlength, strnEq_length]
  congr 1
  rw [Bool.eq_iff_iff, isPrefixOf_iff_prefix, isPrefixOf_iff_prefix]
  exact ⟨prefix_before hword, fun h => h.trans (prefix_append s [nul])⟩

theorem takeWhile_terminated (hp : p nul = false) (s : Text) :
    (s ++ [nul]).takeWhile p = s.takeWhile p := by
  induction s with
  | nil => exact takeWhile_cons_of_neg (by simp [hp])
  | cons c s ih => rw [cons_append, takeWhile_cons, takeWhile_cons, ih]

theorem dropWhile_terminated (hp : p nul = false) (s : Text) :
    (s ++ [nul]).dropWhile p = s.dropWhile p ++ [nul] := by
  induction s with
  | nil => exact dropWhile_cons_of_neg (by simp [hp])
  | cons c s ih =>
    rw [cons_append, dropWhile_cons, dropWhile_cons, ih]
    split <;> rfl

theorem takeSign_terminated (s : Text) :
    takeSign (s ++ [nul]) = ((takeSign s).1, (takeSign s).2 ++ [nul]) := by
  cases s with
  | nil => rfl
  | cons c s =>
    by_cases hminus : c = '-'
    · subst hminus
      rfl
    · by_cases hplus : c = '+'
      · subst hplus
        rfl
      · grind [takeSign_cons]

/-- A number is read the same with the NUL. -/
theorem strtoull_terminated (s : Text) :
    (strtoull (s ++ [nul])).value = (strtoull s).value ∧
    (strtoull (s ++ [nul])).rest = (strtoull s).rest ++ [nul] := by
  have hleading : leadingInt (s ++ [nul]) = leadingInt s := by
    rw [leadingInt, leadingInt, leadingDigits, leadingDigits, dropWhile_terminated rfl,
      takeSign_terminated, takeWhile_terminated rfl]
  have hafter : afterInt (s ++ [nul]) = afterInt s ++ [nul] := by
    rw [afterInt, afterInt, dropWhile_terminated rfl, takeSign_terminated, dropWhile_terminated rfl]
  rw [strtoull_eq, strtoull_eq, hleading, hafter]
  cases leadingInt s with
  | none => exact ⟨rfl, rfl⟩
  | some i =>
    dsimp only
    split <;> exact ⟨rfl, rfl⟩

theorem sigarStrtoul_terminated (s : Text) :
    sigarStrtoul (s ++ [nul]) = .ok ((strtoull s).value.toNat, (strtoull s).rest ++ [nul]) := by
  rw [sigarStrtoul, ofString_terminated, (strtoull_terminated s).1, (strtoull_terminated s).2]

theorem noDigit_dropWhile (s : Text) : NoDigit (s.dropWhile Char.isDigit) := by
  induction s with
  | nil => rfl
  | cons c s ih =>
    rw [dropWhile_cons]
    split
    · exact ih
    · next hc => exact Bool.eq_false_iff.mpr hc

/-- Digits at the start of a text, and what follows them. -/
theorem strtoull_split (hs : (deref s).isDigit = true) :
    (strtoull s).value.toNat = clamp64 (digitsValue (s.takeWhile Char.isDigit)) ∧
    (strtoull s).rest = s.dropWhile Char.isDigit := by
  have hdigits : ∀ c ∈ s.takeWhile Char.isDigit, c.isDigit = true := fun c => mem_takeWhile_imp
  have hne : s.takeWhile Char.isDigit ≠ [] := by
    cases s with
    | nil => cases hs
    | cons c s =>
      rw [takeWhile_cons_of_pos (show c.isDigit = true from hs)]
      exact cons_ne_nil _ _
  have hread := @strtoull_digits [] _ _ (by simp) hdigits hne (noDigit_dropWhile s)
  rw [nil_append, takeWhile_append_dropWhile] at hread
  rw [hread, UInt64.toNat_ofNat', Nat.mod_eq_of_lt (by rw [clamp64]; omega)]
  exact ⟨rfl, rfl⟩

/-! ## The scan -/

/-- What the function makes of it. -/
def Sighting.result : Sighting → Except MhzFault Int
  | .plain whole .ghz =>
    if toInt (clamp64 whole) ≠ notImpl then times (toInt (clamp64 whole)) 10
    else .ok (toInt (clamp64 whole))
  | .plain whole .mhz => .ok (toInt (clamp64 whole))
  | .pointed whole behind => do
    let hundreds ← times (toInt (clamp64 whole)) 100
    let mhz := toInt (hundreds + (strtoull behind).value.toNat)
    if mhz ≠ notImpl ∧ unitAt (strtoull behind).rest = some .ghz then times mhz 10 else .ok mhz

theorem ghz_terminated (s : Text) :
    strnEQ (s ++ [nul]) "GHz" = .ok (decide (unitAt s = some .ghz)) := by
  rw [strnEQ_terminated s rfl (by decide), unitAt]
  congr 1
  split
  case isTrue hghz => rw [hghz]; rfl
  case isFalse hghz => grind

theorem isSome_unitAt (s : Text) :
    (unitAt s).isSome = ("GHz".toList.isPrefixOf s || "MHz".toList.isPrefixOf s) := by
  grind [unitAt]

theorem applyUnit_terminated (mhz : Int) (s : Text) :
    applyUnit mhz (some (s ++ [nul])) =
      if mhz ≠ notImpl ∧ unitAt s = some .ghz then times mhz 10 else .ok mhz := by
  rw [applyUnit]
  by_cases hmhz : mhz = notImpl
  · rw [if_neg (not_not.mpr hmhz), if_neg fun h => h.1 hmhz]
    rfl
  · rw [if_pos hmhz]
    rw [ghz_terminated]
    by_cases hunit : unitAt s = some .ghz
    · rw [decide_eq_true hunit, if_pos ⟨hmhz, hunit⟩]
      rfl
    · rw [decide_eq_false hunit, if_neg fun h => hunit h.2]
      rfl

section Round

variable {fuel : Nat} {s : Text}

/-- The name has ended, or there is no blank left. -/
theorem scanLoop_last (hs : nul ∉ s) (hblank : ' ' ∉ s) :
    ∃ ptr, scanLoop (fuel + 1) (s ++ [nul]) notImpl = .ok (notImpl, ptr) := by
  rw [scanLoop, read_terminated]
  by_cases hend : deref s = nul
  · exact ⟨_, if_pos hend⟩
  · refine ⟨none, (if_neg hend).trans ?_⟩
    rw [ofString_terminated, strchr_append [nul] hblank hs]
    rfl

/-- A round takes the next number. -/
theorem scanLoop_next {before after : Text} (hs : nul ∉ before ++ ' ' :: after)
    (hbefore : ' ' ∉ before) :
    scanLoop (fuel + 1) (before ++ ' ' :: after ++ [nul]) notImpl = (do
      let s := after.dropWhile (fun c => !c.isDigit)
      let mhz := toInt (strtoull s).value.toNat
      let rest := (strtoull s).rest
      if deref rest = '.' then
        let mhz ← times mhz 100
        return (toInt (mhz + (strtoull rest.tail).value.toNat),
          some ((strtoull rest.tail).rest ++ [nul]))
      else if (unitAt rest).isSome then return (mhz, some (rest ++ [nul]))
      else scanLoop fuel (rest ++ [nul]) notImpl) := by
  have hnul : nul ∉ before ∧ nul ∉ ' ' :: after :=
    ⟨fun h => hs (mem_append_left _ h), fun h => hs (mem_append_right _ h)⟩
  have hstart : deref (before ++ ' ' :: after) ≠ nul := by
    intro h
    cases before with
    | nil => exact absurd (show ' ' = nul from h) (by decide)
    | cons c before => exact hnul.1 ((show c = nul from h) ▸ mem_cons_self)
  rw [scanLoop, read_terminated, ok_bind, if_neg hstart, ofString_terminated, ok_bind, append_assoc,
    cons_append, strchr_first _ hbefore hnul.1]
  dsimp only
  rw [← cons_append, skipToDigit_terminated hnul.2, dropWhile_cons_of_pos (by decide), ok_bind,
    sigarStrtoul_terminated, ok_bind]
  dsimp only
  rw [read_terminated, ok_bind]
  generalize (strtoull (after.dropWhile fun c => !c.isDigit)).rest = rest
  generalize toInt (strtoull (after.dropWhile fun c => !c.isDigit)).value.toNat = mhz
  by_cases hpoint : deref rest = '.'
  · obtain ⟨behind, rfl⟩ : ∃ behind, rest = '.' :: behind := by
      cases rest with
      | nil => exact absurd hpoint (by decide)
      | cons c behind => exact ⟨behind, by rw [show c = '.' from hpoint]⟩
    rw [if_pos hpoint, if_pos hpoint, cons_append, tail_cons, tail_cons, sigarStrtoul_terminated]
    rfl
  · rw [if_neg hpoint, if_neg hpoint, strnEQ_terminated rest rfl (by decide), ok_bind,
      strnEQ_terminated rest rfl (by decide), ok_bind, isSome_unitAt]

/-- The numbers of what a round goes over: the next one, and those of the rest. -/
theorem sightings_next {before after : Text} (hbefore : ' ' ∉ before)
    (hdigit : (deref (after.dropWhile fun c => !c.isDigit)).isDigit = true) :
    sightings (before ++ ' ' :: after) =
      (sighting (after.dropWhile fun c => !c.isDigit)).toList ++
        sightings ((after.dropWhile fun c => !c.isDigit).dropWhile Char.isDigit) := by
  rw [sightings, groups_append hbefore, groups_blank, groups_true]
  cases htext : after.dropWhile (fun c => !c.isDigit) with
  | nil =>
    rw [htext] at hdigit
    cases hdigit
  | cons d rest =>
    rw [htext] at hdigit
    have hrest : groups false ((d :: rest).dropWhile Char.isDigit) = groups false rest := by
      rw [← groups_digits (fun c => mem_takeWhile_imp), takeWhile_append_dropWhile, groups,
        if_pos (show d.isDigit = true from hdigit), if_neg (by simp)]
    dsimp only
    rw [sightings, hrest, filterMap_cons]
    cases sighting (d :: rest) <;> rfl

end Round

/-- **The scan stops at the first sighting.** -/
theorem scan_groups : ∀ {fuel : Nat} {s : Text}, nul ∉ s → s.length < fuel →
    (scanLoop fuel (s ++ [nul]) notImpl >>= fun out => applyUnit out.1 out.2) =
      match (sightings s).head? with
      | none => .ok notImpl
      | some seen => seen.result := by
  intro fuel
  induction fuel with
  | zero =>
    intro s _ hfuel
    cases hfuel
  | succ fuel ih =>
    intro s hs hfuel
    by_cases hblank : ' ' ∈ s
    · obtain ⟨before, after, rfl, hbefore⟩ := eq_append_cons_of_mem hblank
      have hafter : nul ∉ after := fun h => hs (by simp [h])
      have hlength : after.length < fuel := by grind
      rw [scanLoop_next hs hbefore]
      dsimp only
      by_cases hdigit : (deref (after.dropWhile fun c => !c.isDigit)).isDigit = true
      · have hsuffix := (dropWhile_suffix Char.isDigit).trans
          (dropWhile_suffix (l := after) fun c => !c.isDigit)
        rw [sightings_next hbefore hdigit, (strtoull_split hdigit).1, (strtoull_split hdigit).2,
          sighting]
        generalize (after.dropWhile fun c => !c.isDigit).dropWhile Char.isDigit = rest at hsuffix ⊢
        generalize digitsValue _ = whole
        by_cases hpoint : deref rest = '.'
        · simp [Sighting.result, hpoint, applyUnit_terminated]
        · rw [if_neg hpoint, if_neg hpoint]
          cases hunit : unitAt rest with
          | none => grind
          | some unit =>
            rw [Option.isSome_some, if_pos rfl, pure_bind, applyUnit_terminated, hunit]
            cases unit <;> simp [Sighting.result]
      · have hend : after.dropWhile (fun c => !c.isDigit) = [] := by
          cases htext : after.dropWhile (fun c => !c.isDigit) with
          | nil => rfl
          | cons d text =>
            have hhead := head?_dropWhile_not (fun c => !c.isDigit) after
            rw [htext] at hhead hdigit
            exact absurd (show d.isDigit = true by simpa using hhead) hdigit
        have hnone : sightings (before ++ ' ' :: after) = sightings [] := by
          rw [sightings, groups_append hbefore, groups_blank, groups_true, hend]
          rfl
        rw [hnone, hend, show strtoull [] = ⟨0, [], false⟩ by decide]
        exact ih (by simp) (Nat.zero_lt_of_lt hlength)
    · obtain ⟨ptr, hlast⟩ := @scanLoop_last fuel s hs hblank
      have hnone := groups_append hblank []
      rw [append_nil] at hnone
      rw [hlast, ok_bind, sightings, hnone]
      rfl

/-- **What is returned is made of the first sighting.** -/
theorem sigarCpuMhzFromModel_eq {model : Text} (hmodel : nul ∉ model) :
    sigarCpuMhzFromModel model = match (sightings model).head? with
      | none => .ok notImpl
      | some seen => seen.result :=
  scan_groups hmodel (Nat.lt_succ_self _)

/-! ## Numbers that are read right -/

/-- The thousandths of a fraction. -/
def thousandths (digits : Text) : Nat := digitsValue digits * 1000 / 10 ^ digits.length

/-- **A rate is read right.**  The fraction is added as the number that its digits are, to 100 times the
    integer part: in GHz that is right for TWO digits, and for others where the digits happen to agree
    with their thousandths, in MHz only where the sum happens to be the integer part again. -/
def Rate.ReadRight : Rate → Prop
  | ⟨whole, none, .ghz⟩ => whole = 0
  | ⟨whole, none, .mhz⟩ => whole ≤ intMax
  | ⟨whole, some digits, .ghz⟩ =>
    1000 * whole + thousandths digits ≤ intMax ∧
      thousandths digits = 10 * (clamp64 (digitsValue digits) % 4294967296)
  | ⟨whole, some digits, .mhz⟩ =>
    100 * whole ≤ intMax ∧ (99 * whole + clamp64 (digitsValue digits)) % 4294967296 = 0

/-- **A number with a point that is no rate is read right** where 100 times the number and the one
    behind the point happen to make `mhz`, as far as an `int` goes. -/
def MakesUp (whole : Nat) (behind : Text) (mhz : Int) : Prop :=
  let hundreds := 100 * toInt (clamp64 whole)
  let sum := hundreds + (strtoull behind).value.toNat
  (-2147483648 ≤ hundreds ∧ hundreds ≤ intMax) ∧
    if mhz ≠ notImpl ∧ unitAt (strtoull behind).rest = some .ghz then
      mhz ≤ intMax ∧ ∃ tenth : Nat, mhz = 10 * tenth ∧ (sum - tenth) % 4294967296 = 0
    else mhz ≤ intMax ∧ (sum - mhz) % 4294967296 = 0

/-- **The first sighting is read right.** -/
def ReadRight (model : Text) : Prop :=
  ∀ seen, (sightings model).head? = some seen → match seen, seen.rate with
    | _, some rate => rate.ReadRight
    | .plain _ _, none => True
    | .pointed whole behind, none => MakesUp whole behind (expected model)

theorem toInt_eq_iff {n m : Int} (hm : -2147483648 ≤ m) :
    toInt n = m ↔ m ≤ intMax ∧ (n - m) % 4294967296 = 0 := by
  simp only [toInt, Int.bmod_def, intMax]
  split <;> omega

theorem toInt_clamp {n : Nat} (hn : n ≤ intMax) : toInt (clamp64 n) = n := by
  rw [toInt_eq_iff (by omega), clamp64]
  simp only [intMax] at hn ⊢
  omega

theorem times_eq_ok_iff {mhz k n : Int} :
    times mhz k = .ok n ↔ (-2147483648 ≤ mhz * k ∧ mhz * k ≤ intMax) ∧ mhz * k = n := by
  grind [times]

/-- What the sum and the unit behind it make. -/
theorem finish_iff {sum mhz : Int} {unit : Option RateUnit} (hmhz : -1 ≤ mhz) :
    (if toInt sum ≠ notImpl ∧ unit = some .ghz then times (toInt sum) 10 else .ok (toInt sum))
        = .ok mhz ↔
      if mhz ≠ notImpl ∧ unit = some .ghz then
        mhz ≤ intMax ∧ ∃ tenth : Nat, mhz = 10 * tenth ∧ (sum - tenth) % 4294967296 = 0
      else mhz ≤ intMax ∧ (sum - mhz) % 4294967296 = 0 := by
  rw [← toInt_eq_iff (by omega : -2147483648 ≤ mhz)]
  by_cases hghz : unit = some .ghz
  · simp only [hghz, and_true]
    by_cases hnone : mhz = notImpl
    · grind [times_eq_ok_iff, notImpl, Except.ok.injEq]
    · rw [if_pos hnone]
      constructor
      · intro hok
        split at hok
        case isTrue =>
          obtain ⟨⟨-, hmax⟩, hten⟩ := times_eq_ok_iff.mp hok
          simp only [notImpl] at hnone
          refine ⟨by omega, (toInt sum).toNat, by omega, ?_⟩
          exact ((toInt_eq_iff (by omega)).mp (by omega)).2
        case isFalse hsum => exact absurd ((Except.ok.inj hok).symm.trans (not_not.mp hsum)) hnone
      · rintro ⟨hmax, tenth, rfl, htenth⟩
        have hsum : toInt sum = tenth := (toInt_eq_iff (by omega)).mpr ⟨by omega, htenth⟩
        rw [hsum, if_pos (by simp only [notImpl]; omega), times_eq_ok_iff]
        omega
  · simp only [hghz, and_false, if_false, Except.ok.injEq]

theorem pointed_iff {behind : Text} {mhz : Int} (hmhz : -1 ≤ mhz) :
    (Sighting.pointed whole behind).result = .ok mhz ↔ MakesUp whole behind mhz := by
  rw [Sighting.result, bind_eq_ok_iff, MakesUp, ← finish_iff hmhz]
  simp only [times_eq_ok_iff, Int.mul_comm _ 100]
  constructor
  · simp
  · simp

/-- Behind the point of a rate the digits are read. -/
theorem strtoull_rate {behind : Text}
    (hunit : unitAt (behind.dropWhile Char.isDigit) = some unit) :
    (strtoull behind).value.toNat = clamp64 (digitsValue (behind.takeWhile Char.isDigit)) ∧
    (strtoull behind).rest = behind.dropWhile Char.isDigit := by
  by_cases hdigit : (deref behind).isDigit = true
  · exact strtoull_split hdigit
  · have hnone : behind.dropWhile Char.isDigit = behind ∧ behind.takeWhile Char.isDigit = [] := by
      cases behind with
      | nil => exact ⟨rfl, rfl⟩
      | cons c behind =>
        exact ⟨dropWhile_cons_of_neg hdigit, takeWhile_cons_of_neg hdigit⟩
    rw [hnone.1] at hunit ⊢
    rw [hnone.2]
    have hread : strtoull behind = ⟨0, behind, false⟩ := by
      rw [unitAt] at hunit
      split at hunit
      case isTrue hghz =>
        obtain ⟨rest, rfl⟩ := isPrefixOf_iff_prefix.mp hghz
        rfl
      case isFalse =>
        split at hunit
        case isTrue hmhz =>
          obtain ⟨rest, rfl⟩ := isPrefixOf_iff_prefix.mp hmhz
          rfl
        case isFalse => cases hunit
    rw [hread]
    exact ⟨rfl, rfl⟩

theorem digitsValue_lt (h : ∀ c ∈ digits, c.isDigit = true) :
    digitsValue digits < 10 ^ digits.length := by
  induction digits using reverseRecOn with
  | nil => decide
  | append_singleton digits c ih =>
    have hc : c.toNat - '0'.toNat ≤ 9 := by
      have hdigit := h c (by simp)
      rw [Char.isDigit, Bool.and_eq_true, decide_eq_true_eq, decide_eq_true_eq] at hdigit
      exact Nat.sub_le_sub_right (UInt32.le_iff_toNat_le.mp hdigit.2) 48
    have hprev := ih fun d hd => h d (mem_append_left _ hd)
    rw [digitsValue_concat, length_append, length_singleton, Nat.pow_succ]
    omega

/-- The integer part of a rate counts in full. -/
theorem scaled (whole value scale n : Nat) :
    (whole * 10 ^ n + value) * scale / 10 ^ n = scale * whole + value * scale / 10 ^ n := by
  grind [Nat.add_mul, Nat.mul_comm, Nat.mul_assoc, Nat.add_mul_div_left]

theorem plain_iff :
    (Sighting.plain whole unit).result = .ok ((⟨whole, none, unit⟩ : Rate).mhz : Int) ↔
      (⟨whole, none, unit⟩ : Rate).ReadRight := by
  have hclamp := @toInt_clamp whole
  cases unit with
  | ghz =>
    have hmhz : (⟨whole, none, .ghz⟩ : Rate).mhz = 1000 * whole := by
      simp [Rate.mhz, digitsValue, Nat.mul_comm]
    rw [hmhz, Sighting.result, Rate.ReadRight]
    constructor
    · intro hok
      split at hok
      case isTrue =>
        obtain ⟨⟨-, hfits⟩, hten⟩ := times_eq_ok_iff.mp hok
        have hwhole := hclamp (by omega)
        omega
      case isFalse hnone => grind [notImpl]
    · rintro rfl
      decide
  | mhz =>
    have hmhz : (⟨whole, none, .mhz⟩ : Rate).mhz = whole := by simp [Rate.mhz, digitsValue]
    rw [hmhz, Sighting.result, Rate.ReadRight, Except.ok.injEq]
    refine ⟨fun h => ?_, hclamp⟩
    have := ((toInt_eq_iff (by omega)).mp h).1
    omega

theorem rate_iff {seen : Sighting} {rate : Rate} (hrate : seen.rate = some rate) :
    seen.result = .ok (rate.mhz : Int) ↔ rate.ReadRight := by
  cases seen with
  | plain whole unit =>
    obtain rfl : (⟨whole, none, unit⟩ : Rate) = rate := Option.some.inj hrate
    exact plain_iff
  | pointed whole behind =>
    obtain ⟨unit, hunit, rfl⟩ := Option.map_eq_some_iff.mp hrate
    obtain ⟨hvalue, hrest⟩ := strtoull_rate hunit
    have hdigits : ∀ c ∈ behind.takeWhile Char.isDigit, c.isDigit = true :=
      fun c => mem_takeWhile_imp
    have hnot : ∀ n : Nat, (n : Int) ≠ notImpl := fun n => by simp only [notImpl]; omega
    have hclamp := @toInt_clamp whole
    rw [pointed_iff (by omega), MakesUp, hvalue, hrest, hunit]
    simp only [Rate.mhz, Rate.ReadRight, Option.getD_some, scaled, intMax] at hclamp ⊢
    generalize behind.takeWhile Char.isDigit = digits at hdigits ⊢
    cases unit with
    | ghz =>
      dsimp only [thousandths]
      rw [if_pos ⟨hnot _, rfl⟩]
      generalize digitsValue digits * 1000 / 10 ^ digits.length = thousandths
      constructor
      · omega
      · rintro ⟨hmax, hthousandths⟩
        rw [hclamp (by omega)]
        refine ⟨by omega, by omega, 100 * whole + clamp64 (digitsValue digits) % 4294967296, ?_, ?_⟩
        · omega
        · omega
    | mhz =>
      dsimp only
      rw [if_neg (by simp), Nat.mul_one, Nat.div_eq_of_lt (digitsValue_lt hdigits)]
      constructor
      · omega
      · omega

/-- **The rate is returned exactly when the first sighting is read right.** -/
theorem mhz_right_iff {model : Text} (hmodel : nul ∉ model) : Right model ↔ ReadRight model := by
  rw [Right, sigarCpuMhzFromModel_eq hmodel, ReadRight]
  cases hseen : sightings model with
  | nil => simp [expected, clockRate, hseen]
  | cons seen more =>
    have hexpected : -1 ≤ expected model := by
      rw [expected]
      split
      · exact Int.le_refl _
      · omega
    cases hrate : seen.rate with
    | some rate =>
      have hmhz : expected model = rate.mhz := by simp [expected, clockRate, hseen, hrate]
      simp [hmhz, rate_iff hrate, hrate]
    | none =>
      cases seen with
      | plain whole unit => cases hrate
      | pointed whole behind => simp [pointed_iff hexpected, hrate]

/-- A name whose rate has two digits behind the point. -/
def twoDigits : Text := "Intel(R) Xeon(R) CPU E5-2670 0 @ 2.60GHz".toList

theorem mhz_right_iff_twoDigits :
    nul ∉ twoDigits ∧ expected twoDigits = 2600 ∧ Right twoDigits ∧ ReadRight twoDigits := by
  have hright : Right twoDigits := by
    rw [Right]
    decide +kernel
  exact ⟨by decide +kernel, by decide +kernel, hright, (mhz_right_iff (by decide +kernel)).mp hright⟩

/-- **2.4 GHz are 2040 MHz**, with one digit behind the point, and 3 GHz are 30. -/
theorem oneDigit_wrong :
    sigarCpuMhzFromModel "Intel CPU 2.4GHz".toList = .ok 2040 ∧
    sigarCpuMhzFromModel "Intel CPU 3GHz".toList = .ok 30 ∧
    expected "Intel CPU 2.4GHz".toList = 2400 ∧ ¬ Right "Intel CPU 2.4GHz".toList := by
  have hreturned : sigarCpuMhzFromModel "Intel CPU 2.4GHz".toList = .ok 2040 := by decide +kernel
  have hexpected : expected "Intel CPU 2.4GHz".toList = 2400 := by decide +kernel
  refine ⟨hreturned, by decide +kernel, hexpected, fun hright => ?_⟩
  rw [Right, hreturned, hexpected] at hright
  exact absurd (Except.ok.inj hright) (by decide)

end Sigar.Cpu.ModelMhz
