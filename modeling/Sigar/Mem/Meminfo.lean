/-
  The memory of a Linux host (linux_sigar.c, sigar_util.c).

  `sigar_mem_get` takes four numbers out of /proc/meminfo and derives the others.  A key is found by
  `strstr`, so what is read is the FIRST line whose key ENDS with the word; `firstReading` says which
  number that is, for a text longer than the buffer too, and `sigarMeminfo_eq` that the code reads
  it.  The percentages are exact: a double of the source is a rational here, and `none` is a
  division by zero.
-/
import Sigar.Util
import Sigar.Lib.Columns
import Mathlib.Tactic.Linarith
import Mathlib.Tactic.FieldSimp
import Mathlib.Tactic.Ring

namespace Sigar.Mem

open CString Numerals Columns List

/-! ## The code -/

/-- `sigar_mem_t`. -/
structure SigarMem where
  ram : UInt64
  total : UInt64
  used : UInt64
  free : UInt64
  actualUsed : UInt64
  actualFree : UInt64
  usedPercent : Option ℚ
  freePercent : Option ℚ

/-- `MEMINFO_PARAM`: a key and its colon. -/
def meminfoParam (key : Text) : Text := key ++ [':']

/-- `sigar_meminfo`. -/
def sigarMeminfo (buffer attr : Text) : UInt64 :=
  match strstr buffer attr with
  | none => 0
  | some ptr =>
    let val := strtoull0 (ptr.drop attr.length)
    let tok := val.rest.dropWhile (· == ' ')
    if deref tok = 'k' then val.value * 1024
    else if deref tok = 'M' then val.value * (1024 * 1024)
    else val.value

/-- `(double)(diff * 100) / total`. -/
def percentOf (diff total : Int64) : Option ℚ :=
  if total = 0 then none else some ((diff * 100).toInt / total.toInt)

/-- `sigar_mem_calc_ram`: the memory in whole blocks of 8 MB, and the percentages. -/
def sigarMemCalcRam (mem : SigarMem) : SigarMem :=
  let total := (mem.total / 1024).toInt64
  let ram := (mem.total / (1024 * 1024)).toUInt32.toInt32
  let remainder := ram % 8
  let ram := if 0 < remainder then ram + (8 - remainder) else ram
  { mem with
    ram := ram.toInt64.toUInt64
    usedPercent := percentOf (total.toUInt64 - mem.actualFree / 1024).toInt64 total
    freePercent := percentOf (total.toUInt64 - mem.actualUsed / 1024).toInt64 total }

/-- A line of /proc/mtrr: the size of a write-back register is added. -/
def mtrrLine (total : Int32) (line : Text) : Int32 :=
  match strstr line "size=".toList with
  | none => total
  | some ptr =>
    match strstr ptr "write-back".toList with
    | none => total
    | some _ => total + atoi ((ptr.drop 5).dropWhile isSpace)

/-- `get_ram`: the status, `sigar->ram` and the memory. -/
def getRam (mtrr : FileRead) (ram : Int32) (mem : SigarMem) : Status × Int32 × SigarMem :=
  let sysTotal := mem.total / (1024 * 1024)
  if 0 < ram then (sigarOk, ram, { mem with ram := ram.toInt64.toUInt64 })
  else if ram = 0 then (enoent, ram, mem)
  else match mtrr with
    | .noFile => (enoent, ram, mem)
    | .readError _ => (enoent, ram, mem)  -- no line is read, so the total is 0
    | .content text =>
      let total := (fgetsLines bufsiz text []).foldl mtrrLine 0
      -- the registers are way off
      let total := if 256 < total.toInt64.toUInt64 - sysTotal then 0 else total
      if total = 0 then (enoent, ram, mem)
      else (sigarOk, total, { mem with ram := total.toInt64.toUInt64 })

/-- `sigar_mem_get`: the status, `sigar->ram` and the caller's memory. -/
def sigarMemGet (meminfo mtrr : FileRead) (ram : Int32) (mem : SigarMem) :
    Status × Int32 × SigarMem :=
  let (status, buffer) := sigarFile2str bufsiz meminfo
  if status ≠ sigarOk then (status, ram, mem)
  else
    let total := sigarMeminfo buffer (meminfoParam "MemTotal".toList)
    let free := sigarMeminfo buffer (meminfoParam "MemFree".toList)
    let used := total - free
    let buffers := sigarMeminfo buffer (meminfoParam "Buffers".toList)
    let cached := sigarMeminfo buffer (meminfoParam "Cached".toList)
    let kern := buffers + cached
    let mem := sigarMemCalcRam
      { mem with total, free, used, actualFree := free + kern, actualUsed := used - kern }
    let (_, ram, mem) := getRam mtrr ram mem
    (sigarOk, ram, mem)

/-! ## The file -/

/-- A line `Key: value kB`, with any number of blanks before the value. -/
structure MemLine where
  key : Text
  pad : Nat
  value : Nat
  key_ok : ':' ∉ key ∧ '\n' ∉ key ∧ nul ∉ key

/-- The line behind its colon. -/
def MemLine.tail (line : MemLine) : Text :=
  replicate (line.pad + 1) ' ' ++ (renderNat line.value ++ " kB\n".toList)

def MemLine.text (line : MemLine) : Text := line.key ++ ':' :: line.tail

def meminfoText (lines : List MemLine) : Text := lines.flatMap MemLine.text

/-- The value of the line with exactly this key. -/
def kilobytes (lines : List MemLine) (key : Text) : Nat :=
  match lines.find? (·.key = key) with
  | some line => line.value
  | none => 0

/-- The keys that are read. -/
inductive MemKey where
  | total | free | buffers | cached

def MemKey.name : MemKey → Text
  | .total => "MemTotal".toList
  | .free => "MemFree".toList
  | .buffers => "Buffers".toList
  | .cached => "Cached".toList

/-- /proc/meminfo. -/
structure Meminfo where
  lines : List MemLine
  distinct : (lines.map MemLine.key).Nodup
  total_pos : 1 ≤ kilobytes lines MemKey.total.name
  free_le : kilobytes lines MemKey.free.name ≤ kilobytes lines MemKey.total.name

def Meminfo.text (file : Meminfo) : Text := meminfoText file.lines

def Meminfo.kb (file : Meminfo) (key : MemKey) : Nat := kilobytes file.lines key.name

/-- The memory is that of the file: each number is the one of its key, the sums do not wrap around
    and the percentages are two parts of a hundred. -/
structure MemRight (file : Meminfo) (buffer : Text) (mem : SigarMem) : Prop where
  taken : ∀ key : MemKey,
    (sigarMeminfo buffer (meminfoParam key.name)).toNat = 1024 * file.kb key
  total : mem.total.toNat = 1024 * file.kb .total
  free : mem.free.toNat = 1024 * file.kb .free
  used : mem.used.toNat + mem.free.toNat = mem.total.toNat
  kern : mem.actualFree.toNat = mem.free.toNat + 1024 * (file.kb .buffers + file.kb .cached)
  actual : mem.actualUsed.toNat + mem.actualFree.toNat = mem.total.toNat
  percent : ∃ u f, mem.usedPercent = some u ∧ mem.freePercent = some f ∧
    (0 ≤ u ∧ u ≤ 100) ∧ (0 ≤ f ∧ f ≤ 100) ∧ u + f = 100

/-- `sigar_mem_get` succeeds with the memory of the file, whatever else the host gives. -/
def MemGetRight (file : Meminfo) : Prop :=
  ∀ mtrr ram mem, (sigarMemGet (.content file.text) mtrr ram mem).1 = sigarOk ∧
    MemRight file (file.text.take (bufsiz - 1)) (sigarMemGet (.content file.text) mtrr ram mem).2.2

/-! ## What is read -/

/-- The number read off a line, of which the buffer has `room` bytes behind the colon.  Where the
    unit does not fit, kilobytes are taken for bytes; where digits do not fit, they are lost. -/
def MemLine.reading (line : MemLine) (room : Nat) : Nat :=
  let stop := line.pad + 1 + (renderNat line.value).length
  if stop + 2 ≤ room then 1024 * clamp64 line.value % 18446744073709551616
  else clamp64 (line.value / 10 ^ (stop - room))

/-- The number read from the first line whose key ends with the word, in a buffer of `room` bytes. -/
def firstReading (word : Text) : List MemLine → Nat → Nat
  | [], _ => 0
  | line :: lines, room =>
    if room ≤ line.key.length then 0
    else if word <:+ line.key then line.reading (room - line.key.length - 1)
    else firstReading word lines (room - line.text.length)

theorem clamp64_lt (n : Nat) : clamp64 n < 18446744073709551616 := by
  rw [clamp64]
  omega

theorem MemLine.reading_lt (line : MemLine) (room : Nat) :
    line.reading room < 18446744073709551616 := by
  rw [MemLine.reading]
  split
  · exact Nat.mod_lt _ (by decide)
  · exact clamp64_lt _

theorem firstReading_lt (word : Text) : ∀ (lines : List MemLine) (room : Nat),
    firstReading word lines room < 18446744073709551616 := by
  intro lines
  induction lines with
  | nil => intro room; rw [firstReading]; decide
  | cons line lines ih =>
    intro room
    rw [firstReading]
    split
    · decide
    · split
      · exact line.reading_lt _
      · exact ih _

theorem firstReading_zero (word : Text) (lines : List MemLine) :
    firstReading word lines 0 = 0 := by
  cases lines with
  | nil => rfl
  | cons line lines => rw [firstReading, if_pos (Nat.zero_le _)]

/-! ### One line -/

/-- The part of `sigar_meminfo` behind the key. -/
def scaled (val : Strto) : UInt64 :=
  let tok := val.rest.dropWhile (· == ' ')
  if deref tok = 'k' then val.value * 1024
  else if deref tok = 'M' then val.value * (1024 * 1024)
  else val.value

theorem scaled_kilo (n : UInt64) (rest : Text) (erange : Bool) :
    scaled ⟨n, ' ' :: 'k' :: rest, erange⟩ = n * 1024 := rfl

/-- Without a unit behind the blanks the number is taken as it is. -/
theorem scaled_blank (n : UInt64) (k : Nat) (erange : Bool) :
    scaled ⟨n, replicate k ' ', erange⟩ = n := by
  have htok : (replicate k ' ').dropWhile (· == ' ') = [] := by
    rw [dropWhile_replicate]
    rfl
  rw [scaled]
  dsimp only
  rw [htok]
  rfl

theorem strtoull0_blanks (k : Nat) :
    strtoull0 (replicate k ' ') = ⟨0, replicate k ' ', false⟩ := by
  rw [strtoull0, strtoull, skip_blanks]
  rfl

/-- The digits that fit are read, and what is behind them. -/
theorem strtoull0_shown (line : MemLine) {k : Nat} (hk : 0 < k) {rest : Text}
    (hrest : deref rest = nul ∨ deref rest = ' ') :
    ∃ erange, strtoull0 (replicate (line.pad + 1) ' ' ++
        ((renderNat line.value).take k ++ rest)) =
      ⟨UInt64.ofNat (clamp64 (line.value / 10 ^ ((renderNat line.value).length - k))), rest,
        erange⟩ := by
  have hnodigit : NoDigit rest := by
    rw [NoDigit]
    rcases hrest with h | h <;> rw [h] <;> rfl
  have hnox : deref rest ≠ 'x' ∧ deref rest ≠ 'X' := by
    rcases hrest with h | h <;> rw [h] <;> decide
  rw [renderNat_take hk, strtoull0_renderNat (isSpace_blanks _) _ hnodigit hnox,
    strtoull_digits (isSpace_blanks _) (fun _ => isDigit_of_mem_renderNat) (renderNat_ne_nil _)
      hnodigit, digitsValue_renderNat]
  exact ⟨_, rfl⟩

/-- What is read off a line, with the bytes that fit. -/
theorem scaled_tail (line : MemLine) (rest : Text) (room : Nat) :
    scaled (strtoull0 ((line.tail ++ rest).take room)) = UInt64.ofNat (line.reading room) := by
  have htail : line.tail ++ rest = replicate (line.pad + 1) ' ' ++
      (renderNat line.value ++ (' ' :: 'k' :: ("B\n".toList ++ rest))) := by
    rw [MemLine.tail, append_assoc, append_assoc]
    rfl
  rw [htail, take_append, length_replicate, MemLine.reading]
  rcases Nat.lt_or_ge (line.pad + 1) room with hblank | hblank
  · -- a digit fits
    rw [take_of_length_le (by rw [length_replicate]; omega), take_append]
    obtain ⟨k, hk⟩ : ∃ k, k = room - (line.pad + 1) := ⟨_, rfl⟩
    obtain ⟨d, hd⟩ : ∃ d, d = (renderNat line.value).length := ⟨_, rfl⟩
    rw [← hk, ← hd]
    rcases Nat.lt_or_ge k (d + 2) with hunit | hunit
    · -- the unit does not fit
      obtain ⟨j, hj, hrest⟩ : ∃ j, (j = 0 ∨ j = 1) ∧
          (' ' :: 'k' :: ("B\n".toList ++ rest)).take (k - d) = replicate j ' ' := by
        rcases Nat.lt_or_ge d k with h | h
        · exact ⟨1, .inr rfl, by rw [show k - d = 1 by omega]; rfl⟩
        · exact ⟨0, .inl rfl, by rw [show k - d = 0 by omega]; rfl⟩
      have hends : deref (replicate j ' ') = nul ∨ deref (replicate j ' ') = ' ' := by
        rcases hj with rfl | rfl
        · exact .inl rfl
        · exact .inr rfl
      obtain ⟨erange, hread⟩ := strtoull0_shown line (k := k) (by omega) hends
      rw [hrest, hread, scaled_blank, if_neg (by omega), ← hd,
        show line.pad + 1 + d - room = d - k by omega]
    · obtain ⟨m, hm⟩ : ∃ m, k - d = m + 2 := ⟨k - d - 2, by omega⟩
      obtain ⟨erange, hread⟩ := @strtoull0_shown line k (by omega)
        (' ' :: 'k' :: ("B\n".toList ++ rest).take m) (.inr rfl)
      rw [hm, take_succ_cons, take_succ_cons, hread, scaled_kilo, if_pos (by omega), ← hd,
        show d - k = 0 by omega, Nat.pow_zero, Nat.div_one]
      apply UInt64.toNat_inj.mp
      rw [UInt64.toNat_mul, UInt64.toNat_ofNat', UInt64.toNat_ofNat',
        Nat.mod_eq_of_lt (clamp64_lt _), Nat.mul_comm]
      exact (Nat.mod_mod _ _).symm
  · rw [show room - (line.pad + 1) = 0 by omega, take_zero, append_nil, take_replicate,
      strtoull0_blanks, scaled_blank, if_neg (by omega)]
    have hgone : line.value / 10 ^ (line.pad + 1 + (renderNat line.value).length - room) = 0 := by
      rw [show line.pad + 1 + (renderNat line.value).length - room =
        (renderNat line.value).length + (line.pad + 1 - room) by omega, Nat.pow_add,
        ← Nat.div_div_eq_div_mul, Nat.div_eq_of_lt (lt_pow_length_renderNat _), Nat.zero_div]
    rw [hgone]
    rfl

theorem MemLine.tail_eq (line : MemLine) : line.tail =
    (replicate (line.pad + 1) ' ' ++ (renderNat line.value ++ " kB".toList)) ++ ['\n'] := by
  rw [MemLine.tail, append_assoc, append_assoc]
  rfl

theorem MemLine.tail_clean (line : MemLine) : ':' ∉ line.tail ∧ nul ∉ line.tail := by
  have hclean : ∀ c ∈ line.tail, c = ' ' ∨ c.isDigit = true ∨ c ∈ " kB\n".toList := by
    intro c hc
    rw [MemLine.tail, mem_append, mem_append] at hc
    rcases hc with h | h | h
    · exact .inl (eq_of_mem_replicate h)
    · exact .inr (.inl (isDigit_of_mem_renderNat h))
    · exact .inr (.inr h)
  constructor
  · intro h
    rcases hclean _ h with h | h | h <;> exact absurd h (by decide)
  · intro h
    rcases hclean _ h with h | h | h <;> exact absurd h (by decide)

/-! ### The search for a key -/

theorem sigarMeminfo_congr {s t attr : Text} (h : strstr s attr = strstr t attr) :
    sigarMeminfo s attr = sigarMeminfo t attr := by
  rw [sigarMeminfo, h]
  rfl

theorem sigarMeminfo_none {s attr : Text} (h : strstr s attr = none) :
    sigarMeminfo s attr = 0 := by
  rw [sigarMeminfo, h]

theorem sigarMeminfo_some {s word rest : Text}
    (h : strstr s (meminfoParam word) = some (word ++ ':' :: rest)) :
    sigarMeminfo s (meminfoParam word) = scaled (strtoull0 rest) := by
  have hdrop : (word ++ ':' :: rest).drop (meminfoParam word).length = rest := by
    rw [meminfoParam, length_append, length_singleton, drop_past]
    rfl
  rw [sigarMeminfo, h]
  dsimp only
  rw [hdrop]
  rfl

/-- A value is passed over, since no key goes on in the next line. -/
theorem strstr_tail {word : Text} (hline : '\n' ∉ word) (line : MemLine) (s : Text) :
    strstr (line.tail ++ s) (meminfoParam word) = strstr s (meminfoParam word) := by
  refine strstr_append line.tail_clean.2 fun t ht hsuffix hstart => ?_
  rw [line.tail_eq, suffix_concat_iff] at hsuffix
  obtain rfl | ⟨body, rfl, hbody⟩ := hsuffix
  · exact ht rfl
  · rw [append_assoc] at hstart
    have hneedle : '\n' ∉ meminfoParam word := by
      rw [meminfoParam, mem_append, mem_singleton]
      rintro (h | h)
      · exact hline h
      · exact absurd h (by decide)
    have hinside : meminfoParam word <+: body := prefix_before hneedle hstart
    have hmem : ':' ∈ body := hinside.subset (mem_append_right word mem_cons_self)
    refine line.tail_clean.1 ?_
    rw [line.tail_eq]
    exact mem_append_left _ (hbody.subset hmem)

section Search

variable {word : Text} (hcolon : ':' ∉ word)
include hcolon

/-- **A key that ends with the word is found** at its end. -/
theorem strstr_key {key : Text} (hkey : ':' ∉ key) (hnul : nul ∉ key) (hword : word <:+ key)
    (s : Text) :
    strstr (key ++ ':' :: s) (meminfoParam word) = some (word ++ ':' :: s) := by
  obtain ⟨before, rfl⟩ := hword
  rw [append_assoc]
  have hpass : strstr (before ++ (word ++ ':' :: s)) (meminfoParam word) =
      strstr (word ++ ':' :: s) (meminfoParam word) := by
    refine strstr_append (fun h => hnul (mem_append_left _ h)) fun t ht hsuffix hstart => ?_
    have hfree : ':' ∉ t ++ word := by
      intro h
      rcases mem_append.mp h with h | h
      · exact hkey (mem_append_left _ (hsuffix.subset h))
      · exact hcolon h
    rw [← append_assoc] at hstart
    have heq : word = t ++ word := eq_of_prefix_mark hcolon hfree hstart
    exact ht (self_eq_append_left.mp heq)
  rw [hpass]
  apply strstr_here
  exact ⟨s, by rw [meminfoParam, append_assoc]; rfl⟩

/-- Behind another key the search goes on after the colon. -/
theorem strstr_other {key : Text} (hkey : ':' ∉ key) (hnul : nul ∉ key)
    (hword : ¬ word <:+ key) (s : Text) :
    strstr (key ++ ':' :: s) (meminfoParam word) = strstr s (meminfoParam word) := by
  have hpass : strstr (key ++ ':' :: s) (meminfoParam word) =
      strstr (':' :: s) (meminfoParam word) := by
    refine strstr_append hnul fun t _ hsuffix hstart => ?_
    have hfree : ':' ∉ t := fun h => hkey (hsuffix.subset h)
    exact hword (eq_of_prefix_mark hcolon hfree hstart ▸ hsuffix)
  have hhere : ¬ (meminfoParam word).isPrefixOf (':' :: s) = true := by
    intro htrue
    have hstart := isPrefixOf_iff_prefix.mp htrue
    have hempty : word = [] := eq_of_prefix_mark hcolon not_mem_nil hstart
    exact hword (hempty ▸ nil_suffix)
  rw [hpass, strstr, if_neg hhere, if_neg (by decide)]

/-- **`sigar_meminfo` reads the first line whose key ends with the word**, by induction on the lines
    and what is left of the buffer. -/
theorem sigarMeminfo_eq (hline : '\n' ∉ word) : ∀ (lines : List MemLine) (room : Nat),
    sigarMeminfo ((meminfoText lines).take room) (meminfoParam word) =
      UInt64.ofNat (firstReading word lines room) := by
  have hmark : ':' ∈ meminfoParam word := mem_append_right word mem_cons_self
  intro lines
  induction lines with
  | nil =>
    intro room
    rw [show meminfoText [] = [] from rfl, take_nil,
      sigarMeminfo_none (strstr_eq_none hmark not_mem_nil not_mem_nil)]
    rfl
  | cons line lines ih =>
    intro room
    obtain ⟨hkey, -, hnul⟩ := line.key_ok
    have htext : meminfoText (line :: lines) =
        line.key ++ ':' :: (line.tail ++ meminfoText lines) := by
      rw [meminfoText, flatMap_cons, MemLine.text, append_assoc]
      rfl
    rw [htext, firstReading, take_append]
    rcases Nat.lt_or_ge line.key.length room with hroom | hroom
    · obtain ⟨m, hm⟩ : ∃ m, room - line.key.length = m + 1 := ⟨room - line.key.length - 1, by omega⟩
      rw [if_neg (by omega), take_of_length_le (by omega), hm, take_succ_cons, Nat.add_sub_cancel]
      by_cases hword : word <:+ line.key
      · rw [if_pos hword, sigarMeminfo_some (strstr_key hcolon hkey hnul hword _), scaled_tail]
      · rw [if_neg hword, sigarMeminfo_congr (strstr_other hcolon hkey hnul hword _)]
        have hlength : line.text.length = line.key.length + (line.tail.length + 1) := by
          rw [MemLine.text, length_append, length_cons]
        rcases Nat.lt_or_ge m line.tail.length with hcut | hcut
        · -- the buffer ends in this line
          have hnone : strstr (line.tail.take m) (meminfoParam word) = none :=
            strstr_eq_none hmark (fun h => line.tail_clean.1 (mem_of_mem_take h))
              fun h => line.tail_clean.2 (mem_of_mem_take h)
          rw [take_append_of_le_length (by omega), sigarMeminfo_none hnone,
            show room - line.text.length = 0 by omega, firstReading_zero]
          rfl
        · rw [take_append, take_of_length_le hcut, sigarMeminfo_congr (strstr_tail hline line _),
            ih, show room - line.text.length = m - line.tail.length by omega]
    · rw [if_pos hroom, Nat.sub_eq_zero_of_le hroom, take_zero, append_nil,
        sigarMeminfo_none (strstr_eq_none hmark (fun h => hkey (mem_of_mem_take h))
          fun h => hnul (mem_of_mem_take h))]
      rfl

end Search

/-! ## The numbers -/

theorem MemKey.name_clean (key : MemKey) : ':' ∉ key.name ∧ '\n' ∉ key.name := by
  cases key <;> decide

/-- A small number keeps its value when it becomes signed. -/
theorem toInt64_toInt {x : UInt64} (hx : x.toNat < 9223372036854775808) :
    x.toInt64.toInt = (x.toNat : Int) := by
  have hsmall : 2 * x.toBitVec.toNat < 2 ^ 64 := by
    show 2 * x.toNat < 18446744073709551616
    omega
  show x.toBitVec.toInt = (x.toNat : Int)
  rw [BitVec.toInt_eq_toNat_of_lt hsmall]
  rfl

/-- The percentage that is left of a part in whole kilobytes. -/
theorem percentOf_eq {total part : UInt64} {t p : Nat} (htotal : total.toNat = 1024 * t)
    (hpart : part.toNat = 1024 * p) (hpos : 0 < t) (hle : p ≤ t) :
    percentOf ((total / 1024).toInt64.toUInt64 - part / 1024).toInt64 (total / 1024).toInt64 =
      some (((t - p : Nat) : ℚ) * 100 / t) := by
  have hbound : total.toNat < 18446744073709551616 := total.toNat_lt
  have ht : (total / 1024).toNat = t := by
    rw [UInt64.toNat_div, htotal]
    exact Nat.mul_div_cancel_left t (by decide)
  have hp : (part / 1024).toNat = p := by
    rw [UInt64.toNat_div, hpart]
    exact Nat.mul_div_cancel_left p (by decide)
  have hdiff : (total / 1024 - part / 1024).toNat = t - p := by
    rw [UInt64.toNat_sub_of_le _ _ (UInt64.le_iff_toNat_le.mpr (by omega)), ht, hp]
  have hsigned : (total / 1024).toInt64.toInt = (t : Int) := by
    rw [toInt64_toInt (by omega), ht]
  have hnonzero : (total / 1024).toInt64 ≠ 0 := by
    intro h
    rw [h] at hsigned
    have hzero : (0 : Int) = t := hsigned
    omega
  have hhundred : ((total / 1024 - part / 1024).toInt64 * 100).toInt = ((t - p : Nat) : Int) * 100 := by
    rw [Int64.toInt_mul, toInt64_toInt (by omega), hdiff, show (100 : Int64).toInt = 100 from rfl]
    exact Int.bmod_eq_of_le (by omega) (by omega)
  rw [UInt64.toUInt64_toInt64, percentOf, if_neg hnonzero, hhundred, hsigned, Int.cast_mul,
    Int.cast_natCast, Int.cast_natCast]
  rfl

section Derived

variable {total free buffers cached : UInt64} {t f b c : Nat} (htotal : total.toNat = 1024 * t)
  (hfree : free.toNat = 1024 * f) (hbuffers : buffers.toNat = 1024 * b)
  (hcached : cached.toNat = 1024 * c) (hsum : f + (b + c) ≤ t)
include htotal hfree hsum

theorem used_toNat : (total - free).toNat = 1024 * (t - f) := by
  rw [UInt64.toNat_sub_of_le _ _ (UInt64.le_iff_toNat_le.mpr (by omega)), htotal, hfree]
  omega

theorem used_add : (total - free).toNat + free.toNat = total.toNat := by
  rw [used_toNat htotal hfree hsum, htotal, hfree]
  omega

include hbuffers hcached

theorem kern_toNat : (buffers + cached).toNat = 1024 * (b + c) := by
  have hbound : total.toNat < 18446744073709551616 := total.toNat_lt
  rw [UInt64.toNat_add, hbuffers, hcached]
  omega

theorem actualFree_toNat : (free + (buffers + cached)).toNat = 1024 * (f + (b + c)) := by
  have hbound : total.toNat < 18446744073709551616 := total.toNat_lt
  rw [UInt64.toNat_add, kern_toNat htotal hfree hbuffers hcached hsum, hfree]
  omega

theorem actualUsed_toNat :
    (total - free - (buffers + cached)).toNat = 1024 * (t - (f + (b + c))) := by
  have hused := used_toNat htotal hfree hsum
  have hkern := kern_toNat htotal hfree hbuffers hcached hsum
  rw [UInt64.toNat_sub_of_le _ _ (UInt64.le_iff_toNat_le.mpr (by omega)), hused, hkern]
  omega

theorem actual_add : (total - free - (buffers + cached)).toNat +
    (free + (buffers + cached)).toNat = total.toNat := by
  rw [actualUsed_toNat htotal hfree hbuffers hcached hsum,
    actualFree_toNat htotal hfree hbuffers hcached hsum, htotal]
  omega

end Derived

/-- `get_ram` sets nothing but the size. -/
theorem getRam_keeps (mtrr : FileRead) (ram : Int32) (mem : SigarMem) :
    ∃ size, (getRam mtrr ram mem).2.2 = { mem with ram := size } := by
  unfold getRam
  dsimp only
  split
  · exact ⟨_, rfl⟩
  · split
    · exact ⟨mem.ram, rfl⟩
    · cases mtrr with
      | noFile => exact ⟨mem.ram, rfl⟩
      | readError errno => exact ⟨mem.ram, rfl⟩
      | content text =>
        dsimp only
        split
        · exact ⟨mem.ram, rfl⟩
        · split
          · exact ⟨mem.ram, rfl⟩
          · exact ⟨_, rfl⟩

/-- The two percentages are the parts that a hundred is split into. -/
theorem percent_parts {t a : Nat} (hpos : 0 < t) (hle : a ≤ t) :
    (0 ≤ ((t - a : Nat) : ℚ) * 100 / t ∧ ((t - a : Nat) : ℚ) * 100 / t ≤ 100) ∧
      (0 ≤ ((t - (t - a) : Nat) : ℚ) * 100 / t ∧ ((t - (t - a) : Nat) : ℚ) * 100 / t ≤ 100) ∧
      ((t - a : Nat) : ℚ) * 100 / t + ((t - (t - a) : Nat) : ℚ) * 100 / t = 100 := by
  have ht : (0 : ℚ) < t := Nat.cast_pos.mpr hpos
  have hshare : ∀ p : Nat, p ≤ t → 0 ≤ (p : ℚ) * 100 / t ∧ (p : ℚ) * 100 / t ≤ 100 := by
    intro p hp
    have hp' : (p : ℚ) ≤ t := Nat.cast_le.mpr hp
    have hp0 : (0 : ℚ) ≤ p := Nat.cast_nonneg p
    refine ⟨div_nonneg (mul_nonneg hp0 (by norm_num)) ht.le, ?_⟩
    rw [div_le_iff₀ ht]
    linarith
  refine ⟨hshare _ (by omega), hshare _ (by omega), ?_⟩
  rw [← add_div, ← add_mul, ← Nat.cast_add, show t - a + (t - (t - a)) = t by omega]
  field_simp

/-- **`sigar_mem_get` is right exactly if**, for each of the four keys, the first line whose key ends
    with it shows the number of the line with that key, and no more is free or reclaimable than
    there is. -/
theorem memGet_right_iff (file : Meminfo) : MemGetRight file ↔
    (∀ key : MemKey, firstReading key.name file.lines (bufsiz - 1) = 1024 * file.kb key) ∧
      file.kb .free + (file.kb .buffers + file.kb .cached) ≤ file.kb .total := by
  have hread : ∀ key : MemKey,
      (sigarMeminfo (file.text.take (bufsiz - 1)) (meminfoParam key.name)).toNat =
        firstReading key.name file.lines (bufsiz - 1) := by
    intro key
    rw [Meminfo.text, sigarMeminfo_eq key.name_clean.1 key.name_clean.2, UInt64.toNat_ofNat']
    exact Nat.mod_eq_of_lt (firstReading_lt _ _ _)
  constructor
  · intro hright
    obtain ⟨-, h⟩ := hright .noFile 0 ⟨0, 0, 0, 0, 0, 0, none, none⟩
    refine ⟨fun key => (hread key).symm.trans (h.taken key), ?_⟩
    have hkern := h.kern
    have hactual := h.actual
    rw [h.free] at hkern
    rw [h.total] at hactual
    omega
  · rintro ⟨hshown, hsum⟩ mtrr ram mem
    have htaken : ∀ key : MemKey, (sigarMeminfo (file.text.take (bufsiz - 1))
        (meminfoParam key.name)).toNat = 1024 * file.kb key := fun key =>
      (hread key).trans (hshown key)
    have hpos : 0 < file.kb .total := file.total_pos
    have hfree := actualFree_toNat (htaken .total) (htaken .free) (htaken .buffers)
      (htaken .cached) hsum
    have hactual := actualUsed_toNat (htaken .total) (htaken .free) (htaken .buffers)
      (htaken .cached) hsum
    obtain ⟨hu, hf, hboth⟩ := percent_parts hpos hsum
    refine ⟨rfl, ?_⟩
    obtain ⟨size, hsize⟩ : ∃ size, (sigarMemGet (.content file.text) mtrr ram mem).2.2 =
        { sigarMemCalcRam _ with ram := size } := getRam_keeps mtrr ram _
    rw [hsize]
    exact {
      taken := htaken
      total := htaken .total
      free := htaken .free
      used := used_add (htaken .total) (htaken .free) hsum
      kern := by
        rw [Nat.mul_add, ← htaken .free] at hfree
        exact hfree
      actual := actual_add (htaken .total) (htaken .free) (htaken .buffers) (htaken .cached) hsum
      percent := ⟨_, _, percentOf_eq (htaken .total) hfree hpos hsum,
        percentOf_eq (htaken .total) hactual hpos (Nat.sub_le _ _), hu, hf, hboth⟩ }

/-- A host whose swap line comes first. -/
def swapFirst : Meminfo where
  lines := [⟨"MemTotal".toList, 7, 4096, by decide⟩, ⟨"MemFree".toList, 8, 1024, by decide⟩,
    ⟨"SwapCached".toList, 5, 8, by decide⟩, ⟨"Cached".toList, 9, 512, by decide⟩]
  distinct := by decide
  total_pos := by decide
  free_le := by decide

/-- The number of `SwapCached` is taken for that of `Cached`. -/
theorem swapFirst_wrong : ¬ MemGetRight swapFirst := by
  intro hright
  obtain ⟨-, h⟩ := hright .noFile 0 ⟨0, 0, 0, 0, 0, 0, none, none⟩
  have hcached := h.taken .cached
  exact absurd hcached (by decide)

end Sigar.Mem
