/-
  Which kernels have their threads filtered out of the process list.

  Source: `sigar_os_open`, where it sets `has_nptl`, and `sigar_os_proc_list_get` of
  `os/linux/linux_sigar.c`.

  A kernel from 2.6 on has no LinuxThreads, and nothing is to be filtered.  The program does not read
  the two numbers of the release: it takes the number that starts at the THIRD character, "unless
  there is ever a kernel version 3".

  1. **What stands there** (`atoi_release`) — the second number after a first one of one digit, a
     point after one of two, and the rest of the first number after a longer one.
  2. **Result** — every entry is listed, whatever /proc holds, exactly when that number is 6 or more,
     or the environment says so (`unfiltered_iff`).
-/
import Sigar.Proc.ThreadFilter

namespace Sigar.Proc

open CString Numerals List

/-! ## The program -/

/-- `sigar_os_open`, as far as the process list depends on it: `nptl` says whether SIGAR_HAS_NPTL is
    in the environment. -/
def sigarOsOpen (release : Text) (nptl : Bool) : ThreadHandle :=
  let kernelRev := atoi (release.drop 2)
  { hasNptl := if 6 ≤ kernelRev then true else nptl
    procSignalOffset := -1 }

/-! ## What the kernel says -/

/-- A release `M.m` with what follows. -/
structure Release where
  major : Nat
  minor : Nat
  rest : Text
  rest_stop : NoDigit rest

def Release.text (r : Release) : Text :=
  renderNat r.major ++ '.' :: (renderNat r.minor ++ r.rest)

/-- What /proc shows: the directories of processes, each with any file `stat`, and other names. -/
inductive ProcItem where
  | process (pid : Nat) (stat : FileRead) (fits : pid < 2147483648)
  | other (name : Text) (stat : FileRead) (named : NoDigit name)

namespace ProcItem

def entry : ProcItem → ProcEntry
  | .process pid stat _ => ⟨renderNat pid, stat⟩
  | .other name stat _ => ⟨name, stat⟩

/-- The number of a process. -/
def pid? : ProcItem → Option SigarPid
  | .process pid _ _ => some (Int32.ofNat pid)
  | .other _ _ _ => none

end ProcItem

/-- **What is promised for a handle**: the list has the numbers in /proc, in order, whatever the files hold,
    and the handle stays as it is. -/
def Unfiltered (handle : ThreadHandle) : Prop :=
  ∀ (items : List ProcItem) (self : FileRead),
    sigarOsProcListGet handle (.ok (items.map ProcItem.entry)) self []
      = (handle, sigarOk, items.filterMap ProcItem.pid?)

/-- A number as `atoi` returns it. -/
def asInt (n : Nat) : Int32 := Int32.ofInt (min n 9223372036854775807 : Nat)

/-- **What is taken for 2.6 and later**: six or more in the second number, if the first one has one
    digit; or in the digits of the first number from the third on. -/
def LooksModern (r : Release) : Prop :=
  r.major < 10 ∧ 6 ≤ asInt r.minor ∨
    100 ≤ r.major ∧ 6 ≤ asInt (digitsValue ((renderNat r.major).drop 2))

/-! ## The third character -/

theorem atoi_digits {digits rest : Text} (hne : digits ≠ [])
    (hdigits : ∀ c ∈ digits, c.isDigit = true) (hrest : NoDigit rest) :
    atoi (digits ++ rest) = asInt (digitsValue digits) := by
  have hread : leadingInt (digits ++ rest) = some (digitsValue digits : Int) :=
    (@leadingInt_digits [] digits rest (fun _ h => absurd h not_mem_nil) hne hdigits hrest).1
  rw [atoi, asInt, strtol_eq, hread]
  dsimp only
  by_cases hlarge : 9223372036854775807 < (digitsValue digits : Int)
  · rw [if_pos hlarge, Nat.min_eq_right (by omega)]
    rfl
  · rw [if_neg hlarge, if_neg (by omega), Nat.min_eq_left (by omega)]

theorem atoi_point (rest : Text) : atoi ('.' :: rest) = 0 := rfl

/-- **The number at the third character.** -/
theorem atoi_release (r : Release) :
    atoi (r.text.drop 2) =
      if r.major < 10 then asInt r.minor
      else if r.major < 100 then 0
      else asInt (digitsValue ((renderNat r.major).drop 2)) := by
  have hlong : ∀ {n : Nat}, 10 ≤ n →
      (renderNat n).length = (renderNat (n / 10)).length + 1 := by
    intro n hn
    rw [renderNat_concat hn, length_append, length_singleton]
  rw [Release.text]
  split
  case isTrue hone =>
    rw [renderNat_digit hone]
    show atoi (renderNat r.minor ++ r.rest) = asInt r.minor
    rw [atoi_digits (renderNat_ne_nil _) (fun c => isDigit_of_mem_renderNat) r.rest_stop,
      digitsValue_renderNat]
  case isFalse hone =>
    have hten : 10 ≤ r.major := Nat.le_of_not_lt hone
    split
    case isTrue htwo =>
      have hlength : (renderNat r.major).length = 2 := by
        rw [hlong hten, renderNat_digit (by omega)]
        rfl
      rw [drop_left' hlength]
      exact atoi_point _
    case isFalse htwo =>
      have hlength : 2 < (renderNat r.major).length := by
        have hmore := length_pos_iff.mpr (renderNat_ne_nil (r.major / 10 / 10))
        rw [hlong hten, hlong (by omega)]
        omega
      rw [drop_append_of_le_length (Nat.le_of_lt hlength)]
      refine atoi_digits ?_ (fun c hc => isDigit_of_mem_renderNat (mem_of_mem_drop hc)) rfl
      rw [← length_pos_iff, length_drop]
      omega

theorem six_le_iff (r : Release) : 6 ≤ atoi (r.text.drop 2) ↔ LooksModern r := by
  rw [atoi_release, LooksModern]
  by_cases hone : r.major < 10
  · have hshort : ¬ 100 ≤ r.major := by omega
    rw [if_pos hone, and_iff_right hone, or_iff_left fun h => hshort h.1]
  · rw [if_neg hone, or_iff_right fun h => hone h.1]
    by_cases htwo : r.major < 100
    · rw [if_pos htwo]
      exact iff_of_false (by decide) fun h => absurd htwo (Nat.not_lt.mpr h.1)
    · rw [if_neg htwo, and_iff_right (Nat.le_of_not_lt htwo)]

theorem hasNptl_iff (r : Release) (nptl : Bool) :
    (sigarOsOpen r.text nptl).hasNptl = true ↔ nptl = true ∨ LooksModern r := by
  rw [← six_le_iff]
  show (if 6 ≤ atoi (r.text.drop 2) then true else nptl) = true ↔ _
  split
  case isTrue hsix => exact iff_of_true rfl (.inr hsix)
  case isFalse hsix => rw [or_iff_left hsix]

/-! ## The list -/

theorem pidOf_renderNat {pid : Nat} (hpid : pid < 2147483648) :
    pidOf (renderNat pid) = Int32.ofNat pid := by
  have hfits : pid < 18446744073709551616 := by omega
  have hread := @strtoull_renderNat pid hfits [] rfl
  rw [append_nil] at hread
  rw [pidOf, hread, UInt64.toUInt32_ofNat', UInt32.toInt32_ofNat']

theorem deref_renderNat (n : Nat) : (deref (renderNat n)).isDigit = true := by
  obtain ⟨c, rest, heq⟩ := exists_cons_of_ne_nil (renderNat_ne_nil n)
  have hmem : deref (renderNat n) ∈ renderNat n := by
    rw [heq]
    exact mem_cons_self
  exact isDigit_of_mem_renderNat hmem

/-- Without the filter every number is listed. -/
theorem procListLoop_unfiltered (offset : Int) : ∀ (items : List ProcItem)
    (proclist : List SigarPid),
    procListLoop false offset (items.map ProcItem.entry) proclist
      = proclist ++ items.filterMap ProcItem.pid? := by
  intro items
  induction items with
  | nil => intro proclist; exact (append_nil _).symm
  | cons item items ih =>
    intro proclist
    rw [map_cons, procListLoop, Bool.false_and]
    cases item with
    | other name stat named =>
      have hskip : ¬ (deref (ProcItem.entry (.other name stat named)).name).isDigit = true :=
        Bool.eq_false_iff.mp named
      rw [if_pos hskip]
      exact ih proclist
    | process pid stat fits =>
      have hdigit : (deref (ProcItem.entry (.process pid stat fits)).name).isDigit = true :=
        deref_renderNat pid
      have hpid : pidOf (ProcItem.entry (.process pid stat fits)).name = Int32.ofNat pid :=
        pidOf_renderNat fits
      rw [if_neg (not_not_intro hdigit), if_neg Bool.false_ne_true, ih, hpid, append_assoc]
      rfl

/-- The file `stat` of the process that makes the kernel threads: its exit signal, field 38 of 44,
    is 0. -/
def kthreadd : ProcItem :=
  .process 2 (.content ("2 (kthreadd) S 0 0 0 0 -1 2149613632 0 0 0 0 0 1 0 0 20 0 1 0 3 0 0 "
    ++ "18446744073709551615 0 0 0 0 0 0 0 2147483647 0 18446744071579382160 0 0 0 1 0 0 0 0 0\n"
    ).toList) (by decide)

/-- The file of the caller, with as many fields and 17 in field 38. -/
def callerStat : FileRead :=
  .content ("812 (sigar) R 800 812 800 34816 812 4202496 250 0 0 0 1 0 0 0 20 0 1 0 5000 4403200 "
    ++ "100 18446744073709551615 4194304 4238788 140736 140735 240 0 0 0 0 0 0 0 17 1 0 0 0 0 0\n"
    ).toList

/-- **All numbers in /proc are listed**, whatever its files hold, exactly when the third character
    of the release starts a number from 6 on, or the environment says that there are no threads. -/
theorem unfiltered_iff (r : Release) (nptl : Bool) :
    Unfiltered (sigarOsOpen r.text nptl) ↔ nptl = true ∨ LooksModern r := by
  rw [← hasNptl_iff]
  constructor
  · intro hall
    by_contra hnptl
    have hfilter : (sigarOsOpen r.text nptl).hasNptl = false := Bool.eq_false_iff.mpr hnptl
    have hone := hall [kthreadd] callerStat
    have hnone : procListLoop true (getProcSignalOffset callerStat)
        ([kthreadd].map ProcItem.entry) [] = [] := by
      decide +kernel
    rw [sigarOsProcListGet, hfilter, if_pos ⟨rfl, rfl⟩, Bool.not_false, hnone] at hone
    cases (Prod.mk.inj (Prod.mk.inj hone).2).2
  · intro hnptl items self
    have hoff : ¬ ((!(sigarOsOpen r.text nptl).hasNptl) = true ∧
        (sigarOsOpen r.text nptl).procSignalOffset = -1) := by
      rw [hnptl]
      exact fun h => Bool.false_ne_true h.1
    rw [sigarOsProcListGet, if_neg hoff, hnptl]
    exact congrArg (fun list => (_, sigarOk, list)) (procListLoop_unfiltered _ items [])

/-- Linux 3.0. -/
def threeZero : Release := ⟨3, 0, ".101-generic".toList, rfl⟩

/-- **With Linux 3.0 a process is missing from the list.** -/
theorem threeZero_hides :
    (sigarOsProcListGet (sigarOsOpen threeZero.text false) (.ok [kthreadd.entry]) callerStat []).2
      = (sigarOk, []) ∧
    [kthreadd].filterMap ProcItem.pid? = [2] ∧ ¬ Unfiltered (sigarOsOpen threeZero.text false) := by
  have hempty : (sigarOsProcListGet (sigarOsOpen threeZero.text false) (.ok [kthreadd.entry])
      callerStat []).2 = (sigarOk, []) := by
    decide +kernel
  refine ⟨hempty, rfl, fun hall => ?_⟩
  have hlist : (sigarOk, ([] : List SigarPid)) = (sigarOk, [2]) :=
    hempty.symm.trans (congrArg (fun out => out.2) (hall [kthreadd] callerStat))
  cases hlist

end Sigar.Proc
