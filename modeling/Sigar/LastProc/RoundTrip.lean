/-
  Reading back what the kernel writes to /proc/<pid>/stat.

  The file is one line, `pid (comm) S f4 f5 … f39 …`, and `comm` is any text: it may hold blanks,
  newlines, digits and parentheses, so that the line cannot be cut at blanks.
  `proc_stat_read` finds the name between the FIRST `(` and the LAST `)`, and what follows it one
  field after the other, some converted by `strtoull` and some skipped by `sigar_skip_token`.

  1. No parenthesis comes after the name: the rest is a letter and numbers (`parseProcStat_text`).
  2. Both scanners take exactly one field off the line (`strtoull_fieldsLine`,
     `sigarSkipToken_fieldsLine`), so they stay in step over all 36 (`parseAfterName_text`).
  3. What is stored is each number modulo the width of the field it is stored in (`held`).
  4. Times go through a `double`; there the whole milliseconds are exact below `2^53`
     (`sigarTick2msec_exact`).
-/
import Sigar.LastProc.Linux
import Sigar.Lib.Doubles
import Sigar.Lib.Numerals
import Sigar.Lib.Words

namespace Sigar.LastProc

open CString Numerals List

/-! ## The record and its text -/

/-- A line of the file: the first three fields, the numbers 4 to 37, the exit signal in field 38,
    and the numbers after it. -/
structure StatLine where
  pid : Int
  comm : Text
  state : Char
  early : List Int
  exitSignal : Int
  late : List Int

namespace StatLine

/-- The fields from the fourth on. -/
def fields (l : StatLine) : List Int := l.early ++ l.exitSignal :: l.late

/-- The first three fields. -/
def front (l : StatLine) : Text :=
  renderInt l.pid ++ (' ' :: '(' :: (l.comm ++ [')', ' ', l.state]))

def text (l : StatLine) : Text := l.front ++ fieldsLine l.fields

/-- What follows the name. -/
def afterName (l : StatLine) : Text := ' ' :: l.state :: fieldsLine l.fields

theorem text_eq (l : StatLine) :
    l.text = (renderInt l.pid ++ [' ']) ++ '(' :: (l.comm ++ ')' :: l.afterName) := by
  simp only [text, front, afterName, append_assoc, cons_append, nil_append]

end StatLine

/-- What the kernel writes about a process, under the names of the source's list of fields.  A
    field that is skipped may be any integer. -/
structure StatRecord where
  pid : Int
  comm : Text
  state : Char
  ppid : Word
  pgrp : Int
  session : Int
  ttyNr : Word
  tpgid : Int
  flags : Int
  minflt : Word
  cminflt : Int
  majflt : Word
  cmajflt : Int
  utime : UInt64
  stime : UInt64
  cutime : Int
  cstime : Int
  priority : Word
  nice : Word
  removed : Int
  itrealvalue : Int
  starttime : UInt64
  vsize : Word
  rss : Word
  rlim : Int
  startcode : Int
  endcode : Int
  startstack : Int
  kstkesp : Int
  kstkeip : Int
  signal : Int
  blocked : Int
  sigignore : Int
  sigcache : Int
  wchan : Int
  nswap : Int
  cnswap : Int
  exitSignal : Int
  processor : Word
  more : List Int  -- fields of later kernels
  comm_length : comm.length < sigarProcNameLen
  comm_string : nul ∉ comm
  state_letter : state.isAlpha = true

/-- A number without a sign. -/
def unsigned (n : UInt64) : Word :=
  ⟨n.toNat, by
    have hlt := n.toNat_lt
    omega⟩

theorem ofInt_unsigned (n : UInt64) : UInt64.ofInt (unsigned n) = n := by
  show UInt64.ofInt (n.toNat : Int) = n
  rw [ofInt_natCast, UInt64.ofNat_toNat]

namespace StatRecord

/-- The line that shows it. -/
def line (r : StatRecord) : StatLine where
  pid := r.pid
  comm := r.comm
  state := r.state
  early := [r.ppid.val, r.pgrp, r.session, r.ttyNr.val, r.tpgid, r.flags, r.minflt.val, r.cminflt,
    r.majflt.val, r.cmajflt, (unsigned r.utime).val, (unsigned r.stime).val, r.cutime, r.cstime,
    r.priority.val, r.nice.val, r.removed, r.itrealvalue, (unsigned r.starttime).val, r.vsize.val,
    r.rss.val, r.rlim, r.startcode, r.endcode, r.startstack, r.kstkesp, r.kstkeip, r.signal,
    r.blocked, r.sigignore, r.sigcache, r.wchan, r.nswap, r.cnswap]
  exitSignal := r.exitSignal
  late := r.processor.val :: r.more

/-- What `last_proc_stat` is to hold: the numbers modulo the width of the field, the start in
    milliseconds since 1970, the resident size in bytes. -/
def held (r : StatRecord) (handle : LinuxHandle) : ProcStat where
  name := r.comm
  state := r.state
  ppid := .ofInt r.ppid
  tty := .ofInt r.ttyNr
  minorFaults := .ofInt r.minflt
  majorFaults := .ofInt r.majflt
  utime := sigarTick2msec handle r.utime
  stime := sigarTick2msec handle r.stime
  priority := .ofInt r.priority
  nice := .ofInt r.nice
  startTime :=
    .ofNat ((r.starttime.toNat / handle.ticks.toInt.toNat + handle.bootTime.toNat) * 1000)
  vsize := .ofInt r.vsize
  rss := .ofInt (r.rss * 2 ^ handle.pagesize.toNat)
  processor := .ofInt r.processor

end StatRecord

/-! ## Stored numbers -/

theorem toInt_ofInt (i : Int) : toInt (UInt64.ofInt i) = Int32.ofInt i := by
  have hlow := Words.toNat_ofInt64_toUInt32 i
  have hbits := Words.toNat_eq_toInt32_mod (UInt64.ofInt i).toUInt32
  have hrange := Int32.le_toInt (toInt (UInt64.ofInt i))
  have hrange' := Int32.toInt_lt (toInt (UInt64.ofInt i))
  apply Int32.toInt_inj.mp
  rw [Words.toInt_ofInt, Words.wrap32]
  rw [toInt] at hrange hrange' ⊢
  omega

/-- What `sigar_os_open` leaves in the handle: some clock, and the exponent of a page size. -/
structure LinuxHandle.Opened (handle : LinuxHandle) : Prop where
  ticks_pos : 0 < handle.ticks.toInt
  pagesize_lt : handle.pagesize.toNat < 64

section Opened

variable {handle : LinuxHandle} (hopen : handle.Opened)
include hopen

theorem pageshift_ofInt (i : Int) :
    pageshift handle (UInt64.ofInt i) = UInt64.ofInt (i * 2 ^ handle.pagesize.toNat) := by
  apply UInt64.toNat_inj.mp
  have hpower : ((2 ^ handle.pagesize.toNat : Nat) : Int) = 2 ^ handle.pagesize.toNat := by
    push_cast
    rfl
  have hleft := Words.toNat_ofInt64 i
  have hright := Words.toNat_ofInt64 (i * 2 ^ handle.pagesize.toNat)
  rw [pageshift, UInt64.toNat_shiftLeft, Nat.mod_eq_of_lt hopen.pagesize_lt, Nat.shiftLeft_eq]
  apply Int.ofNat_inj.mp
  rw [hright, Int.natCast_mod, Nat.cast_mul, hleft, hpower]
  show (_ % 18446744073709551616 * _) % 18446744073709551616 = _
  rw [Int.mul_emod, Int.emod_emod, ← Int.mul_emod]

theorem startTime_eq (start : UInt64) :
    (start / handle.ticks.toInt64.toUInt64 + handle.bootTime) * 1000
      = .ofNat ((start.toNat / handle.ticks.toInt.toNat + handle.bootTime.toNat) * 1000) := by
  have hpos := hopen.ticks_pos
  have hticks : handle.ticks.toInt64.toUInt64.toNat = handle.ticks.toInt.toNat := by
    have hword := Words.toNat_signExtend handle.ticks
    rw [if_pos hpos.le] at hword
    omega
  rw [UInt64.ofNat_mul, UInt64.ofNat_add, UInt64.ofNat_toNat, ← hticks, ← UInt64.toNat_div,
    UInt64.ofNat_toNat]
  rfl

end Opened

/-! ## Milliseconds -/

/-- Where the clock divides the second into whole milliseconds, the quotient is exact. -/
theorem factor_exact : ∀ d ∈ Nat.divisors 1000,
    1000.0 / Float.ofInt (d : Int) = (UInt64.ofNat (1000 / d)).toFloat := by
  decide +kernel

/-- **The time in milliseconds is exact** while it is below `2^53`. -/
theorem sigarTick2msec_exact {handle : LinuxHandle} {d : Nat} (hticks : handle.ticks.toInt = d)
    (hdvd : d ∣ 1000) {s : UInt64} (hsmall : s.toNat * (1000 / d) < 2 ^ 53) :
    (sigarTick2msec handle s).toNat = s.toNat * (1000 / d) := by
  have hd : d ≤ 1000 := Nat.le_of_dvd (by decide) hdvd
  have hpos : 0 < d := Nat.pos_of_dvd_of_pos hdvd (by decide)
  have hfactor : 0 < 1000 / d := Nat.div_pos hd hpos
  have hfactor_le : 1000 / d ≤ 1000 := Nat.div_le_self 1000 d
  have hs : s.toNat < 2 ^ 53 :=
    Nat.lt_of_le_of_lt (Nat.le_mul_of_pos_right s.toNat hfactor) hsmall
  have hq : (UInt64.ofNat (1000 / d)).toNat = 1000 / d := by
    rw [UInt64.toNat_ofNat']
    omega
  have hquotient : Doubles.IsNat (UInt64.ofNat (1000 / d)).toFloat (1000 / d) := by
    have hnat := Doubles.isNat_toFloat (n := UInt64.ofNat (1000 / d)) (by omega)
    rwa [hq] at hnat
  have hproduct := (Doubles.isNat_toFloat hs).mul hquotient hsmall
  rw [sigarTick2msec, hticks, factor_exact d (Nat.mem_divisors.mpr ⟨hdvd, by decide⟩),
    hproduct.toUInt64 hsmall, UInt64.toNat_ofNat']
  omega

/-! ## One field after the other -/

theorem sigarSkipToken_fieldsLine (i : Int) (fields : List Int) :
    sigarSkipToken (fieldsLine (i :: fields)) = fieldsLine fields := by
  rw [fieldsLine_cons]
  show sigarSkipToken ([' '] ++ (renderInt i ++ fieldsLine fields)) = _
  exact sigarSkipToken_token (forall_mem_singleton.mpr rfl) (isToken_renderInt i) (renderInt_ne_nil i)
    (.inr (isSpace_deref_fieldsLine fields))

/-- A letter is neither a blank nor a parenthesis. -/
theorem letter_plain {c : Char} (h : c.isAlpha = true) : isSpace c = false ∧ c ≠ ')' := by
  have hcode : 65 ≤ c.toNat := by
    rcases Bool.or_eq_true_iff.mp h with hupper | hlower
    · rw [Char.isUpper, decide_eq_true_eq] at hupper
      exact UInt32.le_iff_toNat_le.mp hupper.1
    · rw [Char.isLower, Bool.and_eq_true, decide_eq_true_eq] at hlower
      have hlow : 97 ≤ c.toNat := UInt32.le_iff_toNat_le.mp hlower.1
      omega
  refine ⟨isSpace_of_le (Nat.le_trans (by decide) hcode), ?_⟩
  rintro rfl
  exact absurd hcode (by decide)

/-- Before the first number one scanner more skips blanks. -/
theorem dropWhile_fieldsLine (i : Int) (fields : List Int) :
    (fieldsLine (i :: fields)).dropWhile isSpace = renderInt i ++ fieldsLine fields := by
  rw [fieldsLine_cons, dropWhile_cons_of_pos (by decide), dropWhile_renderInt]

/-- **Both scanners stay in step with the fields.** -/
theorem parseAfterName_text {handle : LinuxHandle} (hopen : handle.Opened) (r : StatRecord) :
    parseAfterName handle r.comm r.line.afterName = r.held handle := by
  have hletter : isSpace r.line.state = false := (letter_plain r.state_letter).1
  have hstate : r.line.afterName.dropWhile isSpace = r.state :: fieldsLine r.line.fields := by
    rw [StatLine.afterName, dropWhile_cons_of_pos (by decide),
      dropWhile_cons_of_neg (by simp [hletter])]
    rfl
  have hfirst : (fieldsLine r.line.fields).dropWhile isSpace
      = renderInt r.ppid ++ fieldsLine r.line.fields.tail := dropWhile_fieldsLine _ _
  simp only [parseAfterName, hstate, tail_cons, hfirst, strtoull_number]
  -- from here on the text is the line of the fields that are left
  simp only [StatLine.fields, StatRecord.line, tail_cons, cons_append, nil_append,
    sigarSkipMultipleToken, sigarSkipToken_fieldsLine, strtoull_fieldsLine, toInt_ofInt,
    pageshift_ofInt hopen, startTime_eq hopen, ofInt_unsigned]
  rfl

/-! ## The name -/

/-- No parenthesis comes after the name. -/
theorem paren_notMem_afterName (r : StatRecord) : ')' ∉ r.line.afterName := by
  intro h
  rcases mem_cons.mp h with hblank | h
  · exact absurd hblank (by decide)
  rcases mem_cons.mp h with hstate | hfield
  · exact (letter_plain r.state_letter).2 hstate.symm
  rcases mem_fieldsLine hfield with hspace | hsign | hdigit
  · exact absurd hspace (by decide)
  · exact absurd hsign (by decide)
  · exact absurd hdigit (by decide)

/-- The first `(` is the one before the name: the process id has none. -/
theorem strchr_text (l : StatLine) :
    strchr l.text '(' = some ('(' :: (l.comm ++ ')' :: l.afterName)) := by
  have hnumber : ∀ c ∈ renderInt l.pid ++ [' '], c ≠ '(' ∧ c ≠ nul := by
    intro c hc
    rcases mem_append.mp hc with hnumber | hblank
    · rcases mem_renderInt hnumber with rfl | hdigit
      · decide
      · constructor <;> (rintro rfl; exact absurd hdigit (by decide))
    · rw [mem_singleton.mp hblank]
      decide
  rw [l.text_eq, strchr_append _ (fun h => (hnumber _ h).1 rfl) fun h => (hnumber _ h).2 rfl,
    strchr, if_pos rfl]

/-- **The name is what stands between the parentheses**, whatever it is. -/
theorem parseProcStat_text {handle : LinuxHandle} (hopen : handle.Opened) (r : StatRecord) :
    parseProcStat handle r.line.text = some (r.held handle) := by
  have hfirst : strchr r.line.text '(' = some ('(' :: (r.comm ++ ')' :: r.line.afterName)) :=
    strchr_text r.line
  have hlast : strrchr (r.comm ++ ')' :: r.line.afterName) ')' = some (')' :: r.line.afterName) :=
    strrchr_append (by decide) (paren_notMem_afterName r) r.comm_string
  have hlen : (r.comm ++ ')' :: r.line.afterName).length - (')' :: r.line.afterName).length
      = r.comm.length := by
    rw [length_append, Nat.add_sub_cancel]
  simp only [parseProcStat, hfirst, tail_cons, hlast, hlen, if_neg (Nat.not_le.mpr r.comm_length),
    take_left, parseAfterName_text hopen]

/-! ## The round trip -/

/-- The handle holds nothing that `proc_stat_read` would use instead of the file. -/
def Fresh (pstat : LinuxProcStat) (pid : SigarPid) (timenow : Int) : Prop :=
  ¬ (pstat.pid = pid ∧ timenow - pstat.mtime < sigarLastProcExpire)

/-- **A fresh read gives the record back**: every field that is stored, modulo its width, and the
    two times in milliseconds, which are exact where the clock divides the second into whole
    milliseconds and the time is below `2^53` of them. -/
theorem procStatRead_text {handle : LinuxHandle} (hopen : handle.Opened) {pstat : LinuxProcStat}
    {pid : SigarPid} {timenow : Int} (hfresh : Fresh pstat pid timenow) (r : StatRecord)
    (hfits : r.line.text.length < bufsiz) :
    procStatRead handle pstat pid timenow (.content r.line.text)
        = ({ r.held handle with pid := pid, mtime := timenow }, sigarOk)
      ∧ ∀ d : Nat, handle.ticks.toInt = d → d ∣ 1000 →
          (r.utime.toNat * (1000 / d) < 2 ^ 53 →
            (r.held handle).utime.toNat = r.utime.toNat * (1000 / d))
          ∧ (r.stime.toNat * (1000 / d) < 2 ^ 53 →
            (r.held handle).stime.toNat = r.stime.toNat * (1000 / d)) := by
  constructor
  · have hread : sigarProcFile2str bufsiz (.content r.line.text) = (sigarOk, r.line.text) := by
      show (_, r.line.text.take (bufsiz - 1)) = _
      rw [take_of_length_le (by omega)]
      rfl
    rw [procStatRead, if_neg hfresh]
    simp only [hread, ne_eq, not_true_eq_false, if_false, parseProcStat_text hopen]
  · intro d hticks hdvd
    exact ⟨sigarTick2msec_exact hticks hdvd, sigarTick2msec_exact hticks hdvd⟩

/-- A process named `a) R 7 (b`. -/
def trickyRecord : StatRecord where
  pid := 42
  comm := "a) R 7 (b".toList
  state := 'S'
  ppid := ⟨1, by decide⟩
  pgrp := 42
  session := 42
  ttyNr := ⟨-1, by decide⟩
  tpgid := -1
  flags := 4194304
  minflt := ⟨11, by decide⟩
  cminflt := 0
  majflt := ⟨12, by decide⟩
  cmajflt := 0
  utime := 25
  stime := 3
  cutime := -5
  cstime := 0
  priority := ⟨-2, by decide⟩
  nice := ⟨-20, by decide⟩
  removed := 0
  itrealvalue := 0
  starttime := 700
  vsize := ⟨4096, by decide⟩
  rss := ⟨2, by decide⟩
  rlim := 18446744073709551615
  startcode := 0
  endcode := 0
  startstack := 0
  kstkesp := 0
  kstkeip := 0
  signal := 0
  blocked := 0
  sigignore := 0
  sigcache := 0
  wchan := 0
  nswap := 0
  cnswap := 0
  exitSignal := 17
  processor := ⟨3, by decide⟩
  more := [0, 0]
  comm_length := by decide
  comm_string := by decide
  state_letter := by decide

/-- A clock of 100 ticks and pages of 4096 bytes. -/
def usualHandle : LinuxHandle :=
  { ticks := 100, bootTime := 1000, pagesize := 12, lcpu := 1, coreRollup := false }

/-- A handle just opened: the last process is none, long ago. -/
def emptyStat : LinuxProcStat :=
  { name := [], state := nul, ppid := 0, tty := 0, minorFaults := 0, majorFaults := 0, utime := 0,
    stime := 0, priority := 0, nice := 0, startTime := 0, vsize := 0, rss := 0, processor := 0,
    pid := 0, mtime := 0 }

theorem procStatRead_text_example :
    procStatRead usualHandle emptyStat 42 10 (.content trickyRecord.line.text)
        = ({ trickyRecord.held usualHandle with pid := 42, mtime := 10 }, sigarOk)
      ∧ (trickyRecord.held usualHandle).utime.toNat = 250 := by
  have hopen : usualHandle.Opened := ⟨by decide, by decide⟩
  have hfresh : Fresh emptyStat 42 10 := by
    rintro ⟨hpid, -⟩
    exact absurd hpid (by decide)
  have hfits : trickyRecord.line.text.length < bufsiz := by decide +kernel
  obtain ⟨hread, htimes⟩ := procStatRead_text hopen hfresh trickyRecord hfits
  exact ⟨hread, (htimes 100 (by decide) (by decide)).1 (by decide)⟩

end Sigar.LastProc
