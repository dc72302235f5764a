/-
  The disk I/O rates of a process, `sigar_proc_disk_io_get` of `src/sigar.c`, with the Linux
  `sigar_proc_cumulative_disk_io_get`.

  1. **Program** — the cache keeps the last cumulative counters of every pid with the rates that
     were computed from them.  Within a second of the last ATTEMPT the rates are replayed;
     otherwise the time of the attempt is stored BEFORE the counters are read.
  2. **Specification** — `expected`: the rates between the last two successful readings.
  3. **One quotient** — `getIoDiff_eq_rate`.  `get_io_diff` divides and multiplies DOUBLES: 1001
     bytes in 1000 ms are 1.001, which no double is, and come out as 1000 a second.  The integer part
     is the exact one if the rate is no integer, or the quotient is one (`RateFits`).
  4. **Runs** — `sigarProcDiskIo_rates`.  In every run whose calls are all `Sound` each report is
     the expected one.  A failed reading, an entry that expired, and a counter that went down are
     what a sound call does not build on.
-/
import Sigar.Cache.Update
import Sigar.Lib.Rounding
import Sigar.Util

namespace Sigar.Proc

open Sigar.Cache CString List Rounding

/-! ## The function -/

/-- `sigar_proc_disk_io_t` and `sigar_proc_cumulative_disk_io_t`. -/
structure SigarProcDiskIo where
  bytesRead : UInt64
  bytesWritten : UInt64
  bytesTotal : UInt64
  deriving DecidableEq

/-- `sigar_cached_proc_disk_io_t`: cumulative counters, and the rates. -/
structure SigarCachedProcDiskIo extends SigarProcDiskIo where
  lastTime : UInt64
  bytesReadDiff : UInt64
  bytesWrittenDiff : UInt64
  bytesTotalDiff : UInt64
  deriving DecidableEq

/-- `SIGAR_ZERO`. -/
def SigarCachedProcDiskIo.zero : SigarCachedProcDiskIo := ⟨⟨0, 0, 0⟩, 0, 0, 0, 0⟩

/-- `copy_cached_disk_io_into_disk_io`. -/
def copyCachedDiskIoIntoDiskIo (cached : SigarCachedProcDiskIo) : SigarProcDiskIo :=
  ⟨cached.bytesReadDiff, cached.bytesWrittenDiff, cached.bytesTotalDiff⟩

/-- A `sigar_uint64_t` as a double. -/
def toDouble (n : UInt64) : ℚ := nearest 53 n.toNat

/-- `get_io_diff`; the difference is that of two `sigar_uint64_t`, the quotient and the product are
    doubles.  `conversion` is what the cast gives for a double that is no `sigar_uint64_t`, which C
    leaves open. -/
def getIoDiff (conversion : ℚ → UInt64) (currentValue prevValue timeDiff : UInt64) : UInt64 :=
  if currentValue = sigarFieldNotImpl then sigarFieldNotImpl
  else
    let ioDiff := scaled 53 (toDouble (currentValue - prevValue)) (toDouble timeDiff) 1000
    let intIoDiff := if ioDiff < 2 ^ 64 then UInt64.ofNat ⌊ioDiff⌋₊ else conversion ioDiff
    if 0 ≤ ioDiff then intIoDiff else 0

example : getIoDiff (fun _ => 0) 1001 0 1000 = 1000 := by decide +kernel

/-- `calculate_io_diff`. -/
def calculateIoDiff (conversion : ℚ → UInt64) (io : SigarProcDiskIo)
    (cached : SigarCachedProcDiskIo) (timeDiff : UInt64) (isFirstTime : Bool) :
    SigarCachedProcDiskIo where
  toSigarProcDiskIo := io
  lastTime := cached.lastTime
  bytesReadDiff :=
    if isFirstTime then 0 else getIoDiff conversion io.bytesRead cached.bytesRead timeDiff
  bytesWrittenDiff :=
    if isFirstTime then 0 else getIoDiff conversion io.bytesWritten cached.bytesWritten timeDiff
  bytesTotalDiff :=
    if isFirstTime then 0 else getIoDiff conversion io.bytesTotal cached.bytesTotal timeDiff

/-- What one call meets: its arguments, the readings of the clock, and what
    `sigar_proc_cumulative_disk_io_get` answers if it is asked. -/
structure DiskIoCall where
  pid : SigarPid
  timeNow : UInt64
  /-- The reading in `sigar_expired_cache_new`, for the first call. -/
  newTime : UInt64
  clock : Clock
  status : Status
  io : SigarProcDiskIo
  /-- The cast of a double that is no `sigar_uint64_t`. -/
  conversion : ℚ → UInt64

/-- `time_diff`, a `sigar_int64_t`. -/
def timeDiffOf (prev : SigarCachedProcDiskIo) (call : DiskIoCall) : Int64 :=
  (call.timeNow - prev.lastTime).toInt64

/-- The body after the cache lookup: what is in `*prev` in the end, the status, and what is written
    to the caller's structure. -/
def diskIoUpdate (prev : SigarCachedProcDiskIo) (call : DiskIoCall) :
    SigarCachedProcDiskIo × Status × Option SigarProcDiskIo :=
  let isFirstTime : Bool := prev.lastTime = 0
  let timeDiff := timeDiffOf prev call
  if timeDiff < 1000 then
    (if timeDiff < 0 then { prev with lastTime := call.timeNow } else prev,
      sigarOk, some (copyCachedDiskIoIntoDiskIo prev))
  else
    let prev := { prev with lastTime := call.timeNow }
    if call.status ≠ sigarOk then (prev, call.status, none)
    else
      let prev := calculateIoDiff call.conversion call.io prev timeDiff.toUInt64 isFirstTime
      (prev, sigarOk, some (copyCachedDiskIoIntoDiskIo prev))

/-- `sigar->proc_io`, which the first call creates. -/
def procIoTable (cache : Option (SigarCache SigarCachedProcDiskIo)) (call : DiskIoCall) :
    SigarCache SigarCachedProcDiskIo :=
  cache.getD (sigarExpiredCacheNew SigarCachedProcDiskIo 128 600000 1200000 call.newTime)

/-- `sigar_cache_get(sigar->proc_io, pid)`. -/
def procIoEntry (cache : Option (SigarCache SigarCachedProcDiskIo)) (call : DiskIoCall) :
    SigarCacheEntry SigarCachedProcDiskIo :=
  (sigarCacheGet (procIoTable cache call) (pidToUInt64 call.pid) call.clock).2

/-- `*prev` as a call finds it. -/
def procIoPrev (cache : Option (SigarCache SigarCachedProcDiskIo)) (call : DiskIoCall) :
    SigarCachedProcDiskIo :=
  (procIoEntry cache call).value.getD .zero

/-- `sigar_proc_disk_io_get`. -/
def sigarProcDiskIoGet (cache : Option (SigarCache SigarCachedProcDiskIo)) (call : DiskIoCall) :
    SigarCache SigarCachedProcDiskIo × Status × Option SigarProcDiskIo :=
  let result := diskIoUpdate (procIoPrev cache call) call
  (updateKey (procIoTable cache call) (pidToUInt64 call.pid) call.clock (some result.1), result.2)

/-! ## The counters of a Linux process -/

/-- `get_named_proc_token`. -/
def getNamedProcToken (buffer token : Text) : UInt64 :=
  match strstr buffer token with
  | none => sigarFieldNotImpl
  | some ptr => (strtoull (sigarSkipToken ptr)).value

/-- `sigar_proc_cumulative_disk_io_get`, from what /proc/<pid>/io gives. -/
def sigarProcCumulativeDiskIoGet (io : FileRead) : Status × SigarProcDiskIo :=
  let (status, buffer) := sigarProcFile2str bufsiz io
  if status ≠ sigarOk then (status, ⟨0, 0, 0⟩)
  else
    let bytesRead := getNamedProcToken buffer "\nread_bytes".toList
    let bytesWritten := getNamedProcToken buffer "\nwrite_bytes".toList
    (sigarOk, ⟨bytesRead, bytesWritten, bytesRead + bytesWritten⟩)

/-- A call at a time of a Linux host. -/
def linuxIoCall (pid : SigarPid) (now : UInt64) (io : FileRead) : DiskIoCall where
  pid := pid
  timeNow := now
  newTime := now
  clock := ⟨now, now⟩
  status := (sigarProcCumulativeDiskIoGet io).1
  io := (sigarProcCumulativeDiskIoGet io).2
  conversion _ := 0

/-! ## Runs -/

/-- A reading of the counters: when, through which cache entry, and what it gave (`none` if it
    failed). -/
structure Attempt where
  pid : SigarPid
  time : UInt64
  entry : Nat
  io : Option SigarProcDiskIo
  deriving DecidableEq

/-- A handle, with the readings it has attempted (newest first) and the time of its last call. -/
structure DiskIoRun where
  cache : Option (SigarCache SigarCachedProcDiskIo)
  attempts : List Attempt
  lastCall : Option UInt64

def DiskIoRun.start : DiskIoRun := ⟨none, [], none⟩

/-- The attempt of a call, if it makes one. -/
def attemptOf (run : DiskIoRun) (call : DiskIoCall) : Attempt where
  pid := call.pid
  time := call.timeNow
  entry := (procIoEntry run.cache call).addr
  io := if call.status = sigarOk then some call.io else none

/-- A call within a second of the last attempt makes none. -/
def Replays (run : DiskIoRun) (call : DiskIoCall) : Prop :=
  timeDiffOf (procIoPrev run.cache call) call < 1000

instance (run : DiskIoRun) (call : DiskIoCall) : Decidable (Replays run call) :=
  inferInstanceAs (Decidable (timeDiffOf (procIoPrev run.cache call) call < 1000))

def diskIoStep (run : DiskIoRun) (call : DiskIoCall) :
    DiskIoRun × (Status × Option SigarProcDiskIo) :=
  let result := sigarProcDiskIoGet run.cache call
  ({ cache := some result.1
     attempts := if Replays run call then run.attempts else attemptOf run call :: run.attempts
     lastCall := some call.timeNow }, result.2)

/-! ## Specification -/

/-- A successful reading. -/
structure Reading where
  time : UInt64
  entry : Nat
  io : SigarProcDiskIo
  deriving DecidableEq

/-- An attempt on a pid that succeeded. -/
def Attempt.reading? (pid : SigarPid) (attempt : Attempt) : Option Reading :=
  if attempt.pid = pid then attempt.io.map fun io => ⟨attempt.time, attempt.entry, io⟩ else none

/-- The successful readings of a pid, newest first. -/
def readings (attempts : List Attempt) (pid : SigarPid) : List Reading :=
  attempts.filterMap (Attempt.reading? pid)

/-- The last attempt on a pid. -/
def lastAttempt (attempts : List Attempt) (pid : SigarPid) : Option Attempt :=
  attempts.find? fun attempt => attempt.pid = pid

/-- The rate of one counter between two readings, per second. -/
def rate (now earlier tNow tEarlier : UInt64) : UInt64 :=
  if now = sigarFieldNotImpl then sigarFieldNotImpl
  else if now < earlier then 0
  else UInt64.ofNat (1000 * (now.toNat - earlier.toNat) / (tNow.toNat - tEarlier.toNat))

/-- The rates of a reading, by the readings before it. -/
def ratesOf (last : Reading) : List Reading → SigarProcDiskIo
  | [] => ⟨0, 0, 0⟩
  | earlier :: _ =>
    ⟨rate last.io.bytesRead earlier.io.bytesRead last.time earlier.time,
     rate last.io.bytesWritten earlier.io.bytesWritten last.time earlier.time,
     rate last.io.bytesTotal earlier.io.bytesTotal last.time earlier.time⟩

/-- What should be reported for a pid; `none` if no reading ever succeeded. -/
def expected (attempts : List Attempt) (pid : SigarPid) : Option SigarProcDiskIo :=
  match readings attempts pid with
  | [] => none
  | last :: before => some (ratesOf last before)

/-- A call that returns `SIGAR_OK` reports what it should. -/
def ReportRight (run : DiskIoRun) (call : DiskIoCall) : Prop :=
  (diskIoStep run call).2.1 = sigarOk →
    ∃ report, (diskIoStep run call).2.2 = some report ∧
      expected (diskIoStep run call).1.attempts call.pid = some report

/-- The rate of `d` bytes in `t` milliseconds survives the doubles: it is no integer, or so many
    bytes are in each of the milliseconds. -/
def RateFits (d t : Nat) : Prop :=
  4 * (1000 * d) < 2 ^ 53 ∧ t < 2 ^ 53 ∧ (t ∣ d ∨ ¬ t ∣ 1000 * d)

/-- A counter that can be compared with its value of `t` milliseconds before. -/
def Comparable (t : Nat) (now earlier : UInt64) : Prop :=
  now = sigarFieldNotImpl ∨ (earlier ≤ now ∧ RateFits (now.toNat - earlier.toNat) t)

/-- What the call can build on.  The clock is less than `2^63` ms after the cached time.  A replay
    follows a successful reading through the same entry.  A new reading is the first one of its
    pid, or the last attempt succeeded through the same entry, no counter went down, and the rates
    survive the doubles. -/
structure Sound (run : DiskIoRun) (call : DiskIoCall) : Prop where
  near : (call.timeNow - (procIoPrev run.cache call).lastTime).toNat < 9223372036854775808
  replay : Replays run call → ∃ last before,
    readings run.attempts call.pid = last :: before ∧ last.entry = (procIoEntry run.cache call).addr
  read : ¬ Replays run call → call.status = sigarOk →
    ((procIoEntry run.cache call).value = none ∧ readings run.attempts call.pid = []) ∨
    ∃ last io, lastAttempt run.attempts call.pid = some last ∧ last.io = some io ∧
      last.entry = (procIoEntry run.cache call).addr ∧
      Comparable (call.timeNow.toNat - last.time.toNat) call.io.bytesRead io.bytesRead ∧
      Comparable (call.timeNow.toNat - last.time.toNat) call.io.bytesWritten io.bytesWritten ∧
      Comparable (call.timeNow.toNat - last.time.toNat) call.io.bytesTotal io.bytesTotal

/-! ## One call on one record -/

section Update

variable {prev : SigarCachedProcDiskIo} {call : DiskIoCall}

/-- Within `2^63` ms the signed difference is the unsigned one. -/
theorem toInt_timeDiffOf (hnear : (call.timeNow - prev.lastTime).toNat < 9223372036854775808) :
    (timeDiffOf prev call).toInt = (call.timeNow - prev.lastTime).toNat := by
  have hhalf : 2 * (call.timeNow - prev.lastTime).toBitVec.toNat < 2 ^ 64 := by
    show 2 * (call.timeNow - prev.lastTime).toNat < 2 ^ 64
    omega
  exact BitVec.toInt_eq_toNat_of_lt hhalf

/-- A replay changes nothing. -/
theorem diskIoUpdate_replay
    (hnear : (call.timeNow - prev.lastTime).toNat < 9223372036854775808)
    (hfast : timeDiffOf prev call < 1000) :
    diskIoUpdate prev call = (prev, sigarOk, some (copyCachedDiskIoIntoDiskIo prev)) := by
  grind [Int64.lt_iff_toInt_lt, toInt_timeDiffOf, diskIoUpdate]

/-- A failure leaves its time in the record. -/
theorem diskIoUpdate_fail (hslow : ¬ timeDiffOf prev call < 1000) (hstatus : call.status ≠ sigarOk) :
    diskIoUpdate prev call = ({ prev with lastTime := call.timeNow }, call.status, none) := by
  unfold diskIoUpdate
  dsimp only
  rw [if_neg hslow, if_pos hstatus]

/-- What a success leaves in the record. -/
def afterReading (prev : SigarCachedProcDiskIo) (call : DiskIoCall) : SigarCachedProcDiskIo :=
  calculateIoDiff call.conversion call.io { prev with lastTime := call.timeNow }
    (call.timeNow - prev.lastTime) (prev.lastTime = 0)

theorem diskIoUpdate_ok (hslow : ¬ timeDiffOf prev call < 1000) (hstatus : call.status = sigarOk) :
    diskIoUpdate prev call
      = (afterReading prev call, sigarOk,
          some (copyCachedDiskIoIntoDiskIo (afterReading prev call))) := by
  have hdiff : (timeDiffOf prev call).toUInt64 = call.timeNow - prev.lastTime :=
    UInt64.toUInt64_toInt64 _
  unfold diskIoUpdate afterReading
  dsimp only
  rw [if_neg hslow, if_neg (not_not_intro hstatus), hdiff]

/-- **The quotient of the code is the rate**, if the counter did not go down and the rate survives
    the doubles. -/
theorem getIoDiff_eq_rate (conversion : ℚ → UInt64) {now earlier tNow tEarlier : UInt64}
    (hcomparable : Comparable (tNow.toNat - tEarlier.toNat) now earlier) (htime : tEarlier < tNow) :
    getIoDiff conversion now earlier (tNow - tEarlier) = rate now earlier tNow tEarlier := by
  unfold getIoDiff rate
  by_cases hnot : now = sigarFieldNotImpl
  · rw [if_pos hnot, if_pos hnot]
  · obtain ⟨hle, hsmall, hshort, hdvd⟩ := hcomparable.resolve_left hnot
    have hpos : 0 < tNow.toNat - tEarlier.toNat := Nat.sub_pos_of_lt (UInt64.lt_iff_toNat_lt.mp htime)
    have hfloor := floor_scaled hpos hsmall hdvd
    rw [if_neg hnot, if_neg hnot, if_neg (UInt64.not_lt.mpr hle)]
    dsimp only [toDouble]
    rw [UInt64.toNat_sub_of_le now earlier hle,
      UInt64.toNat_sub_of_le tNow tEarlier (UInt64.le_of_lt htime), nearest_natCast (by omega),
      nearest_natCast hshort]
    have hnonneg : 0 ≤ scaled 53 (now.toNat - earlier.toNat : ℕ) (tNow.toNat - tEarlier.toNat : ℕ)
        (1000 : ℕ) :=
      nearest_nonneg (mul_nonneg (nearest_nonneg (div_nonneg (Nat.cast_nonneg _) (Nat.cast_nonneg _)))
        (Nat.cast_nonneg _))
    have hlt := Nat.lt_floor_add_one (scaled 53 (now.toNat - earlier.toNat : ℕ)
      (tNow.toNat - tEarlier.toNat : ℕ) (1000 : ℕ))
    have hle64 : ((1000 * (now.toNat - earlier.toNat) / (tNow.toNat - tEarlier.toNat) : ℕ) : ℚ) + 1
        ≤ 2 ^ 64 := by
      have hdiv := Nat.div_le_self (1000 * (now.toNat - earlier.toNat)) (tNow.toNat - tEarlier.toNat)
      exact_mod_cast (by omega : _ + 1 ≤ 2 ^ 64)
    rw [hfloor] at hlt
    push_cast at hnonneg hlt hle64 ⊢
    rw [if_pos hnonneg, if_pos (lt_of_lt_of_le hlt hle64)]
    exact congrArg UInt64.ofNat hfloor

/-- A first reading has no rates. -/
theorem copy_afterReading_first (hfirst : prev.lastTime = 0) :
    copyCachedDiskIoIntoDiskIo (afterReading prev call) = ⟨0, 0, 0⟩ := by
  unfold afterReading calculateIoDiff copyCachedDiskIoIntoDiskIo
  simp only [hfirst, decide_true, if_true]

/-- A later one has those since the reading in the record. -/
theorem copy_afterReading {last earlier : Reading} {before : List Reading}
    (hlater : prev.lastTime ≠ 0) (hprev : prev.toSigarProcDiskIo = earlier.io)
    (htime : earlier.time = prev.lastTime) (hlast : last.time = call.timeNow)
    (hio : last.io = call.io) (hlt : earlier.time < last.time)
    (hread : Comparable (last.time.toNat - earlier.time.toNat) call.io.bytesRead earlier.io.bytesRead)
    (hwritten : Comparable (last.time.toNat - earlier.time.toNat) call.io.bytesWritten
      earlier.io.bytesWritten)
    (htotal : Comparable (last.time.toNat - earlier.time.toNat) call.io.bytesTotal
      earlier.io.bytesTotal) :
    copyCachedDiskIoIntoDiskIo (afterReading prev call) = ratesOf last (earlier :: before) := by
  rw [← hio] at hread hwritten htotal
  unfold afterReading calculateIoDiff copyCachedDiskIoIntoDiskIo ratesOf
  dsimp only
  rw [← getIoDiff_eq_rate call.conversion hread hlt, ← getIoDiff_eq_rate call.conversion hwritten hlt,
    ← getIoDiff_eq_rate call.conversion htotal hlt, hprev, ← htime, ← hlast, ← hio]
  rw [← htime] at hlater
  simp only [hlater, decide_false, Bool.false_eq_true, if_false]

end Update

/-! ## Attempts -/

section Attempts

variable {attempts : List Attempt} {attempt : Attempt} {pid : SigarPid}

theorem readings_cons_other (h : attempt.pid ≠ pid) :
    readings (attempt :: attempts) pid = readings attempts pid :=
  filterMap_cons_none (if_neg h)

theorem readings_cons_fail (h : attempt.io = none) :
    readings (attempt :: attempts) pid = readings attempts pid := by
  refine filterMap_cons_none ?_
  unfold Attempt.reading?
  rw [h]
  split
  · rfl
  · rfl

theorem readings_cons_ok {io : SigarProcDiskIo} (hpid : attempt.pid = pid)
    (hio : attempt.io = some io) :
    readings (attempt :: attempts) pid
      = ⟨attempt.time, attempt.entry, io⟩ :: readings attempts pid := by
  refine filterMap_cons_some ?_
  unfold Attempt.reading?
  rw [if_pos hpid, hio]
  rfl

theorem lastAttempt_cons_self (h : attempt.pid = pid) :
    lastAttempt (attempt :: attempts) pid = some attempt :=
  find?_cons_of_pos (decide_eq_true h)

theorem lastAttempt_cons_other (h : attempt.pid ≠ pid) :
    lastAttempt (attempt :: attempts) pid = lastAttempt attempts pid :=
  find?_cons_of_neg (by simpa using h)

/-- If the last attempt succeeded, it is the last reading. -/
theorem readings_of_lastAttempt {io : SigarProcDiskIo} :
    ∀ {attempts : List Attempt}, lastAttempt attempts pid = some attempt → attempt.io = some io →
      ∃ before, readings attempts pid = ⟨attempt.time, attempt.entry, io⟩ :: before := by
  intro attempts
  induction attempts with
  | nil => intro h _; cases h
  | cons a rest ih =>
    intro hlast hio
    by_cases hpid : a.pid = pid
    · rw [lastAttempt_cons_self hpid] at hlast
      obtain rfl := Option.some.inj hlast
      exact ⟨_, readings_cons_ok hpid hio⟩
    · rw [lastAttempt_cons_other hpid] at hlast
      rw [readings_cons_other hpid]
      exact ih hlast hio

theorem exists_attempt_of_reading {reading : Reading} (h : reading ∈ readings attempts pid) :
    ∃ attempt ∈ attempts, attempt.entry = reading.entry := by
  obtain ⟨attempt, hmem, hreading⟩ := mem_filterMap.mp h
  refine ⟨attempt, hmem, ?_⟩
  unfold Attempt.reading? at hreading
  by_cases hpid : attempt.pid = pid
  · rw [if_pos hpid] at hreading
    obtain ⟨io, _, heq⟩ := Option.map_eq_some_iff.mp hreading
    rw [← heq]
  · rw [if_neg hpid] at hreading
    cases hreading

end Attempts

/-! ## What the cache knows of the attempts -/

/-- A record has the time of the last attempt on its pid, which went through it; and the counters
    and rates of the last reading, if that went through it too. -/
structure RecordKept (attempts : List Attempt) (pid : SigarPid) (addr : Nat)
    (cached : SigarCachedProcDiskIo) : Prop where
  last : ∃ attempt, lastAttempt attempts pid = some attempt ∧ attempt.entry = addr ∧
    attempt.time = cached.lastTime
  rates : ∀ last before, readings attempts pid = last :: before → last.entry = addr →
    cached.toSigarProcDiskIo = last.io ∧ copyCachedDiskIoIntoDiskIo cached = ratesOf last before

/-- The same, by the key of an entry. -/
def KeptUnder (attempts : List Attempt) (id : UInt64) (addr : Nat)
    (cached : SigarCachedProcDiskIo) : Prop :=
  ∀ pid, id = pidToUInt64 pid → RecordKept attempts pid addr cached

/-- The invariant of a run. -/
structure DiskIoInv (run : DiskIoRun) : Prop where
  unused : run.cache = none → run.attempts = []
  records : ∀ table, run.cache = some table → Records (KeptUnder run.attempts) table
  older : ∀ table, run.cache = some table → ∀ attempt ∈ run.attempts, attempt.entry < table.mallocs
  times : ∀ attempt ∈ run.attempts, 1000 ≤ attempt.time ∧
    ∃ t, run.lastCall = some t ∧ attempt.time ≤ t

theorem DiskIoInv.start : DiskIoInv DiskIoRun.start where
  unused _ := rfl
  records _ h := by cases h
  older _ h := by cases h
  times _ h := absurd h not_mem_nil

/-- The clock does not go back, and starts at 1000 ms. -/
def ClockOn (run : DiskIoRun) (call : DiskIoCall) : Prop :=
  1000 ≤ call.timeNow ∧ ∀ t, run.lastCall = some t → t ≤ call.timeNow

section Step

variable {run : DiskIoRun} {call : DiskIoCall}

theorem DiskIoInv.table (hinv : DiskIoInv run) (call : DiskIoCall) :
    Records (KeptUnder run.attempts) (procIoTable run.cache call) ∧
    ∀ attempt ∈ run.attempts, attempt.entry < (procIoTable run.cache call).mallocs := by
  cases hcache : run.cache with
  | some table => exact ⟨hinv.records table hcache, hinv.older table hcache⟩
  | none =>
    refine ⟨Records.new _ (by decide) _ _ _, fun attempt hmem => ?_⟩
    rw [hinv.unused hcache] at hmem
    exact absurd hmem not_mem_nil

/-- The record that a call finds, or a new entry that no reading went through. -/
theorem DiskIoInv.entry_cases (hinv : DiskIoInv run) (call : DiskIoCall) :
    (∃ cached, (procIoEntry run.cache call).value = some cached ∧
      RecordKept run.attempts call.pid (procIoEntry run.cache call).addr cached) ∨
    ((procIoEntry run.cache call).value = none ∧
      ∀ reading ∈ readings run.attempts call.pid,
        reading.entry ≠ (procIoEntry run.cache call).addr) := by
  obtain ⟨hrecords, holder⟩ := hinv.table call
  rcases hrecords.get_cases (pidToUInt64 call.pid) call.clock with
    ⟨cached, hvalue, hkept⟩ | ⟨hnone, haddr⟩
  · exact Or.inl ⟨cached, hvalue, hkept call.pid rfl⟩
  · refine Or.inr ⟨hnone, fun reading hmem heq => ?_⟩
    obtain ⟨attempt, hattempt, hentry⟩ := exists_attempt_of_reading hmem
    have hlt := holder attempt hattempt
    have haddr' : (procIoEntry run.cache call).addr = (procIoTable run.cache call).mallocs := haddr
    omega

theorem procIoPrev_of_value {cached : SigarCachedProcDiskIo}
    (h : (procIoEntry run.cache call).value = some cached) :
    procIoPrev run.cache call = cached := by
  unfold procIoPrev
  rw [h]
  rfl

theorem diskIoStep_attempts (run : DiskIoRun) (call : DiskIoCall) :
    (diskIoStep run call).1.attempts
      = if Replays run call then run.attempts else attemptOf run call :: run.attempts := rfl

theorem mem_step_attempts {attempt : Attempt}
    (h : attempt ∈ (diskIoStep run call).1.attempts) :
    attempt = attemptOf run call ∨ attempt ∈ run.attempts := by
  rw [diskIoStep_attempts] at h
  split at h
  · exact Or.inr h
  · exact mem_cons.mp h

/-- The attempts on the other pids stay. -/
theorem RecordKept.of_other {pid : SigarPid} (hne : call.pid ≠ pid) {addr : Nat}
    {cached : SigarCachedProcDiskIo} (h : RecordKept run.attempts pid addr cached) :
    RecordKept (diskIoStep run call).1.attempts pid addr cached := by
  have hpid : (attemptOf run call).pid ≠ pid := hne
  rw [diskIoStep_attempts]
  split
  · exact h
  · refine ⟨?_, ?_⟩
    · rw [lastAttempt_cons_other hpid]
      exact h.last
    · rw [readings_cons_other hpid]
      exact h.rates

/-- **One call keeps the invariant**, if it keeps the record of its pid. -/
theorem DiskIoInv.next (hinv : DiskIoInv run) (hclock : ClockOn run call)
    (hkept : RecordKept (diskIoStep run call).1.attempts call.pid (procIoEntry run.cache call).addr
      (diskIoUpdate (procIoPrev run.cache call) call).1) :
    DiskIoInv (diskIoStep run call).1 := by
  obtain ⟨hrecords, holder⟩ := hinv.table call
  have hnew : KeptUnder (diskIoStep run call).1.attempts (pidToUInt64 call.pid)
      (procIoEntry run.cache call).addr (diskIoUpdate (procIoPrev run.cache call) call).1 := by
    intro pid hpid
    rw [← pidToUInt64_injective hpid]
    exact hkept
  have hother : ∀ id addr old, id ≠ pidToUInt64 call.pid → KeptUnder run.attempts id addr old →
      KeptUnder (diskIoStep run call).1.attempts id addr old := by
    intro id addr old hne hold pid hpid
    refine (hold pid hpid).of_other fun heq => hne ?_
    rw [hpid, heq]
  obtain ⟨hrecords', hmallocs, haddr⟩ :=
    hrecords.update (pidToUInt64 call.pid) call.clock hnew hother
  refine ⟨fun h => (by cases h), fun table htable => ?_, fun table htable attempt hmem => ?_,
    fun attempt hmem => ?_⟩
  · rw [← Option.some.inj htable]
    exact hrecords'
  · rw [← Option.some.inj htable]
    rcases mem_step_attempts hmem with rfl | hold
    · exact haddr
    · exact Nat.lt_of_lt_of_le (holder attempt hold) hmallocs
  · rcases mem_step_attempts hmem with rfl | hold
    · exact ⟨hclock.1, call.timeNow, rfl, UInt64.le_refl _⟩
    · obtain ⟨hlarge, t, ht, hle⟩ := hinv.times attempt hold
      exact ⟨hlarge, call.timeNow, rfl, UInt64.le_trans hle (hclock.2 t ht)⟩

theorem diskIoStep_answer (run : DiskIoRun) (call : DiskIoCall) :
    (diskIoStep run call).2 = (diskIoUpdate (procIoPrev run.cache call) call).2 := rfl

/-! ## The three kinds of calls -/

section Kinds

variable (hinv : DiskIoInv run) (hclock : ClockOn run call)

include hinv hclock

theorem step_replay (hsound : Sound run call) (hreplay : Replays run call) :
    DiskIoInv (diskIoStep run call).1 ∧ ReportRight run call := by
  have hupdate := diskIoUpdate_replay hsound.near hreplay
  have hattempts : (diskIoStep run call).1.attempts = run.attempts := if_pos hreplay
  obtain ⟨last, before, hreadings, hentry⟩ := hsound.replay hreplay
  rcases hinv.entry_cases call with ⟨cached, hvalue, hkept⟩ | ⟨_, hnew⟩
  · have hprev := procIoPrev_of_value hvalue
    refine ⟨hinv.next hclock ?_, fun _ => ⟨copyCachedDiskIoIntoDiskIo cached, ?_, ?_⟩⟩
    · rw [hattempts, hupdate, hprev]
      exact hkept
    · rw [diskIoStep_answer, hupdate, hprev]
    · unfold expected
      rw [hattempts, hreadings, (hkept.rates last before hreadings hentry).2]
  · grind

theorem step_fail (hslow : ¬ Replays run call) (hstatus : call.status ≠ sigarOk) :
    DiskIoInv (diskIoStep run call).1 ∧ ReportRight run call := by
  have hupdate := diskIoUpdate_fail hslow hstatus
  have hattempts : (diskIoStep run call).1.attempts = attemptOf run call :: run.attempts :=
    if_neg hslow
  have hio : (attemptOf run call).io = none := if_neg hstatus
  have hreport : ReportRight run call := by
    intro hok
    rw [diskIoStep_answer, hupdate] at hok
    exact absurd hok hstatus
  refine ⟨hinv.next hclock ?_, hreport⟩
  rw [hattempts, hupdate]
  refine ⟨⟨_, lastAttempt_cons_self rfl, rfl, rfl⟩, ?_⟩
  rw [readings_cons_fail hio]
  intro last before hreadings hentry
  rcases hinv.entry_cases call with ⟨cached, hvalue, hkept⟩ | ⟨_, hnew⟩
  · have hprev := procIoPrev_of_value hvalue
    rw [hprev]
    exact hkept.rates last before hreadings hentry
  · grind

/-- A success, from what it makes of the record. -/
theorem step_ok_of (hslow : ¬ Replays run call) (hstatus : call.status = sigarOk)
    (hrates : copyCachedDiskIoIntoDiskIo (afterReading (procIoPrev run.cache call) call)
      = ratesOf ⟨call.timeNow, (procIoEntry run.cache call).addr, call.io⟩
          (readings run.attempts call.pid)) :
    DiskIoInv (diskIoStep run call).1 ∧ ReportRight run call := by
  have hupdate := diskIoUpdate_ok hslow hstatus
  have hattempts : (diskIoStep run call).1.attempts = attemptOf run call :: run.attempts :=
    if_neg hslow
  have hio : (attemptOf run call).io = some call.io := if_pos hstatus
  have hreadings : readings (attemptOf run call :: run.attempts) call.pid
      = ⟨call.timeNow, (procIoEntry run.cache call).addr, call.io⟩
          :: readings run.attempts call.pid := readings_cons_ok rfl hio
  refine ⟨hinv.next hclock ?_, fun _ =>
    ⟨copyCachedDiskIoIntoDiskIo (afterReading (procIoPrev run.cache call) call), ?_, ?_⟩⟩
  · rw [hattempts, hupdate]
    refine ⟨⟨_, lastAttempt_cons_self rfl, rfl, rfl⟩, ?_⟩
    rw [hreadings]
    intro last before heq _
    obtain ⟨rfl, rfl⟩ := cons.inj heq
    exact ⟨rfl, hrates⟩
  · rw [diskIoStep_answer, hupdate]
  · unfold expected
    rw [hattempts, hreadings, hrates]

theorem step_ok (hsound : Sound run call) (hslow : ¬ Replays run call)
    (hstatus : call.status = sigarOk) :
    DiskIoInv (diskIoStep run call).1 ∧ ReportRight run call := by
  refine step_ok_of hinv hclock hslow hstatus ?_
  rcases hsound.read hslow hstatus with ⟨hnone, hempty⟩ | ⟨last, io, hlast, hio, hentry, hbelow⟩
  · -- the first reading of the pid
    have hfirst : (procIoPrev run.cache call).lastTime = 0 := by
      unfold procIoPrev
      rw [hnone]
      rfl
    rw [hempty]
    exact copy_afterReading_first hfirst
  · obtain ⟨before, hreadings⟩ := readings_of_lastAttempt hlast hio
    have hmem : last ∈ run.attempts := mem_of_find?_eq_some hlast
    obtain ⟨hlarge, t, ht, hle⟩ := hinv.times last hmem
    rcases hinv.entry_cases call with ⟨cached, hvalue, hkept⟩ | ⟨_, hnew⟩
    · have hprev := procIoPrev_of_value hvalue
      obtain ⟨attempt, hattempt, _, htime⟩ := hkept.last
      obtain rfl := Option.some.inj (hlast.symm.trans hattempt)
      have hlater : cached.lastTime ≠ 0 := by grind
      rw [hprev, hreadings]
      -- at least a second has passed since the last attempt
      have hlt : last.time < call.timeNow := by
        have hdiff := toInt_timeDiffOf hsound.near
        rw [Replays, Int64.lt_iff_toInt_lt, hdiff, hprev, ← htime] at hslow
        have hle' := UInt64.le_trans hle (hclock.2 t ht)
        rw [UInt64.toNat_sub_of_le _ _ hle'] at hslow
        have hthousand : (1000 : Int64).toInt = 1000 := rfl
        rw [UInt64.lt_iff_toNat_lt]
        omega
      exact copy_afterReading hlater (hkept.rates _ before hreadings hentry).1 htime rfl rfl hlt
        hbelow.1 hbelow.2.1 hbelow.2.2
    · grind [mem_cons_self]

/-- **One sound call.** -/
theorem DiskIoInv.step (hsound : Sound run call) :
    DiskIoInv (diskIoStep run call).1 ∧ ReportRight run call := by
  grind [step_replay, step_ok, step_fail]

end Kinds

end Step

/-! ## Whole runs -/

/-- **Every report is the expected one**, in every run with nondecreasing clock readings of at
    least 1000 ms whose calls are all sound. -/
theorem sigarProcDiskIo_rates (calls : List DiskIoCall)
    (hlarge : ∀ call ∈ calls, 1000 ≤ call.timeNow)
    (hclock : calls.Pairwise fun a b => a.timeNow ≤ b.timeNow)
    (hsound : Runs.Along diskIoStep Sound .start calls) :
    Runs.Along diskIoStep ReportRight .start calls := by
  have hforward : Runs.Along diskIoStep
      (fun run call => ∀ t, run.lastCall = some t → t ≤ call.timeNow) .start calls :=
    Runs.along_of_pairwise DiskIoRun.lastCall DiskIoCall.timeNow (· ≤ ·) (fun _ _ => rfl)
      (fun t ht => (by cases ht)) hclock
  have hon : Runs.Along diskIoStep ClockOn .start calls :=
    (Runs.along_of_forall hlarge).and hforward
  refine Runs.along_of_invariant ?_ calls DiskIoRun.start DiskIoInv.start (hon.and hsound)
  intro run call hinv hstep
  exact hinv.step hstep.1 hstep.2

/-- The text of /proc/<pid>/io. -/
def ioText (read written : String) : FileRead :=
  .content ("rchar: 0\nread_bytes: " ++ read ++ "\nwrite_bytes: " ++ written).toList

instance (d t : Nat) : Decidable (RateFits d t) := inferInstanceAs (Decidable (_ ∧ _ ∧ (_ ∨ ¬ _)))

instance (t : Nat) (now earlier : UInt64) : Decidable (Comparable t now earlier) :=
  inferInstanceAs (Decidable (_ ∨ (_ ∧ _)))

/-- A first reading, a replay, and two more readings: a rate that is no integer, and one that is. -/
theorem sigarProcDiskIo_rates_example :
    Runs.Along diskIoStep ReportRight .start
      [linuxIoCall 7 1000 (ioText "10" "0"), linuxIoCall 7 1500 .noFile,
        linuxIoCall 7 3003 (ioText "30" "4"), linuxIoCall 7 5003 (ioText "6030" "4")] := by
  refine sigarProcDiskIo_rates _ (by decide +kernel) (by decide +kernel) ⟨?_, ?_, ?_, ?_, trivial⟩
  · exact ⟨by decide +kernel, fun h => absurd h (by decide +kernel),
      fun _ _ => Or.inl ⟨by decide +kernel, by decide +kernel⟩⟩
  · exact ⟨by decide +kernel,
      fun _ => ⟨⟨1000, 0, ⟨10, 0, 10⟩⟩, [], by decide +kernel, by decide +kernel⟩,
      fun h => absurd (by decide +kernel) h⟩
  · exact ⟨by decide +kernel, fun h => absurd h (by decide +kernel),
      fun _ _ => Or.inr ⟨⟨7, 1000, 0, some ⟨10, 0, 10⟩⟩, ⟨10, 0, 10⟩, by decide +kernel, rfl,
        by decide +kernel, by decide +kernel, by decide +kernel, by decide +kernel⟩⟩
  · exact ⟨by decide +kernel, fun h => absurd h (by decide +kernel),
      fun _ _ => Or.inr ⟨⟨7, 3003, 0, some ⟨30, 4, 34⟩⟩, ⟨30, 4, 34⟩, by decide +kernel, rfl,
        by decide +kernel, by decide +kernel, by decide +kernel, by decide +kernel⟩⟩

/-- The answers of a run on process 7, and what should be reported after it. -/
def answers (calls : List (UInt64 × FileRead)) :
    List (Status × Option SigarProcDiskIo) × Option SigarProcDiskIo :=
  let result := Runs.exec diskIoStep .start (calls.map fun call => linuxIoCall 7 call.1 call.2)
  (result.2, expected result.1.attempts 7)

/-- **Four runs that go wrong.**  `SIGAR_OK` without any reading; a failed reading whose time is
    taken for the one of the last success, so that 1000 bytes in two seconds are 1000 a second;
    a counter that went down; and 1001 bytes in a second. -/
theorem diskIo_wrong :
    answers [(1000, .noFile), (1500, .noFile)] = ([(esrch, none), (0, some ⟨0, 0, 0⟩)], none) ∧
    answers [(1000, ioText "1" "0"), (2000, .noFile), (3000, ioText "1001" "0")]
      = ([(0, some ⟨0, 0, 0⟩), (esrch, none), (0, some ⟨1000, 0, 1000⟩)],
          some ⟨500, 0, 500⟩) ∧
    answers [(1000, ioText "5000" "0"), (3500, ioText "0" "0")]
      = ([(0, some ⟨0, 0, 0⟩),
          (0, some ⟨7378697629483819008, 0, 7378697629483819008⟩)], some ⟨0, 0, 0⟩) ∧
    answers [(1000, ioText "0" "0"), (2000, ioText "1001" "0")]
      = ([(0, some ⟨0, 0, 0⟩), (0, some ⟨1000, 0, 1000⟩)], some ⟨1001, 0, 1001⟩) := by
  decide +kernel

end Sigar.Proc
