/-
  Two caches in a row: `sigar_proc_cpu_get` on Linux takes its totals from `proc_stat_read`, which
  serves a parsed /proc/<pid>/stat for up to two seconds of a clock that counts whole seconds.

  1. **Program** — `linuxCpuStep`: one call of `sigar_proc_cpu_get` at a millisecond, with the
     `sigar_proc_time_get` of Linux under it.
  2. **The process** — `ShownProcess`: what the file shows at every millisecond.  Its total grows
     by at most the time that passes.
  3. **Runs** — `sigarProcCpu_percent_le_one`.  The cached sample is stamped with the time of the
     CALL, but its total may be OLDER: a call that reads the file anew right after one that was
     served divides the growth of up to two seconds by the time between the two calls.  In every
     run without such a call the percentage is at most 1.
-/
import Sigar.Proc.Cpu
import Mathlib.Algebra.Order.Field.Basic
import Mathlib.Algebra.Order.Ring.Rat

namespace Sigar.Proc

open Sigar.Cache Sigar.LastProc CString

/-! ## The process -/

/-- What a text of /proc/<pid>/stat is parsed to. -/
def parsedStat (handle : LinuxHandle) (text : Text) : Option ProcStat :=
  parseProcStat handle (text.take (bufsiz - 1))

/-- The total that a text shows, in milliseconds. -/
def shownTotal (handle : LinuxHandle) (text : Text) : UInt64 :=
  match parsedStat handle text with
  | none => 0
  | some pstat => (fillTime pstat).total

/-- A process whose /proc/<pid>/stat can always be read; its total grows by at most `t2 - t1`
    between `t1` and `t2`. -/
structure ShownProcess (handle : LinuxHandle) where
  pid : SigarPid
  stat : UInt64 → Text
  pid_ne : pid ≠ -1
  readable : ∀ t, (parsedStat handle (stat t)).isSome
  grows : ∀ t1 t2, t1 ≤ t2 → (shownTotal handle (stat t2)).toNat
    ≤ (shownTotal handle (stat t1)).toNat + (t2.toNat - t1.toNat)

/-! ## One call -/

/-- A call: when, and what the caller's structure holds. -/
structure TimedCall where
  time : UInt64
  proccpu : SigarProcCpu

/-- `time(NULL)`. -/
def secondsOf (time : UInt64) : Int := time.toNat / 1000

/-- A handle, with the time at which `last_proc_stat` was last read from the file and the time of
    the last call. -/
structure TwoCaches where
  procCpu : Option (SigarCache SigarProcCpu)
  lastProcStat : LinuxProcStat
  readAt : Option UInt64
  lastCall : Option UInt64

section Program

variable {handle : LinuxHandle} (process : ShownProcess handle) (run : TwoCaches)
  (call : TimedCall)

/-- `sigar_proc_time_get`, if the call asks for it. -/
def timeOf : LinuxProcStat × Status × SigarProcTime :=
  sigarProcTimeGet handle run.lastProcStat process.pid (secondsOf call.time)
    (.content (process.stat call.time))
    ⟨call.proccpu.startTime, call.proccpu.user, call.proccpu.sys, call.proccpu.total⟩

/-- The call as `sigar_proc_cpu_get` sees it. -/
def cpuCallOf : CpuCall where
  pid := process.pid
  timeNow := call.time
  newTime := call.time
  clock := ⟨call.time, call.time⟩
  timeStatus := (timeOf process run call).2.1
  time := (timeOf process run call).2.2
  proccpu := call.proccpu

theorem cpuCallOf_timeNow : (cpuCallOf process run call).timeNow = call.time := rfl

/-- The entry of the process. -/
def cpuEntryOf : SigarCacheEntry SigarProcCpu :=
  procCpuEntry run.procCpu (cpuCallOf process run call)

/-- The cached sample. -/
def cpuPrevOf : SigarProcCpu := (cpuEntryOf process run call).value.getD .zero

/-- The call asks for the times: `time_diff` is not zero. -/
def Asks : Prop := call.time ≠ (cpuPrevOf process run call).lastTime

instance : Decidable (Asks process run call) := inferInstanceAs (Decidable (_ ≠ _))

/-- `proc_stat_read` would serve the last result. -/
def Served : Prop :=
  run.lastProcStat.pid = process.pid ∧
    secondsOf call.time - run.lastProcStat.mtime < sigarLastProcExpire

instance : Decidable (Served process run call) := inferInstanceAs (Decidable (_ ∧ _))

/-- One call. -/
def linuxCpuStep : TwoCaches × (Status × SigarProcCpu) :=
  let result := sigarProcCpuGet run.procCpu (cpuCallOf process run call)
  ({ procCpu := some result.1
     lastProcStat :=
       if Asks process run call then (timeOf process run call).1 else run.lastProcStat
     readAt :=
       if Asks process run call ∧ ¬ Served process run call then some call.time else run.readAt
     lastCall := some call.time }, result.2)

/-- The percentage that is reported is at most 1. -/
def AtMostOne : Prop := (linuxCpuStep process run call).2.2.percent ≤ 1

/-- A call in the millisecond of the last one finds a percentage of at most 1 in the cached sample.
    A call that reads the file anew finds a sample that was read in its own millisecond, or one
    without a total. -/
def SampledOnTime : Prop :=
  ∀ cached, (cpuEntryOf process run call).value = some cached →
    (call.time = cached.lastTime → cached.percent ≤ 1) ∧
    (call.time ≠ cached.lastTime → ¬ Served process run call →
      cached.total = 0 ∨ run.readAt = run.lastCall)

/-- The clock does not go back. -/
def ClockKept : Prop := ∀ t, run.lastCall = some t → t ≤ call.time

end Program

/-- A new handle: `last_proc_stat.pid` is -1. -/
def TwoCaches.start (lastProcStat : LinuxProcStat) : TwoCaches :=
  ⟨none, { lastProcStat with pid := -1 }, none, none⟩

/-! ## The times of a process -/

section Times

variable {handle : LinuxHandle} {process : ShownProcess handle} {run : TwoCaches}
  {call : TimedCall}

theorem timeOf_served (h : Served process run call) :
    timeOf process run call
      = (run.lastProcStat, sigarOk, fillTime run.lastProcStat.toProcStat) := by
  have hread : procStatRead handle run.lastProcStat process.pid (secondsOf call.time)
      (.content (process.stat call.time)) = (run.lastProcStat, sigarOk) := if_pos h
  unfold timeOf sigarProcTimeGet
  rw [hread]
  exact if_neg (not_not_intro rfl)

/-- A read gives what the file shows at that time. -/
theorem timeOf_read (h : ¬ Served process run call) :
    ∃ parsed, (timeOf process run call).1
        = { parsed with pid := process.pid, mtime := secondsOf call.time } ∧
      (timeOf process run call).2 = (sigarOk, fillTime parsed) ∧
      (fillTime parsed).total = shownTotal handle (process.stat call.time) := by
  obtain ⟨parsed, hparsed⟩ := Option.isSome_iff_exists.mp (process.readable call.time)
  have hread : procStatRead handle run.lastProcStat process.pid (secondsOf call.time)
      (.content (process.stat call.time))
        = ({ parsed with pid := process.pid, mtime := secondsOf call.time }, sigarOk) := by
    have hmiss : ¬ (run.lastProcStat.pid = process.pid ∧
        secondsOf call.time - run.lastProcStat.mtime < sigarLastProcExpire) := h
    have hfile : sigarProcFile2str bufsiz (.content (process.stat call.time))
        = (sigarOk, (process.stat call.time).take (bufsiz - 1)) := rfl
    unfold parsedStat at hparsed
    unfold procStatRead
    rw [if_neg hmiss, hfile]
    dsimp only
    rw [if_neg (not_not_intro rfl), hparsed]
  have htime : timeOf process run call
      = ({ parsed with pid := process.pid, mtime := secondsOf call.time }, sigarOk,
          fillTime parsed) := by simp [hread, timeOf, sigarProcTimeGet]
  refine ⟨parsed, ?_, ?_, ?_⟩
  · rw [htime]
  · rw [htime]
  · unfold shownTotal
    rw [hparsed]

end Times

/-- A growth of at most the time that passed is a percentage of at most 1. -/
theorem cpuPercent_le_one {otime total timeDiff : UInt64}
    (h : total.toNat ≤ otime.toNat + timeDiff.toNat) : cpuPercent otime total timeDiff ≤ 1 := by
  by_cases hzero : otime = 0 ∨ total < otime
  · rw [cpuPercent_zero _ hzero]
    exact zero_le_one
  · have hle : otime ≤ total := UInt64.not_lt.mp (not_or.mp hzero).2
    have hdiff : (total - otime).toNat ≤ timeDiff.toNat := by
      rw [UInt64.toNat_sub_of_le total otime hle]
      omega
    rw [cpuPercent_quotient hzero]
    exact div_le_one_of_le₀ (Nat.cast_le.mpr hdiff) (Nat.cast_nonneg _)

/-! ## What the caches know -/

section Invariant

variable {handle : LinuxHandle} (process : ShownProcess handle)

/-- The total that the file showed at a time. -/
def totalAt (t : UInt64) : UInt64 := shownTotal handle (process.stat t)

/-- A cached sample has the time of the last call, and the total of the last read of the file or
    none. -/
structure SampleOf (readAt lastCall : Option UInt64) (cached : SigarProcCpu) : Prop where
  time : lastCall = some cached.lastTime
  total : cached.total = 0 ∨ ∃ r, readAt = some r ∧ cached.total = totalAt process r ∧
    r ≤ cached.lastTime

/-- The same, by the key of an entry. -/
def SampleUnder (readAt lastCall : Option UInt64) (id : UInt64) (_addr : Nat)
    (cached : SigarProcCpu) : Prop :=
  id = pidToUInt64 process.pid → SampleOf process readAt lastCall cached

/-- The invariant of a run. -/
structure CachesInv (run : TwoCaches) : Prop where
  samples : ∀ table, run.procCpu = some table →
    Records (SampleUnder process run.readAt run.lastCall) table
  slot : run.lastProcStat.pid = process.pid →
    ∃ r t, run.readAt = some r ∧ (fillTime run.lastProcStat.toProcStat).total = totalAt process r ∧
      run.lastCall = some t ∧ r ≤ t

variable {process}

theorem CachesInv.start (lastProcStat : LinuxProcStat) : CachesInv process (.start lastProcStat) where
  samples _ h := by cases h
  slot h := absurd h.symm process.pid_ne

variable {run : TwoCaches} {call : TimedCall}

theorem CachesInv.records (hinv : CachesInv process run) (call : TimedCall) :
    Records (SampleUnder process run.readAt run.lastCall)
      (procCpuTable run.procCpu (cpuCallOf process run call)) := by
  cases hcache : run.procCpu with
  | none => exact Records.new _ (by decide) _ _ _
  | some table => exact hinv.samples table hcache

theorem CachesInv.entry_cases (hinv : CachesInv process run) (call : TimedCall) :
    (∃ cached, (cpuEntryOf process run call).value = some cached ∧
      SampleOf process run.readAt run.lastCall cached) ∨
    (cpuEntryOf process run call).value = none := by
  rcases (hinv.records call).get_cases (pidToUInt64 process.pid) ⟨call.time, call.time⟩ with
    ⟨cached, hvalue, hsample⟩ | ⟨hnone, _⟩
  · exact Or.inl ⟨cached, hvalue, hsample rfl⟩
  · exact Or.inr hnone

/-- The state after a call, from what the call leaves in the sample and in `last_proc_stat`. -/
theorem CachesInv.next (hinv : CachesInv process run)
    (hsample : SampleOf process (linuxCpuStep process run call).1.readAt (some call.time)
      (cpuUpdate (cpuPrevOf process run call) (cpuCallOf process run call)).1)
    (hslot : (linuxCpuStep process run call).1.lastProcStat.pid = process.pid →
      ∃ r, (linuxCpuStep process run call).1.readAt = some r ∧
        (fillTime (linuxCpuStep process run call).1.lastProcStat.toProcStat).total
          = totalAt process r ∧ r ≤ call.time) :
    CachesInv process (linuxCpuStep process run call).1 := by
  refine ⟨fun table htable => ?_, fun hpid => ?_⟩
  · rw [← Option.some.inj htable]
    -- an entry of another pid says nothing
    exact ((hinv.records call).update (pidToUInt64 process.pid) ⟨call.time, call.time⟩ (fun _ => hsample)
      fun id addr old hne _ hid => absurd hid hne).1
  · obtain ⟨r, hread, htotal, hle⟩ := hslot hpid
    exact ⟨r, call.time, hread, htotal, rfl, hle⟩

theorem linuxCpuStep_answer (process : ShownProcess handle) (run : TwoCaches) (call : TimedCall) :
    (linuxCpuStep process run call).2
      = (cpuUpdate (cpuPrevOf process run call) (cpuCallOf process run call)).2 := rfl

theorem cpuPrevOf_of_value {cached : SigarProcCpu}
    (h : (cpuEntryOf process run call).value = some cached) :
    cpuPrevOf process run call = cached := by
  unfold cpuPrevOf
  rw [h]
  rfl

theorem cpuPrevOf_of_none (h : (cpuEntryOf process run call).value = none) :
    cpuPrevOf process run call = .zero := by
  unfold cpuPrevOf
  rw [h]
  rfl

/-- The cached sample, or a blank one. -/
theorem CachesInv.prev_total (hinv : CachesInv process run) (call : TimedCall) :
    (cpuPrevOf process run call).total = 0 ∨
    ∃ r, run.readAt = some r ∧ (cpuPrevOf process run call).total = totalAt process r ∧
      r ≤ (cpuPrevOf process run call).lastTime ∧
      run.lastCall = some (cpuPrevOf process run call).lastTime ∧
      (cpuEntryOf process run call).value = some (cpuPrevOf process run call) := by
  rcases hinv.entry_cases call with ⟨cached, hvalue, hsample⟩ | hnone
  · rw [cpuPrevOf_of_value hvalue]
    rcases hsample.total with hzero | ⟨r, hread, htotal, hle⟩
    · exact Or.inl hzero
    · exact Or.inr ⟨r, hread, htotal, hle, hsample.time, hvalue⟩
  · rw [cpuPrevOf_of_none hnone]
    exact Or.inl rfl

/-- A call that gets its times. -/
theorem linuxCpuStep_times (hinv : CachesInv process run) (hasks : Asks process run call)
    {time : SigarProcTime} (htime : (timeOf process run call).2 = (sigarOk, time)) {r : UInt64}
    (hread : (linuxCpuStep process run call).1.readAt = some r)
    (htotal : time.total = totalAt process r) (hle : r ≤ call.time)
    (hslot : (fillTime (linuxCpuStep process run call).1.lastProcStat.toProcStat).total
      = totalAt process r)
    (hgrowth : (totalAt process r).toNat ≤ (cpuPrevOf process run call).total.toNat
      + (call.time - (cpuPrevOf process run call).lastTime).toNat ∨
      (cpuPrevOf process run call).total = 0) :
    CachesInv process (linuxCpuStep process run call).1 ∧ AtMostOne process run call := by
  have hstatus : (cpuCallOf process run call).timeStatus = sigarOk := congrArg Prod.fst htime
  have hgot : (cpuCallOf process run call).time = time := congrArg Prod.snd htime
  have hupdate := @cpuUpdate_ok (cpuPrevOf process run call) (cpuCallOf process run call) hasks hstatus
  rw [hgot] at hupdate
  refine ⟨hinv.next ?_ fun _ => ⟨r, hread, hslot, hle⟩, ?_⟩
  · rw [hupdate, hread]
    exact ⟨rfl, Or.inr ⟨r, rfl, htotal, hle⟩⟩
  · grind [linuxCpuStep_answer, cpuCallOf_timeNow, cpuPercent_zero, AtMostOne, cpuPercent_le_one,
      zero_le_one]

section Kinds

variable (hinv : CachesInv process run) (hclock : ClockKept run call)

include hinv hclock

/-- `last_proc_stat` is not older than the call. -/
theorem slot_le (hpid : run.lastProcStat.pid = process.pid) :
    ∃ r, run.readAt = some r ∧
      (fillTime run.lastProcStat.toProcStat).total = totalAt process r ∧ r ≤ call.time := by
  obtain ⟨r, t, hread, htotal, hlast, hle⟩ := hinv.slot hpid
  exact ⟨r, hread, htotal, UInt64.le_trans hle (hclock t hlast)⟩

/-- A second call in the same millisecond. -/
theorem linuxCpuStep_same (hguard : SampledOnTime process run call)
    (hsame : ¬ Asks process run call) :
    CachesInv process (linuxCpuStep process run call).1 ∧ AtMostOne process run call := by
  have htime : call.time = (cpuPrevOf process run call).lastTime := not_not.mp hsame
  have hupdate : cpuUpdate (cpuPrevOf process run call) (cpuCallOf process run call)
      = (cpuPrevOf process run call, sigarOk, cpuPrevOf process run call) := cpuUpdate_same htime
  have hstat : (linuxCpuStep process run call).1.lastProcStat = run.lastProcStat := if_neg hsame
  have hread : (linuxCpuStep process run call).1.readAt = run.readAt := if_neg fun h => hsame h.1
  refine ⟨hinv.next ?_ ?_, ?_⟩
  · rw [hupdate, hread]
    refine ⟨congrArg some htime, ?_⟩
    rcases hinv.prev_total call with hzero | ⟨r, hr, htotal, hle, _⟩
    · exact Or.inl hzero
    · exact Or.inr ⟨r, hr, htotal, hle⟩
  · rw [hstat, hread]
    exact slot_le hinv hclock
  · unfold AtMostOne
    rw [linuxCpuStep_answer, hupdate]
    rcases hinv.entry_cases call with ⟨cached, hvalue, _⟩ | hnone
    · rw [cpuPrevOf_of_value hvalue] at htime ⊢
      exact (hguard cached hvalue).1 htime
    · rw [cpuPrevOf_of_none hnone]
      exact zero_le_one

/-- A call that `last_proc_stat` serves: the total has not changed. -/
theorem linuxCpuStep_served (hasks : Asks process run call) (hserved : Served process run call) :
    CachesInv process (linuxCpuStep process run call).1 ∧ AtMostOne process run call := by
  have htime := timeOf_served hserved
  obtain ⟨r, hread, htotal, hle⟩ := slot_le hinv hclock hserved.1
  have hread' : (linuxCpuStep process run call).1.readAt = some r :=
    (if_neg fun h => h.2 hserved).trans hread
  have hstat : (linuxCpuStep process run call).1.lastProcStat = run.lastProcStat :=
    (if_pos hasks).trans (congrArg Prod.fst htime)
  refine linuxCpuStep_times hinv hasks (congrArg Prod.snd htime) hread' htotal hle ?_ ?_
  · rw [hstat]
    exact htotal
  · rcases hinv.prev_total call with hzero | ⟨r', hr', hprev, _⟩
    · exact Or.inr hzero
    · grind

/-- A call that reads the file. -/
theorem linuxCpuStep_read (hguard : SampledOnTime process run call) (hasks : Asks process run call)
    (hmiss : ¬ Served process run call) :
    CachesInv process (linuxCpuStep process run call).1 ∧ AtMostOne process run call := by
  obtain ⟨parsed, hfirst, htime, htotal⟩ := timeOf_read hmiss
  have hread : (linuxCpuStep process run call).1.readAt = some call.time := if_pos ⟨hasks, hmiss⟩
  have hstat : (linuxCpuStep process run call).1.lastProcStat
      = { parsed with pid := process.pid, mtime := secondsOf call.time } :=
    (if_pos hasks).trans hfirst
  refine linuxCpuStep_times hinv hasks htime hread htotal (UInt64.le_refl _) ?_ ?_
  · rw [hstat]
    exact htotal
  · rcases hinv.prev_total call with hzero | ⟨r, hr, hprev, _, hlast, hvalue⟩
    · exact Or.inr hzero
    · rcases (hguard _ hvalue).2 hasks hmiss with hzero | heq
      · exact Or.inr hzero
      · -- the sample was read when it was taken, so that the growth is over the same interval
        obtain rfl : r = (cpuPrevOf process run call).lastTime :=
          Option.some.inj (hr.symm.trans (heq.trans hlast))
        have hle := hclock _ hlast
        left
        rw [hprev, UInt64.toNat_sub_of_le _ _ hle]
        exact process.grows _ _ hle

/-- **One call.** -/
theorem CachesInv.step (hguard : SampledOnTime process run call) :
    CachesInv process (linuxCpuStep process run call).1 ∧ AtMostOne process run call := by
  grind [linuxCpuStep_served, linuxCpuStep_read, linuxCpuStep_same]

end Kinds

end Invariant

/-! ## Whole runs -/

/-- **The percentage of a process is at most 1** in every run of calls in order whose cached samples
    are read on time. -/
theorem sigarProcCpu_percent_le_one {handle : LinuxHandle} (process : ShownProcess handle)
    (lastProcStat : LinuxProcStat) (calls : List TimedCall)
    (hclock : calls.Pairwise fun a b => a.time ≤ b.time)
    (hguard : Runs.Along (linuxCpuStep process) (SampledOnTime process) (.start lastProcStat)
      calls) :
    Runs.Along (linuxCpuStep process) (AtMostOne process) (.start lastProcStat) calls := by
  have hkept : Runs.Along (linuxCpuStep process) ClockKept (.start lastProcStat) calls :=
    Runs.along_of_pairwise TwoCaches.lastCall TimedCall.time (· ≤ ·) (fun _ _ => rfl)
      (fun t ht => (by cases ht)) hclock
  have hstart : CachesInv process (.start lastProcStat) := CachesInv.start lastProcStat
  refine Runs.along_of_invariant ?_ calls _ hstart (hkept.and hguard)
  intro run call hinv hstep
  exact hinv.step hstep.1 hstep.2

/-- A host with 1000 ticks a second. -/
def thousandTicks : LinuxHandle where
  ticks := 1000
  bootTime := 0
  pagesize := 12
  lcpu := 1
  coreRollup := false

/-- The file of a process that has used some ticks. -/
def ticksText (utime : Char) : Text := "7 (a) S 1 1 1 0 0 0 0 0 0 0 ".toList ++ [utime]

/-- The file of a process that uses one tick at 2000 ms and one at 2500 ms. -/
def twoTicks (t : UInt64) : Text :=
  if t < 2000 then ticksText '1' else if t < 2500 then ticksText '2' else ticksText '3'

theorem ticksText_total :
    shownTotal thousandTicks (ticksText '1') = 1 ∧ shownTotal thousandTicks (ticksText '2') = 2 ∧
    shownTotal thousandTicks (ticksText '3') = 3 := by
  decide +kernel

theorem ticksText_readable :
    (parsedStat thousandTicks (ticksText '1')).isSome ∧
    (parsedStat thousandTicks (ticksText '2')).isSome ∧
    (parsedStat thousandTicks (ticksText '3')).isSome := by
  decide +kernel

/-- The total is 1, 2 and then 3 ms. -/
theorem twoTicks_total (t : UInt64) :
    (shownTotal thousandTicks (twoTicks t)).toNat
      = if t.toNat < 2000 then 1 else if t.toNat < 2500 then 2 else 3 := by
  obtain ⟨hone, htwo, hthree⟩ := ticksText_total
  have hfirst : t < 2000 ↔ t.toNat < 2000 := UInt64.lt_iff_toNat_lt
  have hsecond : t < 2500 ↔ t.toNat < 2500 := UInt64.lt_iff_toNat_lt
  unfold twoTicks
  by_cases h1 : t < 2000
  · rw [if_pos h1, if_pos (hfirst.mp h1), hone]
    rfl
  · rw [if_neg h1, if_neg fun h => h1 (hfirst.mpr h)]
    by_cases h2 : t < 2500
    · rw [if_pos h2, if_pos (hsecond.mp h2), htwo]
      rfl
    · rw [if_neg h2, if_neg fun h => h2 (hsecond.mpr h), hthree]
      rfl

def twoTicksProcess : ShownProcess thousandTicks where
  pid := 7
  stat := twoTicks
  pid_ne := by decide
  readable t := by
    obtain ⟨hone, htwo, hthree⟩ := ticksText_readable
    unfold twoTicks
    split
    · exact hone
    · split
      · exact htwo
      · exact hthree
  grows t1 t2 hle := by
    have hle' := UInt64.le_iff_toNat_le.mp hle
    rw [twoTicks_total, twoTicks_total]
    rcases Nat.lt_or_ge t1.toNat 2000 with h1 | h1
    · rw [if_pos h1]
      repeat' split
      all_goals omega
    · rw [if_neg (Nat.not_lt.mpr h1), if_neg (by omega)]
      repeat' split
      all_goals omega

/-- What a new handle has in `last_proc_stat`. -/
def noStat : LinuxProcStat where
  name := []
  state := nul
  ppid := 0
  tty := 0
  minorFaults := 0
  majorFaults := 0
  utime := 0
  stime := 0
  priority := 0
  nice := 0
  startTime := 0
  vsize := 0
  rss := 0
  processor := 0
  pid := -1
  mtime := 0

/-- The percentages that calls at these times report. -/
def percentsAt (times : List UInt64) : List (Status × ℚ) :=
  (Runs.exec (linuxCpuStep twoTicksProcess) (.start noStat)
    (times.map fun time => ⟨time, .zero⟩)).2.map fun answer => (answer.1, answer.2.percent)

instance {handle : LinuxHandle} (process : ShownProcess handle) (run : TwoCaches)
    (call : TimedCall) : Decidable (SampledOnTime process run call) :=
  match hvalue : (cpuEntryOf process run call).value with
  | none => .isTrue fun _ hcached => by rw [hvalue] at hcached; cases hcached
  | some cached => decidable_of_iff ((call.time = cached.lastTime → cached.percent ≤ 1) ∧
      (call.time ≠ cached.lastTime → ¬ Served process run call →
        cached.total = 0 ∨ run.readAt = run.lastCall))
      ⟨fun h _ hcached' => Option.some.inj (hvalue.symm.trans hcached') ▸ h,
        fun h => h cached hvalue⟩

/-- Two calls that read the file, and one that is served. -/
theorem sigarProcCpu_percent_le_one_example :
    Runs.Along (linuxCpuStep twoTicksProcess) (AtMostOne twoTicksProcess) (.start noStat)
      [⟨1000, .zero⟩, ⟨3000, .zero⟩, ⟨4999, .zero⟩] := by
  apply sigarProcCpu_percent_le_one
  · decide +kernel
  · decide +kernel

/-- **A fresh total against a stale one**: the call at 2999 ms is served with the total of 1000 ms,
    and the two milliseconds that the process has used since then are divided by one. -/
theorem freshAfterServed_two :
    percentsAt [1000, 2999, 3000] = [(sigarOk, 0), (sigarOk, 0), (sigarOk, 2)] := by
  decide +kernel

end Sigar.Proc
