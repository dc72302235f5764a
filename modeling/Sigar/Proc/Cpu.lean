/-
  The CPU percentage of a process, `sigar_proc_cpu_get` of `src/sigar.c`.

  The cache keeps the last sample of every pid.  A call reads the clock, writes that time into the
  cached sample BEFORE it asks for the times of the process, and replaces the sample after that if
  it got them; the percentage is the difference quotient of the two samples.

  `CpuRun` is a handle with the samples it has reported, newest first.  `sigarProcCpu_percent`
  says that every reported percentage is the one of the last earlier sample of the same PROCESS,
  a pid with a start time, in every run in which no call fails while a sample is cached and no
  cached sample is that of another process.  Both conditions are needed.
-/
import Sigar.Cache.Update
import Sigar.LastProc.Linux
import Mathlib.Algebra.Field.Rat

namespace Sigar.Proc

open Sigar.Cache
open Sigar.LastProc (SigarProcTime)

/-! ## The function -/

/-- `sigar_proc_cpu_t`, which starts with a `sigar_proc_time_t`. -/
structure SigarProcCpu where
  startTime : UInt64
  user : UInt64
  sys : UInt64
  total : UInt64
  lastTime : UInt64
  percent : ℚ
  deriving DecidableEq

/-- `SIGAR_ZERO`. -/
def SigarProcCpu.zero : SigarProcCpu := ⟨0, 0, 0, 0, 0, 0⟩

/-- The structure with the times that `sigar_proc_time_get` writes into it. -/
def SigarProcCpu.withTime (cpu : SigarProcCpu) (time : SigarProcTime) : SigarProcCpu :=
  { cpu with startTime := time.startTime, user := time.user, sys := time.sys, total := time.total }

/-- What one call meets: its arguments, the readings of the clock, and what
    `sigar_proc_time_get` answers if it is asked. -/
structure CpuCall where
  pid : SigarPid
  timeNow : UInt64
  /-- The reading in `sigar_expired_cache_new`, for the first call. -/
  newTime : UInt64
  clock : Clock
  timeStatus : Status
  time : SigarProcTime
  /-- What the caller's structure holds. -/
  proccpu : SigarProcCpu

/-- `proccpu->percent` after a success, from the total that was cached; a total that went down
    counts as a first call. -/
def cpuPercent (otime total timeDiff : UInt64) : ℚ :=
  let otime := if total < otime then 0 else otime
  if otime = 0 then 0  -- first time called
  else
    let totalDiff := total - otime
    (totalDiff.toNat : ℚ) / (timeDiff.toNat : ℚ)

/-- The body after the cache lookup: what is in `*prev` in the end, the status, and the caller's
    structure. -/
def cpuUpdate (prev : SigarProcCpu) (call : CpuCall) : SigarProcCpu × Status × SigarProcCpu :=
  let timeDiff := call.timeNow - prev.lastTime
  let proccpu := { call.proccpu with lastTime := call.timeNow }
  let prev := { prev with lastTime := call.timeNow }
  if timeDiff = 0 then (prev, sigarOk, prev)
  else
    let otime := prev.total
    if call.timeStatus ≠ sigarOk then (prev, call.timeStatus, proccpu)
    else
      let proccpu := proccpu.withTime call.time
      let prev := proccpu  -- `memcpy(prev, proccpu)`
      (prev, sigarOk, { proccpu with percent := cpuPercent otime proccpu.total timeDiff })

/-- `sigar->proc_cpu`, which the first call creates. -/
def procCpuTable (cache : Option (SigarCache SigarProcCpu)) (call : CpuCall) :
    SigarCache SigarProcCpu :=
  cache.getD (sigarExpiredCacheNew SigarProcCpu 128 600000 1200000 call.newTime)

/-- `sigar_cache_get(sigar->proc_cpu, pid)`. -/
def procCpuEntry (cache : Option (SigarCache SigarProcCpu)) (call : CpuCall) :
    SigarCacheEntry SigarProcCpu :=
  (sigarCacheGet (procCpuTable cache call) (pidToUInt64 call.pid) call.clock).2

/-- `sigar_proc_cpu_get`. -/
def sigarProcCpuGet (cache : Option (SigarCache SigarProcCpu)) (call : CpuCall) :
    SigarCache SigarProcCpu × Status × SigarProcCpu :=
  let prev := (procCpuEntry cache call).value.getD .zero
  let result := cpuUpdate prev call
  (updateKey (procCpuTable cache call) (pidToUInt64 call.pid) call.clock (some result.1), result.2)

/-! ## Runs -/

/-- A successful call: the process, when, its accumulated total, what was reported, and the cache
    entry that it went through. -/
structure CpuSample where
  pid : SigarPid
  startTime : UInt64
  time : UInt64
  total : UInt64
  percent : ℚ
  entry : Nat
  deriving DecidableEq

/-- A handle, with its successful calls (newest first) and the time of its last call. -/
structure CpuRun where
  cache : Option (SigarCache SigarProcCpu)
  history : List CpuSample
  lastCall : Option UInt64

def CpuRun.start : CpuRun := ⟨none, [], none⟩

/-- The sample that a successful call leaves in the history. -/
def sampleOf (run : CpuRun) (call : CpuCall) (out : SigarProcCpu) : CpuSample where
  pid := call.pid
  startTime := out.startTime
  time := call.timeNow
  total := out.total
  percent := out.percent
  entry := (procCpuEntry run.cache call).addr

def cpuStep (run : CpuRun) (call : CpuCall) : CpuRun × (Status × SigarProcCpu) :=
  let result := sigarProcCpuGet run.cache call
  ({ cache := some result.1
     history :=
       if result.2.1 = sigarOk then sampleOf run call result.2.2 :: run.history else run.history
     lastCall := some call.timeNow }, result.2)

/-- The last sample of a process. -/
def lastSample (history : List CpuSample) (pid : SigarPid) (startTime : UInt64) :
    Option CpuSample :=
  history.find? fun s => s.pid = pid ∧ s.startTime = startTime

/-- The difference quotient; zero if the earlier total is zero or larger. -/
def percentSince (earlier now : CpuSample) : ℚ :=
  if earlier.total = 0 ∨ now.total < earlier.total then 0
  else ((now.total.toNat : ℚ) - earlier.total.toNat) / ((now.time.toNat : ℚ) - earlier.time.toNat)

/-- The percentage is the one since the last earlier sample of the process, or zero if there is
    none.  Nothing is said if the entry of that sample has expired. -/
def PercentRight (earlier : List CpuSample) (now : CpuSample) : Prop :=
  match lastSample earlier now.pid now.startTime with
  | none => now.percent = 0
  | some last => last.entry = now.entry → now.percent = percentSince last now

/-- Every percentage of the history is right. -/
def AllRight : List CpuSample → Prop
  | [] => True
  | now :: earlier => PercentRight earlier now ∧ AllRight earlier

/-! ## One call on one sample -/

section Update

variable {prev : SigarProcCpu} {call : CpuCall}

/-- A second call at the same time reports the cached sample. -/
theorem cpuUpdate_same (h : call.timeNow = prev.lastTime) :
    cpuUpdate prev call = (prev, sigarOk, prev) := by
  have hprev : { prev with lastTime := call.timeNow } = prev := by rw [h]
  unfold cpuUpdate
  dsimp only
  rw [if_pos (by rw [h, UInt64.sub_self]), hprev]

theorem timeDiff_ne_zero (h : call.timeNow ≠ prev.lastTime) :
    ¬ call.timeNow - prev.lastTime = 0 := by
  intro hzero
  exact h (by simpa [UInt64.sub_eq_iff_eq_add] using hzero)

/-- A failure leaves its time in the cached sample. -/
theorem cpuUpdate_fail (h : call.timeNow ≠ prev.lastTime) (hstatus : call.timeStatus ≠ sigarOk) :
    cpuUpdate prev call
      = ({ prev with lastTime := call.timeNow }, call.timeStatus,
          { call.proccpu with lastTime := call.timeNow }) := by grind [cpuUpdate]

/-- A success replaces the cached sample, and compares the totals. -/
theorem cpuUpdate_ok (h : call.timeNow ≠ prev.lastTime) (hstatus : call.timeStatus = sigarOk) :
    cpuUpdate prev call
      = ({ call.proccpu with lastTime := call.timeNow }.withTime call.time, sigarOk,
          { { call.proccpu with lastTime := call.timeNow }.withTime call.time with
            percent := cpuPercent prev.total call.time.total (call.timeNow - prev.lastTime) }) := by
  unfold cpuUpdate
  dsimp only
  rw [if_neg (timeDiff_ne_zero h), if_neg (not_not.mpr hstatus)]
  rfl

theorem cpuPercent_zero {otime total : UInt64} (timeDiff : UInt64)
    (h : otime = 0 ∨ total < otime) : cpuPercent otime total timeDiff = 0 := by grind [cpuPercent]

theorem cpuPercent_quotient {otime total timeDiff : UInt64} (h : ¬ (otime = 0 ∨ total < otime)) :
    cpuPercent otime total timeDiff = ((total - otime).toNat : ℚ) / (timeDiff.toNat : ℚ) := by
  grind [cpuPercent]

/-- The difference of two readings in order. -/
theorem toNat_sub_cast {a b : UInt64} (h : b ≤ a) :
    ((a - b).toNat : ℚ) = (a.toNat : ℚ) - b.toNat := by
  rw [UInt64.toNat_sub_of_le a b h]
  exact Nat.cast_sub (UInt64.le_iff_toNat_le.mp h)

/-- The percentage of the code is the one since a sample with the cached total and time. -/
theorem cpuPercent_eq {earlier now : CpuSample} (htime : earlier.time ≤ now.time) :
    cpuPercent earlier.total now.total (now.time - earlier.time) = percentSince earlier now := by
  grind [cpuPercent_zero, cpuPercent_quotient, toNat_sub_cast, percentSince]

end Update

/-! ## What the cache knows of the history -/

section History

variable {history : List CpuSample} {sample : CpuSample} {pid : SigarPid} {startTime : UInt64}

theorem lastSample_cons_self :
    lastSample (sample :: history) sample.pid sample.startTime = some sample :=
  List.find?_cons_of_pos (decide_eq_true ⟨rfl, rfl⟩)

theorem lastSample_cons_of_ne (h : sample.pid ≠ pid) :
    lastSample (sample :: history) pid startTime = lastSample history pid startTime :=
  List.find?_cons_of_neg (by simpa using fun hc => absurd hc h)

theorem mem_of_lastSample (h : lastSample history pid startTime = some sample) :
    sample ∈ history :=
  List.mem_of_find?_eq_some h

end History

/-- A cached sample with a total is the last one of its process; one without a total says that the
    last one of its process, if it is of this entry, has none either. -/
structure SampleKept (history : List CpuSample) (entry : SigarCacheEntry SigarProcCpu)
    (cached : SigarProcCpu) : Prop where
  last : ∀ pid, entry.id = pidToUInt64 pid → cached.total ≠ 0 →
    ∃ s, lastSample history pid cached.startTime = some s ∧ s.time = cached.lastTime ∧
      s.total = cached.total ∧ s.entry = entry.addr
  blank : ∀ pid, entry.id = pidToUInt64 pid → cached.total = 0 →
    ∀ s, lastSample history pid cached.startTime = some s → s.entry = entry.addr → s.total = 0

/-- Of an entry only its id and its address matter. -/
theorem SampleKept.of_entry {history : List CpuSample} {entry entry' : SigarCacheEntry SigarProcCpu}
    {cached : SigarProcCpu} (h : SampleKept history entry cached) (hid : entry'.id = entry.id)
    (haddr : entry'.addr = entry.addr) : SampleKept history entry' cached := by
  constructor
  · grind [h.last]
  · grind [h.blank]

/-- A table of samples that were cached before `lastCall`. -/
structure TableKept (history : List CpuSample) (lastCall : Option UInt64)
    (table : SigarCache SigarProcCpu) : Prop where
  owned : Owned table
  entries : ∀ entry ∈ table.cells, ∃ cached, entry.value = some cached ∧
    SampleKept history entry cached ∧ ∃ t, lastCall = some t ∧ cached.lastTime ≤ t
  older : ∀ s ∈ history, s.entry < table.mallocs

/-- The invariant of a run. -/
structure CpuInv (run : CpuRun) : Prop where
  unused : run.cache = none → run.history = []
  kept : ∀ table, run.cache = some table → TableKept run.history run.lastCall table
  right : AllRight run.history

theorem CpuInv.start : CpuInv CpuRun.start :=
  ⟨fun _ => rfl, fun _ h => (nomatch h), trivial⟩

section Step

variable {run : CpuRun} {call : CpuCall}

/-- Also the table that the first call creates is as it should be. -/
theorem CpuInv.table (hinv : CpuInv run) (call : CpuCall) :
    TableKept run.history run.lastCall (procCpuTable run.cache call) := by
  cases hcache : run.cache with
  | some table => exact hinv.kept table hcache
  | none =>
    refine ⟨sigarExpiredCacheNew_owned SigarProcCpu (by decide) _ _ _, ?_, ?_⟩
    · intro entry he
      exact absurd he (not_mem_new SigarProcCpu _ _ _ _ entry)
    · grind [hinv.unused]

/-- The entry of the call: a cached sample from before, or a new entry that no sample of the
    history went through. -/
theorem CpuInv.entry_cases (hinv : CpuInv run) (call : CpuCall) :
    (∃ cached, (procCpuEntry run.cache call).value = some cached ∧
      SampleKept run.history (procCpuEntry run.cache call) cached ∧
      ∃ t, run.lastCall = some t ∧ cached.lastTime ≤ t) ∨
    ((procCpuEntry run.cache call).value = none ∧
      ∀ s ∈ run.history, s.entry ≠ (procCpuEntry run.cache call).addr) := by
  have htable := hinv.table call
  have hgot := sigarCacheGet_got htable.owned (pidToUInt64 call.pid) call.clock
  rcases hgot.origin with ⟨entry, he, hid, haddr, hvalue⟩ | ⟨hnone, haddr⟩
  · obtain ⟨cached, hcached, hkept, hbefore⟩ := htable.entries entry he
    exact Or.inl ⟨cached, hvalue.symm.trans hcached,
      hkept.of_entry (hgot.id.trans hid.symm) haddr.symm, hbefore⟩
  · refine Or.inr ⟨hnone, fun s hs heq => ?_⟩
    have hlt := htable.older s hs
    have haddr' : (procCpuEntry run.cache call).addr = (procCpuTable run.cache call).mallocs :=
      haddr
    omega

theorem procCpuEntry_id (hinv : CpuInv run) (call : CpuCall) :
    (procCpuEntry run.cache call).id = pidToUInt64 call.pid :=
  (sigarCacheGet_got (hinv.table call).owned (pidToUInt64 call.pid) call.clock).id

/-- A sample of another pid is kept by what a call adds to the history. -/
theorem SampleKept.of_other {history history' : List CpuSample}
    {entry : SigarCacheEntry SigarProcCpu} {cached : SigarProcCpu}
    (h : SampleKept history entry cached)
    (hsame : ∀ pid startTime, entry.id = pidToUInt64 pid →
      lastSample history' pid startTime = lastSample history pid startTime) :
    SampleKept history' entry cached := by
  constructor
  · grind [h.last]
  · grind [h.blank]

/-- The clock has moved on since the last call. -/
def ClockForward (run : CpuRun) (call : CpuCall) : Prop :=
  ∀ t, run.lastCall = some t → t < call.timeNow

/-- A call fails only if no sample with a total is cached for its pid.  And if it succeeds, a
    cached sample is of the same process, or it has no total or a larger one and there is no
    sample of the process yet. -/
def SamplesItsProcess (run : CpuRun) (call : CpuCall) : Prop :=
  ∀ cached, (procCpuEntry run.cache call).value = some cached →
    (call.timeStatus ≠ sigarOk → cached.total = 0) ∧
    (call.timeStatus = sigarOk → cached.startTime = call.time.startTime ∨
      ((cached.total = 0 ∨ call.time.total < cached.total) ∧
        lastSample run.history call.pid call.time.startTime = none))

/-- The table after a call, for what it put into the entry and into the history. -/
theorem CpuInv.tableKept_update (hinv : CpuInv run) (hclock : ClockForward run call)
    {history' : List CpuSample} {cached' : SigarProcCpu}
    (hnew : SampleKept history' (procCpuEntry run.cache call) cached')
    (htime : cached'.lastTime = call.timeNow)
    (hother : ∀ pid startTime, pid ≠ call.pid →
      lastSample history' pid startTime = lastSample run.history pid startTime)
    (hfrom : ∀ s ∈ history', s ∈ run.history ∨ s.entry = (procCpuEntry run.cache call).addr) :
    TableKept history' (some call.timeNow) (updateKey (procCpuTable run.cache call)
      (pidToUInt64 call.pid) call.clock (some cached')) := by
  have htable := hinv.table call
  obtain ⟨howned, hcells, hmallocs, haddr⟩ :=
    updateKey_spec htable.owned (pidToUInt64 call.pid) call.clock (some cached')
  refine ⟨howned, fun entry he => ?_, fun s hs => ?_⟩
  · rcases hcells entry he with rfl | ⟨hold, hne⟩
    · -- the entry of this call
      refine ⟨cached', rfl, hnew.of_entry rfl rfl, call.timeNow, rfl, ?_⟩
      rw [htime]
      exact UInt64.le_refl _
    · -- the entry of another pid
      obtain ⟨cached, hcached, hkept, t, ht, hle⟩ := htable.entries entry hold
      have hlt := hclock t ht
      refine ⟨cached, hcached, hkept.of_other fun pid startTime hpid => ?_, call.timeNow, rfl,
        UInt64.le_of_lt (UInt64.lt_of_le_of_lt hle hlt)⟩
      refine hother pid startTime fun heq => hne ?_
      rw [hpid, heq]
  · rcases hfrom s hs with hs | hs
    · have hlt := htable.older s hs
      omega
    · rw [hs]
      exact haddr

/-- The run after a call, from what the call does to its sample. -/
theorem cpuStep_eq {prev cached' out : SigarProcCpu} {status : Status}
    (hprev : (procCpuEntry run.cache call).value.getD .zero = prev)
    (hupdate : cpuUpdate prev call = (cached', status, out)) :
    (cpuStep run call).1 = ⟨some (updateKey (procCpuTable run.cache call) (pidToUInt64 call.pid)
        call.clock (some cached')),
      if status = sigarOk then sampleOf run call out :: run.history else run.history,
      some call.timeNow⟩ := by
  unfold cpuStep sigarProcCpuGet
  dsimp only
  rw [hprev, hupdate]

section Cases

variable {prev cached' out : SigarProcCpu} (hinv : CpuInv run) (hclock : ClockForward run call)
  (hprev : (procCpuEntry run.cache call).value.getD .zero = prev)
  (htime : cached'.lastTime = call.timeNow)

include hinv hclock hprev htime

/-- The step lemma for a failure: nothing is added to the history. -/
theorem CpuInv.step_fail {status : Status} (hupdate : cpuUpdate prev call = (cached', status, out))
    (hstatus : status ≠ sigarOk)
    (hnew : SampleKept run.history (procCpuEntry run.cache call) cached') :
    CpuInv (cpuStep run call).1 := by
  rw [cpuStep_eq hprev hupdate, if_neg hstatus]
  refine ⟨fun hc => (nomatch hc), fun table htable => ?_, hinv.right⟩
  rw [← Option.some.inj htable]
  exact hinv.tableKept_update hclock hnew htime (fun _ _ _ => rfl) fun s hs => Or.inl hs

/-- The step lemma for a success: one sample is added, and it must be right. -/
theorem CpuInv.step_ok (hupdate : cpuUpdate prev call = (cached', sigarOk, out))
    (hout : cached'.startTime = out.startTime ∧ cached'.total = out.total)
    (hright : PercentRight run.history (sampleOf run call out)) : CpuInv (cpuStep run call).1 := by
  rw [cpuStep_eq hprev hupdate, if_pos rfl]
  refine ⟨fun hc => (nomatch hc), fun table htable => ?_, hright, hinv.right⟩
  rw [← Option.some.inj htable]
  -- the new sample is the last one of its process
  have hlast : ∀ pid, (procCpuEntry run.cache call).id = pidToUInt64 pid →
      lastSample (sampleOf run call out :: run.history) pid cached'.startTime
        = some (sampleOf run call out) := by
    intro pid hpid
    obtain rfl : call.pid = pid :=
      pidToUInt64_injective ((procCpuEntry_id hinv call).symm.trans hpid)
    rw [hout.1]
    exact lastSample_cons_self
  refine hinv.tableKept_update hclock ⟨?_, ?_⟩ htime ?_ ?_
  · intro pid hpid _
    exact ⟨_, hlast pid hpid, htime.symm, hout.2.symm, rfl⟩
  · intro pid hpid hzero s hs _
    rw [hlast pid hpid] at hs
    rw [← Option.some.inj hs]
    exact hout.2.symm.trans hzero
  · intro pid startTime hne
    exact lastSample_cons_of_ne (Ne.symm hne)
  · intro s hs
    rcases List.mem_cons.mp hs with rfl | hs
    · exact Or.inr rfl
    · exact Or.inl hs

end Cases

/-- Through a new entry every percentage is zero, and nothing is to be said. -/
theorem percentRight_of_new {history : List CpuSample} {sample : CpuSample}
    (hnew : ∀ s ∈ history, s.entry ≠ sample.entry) (hzero : sample.percent = 0) :
    PercentRight history sample := by
  unfold PercentRight
  split
  · exact hzero
  · next last hlast => exact fun heq => absurd heq (hnew last (mem_of_lastSample hlast))

/-- Through the entry of a cached sample of the same process, or of one that leaves no trace. -/
theorem percentRight_of_cached {cached out : SigarProcCpu} (hinv : CpuInv run)
    (hkept : SampleKept run.history (procCpuEntry run.cache call) cached)
    (hlt : cached.lastTime < call.timeNow)
    (hpercent : out.percent
      = cpuPercent cached.total out.total (call.timeNow - cached.lastTime))
    (hsame : cached.startTime = out.startTime ∨
      ((cached.total = 0 ∨ out.total < cached.total) ∧
        lastSample run.history call.pid out.startTime = none)) :
    PercentRight run.history (sampleOf run call out) := by
  have hid := procCpuEntry_id hinv call
  unfold PercentRight
  show match lastSample run.history call.pid out.startTime with
    | none => out.percent = 0
    | some last => last.entry = (procCpuEntry run.cache call).addr →
        out.percent = percentSince last (sampleOf run call out)
  rcases hsame with hstart | ⟨hno, hnone⟩
  · by_cases htotal : cached.total = 0
    · -- no percentage, and the last sample through this entry has no total either
      have hzero : out.percent = 0 := hpercent.trans (cpuPercent_zero _ (Or.inl htotal))
      split
      · exact hzero
      · next last hlast =>
        intro hentry
        have hlastZero := hkept.blank call.pid hid htotal last (hstart ▸ hlast) hentry
        unfold percentSince
        rw [if_pos (Or.inl hlastZero), hzero]
    · -- the cached sample is the last one of this process
      obtain ⟨last, hlast, hlastTime, hlastTotal, _⟩ := hkept.last call.pid hid htotal
      rw [hstart] at hlast
      rw [hlast]
      intro _
      have hle : last.time ≤ (sampleOf run call out).time := by
        rw [hlastTime]
        exact UInt64.le_of_lt hlt
      rw [← cpuPercent_eq hle, hlastTime, hlastTotal]
      exact hpercent
  · -- the cached sample is of another process, but the code reports zero all the same
    rw [hnone]
    exact hpercent.trans (cpuPercent_zero _ hno)

/-- **One call keeps the invariant**, if it is the process it samples. -/
theorem CpuInv.step (hinv : CpuInv run) (hclock : ClockForward run call)
    (hguard : SamplesItsProcess run call) : CpuInv (cpuStep run call).1 := by
  rcases hinv.entry_cases call with ⟨cached, hcached, hkept, t, ht, hle⟩ | ⟨hnone, hnew⟩
  · -- the sample that is cached is older than this call
    have hprev : (procCpuEntry run.cache call).value.getD .zero = cached := by rw [hcached]; rfl
    have hlt : cached.lastTime < call.timeNow := UInt64.lt_of_le_of_lt hle (hclock t ht)
    have hne : call.timeNow ≠ cached.lastTime := (UInt64.ne_of_lt hlt).symm
    obtain ⟨hfail, hsame⟩ := hguard cached hcached
    by_cases hstatus : call.timeStatus = sigarOk
    · refine hinv.step_ok hclock hprev rfl (cpuUpdate_ok hne hstatus) ⟨rfl, rfl⟩ ?_
      exact percentRight_of_cached hinv hkept hlt rfl (hsame hstatus)
    · refine hinv.step_fail hclock hprev rfl (cpuUpdate_fail hne hstatus) hstatus ⟨?_, ?_⟩
      · grind
      · intro pid hpid htotal
        exact hkept.blank pid hpid htotal
  · -- a new entry
    have hprev : (procCpuEntry run.cache call).value.getD .zero = .zero := by rw [hnone]; rfl
    by_cases hzero : call.timeNow = SigarProcCpu.zero.lastTime
    · -- at time zero the blank sample counts as one that was just taken
      refine hinv.step_ok hclock hprev hzero.symm (cpuUpdate_same hzero) ⟨rfl, rfl⟩ ?_
      exact percentRight_of_new hnew rfl
    · by_cases hstatus : call.timeStatus = sigarOk
      · refine hinv.step_ok hclock hprev rfl (cpuUpdate_ok hzero hstatus) ⟨rfl, rfl⟩ ?_
        have hpercent : cpuPercent SigarProcCpu.zero.total call.time.total
            (call.timeNow - SigarProcCpu.zero.lastTime) = 0 := cpuPercent_zero _ (Or.inl rfl)
        exact percentRight_of_new hnew hpercent
      · refine hinv.step_fail hclock hprev rfl (cpuUpdate_fail hzero hstatus) hstatus ⟨?_, ?_⟩
        · intro pid _ htotal
          exact absurd rfl htotal
        · intro pid _ _ s hs hentry
          exact absurd hentry (hnew s (mem_of_lastSample hs))

end Step

/-! ## Whole runs -/

/-- **Every percentage is that of its process**, in every run with increasing clock readings whose
    calls sample the process that is cached: no call fails while a sample with a total is cached
    for its pid, and no sample is cached for a pid that now belongs to another process, unless it
    leaves no trace. -/
theorem sigarProcCpu_percent (calls : List CpuCall)
    (hclock : calls.Pairwise fun a b => a.timeNow < b.timeNow)
    (hguard : Runs.Along cpuStep SamplesItsProcess .start calls) :
    AllRight (Runs.exec cpuStep .start calls).1.history := by
  have hforward : Runs.Along cpuStep ClockForward .start calls :=
    Runs.along_of_pairwise CpuRun.lastCall CpuCall.timeNow (· < ·) (fun _ _ => rfl)
      (fun t ht => (by cases ht)) hclock
  have hinv : CpuInv (Runs.exec cpuStep .start calls).1 := by
    refine Runs.exec_invariant cpuStep
      (fun run call => ClockForward run call ∧ SamplesItsProcess run call) CpuInv ?_ calls .start
      CpuInv.start (hforward.and hguard)
    intro run call hinv hstep
    exact hinv.step hstep.1 hstep.2
  exact hinv.right

/-- A call at a time for process 1, started at `start`, with a total, or a failing one. -/
def exampleCall (now : UInt64) (status : Status) (start total : UInt64) : CpuCall where
  pid := 1
  timeNow := now
  newTime := now
  clock := ⟨now, now⟩
  timeStatus := status
  time := ⟨start, 0, total, total⟩
  proccpu := .zero

instance (earlier : List CpuSample) (now : CpuSample) : Decidable (PercentRight earlier now) :=
  match hlast : lastSample earlier now.pid now.startTime with
  | none => decidable_of_iff (now.percent = 0) (by unfold PercentRight; rw [hlast])
  | some last => decidable_of_iff (last.entry = now.entry → now.percent = percentSince last now)
      (by unfold PercentRight; rw [hlast])

instance AllRight.decidable : (history : List CpuSample) → Decidable (AllRight history)
  | [] => .isTrue trivial
  | now :: earlier => @instDecidableAnd _ _ (inferInstanceAs (Decidable (PercentRight earlier now)))
      (AllRight.decidable earlier)

instance (run : CpuRun) (call : CpuCall) : Decidable (SamplesItsProcess run call) :=
  match hvalue : (procCpuEntry run.cache call).value with
  | none => .isTrue fun _ hcached => nomatch hvalue.symm.trans hcached
  | some cached => decidable_of_iff ((call.timeStatus ≠ sigarOk → cached.total = 0) ∧
      (call.timeStatus = sigarOk → cached.startTime = call.time.startTime ∨
        ((cached.total = 0 ∨ call.time.total < cached.total) ∧
          lastSample run.history call.pid call.time.startTime = none)))
      ⟨fun h _ hcached' => Option.some.inj (hvalue.symm.trans hcached') ▸ h,
        fun h => h cached hvalue⟩

/-- Three samples of one process. -/
theorem sigarProcCpu_percent_example :
    AllRight (Runs.exec cpuStep .start
      [exampleCall 1000 0 5 0, exampleCall 2000 0 5 100, exampleCall 4000 0 5 150]).1.history := by
  apply sigarProcCpu_percent
  · decide
  · decide +kernel

/-- A failure between two samples, and a pid that is used again: half of the time is forgotten,
    and the times of two processes are compared. -/
theorem cpuPercent_wrong :
    ((Runs.exec cpuStep .start
        [exampleCall 1000 0 5 100, exampleCall 2000 3 5 0, exampleCall 3000 0 5 200]).2.map
          fun r => (r.1, r.2.percent)) = [(0, 0), (3, 0), (0, 1 / 10)] ∧
    ¬ AllRight (Runs.exec cpuStep .start
        [exampleCall 1000 0 5 100, exampleCall 2000 3 5 0, exampleCall 3000 0 5 200]).1.history ∧
    ¬ AllRight (Runs.exec cpuStep .start
        [exampleCall 1000 0 5 100, exampleCall 2000 0 9 200]).1.history := by
  refine ⟨?_, ?_, ?_⟩
  · decide +kernel
  · decide +kernel
  · decide +kernel

end Sigar.Proc
