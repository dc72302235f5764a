/-
  What a process getter reports was read for its own process, and just now — unless an earlier
  read for that process failed.

  The three caches write their key before the payload is there, so they are `CachedReader`s whose
  refills can fail LATE.  `lastProc_fresh` says that every success reports a recent read of its
  own pid in every run where no call hits a slot whose read failed; for `sigar_proc_mem_get`,
  which drops the status of the read, the read itself has to succeed too.
  `lastProc_stale` is a run of three calls where it fails: the third one reports the name of
  another process.
-/
import Sigar.LastProc.Ports
import Sigar.Lib.SlotCache

namespace Sigar.LastProc

open SlotCache

/-! ## The caches as slots -/

/-- What a miss of `proc_stat_read` comes to: all its failures are late. -/
def statRefill (handle : LinuxHandle) (old : ProcStat) (stat : FileRead) :
    Refill ProcStat Status :=
  if (sigarProcFile2str bufsiz stat).1 ≠ sigarOk then .late (sigarProcFile2str bufsiz stat).1 old
  else match parseProcStat handle (sigarProcFile2str bufsiz stat).2 with
    | none => .late einval old
    | some parsed => .filled parsed

def statSlot (pstat : LinuxProcStat) : Slot SigarPid ProcStat :=
  ⟨pstat.pid, pstat.mtime, pstat.toProcStat⟩

theorem procStatRead_access (handle : LinuxHandle) (pstat : LinuxProcStat) (pid : SigarPid)
    (now : Int) (stat : FileRead) :
    statSlot (procStatRead handle pstat pid now stat).1
      = ((statSlot pstat).access sigarLastProcExpire pid now
          (statRefill handle pstat.toProcStat stat)).1 ∧
    (procStatRead handle pstat pid now stat).2
      = ((statSlot pstat).access sigarLastProcExpire pid now
          (statRefill handle pstat.toProcStat stat)).2.getD sigarOk := by
  unfold procStatRead Slot.access
  by_cases hhit : pstat.pid = pid ∧ now - pstat.mtime < sigarLastProcExpire
  · have hslot : (statSlot pstat).Hit sigarLastProcExpire pid now := hhit
    rw [if_pos hhit, if_pos hslot]
    exact ⟨rfl, rfl⟩
  · have hslot : ¬ (statSlot pstat).Hit sigarLastProcExpire pid now := hhit
    rw [if_neg hhit, if_neg hslot]
    unfold statRefill
    by_cases hstatus : (sigarProcFile2str bufsiz stat).1 ≠ sigarOk
    · simp only [if_pos hstatus]
      exact ⟨rfl, rfl⟩
    · simp only [if_neg hstatus]
      cases parseProcStat handle (sigarProcFile2str bufsiz stat).2 with
      | none => exact ⟨rfl, rfl⟩
      | some parsed => exact ⟨rfl, rfl⟩

/-- `proc_stat_read`. -/
def procStatReader (handle : LinuxHandle) :
    CachedReader LinuxProcStat SigarPid ProcStat FileRead Status where
  expire := sigarLastProcExpire
  ok := sigarOk
  read := procStatRead handle
  slot := statSlot
  refill pstat _ stat := statRefill handle pstat.toProcStat stat
  expire_pos := by decide
  slot_read pstat pid now stat := (procStatRead_access handle pstat pid now stat).1
  status_read pstat pid now stat := (procStatRead_access handle pstat pid now stat).2

/-- What a miss of `get_proc_info` comes to. -/
def pinfoRefill (old : Pinfo) (pid : UInt32) : Except Status PerfObject → Refill Pinfo Status
  | .error err => .early err
  | .ok object =>
    match findInstance object pid with
    | none => .late sigarNoSuchProcess old
    | some inst => .filled (pinfoOf object.counters inst)

def pinfoSlot (pinfo : SigarWin32Pinfo) : Slot UInt32 Pinfo :=
  ⟨pinfo.pid, pinfo.mtime, pinfo.toPinfo⟩

theorem getProcInfo_access (pinfo : SigarWin32Pinfo) (pid : UInt32) (now : Int)
    (object : Except Status PerfObject) :
    pinfoSlot (getProcInfo pinfo pid now object).1
      = ((pinfoSlot pinfo).access sigarLastProcExpire pid now
          (pinfoRefill pinfo.toPinfo pid object)).1 ∧
    (getProcInfo pinfo pid now object).2
      = ((pinfoSlot pinfo).access sigarLastProcExpire pid now
          (pinfoRefill pinfo.toPinfo pid object)).2.getD sigarOk := by
  unfold getProcInfo Slot.access
  by_cases hhit : pinfo.pid = pid ∧ now - pinfo.mtime < sigarLastProcExpire
  · have hslot : (pinfoSlot pinfo).Hit sigarLastProcExpire pid now := hhit
    rw [if_pos hhit, if_pos hslot]
    exact ⟨rfl, rfl⟩
  · have hslot : ¬ (pinfoSlot pinfo).Hit sigarLastProcExpire pid now := hhit
    rw [if_neg hhit, if_neg hslot]
    cases object with
    | error err => exact ⟨rfl, rfl⟩
    | ok object =>
      unfold pinfoRefill
      cases hfind : findInstance object pid with
      | none => simp only [hfind]; exact ⟨rfl, rfl⟩
      | some inst => simp only [hfind]; exact ⟨rfl, rfl⟩

/-- `get_proc_info` of win32. -/
def procInfoReader : CachedReader SigarWin32Pinfo UInt32 Pinfo (Except Status PerfObject) Status where
  expire := sigarLastProcExpire
  ok := sigarOk
  read := getProcInfo
  slot := pinfoSlot
  refill pinfo pid object := pinfoRefill pinfo.toPinfo pid object
  expire_pos := by decide
  slot_read pinfo pid now object := (getProcInfo_access pinfo pid now object).1
  status_read pinfo pid now object := (getProcInfo_access pinfo pid now object).2

/-- What a miss of `sigar_proc_psinfo_get` comes to. -/
def psinfoRefill {Psinfo : Type} (old : Psinfo) : PsinfoRead Psinfo → Refill Psinfo Status
  | .noFile => .late esrch old
  | .short errno left => .late errno left
  | .whole psinfo => .filled psinfo

def psinfoSlot {Psinfo : Type} (sigar : SolarisHandle Psinfo) : Slot SigarPid Psinfo :=
  ⟨sigar.lastPid, sigar.lastGetprocs, sigar.pinfo⟩

theorem sigarProcPsinfoGet_access {Psinfo : Type} (sigar : SolarisHandle Psinfo) (pid : SigarPid)
    (now : Int) (file : PsinfoRead Psinfo) :
    psinfoSlot (sigarProcPsinfoGet sigar pid now file).1
      = ((psinfoSlot sigar).access sigarLastProcExpire pid now (psinfoRefill sigar.pinfo file)).1 ∧
    (sigarProcPsinfoGet sigar pid now file).2
      = ((psinfoSlot sigar).access sigarLastProcExpire pid now
          (psinfoRefill sigar.pinfo file)).2.getD sigarOk := by
  unfold sigarProcPsinfoGet Slot.access
  by_cases hhit : sigar.lastPid = pid ∧ now - sigar.lastGetprocs < sigarLastProcExpire
  · have hslot : (psinfoSlot sigar).Hit sigarLastProcExpire pid now := hhit
    rw [if_pos hhit, if_pos hslot]
    exact ⟨rfl, rfl⟩
  · have hslot : ¬ (psinfoSlot sigar).Hit sigarLastProcExpire pid now := hhit
    rw [if_neg hhit, if_neg hslot]
    cases file <;> exact ⟨rfl, rfl⟩

/-- `sigar_proc_psinfo_get` of Solaris. -/
def psinfoReader (Psinfo : Type) :
    CachedReader (SolarisHandle Psinfo) SigarPid Psinfo (PsinfoRead Psinfo) Status where
  expire := sigarLastProcExpire
  ok := sigarOk
  read := sigarProcPsinfoGet
  slot := psinfoSlot
  refill sigar _ file := psinfoRefill sigar.pinfo file
  expire_pos := by decide
  slot_read sigar pid now file := (sigarProcPsinfoGet_access sigar pid now file).1
  status_read sigar pid now file := (sigarProcPsinfoGet_access sigar pid now file).2

/-! ## Runs of the Linux getters -/

/-- Which getter is called, with what it reads besides `last_proc_stat` and the caller's
    structure. -/
inductive Request where
  | state (others : StateInputs) (procstate : SigarProcState)
  | time (proctime : SigarProcTime)
  | mem (statm : FileRead) (procmem : SigarProcMem)

structure ProcCall where
  pid : SigarPid
  now : Int
  stat : FileRead
  request : Request

/-- The status and the caller's structure after the call. -/
inductive Answer where
  | state (status : Status) (procstate : SigarProcState)
  | time (status : Status) (proctime : SigarProcTime)
  | mem (status : Status) (procmem : SigarProcMem)

def Answer.status : Answer → Status
  | .state status _ => status
  | .time status _ => status
  | .mem status _ => status

/-- The getter that the call asks for. -/
def getter (handle : LinuxHandle) (pstat : LinuxProcStat) (call : ProcCall) :
    LinuxProcStat × Answer :=
  match call.request with
  | .state others procstate =>
    let out := sigarProcStateGet handle pstat call.pid call.now call.stat others procstate
    (out.1, .state out.2.1 out.2.2)
  | .time proctime =>
    let out := sigarProcTimeGet handle pstat call.pid call.now call.stat proctime
    (out.1, .time out.2.1 out.2.2)
  | .mem statm procmem =>
    let out := sigarProcMemGet handle pstat call.pid call.now call.stat statm procmem
    (out.1, .mem out.2.1 out.2.2)

/-- A successful answer whose values from `last_proc_stat` are those of `pstat`. -/
def answerFrom (handle : LinuxHandle) (pstat : ProcStat) : Request → Answer
  | .state others procstate => .state sigarOk (fillState handle pstat others procstate)
  | .time _ => .time sigarOk (fillTime pstat)
  | .mem statm procmem =>
    .mem sigarOk (fillSizes handle (sigarProcFile2str bufsiz statm).2 (fillFaults pstat procmem))

abbrev LinuxRun := Run LinuxProcStat SigarPid ProcStat

/-- One call of a getter, with the trace of its `proc_stat_read`. -/
def linuxStep (handle : LinuxHandle) (run : LinuxRun) (call : ProcCall) : LinuxRun × Answer :=
  let out := getter handle run.code call
  let trace := ((procStatReader handle).step run call.pid call.now call.stat).1
  ({ trace with code := out.1 }, out.2)

/-- The text of /proc/<pid>/stat can be read and has a name in parentheses. -/
def StatReadable (handle : LinuxHandle) (stat : FileRead) : Prop :=
  (sigarProcFile2str bufsiz stat).1 = sigarOk ∧
    (parseProcStat handle (sigarProcFile2str bufsiz stat).2).isSome

/-- The clock does not go back. -/
def GetterClock (run : LinuxRun) (call : ProcCall) : Prop := run.clock ≤ call.now

/-- No hit on a slot whose read failed, and no `sigar_proc_mem_get` that goes on after a failed
    read of its own. -/
def GetterWhole (handle : LinuxHandle) (run : LinuxRun) (call : ProcCall) : Prop :=
  ((statSlot run.code).Hit sigarLastProcExpire call.pid call.now → run.whole = true) ∧
  match call.request with
  | .mem statm _ =>
    (sigarProcFile2str bufsiz statm).1 = sigarOk →
      (statSlot run.code).Hit sigarLastProcExpire call.pid call.now ∨ StatReadable handle call.stat
  | _ => True

/-- If the getter succeeds, all it takes from `last_proc_stat` was parsed from the file of its own
    pid, by a read that succeeded less than `SIGAR_LAST_PROC_EXPIRE` seconds ago. -/
def GetterFresh (handle : LinuxHandle) (run : LinuxRun) (call : ProcCall) : Prop :=
  (linuxStep handle run call).2.status = sigarOk →
    ∃ read ∈ (linuxStep handle run call).1.reads,
      read.key = call.pid ∧ read.time ≤ call.now ∧ call.now - read.time < sigarLastProcExpire ∧
      (linuxStep handle run call).2 = answerFrom handle read.payload call.request

theorem statRefill_error (handle : LinuxHandle) (old : ProcStat) (stat : FileRead) :
    (statRefill handle old stat).error? ≠ some sigarOk := by
  unfold statRefill
  by_cases hstatus : (sigarProcFile2str bufsiz stat).1 ≠ sigarOk
  · rw [if_pos hstatus]
    exact fun h => hstatus (Option.some.inj h)
  · rw [if_neg hstatus]
    cases parseProcStat handle (sigarProcFile2str bufsiz stat).2 with
    | none => show some einval ≠ some sigarOk; decide
    | some parsed => exact fun h => nomatch h

/-- `proc_stat_read` succeeds on a hit and on a readable file. -/
theorem procStatRead_ok {handle : LinuxHandle} {pstat : LinuxProcStat} {pid : SigarPid} {now : Int}
    {stat : FileRead}
    (h : (statSlot pstat).Hit sigarLastProcExpire pid now ∨ StatReadable handle stat) :
    (procStatRead handle pstat pid now stat).2 = sigarOk := by
  unfold procStatRead
  by_cases hhit : pstat.pid = pid ∧ now - pstat.mtime < sigarLastProcExpire
  · rw [if_pos hhit]
  · rw [if_neg hhit]
    obtain ⟨hstatus, hparse⟩ : StatReadable handle stat := h.resolve_left hhit
    obtain ⟨parsed, hparsed⟩ := Option.isSome_iff_exists.mp hparse
    simp [hstatus, hparsed]

/-- What a getter does, in terms of its `proc_stat_read`: it keeps its result, and if it succeeds
    after a read that succeeded, it answers from it. -/
theorem getter_spec (handle : LinuxHandle) (pstat : LinuxProcStat) (call : ProcCall) :
    (getter handle pstat call).1 = (procStatRead handle pstat call.pid call.now call.stat).1 ∧
    ((procStatRead handle pstat call.pid call.now call.stat).2 = sigarOk →
      (getter handle pstat call).2.status = sigarOk →
      (getter handle pstat call).2 = answerFrom handle
        (procStatRead handle pstat call.pid call.now call.stat).1.toProcStat call.request) := by
  unfold getter
  cases call.request with
  | state others procstate =>
    simp only [sigarProcStateGet]
    split
    · exact ⟨rfl, fun hread _ => absurd hread ‹_›⟩
    · exact ⟨rfl, fun _ _ => rfl⟩
  | time proctime =>
    simp only [sigarProcTimeGet]
    split
    · exact ⟨rfl, fun hread _ => absurd hread ‹_›⟩
    · exact ⟨rfl, fun _ _ => rfl⟩
  | mem statm procmem =>
    simp only [sigarProcMemGet]
    split
    · exact ⟨rfl, fun _ hok => absurd hok ‹_›⟩
    · exact ⟨rfl, fun _ _ => rfl⟩

/-- A getter that succeeds made a `proc_stat_read` that did. -/
theorem procStatRead_ok_of_getter {handle : LinuxHandle} {run : LinuxRun} {call : ProcCall}
    (hwhole : GetterWhole handle run call)
    (hok : (getter handle run.code call).2.status = sigarOk) :
    (procStatRead handle run.code call.pid call.now call.stat).2 = sigarOk := by
  obtain ⟨_, hmem⟩ := hwhole
  unfold getter at hok
  cases hreq : call.request with
  | state others procstate =>
    rw [hreq] at hok
    simp only [sigarProcStateGet] at hok
    split at hok
    · exact hok
    · exact not_not.mp ‹_›
  | time proctime =>
    rw [hreq] at hok
    simp only [sigarProcTimeGet] at hok
    split at hok
    · exact hok
    · exact not_not.mp ‹_›
  | mem statm procmem =>
    -- the status of the read is dropped here: the guard has to give it
    rw [hreq] at hok hmem
    simp only [sigarProcMemGet] at hok
    split at hok
    · exact absurd hok ‹_›
    · exact procStatRead_ok (hmem (not_not.mp ‹_›))

theorem linuxStep_run (handle : LinuxHandle) (run : LinuxRun) (call : ProcCall) :
    (linuxStep handle run call).1
      = ((procStatReader handle).step run call.pid call.now call.stat).1 := by
  show { ((procStatReader handle).step run call.pid call.now call.stat).1 with
    code := (getter handle run.code call).1 } = _
  rw [(getter_spec handle run.code call).1]
  rfl

/-- The step lemma of the getters. -/
theorem linuxStep_fresh {handle : LinuxHandle} {run : LinuxRun} {call : ProcCall}
    (hback : (procStatReader handle).Backed run) (hclock : GetterClock run call)
    (hwhole : GetterWhole handle run call) : GetterFresh handle run call := by
  intro hok
  have hread := procStatRead_ok_of_getter hwhole hok
  have hslot : (procStatReader handle).Whole run call.pid call.now call.stat :=
    ⟨hwhole.1, statRefill_error handle run.code.toProcStat call.stat⟩
  obtain ⟨read, hmem, hkey, htime, hexpire, hpayload⟩ :=
    CachedReader.step_fresh hback hclock hslot hread
  refine ⟨read, ?_, hkey, htime, hexpire, ?_⟩
  · rw [linuxStep_run]; exact hmem
  · rw [hpayload]
    exact (getter_spec handle run.code call).2 hread hok

/-- **Every success reports a recent read of its own process**, on the three systems, in every run
    where no call hits a slot whose read failed. -/
theorem lastProc_fresh (handle : LinuxHandle) (pstat : LinuxProcStat) (pinfo : SigarWin32Pinfo)
    {Psinfo : Type} (sigar : SolarisHandle Psinfo) (clock : Int) (linuxCalls : List ProcCall)
    (win32Calls : List (CachedReader.Call UInt32 (Except Status PerfObject)))
    (solarisCalls : List (CachedReader.Call SigarPid (PsinfoRead Psinfo))) :
    (Runs.Along (linuxStep handle) GetterClock (CachedReader.start pstat clock) linuxCalls →
      Runs.Along (linuxStep handle) (GetterWhole handle)
        (CachedReader.start pstat clock) linuxCalls →
      Runs.Along (linuxStep handle) (GetterFresh handle)
        (CachedReader.start pstat clock) linuxCalls) ∧
    (Runs.Along procInfoReader.callStep CachedReader.ClockForward
        (CachedReader.start pinfo clock) win32Calls →
      Runs.Along procInfoReader.callStep procInfoReader.CallWhole
        (CachedReader.start pinfo clock) win32Calls →
      Runs.Along procInfoReader.callStep procInfoReader.CallFresh
        (CachedReader.start pinfo clock) win32Calls) ∧
    (Runs.Along (psinfoReader Psinfo).callStep CachedReader.ClockForward
        (CachedReader.start sigar clock) solarisCalls →
      Runs.Along (psinfoReader Psinfo).callStep (psinfoReader Psinfo).CallWhole
        (CachedReader.start sigar clock) solarisCalls →
      Runs.Along (psinfoReader Psinfo).callStep (psinfoReader Psinfo).CallFresh
        (CachedReader.start sigar clock) solarisCalls) := by
  refine ⟨?_, procInfoReader.run_fresh pinfo clock win32Calls,
    (psinfoReader Psinfo).run_fresh sigar clock solarisCalls⟩
  intro hclock hwhole
  refine Runs.along_of_invariant ?_ linuxCalls _
    ((procStatReader handle).start_backed pstat clock) (hclock.and hwhole)
  intro run call hback hcall
  refine ⟨?_, linuxStep_fresh hback hcall.1 hcall.2⟩
  rw [linuxStep_run]
  exact CachedReader.step_backed hback hcall.1

/-! ## A run that meets the condition, and one that does not -/

def exampleHandle : LinuxHandle :=
  { ticks := 100, bootTime := 0, pagesize := 12, lcpu := 1, coreRollup := false }

/-- The slot of a new handle: `last_proc_stat.pid = -1`, over memory that was never written. -/
def exampleProcStat : LinuxProcStat :=
  { name := [], state := CString.nul, ppid := 0, tty := 0, minorFaults := 0, majorFaults := 0,
    utime := 0, stime := 0, priority := 0, nice := 0, startTime := 0, vsize := 0, rss := 0,
    processor := 0, pid := -1, mtime := 0 }

/-- A call of `sigar_proc_state_get` whose other files are missing. -/
def stateCall (pid : SigarPid) (now : Int) (stat : FileRead) : ProcCall :=
  { pid := pid
    now := now
    stat := stat
    request := .state ⟨(esrch, []), .noFile, (esrch, 0)⟩
      { name := [], state := CString.nul, ppid := 0, tty := 0, priority := 0, nice := 0,
        processor := 0, threads := 0, openFiles := 0 } }

/-- Process 1 is read, taken from the slot a second later, when it is gone, and process 2 is read. -/
def soundCalls : List ProcCall :=
  [stateCall 1 100 (.content "1 (init) S 0".toList), stateCall 1 101 .noFile,
    stateCall 2 101 (.content "2 (getty) R 1".toList)]

/-- The slot of a new win32 handle: `pinfo.pid = -1`. -/
def examplePinfo : SigarWin32Pinfo :=
  { state := CString.nul, name := [], size := 0, resident := 0, ppid := 0, priority := 0,
    handles := 0, threads := 0, pageFaults := 0, bytesRead := 0, bytesWritten := 0, pid := -1,
    mtime := 0 }

/-- The performance data name no process 2, and a second later they cannot be read. -/
def soundWin32Calls : List (CachedReader.Call UInt32 (Except Status PerfObject)) :=
  [⟨2, 100, .ok ⟨[], []⟩⟩, ⟨3, 101, .error 5⟩]

/-- Process 1 is read, and the second call takes it from the slot. -/
def soundSolarisCalls : List (CachedReader.Call SigarPid (PsinfoRead Char)) :=
  [⟨1, 100, .whole 'a'⟩, ⟨1, 101, .noFile⟩]

theorem lastProc_fresh_example :
    Runs.Along (linuxStep exampleHandle) (GetterFresh exampleHandle)
      (CachedReader.start exampleProcStat 100) soundCalls ∧
    Runs.Along procInfoReader.callStep procInfoReader.CallFresh
      (CachedReader.start examplePinfo 100) soundWin32Calls ∧
    Runs.Along (psinfoReader Char).callStep (psinfoReader Char).CallFresh
      (CachedReader.start ⟨-1, 0, 'x'⟩ 100) soundSolarisCalls := by
  obtain ⟨linux, win32, solaris⟩ := lastProc_fresh exampleHandle exampleProcStat examplePinfo
    ⟨-1, 0, 'x'⟩ 100 soundCalls soundWin32Calls soundSolarisCalls
  refine ⟨linux ?_ ?_, win32 ?_ ?_, solaris ?_ ?_⟩
  · refine ⟨?_, ?_, ?_, trivial⟩
    · show (100 : Int) ≤ 100; decide
    · show (100 : Int) ≤ 101; decide
    · show (101 : Int) ≤ 101; decide
  · -- the second call is a hit, of a slot that is whole
    refine ⟨⟨?_, trivial⟩, ⟨fun _ => ?_, trivial⟩, ⟨?_, trivial⟩, trivial⟩
    · rintro ⟨hkey, _⟩; exact absurd hkey (by decide)
    · decide +kernel
    · rintro ⟨hkey, _⟩; exact absurd hkey (by decide +kernel)
  · refine ⟨?_, ?_, trivial⟩
    · show (100 : Int) ≤ 100; decide
    · show (100 : Int) ≤ 101; decide
  · refine ⟨⟨?_, by decide⟩, ⟨?_, by decide⟩, trivial⟩
    · rintro ⟨hkey, _⟩; exact absurd hkey (by decide)
    · rintro ⟨hkey, _⟩; exact absurd hkey (by decide)
  · refine ⟨?_, ?_, trivial⟩
    · show (100 : Int) ≤ 100; decide
    · show (100 : Int) ≤ 101; decide
  · refine ⟨⟨?_, by decide⟩, ⟨fun _ => rfl, by decide⟩, trivial⟩
    rintro ⟨hkey, _⟩; exact absurd hkey (by decide)

/-- Process 1 is read, process 2 is gone, and process 2 is asked for again a second later. -/
def staleCalls : List ProcCall :=
  [stateCall 1 100 (.content "1 (init) S 0".toList), stateCall 2 100 .noFile,
    stateCall 2 101 .noFile]

/-- The name that an answer of `sigar_proc_state_get` reports, with its status. -/
def Answer.reportedName : Answer → Status × List Char
  | .state status procstate => (status, procstate.name)
  | answer => (answer.status, [])

/-- **A failed read is followed by a success with the data of another process**: the second call
    returns `ESRCH` for process 2, the third one `SIGAR_OK` with the name of process 1. -/
theorem lastProc_stale :
    Runs.Along (linuxStep exampleHandle) GetterClock
      (CachedReader.start exampleProcStat 100) staleCalls ∧
    (Runs.exec (linuxStep exampleHandle) (CachedReader.start exampleProcStat 100)
        staleCalls).2.map Answer.reportedName
      = [(sigarOk, "init".toList), (esrch, []), (sigarOk, "init".toList)] ∧
    ¬ Runs.Along (linuxStep exampleHandle) (GetterFresh exampleHandle)
      (CachedReader.start exampleProcStat 100) staleCalls := by
  refine ⟨⟨?_, ?_, ?_, trivial⟩, by decide, ?_⟩
  · show (100 : Int) ≤ 100; decide
  · show (100 : Int) ≤ 100; decide
  · show (100 : Int) ≤ 101; decide
  · rintro ⟨_, _, hthird, _⟩
    -- the only read that ever succeeded was for process 1
    obtain ⟨read, hmem, hkey, _⟩ := hthird rfl
    have hkeys : ((Runs.exec (linuxStep exampleHandle)
        (CachedReader.start exampleProcStat 100) staleCalls).1.reads.all
          fun read => decide (read.key = 1)) = true := by decide
    have hone : read.key = 1 := of_decide_eq_true (List.all_eq_true.mp hkeys read hmem)
    rw [hkey] at hone
    exact absurd hone (by decide)

end Sigar.LastProc
