/-
  The structure that `sigar_proc_state_get` fills.

  Source: `sigar_proc_state_get`, `proc_status_get` and `sigar_proc_fd_get` of
  `os/linux/linux_sigar.c`, `sigar_proc_fd_count` and `sigar_procfs_args_get` of `sigar_util.c`.

  The structure is filled from four places.  The fields of /proc/<pid>/stat are always written, and
  the name too, with or without /proc/<pid>/cmdline.  But `threads` is NOT written where
  /proc/<pid>/status cannot be read, and `open_files` not where /proc/<pid>/fd cannot be opened: the
  statuses of both are dropped, and the call returns `SIGAR_OK`.

  1. **One call** (`get_eq_ok_iff`): a call that returns `SIGAR_OK` returns `fillState` of what the
     caller's structure held.
  2. **Two calls** (`state_allSet_iff`): the result is the same for all structures exactly if both
     can be read.
-/
import Sigar.Cpu.Rollup
import Sigar.Proc.Args

namespace Sigar.Proc.State

open CString LastProc Cpu Proc.Args

variable {state : CpuState} {status : Status} {out : SigarProcState}

/-! ## The program -/

/-- What a process shows besides /proc/<pid>/stat. -/
structure ProcFiles where
  cmdline : Except Status (List Text)  -- the `errno` of `open`, or what each `read` returns
  status : FileRead
  fd : Except Status (List Text)       -- the `errno` of `opendir`, or the names
  errno : ∀ e, fd = .error e → e ≠ sigarOk

/-- `sigar_proc_fd_count`: the status and `*total`. -/
def sigarProcFdCount (fd : Except Status (List Text)) : Status × UInt64 :=
  match fd with
  | .error errno => (errno, 0)
  | .ok names => (sigarOk, UInt64.ofNat (names.countP fun name => (deref name).isDigit))

/-- `sigar_proc_fd_get`. -/
def sigarProcFdGet (fd : Except Status (List Text)) : Status × UInt64 := sigarProcFdCount fd

/-- A call: the system, the handle, the process and the time. -/
structure StateCall where
  host : CpuHost
  state : CpuState
  pid : SigarPid
  timenow : Int
  files : ProcFiles

/-- The handle as `proc_stat_read` sees it. -/
def StateCall.handle (call : StateCall) : LinuxHandle :=
  let rolled := sigarCpuCoreRollup call.host call.state
  call.host.handle rolled.1.lcpu rolled.2

/-- What `proc_stat_read` leaves in the handle, and its status. -/
def StateCall.stat (call : StateCall) : LinuxProcStat × Status :=
  procStatRead call.handle call.state.lastProcStat call.pid call.timenow
    (call.host.procStat call.pid)

/-- `sigar_procfs_args_get`, which is called for a name of 15 characters. -/
def StateCall.args (call : StateCall) : Except ArgsFault (Status × List Text) :=
  if call.stat.2 = sigarOk ∧ call.stat.1.name.length = 15 then
    (sigarProcfsArgsGet call.files.cmdline ⟨0, []⟩).map fun r => (r.1, r.2.data)
  else .ok (sigarOk, [])

/-- `sigar_proc_state_get` on the caller's structure. -/
def StateCall.get (call : StateCall) (procstate : SigarProcState) :
    Except ArgsFault (CpuState × Status × SigarProcState) :=
  call.args.map fun args =>
    procStateGet call.host call.state call.pid call.timenow
      ⟨args, call.files.status, sigarProcFdGet call.files.fd⟩ procstate

/-! ## What is promised -/

/-- There is no number of threads: the file cannot be read, or does not say. -/
def StateCall.NoThreads (call : StateCall) : Prop :=
  (sigarProcFile2str bufsiz call.files.status).1 ≠ sigarOk ∨
    strstr (sigarProcFile2str bufsiz call.files.status).2 "\nThreads:".toList = none

/-- There is no number of descriptors. -/
def StateCall.NoFd (call : StateCall) : Prop := ∃ errno, call.files.fd = .error errno

/-- **Every field is set** by a call that returns `SIGAR_OK`: whatever the caller's structure holds,
    the result is the same, with `SIGAR_FIELD_NOTIMPL` for what is not known. -/
structure AllSet (call : StateCall) : Prop where
  equal : ∀ before before' state out, call.get before = .ok (state, sigarOk, out) →
    call.get before' = .ok (state, sigarOk, out)
  threads : ∀ before state out, call.get before = .ok (state, sigarOk, out) → call.NoThreads →
    out.threads = sigarFieldNotImpl
  openFiles : ∀ before state out, call.get before = .ok (state, sigarOk, out) → call.NoFd →
    out.openFiles = sigarFieldNotImpl

/-- The call gets as far as the structure. -/
def StateCall.Returns (call : StateCall) : Prop :=
  call.stat.2 = sigarOk ∧ ∃ args, call.args = .ok args

/-- The two files can be read. -/
structure StateCall.Readable (call : StateCall) : Prop where
  status : (sigarProcFile2str bufsiz call.files.status).1 = sigarOk
  fd : ∃ names, call.files.fd = .ok names

/-! ## One call -/

variable {call : StateCall} {before : SigarProcState}

/-- What a call that gets as far as the structure writes. -/
def StateCall.filled (call : StateCall) (args : Status × List Text)
    (before : SigarProcState) : SigarProcState :=
  fillState call.handle call.stat.1.toProcStat
    ⟨args, call.files.status, sigarProcFdGet call.files.fd⟩ before

/-- What it leaves in the handle. -/
def StateCall.after (call : StateCall) : CpuState :=
  { (sigarCpuCoreRollup call.host call.state).1 with lastProcStat := call.stat.1 }

theorem get_of_returns (hstat : call.stat.2 = sigarOk) {args : Status × List Text}
    (hargs : call.args = .ok args) (before : SigarProcState) :
    call.get before = .ok (call.after, sigarOk, call.filled args before) := by
  have hread : procStatRead call.handle call.state.lastProcStat call.pid call.timenow
      (call.host.procStat call.pid) = (call.stat.1, sigarOk) := by
    rw [← hstat]
    rfl
  have hget : sigarProcStateGet call.handle call.state.lastProcStat call.pid call.timenow
      (call.host.procStat call.pid) ⟨args, call.files.status, sigarProcFdGet call.files.fd⟩ before
      = (call.stat.1, sigarOk, call.filled args before) := by
    rw [sigarProcStateGet, hread]
    rfl
  have hcall : procStateGet call.host call.state call.pid call.timenow
      ⟨args, call.files.status, sigarProcFdGet call.files.fd⟩ before
      = (call.after, sigarOk, call.filled args before) := by
    unfold procStateGet
    unfold StateCall.handle at hget
    dsimp only
    rw [hget]
    rfl
  rw [StateCall.get, hargs]
  exact congrArg Except.ok hcall

/-- The status is the one of `proc_stat_read`. -/
theorem sigarProcStateGet_status (handle : LinuxHandle) (pstat : LinuxProcStat) (pid : SigarPid)
    (timenow : Int) (stat : FileRead) (others : StateInputs) (before : SigarProcState) :
    (sigarProcStateGet handle pstat pid timenow stat others before).2.1 =
      (procStatRead handle pstat pid timenow stat).2 := by
  unfold sigarProcStateGet
  dsimp only
  split
  · rfl
  · next hok => exact (not_not.mp hok).symm

@[inherit_doc sigarProcStateGet_status] theorem get_status
    (h : call.get before = .ok (state, status, out)) : status = call.stat.2 := by
  obtain ⟨args, -, hget⟩ := Fallible.map_eq_ok_iff.mp h
  have hstatus := congrArg (fun r : CpuState × Status × SigarProcState => r.2.1) hget
  exact hstatus.symm.trans (sigarProcStateGet_status _ _ _ _ _ _ _)

/-- **A call that returns `SIGAR_OK`.** -/
theorem get_eq_ok_iff :
    call.get before = .ok (state, sigarOk, out) ↔
      call.stat.2 = sigarOk ∧ ∃ args, call.args = .ok args ∧ state = call.after ∧
        out = call.filled args before := by
  constructor
  · intro h
    obtain ⟨args, hargs, -⟩ := Fallible.map_eq_ok_iff.mp h
    have hstat : call.stat.2 = sigarOk := (get_status h).symm
    rw [get_of_returns hstat hargs] at h
    obtain ⟨hstate, hout⟩ := Prod.mk.inj (Except.ok.inj h)
    exact ⟨hstat, args, hargs, hstate.symm, (Prod.mk.inj hout).2.symm⟩
  · grind [get_of_returns]

/-! ## The two fields -/

theorem filled_threads (args : Status × List Text) :
    (call.filled args before).threads = (procStatusGet call.files.status).getD before.threads := rfl

theorem filled_openFiles (args : Status × List Text) :
    (call.filled args before).openFiles =
      if (sigarProcFdGet call.files.fd).1 = sigarOk then (sigarProcFdGet call.files.fd).2
      else before.openFiles := rfl

theorem procStatusGet_none (h : (sigarProcFile2str bufsiz call.files.status).1 ≠ sigarOk) :
    procStatusGet call.files.status = none := by
  unfold procStatusGet
  exact if_pos h

theorem procStatusGet_some (h : (sigarProcFile2str bufsiz call.files.status).1 = sigarOk) :
    ∃ threads, procStatusGet call.files.status = some threads ∧
      (call.NoThreads → threads = sigarFieldNotImpl) := by
  unfold procStatusGet
  dsimp only
  rw [if_neg fun hne => hne h]
  cases hfound : strstr (sigarProcFile2str bufsiz call.files.status).2 "\nThreads:".toList with
  | none => exact ⟨_, rfl, fun _ => rfl⟩
  | some ptr =>
    refine ⟨_, rfl, fun hno => ?_⟩
    rcases hno with hstatus | hnone
    · exact absurd h hstatus
    · exact absurd (hfound.symm.trans hnone) (Option.some_ne_none ptr)

theorem fdGet_ok_iff : (sigarProcFdGet call.files.fd).1 = sigarOk ↔
    ∃ names, call.files.fd = .ok names := by
  cases hfd : call.files.fd with
  | error errno =>
    refine iff_of_false (call.files.errno errno hfd) ?_
    rintro ⟨names, hnames⟩
    cases hnames
  | ok names => exact iff_of_true rfl ⟨names, rfl⟩

/-- **The structure does not matter**, where both files can be read. -/
theorem filled_eq (h : call.Readable) (args : Status × List Text)
    (before before' : SigarProcState) : call.filled args before = call.filled args before' := by
  obtain ⟨threads, hthreads, -⟩ := procStatusGet_some h.status
  have hfd : (sigarProcFdGet call.files.fd).1 = sigarOk := fdGet_ok_iff.mpr h.fd
  unfold StateCall.filled fillState
  simp only [hthreads, Option.getD_some, if_pos hfd]

/-! ## Every field -/

/-- A structure with these two fields. -/
def holding (threads openFiles : UInt64) : SigarProcState where
  name := []
  state := nul
  ppid := 0
  tty := 0
  priority := 0
  nice := 0
  processor := 0
  threads := threads
  openFiles := openFiles

theorem allSet_of_readable (h : call.Readable) : AllSet call where
  equal before before' state out hget := by
    obtain ⟨hstat, args, hargs, rfl, rfl⟩ := get_eq_ok_iff.mp hget
    rw [get_of_returns hstat hargs, filled_eq h args before' before]
  threads before state out hget hno := by
    obtain ⟨-, args, -, -, rfl⟩ := get_eq_ok_iff.mp hget
    obtain ⟨threads, hthreads, hnone⟩ := procStatusGet_some h.status
    rw [filled_threads, hthreads]
    exact hnone hno
  openFiles before state out hget hno := by
    obtain ⟨names, hnames⟩ := h.fd
    obtain ⟨errno, herrno⟩ := hno
    cases hnames.symm.trans herrno

/-- A call that does not get as far as the structure never returns `SIGAR_OK`. -/
theorem allSet_of_not_returns (h : ¬ call.Returns) : AllSet call := by
  have hnever : ∀ before state out, call.get before ≠ .ok (state, sigarOk, out) := by
    intro before state out hget
    obtain ⟨hstat, args, hargs, -⟩ := get_eq_ok_iff.mp hget
    exact h ⟨hstat, args, hargs⟩
  exact ⟨fun before _ state out hget => absurd hget (hnever before state out),
    fun before state out hget => absurd hget (hnever before state out),
    fun before state out hget => absurd hget (hnever before state out)⟩

/-- **Every field is set exactly if both files can be read**, for a call that gets as far as the
    structure. -/
theorem state_allSet_iff (call : StateCall) : AllSet call ↔ (call.Returns → call.Readable) := by
  constructor
  · rintro hall ⟨hstat, args, hargs⟩
    -- a structure of zeros shows which field was not written
    have hget := get_of_returns hstat hargs (holding 0 0)
    constructor
    · by_contra hstatus
      have hthreads := hall.threads _ _ _ hget (.inl hstatus)
      rw [filled_threads, procStatusGet_none hstatus] at hthreads
      exact absurd hthreads (by decide)
    · by_contra hfd
      have hopen := hall.openFiles _ _ _ hget (by
        cases hnames : call.files.fd with
        | error errno => exact ⟨errno, hnames⟩
        | ok names => exact absurd ⟨names, hnames⟩ hfd)
      rw [filled_openFiles, if_neg fun hok => hfd (fdGet_ok_iff.mp hok)] at hopen
      exact absurd hopen (by decide)
  · intro h
    by_cases hreturns : call.Returns
    · exact allSet_of_readable (h hreturns)
    · exact allSet_of_not_returns hreturns

/-! ## A process that is gone -/

/-- The handle has read the process 7 a second ago, and it has ended since. -/
def endedCall : StateCall where
  host := twinHost
  state := { openedAt 0 with lastProcStat := ⟨(openedAt 0).lastProcStat.toProcStat, 7, 100⟩ }
  pid := 7
  timenow := 101
  files := ⟨.error enoent, .noFile, .error enoent, by
    intro e h
    obtain rfl := Except.error.inj h
    decide⟩

/-- `SIGAR_OK`, with the numbers of threads and of descriptors of the process before. -/
theorem endedCall_keeps :
    (∃ state out, endedCall.get (holding 3 5) = .ok (state, sigarOk, out) ∧
      out.threads = 3 ∧ out.openFiles = 5) ∧ ¬ AllSet endedCall := by
  have hget : ∀ before, endedCall.get before =
      .ok (endedCall.after, sigarOk, endedCall.filled (sigarOk, []) before) :=
    get_of_returns rfl rfl
  refine ⟨⟨_, _, hget (holding 3 5), rfl, rfl⟩, fun hall => ?_⟩
  have hthreads := hall.threads _ _ _ (hget (holding 3 5)) (.inl (by decide))
  exact absurd hthreads (by decide)

end Sigar.Proc.State
