/-
  The Linux process getters that share the last parsed /proc/<pid>/stat.

  Source: `proc_stat_read`, `sigar_proc_state_get`, `sigar_proc_time_get` and
  `sigar_proc_mem_get` of `os/linux/linux_sigar.c`.

  `proc_stat_read` keeps its last result in the handle for `SIGAR_LAST_PROC_EXPIRE` seconds.  The
  clock and every file are inputs of a call: `stat` is what /proc/<pid>/stat gives IF the call
  reads it.
-/
import Sigar.Util

namespace Sigar.LastProc

open CString

/-- `SIGAR_LAST_PROC_EXPIRE`, in seconds. -/
def sigarLastProcExpire : Int := 2

/-- `SIGAR_PROC_NAME_LEN`. -/
def sigarProcNameLen : Nat := 128

/-- What the getters read of the handle, next to `last_proc_stat`. -/
structure LinuxHandle where
  ticks : Int32
  bootTime : UInt64
  pagesize : UInt64  -- a shift
  lcpu : Int32
  coreRollup : Bool  -- what `sigar_cpu_core_rollup` returns

/-- The fields of `linux_proc_stat_t` that are parsed from the file. -/
structure ProcStat where
  name : Text
  state : Char
  ppid : UInt64
  tty : Int32
  minorFaults : UInt64
  majorFaults : UInt64
  utime : UInt64
  stime : UInt64
  priority : Int32
  nice : Int32
  startTime : UInt64
  vsize : UInt64
  rss : UInt64
  processor : Int32

/-- `linux_proc_stat_t`. -/
structure LinuxProcStat extends ProcStat where
  pid : SigarPid
  mtime : Int

/-- `SIGAR_TICK2MSEC`: the quotient is a `double`. -/
def sigarTick2msec (handle : LinuxHandle) (s : UInt64) : UInt64 :=
  (s.toFloat * (1000.0 / Float.ofInt handle.ticks.toInt)).toUInt64

/-- `pageshift`. -/
def pageshift (handle : LinuxHandle) (x : UInt64) : UInt64 := x <<< handle.pagesize

/-- An `unsigned long` stored in an `int`. -/
def toInt (x : UInt64) : Int32 := x.toUInt32.toInt32

/-! ## `proc_stat_read` -/

/-- The fields after the name, parsed from what follows the `)`. -/
def parseAfterName (handle : LinuxHandle) (name : Text) (text : Text) : ProcStat :=
  let ptr := text.dropWhile isSpace
  let state := deref ptr                                      -- (3)
  let ptr := ptr.tail.dropWhile isSpace
  let ppid := strtoull ptr                                    -- (4)
  let tty := strtoull (sigarSkipMultipleToken ppid.rest 2)    -- (7) after pgrp, session
  let minflt := strtoull (sigarSkipMultipleToken tty.rest 2)  -- (10) after tty pgrp, flags
  let majflt := strtoull (sigarSkipToken minflt.rest)         -- (12) after cmin flt
  let utime := strtoull (sigarSkipToken majflt.rest)          -- (14) after cmaj flt
  let stime := strtoull utime.rest                            -- (15)
  let priority := strtoull (sigarSkipMultipleToken stime.rest 2) -- (18) after cutime, cstime
  let nice := strtoull priority.rest                          -- (19)
  let start := strtoull (sigarSkipMultipleToken nice.rest 2)  -- (22) after timeout, it_real_value
  let vsize := strtoull start.rest                            -- (23)
  let rss := strtoull vsize.rest                              -- (24)
  let processor := strtoull (sigarSkipMultipleToken rss.rest 14) -- (39) after rlim .. exit_signal
  { name := name
    state := state
    ppid := ppid.value
    tty := toInt tty.value
    minorFaults := minflt.value
    majorFaults := majflt.value
    utime := sigarTick2msec handle utime.value
    stime := sigarTick2msec handle stime.value
    priority := toInt priority.value
    nice := toInt nice.value
    startTime := (start.value / handle.ticks.toInt64.toUInt64 + handle.bootTime) * 1000
    vsize := vsize.value
    rss := pageshift handle rss.value
    processor := toInt processor.value }

/-- The text between the first `(` and the last `)` is the name, cut to what `name` can hold;
    `none` is the `EINVAL` of a text without them. -/
def parseProcStat (handle : LinuxHandle) (buffer : Text) : Option ProcStat :=
  match strchr buffer '(' with
  | none => none
  | some paren =>
    let ptr := paren.tail
    match strrchr ptr ')' with
    | none => none
    | some tmp =>
      let len := ptr.length - tmp.length
      let len := if sigarProcNameLen ≤ len then sigarProcNameLen - 1 else len
      some (parseAfterName handle (ptr.take len) tmp.tail)

/-- `proc_stat_read`.  The key is written BEFORE the file is read. -/
def procStatRead (handle : LinuxHandle) (pstat : LinuxProcStat) (pid : SigarPid) (timenow : Int)
    (stat : FileRead) : LinuxProcStat × Status :=
  if pstat.pid = pid ∧ timenow - pstat.mtime < sigarLastProcExpire then (pstat, sigarOk)
  else
    let pstat := { pstat with pid := pid, mtime := timenow }
    let (status, buffer) := sigarProcFile2str bufsiz stat
    if status ≠ sigarOk then (pstat, status)
    else match parseProcStat handle buffer with
      | none => (pstat, einval)
      | some parsed => ({ parsed with pid := pid, mtime := timenow }, sigarOk)

/-! ## The getters -/

/-- `sigar_proc_state_t`. -/
structure SigarProcState where
  name : Text
  state : Char
  ppid : SigarPid
  tty : Int32
  priority : Int32
  nice : Int32
  processor : Int32
  threads : UInt64
  openFiles : UInt64

/-- `sigar_proc_time_t`. -/
structure SigarProcTime where
  startTime : UInt64
  user : UInt64
  sys : UInt64
  total : UInt64
  deriving DecidableEq

/-- `sigar_proc_mem_t`. -/
structure SigarProcMem where
  size : UInt64
  resident : UInt64
  share : UInt64
  minorFaults : UInt64
  majorFaults : UInt64
  pageFaults : UInt64
  deriving DecidableEq

/-- What `sigar_proc_state_get` reads besides `last_proc_stat`: the arguments
    (`sigar_procfs_args_get`), /proc/<pid>/status and the descriptor count
    (`sigar_proc_fd_get`). -/
structure StateInputs where
  args : Status × List Text
  status : FileRead
  fd : Status × UInt64

/-- `proc_status_get`, for the one field it sets: `none` leaves it as it was. -/
def procStatusGet (file : FileRead) : Option UInt64 :=
  let (status, buffer) := sigarProcFile2str bufsiz file
  if status ≠ sigarOk then none
  else match strstr buffer "\nThreads:".toList with
    | some ptr => some (strtoull (sigarSkipToken ptr)).value
    | none => some sigarFieldNotImpl

/-- The name that `sigar_proc_state_get` reports: a name of 15 characters may have been cut by
    the kernel, and the first argument is taken instead when there is one. -/
def procName (name : Text) (args : Status × List Text) : Text :=
  if name.length = 15 ∧ args.1 = sigarOk then args.2.headD name else name

/-- What `sigar_proc_state_get` writes once `proc_stat_read` has succeeded. -/
def fillState (handle : LinuxHandle) (pstat : ProcStat) (others : StateInputs)
    (procstate : SigarProcState) : SigarProcState :=
  { name := (procName pstat.name others.args).take (sigarProcNameLen - 1)
    state := pstat.state
    ppid := toInt pstat.ppid
    tty := pstat.tty
    priority := pstat.priority
    nice := pstat.nice
    processor := if handle.coreRollup then pstat.processor / handle.lcpu else pstat.processor
    threads := (procStatusGet others.status).getD procstate.threads
    openFiles := if others.fd.1 = sigarOk then others.fd.2 else procstate.openFiles }

def sigarProcStateGet (handle : LinuxHandle) (pstat : LinuxProcStat) (pid : SigarPid)
    (timenow : Int) (stat : FileRead) (others : StateInputs) (procstate : SigarProcState) :
    LinuxProcStat × Status × SigarProcState :=
  let (pstat, status) := procStatRead handle pstat pid timenow stat
  if status ≠ sigarOk then (pstat, status, procstate)
  else (pstat, sigarOk, fillState handle pstat.toProcStat others procstate)

/-- What `sigar_proc_time_get` writes. -/
def fillTime (pstat : ProcStat) : SigarProcTime :=
  { startTime := pstat.startTime
    user := pstat.utime
    sys := pstat.stime
    total := pstat.utime + pstat.stime }

def sigarProcTimeGet (handle : LinuxHandle) (pstat : LinuxProcStat) (pid : SigarPid)
    (timenow : Int) (stat : FileRead) (proctime : SigarProcTime) :
    LinuxProcStat × Status × SigarProcTime :=
  let (pstat, status) := procStatRead handle pstat pid timenow stat
  if status ≠ sigarOk then (pstat, status, proctime)
  else (pstat, sigarOk, fillTime pstat.toProcStat)

/-- The three fault counts of `sigar_proc_mem_get`. -/
def fillFaults (pstat : ProcStat) (procmem : SigarProcMem) : SigarProcMem :=
  { procmem with
    minorFaults := pstat.minorFaults
    majorFaults := pstat.majorFaults
    pageFaults := pstat.minorFaults + pstat.majorFaults }

/-- The three sizes, from /proc/<pid>/statm. -/
def fillSizes (handle : LinuxHandle) (buffer : Text) (procmem : SigarProcMem) :
    SigarProcMem :=
  let size := strtoull buffer
  let resident := strtoull size.rest
  let share := strtoull resident.rest
  { procmem with
    size := pageshift handle size.value
    resident := pageshift handle resident.value
    share := pageshift handle share.value }

/-- `sigar_proc_mem_get`.  The status of `proc_stat_read` is OVERWRITTEN by the one of the next
    read, so the faults are copied whether or not they were read. -/
def sigarProcMemGet (handle : LinuxHandle) (pstat : LinuxProcStat) (pid : SigarPid)
    (timenow : Int) (stat statm : FileRead) (procmem : SigarProcMem) :
    LinuxProcStat × Status × SigarProcMem :=
  let (pstat, _) := procStatRead handle pstat pid timenow stat
  let procmem := fillFaults pstat.toProcStat procmem
  let (status, buffer) := sigarProcFile2str bufsiz statm
  if status ≠ sigarOk then (pstat, status, procmem)
  else (pstat, sigarOk, fillSizes handle buffer procmem)

end Sigar.LastProc
