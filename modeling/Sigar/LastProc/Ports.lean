/-
  The same one-entry cache on two other systems.

  Source: `get_proc_info` of `os/win32/win32_sigar.c` and `sigar_proc_psinfo_get` of
  `os/solaris/procfs.c`.  On win32 a failure to get the performance data comes before the key is
  written, and only a process that is not in it fails after; on Solaris every failure comes after.
-/
import Sigar.LastProc.Linux

namespace Sigar.LastProc

/-! ## win32 -/

/-- `SIGAR_NO_SUCH_PROCESS`, that is `SIGAR_OS_START_ERROR + 1`. -/
def sigarNoSuchProcess : Status := 40001

/-- The title indexes of the counters that `get_proc_info` reads. -/
inductive PerfTitle where
  | pageFaults | memVsize | memSize | threadCnt | handleCnt | pid | ppid | priority
  | ioReadBytesSec | ioWriteBytesSec
  deriving DecidableEq

/-- `CounterNameTitleIndex` of the counter. -/
def PerfTitle.index : PerfTitle → Nat
  | .pageFaults => 28
  | .memVsize => 174
  | .memSize => 180
  | .threadCnt => 680
  | .handleCnt => 952
  | .pid => 784
  | .ppid => 1410
  | .priority => 682
  | .ioReadBytesSec => 1420
  | .ioWriteBytesSec => 1422

/-- A `PERF_COUNTER_DEFINITION`. -/
structure PerfCounter where
  titleIndex : Nat
  offset : Nat

/-- A `PERF_INSTANCE_DEFINITION`: its name, and its counter block read at an offset. -/
structure PerfInstance where
  name : List Char
  dword : Nat → UInt32
  qword : Nat → UInt64

/-- A `PERF_OBJECT_TYPE`. -/
structure PerfObject where
  counters : List PerfCounter
  instances : List PerfInstance

/-- The entry of `perf_offsets` for a title: the offset of the last counter that has it, 0
    without one. -/
def perfOffset (counters : List PerfCounter) (title : PerfTitle) : Nat :=
  counters.foldl (fun offset c => if c.titleIndex = title.index then c.offset else offset) 0

/-- `PERF_VAL`. -/
def perfVal (counters : List PerfCounter) (inst : PerfInstance) (title : PerfTitle) : UInt32 :=
  if perfOffset counters title ≠ 0 then inst.dword (perfOffset counters title) else 0

/-- `PERF_VAL64`. -/
def perfVal64 (counters : List PerfCounter) (inst : PerfInstance) (title : PerfTitle) : UInt64 :=
  if perfOffset counters title ≠ 0 then inst.qword (perfOffset counters title) else 0

/-- The fields of `sigar_win32_pinfo_t` that are read from the performance data. -/
structure Pinfo where
  state : Char
  name : List Char
  size : UInt64
  resident : UInt64
  ppid : Int32
  priority : Int32
  handles : UInt64
  threads : UInt64
  pageFaults : UInt64
  bytesRead : UInt64
  bytesWritten : UInt64

/-- `sigar_win32_pinfo_t`; a pid has 32 unsigned bits there. -/
structure SigarWin32Pinfo extends Pinfo where
  pid : UInt32
  mtime : Int

def pinfoOf (counters : List PerfCounter) (inst : PerfInstance) : Pinfo :=
  { state := 'R'
    name := inst.name.take (sigarProcNameLen - 1)
    size := perfVal64 counters inst .memVsize
    resident := perfVal64 counters inst .memSize
    ppid := (perfVal counters inst .ppid).toInt32
    priority := (perfVal counters inst .priority).toInt32
    handles := (perfVal counters inst .handleCnt).toUInt64
    threads := (perfVal counters inst .threadCnt).toUInt64
    pageFaults := (perfVal counters inst .pageFaults).toUInt64
    bytesRead := (perfVal counters inst .ioReadBytesSec).toUInt64
    bytesWritten := (perfVal counters inst .ioWriteBytesSec).toUInt64 }

/-- The loop over the instances: the first one with the pid. -/
def findInstance (object : PerfObject) (pid : UInt32) : Option PerfInstance :=
  object.instances.find? fun inst => perfVal object.counters inst .pid = pid

/-- `get_proc_info`, where `object` is what `get_process_object` returns. -/
def getProcInfo (pinfo : SigarWin32Pinfo) (pid : UInt32) (timenow : Int)
    (object : Except Status PerfObject) : SigarWin32Pinfo × Status :=
  if pinfo.pid = pid ∧ timenow - pinfo.mtime < sigarLastProcExpire then (pinfo, sigarOk)
  else match object with
    | .error err => (pinfo, err)
    | .ok object =>
      match findInstance object pid with
      | none => ({ pinfo with pid := pid, mtime := timenow }, sigarNoSuchProcess)
      | some inst =>
        ({ pinfoOf object.counters inst with pid := pid, mtime := timenow }, sigarOk)

/-! ## Solaris -/

/-- What opening and reading /proc/<pid>/psinfo comes to.  A short `pread` may have written a
    part of the structure, and what `errno` then is need not come from it. -/
inductive PsinfoRead (Psinfo : Type) where
  | noFile
  | short (errno : Status) (left : Psinfo)
  | whole (psinfo : Psinfo)

/-- The part of the Solaris handle that `sigar_proc_psinfo_get` uses. -/
structure SolarisHandle (Psinfo : Type) where
  lastPid : SigarPid
  lastGetprocs : Int
  pinfo : Psinfo

/-- `sigar_proc_psinfo_get`. -/
def sigarProcPsinfoGet {Psinfo : Type} (sigar : SolarisHandle Psinfo) (pid : SigarPid)
    (timenow : Int) (file : PsinfoRead Psinfo) : SolarisHandle Psinfo × Status :=
  if sigar.lastPid = pid ∧ timenow - sigar.lastGetprocs < sigarLastProcExpire then
    (sigar, sigarOk)
  else
    let sigar := { sigar with lastPid := pid, lastGetprocs := timenow }
    match file with
    | .noFile => (sigar, esrch)
    | .short errno left => ({ sigar with pinfo := left }, errno)
    | .whole psinfo => ({ sigar with pinfo := psinfo }, sigarOk)

end Sigar.LastProc
