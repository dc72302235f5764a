/-
  The use of a disk (linux_sigar.c): the three back ends, and what is derived from two samples.

  `get_iostat_proc_dstat` reads /proc/diskstats, `get_iostat_procp` /proc/partitions and
  `get_iostat_sys` a file under /sys/block.  `sigar_disk_usage_get` takes the sample of one of them,
  derives the service time and the queue from the differences to the sample before, and keeps the
  sample in the device.  For a partition the sample is the one of the disk: the row of the same
  major number with the minor number 0 that came before its own.

  A double is an exact rational number here, and `none` is one that is no number or infinite.
-/
import Sigar.Disk.Iodev
import Sigar.Lib.Numerals
import Mathlib.Data.Rat.Floor

namespace Sigar.Disk

open CString Numerals Cache

/-- `ENXIO`. -/
def enxio : Status := 6

/-- `ST_MAJOR`. -/
def stMajor (rdev : UInt64) : UInt32 :=
  let high : UInt64 := (rdev >>> 31 >>> 1) &&& 0xfffff000
  let low : UInt64 := (rdev >>> 8) &&& 0x00000fff
  (high ||| low).toUInt32

/-- `ST_MINOR`. -/
def stMinor (rdev : UInt64) : UInt32 :=
  let high : UInt64 := (rdev >>> 12) &&& 0xffffff00
  let low : UInt64 := rdev &&& 0x000000ff
  (high ||| low).toUInt32

/-- What a back end comes to: the status, the caller's `disk`, the device with its entry, and
    `device_usage`. -/
structure Fetched where
  fsdev : SigarCache SigarIodev
  status : Status
  disk : DiskUsage
  iodev : Option (Nat × SigarIodev)
  device : DiskUsage

/-! ## /proc/diskstats -/

/-- `sscanf` with that many `%lu`: the numbers it converts. -/
def scanNumbers : Nat → Text → List UInt64
  | 0, _ => []
  | n + 1, s =>
    let number := strtoull s
    if number.rest = s then [] else number.value :: scanNumbers n number.rest

/-- What the row loop changes. -/
structure RowState where
  status : Status
  disk : DiskUsage
  device : DiskUsage

/-- The counters of a row; `junk` is what the variables hold that `sscanf` does not set. -/
def scanRow (junk : Nat → UInt64) (ptr : Text) (s : RowState) : RowState :=
  let numbers := scanNumbers 11 ptr
  let rio := numbers.getD 0 (junk 0)
  let rmerge := numbers.getD 1 (junk 1)
  let rsect := numbers.getD 2 (junk 2)
  let ruse := numbers.getD 3 (junk 3)
  let wio := numbers.getD 4 (junk 4)
  let wsect := numbers.getD 6 (junk 6)
  let wuse := numbers.getD 7 (junk 7)
  let running := numbers.getD 8 (junk 8)
  let use := numbers.getD 9 (junk 9)
  let aveq := numbers.getD 10 (junk 10)
  if numbers.length = 11 then
    { s with disk := { s.disk with
        rtime := ruse, wtime := wuse, time := use, qtime := aveq, ios := running
        reads := rio, writes := wio, readBytes := rsect * 512, writeBytes := wsect * 512 } }
  else if numbers.length = 4 then
    { s with disk := { s.disk with
        time := sigarFieldNotImpl, qtime := sigarFieldNotImpl
        reads := rio, writes := rsect, readBytes := rmerge * 512, writeBytes := ruse * 512 } }
  else
    { s with
      status := enoent
      disk := { s.disk with
        reads := rio, writes := wio, readBytes := rsect * 512, writeBytes := wsect * 512 } }

/-- The row loop, from the round `i` on. -/
def rowLoop (rdev : UInt64) (junk : Nat → Nat → UInt64) : Nat → List Text → RowState →
    RowState
  | _, [], s => s
  | i, ptr :: lines, s =>
    let major := strtoull ptr
    let minor := strtoull major.rest
    if major.value = (stMajor rdev).toUInt64 ∧
        (minor.value = (stMinor rdev).toUInt64 ∨ minor.value = 0) then
      let s := scanRow (junk i) (sigarSkipToken minor.rest) s
      if minor.value = (stMinor rdev).toUInt64 then { s with status := sigarOk }
      else rowLoop rdev junk (i + 1) lines { s with device := s.disk }
    else rowLoop rdev junk (i + 1) lines s

/-- The array that the rows are read into. -/
def rowSize : Nat := 1025

/-- `get_iostat_proc_dstat`. -/
def getIostatProcDstat (host : DiskHost) (fsdev : Option (SigarCache SigarIodev))
    (dirname : Text) (disk : DiskUsage) : Fetched :=
  match sigarIodevGet host fsdev dirname with
  | (table, none) => ⟨table, enxio, disk, none, host.init⟩
  | (table, some (addr, iodev)) =>
    match host.stat iodev.path with
    | .error errno => ⟨table, errno, disk, some (addr, iodev), host.init⟩
    | .ok sb =>
      match host.diskstats with
      | .error errno => ⟨table, errno, disk, some (addr, iodev), host.init⟩
      | .ok text =>
        let s := rowLoop sb.rdev host.junk 0 (fgetsLines rowSize text []) ⟨enoent, disk, host.init⟩
        ⟨table, s.status, s.disk, some (addr, iodev), s.device⟩

/-! ## /proc/partitions -/

/-- The counters of the device's row. -/
def partitionRow (ptr : Text) (disk : DiskUsage) : DiskUsage :=
  let ptr := sigarSkipToken ptr                    -- blocks
  let ptr := sigarSkipToken ptr                    -- name
  let rio := strtoull ptr
  let rsect := strtoull (sigarSkipToken rio.rest)  -- behind rmerge
  let ruse := strtoull rsect.rest
  let wio := strtoull ruse.rest
  let wsect := strtoull (sigarSkipToken wio.rest)  -- behind wmerge
  let wuse := strtoull wsect.rest
  let use := strtoull (sigarSkipToken wuse.rest)   -- behind running
  let aveq := strtoull use.rest
  { disk with
    reads := rio.value, readBytes := rsect.value * 512, rtime := ruse.value
    writes := wio.value, writeBytes := wsect.value * 512, wtime := wuse.value
    time := use.value, qtime := aveq.value }

/-- The loop over the rows, until the device's. -/
def partitionLoop (rdev : UInt64) : List Text → DiskUsage → Status × DiskUsage
  | [], disk => (enoent, disk)
  | ptr :: lines, disk =>
    let major := strtoull ptr
    let minor := strtoull major.rest
    if major.value = (stMajor rdev).toUInt64 ∧ minor.value = (stMinor rdev).toUInt64 then
      (sigarOk, partitionRow minor.rest disk)
    else partitionLoop rdev lines disk

/-- `fgets` after `sigar_skip_file_lines(fp, 1)`, which has an array of its own. -/
def linesAfterHeader (text : Text) : Option (List Text) :=
  match fgetsLines bufsiz text [] with
  | [] => none
  | header :: _ => some (fgetsLines rowSize (text.drop header.length) [])

/-- `get_iostat_procp`. -/
def getIostatProcp (host : DiskHost) (fsdev : Option (SigarCache SigarIodev))
    (dirname : Text) (disk : DiskUsage) : Fetched :=
  match sigarIodevGet host fsdev dirname with
  | (table, none) => ⟨table, enxio, disk, none, host.init⟩
  | (table, some (addr, iodev)) =>
    match host.stat iodev.path with
    | .error errno => ⟨table, errno, disk, some (addr, iodev), host.init⟩
    | .ok sb =>
      match host.partitions with
      | .error errno => ⟨table, errno, disk, some (addr, iodev), host.init⟩
      | .ok text =>
        match linesAfterHeader text with
        | none => ⟨table, -1, disk, some (addr, iodev), host.init⟩
        | some lines =>
          let (status, disk) := partitionLoop sb.rdev lines disk
          ⟨table, status, disk, some (addr, iodev), host.init⟩

/-! ## /sys/block -/

/-- What the language leaves undefined. -/
inductive DiskFault where
  | outsideName  -- a byte behind `iodev->name` is read
  deriving DecidableEq

/-- The file that is opened for a device. -/
def sysPath (name : Text) (partition : Int32) : Text :=
  ("/sys/block/".toList ++ name ++ '/' :: name ++ renderInt partition.toInt ++ "/stat".toList).take
    1024

/-- The name is cut at its first digit: the file to open, and the device with the name that is
    left. -/
def cutName (iodev : SigarIodev) : Except DiskFault (Text × SigarIodev) :=
  match iodev.name.findIdx? Char.isDigit with
  | none => .error .outsideName
  | some fsdev =>
    let start := if sigarNameIsDev iodev.name then 5 else 0  -- strip "/dev/"
    let partition := (strtoull0 (iodev.name.drop fsdev)).value.toUInt32.toInt32
    let iodev := { iodev with
      name := iodev.name.set fsdev nul
      name_length := by rw [List.length_set]; exact iodev.name_length }
    let name := (iodev.name.drop start).takeWhile (· ≠ nul)
    .ok (sysPath name partition, iodev)

/-- The counters of the file. -/
def sysStatRow (dev : Text) (disk : DiskUsage) : DiskUsage :=
  let reads := strtoull (sigarSkipToken dev)
  let writes := strtoull (sigarSkipToken reads.rest)
  { disk with
    reads := reads.value, writes := writes.value
    readBytes := sigarFieldNotImpl, writeBytes := sigarFieldNotImpl, queue := notImplDouble }

/-- `get_iostat_sys`. -/
def getIostatSys (host : DiskHost) (fsdev : Option (SigarCache SigarIodev))
    (dirname : Text) (disk : DiskUsage) : Except DiskFault Fetched :=
  match sigarIodevGet host fsdev dirname with
  | (table, none) => .ok ⟨table, enxio, disk, none, host.init⟩
  | (table, some (addr, iodev)) => do
    let (path, iodev) ← cutName iodev
    let table := storeValue table addr (some iodev)
    let (status, dev) := sigarFile2str rowSize (host.sysStat path)
    if status ≠ sigarOk then .ok ⟨table, status, disk, some (addr, iodev), host.init⟩
    else .ok ⟨table, sigarOk, sysStatRow dev disk, some (addr, iodev), host.init⟩

/-! ## `sigar_disk_usage_get` -/

/-- `sigar->iostat`. -/
inductive Iostat where
  | none
  | sys
  | diskstats
  | partitions
  deriving DecidableEq

/-- The part of the handle that is used. -/
structure DiskHandle where
  fsdev : Option (SigarCache SigarIodev)
  iostat : Iostat

/-- `HZ`. -/
def hz : ℚ := 100

/-- The division of two doubles. -/
def divide : Option ℚ → Option ℚ → Option ℚ
  | some x, some y => if y = 0 then none else some (x / y)
  | _, _ => none

/-- The seconds between two samples: without one before, those since the boot. -/
def intervalSince (prev : DiskUsage) (snaptime : UInt64) : UInt64 :=
  if prev.snaptime ≠ 0 then snaptime - prev.snaptime else snaptime

/-- The sample with what is derived from its differences to the one before. -/
def deriveMetrics (uptime : ℚ) (prev disk : DiskUsage) : DiskUsage :=
  let snaptime := UInt64.ofNat ⌊uptime⌋.toNat
  let interval : Option ℚ := some (intervalSince prev snaptime).toNat
  let ios := (disk.reads - prev.reads) + (disk.writes - prev.writes)
  let tput := divide (some (ios.toNat * hz)) interval
  let util := (divide (some (disk.time - prev.time).toNat) interval).map (· * hz)
  { disk with
    snaptime := snaptime
    serviceTime :=
      if disk.time = sigarFieldNotImpl then notImplDouble
      else if tput = some 0 then some 0 else divide util tput
    queue :=
      if disk.qtime = sigarFieldNotImpl then notImplDouble
      else (divide (some (disk.qtime - prev.qtime).toNat) interval).map (· / 1000) }

/-- The sample that the metrics are derived from: for a partition, the one of its disk. -/
def Fetched.sample (fetched : Fetched) (iostat : Iostat) (iodev : SigarIodev) : DiskUsage :=
  if iodev.isPartition ∧ iostat = .diskstats then fetched.device else fetched.disk

/-- What `sigar_disk_usage_get` does with what a back end has found. -/
def finishUsage (host : DiskHost) (iostat : Iostat) (fetched : Fetched) :
    SigarCache SigarIodev × Status × DiskUsage :=
  match fetched.iodev with
  | none => (fetched.fsdev, fetched.status, fetched.disk)
  | some (addr, iodev) =>
    if fetched.status ≠ sigarOk then (fetched.fsdev, fetched.status, fetched.disk)
    else
      let sample := deriveMetrics host.uptime iodev.disk (fetched.sample iostat iodev)
      let fsdev := storeValue fetched.fsdev addr (some { iodev with disk := sample })
      if iodev.isPartition ∧ iostat = .diskstats then
        (fsdev, sigarOk,
          { fetched.disk with serviceTime := sample.serviceTime, queue := sample.queue })
      else (fsdev, sigarOk, sample)

/-- The back end of a handle. -/
def fetch (host : DiskHost) (handle : DiskHandle) (name : Text) : Except DiskFault Fetched :=
  match handle.iostat with
  | .sys => getIostatSys host handle.fsdev name host.init
  | .diskstats => .ok (getIostatProcDstat host handle.fsdev name host.init)
  | .partitions => .ok (getIostatProcp host handle.fsdev name host.init)
  | .none => .ok ⟨openFsdev host handle.fsdev, enoent, host.init, none, host.init⟩

/-- `sigar_disk_usage_get`. -/
def sigarDiskUsageGet (host : DiskHost) (handle : DiskHandle) (name : Text) :
    Except DiskFault (DiskHandle × Status × DiskUsage) := do
  let fetched ← fetch host handle name
  let (fsdev, status, disk) := finishUsage host handle.iostat fetched
  pure ({ handle with fsdev := some fsdev }, status, disk)

end Sigar.Disk
