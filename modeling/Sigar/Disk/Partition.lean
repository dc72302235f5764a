/-
  The disk of a partition.

  "2.6 kernels do not have per-partition times": for a partition, `sigar_disk_usage_get` derives the
  service time and the queue from the counters of the disk that it is on.  Which disk that is, the
  row loop guesses from the minor number: it is the row with the partition's major number and the
  minor number 0 that comes last before the partition's own.

  1. **What the loop takes for the disk** — `rates_passRows`.
  2. **The call** — `sampleOfDisk_iff`: when the sample that is kept, and derived from, is the one of
     the disk whose name the partition has.
-/
import Sigar.Disk.Diskstats
import Sigar.Disk.Sample

namespace Sigar.Disk

open CString Numerals Columns Cache List

/-! ## The row that is taken for the disk's -/

/-- The counters that the service time and the queue are derived from. -/
def DiskCounters.rates (c : DiskCounters) : UInt64 × UInt64 × UInt64 × UInt64 :=
  (c.reads, c.writes, c.time, c.qtime)

/-- The last row that is taken for the one of the disk. -/
def lastDisk (rdev : UInt64) (rows : List Row) : Option Row :=
  lastWith (fun row => row.IsDisk rdev) rows

/-- A row sets all of these counters, in either format. -/
theorem Row.apply_rates {row : Row} (h : row.Complete) (junk : Nat → UInt64) (s : RowState) :
    (row.apply junk s).disk.rates = row.usage.rates := by
  rcases h with hfull | hshort
  · rw [row.apply_full hfull]
  · rw [row.apply_short hshort]
    rfl

theorem Row.apply_device (row : Row) (junk : Nat → UInt64) (s : RowState) :
    (row.apply junk s).device = s.device := by
  rw [Row.apply, scanRow]
  split
  · rfl
  · split <;> rfl

/-- **What is taken for the disk** is the last row with the minor number 0. -/
theorem rates_passRows (rdev : UInt64) (junk : Nat → Nat → UInt64) :
    ∀ {rows : List Row}, (∀ row ∈ rows, row.Complete) → ∀ (i : Nat) (s : RowState),
      (passRows rdev junk i rows s).device.rates =
        ((lastDisk rdev rows).map fun row => row.usage.rates).getD s.device.rates := by
  intro rows
  induction rows with
  | nil => intro _ i s; rfl
  | cons row rows ih =>
    intro hcomplete i s
    have hrest := ih fun r hr => hcomplete r (mem_cons_of_mem row hr)
    rw [passRows, lastDisk, lastWith_cons, ← lastDisk]
    split
    · rw [hrest, Row.apply_rates (hcomplete row mem_cons_self)]
      cases lastDisk rdev rows <;> rfl
    · exact hrest _ _

/-- The loop, for a device that has a row: what is read from it, and what is taken for its disk. -/
theorem rowLoop_rates {rdev : UInt64} {rows : List Row} {own : Row}
    (hrow : ownRow rdev rows = some own) (hfits : RowsFit rdev rows)
    (hcomplete : ∀ row ∈ rowsRead rdev rows, row.Complete)
    (junk : Nat → Nat → UInt64) (start : DiskUsage) :
    let s := rowLoop rdev junk 0 (fgetsLines rowSize (rowsText rows) []) ⟨enoent, start, start⟩
    s.disk.rates = own.usage.rates ∧
      s.device.rates = ((lastDisk rdev (rowsBefore rdev rows)).map fun row => row.usage.rates).getD
        start.rates := by
  have hown : own ∈ rowsRead rdev rows :=
    mem_append.mpr (.inr (Option.mem_toList.mpr hrow))
  have hbefore : ∀ row ∈ rowsBefore rdev rows, row.Complete := fun row h =>
    hcomplete row (mem_append.mpr (.inl h))
  rw [rowLoop_ownRow hrow hfits]
  refine ⟨Row.apply_rates (hcomplete own hown) _ _, ?_⟩
  dsimp only
  rw [own.apply_device]
  exact rates_passRows rdev junk hbefore 0 _

/-! ## The call -/

/-- The name of a partition: the one of its disk, a `p` if that ends in a digit, and a number. -/
def Row.IsPartitionOf (row disk : Row) : Prop :=
  ∃ n, row.name = disk.name ++ ((if disk.name.getLast?.any Char.isDigit then ['p'] else []) ++
    renderNat n)

/-- A call for a partition: `node` is what `stat` says of the name, `sb` of the device that is found
    for it; its row is `own`, and the one of its disk is `disk`. -/
structure PartitionCall (host : DiskHost) (handle : DiskHandle) (name : Text)
    (rows : List Row) (node sb : FileStat) (own disk : Row) : Prop where
  iostat : handle.iostat = .diskstats
  kept : Kept (openFsdev host handle.fsdev)
  text : host.diskstats = .ok (rowsText rows)
  fits : RowsFit sb.rdev rows
  complete : ∀ row ∈ rowsRead sb.rdev rows, row.Complete
  node : host.stat (deviceName name).1 = .ok node
  device : (sigarIodevGet host handle.fsdev name).2.map (fun found => host.stat found.2.path) =
    some (.ok sb)
  row : ownRow sb.rdev rows = some own
  listed : disk ∈ rows
  partition : own.IsPartitionOf disk

/-- The call succeeds, and the sample that it derives from and keeps is the one of the disk. -/
def SampleOfDisk (host : DiskHost) (handle : DiskHandle) (name : Text) (node : FileStat)
    (disk : Row) : Prop :=
  ∃ table usage, sigarDiskUsageGet host handle name = .ok (⟨some table, handle.iostat⟩, sigarOk, usage) ∧
    (keptSample table (sigarFsdevId node)).rates = disk.usage.rates

/-- What the call takes for the disk's counters: those of the last row with the minor number 0 for
    what is cached as a partition, or those it starts with if there is none, and the own ones for
    anything else. -/
def takenRates (start : DiskUsage) (rows : List Row) (rdev : UInt64) (own : Row)
    (isPartition : Bool) : UInt64 × UInt64 × UInt64 × UInt64 :=
  if isPartition then
    ((lastDisk rdev (rowsBefore rdev rows)).map fun row => row.usage.rates).getD start.rates
  else own.usage.rates

/-- The guess is right if the disk has the minor number 0 and no other such row stands between. -/
theorem takenRates_disk {rows before between : List Row} {rdev : UInt64} {disk : Row}
    (start : DiskUsage) (own : Row)
    (hrows : rowsBefore rdev rows = before ++ disk :: between) (hdisk : disk.IsDisk rdev)
    (hbetween : ∀ row ∈ between, ¬ row.IsDisk rdev) :
    takenRates start rows rdev own true = disk.usage.rates := by
  grind [filter_eq_nil_iff, lastDisk, lastWith, filter_cons_of_pos, getLast?_append,
      takenRates]

/-- **The sample of a partition is the one of its disk** exactly if what the call takes for it has
    the same counters. -/
theorem sampleOfDisk_iff {host : DiskHost} {handle : DiskHandle} {name : Text}
    {rows : List Row} {node sb : FileStat} {own disk : Row}
    (h : PartitionCall host handle name rows node sb own disk) :
    SampleOfDisk host handle name node disk ↔
      takenRates host.init rows sb.rdev own
        (asPartition (openFsdev host handle.fsdev) (sigarFsdevId node) name) = disk.usage.rates := by
  obtain ⟨⟨addr, iodev⟩, hdevice, hstat⟩ := Option.map_eq_some_iff.mp h.device
  have hget : sigarIodevGet host handle.fsdev name =
      ((sigarIodevGet host handle.fsdev name).1, some (addr, iodev)) := by rw [← hdevice]
  have hresult := getIostatProcDstat_eq hget hstat h.text host.init
  have hok : (getIostatProcDstat host handle.fsdev name host.init).status = sigarOk := by
    rw [hresult, rowLoop_ownRow h.row h.fits]
  have hfetch : fetch host handle name =
      .ok (getIostatProcDstat host handle.fsdev name host.init) := by rw [fetch, h.iostat]
  obtain ⟨sb', table, usage, hnode, hfound, hcall, htaken⟩ :=
    sigarDiskUsageGet_taken h.kept hfetch hok (by rw [hresult])
  rw [h.node, Except.ok.injEq] at hnode
  subst hnode
  have hsample : ((getIostatProcDstat host handle.fsdev name host.init).sample handle.iostat iodev).rates =
      takenRates host.init rows sb.rdev own
        (asPartition (openFsdev host handle.fsdev) (sigarFsdevId node) name) := by
    obtain ⟨hdisk, htaken⟩ := rowLoop_rates h.row h.fits h.complete host.junk host.init
    rw [Fetched.sample, h.iostat, ← hfound.isPartition, takenRates, hresult]
    cases iodev.isPartition with
    | true =>
      rw [if_pos ⟨rfl, rfl⟩, if_pos rfl]
      exact htaken
    | false =>
      rw [if_neg fun hc => absurd hc.1 (by decide), if_neg (by decide)]
      exact hdisk
  have hkept : (keptSample table (sigarFsdevId node)).rates =
      takenRates host.init rows sb.rdev own
        (asPartition (openFsdev host handle.fsdev) (sigarFsdevId node) name) := by
    rw [htaken.sample, ← hsample]
    rfl
  constructor
  · rintro ⟨table', usage', hcall', hrates⟩
    rw [hcall, Except.ok.injEq, Prod.mk.injEq, DiskHandle.mk.injEq] at hcall'
    rw [← hkept, Option.some.inj hcall'.1.1]
    exact hrates
  · intro hrates
    exact ⟨table, usage, hcall, hkept.trans hrates⟩

/-- A host on which /data is a file system on the device 259:2. -/
def dataHost (rows : List Row) : DiskHost :=
  { rowsHost rows 66306 with
    stat := fun name => .ok (if name = "/data".toList then ⟨false, 0, 2, 66306⟩ else ⟨true, 66306, 0, 0⟩)
    fileSystems := .ok [⟨true, "/data".toList, "/dev/nvme".toList⟩] }

/-- A row of 11 counters. -/
def nvmeRow (minor : Nat) (name : Text) (first : Nat) (h : IsToken name ∧ name ≠ []) : Row :=
  ⟨2, 259, ⟨7, minor⟩, 0, name, (range 11).map fun i => ⟨0, first + i⟩, h⟩

/-- Two partitions of one disk. -/
def oneDisk : List Row :=
  [nvmeRow 0 "nvme0n1".toList 100 (by decide), nvmeRow 1 "nvme0n1p1".toList 200 (by decide),
    nvmeRow 2 "nvme0n1p2".toList 300 (by decide)]

/-- Two disks with one major number, and a partition of the second. -/
def twoDisks : List Row :=
  [nvmeRow 0 "nvme0n1".toList 100 (by decide), nvmeRow 1 "nvme1n1".toList 200 (by decide),
    nvmeRow 2 "nvme1n1p1".toList 300 (by decide)]

theorem sampleOfDisk_oneDisk : SampleOfDisk (dataHost oneDisk) ⟨none, .diskstats⟩ "/data".toList
    ⟨false, 0, 2, 66306⟩ (nvmeRow 0 "nvme0n1".toList 100 (by decide)) := by
  have hcall : PartitionCall (dataHost oneDisk) ⟨none, .diskstats⟩ "/data".toList oneDisk
      ⟨false, 0, 2, 66306⟩ ⟨true, 66306, 0, 0⟩ (nvmeRow 2 "nvme0n1p2".toList 300 (by decide))
      (nvmeRow 0 "nvme0n1".toList 100 (by decide)) :=
    { iostat := rfl
      kept := openFsdev_none_kept _
      text := rfl
      fits := by decide
      complete := by decide
      node := rfl
      device := by rfl
      row := rfl
      listed := mem_cons_self
      partition := ⟨2, by decide⟩ }
  exact (sampleOfDisk_iff hcall).mpr (by decide)

/-- The sample of the partition is the one of the first disk. -/
theorem twoDisks_first :
    PartitionCall (dataHost twoDisks) ⟨none, .diskstats⟩ "/data".toList twoDisks
      ⟨false, 0, 2, 66306⟩ ⟨true, 66306, 0, 0⟩ (nvmeRow 2 "nvme1n1p1".toList 300 (by decide))
      (nvmeRow 1 "nvme1n1".toList 200 (by decide)) ∧
    ¬ SampleOfDisk (dataHost twoDisks) ⟨none, .diskstats⟩ "/data".toList ⟨false, 0, 2, 66306⟩
      (nvmeRow 1 "nvme1n1".toList 200 (by decide)) := by
  refine ⟨?_, ?_⟩
  · exact
      { iostat := rfl
        kept := openFsdev_none_kept _
        text := rfl
        fits := by decide
        complete := by decide
        node := rfl
        device := by rfl
        row := rfl
        listed := mem_cons_of_mem _ mem_cons_self
        partition := ⟨1, by decide⟩ }
  · rintro ⟨table, usage, hcall, hrates⟩
    have hfirst : (sigarDiskUsageGet (dataHost twoDisks) ⟨none, .diskstats⟩ "/data".toList).toOption.map
        (fun result => result.1.fsdev.map fun table => (keptSample table 8590000898).reads) =
          some (some 100) := by decide
    rw [hcall] at hfirst
    have hreads : (keptSample table 8590000898).reads = 100 :=
      Option.some.inj (Option.some.inj hfirst)
    have hdisk := congrArg Prod.fst hrates
    exact absurd (hreads.symm.trans hdisk) (by decide)

end Sigar.Disk
