/-
  The rates of a disk on Solaris.

  Source: `io_kstat_read`, `sigar_kstat_disk_usage_get`, `simple_hash` and `sigar_disk_usage_get` of
  `os/solaris/solaris_sigar.c`, and `SIGAR_DISK_STATS_INIT`.

  The rates are differences to the sample before, which is cached under a HASH of the name, in the table
  that also has the devices of the file systems.  A device that has none yet gets a cleared one.

  1. **Program** — a call, and next to the table the last sample of each name, which only the statement
     looks at.
  2. **Table** (`TableInv`) — if no two names with one hash are sampled, the table has the samples.
  3. **First sample** — its interval is the creation time minus the snapshot time, the wrong way round,
     and its counters are compared with what the machine makes of 2^64 (`DiskUsage.init`).
  4. **Result** — in a run whose steps all fit, every step measures what it should
     (`solaris_run_measured`).
-/
import Sigar.Disk.Iostat

namespace Sigar.Disk.Solaris

open CString Cache Runs

/-! ## The program -/

/-- A `kstat_t` of type `KSTAT_TYPE_IO`, with its `kstat_io_t`. -/
structure KstatIo where
  name : Text
  crtime : UInt64
  snaptime : UInt64
  reads : UInt32
  writes : UInt32
  nread : UInt64
  nwritten : UInt64
  wlentime : UInt64
  rlentime : UInt64

/-- `iodev_t`. -/
structure Iodev where
  name : Text
  disk : DiskUsage

/-- A call and what it finds: `stat` of the name, what `create_fsdev_cache` (`Disk.FsdevPaths`) puts into
    the table, if it comes to that, and the chain of kstats. -/
structure UsageCall where
  name : Text
  stat : Except Errno FileStat
  created : Option (List (UInt64 × Text))
  chain : Except Errno (List KstatIo)
  now : UInt64
  clock : Clock

/-- The differences that the rates are computed from. -/
structure Differences where
  elapsed : UInt64
  reads : UInt64
  writes : UInt64
  wtime : UInt64
  rtime : UInt64

/-- A sample that was taken: the kstat, the sample before, and the differences. -/
structure Sampled where
  ksp : KstatIo
  prev : DiskUsage
  diff : Differences

/-- What a call returns, and the sample it took. -/
structure UsageReport where
  status : Status
  disk : DiskUsage
  sampled : Option Sampled

/-- `io_kstat_read`. -/
def ioKstatRead (disk : DiskUsage) (ksp : KstatIo) : DiskUsage :=
  { disk with
    reads := ksp.reads.toUInt64
    writes := ksp.writes.toUInt64
    readBytes := ksp.nread
    writeBytes := ksp.nwritten
    qtime := ksp.wlentime
    rtime := ksp.rlentime
    wtime := ksp.wlentime
    time := ksp.rlentime + ksp.wlentime
    snaptime := ksp.snaptime }

/-- `sigar_kstat_disk_usage_get`: the status, and the kstat of the name. -/
def sigarKstatDiskUsageGet (call : UsageCall) (name : Text) : Except Status KstatIo :=
  match call.chain with
  | .error errno => .error errno
  | .ok chain => match chain.find? (·.name = name) with
    | some ksp => .ok ksp
    | none => .error enxio

/-- `simple_hash`, as the key of the table. -/
def simpleHash (name : Text) : UInt64 := (hash31 name).toInt64.toUInt64

def differences (disk prev : DiskUsage) (ksp : KstatIo) : Differences where
  elapsed := if prev.snaptime ≠ 0 then disk.snaptime - prev.snaptime else ksp.crtime - ksp.snaptime
  reads := disk.reads - prev.reads
  writes := disk.writes - prev.writes
  wtime := disk.wtime - prev.wtime
  rtime := disk.rtime - prev.rtime

/-- `queue` and `service_time`. -/
def withRates (disk : DiskUsage) (diff : Differences) : DiskUsage :=
  let hrEtime : ℚ := if diff.elapsed = 0 then 1000000000 else diff.elapsed.toNat
  let etime := hrEtime / 1000000000
  let tps := (diff.reads.toNat : ℚ) / etime + (diff.writes.toNat : ℚ) / etime
  let avw := (diff.wtime.toNat : ℚ) / hrEtime
  let avr := (diff.rtime.toNat : ℚ) / hrEtime
  let mtps := 1000 / tps
  { disk with
    queue := some avw
    serviceTime := some (if tps ≠ 0 ∧ (avw ≠ 0 ∨ avr ≠ 0) then avw * mtps + avr * mtps else 0) }

section Call

/- What the machine makes of 2^64 as an integer of 64 bits. -/
variable (tooLarge : UInt64)

/-- `create_fsdev_cache` puts a cleared device into the table. -/
def addIodev (clock : Clock) (table : SigarCache Iodev) (entry : UInt64 × Text) :
    SigarCache Iodev :=
  let (table, ent) := sigarCacheGet table entry.1 clock
  storeValue table ent.addr (some ⟨entry.2, .init tooLarge⟩)

/-- The end of `sigar_disk_usage_get`: the sample is stored in the device of the entry. -/
def takeSample (table : SigarCache Iodev) (addr : Nat) (iodev : Iodev) (ksp : KstatIo) :
    SigarCache Iodev × UsageReport :=
  let disk := ioKstatRead (.init tooLarge) ksp
  let diff := differences disk iodev.disk ksp
  let disk := withRates disk diff
  (storeValue table addr (some { iodev with disk := disk }),
    ⟨sigarOk, disk, some ⟨ksp, iodev.disk, diff⟩⟩)

/-- The table of the handle; the first call makes it. -/
def fsdevTable (fsdev : Option (SigarCache Iodev)) (call : UsageCall) : SigarCache Iodev :=
  match fsdev with
  | some table => table
  | none => (call.created.getD []).foldl (addIodev tooLarge call.clock)
      (sigarCacheNew Iodev 15 call.now)

/-- What is returned without a sample. -/
def noSample (status : Status) : UsageReport :=
  ⟨if status = enxio then sigarOk else status, .init tooLarge, none⟩

/-- `sigar_disk_usage_get`, of a handle that is no Joyent zone. -/
def sigarDiskUsageGet (fsdev : Option (SigarCache Iodev)) (call : UsageCall) :
    SigarCache Iodev × UsageReport :=
  let table := fsdevTable tooLarge fsdev call
  if fsdev.isNone ∧ call.created.isNone then (table, noSample tooLarge sigarOk)
  else if deref call.name = '/' then
    match call.stat with
    | .error errno => (table, noSample tooLarge errno)
    | .ok sb =>
      let (table, ent) := sigarCacheGet table (sigarFsdevId sb) call.clock
      match ent.value with
      | none => (table, noSample tooLarge enxio)
      | some iodev => match sigarKstatDiskUsageGet call iodev.name with
        | .error status => (table, noSample tooLarge status)
        | .ok ksp => takeSample tooLarge table ent.addr iodev ksp
  else match sigarKstatDiskUsageGet call call.name with
    | .error status => (table, noSample tooLarge status)
    | .ok ksp =>
      let (table, ent) := sigarCacheGet table (simpleHash call.name) call.clock
      let iodev := ent.value.getD ⟨call.name.take 255, .init tooLarge⟩
      takeSample tooLarge table ent.addr iodev ksp

/-! ## What is to be measured -/

/-- The table, and the last sample of each name. -/
structure State where
  fsdev : Option (SigarCache Iodev)
  last : Text → Option DiskUsage

/-- A call of the program; a sample is remembered under its name. -/
def step (s : State) (call : UsageCall) : State × UsageReport :=
  let (table, report) := sigarDiskUsageGet tooLarge s.fsdev call
  (⟨some table, fun name => if report.sampled.isSome ∧ name = call.name then some report.disk
    else s.last name⟩, report)

/-- A handle that was opened. -/
def opened : State := ⟨none, fun _ => none⟩

/-- The differences are those to the sample `own`, or to the creation of the kstat, and none wraps. -/
structure Measured (own : Option DiskUsage) (ksp : KstatIo) (diff : Differences) : Prop where
  elapsed : (diff.elapsed.toNat : Int) =
    ksp.snaptime.toNat - (own.elim ksp.crtime (·.snaptime)).toNat
  reads : (diff.reads.toNat : Int) = ksp.reads.toNat - (own.elim 0 (·.reads)).toNat
  writes : (diff.writes.toNat : Int) = ksp.writes.toNat - (own.elim 0 (·.writes)).toNat
  wtime : (diff.wtime.toNat : Int) = ksp.wlentime.toNat - (own.elim 0 (·.wtime)).toNat
  rtime : (diff.rtime.toNat : Int) = ksp.rlentime.toNat - (own.elim 0 (·.rtime)).toNat

/-- **A call measures against its device's own last sample**, or a cleared one. -/
def MeasuresRight (s : State) (call : UsageCall) : Prop :=
  ∀ sampled, (step tooLarge s call).2.sampled = some sampled →
    sampled.prev = (s.last call.name).getD (.init tooLarge) ∧
      Measured (s.last call.name) sampled.ksp sampled.diff

/-- A call on a named device whose kstat has not gone back. -/
structure Steady (s : State) (call : UsageCall) : Prop where
  named : deref call.name ≠ '/'
  created : ∀ ksp, sigarKstatDiskUsageGet call call.name = .ok ksp → ksp.crtime ≤ ksp.snaptime
  grows : ∀ ksp prev, sigarKstatDiskUsageGet call call.name = .ok ksp →
    s.last call.name = some prev → prev.snaptime ≤ ksp.snaptime ∧ prev.reads ≤ ksp.reads.toUInt64 ∧
      prev.writes ≤ ksp.writes.toUInt64 ∧ prev.wtime ≤ ksp.wlentime ∧ prev.rtime ≤ ksp.rlentime

/-- **A call fits**: no other device with its hash was sampled, a first sample is taken when the kstat
    is created (or 2^63 ns later) on a machine that makes 0 of 2^64, and a later one does not follow a
    sample at time 0. -/
structure Fits (s : State) (call : UsageCall) : Prop where
  own : ∀ other, s.last other ≠ none → simpleHash other = simpleHash call.name → other = call.name
  first : ∀ ksp, sigarKstatDiskUsageGet call call.name = .ok ksp → s.last call.name = none →
    tooLarge = 0 ∧ ksp.crtime - ksp.snaptime = ksp.snaptime - ksp.crtime
  later : ∀ ksp prev, sigarKstatDiskUsageGet call call.name = .ok ksp →
    s.last call.name = some prev → prev.snaptime = 0 → ksp.crtime - ksp.snaptime = ksp.snaptime

/-! ## The table -/

/-- The table has the samples, each under the hash of its name, and what is no sample is cleared. -/
structure TableInv (table : SigarCache Iodev) (last : Text → Option DiskUsage) : Prop where
  kept : Kept table
  stored : ∀ name disk, last name = some disk →
    ∃ iodev, table.valueOf (simpleHash name) = some iodev ∧ iodev.disk = disk
  cleared : ∀ key iodev, table.valueOf key = some iodev →
    (∀ name, last name ≠ none → simpleHash name ≠ key) → iodev.disk = .init tooLarge

variable {tooLarge}

theorem foldl_addIodev (clock : Clock) : ∀ (created : List (UInt64 × Text))
    {table : SigarCache Iodev}, TableInv tooLarge table (fun _ => none) →
      TableInv tooLarge (created.foldl (addIodev tooLarge clock) table) (fun _ => none) := by
  intro created
  induction created with
  | nil => exact fun h => h
  | cons entry created ih =>
    intro table h
    obtain ⟨hkept, hvalue⟩ := h.kept.put entry.1 clock (some ⟨entry.2, .init tooLarge⟩)
    refine ih ⟨hkept, nofun, fun key iodev hiodev hnone => ?_⟩
    have hput := (hvalue key).symm.trans hiodev
    split at hput
    · rw [← Option.some.inj hput]
    · exact h.cleared key iodev hput hnone

/-- The state of a handle. -/
def Inv (tooLarge : UInt64) (s : State) : Prop :=
  match s.fsdev with
  | none => s.last = fun _ => none
  | some table => TableInv tooLarge table s.last

theorem fsdevTable_inv {s : State} (hs : Inv tooLarge s) (call : UsageCall) :
    TableInv tooLarge (fsdevTable tooLarge s.fsdev call) s.last := by
  rw [Inv] at hs
  cases hfsdev : s.fsdev with
  | some table => rwa [hfsdev] at hs
  | none =>
    rw [hfsdev] at hs
    rw [hs]
    refine foldl_addIodev _ _ ⟨sigarCacheNew_kept Iodev (by decide) _, nofun, ?_⟩
    intro key iodev hiodev
    rw [valueOf_new] at hiodev
    cases hiodev

variable {s : State} {call : UsageCall} {ksp : KstatIo}

/-- The entry of a name has its last sample, or a cleared device. -/
theorem TableInv.prev {table : SigarCache Iodev} (h : TableInv tooLarge table s.last)
    (hown : ∀ other, s.last other ≠ none → simpleHash other = simpleHash call.name →
      other = call.name) :
    ((table.valueOf (simpleHash call.name)).getD ⟨call.name.take 255, .init tooLarge⟩).disk =
      (s.last call.name).getD (.init tooLarge) := by
  cases hlast : s.last call.name with
  | some disk =>
    obtain ⟨iodev, hvalue, hdisk⟩ := h.stored _ _ hlast
    rw [hvalue]
    exact hdisk
  | none =>
    cases hvalue : table.valueOf (simpleHash call.name) with
    | none => rfl
    | some iodev =>
      refine h.cleared _ _ hvalue fun other hother hhash => ?_
      rw [hown other hother hhash] at hother
      exact hother hlast

/-- A sample of a name is stored under its hash. -/
theorem TableInv.sample {table : SigarCache Iodev} (h : TableInv tooLarge table s.last)
    (hown : ∀ other, s.last other ≠ none → simpleHash other = simpleHash call.name →
      other = call.name) {iodev : Iodev} :
    TableInv tooLarge (storeValue (sigarCacheGet table (simpleHash call.name) call.clock).1
        (sigarCacheGet table (simpleHash call.name) call.clock).2.addr (some iodev))
      fun name => if name = call.name then some iodev.disk else s.last name := by
  obtain ⟨hkept, hvalue⟩ := h.kept.put (simpleHash call.name) call.clock (some iodev)
  refine ⟨hkept, fun name disk hname => ?_, fun key other hother hnone => ?_⟩
  · rw [hvalue]
    split at hname
    · next heq => rw [heq, if_pos rfl]; exact ⟨iodev, rfl, Option.some.inj hname⟩
    · next hne =>
      rw [if_neg fun hhash => hne (hown name (by simp [hname]) hhash)]
      exact h.stored name disk hname
  · have hkey : key ≠ simpleHash call.name := fun heq => hnone call.name (by simp) heq.symm
    rw [hvalue, if_neg hkey] at hother
    refine h.cleared key other hother fun name hname => ?_
    refine hnone name ?_
    split
    · exact Option.some_ne_none _
    · exact hname

/-! ## A call -/

theorem toNat_sub_eq {a b : UInt64} (h : b ≤ a) : ((a - b).toNat : Int) = a.toNat - b.toNat := by
  have := UInt64.le_iff_toNat_le.mp h
  rw [UInt64.toNat_sub_of_le _ _ h]
  omega

/-- **The differences to the right sample are right.** -/
theorem measured (hsteady : Steady s call) (hfits : Fits tooLarge s call)
    (hksp : sigarKstatDiskUsageGet call call.name = .ok ksp) :
    Measured (s.last call.name) ksp (differences (ioKstatRead (.init tooLarge) ksp)
      ((s.last call.name).getD (.init tooLarge)) ksp) := by
  cases hlast : s.last call.name with
  | none =>
    obtain ⟨rfl, helapsed⟩ := hfits.first ksp hksp hlast
    have hcreated := hsteady.created ksp hksp
    refine ⟨?_, ?_, ?_, ?_, ?_⟩ <;>
      simp [differences, ioKstatRead, DiskUsage.init, helapsed, toNat_sub_eq hcreated]
  | some prev =>
    obtain ⟨hsnap, hreads, hwrites, hwtime, hrtime⟩ := hsteady.grows ksp prev hksp hlast
    refine ⟨?_, ?_, ?_, ?_, ?_⟩
    · by_cases hzero : prev.snaptime = 0
      · have helapsed := hfits.later ksp prev hksp hlast hzero
        simp [differences, ioKstatRead, hzero, helapsed]
      · simp [differences, ioKstatRead, hzero, toNat_sub_eq hsnap]
    · simp [differences, ioKstatRead, toNat_sub_eq hreads]
    · simp [differences, ioKstatRead, toNat_sub_eq hwrites]
    · simp [differences, ioKstatRead, toNat_sub_eq hwtime]
    · simp [differences, ioKstatRead, toNat_sub_eq hrtime]

/-- **A call that fits** keeps the table and measures right. -/
theorem step_fits (hs : Inv tooLarge s) (hsteady : Steady s call) (hfits : Fits tooLarge s call) :
    Inv tooLarge (step tooLarge s call).1 ∧ MeasuresRight tooLarge s call := by
  have htable := fsdevTable_inv hs call
  have hquiet : ∀ status, sigarDiskUsageGet tooLarge s.fsdev call
      = (fsdevTable tooLarge s.fsdev call, noSample tooLarge status) →
      Inv tooLarge (step tooLarge s call).1 ∧ MeasuresRight tooLarge s call := by
    intro status hcall
    rw [MeasuresRight, step, hcall]
    exact ⟨by simpa [Inv, noSample] using htable, nofun⟩
  by_cases hfirst : s.fsdev.isNone ∧ call.created.isNone
  · exact hquiet _ (if_pos hfirst)
  · cases hksp : sigarKstatDiskUsageGet call call.name with
    | error status =>
      refine hquiet status ?_
      rw [sigarDiskUsageGet, if_neg hfirst, if_neg hsteady.named, hksp]
    | ok ksp =>
      obtain ⟨-, hvalue, -⟩ := htable.kept.get (simpleHash call.name) call.clock
      rw [MeasuresRight, step, sigarDiskUsageGet, if_neg hfirst, if_neg hsteady.named, hksp]
      dsimp only [takeSample]
      rw [hvalue, htable.prev hfits.own]
      refine ⟨by simpa [Inv] using htable.sample hfits.own, ?_⟩
      rintro sampled ⟨⟩
      exact ⟨rfl, measured hsteady hfits hksp⟩

/-- **In a run whose steps fit, every step measures what it should.** -/
theorem solaris_run_measured (calls : List UsageCall)
    (hrun : Along (step tooLarge) (fun s call => Steady s call ∧ Fits tooLarge s call) opened calls) :
    Along (step tooLarge) (MeasuresRight tooLarge) opened calls :=
  along_of_invariant (fun _ _ hs h => step_fits hs h.1 h.2) calls opened rfl hrun

/-- A name has a sample from this call, or from an earlier one. -/
theorem last_step {other : Text} (h : (step tooLarge s call).1.last other ≠ none) :
    other = call.name ∨ s.last other ≠ none := by
  by_cases heq : other = call.name
  · exact .inl heq
  · refine .inr fun hnone => h ?_
    exact (if_neg fun hboth => heq hboth.2).trans hnone

end Call

/-- A call on `sd0`, whose kstat was created at 100. -/
def sd0At (snaptime : UInt64) : UsageCall where
  name := "sd0".toList
  stat := .error ⟨enoent, by decide⟩
  created := some []
  chain := .ok [⟨"sd0".toList, 100, snaptime, 5, 6, 2560, 3072, 40, 50⟩]
  now := 0
  clock := ⟨0, 0⟩

theorem sd0At_steady {snaptime : UInt64} (h : 100 ≤ snaptime) : Steady opened (sd0At snaptime) where
  named := show 's' ≠ '/' by decide
  created := by
    rintro ksp ⟨⟩
    exact h
  grows := by rintro ksp prev - ⟨⟩

/-- A call on one of two disks; both were created at 100, and their counters grow with the time. -/
def diskAt (name : String) (snaptime : UInt64) : UsageCall where
  name := name.toList
  stat := .error ⟨enoent, by decide⟩
  created := some []
  chain := .ok (["sd0", "sd1"].map fun disk => ⟨disk.toList, 100, snaptime, snaptime.toUInt32,
    snaptime.toUInt32, snaptime, snaptime, snaptime, snaptime⟩)
  now := 0
  clock := ⟨0, 0⟩

/-- Both disks when they are created, and the first one later. -/
def twoDisks : List UsageCall := [diskAt "sd0" 100, diskAt "sd1" 100, diskAt "sd0" 600]

/-- A first sample that is taken when the kstat is created. -/
theorem diskAt_first {s : State} {name : String} (hname : name = "sd0" ∨ name = "sd1")
    (hlast : s.last name.toList = none)
    (hother : ∀ other, s.last other ≠ none → simpleHash other = simpleHash name.toList →
      other = name.toList) :
    Steady s (diskAt name 100) ∧ Fits 0 s (diskAt name 100) := by
  have hkstat : ∀ ksp, sigarKstatDiskUsageGet (diskAt name 100) name.toList = .ok ksp →
      ksp.crtime = 100 ∧ ksp.snaptime = 100 := by
    rcases hname with rfl | rfl <;> rintro ksp ⟨⟩ <;> exact ⟨rfl, rfl⟩
  refine ⟨⟨?_, fun ksp hksp => ?_, fun ksp prev _ hprev => ?_⟩, ⟨hother, fun ksp hksp _ => ?_,
    fun ksp prev _ hprev => ?_⟩⟩
  · rcases hname with rfl | rfl <;> decide
  · rw [(hkstat ksp hksp).1, (hkstat ksp hksp).2]
    decide
  · exact absurd (hlast.symm.trans hprev) (Option.some_ne_none _).symm
  · rw [(hkstat ksp hksp).1, (hkstat ksp hksp).2]
    decide
  · exact absurd (hlast.symm.trans hprev) (Option.some_ne_none _).symm

theorem solaris_run_measured_twoDisks :
    Along (step 0) (MeasuresRight 0) opened twoDisks ∧
    (exec (step 0) opened twoDisks).2.map
        (fun report => report.sampled.map fun sampled => (sampled.diff.elapsed, sampled.diff.reads))
      = [some (0, 100), some (0, 100), some (500, 500)] := by
  refine ⟨solaris_run_measured twoDisks ⟨?_, ?_, ?_, trivial⟩, by decide +kernel⟩
  · exact diskAt_first (.inl rfl) rfl fun other hother => absurd rfl hother
  · refine diskAt_first (.inr rfl) (by decide +kernel) fun other hother hhash => ?_
    obtain rfl := (last_step hother).resolve_right fun h => h rfl
    exact absurd hhash (by decide)
  · -- the second sample of `sd0` is measured against its first
    have hfirst : ((step 0 (step 0 opened (diskAt "sd0" 100)).1 (diskAt "sd1" 100)).1.last
        (diskAt "sd0" 600).name).map (fun d => (d.snaptime, d.reads, d.writes, d.wtime, d.rtime))
        = some (100, 100, 100, 100, 100) := by decide +kernel
    have hprev : ∀ prev, (step 0 (step 0 opened (diskAt "sd0" 100)).1 (diskAt "sd1" 100)).1.last
        (diskAt "sd0" 600).name = some prev → prev.snaptime = 100 ∧ prev.reads = 100 ∧
          prev.writes = 100 ∧ prev.wtime = 100 ∧ prev.rtime = 100 := by
      intro prev hlast
      rw [hlast] at hfirst
      simpa using hfirst
    refine ⟨⟨by decide, ?_, ?_⟩, ⟨fun other hother hhash => ?_, fun ksp _ hnone => ?_,
      fun ksp prev _ hlast hzero => ?_⟩⟩
    · rintro ksp ⟨⟩
      decide
    · rintro ksp prev ⟨⟩ hlast
      obtain ⟨hsnap, hreads, hwrites, hwtime, hrtime⟩ := hprev prev hlast
      rw [hsnap, hreads, hwrites, hwtime, hrtime]
      decide
    · rcases last_step hother with rfl | hother
      · exact absurd hhash (by decide)
      · exact (last_step hother).resolve_right fun h => h rfl
    · rw [hnone] at hfirst
      cases hfirst
    · rw [(hprev prev hlast).1] at hzero
      exact absurd hzero (by decide)

/-- **500 ns after its creation** a disk has, for its first sample, an interval of 2^64 - 500. -/
theorem sd0_interval_wraps :
    (step 0 opened (sd0At 600)).2.sampled.map (·.diff.elapsed) = some 18446744073709551116 ∧
    Steady opened (sd0At 600) ∧ ¬ MeasuresRight 0 opened (sd0At 600) := by
  have helapsed : (step 0 opened (sd0At 600)).2.sampled.map (·.diff.elapsed)
      = some 18446744073709551116 := by decide +kernel
  refine ⟨helapsed, sd0At_steady (by decide), fun hright => ?_⟩
  obtain ⟨sampled, hsampled, hdiff⟩ := Option.map_eq_some_iff.mp helapsed
  have hksp : (step 0 opened (sd0At 600)).2.sampled.map (·.ksp.snaptime) = some 600 := by
    decide +kernel
  have hmeasured := (hright sampled hsampled).2.elapsed
  rw [hsampled] at hksp
  have hsnap : sampled.ksp.snaptime = 600 := Option.some.inj hksp
  rw [hdiff, hsnap] at hmeasured
  change (18446744073709551116 : Int) = 600 - _ at hmeasured
  omega

end Sigar.Disk.Solaris
