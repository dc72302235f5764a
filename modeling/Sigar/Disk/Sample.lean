/-
  What a call of `sigar_disk_usage_get` leaves in the device.

  The sample before is not kept by the caller: it is in the device, in the cache of the handle.
  `fetch_found` says which device each of the back ends finds, and `sigarDiskUsageGet_taken` what a
  call that succeeds does with it: the metrics are derived from the sample that the device has kept,
  and the new sample takes its place.
-/
import Sigar.Disk.Iostat

namespace Sigar.Disk

open CString Cache

/-- The sample that a device keeps; a device that is not there yet will start with a cleared one. -/
def keptSample (table : SigarCache SigarIodev) (key : UInt64) : DiskUsage :=
  ((table.valueOf key).map SigarIodev.disk).getD .zero

/-- The device of a name is a partition: it is cached as one, or will be. -/
def asPartition (table : SigarCache SigarIodev) (key : UInt64) (name : Text) : Bool :=
  ((table.valueOf key).map SigarIodev.isPartition).getD (!(deviceName name).2)

/-- The device that a back end has found, from the cache `before` to the cache `table`. -/
structure Found (before : SigarCache SigarIodev) (name : Text) (key : UInt64)
    (table : SigarCache SigarIodev) (addr : Nat) (iodev : SigarIodev) : Prop where
  kept : Kept table
  points : PointsTo table key addr
  value : table.valueOf key = some iodev
  disk : iodev.disk = keptSample before key
  isPartition : iodev.isPartition = asPartition before key name

theorem sigarIodevGet_found {host : DiskHost} {fsdev : Option (SigarCache SigarIodev)}
    {name : Text} {addr : Nat} {iodev : SigarIodev} (hk : Kept (openFsdev host fsdev))
    (h : (sigarIodevGet host fsdev name).2 = some (addr, iodev)) :
    ∃ sb, host.stat (deviceName name).1 = .ok sb ∧
      Found (openFsdev host fsdev) name (sigarFsdevId sb) (sigarIodevGet host fsdev name).1 addr
        iodev := by
  obtain ⟨hgrows, hfound⟩ := sigarIodevGet_spec host name hk
  obtain ⟨sb, hstat, hpoints, hvalue⟩ := hfound addr iodev h
  refine ⟨sb, hstat, hgrows.kept, hpoints, hvalue, ?_, ?_⟩
  · rcases hgrows.value (sigarFsdevId sb) with hsame | ⟨hnone, src, hnew⟩
    · rw [keptSample, ← hsame, hvalue]
      rfl
    · rw [hvalue] at hnew
      rw [keptSample, hnone, Option.some.inj hnew]
      rfl
  · rcases hgrows.value (sigarFsdevId sb) with hsame | ⟨hnone, src, hnew⟩
    · rw [asPartition, ← hsame, hvalue]
      rfl
    · rw [hvalue] at hnew
      rw [asPartition, hnone, Option.some.inj hnew]
      rfl

/-- The device is stored with other contents, but still with its sample and its flag. -/
theorem Found.store {before table : SigarCache SigarIodev} {name : Text} {key : UInt64}
    {addr : Nat} {iodev iodev' : SigarIodev} (h : Found before name key table addr iodev)
    (hdisk : iodev'.disk = iodev.disk) (hpartition : iodev'.isPartition = iodev.isPartition) :
    Found before name key (storeValue table addr (some iodev')) addr iodev' := by
  obtain ⟨hkept, hvalue, hpoints⟩ := h.kept.store h.points (some iodev')
  refine ⟨hkept, hpoints _ _ h.points, ?_, hdisk.trans h.disk, hpartition.trans h.isPartition⟩
  rw [hvalue, if_pos rfl]

/-! ## The back ends -/

theorem getIostatProcp_found (host : DiskHost) (fsdev : Option (SigarCache SigarIodev))
    (name : Text) (disk : DiskUsage) :
    ((getIostatProcp host fsdev name disk).fsdev,
      (getIostatProcp host fsdev name disk).iodev) = sigarIodevGet host fsdev name := by
  unfold getIostatProcp
  split
  · next h => exact h.symm
  · grind

theorem cutName_device {iodev iodev' : SigarIodev} {path : Text}
    (h : cutName iodev = .ok (path, iodev')) :
    iodev'.disk = iodev.disk ∧ iodev'.isPartition = iodev.isPartition := by
  grind [Except.ok.injEq, Prod.mk.injEq, cutName]

section SysBlock

variable {host : DiskHost} {fsdev : Option (SigarCache SigarIodev)} {name : Text}
  {table : SigarCache SigarIodev} {addr : Nat} {iodev : SigarIodev}

theorem getIostatSys_fault (hget : sigarIodevGet host fsdev name = (table, some (addr, iodev)))
    {e : DiskFault} (hcut : cutName iodev = .error e) (disk : DiskUsage) :
    getIostatSys host fsdev name disk = .error e := by
  rw [getIostatSys, hget]
  dsimp only
  rw [hcut]
  rfl

/-- What the third back end does: the device is stored with its name cut, and the file is read. -/
theorem getIostatSys_cut (hget : sigarIodevGet host fsdev name = (table, some (addr, iodev)))
    {path : Text} {iodev' : SigarIodev} (hcut : cutName iodev = .ok (path, iodev'))
    (disk : DiskUsage) :
    getIostatSys host fsdev name disk = .ok
      ⟨storeValue table addr (some iodev'), (sigarFile2str rowSize (host.sysStat path)).1,
        if (sigarFile2str rowSize (host.sysStat path)).1 ≠ sigarOk then disk
        else sysStatRow (sigarFile2str rowSize (host.sysStat path)).2 disk,
        some (addr, iodev'), host.init⟩ := by
  rw [getIostatSys, hget]
  dsimp only
  rw [hcut]
  simp only [bind, Except.bind]
  by_cases hread : (sigarFile2str rowSize (host.sysStat path)).1 ≠ sigarOk
  · rw [if_pos hread, if_pos hread]
  · rw [if_neg hread, if_neg hread, not_not.mp hread]

end SysBlock

/-- **What a back end comes to**: there is no device and no success, or the device is the one that
    `sigar_iodev_get` finds, as it is in the cache or stored again with another name. -/
theorem fetch_cases {host : DiskHost} {handle : DiskHandle} {name : Text} {fetched : Fetched}
    (h : fetch host handle name = .ok fetched) :
    (fetched.iodev = none ∧ fetched.status ≠ sigarOk) ∨
      ∃ table addr found iodev, sigarIodevGet host handle.fsdev name = (table, some (addr, found)) ∧
        fetched.iodev = some (addr, iodev) ∧
        iodev.disk = found.disk ∧ iodev.isPartition = found.isPartition ∧
        (fetched.fsdev = table ∧ iodev = found ∨
          fetched.fsdev = storeValue table addr (some iodev)) := by
  have henxio : enxio ≠ sigarOk := by decide
  have henoent : enoent ≠ sigarOk := by decide
  unfold fetch at h
  split at h
  · rcases hget : sigarIodevGet host handle.fsdev name with ⟨table, _ | ⟨addr, found⟩⟩
    · grind [getIostatSys]
    · cases hcut : cutName found with
      | error e =>
        rw [getIostatSys_fault hget hcut] at h
        cases h
      | ok cut =>
        obtain ⟨hdisk, hpartition⟩ := cutName_device hcut
        rw [getIostatSys_cut hget hcut] at h
        cases h
        exact .inr ⟨table, addr, found, cut.2, rfl, rfl, hdisk, hpartition, .inr rfl⟩
  · grind [getIostatProcDstat, Prod.mk.injEq]
  · cases h
    have hfound := getIostatProcp_found host handle.fsdev name host.init
    rcases hget : sigarIodevGet host handle.fsdev name with ⟨table, _ | ⟨addr, found⟩⟩
    · rw [getIostatProcp, hget]
      exact .inl ⟨rfl, henxio⟩
    · grind
  · cases h
    exact .inl ⟨rfl, henoent⟩

/-- **The device of a back end**, whichever it is. -/
theorem fetch_found {host : DiskHost} {handle : DiskHandle} {name : Text} {fetched : Fetched}
    {addr : Nat} {iodev : SigarIodev} (hk : Kept (openFsdev host handle.fsdev))
    (h : fetch host handle name = .ok fetched) (hiodev : fetched.iodev = some (addr, iodev)) :
    ∃ sb, host.stat (deviceName name).1 = .ok sb ∧
      Found (openFsdev host handle.fsdev) name (sigarFsdevId sb) fetched.fsdev addr iodev := by
  rcases fetch_cases h with ⟨hnone, -⟩ | ⟨table, addr', found, iodev', hget, hsome, hdisk, hpart, hfsdev⟩
  · rw [hnone] at hiodev
    cases hiodev
  · rw [hsome, Option.some.injEq, Prod.mk.injEq] at hiodev
    obtain ⟨rfl, rfl⟩ := hiodev
    have hfound := @sigarIodevGet_found host handle.fsdev name addr' found hk (by rw [hget])
    rw [hget] at hfound
    obtain ⟨sb, hstat, hdevice⟩ := hfound
    refine ⟨sb, hstat, ?_⟩
    rcases hfsdev with ⟨htable, rfl⟩ | hstore
    · rwa [htable]
    · rw [hstore]
      exact hdevice.store hdisk hpart

/-! ## The call -/

/-- A call: what it sees of the host, and the name. -/
structure DiskCall where
  host : DiskHost
  name : Text

/-- The name of a call is one of the device `key`. -/
def DiskCall.IsOn (key : UInt64) (call : DiskCall) : Prop :=
  ∃ sb, call.host.stat (deviceName call.name).1 = .ok sb ∧ sigarFsdevId sb = key

/-- What a call does that has found `sample`: the device of the number `key` keeps it with what is
    derived from it, and the caller gets the derived metrics. -/
structure Taken (host : DiskHost) (before : SigarCache SigarIodev) (key : UInt64)
    (sample : DiskUsage) (table : SigarCache SigarIodev) (usage : DiskUsage) : Prop where
  kept : Kept table
  sample : keptSample table key = deriveMetrics host.uptime (keptSample before key) sample
  serviceTime : usage.serviceTime = (keptSample table key).serviceTime
  queue : usage.queue = (keptSample table key).queue

theorem finishUsage_taken {host : DiskHost} {iostat : Iostat} {fetched : Fetched}
    {before : SigarCache SigarIodev} {name : Text} {key : UInt64} {addr : Nat}
    {iodev : SigarIodev} (hfound : Found before name key fetched.fsdev addr iodev)
    (hiodev : fetched.iodev = some (addr, iodev)) (hok : fetched.status = sigarOk) :
    (finishUsage host iostat fetched).2.1 = sigarOk ∧
      Taken host before key (fetched.sample iostat iodev) (finishUsage host iostat fetched).1
        (finishUsage host iostat fetched).2.2 := by
  have htaken : ∀ usage : DiskUsage,
      usage.serviceTime = (deriveMetrics host.uptime iodev.disk (fetched.sample iostat iodev)).serviceTime →
      usage.queue = (deriveMetrics host.uptime iodev.disk (fetched.sample iostat iodev)).queue →
      Taken host before key (fetched.sample iostat iodev)
        (storeValue fetched.fsdev addr (some { iodev with
          disk := deriveMetrics host.uptime iodev.disk (fetched.sample iostat iodev) })) usage := by
    intro usage htime hqueue
    obtain ⟨hkept, hvalue, -⟩ := hfound.kept.store hfound.points (some { iodev with
      disk := deriveMetrics host.uptime iodev.disk (fetched.sample iostat iodev) })
    have hsample := congrArg (fun found => (found.map SigarIodev.disk).getD .zero) (hvalue key)
    rw [if_pos rfl] at hsample
    refine ⟨hkept, ?_, ?_, ?_⟩
    · rw [← hfound.disk]
      exact hsample
    · exact htime.trans (congrArg DiskUsage.serviceTime hsample).symm
    · exact hqueue.trans (congrArg DiskUsage.queue hsample).symm
  unfold finishUsage
  rw [hiodev]
  dsimp only
  rw [if_neg fun h => h hok]
  split
  · exact ⟨rfl, htaken _ rfl rfl⟩
  · exact ⟨rfl, htaken _ rfl rfl⟩

/-- **What a call does whose back end succeeds.** -/
theorem sigarDiskUsageGet_taken {host : DiskHost} {handle : DiskHandle} {name : Text}
    {fetched : Fetched} {addr : Nat} {iodev : SigarIodev} (hk : Kept (openFsdev host handle.fsdev))
    (hfetch : fetch host handle name = .ok fetched) (hok : fetched.status = sigarOk)
    (hiodev : fetched.iodev = some (addr, iodev)) :
    ∃ sb table usage, host.stat (deviceName name).1 = .ok sb ∧
      Found (openFsdev host handle.fsdev) name (sigarFsdevId sb) fetched.fsdev addr iodev ∧
      sigarDiskUsageGet host handle name = .ok (⟨some table, handle.iostat⟩, sigarOk, usage) ∧
      Taken host (openFsdev host handle.fsdev) (sigarFsdevId sb)
        (fetched.sample handle.iostat iodev) table usage := by
  obtain ⟨sb, hstat, hfound⟩ := fetch_found hk hfetch hiodev
  obtain ⟨hstatus, htaken⟩ :=
    @finishUsage_taken host handle.iostat _ _ _ _ _ _ hfound hiodev hok
  refine ⟨sb, _, _, hstat, hfound, ?_, htaken⟩
  rw [sigarDiskUsageGet, hfetch, ← hstatus]
  rfl

/-- A call succeeds only if its back end does. -/
theorem sigarDiskUsageGet_ok {host : DiskHost} {handle handle' : DiskHandle} {name : Text}
    {usage : DiskUsage} (h : sigarDiskUsageGet host handle name = .ok (handle', sigarOk, usage)) :
    ∃ fetched addr iodev, fetch host handle name = .ok fetched ∧ fetched.status = sigarOk ∧
      fetched.iodev = some (addr, iodev) := by
  unfold sigarDiskUsageGet at h
  cases hfetch : fetch host handle name with
  | error e =>
    rw [hfetch] at h
    cases h
  | ok fetched =>
    rw [hfetch] at h
    simp only [bind, Except.bind, pure, Except.pure, Except.ok.injEq, Prod.mk.injEq] at h
    obtain ⟨-, hstatus, -⟩ := h
    have hok : fetched.status = sigarOk := by grind [finishUsage]
    rcases fetch_cases hfetch with ⟨-, hnot⟩ | ⟨-, addr, -, iodev, -, hiodev, -⟩
    · exact absurd hok hnot
    · exact ⟨fetched, addr, iodev, rfl, hok, hiodev⟩

end Sigar.Disk
