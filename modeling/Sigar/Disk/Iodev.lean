/-
  The devices of a handle: `sigar_iodev_get` (sigar_util.c).

  A device is cached under the number that `stat` gives for the name the caller has: a device file
  under its own number, a directory under its inode.  The first call for a directory maps ALL local
  file systems to their devices.

  The table is a function from numbers to devices (`Cache.Values`), and a call only ever adds to it:
  `sigarIodevGet_spec` says that the device of a name stays the one it was, with everything that was
  stored in it, and that one that is new has no sample yet.
-/
import Sigar.Util
import Sigar.Cache.Values
import Mathlib.Data.Rat.Defs

namespace Sigar.Disk

open CString Cache

/-! ## The data -/

/-- The counters of `sigar_disk_usage_t`. -/
@[ext]
structure DiskCounters where
  reads : UInt64
  writes : UInt64
  writeBytes : UInt64
  readBytes : UInt64
  rtime : UInt64
  wtime : UInt64
  qtime : UInt64
  time : UInt64
  ios : UInt64
  deriving DecidableEq

/-- `sigar_disk_usage_t`.  A double is a rational number, `none` is one that is no number or
    infinite. -/
structure DiskUsage extends DiskCounters where
  snaptime : UInt64
  serviceTime : Option ℚ
  queue : Option ℚ
  deriving DecidableEq

/-- `SIGAR_FIELD_NOTIMPL` in a double. -/
def notImplDouble : Option ℚ := some (-1)

/-- The counters that are not there. -/
def DiskCounters.notImpl : DiskCounters :=
  ⟨sigarFieldNotImpl, sigarFieldNotImpl, sigarFieldNotImpl, sigarFieldNotImpl, sigarFieldNotImpl,
    sigarFieldNotImpl, sigarFieldNotImpl, sigarFieldNotImpl, sigarFieldNotImpl⟩

/-- `SIGAR_DISK_STATS_INIT`.  It is one chain of assignments, from the right: `ios` gets the mark,
    the doubles next to it get its value, which is rounded to 2^64, and all others get that double
    back as an integer of 64 bits, into which it does not fit.  `tooLarge` is what comes out. -/
def DiskUsage.init (tooLarge : UInt64) : DiskUsage where
  reads := tooLarge
  writes := tooLarge
  writeBytes := tooLarge
  readBytes := tooLarge
  rtime := tooLarge
  wtime := tooLarge
  qtime := tooLarge
  time := tooLarge
  ios := sigarFieldNotImpl
  snaptime := 0
  serviceTime := some 18446744073709551616
  queue := some 18446744073709551616

/-- `SIGAR_ZERO`. -/
def DiskUsage.zero : DiskUsage := ⟨⟨0, 0, 0, 0, 0, 0, 0, 0, 0⟩, 0, some 0, some 0⟩

/-- The size of `iodev->name`. -/
def iodevNameLen : Nat := 256

/-- `sigar_iodev_t`: the name is an array. -/
structure SigarIodev where
  name : Text
  isPartition : Bool
  disk : DiskUsage
  name_length : name.length = iodevNameLen

/-- `SIGAR_SSTRCPY` into the name: as much as fits before a NUL, and NULs. -/
def nameBytes (src : Text) : Text :=
  let text := (src.takeWhile (· ≠ nul)).take (iodevNameLen - 1)
  text ++ List.replicate (iodevNameLen - text.length) nul

theorem nameBytes_length (src : Text) : (nameBytes src).length = iodevNameLen := by
  have htext : ((src.takeWhile (· ≠ nul)).take (iodevNameLen - 1)).length ≤ iodevNameLen - 1 :=
    List.length_take_le _ _
  rw [nameBytes, List.length_append, List.length_replicate]
  rw [iodevNameLen] at htext ⊢
  omega

/-- A new device, cleared but for its name. -/
def SigarIodev.new (src : Text) (isPartition : Bool) : SigarIodev where
  name := nameBytes src
  isPartition := isPartition
  disk := .zero
  name_length := nameBytes_length src

/-- The name as a string. -/
def SigarIodev.path (iodev : SigarIodev) : Text := iodev.name.takeWhile (· ≠ nul)

/-- An error number. -/
abbrev Errno := {e : Status // e ≠ sigarOk}

/-- What `stat` says of a file. -/
structure FileStat where
  isBlk : Bool
  rdev : UInt64
  ino : UInt64
  dev : UInt64

/-- `sigar_file_system_t`. -/
structure FileSystem where
  localDisk : Bool  -- `SIGAR_FSTYPE_LOCAL_DISK`
  dirName : Text
  devName : Text

/-- What a call sees of its host.  `clock` has the clock readings of the cache, `junk` what the
    variables of the row loop hold in each round before they are set, and `tooLarge` what the machine
    makes of 2^64 as an integer of 64 bits. -/
structure DiskHost where
  stat : Text → Except Errno FileStat
  fileSystems : Except Errno (List FileSystem)
  diskstats : Except Errno Text   -- /proc/diskstats
  partitions : Except Errno Text  -- /proc/partitions
  sysStat : Text → FileRead       -- a file under /sys/block
  uptime : ℚ
  now : UInt64
  clock : Nat → Clock
  junk : Nat → Nat → UInt64
  tooLarge : UInt64

def DiskHost.init (host : DiskHost) : DiskUsage := .init host.tooLarge

/-! ## The code -/

/-- `SIGAR_FSDEV_ID`. -/
def sigarFsdevId (sb : FileStat) : UInt64 :=
  if sb.isBlk then sb.rdev else (sb.ino <<< 32) + sb.dev

/-- `SIGAR_DEV_PREFIX`. -/
def sigarDevPrefix : Text := "/dev/".toList

/-- `SIGAR_NAME_IS_DEV`. -/
def sigarNameIsDev (dev : Text) : Bool := strnEq dev sigarDevPrefix 5

/-- `SIGAR_FS_NAME_LEN`. -/
def sigarFsNameLen : Nat := 4096

/-- A local file system is mapped to its device, if that can be told. -/
def mapFileSystem (host : DiskHost) (clock : Clock) (fsp : FileSystem)
    (table : SigarCache SigarIodev) : SigarCache SigarIodev :=
  if fsp.localDisk then
    match host.stat fsp.dirName with
    | .error _ => table  -- cant cache w/o inode
    | .ok sb =>
      let (table, ent) := sigarCacheGet table (sigarFsdevId sb) clock
      if ent.value.isSome then table  -- already cached
      else if sigarNameIsDev fsp.devName then
        storeValue table ent.addr (some (.new fsp.devName true))
      else table
  else table

/-- The loop over the file systems. -/
def mapFileSystems (host : DiskHost) : Nat → List FileSystem → SigarCache SigarIodev →
    SigarCache SigarIodev
  | _, [], table => table
  | i, fsp :: fslist, table =>
    mapFileSystems host (i + 1) fslist (mapFileSystem host (host.clock i) fsp table)

/-- The name that is asked for, and whether it is one of a device. -/
def deviceName (dirname : Text) : Text × Bool :=
  if deref dirname ≠ '/' then ((sigarDevPrefix ++ dirname).take (sigarFsNameLen - 1), true)
  else (dirname, sigarNameIsDev dirname)

/-- `sigar->fsdev`, made when there is none. -/
def openFsdev (host : DiskHost) (fsdev : Option (SigarCache SigarIodev)) : SigarCache SigarIodev :=
  fsdev.getD (sigarCacheNew SigarIodev 15 host.now)

theorem openFsdev_none_kept (host : DiskHost) : Kept (openFsdev host none) :=
  sigarCacheNew_kept SigarIodev (by decide) host.now

/-- `sigar_iodev_get`: the cache, and the device with its entry. -/
def sigarIodevGet (host : DiskHost) (fsdev : Option (SigarCache SigarIodev))
    (dirname : Text) : SigarCache SigarIodev × Option (Nat × SigarIodev) :=
  let table := openFsdev host fsdev
  let (dirname, isDev) := deviceName dirname
  match host.stat dirname with
  | .error _ => (table, none)
  | .ok sb =>
    let (table, entry) := sigarCacheGet table (sigarFsdevId sb) (host.clock 0)
    match entry.value with
    | some iodev => (table, some (entry.addr, iodev))
    | none =>
      if isDev then
        let iodev := SigarIodev.new dirname false
        (storeValue table entry.addr (some iodev), some (entry.addr, iodev))
      else match host.fileSystems with
        | .error _ => (table, none)
        | .ok fslist =>
          let table := mapFileSystems host 1 fslist table
          match loadValue table entry.addr with
          | some iodev =>
            if deref iodev.name ≠ nul then (table, some (entry.addr, iodev)) else (table, none)
          | none => (table, none)

/-- The first call for a device file. -/
theorem sigarIodevGet_new {host : DiskHost} {dirname : Text} {sb : FileStat}
    (hdev : (deviceName dirname).2 = true) (hstat : host.stat (deviceName dirname).1 = .ok sb) :
    ∃ table addr, sigarIodevGet host none dirname =
      (table, some (addr, .new (deviceName dirname).1 false)) := by
  obtain ⟨-, hentry, -⟩ := (openFsdev_none_kept host).get (sigarFsdevId sb) (host.clock 0)
  rw [openFsdev, Option.getD_none, valueOf_new] at hentry
  unfold sigarIodevGet
  dsimp only
  rw [hstat]
  dsimp only
  rw [openFsdev, Option.getD_none, hentry]
  dsimp only
  rw [if_pos hdev]
  exact ⟨_, _, rfl⟩

/-! ## What a call does to the cache -/

/-- Devices are added and none is changed; one that is new has no sample, and is a partition or
    not, as said. -/
structure Grows (isPartition : Bool) (table result : SigarCache SigarIodev) : Prop where
  kept : Kept result
  value : ∀ k, result.valueOf k = table.valueOf k ∨
    table.valueOf k = none ∧ ∃ src, result.valueOf k = some (.new src isPartition)
  points : ∀ k addr, PointsTo table k addr → PointsTo result k addr

variable {isPartition : Bool}

theorem grows_of_same {table result : SigarCache SigarIodev} (h : Same table result) :
    Grows isPartition table result := ⟨h.kept, fun k => .inl (h.value k), h.points⟩

theorem Grows.trans {a b c : SigarCache SigarIodev} (h : Grows isPartition a b)
    (h' : Grows isPartition b c) : Grows isPartition a c := by
  refine ⟨h'.kept, fun k => ?_, fun k addr hp => h'.points k addr (h.points k addr hp)⟩
  rcases h.value k with heq | ⟨hnone, hnew⟩
  · rw [← heq]
    exact h'.value k
  · rcases h'.value k with heq | ⟨hnone', -⟩
    · rw [heq]
      exact .inr ⟨hnone, hnew⟩
    · grind

/-- A device is stored where there was none. -/
theorem Grows.store {table : SigarCache SigarIodev} (hk : Kept table) {key : UInt64} {addr : Nat}
    (hp : PointsTo table key addr) (hnone : table.valueOf key = none) (src : Text) :
    Grows isPartition table (storeValue table addr (some (.new src isPartition))) := by
  obtain ⟨hkept, hvalue, hpoints⟩ := hk.store hp (some (.new src isPartition))
  refine ⟨hkept, fun k => ?_, hpoints⟩
  rw [hvalue]
  split
  · grind
  · exact .inl rfl

theorem mapFileSystem_grows (host : DiskHost) (clock : Clock) (fsp : FileSystem)
    {table : SigarCache SigarIodev} (hk : Kept table) :
    Grows true table (mapFileSystem host clock fsp table) := by
  have hself : Grows true table table := ⟨hk, fun _ => .inl rfl, fun _ _ h => h⟩
  unfold mapFileSystem
  split
  · cases host.stat fsp.dirName with
    | error e => exact hself
    | ok sb =>
      obtain ⟨hsame, hvalue, hp⟩ := hk.get (sigarFsdevId sb) clock
      dsimp only
      split
      · exact grows_of_same hsame
      · next hnone =>
        split
        · refine (grows_of_same hsame).trans (Grows.store hsame.kept hp ?_ _)
          rw [hsame.value, ← hvalue]
          exact Option.not_isSome_iff_eq_none.mp hnone
        · exact grows_of_same hsame
  · exact hself

theorem mapFileSystems_grows (host : DiskHost) : ∀ (fslist : List FileSystem) (i : Nat)
    {table : SigarCache SigarIodev}, Kept table →
      Grows true table (mapFileSystems host i fslist table) := by
  intro fslist
  induction fslist with
  | nil => intro i table hk; exact ⟨hk, fun _ => .inl rfl, fun _ _ h => h⟩
  | cons fsp fslist ih =>
    intro i table hk
    have hone := mapFileSystem_grows host (host.clock i) fsp hk
    exact hone.trans (ih (i + 1) hone.kept)

/-- **What `sigar_iodev_get` does**: the cache grows, by partitions if the name is not one of a
    device, and a device that is found is the one that the cache has for the number of the name. -/
theorem sigarIodevGet_spec (host : DiskHost) {fsdev : Option (SigarCache SigarIodev)}
    (dirname : Text) (hk : Kept (openFsdev host fsdev)) :
    Grows (!(deviceName dirname).2) (openFsdev host fsdev) (sigarIodevGet host fsdev dirname).1 ∧
    ∀ addr iodev, (sigarIodevGet host fsdev dirname).2 = some (addr, iodev) →
      ∃ sb, host.stat (deviceName dirname).1 = .ok sb ∧
        PointsTo (sigarIodevGet host fsdev dirname).1 (sigarFsdevId sb) addr ∧
        (sigarIodevGet host fsdev dirname).1.valueOf (sigarFsdevId sb) = some iodev := by
  unfold sigarIodevGet
  dsimp only
  cases hstat : host.stat (deviceName dirname).1 with
  | error e =>
    exact ⟨⟨hk, fun _ => .inl rfl, fun _ _ h => h⟩, fun _ _ h => by cases h⟩
  | ok sb =>
    obtain ⟨hsame, hvalue, hp⟩ := hk.get (sigarFsdevId sb) (host.clock 0)
    dsimp only
    cases hentry : (sigarCacheGet (openFsdev host fsdev) (sigarFsdevId sb)
        (host.clock 0)).2.value with
    | some iodev =>
      refine ⟨grows_of_same hsame, ?_⟩
      rintro addr iodev' ⟨⟩
      refine ⟨sb, rfl, hp, ?_⟩
      rw [hsame.value, ← hvalue, hentry]
    | none =>
      have hnone : (sigarCacheGet (openFsdev host fsdev) (sigarFsdevId sb)
          (host.clock 0)).1.valueOf (sigarFsdevId sb) = none := by
        rw [hsame.value, ← hvalue, hentry]
      dsimp only
      split
      · next hdev =>
        -- a device file
        have hstore := @Grows.store false _ hsame.kept _ _ hp hnone (deviceName dirname).1
        rw [hdev]
        refine ⟨(grows_of_same hsame).trans hstore, ?_⟩
        rintro addr iodev ⟨⟩
        refine ⟨sb, rfl, hstore.points _ _ hp, ?_⟩
        rw [(hsame.kept.store hp _).2.1, if_pos rfl]
      · next hdev =>
        -- a directory
        rw [Bool.not_eq_true] at hdev
        rw [hdev]
        cases host.fileSystems with
        | error e => exact ⟨grows_of_same hsame, fun _ _ h => by cases h⟩
        | ok fslist =>
          have hmap := mapFileSystems_grows host fslist 1 hsame.kept
          have hload := (hmap.points _ _ hp).load hmap.kept.owned
          refine ⟨?_, fun addr iodev h => ?_⟩
          · dsimp only
            split
            · split <;> exact (grows_of_same hsame).trans hmap
            · exact (grows_of_same hsame).trans hmap
          · dsimp only at h ⊢
            rw [hload] at h ⊢
            split at h
            · next found hfound =>
              split at h
              · next hname =>
                cases h
                rw [if_pos hname]
                exact ⟨sb, rfl, hmap.points _ _ hp, hfound⟩
              · cases h
            · cases h

/-- A device that is cached is found, by any name that has its number. -/
theorem sigarIodevGet_cached {host : DiskHost} {table : SigarCache SigarIodev} {dirname : Text}
    {sb : FileStat} {iodev : SigarIodev} (hk : Kept table)
    (hstat : host.stat (deviceName dirname).1 = .ok sb)
    (hvalue : table.valueOf (sigarFsdevId sb) = some iodev) :
    ∃ result addr, sigarIodevGet host (some table) dirname = (result, some (addr, iodev)) ∧
      Same table result ∧ PointsTo result (sigarFsdevId sb) addr := by
  obtain ⟨hsame, hentry, hp⟩ := hk.get (sigarFsdevId sb) (host.clock 0)
  rw [hvalue] at hentry
  refine ⟨_, _, ?_, hsame, hp⟩
  rw [sigarIodevGet, openFsdev, Option.getD_some]
  dsimp only
  rw [hstat]
  dsimp only
  rw [hentry]

end Sigar.Disk
