/-
  The disks of `/etc/path_to_inst` on Solaris.

  Source: `get_fsdev_paths` and `create_fsdev_cache` of `os/solaris/solaris_sigar.c`.

  One function fills an array with the disks that the kernel knows, one entry for each local file
  system and one that is to stay EMPTY; the other searches it up to the first empty name.

  1. **Program** — the line buffer is never cleared: a line that ends behind its number is read on into
     what earlier lines have left (`memory`, of any length; what follows it is read as NUL).
  2. **Filling** (`pathsLoop_filled`) — every write is inside, and the array holds as many names as there
     are disks, up to its length.
  3. **Result** — an entry stays empty, so that no search leaves the array, exactly when there are at
     most as many disks as local file systems (`fsdev_safe_iff`).
-/
import Sigar.Base
import Sigar.Lib.Fallible
import Sigar.Lib.Numerals

namespace Sigar.Disk.FsdevPaths

open CString Numerals Fallible List

/-! ## The program -/

/-- `fsdev_path_t`; a name is empty where its first byte is NUL. -/
structure FsdevPath where
  device : Text
  name : Text
  instance' : Int32
  deriving DecidableEq

inductive FsdevFault where
  | size     -- the size of the array is no `int`
  | outside  -- an entry outside of the array
  deriving DecidableEq

/-- `BUFSIZ` and `PATH_MAX` of Solaris, and `sizeof(fsdev_path_t)`. -/
def bufsiz : Nat := 1024
@[inherit_doc bufsiz] def pathMax : Nat := 1024
@[inherit_doc bufsiz] def entrySize : Nat := 1036

/-- `SIGAR_SSTRCPY` into an array of `size` bytes. -/
def sstrcpy (size : Nat) (src : Text) : Text := src.take (size - 1)

/-- The drivers of disks. -/
def diskDrivers : List String := ["sd", "ssd", "st", "dad", "cmdk"]

/-- A line with three fields: the path of a device, the number of the instance, and the driver. -/
structure Line where
  dev : Text
  inst : Text
  drv : Text

/-- A NUL is written where `ptr` points. -/
def putNul (memory ptr : Text) : Text := memory.set (memory.length - ptr.length) nul

/-- The text up to `q`. -/
def upTo (ptr q : Text) : Text := ptr.take (ptr.length - q.length)

def skipQuote (ptr : Text) : Text := if deref ptr = '"' then ptr.tail else ptr

/-- A round of the `while` loop up to the driver: the fields if there are any, and the buffer. -/
def parseLine (memory : Text) : Option Line × Text :=
  let ptr := memory.dropWhile isSpace
  if deref ptr = '#' then (none, memory)
  else
    let dev := skipQuote ptr
    match strchr dev '"' with
    | none => (none, memory)
    | some q =>
      let inst := q.tail.dropWhile isSpace
      let ptr := inst.dropWhile Char.isDigit
      let drv := skipQuote (ptr.tail.dropWhile isSpace)  -- also behind the end of the line
      let memory := putNul (putNul memory q) ptr
      match strchr drv '"' with
      | none => (none, memory)
      | some end' => (some ⟨upTo dev q, upTo inst ptr, upTo drv end'⟩, putNul memory end')

/-- A write to entry `k`. -/
def write (mapping : List FsdevPath) (k : Nat) (f : FsdevPath → FsdevPath) :
    Except FsdevFault (List FsdevPath) :=
  if k < mapping.length then .ok (mapping.modify k f) else .error .outside

section Paths

/- `kstat_lookup`, by driver and instance. -/
variable (kstat : Text → Int32 → Bool)

/-- The `while` loop; `paths` points to entry `k`. -/
def pathsLoop : List Text → Text → List FsdevPath → Nat → Int →
    Except FsdevFault (List FsdevPath)
  | [], _, mapping, _, _ => .ok mapping
  | text :: lines, memory, mapping, k, ndisk =>
    match parseLine (overwrite memory text) with
    | (none, memory) => pathsLoop lines memory mapping k ndisk
    | (some line, memory) =>
      if String.ofList line.drv ∉ diskDrivers then pathsLoop lines memory mapping k ndisk
      else do
        let mapping ← write mapping k fun e => { e with instance' := atoi line.inst }
        if kstat line.drv (atoi line.inst) = false then pathsLoop lines memory mapping k ndisk
        else
          let mapping ← write mapping k fun e =>
            { e with device := sstrcpy pathMax line.dev, name := sstrcpy 8 line.drv }
          if ndisk - 1 < 0 then return mapping  -- prevent overflow
          else pathsLoop lines memory mapping (k + 1) (ndisk - 1)

/-- A file system of the list: whether it is a local disk, where its device name links to, and the id
    of the device that `stat` finds for its directory. -/
structure FileSystem where
  localDisk : Bool
  link : Option Text
  stat : Option UInt64

/-- The number of local disks. -/
def ndiskOf (fslist : List FileSystem) : Nat := fslist.countP FileSystem.localDisk

/-- `get_fsdev_paths`; `none` if the file cannot be opened. -/
def getFsdevPaths (fslist : List FileSystem) (file : Option Text) (memory : Text) :
    Except FsdevFault (Option (List FsdevPath)) :=
  match file with
  | none => .ok none
  | some text =>
    let ndisk := ndiskOf fslist
    if intMax < entrySize * (ndisk + 1) then .error .size
    else (pathsLoop kstat (fgetsLines bufsiz text []) memory
      (replicate (ndisk + 1) ⟨[], [], 0⟩) 0 ndisk).map some

/-- The search for the path `ptr`. -/
def searchLoop (ptr : Text) : List FsdevPath → Except FsdevFault (Option FsdevPath)
  | [] => .error .outside
  | path :: paths =>
    if path.name = [] then .ok none
    else if strnEq path.device ptr path.device.length then .ok (some path)
    else searchLoop ptr paths

/-- `while (strnEQ(ptr, "../", 3)) ptr += 3`. -/
def skipUp : Text → Text
  | '.' :: '.' :: '/' :: ptr => skipUp ptr
  | ptr => ptr

/-- `snprintf(iodev->name, ..., "%s%d,%c", ...)`. -/
def iodevName (path : FsdevPath) (partition : Char) : Text :=
  path.name ++ renderInt path.instance'.toInt ++ ',' :: (if partition = nul then [] else [partition])

/-- A round of `create_fsdev_cache`: the key and the name that it puts into the cache. -/
def mapDisk (mapping : List FsdevPath) (fsp : FileSystem) :
    Except FsdevFault (Option (UInt64 × Text)) :=
  match fsp.localDisk, fsp.link with
  | true, some device =>
    let ptr := skipUp device
    let ptr := if strnEq ptr "devices".toList 7 then ptr.drop 7 else ptr
    match strchr ptr ':' with
    | none => .ok none
    | some s => do
      match ← searchLoop ptr mapping, fsp.stat with
      | some path, some id => return some (id, iodevName path (deref s.tail))
      | _, _ => return none
  | _, _ => .ok none

/-- `create_fsdev_cache`, from the list of file systems on: what it puts into the cache, or `none` if
    there is no file. -/
def createFsdevCache (fslist : List FileSystem) (file : Option Text) (memory : Text) :
    Except FsdevFault (Option (List (UInt64 × Text))) := do
  match ← getFsdevPaths kstat fslist file memory with
  | none => return none
  | some mapping => return some ((← fslist.mapM (mapDisk mapping)).filterMap id)

/-! ## The array -/

/-- The lines that name a disk of the kernel. -/
def disks : List Text → Text → List Line
  | [], _ => []
  | text :: lines, memory =>
    match parseLine (overwrite memory text) with
    | (none, memory) => disks lines memory
    | (some line, memory) =>
      if String.ofList line.drv ∈ diskDrivers ∧ kstat line.drv (atoi line.inst) = true then
        line :: disks lines memory
      else disks lines memory

/-- The first `k` entries have a name, and no other has. -/
def Filled (mapping : List FsdevPath) (k : Nat) : Prop :=
  ∀ i entry, mapping[i]? = some entry → (entry.name ≠ [] ↔ i < k)

variable {kstat} {mapping : List FsdevPath} {k : Nat}

/-- A write that keeps the names keeps what is filled. -/
theorem Filled.modify (h : Filled mapping k) {f : FsdevPath → FsdevPath}
    (hf : ∀ entry, (f entry).name = entry.name) : Filled (mapping.modify k f) k := by
  intro i entry hentry
  rw [getElem?_modify] at hentry
  obtain ⟨old, hold, rfl⟩ := Option.map_eq_some_iff.mp hentry
  split <;> simpa [hf] using h i old hold

/-- A name for the next entry. -/
theorem Filled.name (h : Filled mapping k) {f : FsdevPath → FsdevPath}
    (hf : ∀ entry, (f entry).name ≠ []) : Filled (mapping.modify k f) (k + 1) := by
  intro i entry hentry
  rw [getElem?_modify] at hentry
  obtain ⟨old, hold, rfl⟩ := Option.map_eq_some_iff.mp hentry
  have := h i old hold
  by_cases hi : k = i
  · simp [hi, hf]
  · simp only [hi, if_false, this]
    omega

theorem Filled.empty_iff (h : Filled mapping k) :
    (∃ entry ∈ mapping, entry.name = []) ↔ k < mapping.length := by
  constructor
  · rintro ⟨entry, hentry, hname⟩
    obtain ⟨i, hi, hget⟩ := getElem_of_mem hentry
    have := h i entry (List.getElem?_eq_some_iff.mpr ⟨hi, hget⟩)
    have : ¬ i < k := fun hlt => this.mpr hlt hname
    omega
  · intro hk
    refine ⟨mapping[k], getElem_mem hk, ?_⟩
    have := h k mapping[k] (getElem?_eq_getElem hk)
    simpa using this

theorem sstrcpy_driver {drv : Text} (h : String.ofList drv ∈ diskDrivers) :
    sstrcpy 8 drv ≠ [] := by
  rintro hnil
  cases drv with
  | nil => exact absurd h (by decide)
  | cons c drv => cases hnil

/-- **Every write is inside, and the disks have their names one after the other**, up to the end of the
    array. -/
theorem pathsLoop_filled : ∀ {lines : List Text} {memory : Text}
    {mapping : List FsdevPath} {k ndisk : Nat}, mapping.length = k + ndisk + 1 → Filled mapping k →
      ∃ mapping', pathsLoop kstat lines memory mapping k ndisk = .ok mapping' ∧
        mapping'.length = mapping.length ∧
        Filled mapping' (min (k + (disks kstat lines memory).length) mapping.length) := by
  intro lines
  induction lines with
  | nil =>
    intro memory mapping k ndisk hlength hfilled
    refine ⟨mapping, rfl, rfl, ?_⟩
    rwa [disks, length_nil, Nat.add_zero, Nat.min_eq_left (by omega)]
  | cons text lines ih =>
    intro memory mapping k ndisk hlength hfilled
    rw [pathsLoop, disks]
    obtain ⟨_ | line, memory⟩ := parseLine (overwrite memory text)
    · exact ih hlength hfilled
    · dsimp only
      by_cases hdriver : String.ofList line.drv ∈ diskDrivers
      · have hwrite : ∀ (m : List FsdevPath) f, m.length = mapping.length →
            write m k f = .ok (m.modify k f) := fun m f hm => if_pos (by omega)
        have hinstance := hfilled.modify (f := fun e => { e with instance' := atoi line.inst })
          fun _ => rfl
        have hsame : (mapping.modify k fun e => { e with instance' := atoi line.inst }).length
            = mapping.length := length_modify ..
        rw [if_neg (not_not.mpr hdriver), hwrite _ _ rfl, ok_bind]
        generalize mapping.modify k _ = mapping' at hinstance hsame ⊢
        rw [← hsame] at hlength ⊢
        by_cases hkstat : kstat line.drv (atoi line.inst) = true
        · have hnamed := hinstance.name (f := fun e =>
            { e with device := sstrcpy pathMax line.dev, name := sstrcpy 8 line.drv })
            fun _ => sstrcpy_driver hdriver
          rw [if_neg (by simp [hkstat]), hwrite _ _ hsame, ok_bind,
            if_pos (And.intro hdriver hkstat), length_cons]
          cases ndisk with
          | zero =>
            refine ⟨_, if_pos (by decide), length_modify .., ?_⟩
            rwa [Nat.min_eq_right (by omega), hlength]
          | succ ndisk =>
            rw [if_neg (by omega), show ((ndisk + 1 : Nat) : Int) - 1 = ndisk by omega,
              ← Nat.add_assoc, Nat.add_right_comm, ← length_modify _ mapping' k]
            exact ih (by rw [length_modify]; omega) hnamed
        · rw [if_pos (by simpa using hkstat), if_neg fun h => hkstat h.2]
          exact ih hlength hinstance
      · rw [if_pos hdriver, if_neg fun h => hdriver h.1]
        exact ih hlength hfilled

/-! ## The search -/

/-- An empty name ends the search. -/
theorem searchLoop_ends (ptr : Text) {mapping : List FsdevPath}
    (hempty : ∃ entry ∈ mapping, entry.name = []) : ∃ found, searchLoop ptr mapping = .ok found := by
  induction mapping with
  | nil => simp at hempty
  | cons path paths ih =>
    rw [searchLoop]
    split
    · exact ⟨_, rfl⟩
    · next hname =>
      split
      · exact ⟨_, rfl⟩
      · exact ih (by simpa [hname] using hempty)

theorem mapDisk_ends (fsp : FileSystem) {mapping : List FsdevPath}
    (hempty : ∃ entry ∈ mapping, entry.name = []) : ∃ entry, mapDisk mapping fsp = .ok entry := by
  rw [mapDisk]
  split
  · dsimp only
    split
    · exact ⟨_, rfl⟩
    · next s _ =>
      obtain ⟨found, hfound⟩ := searchLoop_ends _ hempty
      rw [hfound, ok_bind]
      split <;> exact ⟨_, rfl⟩
  · exact ⟨_, rfl⟩

/-- **The array has an empty entry, and the search stays in it**, for the text of the file. -/
structure Safe (kstat : Text → Int32 → Bool) (fslist : List FileSystem)
    (text memory : Text) : Prop where
  sentinel : ∃ mapping, getFsdevPaths kstat fslist (some text) memory = .ok (some mapping) ∧
    mapping.length = ndiskOf fslist + 1 ∧ ∃ entry ∈ mapping, entry.name = []
  search : ∃ cache, createFsdevCache kstat fslist (some text) memory = .ok (some cache)

/-- **The search stays in the array exactly when the disks are not more than the local file systems**,
    and the array has a size. -/
theorem fsdev_safe_iff (kstat : Text → Int32 → Bool) (fslist : List FileSystem)
    (text memory : Text) :
    Safe kstat fslist text memory ↔
      (disks kstat (fgetsLines bufsiz text []) memory).length ≤ ndiskOf fslist ∧
        entrySize * (ndiskOf fslist + 1) ≤ intMax := by
  have hempty : Filled (replicate (ndiskOf fslist + 1) ⟨[], [], 0⟩) 0 := by
    intro i entry hentry
    simp [eq_of_mem_replicate (mem_of_getElem? hentry)]
  obtain ⟨mapping, hloop, hlength, hfilled⟩ := @pathsLoop_filled kstat
    (fgetsLines bufsiz text []) memory _ 0 (ndiskOf fslist) (by simp) hempty
  rw [length_replicate] at hlength hfilled
  by_cases hsize : entrySize * (ndiskOf fslist + 1) ≤ intMax
  · have hget : getFsdevPaths kstat fslist (some text) memory = .ok (some mapping) := by
      rw [getFsdevPaths, if_neg (Nat.not_lt.mpr hsize), hloop]
      rfl
    have hiff := hfilled.empty_iff
    rw [and_iff_left hsize]
    constructor
    · rintro ⟨⟨mapping', hget', -, hname⟩, -⟩
      rw [hget, Except.ok.injEq, Option.some.injEq] at hget'
      have := hiff.mp (hget' ▸ hname)
      omega
    · intro hdisks
      have hname := hiff.mpr (by omega)
      obtain ⟨entries, hentries⟩ := exists_mapM (mapDisk_ends · hname) fslist
      refine ⟨⟨mapping, hget, hlength, hname⟩, entries.filterMap id, ?_⟩
      rw [createFsdevCache, hget, ok_bind]
      dsimp only
      rw [hentries]
      rfl
  · refine ⟨fun h => ?_, fun h => absurd h.2 hsize⟩
    obtain ⟨mapping, hget, -⟩ := h.sentinel
    rw [getFsdevPaths, if_pos (Nat.not_le.mp hsize)] at hget
    cases hget

end Paths

/-- A file system whose device is the disk `/pci@0/disk@1`. -/
def oneDisk : FileSystem := ⟨true, some "../../devices/pci@0/disk@1:a".toList, some 7⟩

/-- Two disks of the kernel. -/
def twoDisks : Text := "\"/pci@0/disk@2\" 0 \"sd\"\n\"/pci@0/disk@3\" 1 \"sd\"\n".toList

/-- **The search leaves the array** with one file system and two disks that are not its own. -/
theorem twoDisks_leaves :
    createFsdevCache (fun _ _ => true) [oneDisk] (some twoDisks) [] = .error .outside ∧
    ¬ Safe (fun _ _ => true) [oneDisk] twoDisks [] := by
  have hleaves : createFsdevCache (fun _ _ => true) [oneDisk] (some twoDisks) [] = .error .outside := by
    decide +kernel
  refine ⟨hleaves, fun h => ?_⟩
  obtain ⟨cache, hcache⟩ := h.search
  rw [hleaves] at hcache
  cases hcache

end Sigar.Disk.FsdevPaths
