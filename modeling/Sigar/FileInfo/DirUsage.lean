/-
  The files below a directory.

  Source: `filetype_from_mode`, `dir_stat_get`, `sigar_dir_stat_get` and `sigar_dir_usage_get` of
  `sigar_fileinfo.c`.

  1. **Program** — a file system is what `opendir` and `lstat` answer for a path.  All levels of the
     recursion share one `dirstats`, and every level ends by writing `total` anew.
  2. **Termination** — every level makes the path longer and the kernel takes no path of
     `PATH_MAX` bytes, so the recursion ends in EVERY file system (`dirStatGet_ends`).
  3. **The walk** — what a level leaves in `total` never matters to the level above
     (`settle_foldl_tally`), so the result is a tally of all entries (`dirStatGet_eq`).
  4. **Correctness** — the tally has a counter for six kinds of files, and `total` is their sum: an
     entry of another kind is missing from it (`dirUsage_iff`).
-/
import Mathlib.Algebra.GroupWithZero.Nat
import Sigar.Util
import Sigar.Lib.Fallible

namespace Sigar.FileInfo

open CString Fallible List

/-! ## The program -/

/-- What the program reads of a `struct stat`. -/
structure Stat where
  stMode : UInt32
  stSize : Int64

/-- `PATH_MAX`, with the NUL. -/
def sigarPathMax : Nat := 4096

/-- What the kernel answers for a path.  It refuses those of `PATH_MAX` bytes (`ENAMETOOLONG`). -/
structure FileSystem where
  /-- The names that `readdir` returns, or `errno`. -/
  opendir : Text → Except Status (List Text)
  lstat : Text → Option Stat
  opendir_long : ∀ path, sigarPathMax ≤ path.length → ∃ errno, opendir path = .error errno
  lstat_long : ∀ path, sigarPathMax ≤ path.length → lstat path = none

/-- `sigar_file_type_e`, without `SIGAR_FILETYPE_NOFILE`. -/
inductive FileType where
  | reg | dir | chr | blk | pipe | lnk | sock | unkfile
  deriving DecidableEq

/-- `S_IFMT`, and the formats of Linux. -/
def sIfmt : UInt32 := 0o170000
@[inherit_doc sIfmt] def sIfreg : UInt32 := 0o100000
@[inherit_doc sIfmt] def sIfdir : UInt32 := 0o040000
@[inherit_doc sIfmt] def sIflnk : UInt32 := 0o120000
@[inherit_doc sIfmt] def sIfchr : UInt32 := 0o020000
@[inherit_doc sIfmt] def sIfblk : UInt32 := 0o060000
@[inherit_doc sIfmt] def sIfsock : UInt32 := 0o140000
@[inherit_doc sIfmt] def sIfifo : UInt32 := 0o010000

/-- `filetype_from_mode`.  There is no `S_IFFIFO`, so the default asks `S_ISFIFO`. -/
def filetypeFromMode (mode : UInt32) : FileType :=
  let fmt := mode &&& sIfmt
  if fmt = sIfreg then .reg
  else if fmt = sIfdir then .dir
  else if fmt = sIflnk then .lnk
  else if fmt = sIfchr then .chr
  else if fmt = sIfblk then .blk
  else if fmt = sIfsock then .sock
  else if fmt = sIfifo then .pipe
  else .unkfile

/-- `sigar_dir_stat_t`, which `sigar_dir_usage_t` is another name of. -/
structure DirStat where
  total : UInt64
  files : UInt64
  subdirs : UInt64
  symlinks : UInt64
  chrdevs : UInt64
  blkdevs : UInt64
  sockets : UInt64
  diskUsage : UInt64
  deriving DecidableEq

/-- `SIGAR_ZERO`. -/
def DirStat.zero : DirStat := ⟨0, 0, 0, 0, 0, 0, 0, 0⟩

/-- `IS_DOTDIR`. -/
def isDotdir (dir : Text) : Bool :=
  deref dir = '.' && (deref dir.tail = nul || (deref dir.tail = '.' && deref dir.tail.tail = nul))

/-- The path in `name`: `dir`, a slash, and what there is place for. -/
def joinName (dir dName : Text) : Text :=
  dir ++ '/' :: dName.take (sigarPathMax + 1 - dir.length - 2)

/-- The sum of the counters. -/
def DirStat.settle (dirstats : DirStat) : DirStat :=
  { dirstats with
    total := dirstats.files + dirstats.subdirs + dirstats.symlinks + dirstats.chrdevs
      + dirstats.blkdevs + dirstats.sockets }

/-- One round of the loop over the directory; `descend` is the recursive call, and a failure of it
    is only logged. -/
def dirEntry (fs : FileSystem) (recurse : Bool)
    (descend : Text → DirStat → Option (Status × DirStat)) (dir : Text)
    (dirstats : DirStat) (dName : Text) : Option DirStat :=
  if isDotdir dName then some dirstats
  else
    let name := joinName dir dName
    match fs.lstat name with
    | none => some dirstats
    | some info =>
      let dirstats := { dirstats with diskUsage := dirstats.diskUsage + info.stSize.toUInt64 }
      match filetypeFromMode info.stMode with
      | .reg => some { dirstats with files := dirstats.files + 1 }
      | .dir =>
        let dirstats := { dirstats with subdirs := dirstats.subdirs + 1 }
        if recurse then (descend name dirstats).map (·.2) else some dirstats
      | .lnk => some { dirstats with symlinks := dirstats.symlinks + 1 }
      | .chr => some { dirstats with chrdevs := dirstats.chrdevs + 1 }
      | .blk => some { dirstats with blkdevs := dirstats.blkdevs + 1 }
      | .sock => some { dirstats with sockets := dirstats.sockets + 1 }
      | .pipe | .unkfile => some { dirstats with total := dirstats.total + 1 }

/-- `dir_stat_get`, with at most `fuel` levels. -/
def dirStatGet (fs : FileSystem) (recurse : Bool) :
    Nat → Text → DirStat → Option (Status × DirStat)
  | 0, _, _ => none
  | fuel + 1, dir, dirstats =>
    match fs.opendir dir with
    | .error errno => some (errno, dirstats)
    | .ok ents => do
      let dirstats ← ents.foldlM (dirEntry fs recurse (dirStatGet fs recurse fuel) dir) dirstats
      some (sigarOk, dirstats.settle)

/-- `sigar_dir_stat_get`. -/
def sigarDirStatGet (fs : FileSystem) (dir : Text) : Option (Status × DirStat) :=
  dirStatGet fs false sigarPathMax dir .zero

/-- `sigar_dir_usage_get`. -/
def sigarDirUsageGet (fs : FileSystem) (dir : Text) : Option (Status × DirStat) :=
  dirStatGet fs true sigarPathMax dir .zero

/-! ## The recursion ends -/

theorem length_of_lstat {fs : FileSystem} {path : Text} {info : Stat}
    (h : fs.lstat path = some info) : path.length < sigarPathMax := by grind [fs.lstat_long]

theorem length_joinName (dir dName : Text) : dir.length < (joinName dir dName).length := by
  rw [joinName, length_append, length_cons]
  omega

/-- One round ends if the recursive call does. -/
theorem dirEntry_ends {fs : FileSystem} {recurse : Bool}
    {descend : Text → DirStat → Option (Status × DirStat)} {dir : Text}
    (hdescend : ∀ name, dir.length < name.length → name.length < sigarPathMax →
      ∀ dirstats, (descend name dirstats).isSome) (dirstats : DirStat) (dName : Text) :
    (dirEntry fs recurse descend dir dirstats dName).isSome := by
  rw [dirEntry]
  split
  · rfl
  · dsimp only
    split
    · rfl
    · next info hinfo =>
      split
      case h_2 =>
        split
        · rw [Option.isSome_map]
          exact hdescend _ (length_joinName dir dName) (length_of_lstat hinfo) _
        · rfl
      all_goals rfl

/-- **The recursion ends in every file system.** -/
theorem dirStatGet_ends (fs : FileSystem) (recurse : Bool) : ∀ {fuel : Nat} {dir : Text},
    0 < fuel → sigarPathMax ≤ fuel + dir.length →
      ∀ dirstats, (dirStatGet fs recurse fuel dir dirstats).isSome := by
  intro fuel
  induction fuel with
  | zero => intro dir h; exact absurd h (Nat.lt_irrefl 0)
  | succ fuel ih =>
    intro dir _ hfuel dirstats
    rw [dirStatGet]
    cases fs.opendir dir with
    | error errno => rfl
    | ok ents =>
      have hround : ∀ dirstats dName,
          (dirEntry fs recurse (dirStatGet fs recurse fuel) dir dirstats dName).isSome := by
        intro dirstats dName
        apply dirEntry_ends
        intro name hlonger hshort
        exact ih (by omega) (by omega)
      obtain ⟨out, hout⟩ := Option.isSome_iff_exists.mp (foldlM_isSome hround ents dirstats)
      show (Option.bind (ents.foldlM _ dirstats) _).isSome
      rw [hout]
      rfl

/-! ## The entries below a directory -/

/-- The kinds of files. -/
inductive Kind where
  | regular | directory | symlink | charDevice | blockDevice | socket | fifo | other
  deriving DecidableEq

/-- The format of a kind; any other format is `other`. -/
def Kind.format : Kind → Option UInt32
  | .regular => some sIfreg
  | .directory => some sIfdir
  | .symlink => some sIflnk
  | .charDevice => some sIfchr
  | .blockDevice => some sIfblk
  | .socket => some sIfsock
  | .fifo => some sIfifo
  | .other => none

/-- `mode` is the mode of a file of this kind. -/
def Kind.IsMode (kind : Kind) (mode : UInt32) : Prop :=
  match kind.format with
  | some fmt => mode &&& sIfmt = fmt
  | none => ∀ k : Kind, k.format ≠ some (mode &&& sIfmt)

/-- What a directory contains, and so on below it: the names, kinds and sizes of the entries. -/
inductive Entries where
  | nil
  | file (name : Text) (kind : Kind) (size : Nat) (isFile : kind ≠ .directory) (rest : Entries)
  | dir (name : Text) (size : Nat) (below : Entries) (rest : Entries)

namespace Entries

/-- The names in the directory itself. -/
def names : Entries → List Text
  | nil => []
  | file name _ _ _ rest => name :: rest.names
  | dir name _ _ rest => name :: rest.names

/-- The kinds and sizes of all entries, or of those in the directory itself. -/
def listed (recurse : Bool) : Entries → List (Kind × Nat)
  | nil => []
  | file _ kind size _ rest => (kind, size) :: rest.listed recurse
  | dir _ size below rest =>
    (.directory, size) :: ((if recurse then below.listed recurse else []) ++ rest.listed recurse)

end Entries

/-- The path of an entry. -/
def child (path name : Text) : Text := path ++ '/' :: name

/-- `lstat` shows an entry. -/
def Stats (fs : FileSystem) (path : Text) (kind : Kind) (size : Nat) : Prop :=
  ∃ info, fs.lstat path = some info ∧ kind.IsMode info.stMode ∧ info.stSize.toInt = size

/-- `opendir` and `readdir` show a directory with these names, next to `.` and `..`. -/
def Opens (fs : FileSystem) (path : Text) (names : List Text) : Prop :=
  ∃ ents, fs.opendir path = .ok ents ∧ ents.filter (fun dName => !isDotdir dName) = names

/-- All that is below `path` can be lstat'ed and opened. -/
def Shows (fs : FileSystem) : Text → Entries → Prop
  | _, .nil => True
  | path, .file name kind size _ rest => Stats fs (child path name) kind size ∧ Shows fs path rest
  | path, .dir name size below rest =>
    Stats fs (child path name) .directory size ∧ Opens fs (child path name) below.names ∧
      Shows fs (child path name) below ∧ Shows fs path rest

/-! ## The walk -/

/-- What an entry is counted as. -/
def tally (dirstats : DirStat) (entry : Kind × Nat) : DirStat :=
  let dirstats := { dirstats with diskUsage := dirstats.diskUsage + UInt64.ofNat entry.2 }
  match entry.1 with
  | .regular => { dirstats with files := dirstats.files + 1 }
  | .directory => { dirstats with subdirs := dirstats.subdirs + 1 }
  | .symlink => { dirstats with symlinks := dirstats.symlinks + 1 }
  | .charDevice => { dirstats with chrdevs := dirstats.chrdevs + 1 }
  | .blockDevice => { dirstats with blkdevs := dirstats.blkdevs + 1 }
  | .socket => { dirstats with sockets := dirstats.sockets + 1 }
  | .fifo | .other => dirstats

/-- `total` is not read. -/
theorem settle_tally {s s' : DirStat} (h : s.settle = s'.settle) (entry : Kind × Nat) :
    (tally s entry).settle = (tally s' entry).settle := by
  grind [DirStat.settle, DirStat.mk.injEq, tally]

@[inherit_doc settle_tally] theorem settle_foldl_tally : ∀ (entries : List (Kind × Nat))
    {s s' : DirStat}, s.settle = s'.settle →
      (entries.foldl tally s).settle = (entries.foldl tally s').settle := by
  intro entries
  induction entries with
  | nil => intro s s' h; exact h
  | cons entry entries ih => intro s s' h; exact ih (settle_tally h entry)

theorem settle_settle (s : DirStat) : s.settle.settle = s.settle := rfl

/-- A mode is recognised. -/
theorem filetypeFromMode_eq {kind : Kind} {mode : UInt32} (h : kind.IsMode mode) :
    filetypeFromMode mode = match kind with
      | .regular => .reg
      | .directory => .dir
      | .symlink => .lnk
      | .charDevice => .chr
      | .blockDevice => .blk
      | .socket => .sock
      | .fifo => .pipe
      | .other => .unkfile := by
  cases kind
  case other =>
    have hno : ∀ k : Kind, ∀ fmt, k.format = some fmt → mode &&& sIfmt ≠ fmt :=
      fun k fmt hk heq => h k (by rw [hk, heq])
    rw [filetypeFromMode, if_neg (hno .regular _ rfl), if_neg (hno .directory _ rfl),
      if_neg (hno .symlink _ rfl), if_neg (hno .charDevice _ rfl), if_neg (hno .blockDevice _ rfl),
      if_neg (hno .socket _ rfl), if_neg (hno .fifo _ rfl)]
  all_goals
    have hfmt : mode &&& sIfmt = _ := h
    rw [filetypeFromMode, hfmt]
    rfl

/-- A size that is not negative. -/
theorem toUInt64_of_toInt {x : Int64} {n : Nat} (h : x.toInt = n) : x.toUInt64 = UInt64.ofNat n := by
  have hbits : x.toUInt64.toBitVec.toInt = n := h
  rw [BitVec.toInt_eq_toNat_cond] at hbits
  have hlt : x.toUInt64.toBitVec.toNat < 2 ^ 64 := BitVec.isLt _
  apply UInt64.toNat_inj.mp
  rw [UInt64.toNat_ofNat']
  show x.toUInt64.toBitVec.toNat = _
  split at hbits <;> omega

theorem Stats.length_lt {fs : FileSystem} {path : Text} {kind : Kind} {size : Nat}
    (h : Stats fs path kind size) : path.length < sigarPathMax := by
  obtain ⟨info, hinfo, -⟩ := h
  exact length_of_lstat hinfo

theorem joinName_eq {fs : FileSystem} {path name : Text} {kind : Kind} {size : Nat}
    (h : Stats fs (child path name) kind size) : joinName path name = child path name := by
  have hshort := h.length_lt
  have hfits : name.length ≤ sigarPathMax + 1 - path.length - 2 := by
    rw [child, length_append, length_cons] at hshort
    omega
  rw [joinName, take_of_length_le hfits, child]

variable {fs : FileSystem} {recurse : Bool}
  {descend : Text → DirStat → Option (Status × DirStat)} {path name : Text}
  {kind : Kind} {size : Nat}

/-- One round with an entry that is no directory, or is not entered. -/
theorem dirEntry_tally (hdot : isDotdir name = false) (hstats : Stats fs (child path name) kind size)
    (hstay : kind = .directory → recurse = false) (dirstats : DirStat) :
    ∃ next, dirEntry fs recurse descend path dirstats name = some next ∧
      next.settle = (tally dirstats (kind, size)).settle := by
  obtain ⟨info, hinfo, hmode, hsize⟩ := id hstats
  rw [dirEntry, hdot, joinName_eq hstats]
  simp only [Bool.false_eq_true, if_false, hinfo, filetypeFromMode_eq hmode, toUInt64_of_toInt hsize]
  cases kind
  case directory => exact ⟨_, by rw [hstay rfl]; rfl, rfl⟩
  all_goals exact ⟨_, rfl, rfl⟩

/-- One round with a directory that is entered. -/
theorem dirEntry_descend (hdot : isDotdir name = false)
    (hstats : Stats fs (child path name) .directory size) (dirstats : DirStat) :
    dirEntry fs true descend path dirstats name
      = (descend (child path name) (tally dirstats (.directory, size))).map (·.2) := by
  obtain ⟨info, hinfo, hmode, hsize⟩ := id hstats
  rw [dirEntry, hdot, joinName_eq hstats]
  simp only [Bool.false_eq_true, if_false, hinfo, filetypeFromMode_eq hmode, toUInt64_of_toInt hsize]
  rfl

/-- A level is the loop over the names in the directory. -/
theorem dirStatGet_opens {names : List Text} {fuel : Nat} {dirstats out : DirStat}
    (hopens : Opens fs path names)
    (hloop : names.foldlM (dirEntry fs recurse (dirStatGet fs recurse fuel) path) dirstats
      = some out) :
    dirStatGet fs recurse (fuel + 1) path dirstats = some (sigarOk, out.settle) := by
  obtain ⟨ents, hents, rfl⟩ := hopens
  have hskip : (fun s dName => if (!isDotdir dName) = true
      then dirEntry fs recurse (dirStatGet fs recurse fuel) path s dName else pure s)
      = dirEntry fs recurse (dirStatGet fs recurse fuel) path := by grind [dirEntry]
  rw [foldlM_filter, hskip] at hloop
  rw [dirStatGet, hents]
  show Option.bind (ents.foldlM _ dirstats) _ = _
  rw [hloop]
  rfl

theorem Opens.notDot {names : List Text} (h : Opens fs path names) :
    ∀ dName ∈ names, isDotdir dName = false := by
  obtain ⟨ents, -, rfl⟩ := h
  intro dName hmem
  have hkept := (mem_filter.mp hmem).2
  rwa [Bool.not_eq_true'] at hkept

/-- **The loop counts the entries**, and those below them: by induction on the entries, for every
    level and every number of levels that is still enough. -/
theorem entries_walk (recurse : Bool) : ∀ (entries : Entries) {path : Text} {fuel : Nat},
    Shows fs path entries → (∀ dName ∈ entries.names, isDotdir dName = false) →
      sigarPathMax ≤ fuel + path.length + 1 → ∀ dirstats, ∃ out,
        entries.names.foldlM (dirEntry fs recurse (dirStatGet fs recurse fuel) path) dirstats
            = some out ∧
          out.settle = ((entries.listed recurse).foldl tally dirstats).settle := by
  intro entries
  induction entries with
  | nil => intro path fuel _ _ _ dirstats; exact ⟨dirstats, rfl, rfl⟩
  | file name kind size isFile rest ih =>
    intro path fuel hshows hdots hfuel dirstats
    obtain ⟨hstats, hrest⟩ := hshows
    obtain ⟨hdot, hdots⟩ := forall_mem_cons.mp hdots
    obtain ⟨next, hnext, hsettle⟩ :=
      dirEntry_tally hdot hstats (fun h => absurd h isFile) dirstats
    obtain ⟨out, hout, hcount⟩ := ih hrest hdots hfuel next
    refine ⟨out, ?_, hcount.trans (settle_foldl_tally _ hsettle)⟩
    rw [Entries.names, foldlM_cons, hnext]
    exact hout
  | dir name size below rest ihbelow ih =>
    intro path fuel hshows hdots hfuel dirstats
    obtain ⟨hstats, hopens, hbelow, hrest⟩ := hshows
    obtain ⟨hdot, hdots⟩ := forall_mem_cons.mp hdots
    have hround : ∃ next,
        dirEntry fs recurse (dirStatGet fs recurse fuel) path dirstats name = some next ∧
          next.settle = (((.directory, size) :: if recurse then below.listed recurse else []).foldl
            tally dirstats).settle := by
      cases recurse with
      | false => exact dirEntry_tally hdot hstats (fun _ => rfl) dirstats
      | true =>
        -- the level below has one round of the fuel less, and its path is longer
        have hlong : path.length < (child path name).length := by
          rw [child, length_append, length_cons]
          omega
        have hshort := hstats.length_lt
        obtain ⟨fuel, rfl⟩ : ∃ n, fuel = n + 1 := ⟨fuel - 1, by omega⟩
        obtain ⟨out, hout, hcount⟩ := ihbelow hbelow hopens.notDot
          (show sigarPathMax ≤ fuel + (child path name).length + 1 by omega)
          (tally dirstats (.directory, size))
        refine ⟨out.settle, ?_, by rw [settle_settle]; exact hcount⟩
        rw [dirEntry_descend hdot hstats, dirStatGet_opens hopens hout]
        rfl
    obtain ⟨next, hnext, hsettle⟩ := hround
    obtain ⟨out, hout, hcount⟩ := ih hrest hdots hfuel next
    refine ⟨out, ?_, hcount.trans ?_⟩
    · rw [Entries.names, foldlM_cons, hnext]
      exact hout
    · rw [settle_foldl_tally _ hsettle, ← foldl_append]
      rfl

/-- **What is returned** is a tally of the entries. -/
theorem dirStatGet_eq {entries : Entries} {dir : Text} (hopens : Opens fs dir entries.names)
    (hshows : Shows fs dir entries) (recurse : Bool) (dirstats : DirStat) :
    dirStatGet fs recurse sigarPathMax dir dirstats
      = some (sigarOk, ((entries.listed recurse).foldl tally dirstats).settle) := by
  obtain ⟨out, hout, hcount⟩ := entries_walk recurse entries hshows hopens.notDot
    (show sigarPathMax ≤ 4095 + dir.length + 1 by unfold sigarPathMax; omega) dirstats
  rw [← hcount]
  exact dirStatGet_opens hopens hout

/-! ## Counting -/

/-- The counter of a kind, if it has one. -/
def Kind.counter : Kind → Option (DirStat → UInt64)
  | .regular => some DirStat.files
  | .directory => some DirStat.subdirs
  | .symlink => some DirStat.symlinks
  | .charDevice => some DirStat.chrdevs
  | .blockDevice => some DirStat.blkdevs
  | .socket => some DirStat.sockets
  | .fifo | .other => none

/-- The entries that have a counter. -/
def counted (entries : List (Kind × Nat)) : Nat := entries.countP fun entry => entry.1.counter.isSome

/-- The sum of `st_size`. -/
def usage (entries : List (Kind × Nat)) : Nat := (entries.map Prod.snd).sum

/-- The number of entries of one kind. -/
def ofKind (kind : Kind) (entries : List (Kind × Nat)) : Nat :=
  entries.countP fun entry => entry.1 = kind

theorem counter_tally {kind : Kind} {counter : DirStat → UInt64} (h : kind.counter = some counter)
    (s : DirStat) (entry : Kind × Nat) :
    counter (tally s entry) = counter s + if entry.1 = kind then 1 else 0 := by
  obtain ⟨kind', size⟩ := entry
  cases kind <;> cases h <;> cases kind' <;> simp [tally]

theorem counter_foldl {kind : Kind} {counter : DirStat → UInt64} (h : kind.counter = some counter) :
    ∀ (entries : List (Kind × Nat)) (s : DirStat),
      counter (entries.foldl tally s) = counter s + UInt64.ofNat (ofKind kind entries) := by
  intro entries
  induction entries with
  | nil => intro s; exact (UInt64.add_zero _).symm
  | cons entry entries ih =>
    intro s
    rw [foldl_cons, ih, counter_tally h, ofKind, ofKind, countP_cons]
    by_cases hkind : entry.1 = kind
    · simp only [hkind, decide_true, if_true]
      rw [UInt64.ofNat_add, UInt64.add_assoc, UInt64.add_comm 1]
      rfl
    · simp only [hkind, decide_false, if_false, Bool.false_eq_true, UInt64.add_zero, Nat.add_zero]

theorem diskUsage_foldl : ∀ (entries : List (Kind × Nat)) (s : DirStat),
    (entries.foldl tally s).diskUsage = s.diskUsage + UInt64.ofNat (usage entries) := by
  intro entries
  induction entries with
  | nil => intro s; exact (UInt64.add_zero _).symm
  | cons entry entries ih =>
    intro s
    have hstep : (tally s entry).diskUsage = s.diskUsage + UInt64.ofNat entry.2 := by
      rw [tally]
      split <;> rfl
    rw [foldl_cons, ih, hstep, usage, usage, map_cons, sum_cons, UInt64.ofNat_add, UInt64.add_assoc]

theorem total_tally (s : DirStat) (entry : Kind × Nat) :
    (tally s entry).settle.total = s.settle.total + if entry.1.counter.isSome then 1 else 0 := by
  grind [tally, DirStat.settle, Kind.counter]

theorem total_foldl : ∀ (entries : List (Kind × Nat)) (s : DirStat),
    (entries.foldl tally s).settle.total = s.settle.total + UInt64.ofNat (counted entries) := by
  intro entries
  induction entries with
  | nil => intro s; exact (UInt64.add_zero _).symm
  | cons entry entries ih =>
    intro s
    rw [foldl_cons, ih, total_tally, counted, counted, countP_cons]
    cases entry.1.counter.isSome with
    | true =>
      rw [if_pos rfl, if_pos rfl, UInt64.ofNat_add, UInt64.add_assoc, UInt64.add_comm 1]
      rfl
    | false =>
      rw [if_neg Bool.false_ne_true, if_neg Bool.false_ne_true, UInt64.add_zero, Nat.add_zero]

/-- What is returned for these entries is right. -/
structure Right (dirstats : DirStat) (entries : List (Kind × Nat)) : Prop where
  usage : dirstats.diskUsage.toNat = usage entries
  counters : ∀ kind counter, Kind.counter kind = some counter →
    (counter dirstats).toNat = ofKind kind entries
  total : dirstats.total.toNat = entries.length

/-- What the entries have to be like: none of them is a FIFO or of an unknown kind, and neither
    their number nor their size is too large for 64 bits. -/
structure Countable (entries : List (Kind × Nat)) : Prop where
  kinds : ∀ entry ∈ entries, entry.1 ≠ .fifo ∧ entry.1 ≠ .other
  usage_lt : usage entries < 2 ^ 64
  length_lt : entries.length < 2 ^ 64

theorem isSome_counter_iff (kind : Kind) : kind.counter.isSome ↔ kind ≠ .fifo ∧ kind ≠ .other := by
  cases kind <;> decide

/-- A number is stored as it is exactly if it has no more than 64 bits. -/
theorem toNat_ofNat_eq_iff (n : Nat) : (UInt64.ofNat n).toNat = n ↔ n < 2 ^ 64 := by
  rw [UInt64.toNat_ofNat']
  omega

theorem right_iff (entries : List (Kind × Nat)) :
    Right (entries.foldl tally .zero).settle entries ↔ Countable entries := by
  have husage : (entries.foldl tally .zero).settle.diskUsage = UInt64.ofNat (usage entries) := by
    rw [← UInt64.zero_add (UInt64.ofNat _)]
    exact diskUsage_foldl entries .zero
  have htotal : (entries.foldl tally .zero).settle.total = UInt64.ofNat (counted entries) := by
    rw [total_foldl, show DirStat.zero.settle.total = 0 from rfl, UInt64.zero_add]
  have hcounters : ∀ kind counter, Kind.counter kind = some counter →
      counter (entries.foldl tally .zero).settle = UInt64.ofNat (ofKind kind entries) := by
    intro kind counter h
    have hsettle : counter (entries.foldl tally .zero).settle
        = counter (entries.foldl tally .zero) := by
      cases kind <;> cases h <;> rfl
    have hzero : counter .zero = 0 := by
      cases kind <;> cases h <;> rfl
    rw [hsettle, counter_foldl h, hzero, UInt64.zero_add]
  have hle : counted entries ≤ entries.length := countP_le_length
  constructor
  · intro h
    have hsum := h.total
    rw [htotal, UInt64.toNat_ofNat'] at hsum
    have hmod : counted entries % 2 ^ 64 ≤ counted entries := Nat.mod_le _ _
    have hall : counted entries = entries.length := by omega
    refine ⟨?_, ?_, ?_⟩
    · intro entry hentry
      exact (isSome_counter_iff entry.1).mp (countP_eq_length.mp hall entry hentry)
    · exact (toNat_ofNat_eq_iff _).mp (husage ▸ h.usage)
    · omega
  · intro h
    have hall : counted entries = entries.length :=
      countP_eq_length.mpr fun entry hentry =>
        (isSome_counter_iff entry.1).mpr (h.kinds entry hentry)
    refine ⟨?_, ?_, ?_⟩
    · rw [husage]
      exact (toNat_ofNat_eq_iff _).mpr h.usage_lt
    · intro kind counter hcounter
      rw [hcounters kind counter hcounter]
      exact (toNat_ofNat_eq_iff _).mpr (Nat.lt_of_le_of_lt countP_le_length h.length_lt)
    · rw [htotal, hall]
      exact (toNat_ofNat_eq_iff _).mpr h.length_lt

/-- **The usage of a directory is right** exactly when every entry below it has a counter and the
    sums have 64 bits, and the same for the entries of the directory itself. -/
theorem dirUsage_iff {fs : FileSystem} {dir : Text} {entries : Entries}
    (hopens : Opens fs dir entries.names) (hshows : Shows fs dir entries) :
    ((∃ dirusage, sigarDirUsageGet fs dir = some (sigarOk, dirusage) ∧
        Right dirusage (entries.listed true)) ↔ Countable (entries.listed true)) ∧
      ((∃ dirstats, sigarDirStatGet fs dir = some (sigarOk, dirstats) ∧
        Right dirstats (entries.listed false)) ↔ Countable (entries.listed false)) := by
  have hiff : ∀ recurse,
      (∃ dirstats, dirStatGet fs recurse sigarPathMax dir .zero = some (sigarOk, dirstats) ∧
        Right dirstats (entries.listed recurse)) ↔ Countable (entries.listed recurse) := by
    intro recurse
    rw [← right_iff, dirStatGet_eq hopens hshows recurse .zero]
    constructor
    · rintro ⟨dirstats, heq, hright⟩
      cases heq
      exact hright
    · intro hright
      exact ⟨_, rfl, hright⟩
  exact ⟨hiff true, hiff false⟩

/-! ## A small file system -/

/-- Some directories and files. -/
def FileSystem.ofLists (dirs : List (Text × List Text))
    (files : List (Text × Stat)) : FileSystem where
  opendir path :=
    if path.length < sigarPathMax then
      match dirs.lookup path with
      | some ents => .ok ents
      | none => .error enoent
    else .error 36  -- ENAMETOOLONG
  lstat path := if path.length < sigarPathMax then files.lookup path else none
  opendir_long _ h := ⟨36, if_neg (Nat.not_lt.mpr h)⟩
  lstat_long _ h := if_neg (Nat.not_lt.mpr h)

/-- A directory with a file, a FIFO and a directory with a link. -/
def smallFs : FileSystem := .ofLists
  [("d".toList, [".".toList, "f".toList, "..".toList, "p".toList, "s".toList]),
    ("d/s".toList, [".".toList, "..".toList, "l".toList])]
  [("d/f".toList, ⟨0o100644, 10⟩), ("d/p".toList, ⟨0o010644, 0⟩), ("d/s".toList, ⟨0o040755, 4096⟩),
    ("d/s/l".toList, ⟨0o120777, 3⟩)]

@[inherit_doc smallFs] def smallEntries : Entries :=
  .file "f".toList .regular 10 (by decide) <|
  .file "p".toList .fifo 0 (by decide) <|
  .dir "s".toList 4096 (.file "l".toList .symlink 3 (by decide) .nil) .nil

theorem smallFs_shows : Opens smallFs "d".toList smallEntries.names ∧
    Shows smallFs "d".toList smallEntries := by
  refine ⟨⟨_, rfl, by decide⟩, ⟨_, rfl, rfl, ?_⟩, ⟨_, rfl, rfl, ?_⟩, ⟨_, rfl, rfl, ?_⟩,
    ⟨_, rfl, by decide⟩, ⟨⟨_, rfl, rfl, ?_⟩, trivial⟩, trivial⟩ <;> decide

/-- Neither function is right for it, since there is a FIFO in the directory. -/
theorem dirUsage_iff_smallFs :
    ¬ (∃ dirusage, sigarDirUsageGet smallFs "d".toList = some (sigarOk, dirusage) ∧
        Right dirusage (smallEntries.listed true)) ∧
      ¬ ∃ dirstats, sigarDirStatGet smallFs "d".toList = some (sigarOk, dirstats) ∧
        Right dirstats (smallEntries.listed false) := by
  obtain ⟨husage, hstat⟩ := dirUsage_iff smallFs_shows.1 smallFs_shows.2
  have hfifo : ∀ recurse, ¬ Countable (smallEntries.listed recurse) := by
    intro recurse h
    have hall : ∀ entry ∈ smallEntries.listed recurse, entry.1 ≠ .fifo := fun e he => (h.kinds e he).1
    revert hall
    cases recurse <;> decide
  exact ⟨fun h => hfifo true (husage.mp h), fun h => hfifo false (hstat.mp h)⟩

/-- **The FIFO is not counted**: `total` is 3 for four entries, and 2 for the three of the
    directory itself. -/
theorem fifo_uncounted :
    (smallEntries.listed true).length = 4 ∧
      sigarDirUsageGet smallFs "d".toList = some (sigarOk, ⟨3, 1, 1, 1, 0, 0, 0, 4109⟩) ∧
      (smallEntries.listed false).length = 3 ∧
      sigarDirStatGet smallFs "d".toList = some (sigarOk, ⟨2, 1, 1, 0, 0, 0, 0, 4106⟩) := by
  refine ⟨rfl, by decide +kernel, rfl, by decide +kernel⟩

end Sigar.FileInfo
