/-
  Mirrored socket tables: the hook SIGAR_PROC_NET.

  Source: `sigar_proc_path` of `sigar_util.c`; `xproc_open`, `proc_net_read` and
  `sigar_net_connection_walk` of `os/linux/linux_sigar.c`.

  With the hook set to a directory, `proc_net_read` opens the copy of a table there and falls back to
  the table itself.  The name of the copy is the table's path without the root of /proc, and what is
  cut off is `sizeof(gPROC_FS_ROOT)-1` bytes.  `gPROC_FS_ROOT` is a POINTER, so that is 7, and the
  root, with the prefix of the host in front of it, is another number of bytes.

  1. **Program** — `netFile`: what is opened for a table.
  2. **Which file** (`opened`) — the place that the cut name has, or the table itself if that name is
     too long.  The hook works, for all contents, exactly when this is the copy (`hookReads_iff`).
  3. **When** (`opened_copy_iff`) — with a prefix of one character; with one of two, since the second
     slash does not matter; and by chance with the table's own directory under a long name.
-/
import Sigar.Net.Listeners
import Sigar.Net.RoundTrip
import Sigar.Lib.Paths

namespace Sigar.Net.ProcNet

open CString Paths List

variable {d : Text} {hostPrefix : Option Text}

/-! ## The program -/

/-- `sigar_proc_path`, with the parts that it is given and the prefix of the host. -/
def sigarProcPath (path hostPrefix root suffix : Option Text) : Text :=
  match path with
  | some path => path  -- already allocated
  | none => hostPrefix.getD [] ++ root.getD [] ++ suffix.getD []

/-- The tables of a walk. -/
inductive Table where
  | tcp | tcp6 | udp | udp6 | raw | raw6
  deriving DecidableEq

variable {file : Table → NetFile}

def Table.name : Table → Text
  | .tcp => "tcp".toList
  | .tcp6 => "tcp6".toList
  | .udp => "udp".toList
  | .udp6 => "udp6".toList
  | .raw => "raw".toList
  | .raw6 => "raw6".toList

/-- `tcp_path` and its siblings; they are static, and set before the first walk ends. -/
def tablePath (hostPrefix : Option Text) (table : Table) : Text :=
  sigarProcPath none hostPrefix (some "/proc/".toList) (some ("net/".toList ++ table.name))

/-- A file: whether it is executable, what `fopen` makes of it, and what a run of it prints. -/
structure Node where
  executable : Bool
  content : Except Status Text
  output : Option Text

/-- What stands at a place. -/
abbrev Files := Place → Except Status Node

/-- `PATH_MAX`, with the NUL. -/
def pathMax : Nat := 4096

/-- `ENAMETOOLONG`. -/
def enametoolong : Status := 36

/-- Finding a file by its path. -/
def lookup (fs : Files) (path : Text) : Except Status Node :=
  if pathMax ≤ path.length then .error enametoolong else fs (place path)

def fopen (fs : Files) (path : Text) : Except Status Text :=
  lookup fs path >>= Node.content

/-- `xproc_open`: the lines that come, from the file or from running it. -/
def xprocOpen (fs : Files) (command : Text) : Option Text :=
  match lookup fs command with
  | .error _ => none
  | .ok node => if node.executable then node.output else node.content.toOption

/-- `sizeof(gPROC_FS_ROOT)`, the size of a pointer. -/
def sizeofProcFsRoot : Nat := 8

/-- What `snprintf` writes into `buffer`: the name of the copy. -/
def mirrorPath (ptr fname : Text) : Text :=
  (ptr ++ '/' :: fname.drop (sizeofProcFsRoot - 1)).take (bufsiz - 1)

/-- The start of `proc_net_read`: the file that is read, and what the array holds then. -/
def netFile (fs : Files) (procNet : Option Text) (frame fname : Text) : NetFile :=
  match procNet with
  | none => ⟨fopen fs fname, frame⟩
  | some ptr =>
    let buffer := mirrorPath ptr fname
    match xprocOpen fs buffer with
    | some text => ⟨.ok text, overwrite frame buffer⟩
    | none => ⟨fopen fs fname, overwrite frame buffer⟩

/-- Files for all tables. -/
def netTables (file : Table → NetFile) : NetTables where
  tcp := file .tcp
  tcp6 := file .tcp6
  udp := file .udp
  udp6 := file .udp6
  raw := file .raw
  raw6 := file .raw6

/-- The tables that `sigar_net_connection_walk` reads; `frame` is what the array holds at first in
    each call. -/
def walkTables (fs : Files) (hostPrefix procNet : Option Text)
    (frame : Table → Text) : NetTables :=
  netTables fun table => netFile fs procNet (frame table) (tablePath hostPrefix table)

/-! ## What the hook promises -/

/-- The name of a copy. -/
def copyPath (d : Text) (table : Table) : Text := d ++ "/net/".toList ++ table.name

/-- The rows of a file do not depend on what the array held before: no line of it is read beyond its
    end. -/
def Settled (content : Text) : Prop :=
  ∀ flags type frame frame', NetFile.rows ⟨.ok content, frame⟩ flags type
    = NetFile.rows ⟨.ok content, frame'⟩ flags type

/-- The directory has a copy of each table that is not executable. -/
def HasCopies (fs : Files) (d : Text) (contents : Table → Text) : Prop :=
  ∀ table, ∃ output, lookup fs (copyPath d table) = .ok ⟨false, .ok (contents table), output⟩

/-- **The hook reads the copies**: whatever the copies hold, a walk with the hook is one
    without it over a /proc with these contents, wherever that is found. -/
def HookReads (hostPrefix : Option Text) (d : Text) : Prop :=
  ∀ (fs : Files) (contents : Table → Text), HasCopies fs d contents →
    (∀ table, Settled (contents table)) →
    ∀ (fs' : Files) (hostPrefix' : Option Text),
      (∀ table, fopen fs' (tablePath hostPrefix' table) = .ok (contents table)) →
      ∀ (σ : Type) (addConnection : AddConnection σ) (flags : Int32) (data : σ)
        (frame frame' : Table → Text),
        sigarNetConnectionWalk addConnection flags (walkTables fs hostPrefix (some d) frame) data
          = sigarNetConnectionWalk addConnection flags (walkTables fs' hostPrefix' none frame') data

/-- The rows of a socket table do not depend on what the array held before. -/
theorem settled_table (table : SocketTable) : Settled table.text := by
  intro flags type frame frame'
  rw [rows_table, rows_table]

/-! ## A walk over files -/

/-- Two files that give the same rows. -/
structure Alike (file file' : NetFile) : Prop where
  rows : ∀ flags type, file.rows flags type = file'.rows flags type
  status : file.status = file'.status

theorem alike_of_content {content : Text} (h : Settled content) {file file' : NetFile}
    (hfile : file.content = .ok content) (hfile' : file'.content = .ok content) :
    Alike file file' := by
  obtain ⟨found, frame⟩ := file
  obtain ⟨found', frame'⟩ := file'
  obtain rfl : found = .ok content := hfile
  obtain rfl : found' = .ok content := hfile'
  exact ⟨fun flags type => h flags type frame frame', rfl⟩

theorem filesRead_congr {file' : Table → NetFile} (h : ∀ table, Alike (file table) (file' table))
    (flags : Int32) : filesRead flags (netTables file) = filesRead flags (netTables file') := by
  have hpair : ∀ type a b, pairRead flags type (file a) (file b)
      = pairRead flags type (file' a) (file' b) := by
    intro type a b
    rw [pairRead, pairRead, (h a).status, (h b).status, (h a).rows, (h b).rows]
  unfold filesRead netTables
  simp only [hpair]

theorem walk_congr {file' : Table → NetFile} (h : ∀ table, Alike (file table) (file' table))
    {σ : Type} (addConnection : AddConnection σ) (flags : Int32) (data : σ) :
    sigarNetConnectionWalk addConnection flags (netTables file) data
      = sigarNetConnectionWalk addConnection flags (netTables file') data := by
  rw [sigarNetConnectionWalk_eq, sigarNetConnectionWalk_eq, filesRead_congr h]

/-! ## Paths -/

/-- A table is at the place that a copy below the root of /proc has. -/
theorem tablePath_eq (hostPrefix : Option Text) (table : Table) :
    tablePath hostPrefix table = copyPath (hostPrefix.getD [] ++ "/proc".toList) table := by
  show _ ++ "/proc/".toList ++ ("net/".toList ++ table.name) = _
  simp [copyPath]

theorem copyPath_eq (d : Text) (table : Table) :
    copyPath d table = d ++ '/' :: ("net/".toList ++ table.name) := by
  rw [copyPath, append_assoc]
  rfl

theorem parts_name (table : Table) :
    parts ("net/".toList ++ table.name) = ["net".toList, table.name] := by
  cases table <;> decide

theorem length_name (table : Table) : table.name.length = 3 ∨ table.name.length = 4 := by
  cases table <;> decide

theorem length_copyPath (d : Text) (table : Table) :
    (copyPath d table).length = d.length + 5 + table.name.length := by
  rw [copyPath, length_append, length_append]
  rfl

/-- The name of a copy, while it is short. -/
theorem mirrorPath_short {fname : Text} (h : d.length + 1 + (fname.length - 7) < pathMax) :
    mirrorPath d fname = d ++ '/' :: fname.drop 7 := by
  refine take_of_length_le ?_
  rw [length_append, length_cons, sizeofProcFsRoot, length_drop]
  rw [pathMax] at h
  rw [bufsiz]
  omega

theorem length_mirrorPath (d fname : Text) :
    (mirrorPath d fname).length < pathMax ↔ d.length + 1 + (fname.length - 7) < pathMax := by
  rw [mirrorPath, length_take, length_append, length_cons, sizeofProcFsRoot, length_drop, bufsiz,
    pathMax]
  omega

/-! ## Which file is read -/

/-- The place that is opened for a table with the hook, if there is a file: the cut name, or the
    table if that name is too long. -/
def opened (hostPrefix : Option Text) (d : Text) (table : Table) : Option Place :=
  let mirror := mirrorPath d (tablePath hostPrefix table)
  if mirror.length < pathMax then some (place mirror)
  else if (tablePath hostPrefix table).length < pathMax then
    some (place (tablePath hostPrefix table))
  else none

section Opened

variable {fs : Files} {hostPrefix : Option Text} {d frame : Text} {table : Table}

theorem lookup_fits {path : Text} (h : path.length < pathMax) :
    lookup fs path = fs (place path) := if_neg (Nat.not_le.mpr h)

theorem lookup_long {path : Text} (h : ¬ path.length < pathMax) :
    lookup fs path = .error enametoolong := if_pos (Nat.not_lt.mp h)

/-- **A file at the place that is opened is the one that is read**, if it is not executable. -/
theorem netFile_opened {here : Place} (hopen : opened hostPrefix d table = some here)
    {content : Text} {output : Option Text}
    (hnode : fs here = .ok ⟨false, .ok content, output⟩) :
    (netFile fs (some d) frame (tablePath hostPrefix table)).content = .ok content := by
  rw [netFile]
  rw [opened] at hopen
  split at hopen
  case isTrue hfits =>
    obtain rfl := Option.some.inj hopen
    rw [xprocOpen, lookup_fits hfits, hnode]
    rfl
  case isFalse hlong =>
    split at hopen
    case isTrue hfits =>
      obtain rfl := Option.some.inj hopen
      rw [xprocOpen, lookup_long hlong]
      dsimp only
      rw [fopen, lookup_fits hfits, hnode]
      rfl
    case isFalse => cases hopen

theorem netFile_unopened (hopen : opened hostPrefix d table = none) :
    (netFile fs (some d) frame (tablePath hostPrefix table)).content = .error enametoolong := by
  rw [opened] at hopen
  split at hopen
  case isTrue => cases hopen
  case isFalse hlong =>
    split at hopen
    case isTrue => cases hopen
    case isFalse hlong' =>
      rw [netFile, xprocOpen, lookup_long hlong]
      dsimp only
      rw [fopen, lookup_long hlong']
      rfl

end Opened

/-- The paths of the copies can be opened. -/
def Reachable (d : Text) : Prop := d.length + 9 < pathMax

theorem Reachable.lookup (hd : Reachable d) (fs : Files) (table : Table) :
    ProcNet.lookup fs (copyPath d table) = fs (place (copyPath d table)) := by
  have hname := length_name table
  rw [Reachable] at hd
  refine lookup_fits ?_
  rw [length_copyPath]
  omega

/-- **If the copies are opened, they are read.** -/
theorem hookReads_of_opened (hd : Reachable d)
    (h : ∀ table, opened hostPrefix d table = some (place (copyPath d table))) :
    HookReads hostPrefix d := by
  intro fs contents hcopies hsettled fs' hostPrefix' hproc σ addConnection flags data frame frame'
  unfold walkTables
  refine walk_congr (fun table => ?_) addConnection flags data
  obtain ⟨output, hnode⟩ := hcopies table
  rw [hd.lookup] at hnode
  have hcontent := @netFile_opened fs hostPrefix d (frame table) table _ (h table) _ _ hnode
  exact alike_of_content (hsettled table) hcontent (hproc table)

/-! ## Files that tell which of them was read -/

/-- A file that is opened for a table has the table's name. -/
theorem opened_name {table : Table} {here : Place} (h : opened hostPrefix d table = some here) :
    ∃ front, here.parts = front ++ [table.name] := by
  have hname : ∀ front, parts (front ++ '/' :: table.name) = parts front ++ [table.name] := by
    intro front
    rw [parts_append_slash]
    cases table <;> rfl
  have hpath : tablePath hostPrefix table
      = hostPrefix.getD [] ++ "/proc/net".toList ++ '/' :: table.name := by
    rw [tablePath_eq, copyPath]
    simp
  rw [opened] at h
  split at h
  case isTrue hfits =>
    obtain rfl := Option.some.inj h
    rw [mirrorPath_short ((length_mirrorPath _ _).mp hfits), hpath,
      drop_append_of_le_length (by simp), ← cons_append, ← append_assoc]
    exact ⟨_, hname _⟩
  case isFalse =>
    split at h
    case isTrue =>
      obtain rfl := Option.some.inj h
      rw [hpath]
      exact ⟨_, hname _⟩
    case isFalse => cases h

theorem Table.name_injective {table table' : Table} (h : table.name = table'.name) :
    table = table' := by
  cases table <;> cases table' <;> first | rfl | exact absurd h (by decide)

def allTables : List Table := [.tcp, .tcp6, .udp, .udp6, .raw, .raw6]

/-- All files are there and can be opened, and only the copies hold something. -/
def sampleFiles (d : Text) : Files := fun here =>
  if ∃ table ∈ allTables, here = place (copyPath d table)
  then .ok ⟨false, .ok loopbackTable.text, none⟩ else .ok ⟨false, .ok [], none⟩

theorem sampleFiles_copy (d : Text) (table : Table) :
    sampleFiles d (place (copyPath d table)) = .ok ⟨false, .ok loopbackTable.text, none⟩ :=
  if_pos ⟨table, by cases table <;> decide, rfl⟩

/-- The flags that ask for everything. -/
def allFlags : Int32 := 0x73

theorem pairRead_ok_iff {type : NetconnType} {first second : NetFile} :
    (pairRead allFlags type first second).2 = sigarOk ↔
      first.status = sigarOk ∧ (second.status = sigarOk ∨ second.status = enoent) := by
  have hflag : allFlags &&& type.flag ≠ 0 := by
    cases type <;> decide
  rw [pairRead, if_neg hflag]
  split
  case isTrue hfirst => exact iff_of_false hfirst fun h => hfirst h.1
  case isFalse hfirst => grind

/-- A walk succeeds if all files can be read; some of the second ones may be missing. -/
theorem walk_ok_iff {tables : NetTables} :
    (filesRead allFlags tables).2 = sigarOk ↔
      (pairRead allFlags .tcp tables.tcp tables.tcp6).2 = sigarOk ∧
      (pairRead allFlags .udp tables.udp tables.udp6).2 = sigarOk ∧
      (pairRead allFlags .raw tables.raw tables.raw6).2 = sigarOk := by
  rw [filesRead]
  dsimp only
  split
  case isTrue htcp => exact iff_of_false htcp fun h => htcp h.1
  case isFalse htcp => grind

theorem walk_ok (h : ∀ table, (file table).status = sigarOk) :
    (filesRead allFlags (netTables file)).2 = sigarOk := by
  simp only [walk_ok_iff, pairRead_ok_iff, netTables, h, true_or, and_self]

theorem status_of_walk (h : (filesRead allFlags (netTables file)).2 = sigarOk) (table : Table) :
    (file table).status = sigarOk ∨ (file table).status = enoent := by
  simp only [walk_ok_iff, pairRead_ok_iff] at h
  cases table with
  | tcp => exact .inl h.1.1
  | tcp6 => exact h.1.2
  | udp => exact .inl h.2.1.1
  | udp6 => exact h.2.1.2
  | raw => exact .inl h.2.2.1
  | raw6 => exact h.2.2.2

/-- **If the copies are read, they are opened**: a walk over the sample files succeeds only then. -/
theorem opened_of_hookReads (hd : Reachable d) (h : HookReads hostPrefix d) (table : Table) :
    opened hostPrefix d table = some (place (copyPath d table)) := by
  have hcopies : HasCopies (sampleFiles d) d fun _ => loopbackTable.text := by
    intro table
    rw [hd.lookup, sampleFiles_copy]
    exact ⟨none, rfl⟩
  -- a /proc that holds the copies
  have hproc : ∀ table, fopen (sampleFiles "/proc".toList) (tablePath none table)
      = .ok loopbackTable.text := by
    intro table
    have hroot : Reachable "/proc".toList := by
      unfold Reachable
      decide
    rw [fopen, tablePath_eq, Option.getD_none, nil_append, hroot.lookup, sampleFiles_copy]
    rfl
  have hplain : (filesRead allFlags (walkTables (sampleFiles "/proc".toList) none none
      fun _ => [])).2 = sigarOk := by
    refine walk_ok fun table => ?_
    rw [netFile, hproc]
    exact status_table loopbackTable []
  have hwalk := congrArg Prod.snd (h _ _ hcopies (fun _ => settled_table loopbackTable) _ none hproc
    _ appendRow allFlags [] (fun _ => []) fun _ => [])
  rw [sigarNetConnectionWalk_eq, sigarNetConnectionWalk_eq] at hwalk
  have hstatus := status_of_walk (hwalk.trans hplain) table
  cases hopen : opened hostPrefix d table with
  | none =>
    rw [NetFile.status, netFile_unopened hopen] at hstatus
    exact absurd hstatus (by decide)
  | some here =>
    by_cases hhere : ∃ table ∈ allTables, here = place (copyPath d table)
    · -- the copy of a table, and the name says that of which
      obtain ⟨table', -, rfl⟩ := hhere
      obtain ⟨front, hfront⟩ := opened_name hopen
      rw [place, copyPath_eq, parts_append_slash, parts_name] at hfront
      have hlast := congrArg List.getLast? hfront
      simp only [getLast?_append, getLast?_cons_cons, getLast?_singleton, Option.some_or,
        Option.some.injEq] at hlast
      rw [Table.name_injective hlast]
    · rw [NetFile.status, netFile_opened hopen (if_neg hhere)] at hstatus
      exact absurd hstatus (by decide)

/-! ## Where the root of /proc ends -/

/-- The directory is the host's own /proc, under whatever name. -/
def SameRoot (p d : Text) : Prop := place (p ++ "/proc".toList) = place d

/-- **When the copies are found.**  Seven bytes are cut off.  A prefix of one character makes them
    the root; with one of two a slash is left, which does no harm if there is room for it.  In all
    other cases a wrong name is left, and only where it is too long to be looked up, and the host's
    own /proc is what the hook names anyway, are the right files read. -/
def Cuts (d p : Text) : Prop :=
  p.length = 1 ∨
  p.length = 2 ∧ (d.length + 10 < pathMax ∨ SameRoot p d) ∨
  3 ≤ p.length ∧ p.length + 14 < pathMax ∧ pathMax ≤ d.length + p.length + 7 ∧ SameRoot p d

/-- **Which names are left of a path**: the right one behind one character or two. -/
theorem parts_cut (p : Text) (table : Table) :
    parts ((copyPath (p ++ "/proc".toList) table).drop 7) = ["net".toList, table.name] ↔
      p.length = 1 ∨ p.length = 2 := by
  rw [copyPath_eq]
  match p with
  | [] =>
    refine iff_of_false ?_ (by simp)
    cases table <;> decide
  | [c] => exact iff_of_true (parts_name table) (.inl rfl)
  | [c, c'] =>
    refine iff_of_true ?_ (.inr rfl)
    exact (parts_append_slash [] _).trans (parts_name table)
  | c :: c' :: c'' :: rest =>
    -- a part that ends in the last letter of `proc` stands before `net`
    have hlast : 'c' ∈ (c :: c' :: c'' :: rest ++ "/proc".toList).drop 7 := by
      have hdrop : (c :: c' :: c'' :: rest ++ "/proc".toList).drop 7
          = (rest ++ "/pro".toList).drop 4 ++ ['c'] := by
        show (rest ++ ("/pro".toList ++ ['c'])).drop 4 = _
        rw [← append_assoc, drop_append_of_le_length (by simp)]
      rw [hdrop]
      exact mem_append_right _ (mem_singleton.mpr rfl)
    rw [drop_append_of_le_length (by simp), parts_append_slash, parts_name]
    refine iff_of_false (fun h => ?_) (by simp)
    have hmore := parts_ne_nil (by decide) (by decide) hlast
    exact hmore (by simpa using h)

/-- **What is opened for a table is its copy.** -/
theorem opened_eq_copy_iff (hostPrefix : Option Text) (d : Text) (table : Table) :
    let p := hostPrefix.getD []
    let fits := d.length + p.length + 4 + table.name.length < pathMax
    opened hostPrefix d table = some (place (copyPath d table)) ↔
      fits ∧ (p.length = 1 ∨ p.length = 2) ∨
      ¬ fits ∧ p.length + 10 + table.name.length < pathMax ∧ SameRoot p d := by
  intro p fits
  have hlength : (tablePath hostPrefix table).length = p.length + 10 + table.name.length := by
    rw [tablePath_eq, length_copyPath, length_append]
    show p.length + 5 + 5 + _ = _
    omega
  have hfits : (mirrorPath d (tablePath hostPrefix table)).length < pathMax ↔ fits := by
    rw [length_mirrorPath, hlength]
    omega
  rw [opened]
  by_cases h : fits
  · rw [if_pos (hfits.mpr h), and_iff_right h, or_iff_left fun h' => h'.1 h, Option.some.injEq,
      mirrorPath_short ((length_mirrorPath _ _).mp (hfits.mpr h)), copyPath_eq, place_below,
      parts_name, tablePath_eq, parts_cut]
  · rw [if_neg (mt hfits.mp h), and_iff_right h, or_iff_right fun h' => h h'.1, ← hlength]
    split
    case isTrue hpath =>
      have hd : d ≠ [] := by grind
      rw [and_iff_right hpath, Option.some.injEq, tablePath_eq, copyPath_eq, copyPath_eq,
        place_below_same (by simp) hd]
      rfl
    case isFalse hpath => exact iff_of_false (fun h => nomatch h) fun h => hpath h.1

/-- **When all copies are found.** -/
theorem opened_copy_iff (hd : Reachable d) (hostPrefix : Option Text) :
    (∀ table, opened hostPrefix d table = some (place (copyPath d table))) ↔
      Cuts d (hostPrefix.getD []) := by
  have htcp : Table.tcp.name.length = 3 := rfl
  have htcp6 : Table.tcp6.name.length = 4 := rfl
  simp only [opened_eq_copy_iff, Cuts]
  rw [Reachable, pathMax] at hd
  generalize hostPrefix.getD [] = p
  constructor
  · intro h
    have hfirst := h .tcp
    have hsecond := h .tcp6
    rw [htcp] at hfirst
    rw [htcp6] at hsecond
    rw [pathMax] at *
    by_cases hroot : SameRoot p d
    · simp only [hroot, and_true, or_true] at *
      omega
    · grind
  · intro h table
    have hname := length_name table
    rw [pathMax] at *
    by_cases hroot : SameRoot p d
    · simp only [hroot, and_true, or_true] at *
      omega
    · grind

/-- **The hook reads the copies**, whatever they hold, exactly when seven bytes are the root of /proc
    with the prefix of the host. -/
theorem hookReads_iff {d : Text} (hd : Reachable d) (hostPrefix : Option Text) :
    HookReads hostPrefix d ↔ Cuts d (hostPrefix.getD []) := by
  rw [← opened_copy_iff hd]
  exact ⟨opened_of_hookReads hd, hookReads_of_opened hd⟩

/-- A directory for copies. -/
def mirrorDir : Text := "/tmp/mirror".toList

/-- With `/` for the prefix the copies are read. -/
theorem hookReads_iff_root : Reachable mirrorDir ∧ HookReads (some ['/']) mirrorDir := by
  have hd : Reachable mirrorDir := by
    unfold Reachable
    decide
  exact ⟨hd, (hookReads_iff hd (some ['/'])).mpr (.inl rfl)⟩

/-- **Without a prefix the copies are not read**: /tmp/mirror/et/tcp is opened in place of
    /tmp/mirror/net/tcp, so the server that the copies show is not delivered. -/
theorem noPrefix_misses :
    mirrorPath mirrorDir (tablePath none .tcp) = "/tmp/mirror/et/tcp".toList ∧
    (sigarNetConnectionWalk appendRow allFlags
        (walkTables (sampleFiles mirrorDir) none (some mirrorDir) fun _ => []) []).1 = [] ∧
    ¬ HookReads none mirrorDir := by
  have hd : Reachable mirrorDir := by
    unfold Reachable
    decide
  refine ⟨by decide +kernel, by decide +kernel, fun h => ?_⟩
  have hcuts := (opened_copy_iff hd none).mp (opened_of_hookReads hd h)
  simp [Cuts] at hcuts

end Sigar.Net.ProcNet
