/-
  One record of 11 counters, read by three back ends.

  The kernel writes the same record in three places: behind the name in /proc/diskstats, behind the
  name in /proc/partitions, and from the start of the line in /sys/block/.../stat.  `sscanf` reads the
  first, and the other two are read by skipping tokens.

  1. **The files** — `Record.columns` and `Record.sysText`, with any blanks.
  2. **What each back end reads** — `dstat_record`, `procp_record` and `sys_record`.  The third skips
     a token before it reads anything, as if there were a name, and so reads the column behind.
  3. **Agreement** — `backendsAgree_iff`.
-/
import Sigar.Disk.SysBlock

namespace Sigar.Disk

open CString Numerals Columns Cache List

/-! ## The files -/

/-- The counters of a device. -/
structure Record where
  rio : UInt64
  rmerge : UInt64
  rsect : UInt64
  ruse : UInt64
  wio : UInt64
  wmerge : UInt64
  wsect : UInt64
  wuse : UInt64
  running : UInt64
  use : UInt64
  aveq : UInt64

/-- All but the first, as columns. -/
def Record.tail (r : Record) (pad : Nat → Nat) : List Column :=
  [⟨pad 1, r.rmerge.toNat⟩, ⟨pad 2, r.rsect.toNat⟩, ⟨pad 3, r.ruse.toNat⟩, ⟨pad 4, r.wio.toNat⟩,
    ⟨pad 5, r.wmerge.toNat⟩, ⟨pad 6, r.wsect.toNat⟩, ⟨pad 7, r.wuse.toNat⟩,
    ⟨pad 8, r.running.toNat⟩, ⟨pad 9, r.use.toNat⟩, ⟨pad 10, r.aveq.toNat⟩]

/-- The record behind a name. -/
def Record.columns (r : Record) (pad : Nat → Nat) : List Column :=
  ⟨pad 0, r.rio.toNat⟩ :: r.tail pad

/-- The fields that a record has for `disk`. -/
def Record.usage (r : Record) : DiskCounters where
  reads := r.rio
  writes := r.wio
  writeBytes := r.wsect * 512
  readBytes := r.rsect * 512
  rtime := r.ruse
  wtime := r.wuse
  qtime := r.aveq
  time := r.use
  ios := r.running

/-- A line that is read as the device's row. -/
def ReadsAs (rdev : UInt64) (line : Text) : Prop :=
  (strtoull line).value = (stMajor rdev).toUInt64 ∧
    (strtoull (strtoull line).rest).value = (stMinor rdev).toUInt64

instance (rdev : UInt64) (line : Text) : Decidable (ReadsAs rdev line) :=
  inferInstanceAs (Decidable (_ ∧ _))

/-- /proc/diskstats with the record in the device's row. -/
structure DiskstatsFile (rdev : UInt64) (r : Record) where
  rows : List Row
  own : Row
  pad : Nat → Nat
  fits : RowsFit rdev rows
  isOwn : ownRow rdev rows = some own
  cols : own.cols = r.columns pad

def DiskstatsFile.text {rdev : UInt64} {r : Record} (file : DiskstatsFile rdev r) : Text :=
  rowsText file.rows

/-- /proc/partitions with the record in the device's row: a header, lines that are not read as that
    row, the row, and anything behind it. -/
structure PartitionsFile (rdev : UInt64) (r : Record) where
  header : Text
  before : List Text
  own : Row
  blocks : Column
  pad : Nat → Nat
  rest : Text
  header_ok : IsLine header ∧ header.length < bufsiz
  before_ok : ∀ line ∈ before, IsLine line ∧ line.length < rowSize
  others : ∀ line ∈ before, ¬ ReadsAs rdev line
  fits : (own.line [blocks]).length < rowSize
  isOwn : own.IsOwn rdev
  cols : own.cols = r.columns pad

def PartitionsFile.text {rdev : UInt64} {r : Record} (file : PartitionsFile rdev r) : Text :=
  file.header ++ ((file.before ++ [file.own.line [file.blocks]]).flatten ++ file.rest)

/-- The text of the record in a file of its own. -/
def Record.sysText (r : Record) (pad : Nat → Nat) : Text :=
  replicate (pad 0) ' ' ++ (renderNat r.rio.toNat ++ (columnsText (r.tail pad) ++ ['\n']))

/-! ## Tokens and numbers -/

@[simp] theorem ofNat_clamp64 (x : UInt64) : UInt64.ofNat (clamp64 x.toNat) = x := by
  have hx : x.toNat < 18446744073709551616 := x.toNat_lt
  rw [clamp64, Nat.min_eq_left (by omega), UInt64.ofNat_toNat]

/-- A number of 64 bits is read as what it is. -/
theorem strtoull_column (pad : Nat) (x : UInt64) (cols : List Column) :
    (strtoull (columnsText (⟨pad, x.toNat⟩ :: cols) ++ ['\n'])).value = x ∧
      (strtoull (columnsText (⟨pad, x.toNat⟩ :: cols) ++ ['\n'])).rest =
        columnsText cols ++ ['\n'] := by
  have hrest : NoDigit ['\n'] := rfl
  rw [strtoull_columns _ _ hrest]
  exact ⟨ofNat_clamp64 x, rfl⟩

/-- A column is a token. -/
theorem skip_column (col : Column) (cols : List Column) {rest : Text}
    (hend : EndsToken (columnsText cols ++ rest)) :
    sigarSkipToken (columnsText (col :: cols) ++ rest) = columnsText cols ++ rest := by
  rw [columnsText_cons]
  exact sigarSkipToken_token (isSpace_blanks _) (isToken_renderNat _) (renderNat_ne_nil _) hend

theorem Row.usage_record {row : Row} {r : Record} {pad : Nat → Nat} (h : row.cols = r.columns pad) :
    row.usage = r.usage := by
  have hlength : 11 ≤ row.cols.length := by
    rw [h]
    exact Nat.le_refl 11
  rw [Row.usage, if_pos hlength]
  simp only [Row.counter, h, Record.columns, Record.tail, Record.usage, map_cons, getD_cons_succ,
    getD_cons_zero, ofNat_clamp64]

/-! ## What each back end reads -/

section Device

variable {host : DiskHost} {fsdev : Option (SigarCache SigarIodev)} {name : Text}
  {table : SigarCache SigarIodev} {addr : Nat} {iodev : SigarIodev} {sb : FileStat} {r : Record}

/-- **/proc/diskstats**: the record of the own row. -/
theorem dstat_record (hget : sigarIodevGet host fsdev name = (table, some (addr, iodev)))
    (hstat : host.stat iodev.path = .ok sb) (file : DiskstatsFile sb.rdev r)
    (htext : host.diskstats = .ok file.text) :
    (getIostatProcDstat host fsdev name host.init).status = sigarOk ∧
      (getIostatProcDstat host fsdev name host.init).disk.toDiskCounters = r.usage := by
  have hfull : 11 ≤ file.own.cols.length := by
    rw [file.cols]
    exact Nat.le_refl 11
  rw [getIostatProcDstat_eq hget hstat htext, DiskstatsFile.text,
    rowLoop_ownRow file.isOwn file.fits]
  refine ⟨rfl, ?_⟩
  rw [← Row.usage_record file.cols, file.own.apply_full hfull]

theorem partitionLoop_own {rdev : UInt64} {own : Text} (hown : ReadsAs rdev own)
    (after : List Text) (disk : DiskUsage) : ∀ {before : List Text},
    (∀ line ∈ before, ¬ ReadsAs rdev line) →
      partitionLoop rdev (before ++ own :: after) disk =
        (sigarOk, partitionRow (strtoull (strtoull own).rest).rest disk) := by
  intro before
  induction before with
  | nil =>
    intro _
    exact if_pos hown
  | cons line before ih =>
    intro hbefore
    refine (if_neg (hbefore line mem_cons_self)).trans ?_
    exact ih fun l hl => hbefore l (mem_cons_of_mem line hl)

theorem Row.readsAs {row : Row} {rdev : UInt64} (h : row.IsOwn rdev) (between : List Column) :
    ReadsAs rdev (row.line between) := by
  refine ⟨?_, ?_⟩
  · rw [row.strtoull_major]
    exact number_eq_iff.mpr h.1
  · rw [row.strtoull_minor]
    exact number_eq_iff.mpr h.2

/-- The tokens and numbers of a row, one after the other. -/
theorem partitionRow_record {row : Row} {pad : Nat → Nat} (hcols : row.cols = r.columns pad)
    (blocks : Column) (disk : DiskUsage) :
    partitionRow (columnsText [blocks] ++ row.named) disk =
      { disk with toDiskCounters := { r.usage with ios := disk.ios } } := by
  have hname : EndsToken (columnsText [] ++ row.named) := .inr rfl
  have hskip : ∀ col cols, sigarSkipToken (columnsText (col :: cols) ++ ['\n']) =
      columnsText cols ++ ['\n'] := fun col cols => skip_column col cols (endsToken_columns cols)
  have hblocks : sigarSkipToken (columnsText [blocks] ++ row.named) = row.named :=
    skip_column blocks [] hname
  simp only [partitionRow, hblocks, row.skip_name, hcols, Record.columns, Record.tail,
    strtoull_column, hskip, Record.usage]

/-- `fgets` behind the first line. -/
theorem linesAfterHeader_lines {header rest : Text} {lines : List Text}
    (hheader : IsLine header) (hshort : header.length < bufsiz)
    (hlines : ∀ line ∈ lines, IsLine line ∧ line.length < rowSize) :
    linesAfterHeader (header ++ (lines.flatten ++ rest)) =
      some (lines ++ fgetsLines rowSize rest []) := by
  have hfirst : fgetsLines bufsiz (header ++ (lines.flatten ++ rest)) [] =
      header :: fgetsLines bufsiz (lines.flatten ++ rest) [] := by
    have hread := @fgetsLines_flatMap _ bufsiz id (lines.flatten ++ rest) [header] (by
      intro line hline
      rw [mem_singleton.mp hline]
      exact ⟨hheader, hshort⟩)
    rwa [flatMap_singleton] at hread
  have hrest := @fgetsLines_flatMap _ rowSize id rest lines hlines
  rw [flatMap_id, map_id] at hrest
  rw [linesAfterHeader, hfirst]
  dsimp only
  rw [drop_left, hrest]

/-- **/proc/partitions**: the record of the device's row. -/
theorem procp_record (hget : sigarIodevGet host fsdev name = (table, some (addr, iodev)))
    (hstat : host.stat iodev.path = .ok sb) (file : PartitionsFile sb.rdev r)
    (htext : host.partitions = .ok file.text) :
    (getIostatProcp host fsdev name host.init).status = sigarOk ∧
      (getIostatProcp host fsdev name host.init).disk.toDiskCounters =
        { r.usage with ios := sigarFieldNotImpl } := by
  have hlines : ∀ line ∈ file.before ++ [file.own.line [file.blocks]],
      IsLine line ∧ line.length < rowSize := by
    intro line hline
    rcases mem_append.mp hline with hline | hline
    · exact file.before_ok line hline
    · rw [mem_singleton.mp hline]
      exact ⟨file.own.isLine [file.blocks], file.fits⟩
  have hloop := partitionLoop_own (file.own.readsAs file.isOwn [file.blocks])
    (fgetsLines rowSize file.rest []) host.init file.others
  rw [file.own.strtoull_minor, partitionRow_record file.cols] at hloop
  rw [getIostatProcp, hget]
  dsimp only
  rw [hstat, htext]
  dsimp only
  rw [PartitionsFile.text, linesAfterHeader_lines file.header_ok.1 file.header_ok.2 hlines,
    append_assoc]
  dsimp only [cons_append, nil_append]
  rw [hloop]
  exact ⟨rfl, rfl⟩

/-- **/sys/block**: the second and the fourth counter. -/
theorem sys_record (hget : sigarIodevGet host fsdev name = (table, some (addr, iodev)))
    {path : Text} {iodev' : SigarIodev} (hcut : cutName iodev = .ok (path, iodev'))
    {pad : Nat → Nat} (hfile : host.sysStat path = .content (r.sysText pad))
    (hfits : (r.sysText pad).length < rowSize) :
    ∃ fetched, getIostatSys host fsdev name host.init = .ok fetched ∧ fetched.status = sigarOk ∧
      fetched.disk.reads = r.rmerge ∧ fetched.disk.writes = r.ruse := by
  have hread : sigarFile2str rowSize (host.sysStat path) = (sigarOk, r.sysText pad) := by
    rw [hfile, sigarFile2str, take_of_length_le (by omega)]
  have hskip : ∀ col cols, sigarSkipToken (columnsText (col :: cols) ++ ['\n']) =
      columnsText cols ++ ['\n'] := fun col cols => skip_column col cols (endsToken_columns cols)
  have hfirst : sigarSkipToken (r.sysText pad) = columnsText (r.tail pad) ++ ['\n'] :=
    sigarSkipToken_token (isSpace_blanks _) (isToken_renderNat _) (renderNat_ne_nil _)
      (endsToken_columns _)
  have hrow : sysStatRow (r.sysText pad) host.init =
      { host.init with
        reads := r.rmerge, writes := r.ruse, readBytes := sigarFieldNotImpl
        writeBytes := sigarFieldNotImpl, queue := notImplDouble } := by
    simp only [sysStatRow, hfirst, Record.tail, strtoull_column, hskip]
  refine ⟨_, getIostatSys_cut hget hcut host.init, ?_⟩
  rw [hread]
  dsimp only
  rw [if_neg fun h => h rfl, hrow]
  exact ⟨rfl, rfl, rfl⟩

end Device

/-! ## Agreement -/

/-- A record is in all three files, for the device that is found for a name. -/
structure Presented (host : DiskHost) (fsdev : Option (SigarCache SigarIodev)) (name : Text)
    (iodev : SigarIodev) (sb : FileStat) (r : Record) : Prop where
  device : (sigarIodevGet host fsdev name).2.map Prod.snd = some iodev
  node : host.stat iodev.path = .ok sb
  diskstats : ∃ file : DiskstatsFile sb.rdev r, host.diskstats = .ok file.text
  partitions : ∃ file : PartitionsFile sb.rdev r, host.partitions = .ok file.text
  sysStat : ∀ path iodev', cutName iodev = .ok (path, iodev') →
    ∃ pad, host.sysStat path = .content (r.sysText pad) ∧ (r.sysText pad).length < rowSize

/-- All back ends succeed, with the same reads and writes; the first two also agree on the rest. -/
def BackendsAgree (host : DiskHost) (fsdev : Option (SigarCache SigarIodev)) (name : Text) :
    Prop :=
  let dstat := getIostatProcDstat host fsdev name host.init
  let procp := getIostatProcp host fsdev name host.init
  dstat.status = sigarOk ∧ procp.status = sigarOk ∧
    { dstat.disk.toDiskCounters with ios := 0 } = { procp.disk.toDiskCounters with ios := 0 } ∧
    ∃ sys, getIostatSys host fsdev name host.init = .ok sys ∧ sys.status = sigarOk ∧
      sys.disk.reads = dstat.disk.reads ∧ sys.disk.writes = dstat.disk.writes

/-- **The back ends agree** exactly if the name has a digit, so that the third stays inside it, and
    the counters that the third takes for the reads and the writes happen to be the same. -/
theorem backendsAgree_iff {host : DiskHost} {fsdev : Option (SigarCache SigarIodev)}
    {name : Text} {iodev : SigarIodev} {sb : FileStat} {r : Record}
    (h : Presented host fsdev name iodev sb r) :
    BackendsAgree host fsdev name ↔ 0 < iodev.digits ∧ r.rmerge = r.rio ∧ r.ruse = r.wio := by
  obtain ⟨⟨addr, found⟩, hdevice, rfl⟩ := Option.map_eq_some_iff.mp h.device
  have hget : sigarIodevGet host fsdev name =
      ((sigarIodevGet host fsdev name).1, some (addr, found)) := by rw [← hdevice]
  obtain ⟨file, htext⟩ := h.diskstats
  obtain ⟨file', htext'⟩ := h.partitions
  obtain ⟨hdstat, hdisk⟩ := dstat_record hget h.node file htext
  obtain ⟨hprocp, hdisk'⟩ := procp_record hget h.node file' htext'
  have hreads : (getIostatProcDstat host fsdev name host.init).disk.reads = r.rio :=
    congrArg DiskCounters.reads hdisk
  have hwrites : (getIostatProcDstat host fsdev name host.init).disk.writes = r.wio :=
    congrArg DiskCounters.writes hdisk
  have hsame : { (getIostatProcDstat host fsdev name host.init).disk.toDiskCounters with ios := 0 } =
      { (getIostatProcp host fsdev name host.init).disk.toDiskCounters with ios := 0 } := by
    rw [hdisk, hdisk']
  rcases cutName_cases found with ⟨hzero, hcut⟩ | ⟨path, iodev', hcut, hdigits⟩
  · -- the scan leaves the name
    constructor
    · rintro ⟨-, -, -, sys, hsys, -⟩
      rw [getIostatSys_fault hget hcut] at hsys
      cases hsys
    · rintro ⟨hpos, -⟩
      exact absurd hzero (Nat.pos_iff_ne_zero.mp hpos)
  · obtain ⟨pad'', hfile, hshort⟩ := h.sysStat path iodev' hcut
    obtain ⟨fetched, hsys, hok, hsysReads, hsysWrites⟩ := sys_record hget hcut hfile hshort
    constructor
    · rintro ⟨-, -, -, sys, hsys', -, hr, hw⟩
      rw [hsys, Except.ok.injEq] at hsys'
      subst hsys'
      exact ⟨by dsimp only; omega, by rw [← hsysReads, hr, hreads], by rw [← hsysWrites, hw, hwrites]⟩
    · rintro ⟨-, hr, hw⟩
      exact ⟨hdstat, hprocp, hsame, fetched, hsys, hok, by rw [hsysReads, hr, hreads],
        by rw [hsysWrites, hw, hwrites]⟩

/-- A row and a host whose files have one record, for /dev/hda1. -/
def recordRow (r : Record) : Row := ⟨3, 3, ⟨7, 1⟩, 0, "hda1".toList, r.columns fun _ => 0, by decide⟩

def recordHost (r : Record) : DiskHost :=
  { rowsHost [recordRow r] 769 with
    partitions := .ok ("major minor  #blocks  name\n".toList ++
      (["\n".toList, (recordRow r).line [⟨2, 1024⟩]].flatten ++ []))
    sysStat := fun _ => .content (r.sysText fun _ => 0) }

theorem recordHost_presented {r : Record} (hrow : (recordRow r).text.length < rowSize)
    (hline : ((recordRow r).line [⟨2, 1024⟩]).length < rowSize)
    (hfile : (r.sysText fun _ => 0).length < rowSize) :
    Presented (recordHost r) none "/dev/hda1".toList (.new "/dev/hda1".toList false)
      ⟨true, 769, 0, 0⟩ r where
  device := by
    obtain ⟨table, addr, hget⟩ := @sigarIodevGet_new (recordHost r) "/dev/hda1".toList
      ⟨true, 769, 0, 0⟩ (by decide) rfl
    rw [hget]
    rfl
  node := rfl
  diskstats :=
    ⟨{ rows := [recordRow r]
       own := recordRow r
       pad := fun _ => 0
       fits := fun row h => by rwa [mem_singleton.mp h]
       isOwn := by rfl
       cols := rfl }, rfl⟩
  partitions :=
    ⟨{ header := "major minor  #blocks  name\n".toList
       before := ["\n".toList]
       own := recordRow r
       blocks := ⟨2, 1024⟩
       pad := fun _ => 0
       rest := []
       header_ok := ⟨⟨"major minor  #blocks  name".toList, rfl, by decide⟩, by decide⟩
       before_ok := fun line h => by
        rw [mem_singleton.mp h]
        exact ⟨⟨[], rfl, not_mem_nil⟩, by decide⟩
       others := fun line h => by
        rw [mem_singleton.mp h]
        decide
       fits := hline
       isOwn := ⟨rfl, rfl⟩
       cols := rfl }, rfl⟩
  sysStat := fun _ _ _ => ⟨fun _ => 0, rfl, hfile⟩

theorem backendsAgree_same : BackendsAgree (recordHost ⟨5, 5, 40, 7, 7, 1, 56, 3, 0, 9, 10⟩) none
    "/dev/hda1".toList :=
  (backendsAgree_iff (recordHost_presented (by decide) (by decide) (by decide))).mpr
    ⟨by decide +kernel, rfl, rfl⟩

def hda1Record : Record := ⟨10, 1, 80, 5, 20, 2, 160, 6, 0, 9, 11⟩

/-- The third back end takes the merged reads for the reads, and the time of the reads for the
    writes. -/
theorem merged_for_reads :
    Presented (recordHost hda1Record) none "/dev/hda1".toList (.new "/dev/hda1".toList false)
      ⟨true, 769, 0, 0⟩ hda1Record ∧
    ¬ BackendsAgree (recordHost hda1Record) none "/dev/hda1".toList := by
  refine ⟨recordHost_presented (by decide) (by decide) (by decide), ?_⟩
  rintro ⟨-, -, -, sys, hsys, -, hreads, -⟩
  have hdstat : (getIostatProcDstat (recordHost hda1Record) none "/dev/hda1".toList
      (recordHost hda1Record).init).disk.reads = 10 := by decide
  have hthird : (getIostatSys (recordHost hda1Record) none "/dev/hda1".toList
      (recordHost hda1Record).init).toOption.map (fun fetched => fetched.disk.reads) = some 1 := by decide
  rw [hsys] at hthird
  rw [hdstat] at hreads
  exact absurd ((Option.some.inj hthird).symm.trans hreads) (by decide)

end Sigar.Disk
