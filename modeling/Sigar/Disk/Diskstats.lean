/-
  /proc/diskstats: which row ends up in the caller's `disk`.

  `get_iostat_proc_dstat` has ONE structure for all rows that it looks at: those of the same major
  number with the minor number 0, and the device's own, which ends the loop.  A row of 11 counters
  sets every field, one of 4 only some of them.

  1. **The rows** — `rowLoop_own` and `rowLoop_none`: the loop as a function of the rows, not of
     their text.  `passRows` is what the rows before the own one leave behind.
  2. **What is left** — the times of the last such row with 11 counters (`times_passRows`).
  3. **The result** — it is the own row exactly if nothing of another row is left in it
     (`dstat_right_iff`).
-/
import Sigar.Disk.Iostat
import Sigar.Lib.Columns
import Mathlib.Data.List.GetD
import Mathlib.Data.List.TakeWhile

namespace Sigar.Disk

open CString Numerals Columns Cache List

variable {rdev : UInt64}

/-! ## The file -/

/-- A row: the numbers of the device, its name and its counters, with any blanks. -/
structure Row where
  lead : Nat
  major : Nat
  minor : Column
  namePad : Nat
  name : Text
  cols : List Column
  name_ok : IsToken name ∧ name ≠ []

variable {own : Row} {rows : List Row}

/-- The name and what is behind it. -/
def Row.named (row : Row) : Text :=
  replicate (row.namePad + 1) ' ' ++ (row.name ++ (columnsText row.cols ++ ['\n']))

/-- A line with the row's numbers, the given columns, its name and its counters. -/
def Row.line (row : Row) (between : List Column) : Text :=
  replicate row.lead ' ' ++ (renderNat row.major ++
    (columnsText (row.minor :: between) ++ row.named))

def Row.text (row : Row) : Text := row.line []

def rowsText (rows : List Row) : Text := rows.flatMap Row.text

/-- The row is the one of the device. -/
def Row.IsOwn (rdev : UInt64) (row : Row) : Prop :=
  row.major = (stMajor rdev).toNat ∧ row.minor.value = (stMinor rdev).toNat

instance (rdev : UInt64) (row : Row) : Decidable (row.IsOwn rdev) := inferInstanceAs (Decidable (_ ∧ _))

/-- The row is taken for the one of the device's disk. -/
def Row.IsDisk (rdev : UInt64) (row : Row) : Prop :=
  row.major = (stMajor rdev).toNat ∧ row.minor.value = 0

instance (rdev : UInt64) (row : Row) : Decidable (row.IsDisk rdev) := inferInstanceAs (Decidable (_ ∧ _))

/-- A counter of the row, as a number of 64 bits. -/
def Row.counter (row : Row) (i : Nat) : UInt64 :=
  UInt64.ofNat (clamp64 ((row.cols.map Column.value).getD i 0))

/-- What a row says of its device: 11 counters or more, or 4. -/
def Row.usage (row : Row) : DiskCounters :=
  if 11 ≤ row.cols.length then
    { reads := row.counter 0, readBytes := row.counter 2 * 512, rtime := row.counter 3
      writes := row.counter 4, writeBytes := row.counter 6 * 512, wtime := row.counter 7
      ios := row.counter 8, time := row.counter 9, qtime := row.counter 10 }
  else
    { DiskCounters.notImpl with
      reads := row.counter 0, readBytes := row.counter 1 * 512
      writes := row.counter 2, writeBytes := row.counter 3 * 512 }

/-- A row that carries 11 counters or more, or exactly 4. -/
def Row.Complete (row : Row) : Prop := 11 ≤ row.cols.length ∨ row.cols.length = 4

instance (row : Row) : Decidable row.Complete := inferInstanceAs (Decidable (_ ∨ _))

/-! ## One row -/

theorem Row.noDigit_named (row : Row) : NoDigit row.named := by
  rw [Row.named, replicate_succ]
  rfl

theorem Row.strtoull_major (row : Row) (between : List Column) :
    strtoull (row.line between) = ⟨UInt64.ofNat (clamp64 row.major),
      columnsText (row.minor :: between) ++ row.named,
      decide (18446744073709551616 ≤ row.major)⟩ := by
  rw [Row.line, strtoull_digits (isSpace_blanks _) (fun _ => isDigit_of_mem_renderNat)
    (renderNat_ne_nil _) (noDigit_columnsText row.noDigit_named _), digitsValue_renderNat]

theorem Row.strtoull_minor (row : Row) (between : List Column) :
    strtoull (strtoull (row.line between)).rest = ⟨UInt64.ofNat (clamp64 row.minor.value),
      columnsText between ++ row.named,
      decide (18446744073709551616 ≤ row.minor.value)⟩ := by
  rw [row.strtoull_major between]
  exact strtoull_columns _ _ row.noDigit_named

theorem endsToken_columns (cols : List Column) : EndsToken (columnsText cols ++ ['\n']) := by
  right
  by_cases hcols : cols = []
  · rw [hcols]
    rfl
  · rw [deref_columnsText hcols]
    rfl

theorem Row.skip_name (row : Row) : sigarSkipToken row.named = columnsText row.cols ++ ['\n'] :=
  sigarSkipToken_token (isSpace_blanks _) row.name_ok.1 row.name_ok.2 (endsToken_columns _)

/-- **The counters are scanned**, as many as there are and no more than asked for. -/
theorem scanNumbers_columns : ∀ (n : Nat) (cols : List Column),
    scanNumbers n (columnsText cols ++ ['\n']) =
      (cols.take n).map fun col => UInt64.ofNat (clamp64 col.value) := by
  intro n
  induction n with
  | zero => intro cols; rfl
  | succ n ih =>
    intro cols
    cases cols with
    | nil => rfl
    | cons col cols =>
      have hrest : NoDigit ['\n'] := rfl
      have hshorter : columnsText cols ++ ['\n'] ≠ columnsText (col :: cols) ++ ['\n'] := by
        intro h
        have hcons : columnsText cols = col.text ++ columnsText cols := append_cancel_right h
        have hempty : col.text = [] := self_eq_append_left.mp hcons
        rw [Column.text, replicate_succ] at hempty
        cases hempty
      rw [scanNumbers, strtoull_columns col cols hrest, if_neg hshorter, ih]
      rfl

/-- What a row does to `disk`. -/
def Row.apply (junk : Nat → UInt64) (row : Row) (s : RowState) : RowState :=
  scanRow junk (columnsText row.cols ++ ['\n']) s

theorem Row.numbers_length (row : Row) :
    (scanNumbers 11 (columnsText row.cols ++ ['\n'])).length = min 11 row.cols.length := by
  rw [scanNumbers_columns, length_map, length_take]

theorem Row.numbers_getD (row : Row) {i : Nat} (hi : i < min 11 row.cols.length) (d : UInt64) :
    (scanNumbers 11 (columnsText row.cols ++ ['\n'])).getD i d = row.counter i := by
  grind [scanNumbers_columns, Row.counter, getD_eq_getElem, length_map, length_take]

/-- A row of 11 counters sets everything. -/
theorem Row.apply_full (row : Row) (h : 11 ≤ row.cols.length) (junk : Nat → UInt64)
    (s : RowState) : row.apply junk s = { s with disk := { s.disk with
      toDiskCounters := row.usage } } := by
  have hlength : (scanNumbers 11 (columnsText row.cols ++ ['\n'])).length = 11 := by
    rw [row.numbers_length]
    omega
  have hget : ∀ i d, i < 11 →
      (scanNumbers 11 (columnsText row.cols ++ ['\n'])).getD i d = row.counter i := fun i d hi =>
    row.numbers_getD (by omega) d
  rw [Row.apply, scanRow, if_pos hlength, Row.usage, if_pos h]
  simp only [hget _ _ (by decide : 0 < 11), hget _ _ (by decide : 2 < 11),
    hget _ _ (by decide : 3 < 11), hget _ _ (by decide : 4 < 11), hget _ _ (by decide : 6 < 11),
    hget _ _ (by decide : 7 < 11), hget _ _ (by decide : 8 < 11), hget _ _ (by decide : 9 < 11),
    hget _ _ (by decide : 10 < 11)]

/-- A row of 4 counters leaves the times and the number of I/Os in progress. -/
theorem Row.apply_short (row : Row) (h : row.cols.length = 4) (junk : Nat → UInt64)
    (s : RowState) : row.apply junk s = { s with disk := { s.disk with
      toDiskCounters := { row.usage with
        rtime := s.disk.rtime, wtime := s.disk.wtime, ios := s.disk.ios } } } := by
  have hlength : (scanNumbers 11 (columnsText row.cols ++ ['\n'])).length = 4 := by
    rw [row.numbers_length, h]
    rfl
  have hget : ∀ i d, i < 4 →
      (scanNumbers 11 (columnsText row.cols ++ ['\n'])).getD i d = row.counter i := fun i d hi =>
    row.numbers_getD (by omega) d
  rw [Row.apply, scanRow, if_neg (by omega), if_pos hlength, Row.usage, if_neg (by omega)]
  simp only [hget _ _ (by decide : 0 < 4), hget _ _ (by decide : 1 < 4),
    hget _ _ (by decide : 2 < 4), hget _ _ (by decide : 3 < 4)]
  rfl

/-- No other row sets the times. -/
theorem Row.apply_times (row : Row) (h : ¬ 11 ≤ row.cols.length) (junk : Nat → UInt64)
    (s : RowState) : (row.apply junk s).disk.rtime = s.disk.rtime ∧
      (row.apply junk s).disk.wtime = s.disk.wtime ∧ (row.apply junk s).disk.ios = s.disk.ios := by
  grind [row.numbers_length, Row.apply, scanRow]

theorem Row.apply_status (row : Row) (junk : Nat → UInt64) (s : RowState) (h : s.status = enoent) :
    (row.apply junk s).status = enoent := by grind [Row.apply, scanRow]

/-! ## The loop -/

/-- A number of a row is compared with one of 32 bits, whatever its size. -/
theorem number_eq_iff {n : Nat} {x : UInt32} :
    UInt64.ofNat (clamp64 n) = x.toUInt64 ↔ n = x.toNat := by
  have hx : x.toNat < 4294967296 := x.toNat_lt
  rw [← UInt64.toNat_inj, UInt64.toNat_ofNat', UInt32.toNat_toUInt64, clamp64]
  omega

/-- One round, for a row that is read whole. -/
theorem rowLoop_row (rdev : UInt64) (junk : Nat → Nat → UInt64) (i : Nat) (row : Row)
    (lines : List Text) (s : RowState) :
    rowLoop rdev junk i (row.text :: lines) s =
      if row.IsOwn rdev then { row.apply (junk i) s with status := sigarOk }
      else if row.IsDisk rdev then
        rowLoop rdev junk (i + 1) lines
          { row.apply (junk i) s with device := (row.apply (junk i) s).disk }
      else rowLoop rdev junk (i + 1) lines s := by
  have hmajor : (strtoull row.text).value = (stMajor rdev).toUInt64 ↔
      row.major = (stMajor rdev).toNat := by
    rw [Row.text, row.strtoull_major]
    exact number_eq_iff
  have hminor : ∀ x : UInt32, (strtoull (strtoull row.text).rest).value = x.toUInt64 ↔
      row.minor.value = x.toNat := by
    intro x
    rw [Row.text, row.strtoull_minor]
    exact number_eq_iff
  have hzero : (strtoull (strtoull row.text).rest).value = 0 ↔ row.minor.value = 0 := hminor 0
  have hptr : sigarSkipToken (strtoull (strtoull row.text).rest).rest =
      columnsText row.cols ++ ['\n'] := by
    rw [Row.text, row.strtoull_minor]
    exact row.skip_name
  rw [rowLoop]
  simp only [hmajor, hminor, hzero, hptr]
  by_cases hown : row.IsOwn rdev
  · rw [if_pos ⟨hown.1, .inl hown.2⟩, if_pos hown.2, if_pos hown]
    rfl
  · rw [if_neg hown]
    by_cases hdisk : row.IsDisk rdev
    · rw [if_pos ⟨hdisk.1, .inr hdisk.2⟩, if_neg fun h => hown ⟨hdisk.1, h⟩, if_pos hdisk]
      rfl
    · rw [if_neg hdisk, if_neg]
      rintro ⟨hm, h | h⟩
      · exact hown ⟨hm, h⟩
      · exact hdisk ⟨hm, h⟩

/-- What rows of other devices leave behind. -/
def passRows (rdev : UInt64) (junk : Nat → Nat → UInt64) : Nat → List Row → RowState → RowState
  | _, [], s => s
  | i, row :: rows, s =>
    if row.IsDisk rdev then
      passRows rdev junk (i + 1) rows
        { row.apply (junk i) s with device := (row.apply (junk i) s).disk }
    else passRows rdev junk (i + 1) rows s

section Loop

variable (rdev) (junk : Nat → Nat → UInt64)

/-- The loop goes on after rows of other devices. -/
theorem rowLoop_pass (lines : List Text) :
    ∀ {before : List Row} (i : Nat) (s : RowState), (∀ row ∈ before, ¬ row.IsOwn rdev) →
      rowLoop rdev junk i (before.map Row.text ++ lines) s =
        rowLoop rdev junk (i + before.length) lines (passRows rdev junk i before s) := by
  intro before
  induction before with
  | nil => intro i s _; rfl
  | cons row rows ih =>
    intro i s hbefore
    have hrows : ∀ r ∈ rows, ¬ r.IsOwn rdev := fun r hr => hbefore r (mem_cons_of_mem row hr)
    rw [map_cons, cons_append, rowLoop_row, if_neg (hbefore row mem_cons_self), passRows,
      length_cons, show i + (rows.length + 1) = i + 1 + rows.length by omega]
    split
    · exact ih _ _ hrows
    · exact ih _ _ hrows

/-- **The own row ends the loop.** -/
theorem rowLoop_own {before : List Row}
    (hbefore : ∀ row ∈ before, ¬ row.IsOwn rdev) (hown : own.IsOwn rdev)
    (lines : List Text) (s : RowState) :
    rowLoop rdev junk 0 (before.map Row.text ++ own.text :: lines) s =
      { own.apply (junk before.length) (passRows rdev junk 0 before s) with status := sigarOk } := by
  rw [rowLoop_pass rdev junk _ 0 s hbefore, rowLoop_row, if_pos hown, Nat.zero_add]

theorem passRows_status : ∀ (rows : List Row) (i : Nat)
    {s : RowState}, s.status = enoent → (passRows rdev junk i rows s).status = enoent := by
  intro rows
  induction rows with
  | nil => intro i s h; exact h
  | cons row rows ih =>
    intro i s h
    rw [passRows]
    split
    · exact ih _ (row.apply_status _ s h)
    · exact ih _ h

/-- **Without an own row** the status is the one that it starts with. -/
theorem rowLoop_none (hrows : ∀ row ∈ rows, ¬ row.IsOwn rdev) {s : RowState} (hs : s.status = enoent) :
    (rowLoop rdev junk 0 (rows.map Row.text) s).status = enoent := by
  have hpass := rowLoop_pass rdev junk [] 0 s hrows
  rw [append_nil] at hpass
  rw [hpass, rowLoop]
  exact passRows_status rdev junk rows 0 hs

end Loop

/-! ## What is left of other rows -/

/-- The last row with a property. -/
def lastWith (P : Row → Prop) [DecidablePred P] (rows : List Row) : Option Row :=
  (rows.filter P).getLast?

theorem lastWith_cons (P : Row → Prop) [DecidablePred P] (row : Row) (rows : List Row) :
    lastWith P (row :: rows) =
      if P row then some ((lastWith P rows).getD row) else lastWith P rows := by
  grind [lastWith, filter_cons_of_pos, getLast?_cons, filter_cons_of_neg]

/-- The last row that sets the times: one taken for the disk's, with 11 counters or more. -/
def lastFull (rdev : UInt64) (rows : List Row) : Option Row :=
  lastWith (fun row => row.IsDisk rdev ∧ 11 ≤ row.cols.length) rows

/-- The fields that a row of 4 counters does not set. -/
def DiskCounters.times (disk : DiskCounters) : UInt64 × UInt64 × UInt64 :=
  (disk.rtime, disk.wtime, disk.ios)

theorem DiskCounters.with_times_eq_iff {c d : DiskCounters} :
    { c with rtime := d.rtime, wtime := d.wtime, ios := d.ios } = c ↔ d.times = c.times := by
  simp only [DiskCounters.ext_iff, DiskCounters.times, Prod.mk.injEq, true_and]

/-- **The times are those of the last full row**, or those that were there before. -/
theorem times_passRows (rdev : UInt64) (junk : Nat → Nat → UInt64) :
    ∀ (rows : List Row) (i : Nat) (s : RowState),
      (passRows rdev junk i rows s).disk.times =
        ((lastFull rdev rows).map fun row => row.usage.times).getD s.disk.times := by
  intro rows
  induction rows with
  | nil => intro i s; rfl
  | cons row rows ih =>
    intro i s
    rw [passRows, lastFull, lastWith_cons, ← lastFull]
    by_cases hdisk : row.IsDisk rdev
    · rw [if_pos hdisk, ih]
      by_cases hfull : 11 ≤ row.cols.length
      · rw [if_pos ⟨hdisk, hfull⟩, row.apply_full hfull]
        cases lastFull rdev rows <;> rfl
      · obtain ⟨hr, hw, hi⟩ := row.apply_times hfull (junk i) s
        have htimes : (row.apply (junk i) s).disk.times = s.disk.times := by
          rw [DiskCounters.times, hr, hw, hi]
          rfl
        rw [if_neg fun h => hfull h.2, htimes]
    · rw [if_neg hdisk, if_neg fun h => hdisk h.1, ih]

/-! ## The result -/

theorem Row.isLine (row : Row) (between : List Column) : IsLine (row.line between) := by
  refine ⟨replicate row.lead ' ' ++ (renderNat row.major ++
    (columnsText (row.minor :: between) ++ (replicate (row.namePad + 1) ' ' ++
      (row.name ++ columnsText row.cols)))), ?_, ?_⟩
  · simp only [Row.line, Row.named, append_assoc]
  · simp only [mem_append, not_or]
    exact ⟨newline_notMem_blanks _, newline_notMem_token (isToken_renderNat _),
      newline_notMem_columns _, newline_notMem_blanks _, newline_notMem_token row.name_ok.1,
      newline_notMem_columns _⟩

/-- The back end, for a device that is found. -/
theorem getIostatProcDstat_eq {host : DiskHost} {fsdev : Option (SigarCache SigarIodev)}
    {dirname text : Text} {table : SigarCache SigarIodev} {addr : Nat} {iodev : SigarIodev}
    {sb : FileStat} (hget : sigarIodevGet host fsdev dirname = (table, some (addr, iodev)))
    (hstat : host.stat iodev.path = .ok sb) (htext : host.diskstats = .ok text)
    (disk : DiskUsage) :
    getIostatProcDstat host fsdev dirname disk =
      let s := rowLoop sb.rdev host.junk 0 (fgetsLines rowSize text []) ⟨enoent, disk, host.init⟩
      ⟨table, s.status, s.disk, some (addr, iodev), s.device⟩ := by
  rw [getIostatProcDstat, hget]
  dsimp only
  rw [hstat, htext]

/-- The own row, as the loop finds it, and the rows before it. -/
def ownRow (rdev : UInt64) (rows : List Row) : Option Row := rows.find? fun row => row.IsOwn rdev

def rowsBefore (rdev : UInt64) (rows : List Row) : List Row :=
  rows.takeWhile fun row => ¬ row.IsOwn rdev

theorem ownRow_some (h : ownRow rdev rows = some own) :
    own.IsOwn rdev ∧ (∀ row ∈ rowsBefore rdev rows, ¬ row.IsOwn rdev) ∧
      ∃ after, rows = rowsBefore rdev rows ++ own :: after := by
  obtain ⟨hown, before, after, hrows, hbefore⟩ := find?_eq_some_iff_append.mp h
  have hfirst : rowsBefore rdev rows = before := by
    grind [rowsBefore, takeWhile_append_of_pos, takeWhile_cons_of_neg]
  rw [hfirst]
  exact ⟨by simpa using hown, fun row hrow => by simpa using hbefore row hrow, after, hrows⟩

/-- The rows that the loop comes to: all, or those up to the own one. -/
def rowsRead (rdev : UInt64) (rows : List Row) : List Row :=
  rowsBefore rdev rows ++ (ownRow rdev rows).toList

/-- No row that the loop comes to fills the buffer.  How long the rows behind the own one are does
    not matter. -/
def RowsFit (rdev : UInt64) (rows : List Row) : Prop :=
  ∀ row ∈ rowsRead rdev rows, row.text.length < rowSize

instance : Decidable (RowsFit rdev rows) := inferInstanceAs (Decidable (∀ row ∈ _, _))

/-- **`fgets` gives the rows** that the loop comes to, one by one; the rest may be in pieces. -/
theorem fgetsLines_rows (hfits : RowsFit rdev rows) {after : List Row}
    (hrows : rows = rowsRead rdev rows ++ after) :
    fgetsLines rowSize (rowsText rows) [] =
      (rowsRead rdev rows).map Row.text ++ fgetsLines rowSize (rowsText after) [] := by
  have hlines : ∀ row ∈ rowsRead rdev rows, IsLine row.text ∧ row.text.length < rowSize :=
    fun row hrow => ⟨row.isLine [], hfits row hrow⟩
  rw [← fgetsLines_flatMap _ hlines, rowsText, rowsText, ← flatMap_append, ← hrows]

theorem rowLoop_ownRow (h : ownRow rdev rows = some own) (hfits : RowsFit rdev rows)
    (junk : Nat → Nat → UInt64) (s : RowState) :
    rowLoop rdev junk 0 (fgetsLines rowSize (rowsText rows) []) s =
      { own.apply (junk (rowsBefore rdev rows).length)
          (passRows rdev junk 0 (rowsBefore rdev rows) s) with status := sigarOk } := by
  obtain ⟨hown, hbefore, after, hrows⟩ := ownRow_some h
  have hread : rowsRead rdev rows = rowsBefore rdev rows ++ [own] := by
    rw [rowsRead, h]
    rfl
  rw [fgetsLines_rows hfits (by rw [hread, append_assoc]; exact hrows), hread, map_append,
    append_assoc]
  exact rowLoop_own rdev junk hbefore hown _ s

/-- Without an own row the loop comes to the end of the file. -/
theorem rowLoop_noOwnRow (h : ownRow rdev rows = none) (hfits : RowsFit rdev rows)
    (junk : Nat → Nat → UInt64) {s : RowState} (hs : s.status = enoent) :
    (rowLoop rdev junk 0 (fgetsLines rowSize (rowsText rows) []) s).status = enoent := by
  have hnone : ∀ row ∈ rows, ¬ row.IsOwn rdev := fun row hrow => by
    simpa using find?_eq_none.mp h row hrow
  have hread : rowsRead rdev rows = rows := by
    rw [rowsRead, h, Option.toList_none, append_nil, rowsBefore, takeWhile_eq_self_iff]
    exact fun row hrow => decide_eq_true (hnone row hrow)
  have hlines := fgetsLines_rows hfits (by rw [append_nil, hread])
  rw [hlines, hread, rowsText, flatMap_nil, fgetsLines, append_nil]
  exact rowLoop_none rdev junk hnone hs

/-- The back end is right about a device: on success the device has a row, it carries 11 counters
    or more or exactly 4, and all counters are from it.  This is for every host with these rows,
    whatever the unset variables hold, and for every name of the device. -/
def DstatRight (tooLarge : UInt64) (rows : List Row) (rdev : UInt64) : Prop :=
  ∀ host fsdev dirname table addr iodev sb, host.tooLarge = tooLarge →
    host.diskstats = .ok (rowsText rows) →
    sigarIodevGet host fsdev dirname = (table, some (addr, iodev)) →
    host.stat iodev.path = .ok sb → sb.rdev = rdev →
    (getIostatProcDstat host fsdev dirname host.init).status = sigarOk →
      ∃ own, ownRow rdev rows = some own ∧ own.Complete ∧
        (getIostatProcDstat host fsdev dirname host.init).disk.toDiskCounters = own.usage

/-- What the rows before the own one leave in the fields that a row of 4 counters does not set. -/
def leftTimes (tooLarge rdev : UInt64) (before : List Row) : UInt64 × UInt64 × UInt64 :=
  ((lastFull rdev before).map fun full => full.usage.times).getD (DiskUsage.init tooLarge).times

/-- Nothing of another row is left: the own row sets everything, or the fields that it does not set
    have the mark. -/
def NothingLeft (tooLarge : UInt64) (rows : List Row) (rdev : UInt64) : Prop :=
  ∀ own, ownRow rdev rows = some own → 11 ≤ own.cols.length ∨
    own.cols.length = 4 ∧
      leftTimes tooLarge rdev (rowsBefore rdev rows) = DiskCounters.notImpl.times

/-- What a row of 4 counters comes to, behind the rows before it. -/
theorem short_counters_iff (h : own.cols.length = 4) (before : List Row) (junk : Nat → Nat → UInt64)
    (tooLarge : UInt64) (status : Status) (device : DiskUsage) :
    (own.apply (junk before.length) (passRows rdev junk 0 before
        ⟨status, .init tooLarge, device⟩)).disk.toDiskCounters = own.usage ↔
      leftTimes tooLarge rdev before = DiskCounters.notImpl.times := by
  have htimes : _ = leftTimes tooLarge rdev before :=
    times_passRows rdev junk before 0 ⟨status, .init tooLarge, device⟩
  rw [own.apply_short h, Row.usage, if_neg (by omega), DiskCounters.with_times_eq_iff, htimes]
  rfl

/-- A host with these rows, on which every name is the device `rdev`. -/
def rowsHost (rows : List Row) (rdev : UInt64) : DiskHost where
  stat _ := .ok ⟨true, rdev, 0, 0⟩
  fileSystems := .ok []
  diskstats := .ok (rowsText rows)
  partitions := .ok []
  sysStat _ := .noFile
  uptime := 1
  now := 0
  clock _ := ⟨0, 0⟩
  junk _ _ := 0
  tooLarge := sigarFieldNotImpl

/-- **The back end is right about a device** exactly if nothing of another row is left. -/
theorem dstat_right_iff {rows : List Row} {rdev : UInt64} (hfits : RowsFit rdev rows)
    (tooLarge : UInt64) : DstatRight tooLarge rows rdev ↔ NothingLeft tooLarge rows rdev := by
  constructor
  · intro hright own hown
    obtain ⟨table, addr, hget⟩ :=
      @sigarIodevGet_new { rowsHost rows rdev with tooLarge := tooLarge } "/dev/x".toList
        ⟨true, rdev, 0, 0⟩ (by decide) rfl
    have hresult := getIostatProcDstat_eq hget rfl rfl (.init tooLarge)
    rw [rowLoop_ownRow hown hfits] at hresult
    obtain ⟨own', hown', hcomplete, hcounters⟩ :=
      hright _ none _ table addr _ _ rfl rfl hget rfl rfl (congrArg Fetched.status hresult)
    rw [hown] at hown'
    cases hown'
    rcases hcomplete with hfull | hshort
    · exact .inl hfull
    · have hdisk := congrArg (fun fetched => fetched.disk.toDiskCounters) hresult
      exact .inr ⟨hshort, (short_counters_iff hshort _ _ _ _ _).mp (hdisk.symm.trans hcounters)⟩
  · rintro hleft host fsdev dirname table addr iodev sb rfl htext hget hstat rfl hok
    have hresult := getIostatProcDstat_eq hget hstat htext host.init
    cases hown : ownRow sb.rdev rows with
    | none =>
      -- the status is never set
      rw [hresult] at hok
      dsimp only at hok
      rw [rowLoop_noOwnRow hown hfits host.junk rfl] at hok
      exact absurd hok (by decide)
    | some own =>
      rw [rowLoop_ownRow hown hfits] at hresult
      refine ⟨own, rfl, ?_⟩
      rw [hresult]
      rcases hleft own hown with hfull | ⟨hshort, htimes⟩
      · refine ⟨.inl hfull, ?_⟩
        rw [own.apply_full hfull]
      · exact ⟨.inr hshort, (short_counters_iff hshort _ _ _ _ _).mpr htimes⟩

/-- A disk with 11 counters and its partition with 4. -/
def sdaRows : List Row :=
  [⟨3, 8, ⟨7, 0⟩, 0, "sda".toList, [⟨0, 10⟩, ⟨0, 1⟩, ⟨0, 80⟩, ⟨0, 5⟩, ⟨0, 20⟩, ⟨0, 2⟩, ⟨0, 160⟩,
      ⟨0, 6⟩, ⟨0, 0⟩, ⟨0, 9⟩, ⟨0, 11⟩], by decide⟩,
    ⟨3, 8, ⟨7, 1⟩, 0, "sda1".toList, [⟨0, 3⟩, ⟨0, 24⟩, ⟨0, 4⟩, ⟨0, 32⟩], by decide⟩]

theorem dstat_right_sda : DstatRight sigarFieldNotImpl sdaRows 2048 := by
  refine (dstat_right_iff (by decide) _).mpr ?_
  intro own hown
  cases hown
  exact .inl (by decide)

/-- The partition is reported with the times of the disk. -/
theorem sda1_times_of_sda : ¬ DstatRight sigarFieldNotImpl sdaRows 2049 := by
  intro hright
  obtain ⟨table, addr, hget⟩ := @sigarIodevGet_new (rowsHost sdaRows 2049) "/dev/sda1".toList
    ⟨true, 2049, 0, 0⟩ (by decide) rfl
  have hcounters : (getIostatProcDstat (rowsHost sdaRows 2049) none "/dev/sda1".toList
      (rowsHost sdaRows 2049).init).status = sigarOk ∧
      (getIostatProcDstat (rowsHost sdaRows 2049) none "/dev/sda1".toList
        (rowsHost sdaRows 2049).init).disk.rtime = 5 := by decide
  obtain ⟨own, hown, -, husage⟩ := hright _ none _ table addr _ _ rfl rfl hget rfl rfl hcounters.1
  have hrtime : own.usage.rtime = 5 := by rw [← husage, hcounters.2]
  have hrow : (ownRow 2049 sdaRows).map (fun row => row.usage.rtime) = some sigarFieldNotImpl := by
    decide
  rw [hown, Option.map_some, hrtime] at hrow
  exact absurd hrow (by decide)

end Sigar.Disk
