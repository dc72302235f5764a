/-
  Lines of decimal columns.

  The kernel writes a table as numbers with blanks in between, as many as it likes.  `Column` is a
  number with the blanks before it; `strtoull_columns` takes the next column off a text, whatever
  its size.  A line that does not fit into a buffer is cut, possibly inside a number:
  `showColumns` is what is left of its columns, and the cut text is the text of these
  (`take_columnsText`), since the first digits of a number are a number again.
-/
import Sigar.Lib.Numerals

namespace Columns

open CString Numerals List

variable {rest : Text}

/-- A number and how many blanks come before it, less one. -/
structure Column where
  pad : Nat
  value : Nat

variable {cols : List Column}

def Column.text (col : Column) : Text :=
  replicate (col.pad + 1) ' ' ++ renderNat col.value

def columnsText (cols : List Column) : Text := cols.flatMap Column.text

theorem columnsText_cons (col : Column) (cols : List Column) (rest : Text) :
    columnsText (col :: cols) ++ rest =
      replicate (col.pad + 1) ' ' ++ (renderNat col.value ++ (columnsText cols ++ rest)) := by
  rw [columnsText, flatMap_cons, Column.text, columnsText, append_assoc, append_assoc]

theorem isSpace_blanks (n : Nat) : ∀ c ∈ replicate n ' ', isSpace c = true := by
  intro c hc
  rw [eq_of_mem_replicate hc]
  rfl

theorem skip_blanks (n : Nat) : (replicate n ' ').dropWhile isSpace = [] := by
  rw [dropWhile_replicate]
  rfl

/-- A column starts with a blank. -/
theorem deref_columnsText (hne : cols ≠ []) (rest : Text) :
    deref (columnsText cols ++ rest) = ' ' := by
  obtain ⟨col, cols, rfl⟩ := exists_cons_of_ne_nil hne
  rw [columnsText_cons, replicate_succ]
  rfl

/-- What comes behind a column is no digit. -/
theorem noDigit_columnsText (hrest : NoDigit rest) (cols : List Column) :
    NoDigit (columnsText cols ++ rest) := by
  by_cases hcols : cols = []
  · rw [hcols]
    exact hrest
  · rw [NoDigit, deref_columnsText hcols rest]
    rfl

theorem mem_columnsText {c : Char} (h : c ∈ columnsText cols) : c = ' ' ∨ c.isDigit = true := by
  obtain ⟨col, -, hc⟩ := mem_flatMap.mp h
  rcases mem_append.mp hc with hc | hc
  · exact .inl (eq_of_mem_replicate hc)
  · exact .inr (isDigit_of_mem_renderNat hc)

theorem newline_notMem_columns (cols : List Column) : '\n' ∉ columnsText cols := by
  intro h
  rcases mem_columnsText h with h | h <;> exact absurd h (by decide)

/-! ## Reading -/

/-- **The next column is taken off the text.** -/
theorem strtoull_columns (col : Column) (cols : List Column) (hrest : NoDigit rest) :
    strtoull (columnsText (col :: cols) ++ rest) =
      ⟨UInt64.ofNat (clamp64 col.value), columnsText cols ++ rest,
        decide (18446744073709551616 ≤ col.value)⟩ := by
  rw [columnsText_cons, strtoull_digits (isSpace_blanks _) (fun _ => isDigit_of_mem_renderNat)
    (renderNat_ne_nil _) (noDigit_columnsText hrest cols), digitsValue_renderNat]

/-- At the end of the text nothing is read. -/
theorem strtoull_blanks (n : Nat) :
    strtoull (replicate n ' ') = ⟨0, replicate n ' ', false⟩ := by
  rw [strtoull, skip_blanks]
  rfl

/-- What is left after `i` numbers. -/
def afterNumbers (s : Text) : Nat → Text
  | 0 => s
  | i + 1 => (strtoull (afterNumbers s i)).rest

/-- The number with the index `i`. -/
def numberAt (s : Text) (i : Nat) : UInt64 := (strtoull (afterNumbers s i)).value

theorem afterNumbers_columns (hrest : NoDigit rest) :
    ∀ {i : Nat}, i ≤ cols.length →
      afterNumbers (columnsText cols ++ rest) i = columnsText (cols.drop i) ++ rest := by
  intro i
  induction i with
  | zero => intro _; rfl
  | succ i ih =>
    intro hi
    rw [afterNumbers, ih (by omega), drop_eq_getElem_cons (by omega), strtoull_columns _ _ hrest]

theorem numberAt_columns (hrest : NoDigit rest) {i : Nat} (hi : i < cols.length) :
    numberAt (columnsText cols ++ rest) i =
      UInt64.ofNat (clamp64 cols[i].value) := by
  rw [numberAt, afterNumbers_columns hrest (Nat.le_of_lt hi), drop_eq_getElem_cons hi,
    strtoull_columns _ _ hrest]

theorem afterNumbers_end (n : Nat) : ∀ {i : Nat}, cols.length ≤ i →
    afterNumbers (columnsText cols ++ replicate n ' ') i = replicate n ' ' := by
  have hrest : NoDigit (replicate n ' ') := by
    cases n <;> rfl
  intro i
  induction i with
  | zero =>
    intro hi
    rw [afterNumbers, length_eq_zero_iff.mp (Nat.le_zero.mp hi)]
    rfl
  | succ i ih =>
    intro hi
    rcases Nat.lt_or_ge i cols.length with h | h
    · have hall : cols.length = i + 1 := by omega
      rw [afterNumbers_columns hrest (by omega), drop_of_length_le (by omega)]
      rfl
    · rw [afterNumbers, ih h, strtoull_blanks]

/-! ## A cut line -/

/-- The columns of which something is in the first `room` bytes, with the digits that are. -/
def showColumns : List Column → Nat → List Column
  | [], _ => []
  | col :: cols, room =>
    if room ≤ col.pad + 1 then []
    else ⟨col.pad, col.value / 10 ^ (col.text.length - room)⟩ ::
      showColumns cols (room - col.text.length)

/-- **A cut line is a line of what it shows**, with blanks behind it. -/
theorem take_columnsText : ∀ (cols : List Column) (room : Nat),
    ∃ n, (columnsText cols).take room = columnsText (showColumns cols room) ++ replicate n ' ' := by
  intro cols
  induction cols with
  | nil => intro room; exact ⟨0, take_nil⟩
  | cons col cols ih =>
    intro room
    have hlength : col.text.length = col.pad + 1 + (renderNat col.value).length := by
      rw [Column.text, length_append, length_replicate]
    have hcons : columnsText (col :: cols) = col.text ++ columnsText cols := flatMap_cons
    rw [showColumns, hcons, take_append]
    rcases Nat.lt_or_ge (col.pad + 1) room with hroom | hroom
    · obtain ⟨n, hn⟩ := ih (room - col.text.length)
      refine ⟨n, ?_⟩
      have hcol : col.text.take room =
          Column.text ⟨col.pad, col.value / 10 ^ (col.text.length - room)⟩ := by
        rw [Column.text, Column.text, take_append, length_replicate,
          take_of_length_le (by rw [length_replicate]; omega),
          renderNat_take (show 0 < room - (col.pad + 1) by omega), length_append, length_replicate]
        rw [show (renderNat col.value).length - (room - (col.pad + 1)) =
          col.pad + 1 + (renderNat col.value).length - room by omega]
      rw [if_neg (by omega), hn, hcol, ← append_assoc]
      rfl
    · refine ⟨room, ?_⟩
      rw [if_pos hroom, show room - col.text.length = 0 by omega, take_zero, append_nil,
        Column.text, take_append_of_le_length (by rw [length_replicate]; omega), take_replicate,
        Nat.min_eq_left hroom]
      rfl

/-- Nothing shown is more than what there is. -/
theorem showColumns_le : ∀ (cols : List Column) (room i : Nat),
    ((showColumns cols room).map Column.value).getD i 0 ≤ (cols.map Column.value).getD i 0 := by
  intro cols
  induction cols with
  | nil => intro room i; exact Nat.le_refl _
  | cons col cols ih =>
    intro room i
    rw [showColumns]
    split
    · exact Nat.zero_le _
    · cases i with
      | zero => exact Nat.div_le_self _ _
      | succ i => exact ih _ i

/-- A line that fits is shown as it is. -/
theorem showColumns_eq : ∀ {cols : List Column} {room : Nat}, (columnsText cols).length ≤ room →
    showColumns cols room = cols := by
  intro cols
  induction cols with
  | nil => intro room _; rfl
  | cons col cols ih =>
    intro room hroom
    have hcons : (columnsText (col :: cols)).length = col.text.length + (columnsText cols).length := by
      rw [columnsText, flatMap_cons, length_append, columnsText]
    have hlength : col.text.length = col.pad + 1 + (renderNat col.value).length := by
      rw [Column.text, length_append, length_replicate]
    have hdigits : 0 < (renderNat col.value).length :=
      length_pos_of_ne_nil (renderNat_ne_nil _)
    rw [showColumns, if_neg (by omega), ih (by omega), show col.text.length - room = 0 by omega,
      Nat.pow_zero, Nat.div_one]

end Columns
