/-
  The aggregate line of /proc/stat and the lines of the single processors.

  Source: `get_cpu_metrics`, `sigar_cpu_get` and `sigar_cpu_list_get` of `os/linux/linux_sigar.c`.

  `sigar_cpu_get` reads the first line, `sigar_cpu_list_get` the others, and merges some of them.
  The columns of the others add up to the first, so the two are to agree.

  1. **One line** — `readCounter` says which number of a line goes to a counter, in each of the
     kernels' formats, and `getCpuMetrics_exact` that it is added as milliseconds, exactly as long
     as a double can hold the sum.
  2. **The list** — no group of processors loses anything (`Groups.sum_collect`).
  3. **The text** — a line of 8192 bytes is read in two pieces, of which the second ends the list.
     Without a line of a processor the array `cpu_total` is parsed, which NOTHING has been read
     into.
-/
import Sigar.Cpu.Rollup
import Sigar.Lib.Columns
import Sigar.Lib.Doubles

namespace Sigar.Cpu

open CString Numerals Columns Groups Doubles List

/-! ## One line -/

/-- The place of a counter in a line. -/
def Counter.column : Counter → Nat
  | .user => 0
  | .nice => 1
  | .sys => 2
  | .idle => 3
  | .wait => 4
  | .irq => 5
  | .softIrq => 6
  | .stolen => 7

/-- The number that a line has for a counter, where its format has one. -/
def readCounter (line : Text) (c : Counter) : Option UInt64 :=
  let ptr := sigarSkipToken line
  if c.column < 4 then some (numberAt ptr c.column)
  else if deref (afterNumbers ptr 4) ≠ ' ' then none
  else if c.column < 7 then some (numberAt ptr c.column)
  else if deref (afterNumbers ptr 7) = ' ' then some (numberAt ptr 7)
  else none

/-- `get_cpu_metrics` adds the number of a line to each counter. -/
theorem getCpuMetrics_get (ticks : Int32) (cpu : SigarCpu) (line : Text) (c : Counter) :
    (getCpuMetrics ticks cpu line).get c =
      match readCounter line c with
      | some s => addTicks ticks (cpu.get c) s
      | none => cpu.get c := by
  rw [readCounter, getCpuMetrics]
  generalize sigarSkipToken line = ptr
  dsimp only
  by_cases hwait : deref (afterNumbers ptr 4) = ' '
  · have hwait' := hwait
    simp only [afterNumbers] at hwait'
    by_cases hstolen : deref (afterNumbers ptr 7) = ' '
    · have hstolen' := hstolen
      simp only [afterNumbers] at hstolen'
      simp only [hwait', hstolen', hwait, hstolen, ne_eq, not_true_eq_false, ↓reduceIte]
      cases c <;> rfl
    · have hstolen' := hstolen
      simp only [afterNumbers] at hstolen'
      simp only [hwait', hstolen', hwait, hstolen, ne_eq, not_true_eq_false, ↓reduceIte]
      cases c <;> rfl
  · have hwait' := hwait
    simp only [afterNumbers] at hwait'
    simp only [hwait', hwait, ne_eq, not_false_eq_true, ↓reduceIte]
    cases c <;> rfl

/-- What a line has for the counters: a number that is not read is zero. -/
def Reads (line : Text) (values : Nat → Nat) : Prop :=
  ∀ c : Counter, readCounter line c = some (UInt64.ofNat (clamp64 (values c.column))) ∨
    readCounter line c = none ∧ values c.column = 0

/-- The column `i` of a line, zero if it has less. -/
def valueAt (cols : List Column) (i : Nat) : Nat := (cols.map Column.value).getD i 0

theorem valueAt_of_lt {cols : List Column} {i : Nat} (hi : i < cols.length) :
    valueAt cols i = cols[i].value := by
  rw [valueAt, getD_eq_getElem _ _ (by rwa [length_map]), getElem_map]

theorem valueAt_of_le {cols : List Column} {i : Nat} (hi : cols.length ≤ i) :
    valueAt cols i = 0 := by
  rw [valueAt, getD_eq_default _ _ (by rwa [length_map])]

section Line

variable {name : Text} (hname : IsToken name) (hne : name ≠ []) {cols : List Column}
include hname hne

/-- The name of a line is skipped. -/
theorem skip_name {rest : Text} (hrest : EndsToken rest) :
    sigarSkipToken (name ++ (columnsText cols ++ rest)) = columnsText cols ++ rest := by
  refine @sigarSkipToken_token [] name _ (forall_mem_nil _) hname hne ?_
  by_cases hcols : cols = []
  · rw [hcols]
    exact hrest
  · right
    rw [deref_columnsText hcols rest]
    rfl

/-- **A whole line**, in one of the three formats. -/
theorem reads_line (hformat : cols.length = 4 ∨ 7 ≤ cols.length) (more : Text) :
    Reads (name ++ (columnsText cols ++ '\n' :: more)) (valueAt cols) := by
  have hrest : NoDigit ('\n' :: more) := rfl
  have hread : ∀ {i : Nat}, i < cols.length →
      numberAt (columnsText cols ++ '\n' :: more) i = UInt64.ofNat (clamp64 (valueAt cols i)) := by
    intro i hi
    rw [numberAt_columns hrest hi, valueAt_of_lt hi]
  have hblank : ∀ {i : Nat}, i < cols.length →
      deref (afterNumbers (columnsText cols ++ '\n' :: more) i) = ' ' := by
    grind [afterNumbers_columns, length_drop, deref_columnsText]
  have hend : ∀ {i : Nat}, i = cols.length →
      deref (afterNumbers (columnsText cols ++ '\n' :: more) i) ≠ ' ' := by
    intro i hi
    rw [afterNumbers_columns hrest hi.le, drop_of_length_le hi.ge]
    show '\n' ≠ ' '
    decide
  intro c
  rw [readCounter, skip_name hname hne (.inr rfl)]
  by_cases h4 : c.column < 4
  · grind
  · rw [if_neg h4]
    rcases hformat with hfour | hseven
    · grind [valueAt_of_le]
    · rw [if_neg (not_not.mpr (hblank (by omega)))]
      by_cases h7 : c.column < 7
      · grind
      · have hc : c.column = 7 := by cases c <;> first | rfl | exact absurd (by decide) h7
        rw [if_neg h7, hc]
        rcases Nat.lt_or_ge 7 cols.length with hmore | hless
        · grind
        · grind [valueAt_of_le]

/-- **A line that ends with its buffer**, after any number of columns. -/
theorem reads_cut (n : Nat) :
    Reads (name ++ (columnsText cols ++ replicate n ' ')) (valueAt cols) := by
  have hrest : NoDigit (replicate n ' ') := by cases n <;> rfl
  have hread : ∀ i : Nat, numberAt (columnsText cols ++ replicate n ' ') i =
      UInt64.ofNat (clamp64 (valueAt cols i)) := by
    intro i
    rcases Nat.lt_or_ge i cols.length with hi | hi
    · rw [numberAt_columns hrest hi, valueAt_of_lt hi]
    · rw [numberAt, afterNumbers_end n hi, strtoull_blanks, valueAt_of_le hi]
      rfl
  have hblank : ∀ {i : Nat}, i < cols.length →
      deref (afterNumbers (columnsText cols ++ replicate n ' ') i) = ' ' := by
    grind [afterNumbers_columns, length_drop, deref_columnsText]
  intro c
  rw [readCounter, skip_name hname hne (by cases n; exacts [.inl rfl, .inr rfl])]
  by_cases h4 : c.column < 4
  · rw [if_pos h4, hread]
    exact .inl rfl
  · rw [if_neg h4]
    split
    · grind [valueAt_of_le]
    · by_cases h7 : c.column < 7
      · rw [if_pos h7, hread]
        exact .inl rfl
      · have hc : c.column = 7 := by cases c <;> first | rfl | exact absurd (by decide) h7
        rw [if_neg h7, hc]
        split
        · rw [hread]
          exact .inl rfl
        · grind [valueAt_of_le]

end Line

/-! ## Milliseconds -/

/-- A clock whose ticks are whole milliseconds: `ms` of them. -/
structure WholeTicks (ticks : Int32) (ms : Nat) : Prop where
  pos : 0 < ms
  quotient : IsNat (1000.0 / Float.ofInt ticks.toInt) ms

/-- The clocks that divide a second so. -/
theorem wholeTicks {ticks : Int32} (hpos : 0 < ticks.toInt) (hdvd : ticks.toInt ∣ 1000) :
    WholeTicks ticks (1000 / ticks.toInt.toNat) := by
  obtain ⟨n, hn⟩ : ∃ n : Nat, ticks.toInt = n := ⟨ticks.toInt.toNat, by omega⟩
  have hmem : n ∈ Nat.divisors 1000 := by
    rw [Nat.mem_divisors]
    rw [hn] at hdvd
    exact ⟨by exact_mod_cast hdvd, by decide⟩
  have hlist : Nat.divisors 1000 =
      {1, 2, 4, 5, 8, 10, 20, 25, 40, 50, 100, 125, 200, 250, 500, 1000} := by decide +kernel
  rw [hlist] at hmem
  simp only [Finset.mem_insert, Finset.mem_singleton] at hmem
  refine ⟨?_, ?_⟩
  · simp [hn, Int.toNat_natCast]
    omega
  · rw [hn, Int.toNat_natCast]
    rcases hmem with rfl | rfl | rfl | rfl | rfl | rfl | rfl | rfl | rfl | rfl | rfl | rfl | rfl |
      rfl | rfl | rfl <;> rfl

section Exact

variable {ticks : Int32} {ms : Nat} (hticks : WholeTicks ticks ms)
include hticks

theorem addTicks_toNat {counter s : UInt64} (hsum : counter.toNat + s.toNat * ms < 2 ^ 53) :
    (addTicks ticks counter s).toNat = counter.toNat + s.toNat * ms := by
  have hs : s.toNat ≤ s.toNat * ms := Nat.le_mul_of_pos_right _ hticks.pos
  have hprod := (isNat_toFloat (show s.toNat < 2 ^ 53 by omega)).mul hticks.quotient (by omega)
  have hadd := (isNat_toFloat (show counter.toNat < 2 ^ 53 by omega)).add hprod hsum
  rw [addTicks, hadd.toUInt64 hsum, UInt64.toNat_ofNat']
  exact Nat.mod_eq_of_lt (hsum.trans (by decide))

/-- **A line is added exactly**, as long as a double can hold the sum. -/
theorem getCpuMetrics_exact {cpu : SigarCpu} {line : Text} {values : Nat → Nat}
    (hreads : Reads line values) (c : Counter)
    (hsum : (cpu.get c).toNat + values c.column * ms < 2 ^ 53) :
    ((getCpuMetrics ticks cpu line).get c).toNat = (cpu.get c).toNat + values c.column * ms := by
  rw [getCpuMetrics_get]
  rcases hreads c with hread | ⟨hread, hzero⟩
  · have hle : values c.column ≤ values c.column * ms := Nat.le_mul_of_pos_right _ hticks.pos
    have hvalue : (UInt64.ofNat (clamp64 (values c.column))).toNat = values c.column := by
      rw [UInt64.toNat_ofNat', clamp64]
      omega
    rw [hread]
    dsimp only
    rw [addTicks_toNat hticks (by rw [hvalue]; exact hsum), hvalue]
  · rw [hread, hzero, Nat.zero_mul, Nat.add_zero]

end Exact

/-! ## /proc/stat -/

/-- A line of a processor, or of all of them: its columns come in one of three formats. -/
structure StatLine where
  number : Option Nat
  cols : List Column
  format : cols.length = 4 ∨ 7 ≤ cols.length

def StatLine.name (line : StatLine) : Text :=
  "cpu".toList ++ line.number.elim [] renderNat

def StatLine.text (line : StatLine) : Text :=
  line.name ++ (columnsText line.cols ++ ['\n'])

def StatLine.value (line : StatLine) (c : Counter) : Nat := valueAt line.cols c.column

/-- /proc/stat: the aggregate line, the lines of the processors, whose columns add up to it, and
    whatever the kernel writes behind them. -/
structure CpuStat where
  aggregate : StatLine
  lines : List StatLine
  rest : Text
  aggregate_name : aggregate.number = none
  lines_name : ∀ line ∈ lines, line.number ≠ none
  rest_other : ¬ "cpu".toList <+: rest
  adds_up : lines ≠ [] → ∀ i,
    valueAt aggregate.cols i = (lines.map fun line => valueAt line.cols i).sum

def linesText (lines : List StatLine) : Text := lines.flatMap StatLine.text

def CpuStat.text (file : CpuStat) : Text :=
  file.aggregate.text ++ (linesText file.lines ++ file.rest)

/-- The two agree on a file: the list adds up to the aggregate, whatever the array `cpu_total`
    held, and without lines of processors it is the aggregate. -/
def CpuStat.Agrees (file : CpuStat) (host : CpuHost) (state : CpuState) : Prop :=
  ∀ cpuTotal : Text, ∃ cpus total,
    (sigarCpuListGet host state (.ok file.text) cpuTotal).2 = .ok cpus ∧
    sigarCpuGet host.ticks (.content file.text) .zero = (sigarOk, total) ∧
    (∀ c : Counter, (cpus.map fun cpu => (cpu.get c).toNat).sum = (total.get c).toNat) ∧
    (cpus.map fun cpu => cpu.total.toNat).sum = total.total.toNat ∧
    (∀ cpu ∈ cpus, cpu.total.toNat = (cpu.toCounters.map UInt64.toNat).sum) ∧
    (file.lines = [] → cpus = [total])

/-- What of a line is in the buffer. -/
def StatLine.shown (line : StatLine) (c : Counter) : Nat :=
  valueAt (showColumns line.cols (bufsiz - 1 - line.name.length)) c.column

/-- The lines that are read: behind one that does not fit, the next ones are not. -/
def readLines : List StatLine → List StatLine
  | [] => []
  | line :: lines => line :: if line.text.length < bufsiz then readLines lines else []

/-! ### The lines that are read -/

theorem StatLine.name_tail_digit (line : StatLine) {c : Char}
    (hc : c ∈ line.number.elim [] renderNat) : c.isDigit = true := by
  cases hnumber : line.number with
  | none => rw [hnumber] at hc; cases hc
  | some n =>
    rw [hnumber] at hc
    exact isDigit_of_mem_renderNat hc

theorem StatLine.isToken_name (line : StatLine) : IsToken line.name := by
  have hword : IsToken "cpu".toList := by decide
  have hnumber : IsToken (line.number.elim [] renderNat) := isToken_of_le fun c hc =>
    Nat.le_trans (by decide) (code_of_isDigit (line.name_tail_digit hc))
  intro c hc
  rcases mem_append.mp hc with hc | hc
  · exact hword c hc
  · exact hnumber c hc

theorem StatLine.name_ne_nil (line : StatLine) : line.name ≠ [] := cons_ne_nil _ _

/-- Behind `cpu` a line has digits, blanks and its end. -/
theorem StatLine.text_eq (line : StatLine) : ∃ tail : Text, line.text = "cpu".toList ++ tail ∧
    ∀ c ∈ tail, c.isDigit = true ∨ c = ' ' ∨ c = '\n' := by
  refine ⟨line.number.elim [] renderNat ++ (columnsText line.cols ++ ['\n']), ?_, ?_⟩
  · rw [StatLine.text, StatLine.name, append_assoc]
  · intro c hc
    rcases mem_append.mp hc with hc | hc
    · exact .inl (line.name_tail_digit hc)
    · rcases mem_append.mp hc with hc | hc
      · rcases mem_columnsText hc with h | h
        · exact .inr (.inl h)
        · exact .inl h
      · exact .inr (.inr (mem_singleton.mp hc))

/-- The rest of a line that does not fit does not say `cpu`. -/
theorem StatLine.drop_other (line : StatLine) (hlong : ¬ line.text.length < bufsiz)
    (more : Text) : ¬ "cpu".toList <+: line.text.drop (bufsiz - 1) ++ more := by
  obtain ⟨tail, htext, htail⟩ := line.text_eq
  have hlength : line.text.length = tail.length + 3 := by
    rw [htext, length_append]
    exact Nat.add_comm _ _
  have hdrop : line.text.drop (bufsiz - 1) = tail.drop 8188 := by
    rw [htext]
    rfl
  rw [hdrop]
  have hne : tail.drop 8188 ≠ [] := by
    apply ne_nil_of_length_pos
    rw [length_drop]
    rw [bufsiz] at hlong
    omega
  obtain ⟨c, rest, hcons⟩ := exists_cons_of_ne_nil hne
  intro hstart
  rw [hcons] at hstart
  have hc : 'c' = c := (cons_prefix_cons.mp hstart).1
  have hmem : c ∈ tail := mem_of_mem_drop (hcons ▸ mem_cons_self)
  rcases htail c hmem with h | h | h <;> rw [← hc] at h <;> exact absurd h (by decide)

theorem takeWhile_other {s : Text} (hs : ¬ "cpu".toList <+: s) :
    (fgetsLines bufsiz s []).takeWhile (fun line => "cpu".toList.isPrefixOf line) = [] := by
  cases hlines : fgetsLines bufsiz s [] with
  | nil => rfl
  | cons line lines =>
    have hprefix : line <+: s := fgetsLines_prefix hlines
    refine takeWhile_cons_of_neg fun h => ?_
    have hstart := isPrefixOf_iff_prefix.mp h
    exact hs (hstart.trans hprefix)

/-- `fgets` reads a line, or as much of it as fits. -/
theorem fgetsLines_stat (line : StatLine) (more : Text) :
    fgetsLines bufsiz (line.text ++ more) [] = line.text.take (bufsiz - 1) ::
      fgetsLines bufsiz (line.text.drop (bufsiz - 1) ++ more) [] := by
  obtain ⟨body, hbody, hline⟩ : IsLine line.text := by
    refine ⟨line.name ++ columnsText line.cols, (append_assoc _ _ _).symm, ?_⟩
    rw [mem_append, not_or]
    exact ⟨newline_notMem_token line.isToken_name, newline_notMem_columns _⟩
  rw [hbody]
  rcases Nat.lt_or_ge (body.length + 1) bufsiz with hfits | hlong
  · have hlength : (body ++ ['\n']).length ≤ bufsiz - 1 := by
      rw [length_append, length_singleton]
      omega
    have hread := @fgetsLines_line bufsiz more body [] hline (by
      rw [length_nil]
      omega)
    rw [take_of_length_le hlength, drop_of_length_le hlength, append_assoc]
    exact hread
  · rw [bufsiz] at hlong ⊢
    have hread := @fgetsLines_full 8192 (body.drop 8191 ++ '\n' :: more) (body.take 8191) []
      (ne_nil_of_length_pos (by rw [length_take]; omega))
      (fun h => hline (mem_of_mem_take h))
      (by rw [length_take, length_nil]; omega)
    rw [take_append_of_le_length (by omega), drop_append_of_le_length (by omega), append_assoc,
      append_assoc]
    rw [← append_assoc, take_append_drop] at hread
    exact hread

/-- The lines that are counted are the first ones, up to one that does not fit. -/
theorem takeWhile_lines {rest : Text} (hrest : ¬ "cpu".toList <+: rest) :
    ∀ lines : List StatLine, (fgetsLines bufsiz (linesText lines ++ rest) []).takeWhile
        (fun line => "cpu".toList.isPrefixOf line) =
      (readLines lines).map fun line => line.text.take (bufsiz - 1) := by
  intro lines
  induction lines with
  | nil => exact takeWhile_other hrest
  | cons line lines ih =>
    have hcpu : "cpu".toList.isPrefixOf (line.text.take (bufsiz - 1)) = true := by
      obtain ⟨tail, htext, -⟩ := line.text_eq
      rw [htext]
      rfl
    rw [linesText, flatMap_cons, append_assoc, fgetsLines_stat, takeWhile_cons_of_pos hcpu,
      readLines, map_cons]
    by_cases hfits : line.text.length < bufsiz
    · rw [if_pos hfits, drop_of_length_le (by omega), nil_append]
      exact congrArg _ ih
    · rw [if_neg hfits, takeWhile_other (line.drop_other hfits _)]
      rfl

/-- What is in the buffer of a line is read. -/
theorem StatLine.reads (line : StatLine) :
    Reads (line.text.take (bufsiz - 1))
      (valueAt (showColumns line.cols (bufsiz - 1 - line.name.length))) := by
  have hlength : line.text.length = line.name.length + ((columnsText line.cols).length + 1) := by
    rw [StatLine.text, length_append, length_append, length_singleton]
  rcases Nat.lt_or_ge line.text.length bufsiz with hfits | hlong
  · rw [take_of_length_le (by omega), showColumns_eq (by omega)]
    exact reads_line line.isToken_name line.name_ne_nil line.format []
  · obtain ⟨n, hn⟩ := take_columnsText line.cols (bufsiz - 1 - line.name.length)
    rw [StatLine.text, take_append, take_append_of_le_length (by omega), hn]
    refine reads_cut (fun c hc => line.isToken_name c (mem_of_mem_take hc)) ?_ n
    rw [Ne, take_eq_nil_iff]
    rintro (h | h)
    · exact absurd h (by decide)
    · exact line.name_ne_nil h

theorem cpuLines_text (file : CpuStat) : cpuLines file.text =
    if file.aggregate.text.length < bufsiz then
      (readLines file.lines).map fun line => line.text.take (bufsiz - 1)
    else [] := by
  rw [cpuLines, CpuStat.text, fgetsLines_stat, tail_cons]
  split
  · next hfits =>
    rw [drop_of_length_le (by omega), nil_append]
    exact takeWhile_lines file.rest_other file.lines
  · next hlong => exact takeWhile_other (file.aggregate.drop_other hlong _)

/-! ## The sums -/

/-- The total of a processor is that of its counters. -/
def Totalled (cpu : SigarCpu) : Prop :=
  cpu.total = cpu.user + cpu.nice + cpu.sys + cpu.idle + cpu.wait + cpu.irq + cpu.softIrq +
    cpu.stolen

theorem totalled_getCpuMetrics (ticks : Int32) (cpu : SigarCpu) (line : Text) :
    Totalled (getCpuMetrics ticks cpu line) := by
  rw [Totalled, getCpuMetrics]

theorem Totalled.toNat_eq {cpu : SigarCpu} (h : Totalled cpu)
    (hsmall : ∀ c, (cpu.get c).toNat < 2 ^ 53) :
    cpu.total.toNat = (cpu.toCounters.map UInt64.toNat).sum := by
  have huser : cpu.user.toNat < 2 ^ 53 := hsmall .user
  have hnice : cpu.nice.toNat < 2 ^ 53 := hsmall .nice
  have hsys : cpu.sys.toNat < 2 ^ 53 := hsmall .sys
  have hidle : cpu.idle.toNat < 2 ^ 53 := hsmall .idle
  have hwait : cpu.wait.toNat < 2 ^ 53 := hsmall .wait
  have hirq : cpu.irq.toNat < 2 ^ 53 := hsmall .irq
  have hsoft : cpu.softIrq.toNat < 2 ^ 53 := hsmall .softIrq
  have hstolen : cpu.stolen.toNat < 2 ^ 53 := hsmall .stolen
  rw [h]
  simp only [UInt64.toNat_add, Counters.sum, Counters.map]
  omega

/-- The counters of several processors may be added in any order. -/
theorem sum_totals : ∀ cpus : List SigarCpu,
    (cpus.map fun cpu => (cpu.toCounters.map UInt64.toNat).sum).sum =
      Counters.sum ⟨(cpus.map fun cpu => (cpu.get .user).toNat).sum,
        (cpus.map fun cpu => (cpu.get .sys).toNat).sum,
        (cpus.map fun cpu => (cpu.get .nice).toNat).sum,
        (cpus.map fun cpu => (cpu.get .idle).toNat).sum,
        (cpus.map fun cpu => (cpu.get .wait).toNat).sum,
        (cpus.map fun cpu => (cpu.get .irq).toNat).sum,
        (cpus.map fun cpu => (cpu.get .softIrq).toNat).sum,
        (cpus.map fun cpu => (cpu.get .stolen).toNat).sum⟩ := by
  intro cpus
  induction cpus with
  | nil => rfl
  | cons cpu cpus ih =>
    rw [map_cons, sum_cons, ih]
    simp only [map_cons, sum_cons, Counters.sum, Counters.map, Counters.get]
    omega

/-- **Where the sums are right, so are the totals.** -/
theorem totals_of_sums {cpus : List SigarCpu} {total : SigarCpu}
    (htotalled : ∀ cpu ∈ cpus, Totalled cpu) (htotal : Totalled total)
    (hsmall : ∀ c : Counter, (total.get c).toNat < 2 ^ 53)
    (hsums : ∀ c : Counter, (cpus.map fun cpu => (cpu.get c).toNat).sum = (total.get c).toNat) :
    (cpus.map fun cpu => cpu.total.toNat).sum = total.total.toNat ∧
      ∀ cpu ∈ cpus, cpu.total.toNat = (cpu.toCounters.map UInt64.toNat).sum := by
  have heach : ∀ cpu ∈ cpus, cpu.total.toNat = (cpu.toCounters.map UInt64.toNat).sum := by
    intro cpu hcpu
    refine (htotalled cpu hcpu).toNat_eq fun c => Nat.lt_of_le_of_lt ?_ (hsmall c)
    rw [← hsums c]
    exact single_le_sum (fun _ _ => Nat.zero_le _) _
      (mem_map_of_mem (f := fun cpu : SigarCpu => (cpu.get c).toNat) hcpu)
  refine ⟨?_, heach⟩
  rw [map_congr_left heach, sum_totals, htotal.toNat_eq hsmall]
  simp only [hsums]
  rfl

theorem shown_le (line : StatLine) (c : Counter) : line.shown c ≤ line.value c :=
  showColumns_le _ _ _

theorem sum_shown_le (c : Counter) : ∀ lines : List StatLine,
    ((readLines lines).map fun line => line.shown c).sum ≤
      (lines.map fun line => line.value c).sum := by
  intro lines
  induction lines with
  | nil => exact Nat.le_refl _
  | cons line lines ih =>
    have hline := shown_le line c
    rw [readLines, map_cons, map_cons, sum_cons, sum_cons]
    split
    · omega
    · rw [map_nil, sum_nil]
      omega

theorem readLines_ne_nil {lines : List StatLine} (h : lines ≠ []) : readLines lines ≠ [] := by
  obtain ⟨line, lines, rfl⟩ := exists_cons_of_ne_nil h
  exact cons_ne_nil _ _

theorem sigarCpuGet_content (ticks : Int32) (text : Text) :
    sigarCpuGet ticks (.content text) .zero =
      (sigarOk, getCpuMetrics ticks .zero (text.take (bufsiz - 1))) := rfl

section File

variable {ticks : Int32} {ms : Nat} (hticks : WholeTicks ticks ms) {file : CpuStat}
  (hsmall : ∀ c : Counter, file.aggregate.value c * ms < 2 ^ 53)
include hticks hsmall

/-- **The aggregate line** is read exactly where it fits. -/
theorem aggregate_get (hfits : file.aggregate.text.length < bufsiz) (c : Counter) :
    ((getCpuMetrics ticks .zero (file.text.take (bufsiz - 1))).get c).toNat =
      file.aggregate.value c * ms := by
  have hbuffer : file.text.take (bufsiz - 1) = file.aggregate.name ++
      (columnsText file.aggregate.cols ++ '\n' ::
        (linesText file.lines ++ file.rest).take (bufsiz - 1 - file.aggregate.text.length)) := by
    rw [CpuStat.text, take_append, take_of_length_le (by omega), StatLine.text, append_assoc,
      append_assoc]
    rfl
  have hreads := reads_line file.aggregate.isToken_name file.aggregate.name_ne_nil
    file.aggregate.format
    ((linesText file.lines ++ file.rest).take (bufsiz - 1 - file.aggregate.text.length))
  have hzero : (SigarCpu.zero.get c).toNat = 0 := by cases c <;> rfl
  have hexact := @getCpuMetrics_exact ticks ms hticks .zero _ _ hreads c
    (by rw [hzero, Nat.zero_add]; exact hsmall c)
  rw [hzero, Nat.zero_add] at hexact
  rw [hbuffer]
  exact hexact

/-- **The list** adds up to what is read of its lines. -/
theorem sum_cpus (hlines : file.lines ≠ []) (width : Nat) (c : Counter) :
    ((collect (fun _ => getCpuMetrics ticks .zero) (getCpuMetrics ticks) width 0 []
        ((readLines file.lines).map fun line => line.text.take (bufsiz - 1))).map
          fun cpu => (cpu.get c).toNat).sum =
      ((readLines file.lines).map fun line => line.shown c).sum * ms := by
  have hzero : (SigarCpu.zero.get c).toNat = 0 := by cases c <;> rfl
  have htotal : ((readLines file.lines).map fun line => line.shown c * ms).sum =
      ((readLines file.lines).map fun line => line.shown c).sum * ms := sum_map_mul_right _ _ _
  have hbound : ((readLines file.lines).map fun line => line.shown c).sum * ms < 2 ^ 53 := by
    refine Nat.lt_of_le_of_lt (Nat.mul_le_mul_right ms ?_) (hsmall c)
    have hadds : file.aggregate.value c = (file.lines.map fun line => line.value c).sum :=
      file.adds_up hlines c.column
    rw [hadds]
    exact sum_shown_le c file.lines
  have hdone : (([] : List SigarCpu).map fun cpu => (cpu.get c).toNat).sum +
      ((readLines file.lines).map fun line => line.shown c * ms).sum < 2 ^ 53 := by
    rw [htotal, map_nil, sum_nil, Nat.zero_add]
    exact hbound
  rw [collect_map, sum_collect ?_ ?_ hdone, htotal]
  · exact Nat.zero_add _
  · intro _ line _ hline
    have hexact := @getCpuMetrics_exact ticks ms hticks .zero _ _ line.reads c
      (by rw [hzero, Nat.zero_add]; exact hline)
    rw [hzero, Nat.zero_add] at hexact
    exact hexact
  · intro cpu line _ hline
    exact getCpuMetrics_exact hticks line.reads c hline

end File

/-- What `sigar_cpu_list_get` returns: without lines of processors, what `cpu_total` says. -/
theorem sigarCpuListGet_text (file : CpuStat) (host : CpuHost) (state : CpuState) :
    ∃ width, ∀ cpuTotal, (sigarCpuListGet host state (.ok file.text) cpuTotal).2 =
      .ok (if cpuLines file.text = [] then [getCpuMetrics host.ticks .zero cpuTotal]
        else collect (fun _ => getCpuMetrics host.ticks .zero) (getCpuMetrics host.ticks) width 0 []
          (cpuLines file.text)) := by
  refine ⟨groupWidth (sigarCpuCoreRollup host state).2 (sigarCpuCoreRollup host state).1.lcpu,
    fun cpuTotal => ?_⟩
  have hlines : fgetsLines bufsiz file.text [] ≠ [] := by
    rw [CpuStat.text, fgetsLines_stat]
    exact cons_ne_nil _ _
  rw [sigarCpuListGet]
  dsimp only
  rw [if_neg hlines]
  by_cases hnone : cpuLines file.text = []
  · rw [if_pos hnone, hnone]
    rfl
  · rw [if_neg hnone, if_neg (collect_ne_nil (.inr hnone))]

/-- What an array says that holds a line with one number. -/
theorem user_of_array {ticks : Int32} {ms : Nat} (hticks : WholeTicks ticks ms) {v : Nat}
    (hv : v * ms < 2 ^ 53) :
    ((getCpuMetrics ticks .zero ("cpu".toList ++ (columnsText [⟨0, v⟩] ++ []))).get
      .user).toNat = v * ms := by
  have hreads := @reads_cut "cpu".toList (by decide) (by decide) [⟨0, v⟩] 0
  have hexact := @getCpuMetrics_exact ticks ms hticks .zero _ _ hreads .user
    (by rw [show (SigarCpu.zero.get .user).toNat = 0 from rfl, Nat.zero_add]; exact hv)
  rw [show (SigarCpu.zero.get .user).toNat = 0 from rfl, Nat.zero_add] at hexact
  exact hexact

/-- Nothing is known of an array that nothing has been read into. -/
theorem not_agrees_of_none {file : CpuStat} {host : CpuHost} {state : CpuState} {ms : Nat}
    (hticks : WholeTicks host.ticks ms) (hms : ms < 2 ^ 53) (hnone : cpuLines file.text = []) :
    ¬ file.Agrees host state := by
  obtain ⟨width, hlist⟩ := sigarCpuListGet_text file host state
  have huser : ∀ v, v * ms < 2 ^ 53 → file.Agrees host state →
      ((getCpuMetrics host.ticks .zero (file.text.take (bufsiz - 1))).get .user).toNat =
        v * ms := by
    intro v hv hagrees
    obtain ⟨cpus, total, hcpus, htotal, hsums, -⟩ :=
      hagrees ("cpu".toList ++ (columnsText [⟨0, v⟩] ++ []))
    rw [hlist, if_pos hnone] at hcpus
    cases hcpus
    have hsum := hsums .user
    rw [map_singleton, sum_singleton, user_of_array hticks hv] at hsum
    rw [sigarCpuGet_content, Prod.mk.injEq] at htotal
    obtain ⟨-, rfl⟩ := htotal
    exact hsum.symm
  intro hagrees
  have hzero := huser 0 (by omega) hagrees
  have hone := huser 1 (by omega) hagrees
  have hpos := hticks.pos
  omega

/-- **The list and the aggregate agree exactly if** there are lines of processors, the aggregate
    line fits into its buffer, and what is read of the others adds up to it; as far as a double
    counts milliseconds. -/
theorem cpuList_agrees_iff (host : CpuHost) (state : CpuState) (file : CpuStat)
    (hpos : 0 < host.ticks.toInt) (hdvd : host.ticks.toInt ∣ 1000)
    (hsmall : ∀ c : Counter,
      file.aggregate.value c * (1000 / host.ticks.toInt.toNat) < 2 ^ 53) :
    file.Agrees host state ↔ file.lines ≠ [] ∧ file.aggregate.text.length < bufsiz ∧
      ∀ c : Counter, ((readLines file.lines).map fun line => line.shown c).sum =
        file.aggregate.value c := by
  have hticks := wholeTicks hpos hdvd
  have hms : 1000 / host.ticks.toInt.toNat < 2 ^ 53 :=
    Nat.lt_of_le_of_lt (Nat.div_le_self _ _) (by decide)
  by_cases hlines : file.lines = []
  · have hnone : cpuLines file.text = [] := by
      rw [cpuLines_text, hlines]
      exact ite_self _
    exact iff_of_false (not_agrees_of_none hticks hms hnone) fun h => h.1 hlines
  by_cases hfits : file.aggregate.text.length < bufsiz
  swap
  · have hnone : cpuLines file.text = [] := by rw [cpuLines_text, if_neg hfits]
    exact iff_of_false (not_agrees_of_none hticks hms hnone) fun h => hfits h.2.1
  have hcpu : cpuLines file.text = (readLines file.lines).map fun line =>
      line.text.take (bufsiz - 1) := by rw [cpuLines_text, if_pos hfits]
  have hsome : cpuLines file.text ≠ [] := by
    rw [hcpu, Ne, map_eq_nil_iff]
    exact readLines_ne_nil hlines
  obtain ⟨width, hlist⟩ := sigarCpuListGet_text file host state
  have hvalue := aggregate_get hticks hsmall hfits
  have hsum := sum_cpus hticks hsmall hlines width
  rw [← hcpu] at hsum
  constructor
  · intro hagrees
    refine ⟨hlines, hfits, fun c => ?_⟩
    obtain ⟨cpus, total, hcpus, htotal, hsums, -⟩ := hagrees []
    rw [hlist, if_neg hsome] at hcpus
    cases hcpus
    rw [sigarCpuGet_content, Prod.mk.injEq] at htotal
    obtain ⟨-, rfl⟩ := htotal
    have hc := hsums c
    rw [hsum c, hvalue c] at hc
    exact Nat.eq_of_mul_eq_mul_right hticks.pos hc
  · rintro ⟨-, -, hread⟩ cpuTotal
    refine ⟨_, _, by rw [hlist, if_neg hsome], sigarCpuGet_content _ _, ?_⟩
    have hsums : ∀ c : Counter, ((collect (fun _ => getCpuMetrics host.ticks .zero)
        (getCpuMetrics host.ticks) width 0 [] (cpuLines file.text)).map
          fun cpu => (cpu.get c).toNat).sum =
        ((getCpuMetrics host.ticks .zero (file.text.take (bufsiz - 1))).get c).toNat := by
      intro c
      rw [hsum c, hvalue c, hread c]
    have htotalled : ∀ cpu ∈ collect (fun _ => getCpuMetrics host.ticks .zero)
        (getCpuMetrics host.ticks) width 0 [] (cpuLines file.text), Totalled cpu :=
      forall_mem_collect (fun _ => totalled_getCpuMetrics _ _) (totalled_getCpuMetrics _)
        (forall_mem_nil _)
    obtain ⟨htotals, heach⟩ := totals_of_sums htotalled (totalled_getCpuMetrics _ _ _)
      (fun c => by rw [hvalue c]; exact hsmall c) hsums
    exact ⟨hsums, htotals, heach, fun h => absurd h hlines⟩

/-- Two processors of a 2.4 kernel. -/
def twoProcessors : CpuStat where
  aggregate := ⟨none, [⟨1, 10⟩, ⟨0, 20⟩, ⟨0, 30⟩, ⟨0, 40⟩], .inl rfl⟩
  lines := [⟨some 0, [⟨0, 4⟩, ⟨0, 5⟩, ⟨0, 6⟩, ⟨0, 7⟩], .inl rfl⟩,
    ⟨some 1, [⟨0, 6⟩, ⟨0, 15⟩, ⟨0, 24⟩, ⟨0, 33⟩], .inl rfl⟩]
  rest := "page 1 2\n".toList
  aggregate_name := rfl
  lines_name := by
    intro line hline
    simp only [mem_cons, not_mem_nil, or_false] at hline
    rcases hline with rfl | rfl <;> exact Option.some_ne_none _
  rest_other := by decide
  adds_up := by
    rintro - (_ | _ | _ | _ | i) <;> rfl

theorem cpuList_agrees_two : twoProcessors.Agrees twinHost (openedAt 4) := by
  refine (cpuList_agrees_iff twinHost (openedAt 4) twoProcessors (by decide) (by decide) ?_).mpr
    ⟨by decide, by decide, ?_⟩
  · intro c
    cases c <;> decide
  · intro c
    cases c <;> decide

/-- A kernel that writes the aggregate line only. -/
def aggregateOnly : CpuStat where
  aggregate := ⟨none, [⟨1, 10⟩, ⟨0, 20⟩, ⟨0, 30⟩, ⟨0, 40⟩], .inl rfl⟩
  lines := []
  rest := "page 1 2\n".toList
  aggregate_name := rfl
  lines_name := forall_mem_nil _
  rest_other := by decide
  adds_up := fun h => absurd rfl h

/-- The list of such a host has what an array says that was never filled. -/
theorem aggregateOnly_disagrees : ¬ aggregateOnly.Agrees twinHost (openedAt 4) := by
  have hticks : WholeTicks twinHost.ticks 10 := @wholeTicks twinHost.ticks (by decide) (by decide)
  refine not_agrees_of_none hticks (by decide) ?_
  rw [cpuLines_text]
  exact ite_self _

end Sigar.Cpu
