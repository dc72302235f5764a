/-
  Threads in the process list of an old Linux.

  Source: `get_proc_signal_offset`, `proc_isthread` and `sigar_os_proc_list_get` of
  `os/linux/linux_sigar.c`.

  Without NPTL a thread has its own entry in /proc, and is told from a process by field 38 of its
  `stat` file, the signal it sends when it ends: 17 is a process.  The files have a different
  number of fields in different kernels, and the program counts from BOTH ends:

  1. `get_proc_signal_offset` counts the blanks of /proc/self/stat forwards, and takes them for the
     gaps between fields (`getProcSignalOffset_text`);
  2. `proc_isthread` walks over as many numbers backwards in the file of another process.  One
     round of its loop goes from the last digit of a number to the last digit of the number before,
     whatever its sign (`skipField`), so it ends at field 38 if the count is right
     (`procIsthread_text`);
  3. a blank in the name of the CALLING process is counted too.  The walk then ends before field
     38 and its answer does not depend on that field (`procIsthread_blind`).

  So the list is right exactly when the caller's own name has no blank (`threadFilter_iff`).
-/
import Sigar.LastProc.RoundTrip
import Sigar.Lib.BackScan

namespace Sigar.Proc

open CString Numerals BackScan LastProc List

variable {l : StatLine} {last : Char} {buffer : Text} {n : Nat}

/-! ## The program -/

/-- What the functions read of the handle. -/
structure ThreadHandle where
  hasNptl : Bool
  procSignalOffset : Int

/-- `PROC_SIGNAL_IX`. -/
def procSignalIx : Int := 38

/-- `get_proc_signal_offset`; `self` is what reading /proc/self/stat comes to. -/
def getProcSignalOffset (self : FileRead) : Int :=
  let (status, buffer) := sigarFile2str bufsiz self
  if status ≠ sigarOk then 1
  else ((buffer.takeWhile fun c => c ≠ nul).count ' ' : Int) - procSignalIx + 1

/-- `!isdigit`. -/
def notDigit (c : Char) : Bool := !c.isDigit

/-- `while (offset-- > 0)`: skip a field, and what stands before it. -/
def skipFields (buffer : Text) : Nat → Nat → Nat
  | 0, n => n
  | offset + 1, n =>
    skipFields buffer offset (skipBack notDigit nul buffer (skipBack Char.isDigit nul buffer n))

/-- The end of `proc_isthread`: `17 ` is a process. -/
def isThreadAt (buffer : Text) (n : Nat) : Bool :=
  if n < 3 then false  -- hulk smashed /proc?
  else !(buffer.getD n nul = '1' && buffer.getD (n + 1) nul = '7' && buffer.getD (n + 2) nul = ' ')

/-- `proc_isthread`.  A file of `BUFSIZ` bytes or more writes past the array and is outside the
    model; the `n` of an empty one is -1, for which, as for 0, no loop does anything. -/
def procIsthread (offset : Int) : FileRead → Bool
  | .noFile => false  -- unlikely if pid was from readdir proc
  | .readError _ => false
  | .content bytes =>
    let buffer := bytes.take bufsiz
    let n := skipBack notDigit nul buffer (buffer.length - 1)  -- skip trailing crap
    isThreadAt buffer (skipFields buffer offset.toNat n)

/-- An entry of /proc: its name, and what reading the file `stat` in it comes to. -/
structure ProcEntry where
  name : Text
  stat : FileRead

/-- The number that is listed for an entry. -/
def pidOf (name : Text) : SigarPid := (strtoull name).value.toUInt32.toInt32

/-- The loop of `sigar_os_proc_list_get`. -/
def procListLoop (threadbadhack : Bool) (offset : Int) :
    List ProcEntry → List SigarPid → List SigarPid
  | [], proclist => proclist
  | ent :: entries, proclist =>
    if ¬ (deref ent.name).isDigit then procListLoop threadbadhack offset entries proclist
    else if threadbadhack && procIsthread offset ent.stat then
      procListLoop threadbadhack offset entries proclist
    else procListLoop threadbadhack offset entries (proclist ++ [pidOf ent.name])

/-- `sigar_os_proc_list_get`: the handle, the status and the list.  The offset is computed ONCE. -/
def sigarOsProcListGet (handle : ThreadHandle) (dir : Except Status (List ProcEntry))
    (self : FileRead) (proclist : List SigarPid) : ThreadHandle × Status × List SigarPid :=
  match dir with
  | .error errno => (handle, errno, proclist)
  | .ok entries =>
    let threadbadhack := !handle.hasNptl
    let handle :=
      if threadbadhack ∧ handle.procSignalOffset = -1 then
        { handle with procSignalOffset := getProcSignalOffset self }
      else handle
    (handle, sigarOk, procListLoop threadbadhack handle.procSignalOffset entries proclist)

/-! ## What the kernel writes -/

/-- The file of a process, as the kernel writes it: `exit_signal` is -1 or a signal, there is
    a field after it, and the text fits the array it is read into. -/
structure KernelStat extends StatLine where
  early_length : early.length = 34
  late_ne_nil : late ≠ []
  comm_string : nul ∉ comm
  state_letter : state.isAlpha = true
  exit_low : -1 ≤ exitSignal
  exit_high : exitSignal ≤ 64
  fits : toStatLine.text.length < bufsiz

variable {own : KernelStat}

/-! ## The count of blanks -/

theorem count_blank_of_digits {text : Text} (h : ∀ c ∈ text, c = '-' ∨ c.isDigit = true) :
    text.count ' ' = 0 := by
  apply count_eq_zero.mpr
  intro hblank
  rcases h _ hblank with hsign | hdigit
  · exact absurd hsign (by decide)
  · exact absurd hdigit (by decide)

theorem count_renderFields (fields : List Int) :
    (renderFields fields).count ' ' = fields.length := by
  induction fields with
  | nil => rfl
  | cons i fields ih =>
    rw [show i :: fields = [i] ++ fields from rfl, renderFields_append, count_append, ih]
    show (' ' :: (renderInt i ++ [])).count ' ' + fields.length = fields.length + 1
    rw [append_nil, count_cons_self, count_blank_of_digits fun c => mem_renderInt]
    omega

theorem count_text (hstate : l.state.isAlpha = true) :
    l.text.count ' ' = l.comm.count ' ' + l.early.length + l.late.length + 3 := by
  have hletter : l.state ≠ ' ' := by
    intro h
    rw [h] at hstate
    exact absurd hstate (by decide)
  rw [StatLine.text, StatLine.front, StatLine.fields, fieldsLine]
  simp only [count_append, count_cons, count_renderFields,
    count_blank_of_digits fun c => mem_renderInt, length_append, length_cons]
  simp [hletter]
  omega

theorem nul_notMem_text (hcomm : nul ∉ l.comm) (hstate : l.state.isAlpha = true) :
    nul ∉ l.text := by
  have hnumber : nul ∉ renderInt l.pid := by
    intro h
    rcases mem_renderInt h with hsign | hdigit
    · exact absurd hsign (by decide)
    · exact absurd hdigit (by decide)
  have hfields : nul ∉ fieldsLine l.fields := by
    intro h
    rcases mem_fieldsLine h with hspace | hsign | hdigit
    · exact absurd hspace (by decide)
    · exact absurd hsign (by decide)
    · exact absurd hdigit (by decide)
  have hletter : nul ≠ l.state := by
    intro h
    rw [← h] at hstate
    exact absurd hstate (by decide)
  rw [StatLine.text, StatLine.front]
  simp only [mem_append, mem_cons, not_mem_nil, not_or, or_false]
  exact ⟨⟨hnumber, by decide, by decide, hcomm, by decide, by decide, hletter⟩, hfields⟩

/-- **The offset** is the number of fields after the 38th, and the blanks of the own name. -/
theorem getProcSignalOffset_text (own : KernelStat) :
    getProcSignalOffset (.content own.text) = own.late.length + own.comm.count ' ' := by
  have hread : sigarFile2str bufsiz (.content own.text) = (sigarOk, own.text) := by
    show (_, own.text.take (bufsiz - 1)) = _
    have hfits := own.fits
    rw [take_of_length_le (by omega)]
  have hall : own.text.takeWhile (fun c => c ≠ nul) = own.text := by
    have hstop : (own.text ++ []).takeWhile (fun c => c ≠ nul) = own.text := by
      apply takeWhile_stop
      · intro c hc
        have hne : c ≠ nul := by
          rintro rfl
          exact nul_notMem_text own.comm_string own.state_letter hc
        simpa using hne
      · rfl
    rwa [append_nil] at hstop
  rw [getProcSignalOffset]
  simp only [hread, ne_eq, not_true_eq_false, if_false, hall]
  have hcount := count_text own.state_letter
  rw [own.early_length] at hcount
  rw [hcount, procSignalIx]
  omega

/-! ## The walk back -/

/-- A written number: its sign, its digits but the last, and the last. -/
theorem renderInt_parts (i : Int) : ∃ sign digits last, renderInt i = sign ++ (digits ++ [last])
    ∧ (sign = [] ∨ sign = ['-']) ∧ (∀ c ∈ digits, c.isDigit = true) ∧ last.isDigit = true := by
  have hne := renderNat_ne_nil i.natAbs
  have hsplit := dropLast_append_getLast hne
  have hdigits : ∀ c ∈ (renderNat i.natAbs).dropLast, c.isDigit = true :=
    fun c hc => isDigit_of_mem_renderNat (dropLast_subset _ hc)
  have hlast : ((renderNat i.natAbs).getLast hne).isDigit = true :=
    isDigit_of_mem_renderNat (getLast_mem hne)
  by_cases hneg : i < 0
  · refine ⟨['-'], _, _, ?_, .inr rfl, hdigits, hlast⟩
    rw [renderInt, if_pos hneg, hsplit]
    rfl
  · refine ⟨[], _, _, ?_, .inl rfl, hdigits, hlast⟩
    rw [renderInt, if_neg hneg, hsplit]
    rfl

/-- The two inner loops: over the digits of a number and the character `x` before them, then over
    the rest of the gap and the last digit of the number before. -/
theorem skipGap {head : Text} (hhead : head ≠ []) (hlast : last.isDigit = true)
    {gap : Text} (hgap : ∀ c ∈ gap, notDigit c = true) {x : Char} (hx : x.isDigit = false)
    {digits : Text} (hdigits : ∀ c ∈ digits, c.isDigit = true) (after : Text) :
    skipBack notDigit nul (head ++ last :: (gap ++ x :: (digits ++ after)))
        (skipBack Char.isDigit nul (head ++ last :: (gap ++ x :: (digits ++ after)))
          (head.length + gap.length + 1 + digits.length))
      = head.length - 1 := by
  have hstop : notDigit last = false := by rw [notDigit, hlast]; rfl
  have hbuffer : head ++ last :: (gap ++ x :: (digits ++ after))
      = (head ++ last :: gap) ++ x :: (digits ++ after) := by
    rw [append_assoc, cons_append]
  have hlen : (head ++ last :: gap).length = head.length + gap.length + 1 := by
    rw [length_append, length_cons, Nat.add_assoc]
  have hfirst := @skipBack_run Char Char.isDigit nul _
    (append_ne_nil_of_left_ne_nil hhead (last :: gap)) x hx _ hdigits after
  rw [← hbuffer, hlen, Nat.add_sub_cancel] at hfirst
  rw [hfirst]
  exact skipBack_run hhead hstop hgap (x :: (digits ++ after))

/-- **One round of the loop** goes from before the last digit of a number to before the last digit
    of the number before it. -/
theorem skipField {head : Text} (hhead : head ≠ []) (hlast : last.isDigit = true) (i : Int)
    (after : Text) :
    skipBack notDigit nul (head ++ last :: ' ' :: (renderInt i ++ after))
        (skipBack Char.isDigit nul (head ++ last :: ' ' :: (renderInt i ++ after))
          (head.length + (renderInt i).length))
      = head.length - 1 := by
  obtain ⟨sign, digits, final, hnumber, hsign, hdigits, -⟩ := renderInt_parts i
  rcases hsign with rfl | rfl
  · -- no sign: the digits end at the blank
    have hround := skipGap hhead hlast (forall_mem_nil _)
      (show Char.isDigit ' ' = false from rfl) hdigits (final :: after)
    have hlen : head.length + (renderInt i).length
        = head.length + ([] : Text).length + 1 + digits.length := by
      rw [hnumber, length_append, length_append, length_singleton, length_nil]
      omega
    rw [hlen, hnumber, nil_append, append_assoc]
    exact hround
  · -- a sign: the digits end there, and the blank is the gap
    have hround := skipGap hhead hlast (forall_mem_singleton.mpr (show notDigit ' ' = true from rfl))
      (show Char.isDigit '-' = false from rfl) hdigits (final :: after)
    have hlen : head.length + (renderInt i).length
        = head.length + [' '].length + 1 + digits.length := by
      simp [hnumber, length_append]
      omega
    rw [hlen, hnumber, append_assoc, append_assoc]
    exact hround

theorem renderFields_concat (fields : List Int) (i : Int) :
    renderFields (fields ++ [i]) = renderFields fields ++ ' ' :: renderInt i := by
  rw [renderFields_append, show renderFields [i] = ' ' :: renderInt i from append_nil _]

/-- A text that ends with numbers ends with a digit. -/
theorem renderFields_last (front : Text) {fields : List Int} (hfields : fields ≠ []) :
    ∃ head last, front ++ renderFields fields = head ++ [last] ∧ head ≠ []
      ∧ last.isDigit = true := by
  obtain ⟨sign, digits, last, hnumber, -, -, hlast⟩ := renderInt_parts (fields.getLast hfields)
  refine ⟨front ++ (renderFields fields.dropLast ++ ' ' :: (sign ++ digits)), last, ?_, ?_, hlast⟩
  · grind [dropLast_append_getLast, renderFields_concat, append_assoc]
  · simp

/-- **The walk goes back over the late fields**, from before the last digit of the last one to
    before the last digit of the one before them. -/
theorem skipFields_late (front : Text) {fields : List Int} (hfields : fields ≠ [])
    (late : List Int) (after : Text) :
    skipFields (front ++ renderFields (fields ++ late) ++ after) late.length
        ((front ++ renderFields (fields ++ late)).length - 2)
      = (front ++ renderFields fields).length - 2 := by
  -- from the end: the last field is the first one that the walk skips
  induction late using reverseRecOn generalizing after with
  | nil =>
    rw [append_nil]
    rfl
  | append_singleton late j ih =>
    obtain ⟨head, last, hends, hhead, hlast⟩ :=
      renderFields_last front (append_ne_nil_of_left_ne_nil hfields late)
    have hwhole : front ++ renderFields (fields ++ (late ++ [j]))
        = head ++ last :: ' ' :: renderInt j := by grind [append_assoc, renderFields_concat]
    have hlen : (head ++ last :: ' ' :: renderInt j).length - 2
        = head.length + (renderInt j).length := by
      rw [length_append, length_cons, length_cons]
      omega
    have hstart : (head ++ [last]).length - 2 = head.length - 1 := by simp
    have hrest := ih (' ' :: (renderInt j ++ after))
    rw [hends, hstart, append_assoc, singleton_append] at hrest
    rw [hwhole, hlen, append_assoc, length_append, length_singleton]
    show skipFields _ late.length (skipBack _ _ _ (skipBack _ _ _ _)) = _
    rw [cons_append, cons_append, skipField hhead hlast, hrest]

/-- The walk starts there too: what follows the last number has no digit. -/
theorem skipBack_newline (front : Text) {fields : List Int} (hfields : fields ≠ []) :
    skipBack notDigit nul (front ++ fieldsLine fields) ((front ++ fieldsLine fields).length - 1)
      = (front ++ renderFields fields).length - 2 := by
  obtain ⟨head, last, hends, hhead, hlast⟩ := renderFields_last front hfields
  have hstop : notDigit last = false := by rw [notDigit, hlast]; rfl
  have htext : front ++ fieldsLine fields = head ++ last :: (['\n'] ++ []) := by
    rw [fieldsLine, ← append_assoc, hends, append_assoc]
    rfl
  have hscan := @skipBack_run Char notDigit nul head hhead last hstop ['\n']
    (forall_mem_singleton.mpr rfl) []
  have hlen : (head ++ last :: (['\n'] ++ [])).length - 1 = head.length + ['\n'].length := by
    rw [length_append]
    rfl
  rw [htext, hlen, hscan, hends, length_append, length_singleton]
  omega

/-! ## Where the walk ends -/

theorem skipFields_add (buffer : Text) : ∀ (a b n : Nat),
    skipFields buffer (a + b) n = skipFields buffer b (skipFields buffer a n) := by
  intro a
  induction a with
  | zero => intro b n; rw [Nat.zero_add]; rfl
  | succ a ih =>
    intro b n
    rw [Nat.add_right_comm]
    exact ih b _

theorem skipFields_le (buffer : Text) : ∀ (offset n : Nat),
    skipFields buffer offset n ≤ n := by
  intro offset
  induction offset with
  | zero => intro n; exact Nat.le_refl n
  | succ offset ih =>
    intro n
    have hfirst := skipBack_le (p := Char.isDigit) (d := nul) buffer n
    have hsecond := skipBack_le (p := notDigit) (d := nul) buffer
      (skipBack Char.isDigit nul buffer n)
    have hrest := ih (skipBack notDigit nul buffer (skipBack Char.isDigit nul buffer n))
    rw [skipFields]
    omega

/-- What stands after the start of the walk makes no difference to where it ends. -/
theorem skipFields_congr {buffer' : Text} : ∀ {offset n : Nat},
    (∀ i ≤ n, buffer.getD i nul = buffer'.getD i nul) →
      skipFields buffer offset n = skipFields buffer' offset n := by
  intro offset
  induction offset with
  | zero => intro n _; rfl
  | succ offset ih =>
    intro n hsame
    have hfirst := skipBack_le (p := Char.isDigit) (d := nul) buffer' n
    have hsecond := skipBack_le (p := notDigit) (d := nul) buffer'
      (skipBack Char.isDigit nul buffer' n)
    rw [skipFields, skipFields, skipBack_congr hsame, skipBack_congr fun i hi => hsame i (by omega)]
    exact ih fun i hi => hsame i (by omega)

theorem isThreadAt_congr {buffer' : Text}
    (hsame : ∀ i ≤ n + 2, buffer.getD i nul = buffer'.getD i nul) :
    isThreadAt buffer n = isThreadAt buffer' n := by grind [isThreadAt]

theorem length_renderFields (fields : List Int) :
    2 * fields.length ≤ (renderFields fields).length := by
  induction fields using reverseRecOn with
  | nil => exact Nat.le_refl 0
  | append_singleton fields i ih =>
    have hpos : 0 < (renderInt i).length := length_pos_iff.mpr (renderInt_ne_nil i)
    rw [renderFields_concat, length_append, length_append, length_singleton, length_cons]
    omega

namespace KernelStat

/-- The text before field 38. -/
def before (l : KernelStat) : Text := l.front ++ renderFields l.early

theorem text_eq (l : KernelStat) :
    l.text = l.before ++ ' ' :: (renderInt l.exitSignal ++ fieldsLine l.late) := by
  rw [StatLine.text, StatLine.fields, before, append_assoc, ← fieldsLine_cons, fieldsLine,
    fieldsLine, renderFields_append, append_assoc]

theorem upTo_exitSignal (l : KernelStat) :
    l.front ++ renderFields (l.early ++ [l.exitSignal])
      = l.before ++ ' ' :: renderInt l.exitSignal := by
  rw [renderFields_concat, ← append_assoc]
  rfl

theorem early_ne_nil (l : KernelStat) : l.early ≠ [] := by
  intro h
  have hlength := l.early_length
  rw [h] at hlength
  cases hlength

theorem length_before (l : KernelStat) : 68 ≤ l.before.length := by
  have hfields := length_renderFields l.early
  rw [l.early_length] at hfields
  rw [before, length_append]
  omega

/-- With the late fields behind it the walk stands before the last digit of field 38. -/
theorem procIsthread_walk (l : KernelStat) (k : Nat) :
    procIsthread ((l.late.length + k : Nat) : Int) (.content l.text)
      = isThreadAt l.text
          (skipFields l.text k (l.before.length + (renderInt l.exitSignal).length - 1)) := by
  have hread : l.text.take bufsiz = l.text := take_of_length_le (Nat.le_of_lt l.fits)
  have hstart : skipBack notDigit nul l.text (l.text.length - 1)
      = (l.front ++ renderFields (l.early ++ l.exitSignal :: l.late)).length - 2 :=
    skipBack_newline l.front (append_ne_nil_of_left_ne_nil l.early_ne_nil
      (l.exitSignal :: l.late))
  have hend : (l.front ++ renderFields (l.early ++ [l.exitSignal])).length - 2
      = l.before.length + (renderInt l.exitSignal).length - 1 := by
    rw [l.upTo_exitSignal, length_append, length_cons]
    rfl
  have hlate : skipFields l.text l.late.length
      ((l.front ++ renderFields (l.early ++ l.exitSignal :: l.late)).length - 2)
      = l.before.length + (renderInt l.exitSignal).length - 1 := by
    have hwalk := skipFields_late l.front
      (append_ne_nil_of_left_ne_nil l.early_ne_nil [l.exitSignal]) l.late ['\n']
    rw [append_assoc l.early, append_assoc l.front, hend] at hwalk
    exact hwalk
  show isThreadAt (l.text.take bufsiz) (skipFields (l.text.take bufsiz) (l.late.length + k)
    (skipBack notDigit nul (l.text.take bufsiz) ((l.text.take bufsiz).length - 1))) = _
  rw [hread, skipFields_add, hstart, hlate]

end KernelStat

/-! ## The answer -/

/-- The three characters that mean a process. -/
def Shows17 (text : Text) (n : Nat) : Prop :=
  text.getD n nul = '1' ∧ text.getD (n + 1) nul = '7' ∧ text.getD (n + 2) nul = ' '

instance (text : Text) (n : Nat) : Decidable (Shows17 text n) :=
  inferInstanceAs (Decidable (_ ∧ _ ∧ _))

theorem isThreadAt_eq_false_iff (hn : 3 ≤ n) : isThreadAt buffer n = false ↔ Shows17 buffer n := by
  rw [isThreadAt, if_neg (by omega), Shows17, Bool.not_eq_false', Bool.and_eq_true,
    Bool.and_eq_true, decide_eq_true_eq, decide_eq_true_eq, decide_eq_true_eq, and_assoc]

/-- Field 38 with the blanks around it. -/
def signalColumn (e : Int) : Text := ' ' :: (renderInt e ++ [' '])

/-- Of the signals up to 64, and -1, only 17 has the characters `17` at its end. -/
theorem shows17_signalColumn {e : Int} (hlow : -1 ≤ e) (hhigh : e ≤ 64) :
    Shows17 (signalColumn e) ((renderInt e).length - 1) ↔ e = 17 := by
  have htable : ∀ k : Nat, k < 66 →
      (Shows17 (signalColumn ((k : Int) - 1)) ((renderInt ((k : Int) - 1)).length - 1)
        ↔ (k : Int) - 1 = 17) := by
    decide
  have hk := htable (e + 1).toNat (by omega)
  rwa [show (((e + 1).toNat : Int) - 1) = e by omega] at hk

theorem shows17_inside {before column after : Text} (hn : n + 2 < column.length) :
    Shows17 (before ++ (column ++ after)) (before.length + n) ↔ Shows17 column n := by
  grind [getD_append_right, Nat.add_sub_cancel_left, getD_append, Shows17, Nat.add_assoc]

/-- **With the right count the answer is that of field 38.** -/
theorem procIsthread_text (l : KernelStat) :
    procIsthread (l.late.length : Int) (.content l.text) = false ↔ l.exitSignal = 17 := by
  have hbefore := l.length_before
  have hpos : 0 < (renderInt l.exitSignal).length :=
    length_pos_iff.mpr (renderInt_ne_nil l.exitSignal)
  -- the line goes on after field 38, so that a blank follows it
  obtain ⟨j, late, hlate⟩ := exists_cons_of_ne_nil l.late_ne_nil
  have htext : l.text
      = l.before ++ (signalColumn l.exitSignal ++ (renderInt j ++ fieldsLine late)) := by
    rw [l.text_eq, hlate, fieldsLine_cons, signalColumn, cons_append, append_assoc]
    rfl
  have hlength : (signalColumn l.exitSignal).length = (renderInt l.exitSignal).length + 2 := by
    rw [signalColumn, length_cons, length_append]
    rfl
  have hwalk := l.procIsthread_walk 0
  rw [Nat.add_zero] at hwalk
  rw [hwalk, skipFields, isThreadAt_eq_false_iff (by omega), htext,
    show l.before.length + (renderInt l.exitSignal).length - 1
      = l.before.length + ((renderInt l.exitSignal).length - 1) by omega,
    shows17_inside (by omega), shows17_signalColumn l.exit_low l.exit_high]

/-- **With too high a count the answer is blind to field 38.** -/
theorem procIsthread_blind (l : KernelStat) (k : Nat) :
    procIsthread ((l.late.length + (k + 1) : Nat) : Int) (.content l.text)
      = isThreadAt (l.before ++ [' '])
          (skipFields (l.before ++ [' ']) k (l.before.length - 2)) := by
  have hbefore := l.length_before
  have hsame : ∀ i ≤ l.before.length, l.text.getD i nul = (l.before ++ [' ']).getD i nul := by
    grind [l.text_eq, append_assoc, length_append, length_singleton, getD_append]
  -- the first round too many goes from field 38 to field 37
  have hround : skipFields l.text 1 (l.before.length + (renderInt l.exitSignal).length - 1)
      = l.before.length - 2 := by
    have hwalk := skipFields_late l.front l.early_ne_nil [l.exitSignal] (fieldsLine l.late)
    rw [l.upTo_exitSignal, append_assoc, cons_append, ← l.text_eq, length_append,
      length_cons] at hwalk
    exact hwalk
  rw [l.procIsthread_walk, Nat.add_comm k 1, skipFields_add, hround]
  have hle := skipFields_le (l.before ++ [' ']) k (l.before.length - 2)
  rw [skipFields_congr (fun i hi => hsame i (by omega))]
  exact isThreadAt_congr fun i hi => hsame i (by omega)

/-! ## The list -/

/-- What /proc shows: processes (and threads), and other files. -/
inductive DirItem where
  | process (name : Text) (stat : KernelStat)
  | other (name : Text) (file : FileRead)

namespace DirItem

def entry : DirItem → ProcEntry
  | .process name stat => ⟨name, .content stat.text⟩
  | .other name file => ⟨name, file⟩

/-- The names that start with a digit are those of processes. -/
def Named : DirItem → Prop
  | .process name _ => (deref name).isDigit = true
  | .other name _ => (deref name).isDigit = false

/-- **Whom the list is to show**: the entries whose own exit signal is 17. -/
def listed : DirItem → Option SigarPid
  | .process name stat => if stat.exitSignal = 17 then some (pidOf name) else none
  | .other _ _ => none

end DirItem

/-- /proc as the process `own` sees it: every `stat` has the same number of fields, and its own is
    among them. -/
structure ProcDir (own : KernelStat) where
  items : List DirItem
  named : ∀ item ∈ items, item.Named
  same_fields : ∀ name stat, .process name stat ∈ items → stat.late.length = own.late.length
  caller : ∃ name, .process name own ∈ items

/-- A handle with the filter on: the offset is not computed yet, or was by an earlier call. -/
structure ThreadHandle.Ready (handle : ThreadHandle) (own : KernelStat) : Prop where
  filter_on : handle.hasNptl = false
  offset_own : handle.procSignalOffset = -1
    ∨ handle.procSignalOffset = getProcSignalOffset (.content own.text)

/-- The list is right, whatever the other processes are. -/
def ThreadsRight (own : KernelStat) : Prop :=
  ∀ (dir : ProcDir own) (handle : ThreadHandle), handle.Ready own →
    (sigarOsProcListGet handle (.ok (dir.items.map DirItem.entry)) (.content own.text) []).2
      = (sigarOk, dir.items.filterMap DirItem.listed)

/-- What the loop lists for an entry. -/
def kept (offset : Int) (ent : ProcEntry) : Option SigarPid :=
  if (deref ent.name).isDigit = true ∧ procIsthread offset ent.stat = false then
    some (pidOf ent.name)
  else none

theorem procListLoop_eq (offset : Int) : ∀ (entries : List ProcEntry) (proclist : List SigarPid),
    procListLoop true offset entries proclist = proclist ++ entries.filterMap (kept offset) := by
  intro entries
  induction entries with
  | nil => intro proclist; rw [filterMap_nil, append_nil]; rfl
  | cons ent entries ih =>
    intro proclist
    rw [procListLoop, filterMap_cons, kept, Bool.true_and]
    by_cases hdigit : (deref ent.name).isDigit = true
    · grind
    · simp [hdigit, ih]

theorem sigarOsProcListGet_ready {handle : ThreadHandle} (hready : handle.Ready own)
    (entries : List ProcEntry) :
    (sigarOsProcListGet handle (.ok entries) (.content own.text) []).2
      = (sigarOk, entries.filterMap (kept (own.late.length + own.comm.count ' '))) := by
  have hoffset : (if (!handle.hasNptl) = true ∧ handle.procSignalOffset = -1 then
      { handle with procSignalOffset := getProcSignalOffset (.content own.text) }
      else handle).procSignalOffset = own.late.length + own.comm.count ' ' := by
    rw [← getProcSignalOffset_text]
    split
    · rfl
    · next hset =>
      rcases hready.offset_own with hunset | hown
      · exact absurd ⟨by rw [hready.filter_on]; rfl, hunset⟩ hset
      · exact hown
  show (sigarOk, procListLoop (!handle.hasNptl) _ entries []) = _
  rw [hoffset, hready.filter_on]
  show (sigarOk, procListLoop true _ entries []) = _
  rw [procListLoop_eq, nil_append]

/-- With no blank counted, every entry is listed as it should be. -/
theorem kept_entry (dir : ProcDir own) {item : DirItem} (hitem : item ∈ dir.items) :
    kept own.late.length item.entry = item.listed := by
  have hnamed := dir.named item hitem
  cases item with
  | process name stat =>
    have hstat := procIsthread_text stat
    rw [dir.same_fields name stat hitem] at hstat
    rw [kept, DirItem.listed]
    by_cases hsignal : stat.exitSignal = 17
    · rw [if_pos hsignal]
      exact if_pos ⟨hnamed, hstat.mpr hsignal⟩
    · rw [if_neg hsignal]
      exact if_neg fun h => hsignal (hstat.mp h.2)
  | other name file =>
    have hdigit : (deref name).isDigit = false := hnamed
    rw [kept, DirItem.listed]
    exact if_neg fun h => Bool.false_ne_true (hdigit.symm.trans h.1)

/-! ## A name with a blank -/

theorem length_renderFields_zeros (k : Nat) :
    (renderFields (replicate k 0)).length = 2 * k := by
  induction k with
  | zero => rfl
  | succ k ih =>
    rw [replicate_succ', renderFields_concat, length_append, ih]
    show 2 * k + 2 = 2 * (k + 1)
    omega

/-- A process with as many fields as `own`, all zero but the exit signal. -/
def plainLine (own : KernelStat) (signal : Int) : StatLine where
  pid := 1
  comm := []
  state := 'S'
  early := replicate 34 0
  exitSignal := signal
  late := replicate own.late.length 0

theorem length_fieldsLine (early : List Int) (e : Int) (late : List Int) :
    (fieldsLine (early ++ e :: late)).length
      = (renderFields early).length + (renderInt e).length + (renderFields late).length + 2 := by
  rw [fieldsLine, renderFields_append, show e :: late = [e] ++ late from rfl, renderFields_append,
    show renderFields [e] = ' ' :: renderInt e from append_nil _]
  simp only [length_append, length_cons, length_nil]
  omega

theorem length_plainLine (own : KernelStat) (signal : Int) :
    (plainLine own signal).text.length = (renderInt signal).length + 2 * own.late.length + 76 := by
  have hfront : (plainLine own signal).front.length = 6 := by
    show (renderInt 1 ++ (' ' :: '(' :: ([] ++ [')', ' ', 'S']))).length = 6
    decide
  rw [StatLine.text, StatLine.fields, length_append, length_fieldsLine, hfront]
  show 6 + ((renderFields (replicate 34 0)).length + (renderInt signal).length
    + (renderFields (replicate own.late.length 0)).length + 2) = _
  rw [length_renderFields_zeros, length_renderFields_zeros]
  omega

/-- The caller's line is longer by the blank in its name. -/
theorem length_own (own : KernelStat) (hblank : ' ' ∈ own.comm) :
    2 * own.late.length + 78 ≤ own.text.length := by
  have hcomm : 0 < own.comm.length := length_pos_of_mem hblank
  have hpid : 0 < (renderInt own.pid).length := length_pos_iff.mpr (renderInt_ne_nil own.pid)
  have hsignal : 0 < (renderInt own.exitSignal).length :=
    length_pos_iff.mpr (renderInt_ne_nil own.exitSignal)
  have hearly := length_renderFields own.early
  have hlate := length_renderFields own.late
  rw [own.early_length] at hearly
  rw [StatLine.text, StatLine.fields, length_append, length_fieldsLine, StatLine.front]
  simp only [length_append, length_cons, length_nil]
  omega

/-- The plain process, as the kernel writes it. -/
def plainStat (own : KernelStat) (hblank : ' ' ∈ own.comm) (signal : Int)
    (hsignal : signal = 0 ∨ signal = 17) : KernelStat where
  toStatLine := plainLine own signal
  early_length := length_replicate
  late_ne_nil := by
    have hlate := length_pos_iff.mpr own.late_ne_nil
    intro h
    have hzero : (replicate own.late.length (0 : Int)).length = 0 := congrArg List.length h
    rw [length_replicate] at hzero
    omega
  comm_string := not_mem_nil
  state_letter := rfl
  exit_low := by
    show -1 ≤ signal
    omega
  exit_high := by
    show signal ≤ 64
    omega
  fits := by
    have hown := length_own own hblank
    have hfits := own.fits
    have hlen : (renderInt signal).length ≤ 2 := by
      rcases hsignal with rfl | rfl <;> decide
    rw [length_plainLine]
    omega

/-- The caller and a plain process. -/
def plainDir (own : KernelStat) (hblank : ' ' ∈ own.comm) (signal : Int)
    (hsignal : signal = 0 ∨ signal = 17) : ProcDir own where
  items := [.process ['1'] own, .process ['2'] (plainStat own hblank signal hsignal)]
  named := by
    intro item hitem
    rcases mem_cons.mp hitem with rfl | hitem
    · rfl
    · rw [mem_singleton.mp hitem]
      rfl
  same_fields := by
    intro name stat hitem
    rcases mem_cons.mp hitem with heq | hitem
    · rw [(DirItem.process.inj heq).2]
    · rw [(DirItem.process.inj (mem_singleton.mp hitem)).2]
      exact length_replicate
  caller := ⟨['1'], mem_cons_self⟩

/-- A plain process is listed or not, whatever its signal. -/
theorem kept_plain (own : KernelStat) (hblank : ' ' ∈ own.comm) :
    kept (own.late.length + own.comm.count ' ')
        ⟨['2'], .content (plainStat own hblank 0 (.inl rfl)).text⟩
      = kept (own.late.length + own.comm.count ' ')
        ⟨['2'], .content (plainStat own hblank 17 (.inr rfl)).text⟩ := by
  obtain ⟨k, hk⟩ : ∃ k, own.comm.count ' ' = k + 1 :=
    ⟨own.comm.count ' ' - 1, by
      have hpos := count_pos_iff.mpr hblank
      omega⟩
  have hlate : ∀ signal hsignal,
      (plainStat own hblank signal hsignal).late.length = own.late.length :=
    fun _ _ => length_replicate
  have hblind0 := procIsthread_blind (plainStat own hblank 0 (.inl rfl)) k
  have hblind17 := procIsthread_blind (plainStat own hblank 17 (.inr rfl)) k
  rw [hlate] at hblind0 hblind17
  rw [hk, ← Int.natCast_add]
  simp only [kept, hblind0, hblind17]
  rfl

theorem filterMap_pair {α β : Type} (f : α → Option β) (a b : α) :
    [a, b].filterMap f = (f a).toList ++ (f b).toList := by grind

/-- **The list is right exactly when the caller's own name has no blank.** -/
theorem threadFilter_iff (own : KernelStat) : ThreadsRight own ↔ ' ' ∉ own.comm := by
  constructor
  · intro hright hblank
    have hready : ThreadHandle.Ready ⟨false, -1⟩ own := ⟨rfl, .inl rfl⟩
    have hzero := hright (plainDir own hblank 0 (.inl rfl)) ⟨false, -1⟩ hready
    have hseventeen := hright (plainDir own hblank 17 (.inr rfl)) ⟨false, -1⟩ hready
    rw [sigarOsProcListGet_ready hready] at hzero hseventeen
    -- the two lists are one list, and the expected ones differ
    have hfirst := (Prod.mk.inj hzero).2
    have hsecond := (Prod.mk.inj hseventeen).2
    simp only [plainDir, map_cons, map_nil, filterMap_pair, DirItem.entry] at hfirst
    simp only [plainDir, map_cons, map_nil, filterMap_pair, DirItem.entry] at hsecond
    rw [kept_plain own hblank, hsecond] at hfirst
    have hsame : [pidOf ['2']] = [] := append_cancel_left hfirst
    cases hsame
  · intro hblank dir handle hready
    have hcount : own.comm.count ' ' = 0 := count_eq_zero.mpr hblank
    rw [sigarOsProcListGet_ready hready, hcount, Int.natCast_zero, Int.add_zero, filterMap_map]
    congr 1
    exact filterMap_congr fun item hitem => kept_entry dir hitem

/-- A caller named `tmux: server`, in a file of 39 fields. -/
def tmuxStat : KernelStat where
  pid := 42
  comm := "tmux: server".toList
  state := 'R'
  early := replicate 34 0
  exitSignal := 17
  late := [0]
  early_length := rfl
  late_ne_nil := by decide
  comm_string := by decide
  state_letter := by decide
  exit_low := by decide
  exit_high := by decide
  fits := by decide +kernel

/-- The caller is all there is. -/
def tmuxDir : ProcDir tmuxStat where
  items := [.process "42".toList tmuxStat, .other "uptime".toList .noFile]
  named := by
    intro item hitem
    rcases mem_cons.mp hitem with rfl | hitem
    · rfl
    · rw [mem_singleton.mp hitem]
      rfl
  same_fields := by
    intro name stat hitem
    rcases mem_cons.mp hitem with heq | hitem
    · rw [(DirItem.process.inj heq).2]
    · cases mem_singleton.mp hitem
  caller := ⟨"42".toList, mem_cons_self⟩

/-- Its exit signal is 17, and the list is empty. -/
theorem blankName_hides :
    (sigarOsProcListGet ⟨false, -1⟩ (.ok (tmuxDir.items.map DirItem.entry))
        (.content tmuxStat.text) []).2 = (sigarOk, [])
      ∧ tmuxDir.items.filterMap DirItem.listed = [42] := by
  decide +kernel

end Sigar.Proc
