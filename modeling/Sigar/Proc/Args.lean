/-
  The arguments of a process.

  Source: `sigar_procfs_args_get` of `sigar_util.c`, and `sigar_proc_args_create` and
  `sigar_proc_args_grow` of `sigar.c`.

  1. **Program** — a first loop collects what the reads of /proc/<pid>/cmdline return, a second one
     cuts the bytes at their NULs and counts down how many are left.  The last NUL may be missing;
     the count then ends at -1.
  2. **Correctness** — the first loop is concatenation (`readLoop_eq`), the second is
     `NulStrings.strings` (`descends_split`), and so every way of reading gives back the arguments
     that the file was written from: `procfsArgs_iff`, as long as the number of bytes and one more
     is an `int`.
-/
import Sigar.Util
import Sigar.Lib.Loop
import Sigar.Lib.NulStrings

namespace Sigar.Proc.Args

open CString NulStrings Loop List

/-- A string: its characters, without the NUL that ends it. -/
abbrev CStr := Text

/-! ## The program -/

/-- `sigar_proc_args_t`; `number` is the length of `data`. -/
structure ProcArgs where
  size : Nat
  data : List CStr
  deriving DecidableEq

/-- `SIGAR_PROC_ARGS_MAX`. -/
def sigarProcArgsMax : Nat := 12

def sigarProcArgsCreate : ProcArgs := ⟨sigarProcArgsMax, []⟩

/-- `SIGAR_PROC_ARGS_GROW`. -/
def sigarProcArgsGrow (procargs : ProcArgs) : ProcArgs :=
  if procargs.size ≤ procargs.data.length then
    { procargs with size := procargs.size + sigarProcArgsMax }
  else procargs

/-- Where `sigar_procfs_args_get` has no meaning. -/
inductive ArgsFault where
  | total  -- `total+len+1` is no `int`
  | index  -- `data[number]` is outside of the array
  | noEnd  -- the loop does not end
  deriving DecidableEq

/-- `sizeof(buffer)-1`, the most that one `read` returns. -/
def readMax : Nat := 9086 - 1

/-- The loop over the reads; `buf` has `total` bytes. -/
def readLoop : List Text → Text → Except ArgsFault Text
  | [], buf => .ok buf
  | buffer :: reads, buf =>
    if buffer = [] then .ok buf
    else if intMax < buf.length + buffer.length + 1 then .error .total
    else readLoop reads (buf ++ buffer)

/-- The state of the second loop; `ptr` is what is left of `buf`. -/
structure Split where
  ptr : Text
  total : Int
  procargs : ProcArgs

/-- `procargs->data[procargs->number++] = arg`, in an array that has been grown if it was full. -/
def appendArg (procargs : ProcArgs) (arg : CStr) : Except ArgsFault ProcArgs :=
  let procargs := sigarProcArgsGrow procargs
  if procargs.data.length < procargs.size then
    .ok { procargs with data := procargs.data ++ [arg] }
  else .error .index

/-- One round of the second loop. -/
def splitRound (s : Split) : Except ArgsFault Split := do
  let alen := strlen s.ptr + 1
  let procargs ← appendArg s.procargs (s.ptr.take (alen - 1))
  let total := s.total - alen
  pure ⟨if total > 0 then s.ptr.drop alen else s.ptr, total, procargs⟩

def splitLive (s : Split) : Bool := s.total > 0

/-- `sigar_procfs_args_get`, for the `errno` of `open` or what the calls of `read` return: the
    status, and the arguments. -/
def sigarProcfsArgsGet (file : Except Status (List Text)) (procargs : ProcArgs) :
    Except ArgsFault (Status × ProcArgs) :=
  match file with
  | .error errno => .ok (if errno = enoent then esrch else errno, procargs)
  | .ok reads => do
    let buf ← readLoop reads []
    if buf = [] then pure (sigarOk, { procargs with data := [] })
    else
      let s ← iterate splitLive splitRound .noEnd (buf.length + 1) ⟨buf, buf.length, procargs⟩
      pure (sigarOk, s.procargs)

/-! ## The reads -/

/-- **The reads are put together**, if their number of bytes and one more is an `int`. -/
theorem readLoop_eq : ∀ {reads : List Text} {buf : Text}, (∀ c ∈ reads, c ≠ []) →
    (buf ++ reads.flatten).length < intMax → readLoop reads buf = .ok (buf ++ reads.flatten) := by
  intro reads
  induction reads with
  | nil =>
    intro buf _ _
    rw [readLoop, flatten_nil, append_nil]
  | cons buffer reads ih =>
    intro buf hreads hlen
    rw [flatten_cons, ← append_assoc] at hlen ⊢
    have hfirst : ¬ intMax < buf.length + buffer.length + 1 := by grind
    rw [readLoop, if_neg (hreads buffer mem_cons_self), if_neg hfirst]
    exact ih (fun c hc => hreads c (mem_cons_of_mem buffer hc)) hlen

/-- Otherwise the sum overflows. -/
theorem readLoop_overflow : ∀ {reads : List Text} {buf : Text}, (∀ c ∈ reads, c ≠ []) →
    buf.length < intMax → intMax ≤ (buf ++ reads.flatten).length →
      readLoop reads buf = .error .total := by
  intro reads
  induction reads with
  | nil =>
    intro buf _ hbuf hlen
    rw [flatten_nil, append_nil] at hlen
    omega
  | cons buffer reads ih => grind [flatten_cons, append_assoc, readLoop, length_append]

/-! ## The strings -/

/-- An array that is not smaller than what it holds stays so, and no store is outside of it. -/
theorem appendArg_ok {procargs : ProcArgs} (hsize : procargs.data.length ≤ procargs.size)
    (arg : CStr) :
    ∃ next, appendArg procargs arg = .ok next ∧ next.data = procargs.data ++ [arg] ∧
      next.data.length ≤ next.size := by
  have hroom : (sigarProcArgsGrow procargs).data.length < (sigarProcArgsGrow procargs).size := by
    unfold sigarProcArgsGrow
    split
    · show procargs.data.length < procargs.size + sigarProcArgsMax
      unfold sigarProcArgsMax
      omega
    · omega
  have hdata : (sigarProcArgsGrow procargs).data = procargs.data := by
    unfold sigarProcArgsGrow
    split <;> rfl
  refine ⟨_, if_pos hroom, ?_, ?_⟩
  · show (sigarProcArgsGrow procargs).data ++ [arg] = _
    rw [hdata]
  · show ((sigarProcArgsGrow procargs).data ++ [arg]).length ≤ (sigarProcArgsGrow procargs).size
    rw [length_append]
    exact hroom

/-- One round takes the first string. -/
theorem splitRound_string {s after : Text} (h : Leads s after) {procargs next : ProcArgs}
    (happend : appendArg procargs s = .ok next) :
    splitRound ⟨s ++ after, (s ++ after).length, procargs⟩
      = .ok ⟨if 1 < after.length then after.tail else s ++ after, (after.length : Int) - 1,
          next⟩ := by
  have htotal : ((s ++ after).length : Int) - ((s.length + 1 : Nat) : Int) = after.length - 1 := by
    rw [length_append]
    omega
  have hptr : (if (after.length : Int) - 1 > 0 then (s ++ after).drop (s.length + 1) else s ++ after)
      = if 1 < after.length then after.tail else s ++ after := by
    rw [drop_past]
    congr 1
    rw [eq_iff_iff]
    omega
  rw [splitRound, strlen_append h.no_nul h.ends, Nat.add_sub_cancel, take_left' rfl, happend]
  show Except.ok (Split.mk (if ((s ++ after).length : Int) - ((s.length + 1 : Nat) : Int) > 0
    then _ else _) (((s ++ after).length : Int) - ((s.length + 1 : Nat) : Int)) next) = _
  rw [htotal, hptr]

/-- **The second loop cuts the bytes into their strings.** -/
theorem descends_split : ∀ (bytes : Text) (procargs : ProcArgs),
    procargs.data.length ≤ procargs.size →
      ∃ out, Descends splitLive splitRound (fun s => s.total.toNat)
          ⟨bytes, bytes.length, procargs⟩ out ∧
        out.procargs.data = procargs.data ++ strings bytes ∧
        out.procargs.data.length ≤ out.procargs.size := by
  intro bytes
  induction bytes using strings_induction with
  | nil =>
    intro procargs hsize
    exact ⟨_, .done rfl, (append_nil _).symm, hsize⟩
  | step s after h ih =>
    intro procargs hsize
    obtain ⟨next, happend, hdata, hnext⟩ := appendArg_ok hsize s
    have hround := splitRound_string h happend
    have hpos : 0 < (s ++ after).length := length_pos_iff.mpr h.ne_nil
    have hlive : splitLive ⟨s ++ after, (s ++ after).length, procargs⟩ = true :=
      decide_eq_true (Int.natCast_pos.mpr hpos)
    have hless : ((after.length : Int) - 1).toNat < ((s ++ after).length : Int).toNat := by
      rw [length_append] at hpos ⊢
      omega
    rw [strings_append h]
    by_cases hmore : 1 < after.length
    · -- the pointer goes on behind the NUL
      obtain ⟨out, hrest, hout, houtSize⟩ := ih next hnext
      have hlen : (after.length : Int) - 1 = after.tail.length := by
        rw [length_tail]
        omega
      rw [if_pos hmore, hlen] at hround
      refine ⟨out, .step hlive hround (by rw [hlen] at hless; exact hless) hrest, ?_, houtSize⟩
      rw [hout, hdata, append_assoc]
      rfl
    · -- that was the last one
      rw [if_neg hmore] at hround
      have hlast : after.tail = [] := by
        rw [← length_eq_zero_iff, length_tail]
        omega
      have hend : splitLive ⟨s ++ after, (after.length : Int) - 1, next⟩ = false :=
        decide_eq_false (show ¬ (after.length : Int) - 1 > 0 by omega)
      refine ⟨_, .step hlive hround hless (.done hend), ?_, hnext⟩
      rw [hlast, strings, ← hdata]

/-- **What is returned** for bytes that were read in any way. -/
theorem sigarProcfsArgsGet_reads {reads : List Text} (hreads : ∀ c ∈ reads, c ≠ [])
    (hlen : reads.flatten.length < intMax) :
    ∃ procargs, sigarProcfsArgsGet (.ok reads) sigarProcArgsCreate = .ok (sigarOk, procargs) ∧
      procargs.data = strings reads.flatten ∧ procargs.data.length ≤ procargs.size := by
  have hread : readLoop reads [] = .ok reads.flatten := readLoop_eq hreads hlen
  by_cases hempty : reads.flatten = []
  · refine ⟨{ sigarProcArgsCreate with data := [] }, ?_, by rw [hempty]; rfl, Nat.zero_le _⟩
    rw [sigarProcfsArgsGet, hread]
    exact if_pos hempty
  · obtain ⟨out, hrun, hout, hsize⟩ :=
      descends_split reads.flatten sigarProcArgsCreate (Nat.zero_le _)
    refine ⟨out.procargs, ?_, hout, hsize⟩
    have hloop := @Descends.iterate_eq _ _ _ _ _ ArgsFault.noEnd _ _ hrun (reads.flatten.length + 1)
      (Nat.lt_succ_self _)
    rw [sigarProcfsArgsGet, hread]
    show (if reads.flatten = [] then _ else _) = _
    rw [if_neg hempty, hloop]
    rfl

/-! ## The round trip -/

/-- /proc/<pid>/cmdline; `ended` says whether the last argument has its NUL. -/
def cmdlineText (args : List CStr) (ended : Bool) : Text :=
  if ended then terminated args else (terminated args).dropLast

theorem strings_cmdlineText {args : List CStr} (hargs : ∀ a ∈ args, nul ∉ a) {ended : Bool}
    (hended : ended = false → ∃ before last, args = before ++ [last] ∧ last ≠ []) :
    strings (cmdlineText args ended) = args := by
  cases ended with
  | true =>
    have h := strings_terminated hargs []
    rwa [append_nil, strings, append_nil] at h
  | false =>
    obtain ⟨before, last, rfl, hlast⟩ := hended rfl
    have hbefore : ∀ a ∈ before, nul ∉ a := fun a ha => hargs a (mem_append_left _ ha)
    have hnul : nul ∉ last := hargs last (mem_append_right _ mem_cons_self)
    have htext : cmdlineText (before ++ [last]) false = terminated before ++ (last ++ []) := by
      show (terminated (before ++ [last])).dropLast = _
      rw [terminated, flatMap_append, flatMap_singleton, ← append_assoc, dropLast_concat,
        append_nil]
      rfl
    rw [htext, strings_terminated hbefore, strings_append ⟨hnul, rfl, by rwa [append_nil]⟩]
    rfl

/-- The arguments are returned, in an array that has place for them. -/
def ArgsReturned (reads : List Text) (args : List CStr) : Prop :=
  ∃ procargs, sigarProcfsArgsGet (.ok reads) sigarProcArgsCreate = .ok (sigarOk, procargs) ∧
    procargs.data = args ∧ procargs.data.length ≤ procargs.size

/-- **The arguments that are returned are those of the file**, however it was read, exactly when the
    bytes of the file and one more can be counted by an `int`. -/
theorem procfsArgs_iff {args : List CStr} (hargs : ∀ a ∈ args, nul ∉ a) {ended : Bool}
    (hended : ended = false → ∃ before last, args = before ++ [last] ∧ last ≠ [])
    {reads : List Text} (hreads : ∀ c ∈ reads, c ≠ [] ∧ c.length ≤ readMax)
    (hfile : reads.flatten = cmdlineText args ended) :
    ArgsReturned reads args ↔ (cmdlineText args ended).length < intMax := by
  have hne : ∀ c ∈ reads, c ≠ [] := fun c hc => (hreads c hc).1
  constructor
  · rintro ⟨procargs, hget, -⟩
    by_contra hlong
    have hover : readLoop reads [] = .error .total :=
      readLoop_overflow hne (by decide) (by rw [nil_append, hfile]; exact Nat.not_lt.mp hlong)
    rw [sigarProcfsArgsGet, hover] at hget
    cases hget
  · intro hlen
    obtain ⟨procargs, hget, hdata, hsize⟩ := sigarProcfsArgsGet_reads hne (by rw [hfile]; exact hlen)
    refine ⟨procargs, hget, ?_, hsize⟩
    rw [hdata, hfile, strings_cmdlineText hargs hended]

/-- An argument list with an empty argument and no last NUL, read three bytes at a time. -/
theorem procfsArgs_iff_example :
    ArgsReturned [['l', 's', nul], [nul, '-', 'l']] [['l', 's'], [], ['-', 'l']] :=
  (@procfsArgs_iff _ (by decide +kernel) false
    (fun _ => ⟨[['l', 's'], []], ['-', 'l'], rfl, cons_ne_nil _ _⟩) _
    (by decide +kernel) rfl).mpr (by decide +kernel)

/-- **An argument of 2^31 bytes**, read byte by byte: `total+len+1` overflows. -/
theorem hugeArg_overflows :
    (replicate 2147483648 ['a']).flatten
        = cmdlineText [replicate 2147483648 'a'] false ∧
      sigarProcfsArgsGet (.ok (replicate 2147483648 ['a'])) sigarProcArgsCreate
        = .error .total := by
  have hne : ∀ c ∈ replicate 2147483648 ['a'], c ≠ [] := by
    intro c hc
    rw [eq_of_mem_replicate hc]
    exact cons_ne_nil _ _
  constructor
  · rw [flatten_replicate_singleton, cmdlineText, if_neg Bool.false_ne_true, terminated,
      flatMap_singleton, dropLast_concat]
  · have hover : readLoop (replicate 2147483648 ['a']) [] = .error .total := by
      refine readLoop_overflow hne (by decide) ?_
      rw [flatten_replicate_singleton, nil_append, length_replicate]
      decide
    rw [sigarProcfsArgsGet, hover]
    rfl

end Sigar.Proc.Args
