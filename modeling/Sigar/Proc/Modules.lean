/-
  The modules that a process has mapped.

  Source: `sigar_proc_modules_get` of `os/linux/linux_sigar.c`, and `proc_modules_match` of
  `sigar_ptql.c`, the getter that counts them for `Modules.<n>`.

  /proc/<pid>/maps has a line for each segment of a library, and the loop drops the lines that
  repeat the inode of the line before.  It remembers ONE inode, `last_inode`, and a dropped line
  clears it:

  1. **Program** — the loop is a list of calls, `reports`, handed to the getter until it stops
     (`modulesLoop_eq`).
  2. **A run** — a run of lines with one inode is reported once exactly if it has at most two lines,
     the first one fits into the buffer, and what is left of too long lines shows no inode
     (`reports_run_iff`).  The THIRD line of a run is reported again.
  3. **The file** — from run to run, `modulesGet_once_iff`.
-/
import Sigar.Lib.KeyRuns
import Sigar.Lib.Numerals
import Sigar.Lib.Visit
import Sigar.Ptql.Match

namespace Sigar.Proc.Modules

open CString Numerals Visit KeyRuns List

variable {lastInode : UInt64} {inode : UInt64}

/-! ## The program -/

/-- The `name` and the `len` that `module_getter` is called with. -/
abbrev Call := Text × Int

/-- `module_getter`: what it makes of its `data`, and its status. -/
abbrev ModuleGetter (δ : Type) := δ → Call → δ × Status

/-- What a line shows: its inode, and the call for it.  With nothing behind the inode `len` is 0,
    and the NUL goes over the blank before `ptr`. -/
def readMap (buffer : Text) : UInt64 × Call :=
  let inode := strtoull (sigarSkipMultipleToken buffer 4)  -- region, flags, offset, dev
  let ptr := inode.rest.dropWhile isSpace
  let len := strlen ptr
  (inode.value, ptr.take (len - 1), (len : Int) - 1)  -- chop \n

/-- The loop over what `fgets` returns. -/
def modulesLoop {δ : Type} (moduleGetter : ModuleGetter δ) : List Text → UInt64 → δ → δ
  | [], _, data => data
  | buffer :: rest, lastInode, data =>
    let (inode, call) := readMap buffer
    if inode = 0 ∨ inode = lastInode then modulesLoop moduleGetter rest 0 data
    else
      let (data, status) := moduleGetter data call
      if status ≠ sigarOk then data  -- not an error; just stop iterating
      else modulesLoop moduleGetter rest inode data

/-- `sigar_proc_modules_get`, for the `errno` of `fopen` or the text of the file. -/
def sigarProcModulesGet {δ : Type} (moduleGetter : ModuleGetter δ)
    (file : Except Status Text) (data : δ) : Status × δ :=
  match file with
  | .error errno => (errno, data)
  | .ok text => (sigarOk, modulesLoop moduleGetter (fgetsLines bufsiz text []) 0 data)

/-- `proc_modules_match_t`, next to the handle and the branch. -/
structure ProcModulesMatch where
  ix : UInt32
  matched : Bool

/-- `proc_modules_match`; `strMatch` is `ptql_str_match` with the branch. -/
def procModulesMatch (branch : Ptql.PtqlBranch) (strMatch : Text → Bool) :
    ModuleGetter ProcModulesMatch := fun matcher call =>
  if branch.opFlags.glob then
    ({ matcher with matched := strMatch call.1 },
      if strMatch call.1 then Ptql.notMatched else sigarOk)
  else if matcher.ix = Ptql.dataUi32 branch then
    (⟨matcher.ix + 1, strMatch call.1⟩, Ptql.notMatched)
  else ({ matcher with ix := matcher.ix + 1 }, sigarOk)

/-! ## The calls -/

/-- The answer after which the loop goes on. -/
def goesOn (status : Status) : Bool := status = sigarOk

/-- The calls that the loop makes for lines that show these inodes if no call stops it, and the
    `last_inode` that it ends with. -/
def reports : UInt64 → List (UInt64 × Call) → List Call × UInt64
  | lastInode, [] => ([], lastInode)
  | lastInode, (inode, call) :: rest =>
    if inode = 0 ∨ inode = lastInode then reports 0 rest
    else (call :: (reports inode rest).1, (reports inode rest).2)

/-- **The loop hands its calls to the getter.** -/
theorem modulesLoop_eq {δ : Type} (moduleGetter : ModuleGetter δ) :
    ∀ (buffers : List Text) (lastInode : UInt64) (data : δ),
      modulesLoop moduleGetter buffers lastInode data
        = (visit goesOn moduleGetter (reports lastInode (buffers.map readMap)).1 data).1 := by
  intro buffers
  induction buffers with
  | nil => intro lastInode data; rfl
  | cons buffer rest ih =>
    intro lastInode data
    rcases hread : readMap buffer with ⟨inode, call⟩
    rcases hget : moduleGetter data call with ⟨data', status⟩
    simp only [modulesLoop, map_cons, hread, reports, hget]
    by_cases hskip : inode = 0 ∨ inode = lastInode
    · rw [if_pos hskip, if_pos hskip]
      exact ih 0 data
    · rw [if_neg hskip, if_neg hskip, visit, hget]
      by_cases hok : status = sigarOk
      · have hgo : goesOn status = true := decide_eq_true hok
        rw [if_neg (not_not_intro hok), if_pos hgo]
        exact ih inode data'
      · have hstop : ¬ goesOn status = true := by rwa [goesOn, decide_eq_true_eq]
        rw [if_pos hok, if_neg hstop]

theorem reports_append : ∀ (lastInode : UInt64) (seen more : List (UInt64 × Call)),
    reports lastInode (seen ++ more)
      = ((reports lastInode seen).1 ++ (reports (reports lastInode seen).2 more).1,
        (reports (reports lastInode seen).2 more).2) := by
  intro lastInode seen more
  induction seen generalizing lastInode with
  | nil => rfl
  | cons shown seen ih =>
    obtain ⟨inode, call⟩ := shown
    rw [cons_append, reports, reports]
    by_cases hskip : inode = 0 ∨ inode = lastInode
    · rw [if_pos hskip, if_pos hskip]
      exact ih 0
    · rw [if_neg hskip, if_neg hskip, ih inode]
      rfl

/-- Lines without an inode are passed over. -/
theorem reports_noInode {shown : List (UInt64 × Call)} (h : ∀ r ∈ shown, r.1 = 0) :
    reports 0 shown = ([], 0) := by
  induction shown with
  | nil => rfl
  | cons r shown ih =>
    rw [reports, if_pos (.inl (h r mem_cons_self))]
    exact ih fun r hr => h r (mem_cons_of_mem _ hr)

/-- After a dropped line, only such lines cause no call. -/
theorem reports_zero_eq_nil_iff {shown : List (UInt64 × Call)} :
    (reports 0 shown).1 = [] ↔ ∀ r ∈ shown, r.1 = 0 := by
  refine ⟨?_, fun h => by rw [reports_noInode h]⟩
  induction shown with
  | nil => intro _ r hr; cases hr
  | cons shown more ih => grind [reports]

/-! ## A line of the file -/

/-- A line of /proc/<pid>/maps: four columns, the inode, and the path behind some blanks. -/
structure MapLine where
  region : Text
  flags : Text
  offset : Text
  dev : Text
  inode : UInt64
  pad : Nat
  path : Text
  column : ∀ token ∈ [region, flags, offset, dev], IsToken token ∧ token ≠ []
  /-- The columns are numbers of 64 bits and four flags; the path starts at a fixed column. -/
  narrow : region.length + flags.length + offset.length + dev.length + pad ≤ 256
  one_line : '\n' ∉ path
  no_nul : nul ∉ path
  named : inode ≠ 0 → path ≠ [] ∧ isSpace (deref path) = false

variable {run : List MapLine} {runs : List (List MapLine)}

namespace MapLine

variable (l : MapLine)

/-- What is in front of the path. -/
def head : Text :=
  l.region ++ (' ' :: l.flags ++ (' ' :: l.offset ++ (' ' :: l.dev ++
    (' ' :: renderNat l.inode.toNat ++ ' ' :: replicate l.pad ' '))))

def text : Text := l.head ++ l.path ++ ['\n']

/-- The call that the line asks for. -/
def call : Call := (l.path, l.path.length)

/-- The line fits into the buffer. -/
def Fits : Prop := l.text.length < bufsiz

/-- What the calls of `fgets` that read the line show. -/
def shown : List (UInt64 × Call) := (fgetsLines bufsiz l.text []).map readMap

/-- What is left of a too long line shows no inode. -/
def Quiet : Prop := ∀ r ∈ l.shown.tail, r.1 = 0

instance : Decidable l.Fits := Nat.decLt _ _
instance : Decidable l.Quiet := List.decidableBAll _ _

end MapLine

/-- A file of such lines. -/
def mapsText (lines : List MapLine) : Text := lines.flatMap MapLine.text

variable {l : MapLine}

theorem MapLine.length_head_lt (l : MapLine) : l.head.length < 512 := by
  have hdigits : (renderNat l.inode.toNat).length ≤ 20 := by
    rw [renderNat, Nat.length_toDigits_le_iff (by decide) (by decide)]
    exact Nat.lt_trans l.inode.toNat_lt (by decide)
  have hnarrow := l.narrow
  simp only [head, length_append, length_cons, length_replicate]
  omega

/-- The four columns are skipped, and the inode is read. -/
theorem strtoull_head (l : MapLine) (rest : Text) :
    strtoull (sigarSkipMultipleToken (l.head ++ rest) 4)
      = ⟨l.inode, ' ' :: replicate l.pad ' ' ++ rest, false⟩ := by
  have hblank : ∀ c ∈ [' '], isSpace c = true := forall_mem_singleton.mpr rfl
  have hcolumn := l.column
  simp only [forall_mem_cons] at hcolumn
  obtain ⟨⟨hregion, hregion0⟩, ⟨hflags, hflags0⟩, ⟨hoffset, hoffset0⟩, ⟨hdev, hdev0⟩, -⟩ := hcolumn
  have hends : ∀ text, EndsToken ([' '] ++ text) := fun _ => .inr rfl
  have hhead : l.head ++ rest
      = [] ++ (l.region ++ ([' '] ++ (l.flags ++ ([' '] ++ (l.offset ++ ([' '] ++ (l.dev ++
        ([' '] ++ (renderNat l.inode.toNat ++ (' ' :: replicate l.pad ' ' ++ rest)))))))))) := by
    simp [MapLine.head]
  have hskip : sigarSkipMultipleToken (l.head ++ rest) 4
      = ' ' :: (renderNat l.inode.toNat ++ (' ' :: replicate l.pad ' ' ++ rest)) := by
    rw [hhead]
    show sigarSkipToken (sigarSkipToken (sigarSkipToken (sigarSkipToken _))) = _
    rw [sigarSkipToken_token (forall_mem_nil _) hregion hregion0 (hends _),
      sigarSkipToken_token hblank hflags hflags0 (hends _),
      sigarSkipToken_token hblank hoffset hoffset0 (hends _),
      sigarSkipToken_token hblank hdev hdev0 (hends _)]
    rfl
  have hread := strtoull_blank ⟨(l.inode.toNat : Int), l.inode.toNat_lt⟩
    (rfl : NoDigit (' ' :: replicate l.pad ' ' ++ rest))
  rw [show renderInt (l.inode.toNat : Int) = renderNat l.inode.toNat from if_neg (by omega),
    ofInt_natCast, UInt64.ofNat_toNat] at hread
  rw [hskip, hread]

/-- What is read where the line goes on with `rest`. -/
theorem readMap_head (l : MapLine) {rest : Text} (hstart : isSpace (deref rest) = false)
    (hnul : nul ∉ rest) :
    readMap (l.head ++ rest) = (l.inode, rest.take (rest.length - 1), (rest.length : Int) - 1) := by
  have hblanks : ∀ c ∈ ' ' :: replicate l.pad ' ', isSpace c = true := by
    rintro c (_ | ⟨_, hc⟩)
    · rfl
    · rw [eq_of_mem_replicate hc]
      rfl
  have hlen : strlen rest = rest.length := by
    have h := strlen_append hnul (rfl : deref [] = nul)
    rwa [append_nil] at h
  simp only [readMap, strtoull_head, dropWhile_stop hblanks hstart, hlen]

theorem readMap_inode (l : MapLine) (rest : Text) : (readMap (l.head ++ rest)).1 = l.inode := by
  simp only [readMap, strtoull_head]

/-! ## What a line shows -/

theorem newline_notMem (l : MapLine) : '\n' ∉ l.head ++ l.path := by
  have hcolumn := l.column
  simp only [forall_mem_cons] at hcolumn
  obtain ⟨⟨hregion, -⟩, ⟨hflags, -⟩, ⟨hoffset, -⟩, ⟨hdev, -⟩, -⟩ := hcolumn
  simp [MapLine.head, newline_notMem_token hregion, newline_notMem_token hflags,
    newline_notMem_token hoffset, newline_notMem_token hdev,
    newline_notMem_token (isToken_renderNat _), l.one_line]

/-- A line that fits shows its inode and its path, and nothing else. -/
theorem shown_of_fits (hfits : l.Fits) :
    ∃ call, l.shown = [(l.inode, call)] ∧ (l.inode ≠ 0 → call = l.call) := by
  have hlen : ([] : Text).length + (l.head ++ l.path).length + 1 < bufsiz := by
    have h : l.text.length < bufsiz := hfits
    rw [MapLine.text, length_append] at h
    rwa [length_nil, Nat.zero_add]
  have hline : fgetsLines bufsiz l.text [] = [l.head ++ (l.path ++ ['\n'])] := by
    rw [MapLine.text, fgetsLines_line (newline_notMem l) hlen, reverse_nil, nil_append,
      append_assoc]
    rfl
  refine ⟨(readMap (l.head ++ (l.path ++ ['\n']))).2, ?_, ?_⟩
  · rw [MapLine.shown, hline, map_singleton, ← readMap_inode l (l.path ++ ['\n'])]
  · intro hinode
    obtain ⟨hne, hstart⟩ := l.named hinode
    have hstart' : isSpace (deref (l.path ++ ['\n'])) = false := by
      rwa [deref_append hne]
    have hnul : nul ∉ l.path ++ ['\n'] := by
      rw [mem_append, mem_singleton]
      exact not_or.mpr ⟨l.no_nul, by decide⟩
    rw [readMap_head l hstart' hnul, MapLine.call, length_append, length_singleton,
      Nat.add_sub_cancel, take_left' rfl, Int.natCast_add, Int.natCast_one, Int.add_sub_cancel]

/-- A line that does not fit shows its inode first, but never its path. -/
theorem shown_of_not_fits (hlong : ¬ l.Fits) :
    ∃ call more, l.shown = (l.inode, call) :: more ∧ (l.inode ≠ 0 → call ≠ l.call) := by
  -- the buffer takes `room` characters of the path
  obtain ⟨room, hroom⟩ : ∃ room, room = bufsiz - 1 - l.head.length := ⟨_, rfl⟩
  have hhead := l.length_head_lt
  have hpath : room ≤ l.path.length := by
    have h : bufsiz ≤ l.text.length := Nat.not_lt.mp hlong
    rw [MapLine.text, length_append, length_append, length_singleton] at h
    omega
  have hbuf : bufsiz = 8192 := rfl
  have hcut : (l.path.take room).length = room := by rw [length_take, Nat.min_eq_left hpath]
  have htext : l.text = (l.head ++ l.path.take room) ++ (l.path.drop room ++ ['\n']) := by
    rw [append_assoc, ← append_assoc (l.path.take room), take_append_drop, ← append_assoc]
    rfl
  have hfull : ([] : Text).length + (l.head ++ l.path.take room).length + 1 = bufsiz := by
    rw [length_nil, length_append, hcut]
    omega
  have hne : l.head ++ l.path.take room ≠ [] := by grind
  have hline : '\n' ∉ l.head ++ l.path.take room := by
    intro h
    apply newline_notMem l
    rw [mem_append] at h ⊢
    exact h.imp id mem_of_mem_take
  refine ⟨(readMap (l.head ++ l.path.take room)).2,
    (fgetsLines bufsiz (l.path.drop room ++ ['\n']) []).map readMap, ?_, ?_⟩
  · grind [MapLine.shown, fgetsLines_full, reverse_nil, readMap_inode]
  · intro hinode
    obtain ⟨-, hstart⟩ := l.named hinode
    have hstart' : isSpace (deref (l.path.take room)) = false := by
      obtain ⟨n, hn⟩ : ∃ n, room = n + 1 := ⟨room - 1, by omega⟩
      rw [hn]
      cases hp : l.path with
      | nil => rfl
      | cons c path => rwa [hp] at hstart
    rw [readMap_head l hstart' fun h => l.no_nul (mem_of_mem_take h), hcut]
    intro hsame
    have hlen : (room : Int) - 1 = l.path.length := congrArg Prod.snd hsame
    omega

/-- **The first thing that a line shows** is its inode, and its path exactly if the line fits. -/
theorem shown_eq (l : MapLine) :
    ∃ call, l.shown = (l.inode, call) :: l.shown.tail ∧
      (l.inode ≠ 0 → (call = l.call ↔ l.Fits)) := by
  by_cases hfits : l.Fits
  · obtain ⟨call, hshown, hcall⟩ := shown_of_fits hfits
    rw [hshown]
    exact ⟨call, rfl, fun h => iff_of_true (hcall h) hfits⟩
  · obtain ⟨call, more, hshown, hcall⟩ := shown_of_not_fits hfits
    rw [hshown]
    exact ⟨call, rfl, fun h => iff_of_false (hcall h) hfits⟩

/-- The file is read line by line. -/
theorem fgetsLines_mapsText (lines : List MapLine) :
    (fgetsLines bufsiz (mapsText lines) []).map readMap = lines.flatMap MapLine.shown := by
  induction lines with
  | nil => rfl
  | cons l lines ih =>
    have htext : mapsText (l :: lines) = (l.head ++ l.path) ++ '\n' :: mapsText lines := by
      show l.text ++ mapsText lines = _
      rw [MapLine.text, append_assoc]
      rfl
    rw [htext, fgetsLines_append, map_append, ih]
    rfl

/-! ## A run of lines -/

/-- A line that is dropped causes a call only through what is left of it. -/
theorem reports_dropped (hdrop : l.inode = 0 ∨ l.inode = lastInode) :
    reports lastInode l.shown = reports 0 l.shown.tail := by
  obtain ⟨call, hshown, -⟩ := shown_eq l
  rw [hshown, reports, if_pos hdrop]
  rfl

theorem reports_dropped_eq_nil_iff (hdrop : l.inode = 0 ∨ l.inode = lastInode) :
    (reports lastInode l.shown).1 = [] ↔ l.Quiet := by
  rw [reports_dropped hdrop]
  exact reports_zero_eq_nil_iff

theorem reports_dropped_of_quiet (hdrop : l.inode = 0 ∨ l.inode = lastInode) (hquiet : l.Quiet) :
    reports lastInode l.shown = ([], 0) := by
  rw [reports_dropped hdrop, reports_noInode hquiet]

/-- A line that is not dropped causes a call, and it is the right one exactly if the line fits. -/
theorem reports_told (hinode : l.inode ≠ 0) (hlast : l.inode ≠ lastInode) :
    ∃ call more, (reports lastInode l.shown).1 = call :: more ∧ (call = l.call ↔ l.Fits) := by
  obtain ⟨call, hshown, hcall⟩ := shown_eq l
  rw [hshown, reports, if_neg (not_or.mpr ⟨hinode, hlast⟩)]
  exact ⟨call, _, rfl, hcall hinode⟩

theorem reports_told_of_fits (hinode : l.inode ≠ 0) (hlast : l.inode ≠ lastInode) (hfits : l.Fits) :
    reports lastInode l.shown = ([l.call], l.inode) := by
  obtain ⟨call, hshown, hcall⟩ := shown_of_fits hfits
  rw [hshown, reports, if_neg (not_or.mpr ⟨hinode, hlast⟩), hcall hinode]
  rfl

/-- The lines without an inode. -/
theorem reports_zeroRun (hrun : ∀ l ∈ run, l.inode = 0) (lastInode : UInt64) :
    (reports lastInode (run.flatMap MapLine.shown)).1 = [] ↔ ∀ l ∈ run, l.Quiet := by
  induction run generalizing lastInode with
  | nil => exact iff_of_true rfl (forall_mem_nil _)
  | cons l run ih =>
    have hdrop : l.inode = 0 ∨ l.inode = lastInode := .inl (hrun l mem_cons_self)
    rw [flatMap_cons, reports_append, append_eq_nil_iff, reports_dropped_eq_nil_iff hdrop,
      ih fun l hl => hrun l (mem_cons_of_mem _ hl), forall_mem_cons]

theorem reports_zeroRun_last (hrun : ∀ l ∈ run, l.inode = 0) (hquiet : ∀ l ∈ run, l.Quiet)
    (hne : run ≠ []) (lastInode : UInt64) :
    (reports lastInode (run.flatMap MapLine.shown)).2 = 0 := by
  induction run generalizing lastInode with
  | nil => exact absurd rfl hne
  | cons l run ih =>
    rw [flatMap_cons, reports_append, reports_dropped_of_quiet
      (.inl (hrun l mem_cons_self)) (hquiet l mem_cons_self)]
    by_cases hlast : run = []
    · rw [hlast]
      rfl
    · grind

/-- Behind the line that was reported, only one more of its run is dropped. -/
theorem reports_restOfRun (hinode : inode ≠ 0) (hrun : ∀ l ∈ run, l.inode = inode) :
    (reports inode (run.flatMap MapLine.shown)).1 = [] ↔ run.length ≤ 1 ∧ ∀ l ∈ run, l.Quiet := by
  cases run with
  | nil => exact iff_of_true rfl ⟨Nat.zero_le 1, forall_mem_nil _⟩
  | cons l run =>
    have hdrop : l.inode = 0 ∨ l.inode = inode := .inr (hrun l mem_cons_self)
    rw [flatMap_cons, reports_append, append_eq_nil_iff, reports_dropped_eq_nil_iff hdrop]
    cases run with
    | nil =>
      rw [forall_mem_singleton]
      exact ⟨fun h => ⟨Nat.le_refl 1, h.1⟩, fun h => ⟨h.2, rfl⟩⟩
    | cons third run =>
      -- `last_inode` is 0 here
      refine iff_of_false ?_ fun h => absurd h.1 (by simp)
      rintro ⟨hquiet, hthird⟩
      have hnext : third.inode = inode := hrun third (mem_cons_of_mem _ mem_cons_self)
      rw [reports_dropped_of_quiet hdrop hquiet, flatMap_cons, reports_append] at hthird
      have hnew : third.inode ≠ 0 := hnext ▸ hinode
      obtain ⟨call, more, htold, -⟩ := reports_told hnew hnew
      rw [htold] at hthird
      cases hthird

/-- The call that a run asks for. -/
def runCall : List MapLine → Option Call
  | [] => none
  | l :: _ => if l.inode = 0 then none else some l.call

/-- What a run has to be like: no more than two lines with an inode, the first of which fits into
    the buffer; what is left of the other lines, if they are too long, shows no inode. -/
def RunFits : List MapLine → Prop
  | [] => True
  | l :: rest =>
    if l.inode = 0 then ∀ m ∈ l :: rest, m.Quiet
    else l.Fits ∧ rest.length ≤ 1 ∧ ∀ m ∈ rest, m.Quiet

/-- **A run is reported once** exactly if it is like that, whatever was reported before it. -/
theorem reports_run_iff (hrun : IsRun MapLine.inode inode run)
    (hlast : inode ≠ 0 → lastInode ≠ inode) :
    (reports lastInode (run.flatMap MapLine.shown)).1 = (runCall run).toList ↔ RunFits run := by
  obtain ⟨hne, hsame⟩ := hrun
  cases run with
  | nil => exact absurd rfl hne
  | cons l rest =>
    have hl : l.inode = inode := hsame l mem_cons_self
    rw [runCall, RunFits]
    by_cases hzero : l.inode = 0
    · grind [reports_zeroRun]
    · rw [if_neg hzero, if_neg hzero, flatMap_cons, reports_append, Option.toList_some]
      have hinode : inode ≠ 0 := hl ▸ hzero
      have hnew : l.inode ≠ lastInode := fun h => hlast hinode (h.symm.trans hl)
      by_cases hfits : l.Fits
      · rw [reports_told_of_fits hzero hnew hfits, singleton_append, cons_eq_cons]
        have hrest := reports_restOfRun hzero fun m hm =>
          (hsame m (mem_cons_of_mem l hm)).trans hl.symm
        exact ⟨fun h => ⟨hfits, hrest.mp h.2⟩, fun h => ⟨rfl, hrest.mpr h.2⟩⟩
      · obtain ⟨call, more, htold, hcall⟩ := reports_told hzero hnew
        refine iff_of_false ?_ fun h => hfits h.1
        rw [htold]
        intro h
        exact hfits (hcall.mp (cons.inj h).1)

/-- A run leaves its inode behind, or none. -/
theorem reports_run_last (hrun : IsRun MapLine.inode inode run)
    (hlast : inode ≠ 0 → lastInode ≠ inode) (hfits : RunFits run) :
    (reports lastInode (run.flatMap MapLine.shown)).2 = 0 ∨
      (reports lastInode (run.flatMap MapLine.shown)).2 = inode := by
  obtain ⟨hne, hsame⟩ := hrun
  cases run with
  | nil => exact absurd rfl hne
  | cons l rest =>
    have hl : l.inode = inode := hsame l mem_cons_self
    rw [RunFits] at hfits
    by_cases hzero : l.inode = 0
    · grind [reports_zeroRun_last]
    · rw [if_neg hzero] at hfits
      obtain ⟨hfirst, hshort, hquiet⟩ := hfits
      have hnew : l.inode ≠ lastInode := fun h => hlast (hl ▸ hzero) (h.symm.trans hl)
      rw [flatMap_cons, reports_append, reports_told_of_fits hzero hnew hfirst]
      match rest with
      | [] => exact .inr hl
      | [m] => grind [flatMap_singleton, reports_dropped_of_quiet]
      | m :: m' :: rest => exact absurd hshort (by simp)

/-! ## The file -/

/-- The calls for the first `n` runs are the right ones, for every `n`. -/
def RunsReported (lastInode : UInt64) (runs : List (List MapLine)) : Prop :=
  ∀ n, (reports lastInode ((runs.take n).flatten.flatMap MapLine.shown)).1
    = (runs.take n).filterMap runCall

theorem runsReported_cons (hrun : IsRun MapLine.inode inode run)
    (hlast : inode ≠ 0 → lastInode ≠ inode) :
    RunsReported lastInode (run :: runs) ↔
      RunFits run ∧ RunsReported (reports lastInode (run.flatMap MapLine.shown)).2 runs := by
  have hsplit : ∀ n, (reports lastInode
      (((run :: runs).take (n + 1)).flatten.flatMap MapLine.shown)).1
        = (reports lastInode (run.flatMap MapLine.shown)).1 ++
          (reports (reports lastInode (run.flatMap MapLine.shown)).2
            ((runs.take n).flatten.flatMap MapLine.shown)).1 := by
    intro n
    rw [take_succ_cons, flatten_cons, flatMap_append, reports_append]
  have hcalls : ∀ n, ((run :: runs).take (n + 1)).filterMap runCall
      = (runCall run).toList ++ (runs.take n).filterMap runCall := by grind
  constructor
  · intro h
    have hfirst : (reports lastInode (run.flatMap MapLine.shown)).1 = (runCall run).toList := by
      have h1 := h 1
      rw [hsplit 0, hcalls 0] at h1
      simpa [reports] using h1
    refine ⟨(reports_run_iff hrun hlast).mp hfirst, ?_⟩
    intro n
    have hn := h (n + 1)
    rw [hsplit n, hcalls n, hfirst] at hn
    exact append_cancel_left hn
  · rintro ⟨hfits, hrest⟩ n
    cases n with
    | zero => rfl
    | succ n => rw [hsplit n, hcalls n, (reports_run_iff hrun hlast).mpr hfits, hrest n]

/-- **From run to run**: `keys` are the inodes of the runs. -/
theorem runsReported_iff {keys : List UInt64} (hruns : Forall₂ (IsRun MapLine.inode) keys runs)
    (hkeys : keys.IsChain (· ≠ ·)) :
    ∀ {lastInode : UInt64}, (∀ k ∈ keys.head?, k ≠ 0 → lastInode ≠ k) →
      (RunsReported lastInode runs ↔ ∀ run ∈ runs, RunFits run) := by
  induction hruns with
  | nil =>
    intro lastInode _
    exact iff_of_true (fun n => by rw [take_nil]; rfl) (forall_mem_nil _)
  | cons hrun hrest ih =>
    intro lastInode hlast
    obtain ⟨hnext, hchain⟩ := isChain_cons.mp hkeys
    rw [runsReported_cons hrun (hlast _ rfl), forall_mem_cons]
    refine and_congr_right fun hfits => ih hchain ?_
    intro k hk hzero hsame
    rcases reports_run_last hrun (hlast _ rfl) hfits with hnone | hleft
    · exact hzero (hsame.symm.trans hnone)
    · exact hnext k hk (hleft.symm.trans hsame)

/-- A getter that notes its calls. -/
def noteCall : ModuleGetter (List Call) := fun calls call => (calls ++ [call], sigarOk)

theorem visit_noteCall : ∀ (calls noted : List Call),
    (visit goesOn noteCall calls noted).1 = noted ++ calls := by
  intro calls
  induction calls with
  | nil => intro noted; exact (append_nil noted).symm
  | cons call calls ih =>
    intro noted
    show (visit goesOn noteCall calls (noted ++ [call])).1 = _
    rw [ih, append_assoc]
    rfl

/-- The matcher of `Modules.<n>` asks about the call with the number `n`. -/
theorem visit_procModulesMatch {branch : Ptql.PtqlBranch} (hone : branch.opFlags.glob = false)
    (strMatch : Text → Bool) : ∀ (calls : List Call) (ix : UInt32),
      ix.toNat ≤ (Ptql.dataUi32 branch).toNat →
        (visit goesOn (procModulesMatch branch strMatch) calls ⟨ix, false⟩).1.matched
          = (calls[(Ptql.dataUi32 branch).toNat - ix.toNat]?).any fun call => strMatch call.1 := by
  intro calls
  induction calls with
  | nil => intro ix _; rfl
  | cons call calls ih =>
    intro ix hix
    by_cases hhere : ix = Ptql.dataUi32 branch
    · have hstep : procModulesMatch branch strMatch ⟨ix, false⟩ call
          = (⟨ix + 1, strMatch call.1⟩, Ptql.notMatched) := by
        rw [procModulesMatch, hone]
        exact if_pos hhere
      rw [visit, hstep, hhere, Nat.sub_self]
      rfl
    · have hstep : procModulesMatch branch strMatch ⟨ix, false⟩ call
          = (⟨ix + 1, false⟩, sigarOk) := by
        rw [procModulesMatch, hone]
        exact if_neg hhere
      have hless : ix.toNat < (Ptql.dataUi32 branch).toNat :=
        Nat.lt_of_le_of_ne hix fun h => hhere (UInt32.toNat_inj.mp h)
      have hnext : (ix + 1).toNat = ix.toNat + 1 := by
        have hbound := (Ptql.dataUi32 branch).toNat_lt
        rw [UInt32.toNat_add, UInt32.toNat_one, Nat.mod_eq_of_lt (by omega)]
      rw [visit, hstep]
      show (visit goesOn (procModulesMatch branch strMatch) calls ⟨ix + 1, false⟩).1.matched = _
      rw [ih (ix + 1) (by omega), hnext,
        show (Ptql.dataUi32 branch).toNat - ix.toNat
          = (Ptql.dataUi32 branch).toNat - (ix.toNat + 1) + 1 by omega]
      rfl

/-- Each run of `runs` with an inode is reported once, in order and with the path of its first
    line, until the getter stops; so `Modules.<n>` is about the run with the number `n`. -/
structure ReportedOnce (runs : List (List MapLine)) : Prop where
  told : ∀ (δ : Type) (moduleGetter : ModuleGetter δ) (data : δ),
    sigarProcModulesGet moduleGetter (.ok (mapsText runs.flatten)) data
      = (sigarOk, (visit goesOn moduleGetter (runs.filterMap runCall) data).1)
  counted : ∀ (branch : Ptql.PtqlBranch) (strMatch : Text → Bool),
    branch.opFlags.glob = false →
      (sigarProcModulesGet (procModulesMatch branch strMatch) (.ok (mapsText runs.flatten))
          ⟨0, false⟩).2.matched
        = ((runs.filterMap runCall)[(Ptql.dataUi32 branch).toNat]?).any fun call => strMatch call.1

theorem reportedOnce_iff (runs : List (List MapLine)) :
    ReportedOnce runs ↔
      (reports 0 (runs.flatten.flatMap MapLine.shown)).1 = runs.filterMap runCall := by
  have hget : ∀ (δ : Type) (moduleGetter : ModuleGetter δ) (data : δ),
      sigarProcModulesGet moduleGetter (.ok (mapsText runs.flatten)) data
        = (sigarOk, (visit goesOn moduleGetter
            (reports 0 (runs.flatten.flatMap MapLine.shown)).1 data).1) := by
    intro δ moduleGetter data
    rw [sigarProcModulesGet, modulesLoop_eq, fgetsLines_mapsText]
  constructor
  · intro h
    have hnoted := h.told _ noteCall []
    rw [hget, visit_noteCall, visit_noteCall] at hnoted
    exact congrArg Prod.snd hnoted
  · intro h
    refine ⟨fun δ moduleGetter data => by rw [hget, h], ?_⟩
    intro branch strMatch hone
    rw [hget, h]
    exact visit_procModulesMatch hone strMatch _ 0 (Nat.zero_le _)

/-- **A file is reported run by run** exactly when no run has more than two lines with an inode, the
    first line of each of them fits into the buffer, and what is left of the other too long lines
    shows no inode. -/
theorem modulesGet_once_iff (lines : List MapLine) :
    (∀ n, ReportedOnce ((runsBy MapLine.inode lines).take n)) ↔
      ∀ run ∈ runsBy MapLine.inode lines, RunFits run := by
  obtain ⟨keys, hruns, hkeys⟩ := runsBy_keys MapLine.inode lines
  rw [← runsReported_iff hruns hkeys (fun k _ hk => hk.symm : ∀ k ∈ keys.head?, k ≠ 0 → 0 ≠ k)]
  exact forall_congr' fun n => reportedOnce_iff _

/-- A segment of a library. -/
def libSegment (region flags : Text)
    (hcolumn : ∀ token ∈ [region, flags, "00000000".toList, "08:01".toList],
      IsToken token ∧ token ≠ [])
    (hnarrow : region.length + flags.length ≤ 64) : MapLine where
  region := region
  flags := flags
  offset := "00000000".toList
  dev := "08:01".toList
  inode := 1234
  pad := 24
  path := "/lib/libc.so.6".toList
  column := hcolumn
  narrow := by
    show region.length + flags.length + 8 + 5 + 24 ≤ 256
    omega
  one_line := by decide
  no_nul := by decide
  named := by decide

/-- **A library with three segments is reported twice.** -/
theorem threeSegments_twice :
    let text := libSegment "7f00-7f10".toList "r-xp".toList (by decide) (by decide)
    let data := libSegment "7f10-7f18".toList "r--p".toList (by decide) (by decide)
    let bss := libSegment "7f18-7f20".toList "rw-p".toList (by decide) (by decide)
    (runsBy MapLine.inode [text, data, bss]).length = 1 ∧
      sigarProcModulesGet noteCall (.ok (mapsText [text, data, bss])) []
        = (sigarOk, [("/lib/libc.so.6".toList, 14), ("/lib/libc.so.6".toList, 14)]) := by
  refine ⟨by decide +kernel, by decide +kernel⟩

end Sigar.Proc.Modules
