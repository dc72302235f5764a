/-
  `Pid.SudoPidFile.<op>=<file>`.

  Source: `sigar_sudo_file2str` of `sigar_ptql.c`, which lets a shell print the file.

  The name of the file goes into the command line as it is, without quotes, and the line into a
  buffer of `SIGAR_PATH_MAX` bytes.  `sudoPidFile_iff`: the shell runs `sudo cat` with that one
  argument exactly if the name is a plain word that fits.
-/
import Sigar.Ptql.PidFile
import Sigar.Lib.Shell

namespace Sigar.Ptql

open CString Shell List

/-! ## The program -/

/-- What the functions of the system do. -/
structure Host where
  /-- `stat`: `st_size`, or `errno`. -/
  stat : CStr → Except Status Int
  /-- `popen`: what the command line prints, or `errno`. -/
  popen : CStr → Except Status Text

/-- `ENOMEM` of Linux. -/
def enomem : Status := 12

/-- `snprintf(buffer, buflen, "sudo cat %s", fname)`. -/
def sudoCat (fname : CStr) (buflen : Nat) : CStr := ("sudo cat ".toList ++ fname).take (buflen - 1)

/-- `sigar_sudo_file2str`: the command line that was handed to the shell, the status and the
    buffer. -/
def sigarSudoFile2str (host : Host) (fname : CStr) (buflen : Nat) :
    Option CStr × Status × Text :=
  match host.stat fname with
  | .error errno => (none, errno, [])
  | .ok size =>
    if size > buflen then (none, enomem, [])
    else
      let buffer := sudoCat fname buflen
      match host.popen buffer with
      | .error errno => (some buffer, errno, buffer)
      | .ok printed =>
        match fgetsLines buflen printed [] with
        | [] => (some buffer, -1, buffer)
        | line :: _ => (some buffer, sigarOk, line)

/-- The command line that `ptql_pid_get` has handed to the shell for a branch. -/
def commandLine (host : Host) (branch : PtqlBranch) : Option CStr :=
  match branch.flags with
  | .sudoFile => (sigarSudoFile2str host (dataStr branch) sigarPathMax).1
  | _ => none

/-! ## The branch -/

variable {libc : Libc} {ptql : CStr} {query : PtqlQuery} {branch : PtqlBranch}
  {modifiers op name : CStr} {host : Host} {size : Int}

/-- `Pid.SudoPidFile.<op>=<name>`, with modifiers before the operator. -/
def sudoFileText (modifiers op name : CStr) : BranchText :=
  ⟨"Pid".toList, "SudoPidFile".toList, modifiers, op, name⟩

theorem sudoFile_of_built {number : Nat}
    (hb : BuiltBranch libc (sudoFileText modifiers op name).components number branch) :
    branch.flags = .sudoFile ∧ dataStr branch = name := by
  have hinit : branch.lookup.init = some .pid := (findLookup_pid_iff hb.found).mpr rfl
  obtain ⟨init, hrun, hflags, hdata⟩ := hb.init
  rw [hinit] at hrun
  obtain rfl := Except.ok.inj hrun
  refine ⟨hflags, ?_⟩
  rw [dataStr, hdata]
  rfl

/-- An accepted query has the branch. -/
theorem sudoFile_branch (hvalid : (sudoFileText modifiers op name).Valid)
    (hcreate : sigarPtqlQueryCreate libc ptql = .ok query)
    (hpiece : (sudoFileText modifiers op name).render ∈ pieces ptql) :
    ∃ branch ∈ query.branches, branch.flags = .sudoFile ∧ dataStr branch = name := by
  have hservice : (sudoFileText modifiers op name).attr ≠ "Service".toList :=
    (by decide : "SudoPidFile".toList ≠ "Service".toList)
  have hparse := (ptqlBranchParse_render_iff hvalid).mpr fun h => absurd h hservice
  obtain ⟨number, branch, hmem, parsed, hparsed, hb⟩ := piece_branch hcreate hpiece
  rw [hparse] at hparsed
  obtain rfl := Except.ok.inj hparsed
  exact ⟨branch, hmem, sudoFile_of_built hb⟩

/-! ## The command -/

theorem isPlain_sudo_cat : ∀ w ∈ ["sudo".toList, "cat".toList], IsPlain w :=
  forall_mem_cons.mpr ⟨by decide, forall_mem_singleton.mpr (by decide)⟩

/-- The words are those that are meant. -/
theorem simpleCommand_sudoCat_iff :
    simpleCommand (sudoCat name sigarPathMax) = some ["sudo".toList, "cat".toList, name] ↔
      IsPlain name ∧ name.length ≤ 4086 := by
  have hline : sudoCat name sigarPathMax = spaced ["sudo".toList, "cat".toList] ++ name.take 4086 := by
    rw [sudoCat, take_append]
    rfl
  have hname : ∀ w ∈ ["sudo".toList, "cat".toList].head?, IsName w := by
    intro w hw
    rw [← Option.some.inj hw]
    exact ⟨by decide, by decide⟩
  have hcut := take_prefix 4086 name
  rw [hline]
  refine (simpleCommand_argument_iff isPlain_sudo_cat (cons_ne_nil _ _) hname hcut).trans ?_
  constructor
  · grind
  · rintro ⟨hplain, hlen⟩
    exact ⟨take_of_length_le hlen, hplain⟩

/-- Every command line that is handed to the shell for the branch is the one simple command with
    the words `sudo`, `cat` and the name. -/
def OneCommand (host : Host) (branch : PtqlBranch) (name : CStr) : Prop :=
  ∀ line ∈ commandLine host branch,
    simpleCommand line = some ["sudo".toList, "cat".toList, name]

/-- **The file is printed by that one command** exactly if its name is a plain word of no more than
    4086 bytes, or the file is so large that no command is run. -/
theorem sudoPidFile_iff (hvalid : (sudoFileText modifiers op name).Valid)
    (hcreate : sigarPtqlQueryCreate libc ptql = .ok query)
    (hpiece : (sudoFileText modifiers op name).render ∈ pieces ptql)
    (hstat : host.stat name = .ok size) :
    ∃ branch ∈ query.branches, branch.flags = .sudoFile ∧ dataStr branch = name ∧
      (OneCommand host branch name ↔
        (sigarPathMax : Int) < size ∨ (IsPlain name ∧ name.length ≤ 4086)) := by
  obtain ⟨branch, hmem, hflags, hdata⟩ := sudoFile_branch hvalid hcreate hpiece
  refine ⟨branch, hmem, hflags, hdata, ?_⟩
  have hline : commandLine host branch
      = if size > sigarPathMax then none else some (sudoCat name sigarPathMax) := by
    rw [commandLine, hflags, hdata]
    simp only [sigarSudoFile2str, hstat]
    split
    · rfl
    · split
      · rfl
      · split <;> rfl
  rw [OneCommand, hline, ← simpleCommand_sudoCat_iff]
  by_cases hlarge : size > sigarPathMax
  · rw [if_pos hlarge]
    exact iff_of_true (fun line h => nomatch h) (.inl hlarge)
  · rw [if_neg hlarge]
    constructor
    · intro h
      exact .inr (h _ rfl)
    · rintro (h | h)
      · exact absurd h hlarge
      · rintro line hline
        rw [← Option.some.inj hline]
        exact h

/-- A host on which every file has three bytes. -/
def Host.small : Host := ⟨fun _ => .ok 3, fun _ => .ok "12\n".toList⟩

theorem sudoPidFile_iff_example :
    ∃ query, sigarPtqlQueryCreate .plain (sudoFileText [] "eq".toList "/run/a.pid".toList).render
        = .ok query ∧
      ∃ branch ∈ query.branches, OneCommand .small branch "/run/a.pid".toList := by
  obtain ⟨query, hcreate, -⟩ :
      ∃ query, sigarPtqlQueryCreate .plain
          (sudoFileText [] "eq".toList "/run/a.pid".toList).render = .ok query ∧
        decide True = true :=
    accepted_of_test (by decide +kernel)
  have hvalid : (sudoFileText [] "eq".toList "/run/a.pid".toList).Valid :=
    ⟨by decide, by decide, forall_mem_nil _, by decide, by decide, by decide, by decide,
      by decide⟩
  obtain ⟨branch, hmem, -, -, hiff⟩ :=
    sudoPidFile_iff hvalid hcreate (by decide) (rfl : Host.small.stat _ = .ok 3)
  exact ⟨query, hcreate, branch, hmem, hiff.mpr (.inr ⟨by decide, by decide⟩)⟩

/-- **A blank in the name is one more argument, and a semicolon ends the command.** -/
theorem sudoPidFile_injects :
    (∃ query, sigarPtqlQueryCreate .plain "Pid.SudoPidFile.eq=/run/a b".toList = .ok query ∧
      query.branches.map (commandLine .small) = [some "sudo cat /run/a b".toList] ∧
      simpleCommand "sudo cat /run/a b".toList
        = some ["sudo".toList, "cat".toList, "/run/a".toList, "b".toList]) ∧
    (∃ query, sigarPtqlQueryCreate .plain "Pid.SudoPidFile.eq=/run/a;id".toList = .ok query ∧
      query.branches.map (commandLine .small) = [some "sudo cat /run/a;id".toList] ∧
      simpleCommand "sudo cat /run/a;id".toList = none) := by
  constructor
  · obtain ⟨query, hcreate, htest⟩ :
        ∃ query, sigarPtqlQueryCreate .plain "Pid.SudoPidFile.eq=/run/a b".toList = .ok query ∧
          decide (query.branches.map (commandLine .small)
            = [some "sudo cat /run/a b".toList]) = true :=
      accepted_of_test (by decide +kernel)
    exact ⟨query, hcreate, of_decide_eq_true htest, by decide +kernel⟩
  · obtain ⟨query, hcreate, htest⟩ :
        ∃ query, sigarPtqlQueryCreate .plain "Pid.SudoPidFile.eq=/run/a;id".toList = .ok query ∧
          decide (query.branches.map (commandLine .small)
            = [some "sudo cat /run/a;id".toList]) = true :=
      accepted_of_test (by decide +kernel)
    exact ⟨query, hcreate, of_decide_eq_true htest, by decide +kernel⟩

end Sigar.Ptql
