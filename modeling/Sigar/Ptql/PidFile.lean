/-
  `Pid.PidFile.<op>=<file>`.

  The pids of the table are compared with the number that a file starts with.

  1. **What is meant** — `meantPid`: the number, if it is one of a pid.
  2. **What is compared** — `comparedPid`.  `strtoull` reports that there is no number by its end
     pointer only, and `ptql_pid_get` then returns `errno`, which nobody has set: the status is OK
     and the pid is 0.  A number that is too large for a pid, but not for 64 bits, is cut to the
     32 bits of one.
  3. **When they select the same processes** — `PidFileFits`, and `pidFile_selects_iff`.
-/
import Sigar.Ptql.Numbers
import Sigar.Ptql.PidBranch

namespace Sigar.Ptql

open CString Numerals Words

variable {libc : Libc} {world : World} {query : PtqlQuery} {branch : PtqlBranch} {op : CmpOp}
  {name : CStr} {file : FileRead} {pids : List SigarPid}

/-! ## The query -/

/-- The name of a comparison in a query. -/
def CmpOp.text : CmpOp → CStr
  | .eq => "eq".toList
  | .ne => "ne".toList
  | .gt => "gt".toList
  | .ge => "ge".toList
  | .lt => "lt".toList
  | .le => "le".toList

/-- `Pid.PidFile.<op>=<name>`. -/
def pidFileText (op : CmpOp) (name : CStr) : BranchText :=
  ⟨"Pid".toList, "PidFile".toList, [], op.text, name⟩

theorem pidFileText_valid (op : CmpOp) (hname : ',' ∉ name) : (pidFileText op name).Valid := by
  have hop : ∀ op : CmpOp, op.text ≠ [] ∧ '=' ∉ op.text ∧ ',' ∉ op.text ∧
      (deref op.text).isUpper = false := by
    intro op
    cases op <;> decide
  obtain ⟨hne, heq, hcomma, hupper⟩ := hop op
  exact ⟨(by decide : Plain "Pid".toList), (by decide : Plain "PidFile".toList),
    fun _ hc => absurd hc List.not_mem_nil, hne, heq, hcomma, hupper, hname⟩

/-- What such a query consists of. -/
structure PidFileBranch (op : CmpOp) (name : CStr) (branch : PtqlBranch) : Prop where
  cmp : branch.opName.cmp? = some op
  flags : branch.flags = .file
  data : dataStr branch = name
  type : branch.lookup.type = .any
  get : branch.lookup.get = .pid
  pid : branch.opFlags.pid = true
  parent : branch.opFlags.parent = false

theorem PidFileBranch.filters (hb : PidFileBranch op name branch) : Filters op branch :=
  ⟨hb.cmp, hb.type, hb.get, hb.pid, hb.parent⟩

theorem pidFileBranch_of_built {number : Nat}
    (hb : BuiltBranch libc (pidFileText op name).components number branch) :
    PidFileBranch op name branch := by
  have hcode : ∀ op : CmpOp, (ptqlOpCodeGet op.text).bind (·.cmp?) = some op := by
    intro op
    cases op <;> rfl
  have hinit : branch.lookup.init = some .pid := (findLookup_pid_iff hb.found).mpr rfl
  have hpid : branch.opFlags.pid = true := by
    rw [hb.pid, hinit]
    rfl
  obtain ⟨htype, hget⟩ := hb.pid_lookup hpid
  obtain ⟨init, hrun, hflags, hdata⟩ := hb.init
  rw [hinit] at hrun
  obtain rfl := Except.ok.inj hrun
  refine ⟨?_, hflags, ?_, htype, hget, hpid, hb.parent⟩
  · have h := hcode op
    rw [show ptqlOpCodeGet op.text = some branch.opName from hb.opCode] at h
    exact h
  · rw [dataStr, hdata]
    rfl

/-- **The branch of the query**: there is one, and it is of this kind. -/
theorem pidFileQuery_branches (hname : ',' ∉ name)
    (hcreate : sigarPtqlQueryCreate libc (pidFileText op name).render = .ok query) :
    ∃ branch, query.branches = [branch] ∧ PidFileBranch op name branch := by
  have hservice : (pidFileText op name).attr ≠ "Service".toList :=
    (by decide : "PidFile".toList ≠ "Service".toList)
  obtain ⟨branch, hquery, hbuilt⟩ :=
    singleBranch (pidFileText_valid op hname) hservice hcreate
  exact ⟨branch, hquery, pidFileBranch_of_built hbuilt⟩

/-! ## The number -/

/-- `SIGAR_PATH_MAX` of Linux, the size with which `ptql_pid_get` reads the file. -/
def sigarPathMax : Nat := 4096

/-- The numbers of a `sigar_pid_t`. -/
def FitsPid (n : Int) : Prop := -2147483648 ≤ n ∧ n < 2147483648

instance (n : Int) : Decidable (FitsPid n) := inferInstanceAs (Decidable (_ ∧ _))

/-- The pid in a file: the number that its text starts with. -/
def meantPid : FileRead → Option Int
  | .content bytes => (leadingInt bytes).filter fun n => FitsPid n
  | _ => none

/-- What becomes of a number that is read, or not found. -/
def storedPid : Option Int → Option Int
  | none => some 0
  | some n => if 18446744073709551616 ≤ n.natAbs then none else some (wrap32 n)

/-- The number that the pids of the table are compared with. -/
def comparedPid : FileRead → Option Int
  | .content bytes => storedPid (leadingInt (bytes.take (sigarPathMax - 1)))
  | _ => none

theorem toPid_ofInt (n : Int) : (toPid (UInt64.ofInt n)).toInt = wrap32 n := by
  have hbits := toNat_eq_toInt32_mod (UInt64.ofInt n).toUInt32
  have hnum := toNat_ofInt64_toUInt32 n
  have hlow := Int32.le_toInt (UInt64.ofInt n).toUInt32.toInt32
  have hhigh := Int32.toInt_lt (UInt64.ofInt n).toUInt32.toInt32
  rw [toPid, wrap32]
  omega

/-- A read that failed has set `errno`. -/
def ErrnoSet : FileRead → Prop
  | .readError errno => errno ≠ sigarOk
  | _ => True

/-- **What `ptql_pid_get` gives back**: the pid, where its status is OK. -/
theorem ptqlPidGet_file (hb : PidFileBranch op name branch)
    (hfile : world.file2str name = sigarFile2str sigarPathMax file) (herrno : ErrnoSet file) :
    (if (ptqlPidGet world branch).1 = sigarOk then some (ptqlPidGet world branch).2.toInt
      else none) = comparedPid file := by
  have hget : ptqlPidGet world branch
      = ptqlPidGet.pidOfFile (sigarFile2str sigarPathMax file) := by
    rw [ptqlPidGet, hb.flags, hb.data, hfile]
  rw [hget]
  cases file with
  | noFile => rfl
  | readError errno =>
    have herror : ptqlPidGet.pidOfFile (sigarFile2str sigarPathMax (.readError errno))
        = (errno, 0) := if_pos herrno
    rw [herror, if_neg herrno]
    rfl
  | content bytes =>
    have hread : ptqlPidGet.pidOfFile (sigarFile2str sigarPathMax (.content bytes))
        = if (strtoull (bytes.take (sigarPathMax - 1))).erange then
            (erange, toPid (strtoull (bytes.take (sigarPathMax - 1))).value)
          else (sigarOk, toPid (strtoull (bytes.take (sigarPathMax - 1))).value) := rfl
    rw [hread, strtoull_eq, comparedPid]
    cases leadingInt (bytes.take (sigarPathMax - 1)) with
    | none => rfl
    | some n =>
      rw [storedPid]
      by_cases hhuge : 18446744073709551616 ≤ n.natAbs
      · simp only [if_pos hhuge, if_true]
        rfl
      · simp only [if_neg hhuge, Bool.false_eq_true, if_false, if_true, toPid_ofInt]

/-! ## The selection -/

/-- The comparison of the code: both pids are extended to 64 bits, and have no sign then. -/
def ComparesUnsigned (op : CmpOp) (p t : Int) : Prop :=
  Compares op (p % 18446744073709551616) (t % 18446744073709551616)

instance (op : CmpOp) (p t : Int) : Decidable (ComparesUnsigned op p t) :=
  inferInstanceAs (Decidable (Compares _ _ _))

theorem ptqlOpUi64_pid {p q : SigarPid} :
    ptqlOpUi64 op (pidToUInt64 p) (pidToUInt64 q) = true ↔ ComparesUnsigned op p.toInt q.toInt := by
  have hresidue : ∀ p : SigarPid,
      ((pidToUInt64 p).toNat : Int) = p.toInt % 18446744073709551616 := by
    intro p
    have hlow := Int32.le_toInt p
    have hhigh := Int32.toInt_lt p
    rw [pidToUInt64, toNat_signExtend]
    split <;> omega
  rw [ptqlOpUi64_iff, hresidue, hresidue]
  rfl

/-- `p op n`, if there is a number. -/
def Chosen (compares : Int → Int → Prop) : Option Int → SigarPid → Prop
  | none, _ => False
  | some n, p => compares p.toInt n

instance (op : CmpOp) (number : Option Int) (p : SigarPid) :
    Decidable (Chosen (Compares op) number p) :=
  match number with
  | none => inferInstanceAs (Decidable False)
  | some n => inferInstanceAs (Decidable (Compares op p.toInt n))

theorem selects_iff (hb : PidFileBranch op name branch)
    (hfile : world.file2str name = sigarFile2str sigarPathMax file) (herrno : ErrnoSet file)
    (p : SigarPid) :
    selects world branch p = true ↔ Chosen (ComparesUnsigned op) (comparedPid file) p := by
  rw [← ptqlPidGet_file hb hfile herrno, selects, hb.flags, hb.cmp, Option.any_some,
    Bool.and_eq_true, Bool.and_eq_true, decide_eq_true_eq, ptqlOpUi64_pid]
  by_cases hok : (ptqlPidGet world branch).1 = sigarOk
  · rw [if_pos hok]
    exact ⟨fun h => h.2, fun h => ⟨⟨rfl, hok⟩, h⟩⟩
  · rw [if_neg hok]
    exact ⟨fun h => hok h.1.2, fun h => h.elim⟩

/-! ## When it is the right one -/

/-- The query selects the processes that compare with the pid in the file; none if there is no
    pid. -/
def PidFileRight (world : World) (query : PtqlQuery) (op : CmpOp) (file : FileRead)
    (pids : List SigarPid) : Prop :=
  ∃ last, (sigarPtqlQueryFind world query).res
    = .ok (last, sigarOk, pids.filter fun p => Chosen (Compares op) (meantPid file) p)

/-- The files for which the comparison is the one that is meant, with the operator and the pids of
    the table. -/
inductive PidFileFits (op : CmpOp) (pids : List SigarPid) : FileRead → Prop
  /-- The file cannot be read. -/
  | unreadable {file : FileRead} (h : ∀ bytes, file ≠ .content bytes) : PidFileFits op pids file
  /-- The number is out of the range of 64 bits, which `strtoull` says. -/
  | huge {bytes : CStr} {n : Int} (hread : leadingInt (bytes.take (sigarPathMax - 1)) = some n)
      (hhuge : 18446744073709551616 ≤ n.natAbs) (hn : leadingInt bytes = some n) :
      PidFileFits op pids (.content bytes)
  /-- It is a pid, and no process of the table has the other sign. -/
  | pid {bytes : CStr} {n : Int} (hread : leadingInt (bytes.take (sigarPathMax - 1)) = some n)
      (hn : leadingInt bytes = some n) (hfits : FitsPid n)
      (hsign : op = .eq ∨ op = .ne ∨ ∀ p ∈ pids, (p.toInt < 0 ↔ n < 0)) :
      PidFileFits op pids (.content bytes)
  /-- There is no number, and no process compares with 0. -/
  | noNumber {bytes : CStr} (hread : leadingInt (bytes.take (sigarPathMax - 1)) = none)
      (hn : leadingInt bytes = none) (hzero : ∀ p ∈ pids, ¬ ComparesUnsigned op p.toInt 0) :
      PidFileFits op pids (.content bytes)
  /-- It is no pid, and no process compares with its low 32 bits. -/
  | wide {bytes : CStr} {n : Int} (hread : leadingInt (bytes.take (sigarPathMax - 1)) = some n)
      (hn : leadingInt bytes = some n) (hfits : ¬ FitsPid n)
      (hlow : ∀ p ∈ pids, ¬ ComparesUnsigned op p.toInt (wrap32 n)) :
      PidFileFits op pids (.content bytes)
  /-- The buffer ends before the number does, and every process compares with what is read as
      with the number. -/
  | cut {bytes : CStr} (hcut : leadingInt (bytes.take (sigarPathMax - 1)) ≠ leadingInt bytes)
      (hsame : ∀ p ∈ pids,
        (Chosen (ComparesUnsigned op) (storedPid (leadingInt (bytes.take (sigarPathMax - 1)))) p ↔
          Chosen (Compares op) ((leadingInt bytes).filter fun n => FitsPid n) p)) :
      PidFileFits op pids (.content bytes)

theorem fitsPid_toInt (p : SigarPid) : FitsPid p.toInt := ⟨Int32.le_toInt p, Int32.toInt_lt p⟩

/-- A pid in the file: the condition is one on the signs. -/
theorem all_comparesUnsigned_iff {n : Int} (hn : FitsPid n) :
    (∀ p ∈ pids, (ComparesUnsigned op p.toInt n ↔ Compares op p.toInt n)) ↔
      op = .eq ∨ op = .ne ∨ ∀ p ∈ pids, (p.toInt < 0 ↔ n < 0) := by
  have hone : ∀ p : SigarPid, (ComparesUnsigned op p.toInt n ↔ Compares op p.toInt n) ↔
      op = .eq ∨ op = .ne ∨ (p.toInt < 0 ↔ n < 0) :=
    fun p => compares_residue_iff (by decide) (fitsPid_toInt p) hn
  simp only [hone]
  by_cases heq : op = .eq
  · simp [heq]
  · grind

theorem filter_eq_filter_iff {α : Type} {l : List α} {f g : α → Bool} :
    l.filter f = l.filter g ↔ ∀ a ∈ l, (f a = true ↔ g a = true) := by
  constructor
  · intro h a ha
    have hf : a ∈ l.filter f ↔ f a = true := by simp [ha]
    have hg : a ∈ l.filter g ↔ g a = true := by simp [ha]
    rw [← hf, ← hg, h]
  · grind [List.filter_congr]

section Kinds

variable {bytes : CStr} {n : Int}

theorem meantPid_of_fits (hn : leadingInt bytes = some n) (hfits : FitsPid n) :
    meantPid (.content bytes) = some n := by
  rw [meantPid, hn]
  exact Option.filter_some_pos (decide_eq_true hfits)

theorem meantPid_of_not_fits (hn : leadingInt bytes = some n) (hfits : ¬ FitsPid n) :
    meantPid (.content bytes) = none := by
  rw [meantPid, hn, Option.filter_some, if_neg]
  simpa using hfits

theorem meantPid_of_none (hn : leadingInt bytes = none) : meantPid (.content bytes) = none := by
  rw [meantPid, hn]
  rfl

theorem storedPid_of_huge (hhuge : 18446744073709551616 ≤ n.natAbs) :
    storedPid (some n) = none := if_pos hhuge

theorem storedPid_of_not_huge (hhuge : ¬ 18446744073709551616 ≤ n.natAbs) :
    storedPid (some n) = some (wrap32 n) := if_neg hhuge

theorem storedPid_of_fits (hfits : FitsPid n) : storedPid (some n) = some n := by
  obtain ⟨hlow, hhigh⟩ := hfits
  rw [storedPid_of_not_huge (by omega), wrap32_of_fits hlow hhigh]

/-- With the number in the buffer, the condition says that every process compares as it is meant
    to. -/
theorem pidFileFits_of_read (hread : leadingInt (bytes.take (sigarPathMax - 1)) = leadingInt bytes)
    (h : ∀ p ∈ pids, (Chosen (ComparesUnsigned op) (storedPid (leadingInt bytes)) p ↔
      Chosen (Compares op) (meantPid (.content bytes)) p)) :
    PidFileFits op pids (.content bytes) := by
  cases hn : leadingInt bytes with
  | none =>
    rw [hn, meantPid_of_none hn] at h
    exact .noNumber (hread.trans hn) hn fun p hp => (h p hp).mp
  | some n =>
    rw [hn] at h
    by_cases hfits : FitsPid n
    · rw [storedPid_of_fits hfits, meantPid_of_fits hn hfits] at h
      exact .pid (hread.trans hn) hn hfits ((all_comparesUnsigned_iff hfits).mp h)
    · by_cases hhuge : 18446744073709551616 ≤ n.natAbs
      · exact .huge (hread.trans hn) hhuge hn
      · rw [storedPid_of_not_huge hhuge, meantPid_of_not_fits hn hfits] at h
        exact .wide (hread.trans hn) hn hfits fun p hp => (h p hp).mp

end Kinds

/-- The condition says that every process compares as it is meant to. -/
theorem pidFileFits_iff :
    PidFileFits op pids file ↔ ∀ p ∈ pids,
      (Chosen (ComparesUnsigned op) (comparedPid file) p ↔
        Chosen (Compares op) (meantPid file) p) := by
  constructor
  · intro h p hp
    cases h with
    | unreadable h =>
      cases file with
      | content bytes => exact absurd rfl (h bytes)
      | noFile | readError _ => exact Iff.rfl
    | @huge bytes n hread hhuge hn =>
      have hfits : ¬ FitsPid n := by
        rintro ⟨hlow, hhigh⟩
        omega
      rw [comparedPid, hread, storedPid_of_huge hhuge, meantPid_of_not_fits hn hfits]
      exact Iff.rfl
    | pid hread hn hfits hsign =>
      rw [comparedPid, hread, storedPid_of_fits hfits, meantPid_of_fits hn hfits]
      exact (all_comparesUnsigned_iff hfits).mpr hsign p hp
    | noNumber hread hn hzero =>
      rw [comparedPid, hread, meantPid_of_none hn]
      exact ⟨fun hc => hzero p hp hc, fun hc => hc.elim⟩
    | @wide bytes n hread hn hfits hlow =>
      rw [comparedPid, hread, meantPid_of_not_fits hn hfits]
      refine ⟨fun hc => ?_, fun hc => hc.elim⟩
      by_cases hhuge : 18446744073709551616 ≤ n.natAbs
      · rw [storedPid_of_huge hhuge] at hc
        exact hc
      · rw [storedPid_of_not_huge hhuge] at hc
        exact hlow p hp hc
    | cut hcut hsame => exact hsame p hp
  · intro h
    cases file with
    | noFile => exact .unreadable fun _ hc => nomatch hc
    | readError errno => exact .unreadable fun _ hc => nomatch hc
    | content bytes =>
      by_cases hread : leadingInt (bytes.take (sigarPathMax - 1)) = leadingInt bytes
      · rw [comparedPid, hread] at h
        exact pidFileFits_of_read hread h
      · exact .cut hread h

/-- **Pid files.**  The query selects the processes that compare with the pid in the file, and
    none if there is no pid, exactly for the files of `PidFileFits`. -/
theorem pidFile_selects_iff (hname : ',' ∉ name)
    (hcreate : sigarPtqlQueryCreate libc (pidFileText op name).render = .ok query)
    (hfile : world.file2str name = sigarFile2str sigarPathMax file) (herrno : ErrnoSet file)
    (hlist : world.procList = (sigarOk, pids)) :
    PidFileRight world query op file pids ↔ PidFileFits op pids file := by
  obtain ⟨branch, hquery, hb⟩ := pidFileQuery_branches hname hcreate
  have hfind := sigarPtqlQueryFind_filters hquery hb.filters hlist
  have hright : PidFileRight world query op file pids ↔
      pids.filter (selects world branch)
        = pids.filter fun p => Chosen (Compares op) (meantPid file) p := by
    constructor
    · rintro ⟨last, hlast⟩
      exact congrArg (fun r => r.2.2) (Except.ok.inj (hfind.symm.trans hlast))
    · intro hsame
      exact ⟨query, by rw [hfind, hsame]⟩
  rw [hright, filter_eq_filter_iff, pidFileFits_iff]
  refine forall₂_congr fun p _ => ?_
  rw [selects_iff hb hfile herrno, decide_eq_true_eq]

/-- A table of two processes and one file. -/
def World.withFile (file : FileRead) : World :=
  { World.plain [1, 2] with file2str := fun _ => sigarFile2str sigarPathMax file }

/-- The pid 2 in the file. -/
theorem pidFile_selects_iff_example :
    ∃ query, sigarPtqlQueryCreate .plain (pidFileText .ge "f".toList).render = .ok query ∧
      PidFileRight (.withFile (.content "2\n".toList)) query .ge (.content "2\n".toList) [1, 2] := by
  obtain ⟨query, hcreate, -⟩ :
      ∃ query, sigarPtqlQueryCreate .plain (pidFileText .ge "f".toList).render = .ok query ∧
        decide True = true :=
    accepted_of_test (by decide +kernel)
  have herrno : ErrnoSet (.content "2\n".toList) := trivial
  refine ⟨query, hcreate, (pidFile_selects_iff (by decide) hcreate rfl herrno rfl).mpr ?_⟩
  have hsign : ∀ p ∈ [(1 : SigarPid), 2], (p.toInt < 0 ↔ (2 : Int) < 0) :=
    List.forall_mem_cons.mpr ⟨by decide, List.forall_mem_singleton.mpr (by decide)⟩
  exact .pid (n := 2) (by decide) (by decide) (by decide) (Or.inr (Or.inr hsign))

/-- With an empty file every pid above 0 is selected, and with 2^32 + 1 in it the pid 1. -/
theorem emptyPidFile_selects :
    (∃ query, sigarPtqlQueryCreate .plain (pidFileText .gt "f".toList).render = .ok query ∧
      (sigarPtqlQueryFind (.withFile (.content [])) query).res.toOption.map (·.2)
        = some (sigarOk, [1, 2]) ∧
      meantPid (.content []) = none ∧
      ¬ PidFileRight (.withFile (.content [])) query .gt (.content []) [1, 2]) ∧
    (∃ query, sigarPtqlQueryCreate .plain (pidFileText .eq "f".toList).render = .ok query ∧
      (sigarPtqlQueryFind (.withFile (.content "4294967297".toList)) query).res.toOption.map (·.2)
        = some (sigarOk, [1]) ∧
      meantPid (.content "4294967297".toList) = none) := by
  constructor
  · obtain ⟨query, hcreate, htest⟩ :
        ∃ query, sigarPtqlQueryCreate .plain (pidFileText .gt "f".toList).render = .ok query ∧
          decide ((sigarPtqlQueryFind (.withFile (.content [])) query).res.toOption.map (·.2)
            = some (sigarOk, [1, 2])) = true :=
      accepted_of_test (by decide +kernel)
    have hfound := of_decide_eq_true htest
    refine ⟨query, hcreate, hfound, rfl, ?_⟩
    rintro ⟨last, hlast⟩
    rw [hlast] at hfound
    have hnone : some (sigarOk, ([] : List SigarPid)) = some (sigarOk, [1, 2]) := hfound
    exact absurd hnone (by decide)
  · obtain ⟨query, hcreate, htest⟩ :
        ∃ query, sigarPtqlQueryCreate .plain (pidFileText .eq "f".toList).render = .ok query ∧
          decide ((sigarPtqlQueryFind (.withFile (.content "4294967297".toList)) query
            ).res.toOption.map (·.2) = some (sigarOk, [1])) = true :=
      accepted_of_test (by decide +kernel)
    exact ⟨query, hcreate, of_decide_eq_true htest, by decide⟩

end Sigar.Ptql
