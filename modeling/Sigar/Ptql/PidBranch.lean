/-
  Queries of one branch that filters the process list.

  A query is built from the text of one branch (`singleBranch`); if the branch is of the classes
  `Pid` or `Port`, what the query finds are the processes that it selects
  (`sigarPtqlQueryFind_filters`).
-/
import Sigar.Ptql.RoundTrip
import Sigar.Ptql.Selection

namespace Sigar.Ptql

open CString Logged List

variable {libc : Libc} {world : World} {query : PtqlQuery} {branch : PtqlBranch} {op : CmpOp}
  {pids : List SigarPid}

/-! ## The branch -/

theorem BuiltFrom.singleton {start : Nat} {piece : CStr} {bs : List PtqlBranch}
    (h : BuiltFrom libc start [piece] bs) :
    ∃ parsed branch, bs = [branch] ∧ ptqlBranchParse piece = .ok parsed ∧
      ptqlBranchAdd libc parsed start = .ok branch := by
  cases bs with
  | nil => exact h.elim
  | cons branch rest =>
    cases rest with
    | cons _ _ => exact h.2.elim
    | nil =>
      obtain ⟨⟨parsed, hparse, hadd⟩, -⟩ := h
      exact ⟨parsed, branch, rfl, hparse, hadd⟩

/-- **The branch of the query**: there is one, and it is built from the components of the text. -/
theorem singleBranch {b : BranchText} (hvalid : b.Valid) (hservice : b.attr ≠ "Service".toList)
    (hcreate : sigarPtqlQueryCreate libc b.render = .ok query) :
    ∃ branch, query.branches = [branch] ∧ BuiltBranch libc b.components 0 branch := by
  have hparse : ptqlBranchParse b.render = .ok b.components :=
    (ptqlBranchParse_render_iff hvalid).mpr fun h => absurd h hservice
  obtain ⟨branches, hbuilt, hperm⟩ := branches_perm hcreate
  rw [pieces_no_comma hvalid.render_no_comma] at hbuilt
  obtain ⟨parsed, branch, rfl, hparsed, hadd⟩ := hbuilt.singleton
  rw [hparse] at hparsed
  obtain rfl := Except.ok.inj hparsed
  exact ⟨branch, perm_singleton.mp hperm, ptqlBranchAdd_built hparse hadd⟩

/-- A branch that filters the process list by a comparison. -/
structure Filters (op : CmpOp) (branch : PtqlBranch) : Prop where
  cmp : branch.opName.cmp? = some op
  type : branch.lookup.type = .any
  get : branch.lookup.get = .pid
  pid : branch.opFlags.pid = true
  parent : branch.opFlags.parent = false

/-! ## The selection -/

/-- The branch itself matches every process. -/
theorem sigarPtqlQueryMatch_filters (hquery : query.branches = [branch]) (hb : Filters op branch)
    (world : World) (p : SigarPid) :
    (sigarPtqlQueryMatch world query p).res = .ok (query, sigarOk) := by
  have hmatch : (runMatcher world branch p).res = .ok sigarOk := by
    rw [runMatcher, hb.get]
    rfl
  have heval : (evalBranch world p [] branch []).res = .ok (branch, .matched true) := by
    rw [evalBranch, subject, hb.parent]
    dsimp only [Bool.false_eq_true, if_false]
    rw [if_neg Bool.false_ne_true]
    dsimp only
    rw [if_pos hb.type]
    exact res_bind_eq_ok.mpr ⟨_, hmatch, rfl⟩
  obtain ⟨branches⟩ := query
  obtain rfl : branches = [branch] := hquery
  refine res_bind_eq_ok.mpr ⟨([branch], sigarOk), ?_, rfl⟩
  exact res_bind_eq_ok.mpr ⟨_, heval, rfl⟩

theorem findLoop_filters (hquery : query.branches = [branch]) (hb : Filters op branch)
    (world : World) : ∀ ps, (findLoop world query ps).res = .ok (query, sigarOk, ps) := by
  intro ps
  induction ps with
  | nil => rfl
  | cons p ps ih =>
    refine res_bind_eq_ok.mpr ⟨_, sigarPtqlQueryMatch_filters hquery hb world p, ?_⟩
    dsimp only
    rw [if_neg (by decide)]
    exact res_bind_eq_ok.mpr ⟨_, ih, rfl⟩

/-- **What the query finds** are the processes that the branch selects. -/
theorem sigarPtqlQueryFind_filters (hquery : query.branches = [branch]) (hb : Filters op branch)
    (hlist : world.procList = (sigarOk, pids)) :
    (sigarPtqlQueryFind world query).res
      = .ok (query, sigarOk, pids.filter (selects world branch)) := by
  have hin : InTableFor world pids branch := fun _ _ _ => by
    rw [hb.cmp]
    rfl
  have hone : (pidBranches world [branch]).res
      = .ok (sigarOk, [branch].flatMap fun b => pids.filter (selects world b)) :=
    pidBranches_ok hlist fun b hmem => by
      rw [mem_singleton.mp hmem]
      exact hin
  have hprocs : (ptqlProcListGet world query).res
      = .ok (sigarOk, pids.filter (selects world branch)) := by
    have hfilter : [branch].filter (·.opFlags.pid) = [branch] := filter_cons_of_pos hb.pid
    rw [ptqlProcListGet, hquery, if_pos (any_eq_true.mpr ⟨branch, mem_singleton_self _, hb.pid⟩),
      hfilter, hone, flatMap_singleton]
  exact res_bind_eq_ok.mpr ⟨_, hprocs, res_bind_eq_ok.mpr
    ⟨_, findLoop_filters hquery hb world _, rfl⟩⟩

end Sigar.Ptql
