/-
  Which processes a query finds.

  The branches of the classes `Pid`, `Port` and `Service` do not match: `ptql_pid_match` says yes
  to every process.  They select the processes that are matched at all, each on its own, and what
  they select is APPENDED.  So a process is found once for every such branch that selects it, if
  the other branches hold; and the `P` modifier, which is about the match, does nothing.

  `find_exact_iff` compares this with the meaning of the query, where these branches are
  conditions like all others: `sigar_ptql_query_find` and `sigar_ptql_query_find_process` are
  exact if and only if, for every process that the other branches hold for, the NUMBER of branches
  that select it is one when it satisfies all of them and zero when it does not (and nothing
  without a meaning is evaluated on the way).
-/
import Sigar.Ptql.OpTables
import Mathlib.Data.List.Count

namespace Sigar.Ptql

open CString Logged List

/-! ## Lists that are right by their counts -/

section Counts

variable {α β : Type} [DecidableEq α]

theorem count_filter_of_nodup {l : List α} (hnodup : l.Nodup) {a : α} (ha : a ∈ l)
    (q : α → Bool) : (l.filter q).count a = if q a then 1 else 0 := by
  grind [count_filter, count_eq_one_of_mem, count_eq_zero_of_not_mem]

/-- What several selections from one list, appended, hold of each of its elements. -/
theorem count_flatMap_filter {l : List α} (hnodup : l.Nodup) {a : α} (ha : a ∈ l)
    (q : β → α → Bool) (bs : List β) :
    (bs.flatMap fun b => l.filter (q b)).count a = bs.countP fun b => q b a := by
  induction bs with
  | nil => rfl
  | cons b bs ih =>
    rw [flatMap_cons, count_append, ih, count_filter_of_nodup hnodup ha, countP_cons, Nat.add_comm]

/-- A list holds the elements of a set, each of them once, if its counts say so. -/
theorem nodup_and_mem_iff_count (l : List α) (S : α → Prop) :
    (l.Nodup ∧ ∀ a, a ∈ l ↔ S a) ↔ ∀ a, (S a → l.count a = 1) ∧ (¬ S a → l.count a = 0) := by grind

/-- Such a list has one element if the set has. -/
theorem length_eq_one_iff_existsUnique {l : List α} {S : α → Prop} (hnodup : l.Nodup)
    (hmem : ∀ a, a ∈ l ↔ S a) : l.length = 1 ↔ ∃! a, S a := by
  constructor
  · intro hlen
    obtain ⟨a, rfl⟩ := length_eq_one_iff.mp hlen
    exact ⟨a, (hmem a).mp mem_cons_self, fun b hb => mem_singleton.mp ((hmem b).mpr hb)⟩
  · rintro ⟨a, ha, hunique⟩
    have hall : ∀ b ∈ l, b = a := fun b hb => hunique b ((hmem b).mp hb)
    have hlen : l.count a = l.length := count_eq_length.mpr fun b hb => (hall b hb).symm
    rw [← hlen]
    exact count_eq_one_of_mem hnodup ((hmem a).mpr ha)

end Counts

/-! ## What a query means -/

variable {libc : Libc} {world : World} {pid : SigarPid} {pids : List SigarPid}
  {branches : List PtqlBranch} {branch : PtqlBranch} {query : PtqlQuery}

/-- The integer that a decimal text denotes, of any size. -/
def signedNumber (text : CStr) : Int :=
  let signed := takeSign (text.dropWhile isSpace)
  let n := digitsValue (signed.2.takeWhile Char.isDigit)
  if signed.1 then -(n : Int) else n

/-- What a branch of the class `Pid` or `Port` compares pids with: the number in the text, this
    process for `$$`, or the pid that a file or a port leads to.  There is none for a service. -/
def pidNeedle (libc : Libc) (world : World) (parsed : PtqlParseBranch) (branch : PtqlBranch) :
    Option Int :=
  if branch.flags.isService then none
  else if branch.flags = .pid then
    if parsed.value = "$$".toList then some libc.getpid.toInt else some (signedNumber parsed.value)
  else if (ptqlPidGet world branch).1 = sigarOk then some (ptqlPidGet world branch).2.toInt
  else none

/-- `pid op n`, for the process that the branch is about. -/
def PidHolds (libc : Libc) (world : World) (parsed : PtqlParseBranch) (branch : PtqlBranch)
    (pid : SigarPid) : Prop :=
  ∃ p op n, subject world branch pid = .ok p ∧ branch.opName.cmp? = some op ∧
    pidNeedle libc world parsed branch = some n ∧
    op.apply (fun a b : Int => decide (a = b)) (fun a b => decide (a < b)) p.toInt n = true

/-- The branch that the `i`-th piece of the query becomes, with its parsed text. -/
def IsBranchOf (libc : Libc) (ptql : CStr) (i : Nat) (parsed : PtqlParseBranch)
    (branch : PtqlBranch) : Prop :=
  ∃ piece, (pieces ptql)[i]? = some piece ∧ ptqlBranchParse piece = .ok parsed ∧
    ptqlBranchAdd libc parsed i = .ok branch

/-- The process satisfies every branch of the query. -/
def Satisfies (libc : Libc) (world : World) (ptql : CStr) (query : PtqlQuery)
    (pid : SigarPid) : Prop :=
  ∀ i parsed branch, IsBranchOf libc ptql i parsed branch →
    if branch.opFlags.pid then PidHolds libc world parsed branch pid
    else BranchHolds world query.branches pid branch

/-- The part of it that is about `Pid`, `Port` and `Service`. -/
def SatisfiesPids (libc : Libc) (world : World) (ptql : CStr) (pid : SigarPid) : Prop :=
  ∀ i parsed branch, IsBranchOf libc ptql i parsed branch → branch.opFlags.pid = true →
    PidHolds libc world parsed branch pid

/-- The process list is there, without duplicates, and every getter succeeds. -/
structure AllAnswer (world : World) (pids : List SigarPid) : Prop where
  procList : world.procList = (sigarOk, pids)
  nodup : pids.Nodup
  get : ∀ getter pid, (world.get getter pid).1 = sigarOk
  args : ∀ pid, (world.args pid).1 = sigarOk
  modules : ∀ pid, (world.modules pid).1 = sigarOk
  env : ∀ pid, (world.env pid).1 = sigarOk

/-- Both searches find exactly the processes of a set. -/
structure FindsExactly (world : World) (query : PtqlQuery) (pids : List SigarPid)
    (S : SigarPid → Prop) : Prop where
  find : ∃ last found, (sigarPtqlQueryFind world query).res = .ok (last, sigarOk, found) ∧
    found.Nodup ∧ ∀ p, p ∈ found ↔ p ∈ pids ∧ S p
  findProcess : ∃ last status out,
    (sigarPtqlQueryFindProcess world query).res = .ok (last, status, out) ∧
    (status = sigarOk ↔ ∃! p, p ∈ pids ∧ S p) ∧
    (status = sigarOk → ∃ p, out = some p ∧ p ∈ pids ∧ S p)

/-! ## What the filter selects -/

/-- The branch selects the process: its own pid compares. -/
def selects (world : World) (branch : PtqlBranch) (pid : SigarPid) : Bool :=
  !branch.flags.isService && (ptqlPidGet world branch).1 = sigarOk &&
    branch.opName.cmp?.any fun op =>
      ptqlOpUi64 op (pidToUInt64 pid) (pidToUInt64 (ptqlPidGet world branch).2)

/-- The operator of the branch is in its table, or never looked up. -/
def InTableFor (world : World) (pids : List SigarPid) (branch : PtqlBranch) : Prop :=
  branch.flags.isService = false → (ptqlPidGet world branch).1 = sigarOk → pids ≠ [] →
    branch.opName.cmp?.isSome = true

theorem pidFilter_ok {op : CmpOp} (hop : branch.opName.cmp? = some op) (matchPid : SigarPid) :
    ∀ pids : List SigarPid, (pidFilter branch matchPid pids).res
      = .ok (pids.filter fun pid => ptqlOpUi64 op (pidToUInt64 pid) (pidToUInt64 matchPid)) := by
  intro pids
  induction pids with
  | nil => rfl
  | cons pid rest ih =>
    have hone : (pidBranchMatch branch pid matchPid).res
        = .ok (ptqlOpUi64 op (pidToUInt64 pid) (pidToUInt64 matchPid)) := by
      unfold pidBranchMatch
      rw [hop]
      rfl
    rw [pidFilter, filter_cons]
    exact res_bind_eq_ok.mpr ⟨_, hone, res_bind_eq_ok.mpr ⟨_, ih, rfl⟩⟩

theorem pidFilter_fault (hop : branch.opName.cmp? = none) (matchPid : SigarPid) (pid : SigarPid)
    (rest : List SigarPid) : (pidFilter branch matchPid (pid :: rest)).res = .error .opTable := by
  have hone : (pidBranchMatch branch pid matchPid).res = .error .opTable := by
    unfold pidBranchMatch
    rw [hop]
    rfl
  rw [pidFilter, res_bind, hone]
  rfl

section Filter

variable (hlist : world.procList = (sigarOk, pids))

include hlist

theorem ptqlPidListGet_ok (hin : InTableFor world pids branch) :
    (ptqlPidListGet world branch).res = .ok (sigarOk, pids.filter (selects world branch)) := by
  cases hservice : branch.flags.isService with
  | true =>
    have hnone : pids.filter (selects world branch) = [] := by simp [hservice, selects]
    rw [ptqlPidListGet_service hservice, hnone]
    rfl
  | false =>
    rw [ptqlPidListGet_filter hservice]
    by_cases hget : (ptqlPidGet world branch).1 = sigarOk
    · rw [if_neg (not_not.mpr hget), hlist, if_neg (not_not.mpr rfl)]
      refine res_bind_eq_ok.mpr ?_
      cases hop : branch.opName.cmp? with
      | some op =>
        refine ⟨_, pidFilter_ok hop _ _, ?_⟩
        have hsame : selects world branch = fun pid =>
            ptqlOpUi64 op (pidToUInt64 pid) (pidToUInt64 (ptqlPidGet world branch).2) := by
          grind [selects]
        rw [hsame]
        rfl
      | none =>
        -- past the table nothing may be compared, so there are no processes
        have hnil : pids = [] := by
          by_contra hne
          have hsome := hin hservice hget hne
          rw [hop] at hsome
          exact nomatch hsome
        rw [hnil]
        exact ⟨[], rfl, rfl⟩
    · have hnone : pids.filter (selects world branch) = [] := by
        refine filter_eq_nil_iff.mpr fun pid _ => ?_
        unfold selects
        rw [decide_eq_false hget]
        simp
      rw [if_pos hget, hnone]
      rfl

theorem ptqlPidListGet_fault (hout : ¬ InTableFor world pids branch) :
    ∃ fault, (ptqlPidListGet world branch).res = .error fault := by
  unfold InTableFor at hout
  push Not at hout
  obtain ⟨hservice, hget, hne, hop⟩ := hout
  have hnone : branch.opName.cmp? = none := by simpa using hop
  obtain ⟨pid, rest, rfl⟩ := exists_cons_of_ne_nil hne
  refine ⟨.opTable, ?_⟩
  rw [ptqlPidListGet_filter hservice, if_neg (not_not.mpr hget), hlist, if_neg (not_not.mpr rfl),
    res_bind, pidFilter_fault hnone]
  rfl

theorem pidBranches_ok : ∀ {bs : List PtqlBranch}, (∀ b ∈ bs, InTableFor world pids b) →
    (pidBranches world bs).res
      = .ok (sigarOk, bs.flatMap fun b => pids.filter (selects world b)) := by
  intro bs
  induction bs with
  | nil => intro _; rfl
  | cons b rest ih =>
    intro hin
    have hfirst := ptqlPidListGet_ok hlist (hin b mem_cons_self)
    have hrest := ih fun x hx => hin x (mem_cons_of_mem b hx)
    rw [pidBranches, flatMap_cons]
    exact res_bind_eq_ok.mpr ⟨_, hfirst, res_bind_eq_ok.mpr ⟨_, hrest, rfl⟩⟩

theorem pidBranches_fault : ∀ {bs : List PtqlBranch}, (∃ b ∈ bs, ¬ InTableFor world pids b) →
    ∃ fault, (pidBranches world bs).res = .error fault := by
  intro bs
  induction bs with
  | nil => rintro ⟨b, hb, _⟩; exact absurd hb not_mem_nil
  | cons b rest ih =>
    intro hout
    rw [pidBranches]
    by_cases hb : InTableFor world pids b
    · have hrest : ∃ x ∈ rest, ¬ InTableFor world pids x := by grind
      obtain ⟨fault, hfault⟩ := ih hrest
      refine ⟨fault, ?_⟩
      rw [res_bind, ptqlPidListGet_ok hlist hb]
      show (pidBranches world rest >>= _).res = _
      rw [res_bind, hfault]
      rfl
    · obtain ⟨fault, hfault⟩ := ptqlPidListGet_fault hlist hb
      refine ⟨fault, ?_⟩
      rw [res_bind, hfault]
      rfl

end Filter

/-- The processes that are matched, with their multiplicities. -/
def candidates (world : World) (pids : List SigarPid) (branches : List PtqlBranch) :
    List SigarPid :=
  if branches.any (·.opFlags.pid) then
    (branches.filter (·.opFlags.pid)).flatMap fun b => pids.filter (selects world b)
  else pids

theorem mem_of_mem_candidates (h : pid ∈ candidates world pids branches) : pid ∈ pids := by
  grind [candidates, mem_filter.mp]

/-- A call of the filter sees the same branches, whatever the buffers hold. -/
theorem pidBranches_same (hany : ∀ b ∈ branches, b.opFlags.pid = true → b.lookup.type = .any)
    {now : List PtqlBranch} (h : Forall₂ Reloaded branches now) :
    now.filter (·.opFlags.pid) = branches.filter (·.opFlags.pid) := by
  induction h with
  | nil => rfl
  | @cons b b' bs now hbb' _ ih =>
    have hrest := ih fun x hx => hany x (mem_cons_of_mem b hx)
    by_cases hpid : b.opFlags.pid = true
    · obtain rfl := hbb'.eq_of_any (hany b mem_cons_self hpid)
      rw [filter_cons, filter_cons, hrest]
    · obtain ⟨data, size, rfl⟩ := hbb'.eq_withData
      have hpid' : ¬ (b.withData data size).opFlags.pid = true := hpid
      rw [filter_cons, filter_cons, hrest, if_neg hpid, if_neg hpid']

theorem any_eq_of_filter_eq {bs now : List PtqlBranch} {q : PtqlBranch → Bool}
    (h : now.filter q = bs.filter q) : now.any q = bs.any q := by
  have hany : ∀ l : List PtqlBranch, l.any q = !(l.filter q).isEmpty := by
    intro l
    induction l with
    | nil => rfl
    | cons b l ih => grind
  rw [hany, hany, h]

section ProcList

variable (hlist : world.procList = (sigarOk, pids))
  (hany : ∀ b ∈ branches, b.opFlags.pid = true → b.lookup.type = .any)
  (hsame : SameBranches branches query)

include hlist hany hsame

theorem ptqlProcListGet_ok
    (hin : ∀ b ∈ branches, b.opFlags.pid = true → InTableFor world pids b) :
    (ptqlProcListGet world query).res = .ok (sigarOk, candidates world pids branches) := by
  have hfilter := pidBranches_same hany hsame
  unfold ptqlProcListGet candidates
  rw [hfilter, any_eq_of_filter_eq hfilter]
  split
  · refine pidBranches_ok hlist fun b hb => ?_
    obtain ⟨hmem, hpid⟩ := mem_filter.mp hb
    exact hin b hmem hpid
  · rw [hlist]
    rfl

theorem ptqlProcListGet_fault
    (hout : ∃ b ∈ branches, b.opFlags.pid = true ∧ ¬ InTableFor world pids b) :
    ∃ fault, (ptqlProcListGet world query).res = .error fault := by
  obtain ⟨b, hb, hpid, hnot⟩ := hout
  have hfilter := pidBranches_same hany hsame
  unfold ptqlProcListGet
  rw [hfilter, any_eq_of_filter_eq hfilter, if_pos (any_eq_true.mpr ⟨b, hb, hpid⟩)]
  exact pidBranches_fault hlist ⟨b, mem_filter.mpr ⟨hb, hpid⟩, hnot⟩

end ProcList

/-! ## What the match loop finds -/

/-- The match says yes. -/
def passes (world : World) (branches : List PtqlBranch) (pid : SigarPid) : Bool :=
  match queryVerdict world branches pid with
  | .ok status => status = sigarOk
  | .error _ => false

theorem passes_iff (world : World) (pid : SigarPid) (hinst : ∀ b ∈ branches, Installed b) :
    passes world branches pid = true ↔ ∀ b ∈ branches, BranchHolds world branches pid b := by
  grind [queryVerdict_ok, passes]

section Loop

variable (hanswer : AllAnswer world pids)

include hanswer

/-- Where every getter succeeds a branch matches, or does not. -/
theorem branchVerdict_matched {verdict : Verdict} (hproper : branch.lookup.Proper)
    (h : branchVerdict world pid branches branch = .ok verdict) : ∃ m, verdict = .matched m := by
  obtain ⟨p, hsubject⟩ := subject_ok branch (hanswer.get .procState pid)
  unfold branchVerdict at h
  rw [hsubject] at h
  dsimp only at h
  rcases hproper with ⟨htype, _, getter, hget⟩ | ⟨htype, _, _⟩
  · rw [if_neg htype, hget] at h
    dsimp only at h
    rw [if_neg (not_not.mpr (hanswer.get getter p))] at h
    obtain ⟨m, _, hm⟩ := Fallible.map_eq_ok_iff.mp h
    exact ⟨m, hm.symm⟩
  · rw [if_pos htype] at h
    obtain ⟨_, _, hm⟩ := Fallible.map_eq_ok_iff.mp h
    exact ⟨_, hm.symm⟩

theorem verdictLoop_status : ∀ {rest : List PtqlBranch} {status : Status},
    (∀ b ∈ rest, b.lookup.Proper) → verdictLoop world pid branches rest = .ok status →
    status = sigarOk ∨ status = notMatched := by
  intro rest
  induction rest with
  | nil =>
    intro status _ h
    exact Or.inl (Except.ok.inj h).symm
  | cons b rest ih =>
    intro status hproper h
    rw [verdictLoop] at h
    cases hverdict : branchVerdict world pid branches b with
    | error fault => rw [hverdict] at h; cases h
    | ok verdict =>
      rw [hverdict] at h
      obtain ⟨m, rfl⟩ := branchVerdict_matched hanswer (hproper b mem_cons_self) hverdict
      cases m with
      | false => exact Or.inr (Except.ok.inj h).symm
      | true => exact ih (fun x hx => hproper x (mem_cons_of_mem b hx)) h

/-- So the loop over the processes is never stopped by a match. -/
theorem queryVerdict_ne_enotimpl (hsound : Sound branches) {status : Status}
    (h : queryVerdict world branches pid = .ok status) : status ≠ sigarEnotimpl := by
  rcases verdictLoop_status hanswer hsound.proper h with h | h
  · rw [h]; decide
  · rw [h]; decide

/-- **The loop finds what passes**, if every evaluation has a meaning. -/
theorem findLoop_ok (hsound : Sound branches) :
    ∀ {ps : List SigarPid} {query : PtqlQuery}, SameBranches branches query →
      (∀ p ∈ ps, ∃ status, queryVerdict world branches p = .ok status) →
      ∃ last, (findLoop world query ps).res
        = .ok (last, sigarOk, ps.filter (passes world branches)) := by
  intro ps
  induction ps with
  | nil => intro query _ _; exact ⟨query, rfl⟩
  | cons p ps ih =>
    intro query hsame hdefined
    obtain ⟨status, hstatus⟩ := hdefined p mem_cons_self
    obtain ⟨hverdict, hreloaded⟩ := sigarPtqlQueryMatch_verdict world hsound hsame p
    rw [hstatus] at hverdict
    cases hres : (sigarPtqlQueryMatch world query p).res with
    | error fault => rw [hres] at hverdict; exact nomatch hverdict
    | ok pair =>
      obtain ⟨next, status'⟩ := pair
      rw [hres] at hverdict
      obtain rfl : status' = status := Except.ok.inj hverdict
      obtain ⟨last, hlast⟩ := ih (hreloaded _ hres) fun x hx => hdefined x (mem_cons_of_mem p hx)
      have hne := queryVerdict_ne_enotimpl hanswer hsound hstatus
      have hpasses : passes world branches p = decide (status' = sigarOk) := by
        unfold passes
        rw [hstatus]
      refine ⟨last, ?_⟩
      rw [findLoop]
      refine res_bind_eq_ok.mpr ⟨_, hres, ?_⟩
      dsimp only
      rw [if_neg hne]
      refine res_bind_eq_ok.mpr ⟨_, hlast, ?_⟩
      rw [filter_cons, hpasses]
      by_cases hok : status' = sigarOk
      · simp
      · simp

theorem findLoop_fault (hsound : Sound branches) :
    ∀ {ps : List SigarPid} {query : PtqlQuery}, SameBranches branches query →
      (∃ p ∈ ps, ¬ ∃ status, queryVerdict world branches p = .ok status) →
      ∃ fault, (findLoop world query ps).res = .error fault := by
  intro ps
  induction ps with
  | nil => rintro query _ ⟨p, hp, _⟩; exact absurd hp not_mem_nil
  | cons p ps ih =>
    intro query hsame hundefined
    obtain ⟨hverdict, hreloaded⟩ := sigarPtqlQueryMatch_verdict world hsound hsame p
    rw [findLoop]
    cases hres : (sigarPtqlQueryMatch world query p).res with
    | error fault =>
      refine ⟨fault, ?_⟩
      rw [res_bind, hres]
      rfl
    | ok pair =>
      obtain ⟨next, status⟩ := pair
      rw [hres] at hverdict
      have hstatus : queryVerdict world branches p = .ok status := hverdict.symm
      have hrest : ∃ x ∈ ps, ¬ ∃ status, queryVerdict world branches x = .ok status := by grind
      obtain ⟨fault, hfault⟩ := ih (hreloaded _ hres) hrest
      have hne := queryVerdict_ne_enotimpl hanswer hsound hstatus
      refine ⟨fault, ?_⟩
      rw [res_bind, hres]
      show (if status = sigarEnotimpl then _ else findLoop world next ps >>= _ : Eval _).res = _
      rw [if_neg hne, res_bind, hfault]
      rfl

end Loop

/-! ## The two searches -/

section Search

variable (hanswer : AllAnswer world pids) (hsound : Sound branches)
  (hany : ∀ b ∈ branches, b.opFlags.pid = true → b.lookup.type = .any)
  (hsame : SameBranches branches query) (hinst : ∀ b ∈ branches, Installed b)

/-- What is found: the candidates that pass. -/
def foundPids (world : World) (pids : List SigarPid) (branches : List PtqlBranch) :
    List SigarPid :=
  (candidates world pids branches).filter (passes world branches)

/-- The filter stays in its table, and the match of no candidate comes to a branch without a
    meaning. -/
structure SearchDefined (world : World) (pids : List SigarPid) (branches : List PtqlBranch) :
    Prop where
  inTable : ∀ b ∈ branches, b.opFlags.pid = true → InTableFor world pids b
  meaningful : ∀ p ∈ candidates world pids branches, MeaningfulFrom world branches p branches

include hanswer hsound hany hsame hinst

theorem sigarPtqlQueryFind_ok (hdefined : SearchDefined world pids branches) :
    ∃ last, (sigarPtqlQueryFind world query).res
      = .ok (last, sigarOk, foundPids world pids branches) := by
  have hlist := ptqlProcListGet_ok hanswer.procList hany hsame hdefined.inTable
  obtain ⟨last, hloop⟩ := findLoop_ok hanswer hsound hsame fun p hp =>
    (queryVerdict_ok_iff world hsound hinst p).mpr (hdefined.meaningful p hp)
  exact ⟨last, res_bind_eq_ok.mpr
    ⟨_, hlist, res_bind_eq_ok.mpr ⟨_, hloop, rfl⟩⟩⟩

theorem sigarPtqlQueryFindProcess_ok (hdefined : SearchDefined world pids branches) :
    ∃ last, (sigarPtqlQueryFindProcess world query).res
      = .ok (last, if (foundPids world pids branches).length = 1 then sigarOk else -1,
          (foundPids world pids branches).getLast?) := by
  have hlist := ptqlProcListGet_ok hanswer.procList hany hsame hdefined.inTable
  obtain ⟨last, hloop⟩ := findLoop_ok hanswer hsound hsame fun p hp =>
    (queryVerdict_ok_iff world hsound hinst p).mpr (hdefined.meaningful p hp)
  exact ⟨last, res_bind_eq_ok.mpr
    ⟨_, hlist, res_bind_eq_ok.mpr ⟨_, hloop, rfl⟩⟩⟩

/-- A search that returns has evaluated nothing without a meaning. -/
theorem searchDefined_of_find {result : PtqlQuery × Status × List SigarPid}
    (h : (sigarPtqlQueryFind world query).res = .ok result) :
    SearchDefined world pids branches := by
  have hin : ∀ b ∈ branches, b.opFlags.pid = true → InTableFor world pids b := by
    intro b hb hpid
    by_contra hnot
    obtain ⟨fault, hfault⟩ := ptqlProcListGet_fault hanswer.procList hany hsame ⟨b, hb, hpid, hnot⟩
    obtain ⟨_, hlist, _⟩ := res_bind_eq_ok.mp h
    rw [hfault] at hlist
    exact nomatch hlist
  refine ⟨hin, fun p hp => (queryVerdict_ok_iff world hsound hinst p).mp ?_⟩
  by_contra hnot
  obtain ⟨fault, hfault⟩ := findLoop_fault hanswer hsound hsame ⟨p, hp, hnot⟩
  obtain ⟨pair, hlist, h⟩ := res_bind_eq_ok.mp h
  obtain rfl := Except.ok.inj ((ptqlProcListGet_ok hanswer.procList hany hsame hin).symm.trans hlist)
  obtain ⟨_, hloop, _⟩ := res_bind_eq_ok.mp h
  rw [hfault] at hloop
  exact nomatch hloop

end Search

/-! ### How often a process is found -/

theorem count_foundPids_of_not_mem (world : World) (branches : List PtqlBranch) {p : SigarPid}
    (hp : p ∉ pids) : (foundPids world pids branches).count p = 0 := by
  refine count_eq_zero_of_not_mem fun h => ?_
  exact hp (mem_of_mem_candidates (mem_filter.mp h).1)

theorem count_foundPids_of_not_passes (pids : List SigarPid) {p : SigarPid}
    (h : passes world branches p = false) : (foundPids world pids branches).count p = 0 := by
  refine count_eq_zero_of_not_mem fun hin => ?_
  have hpasses := (mem_filter.mp hin).2
  rw [h] at hpasses
  exact nomatch hpasses

/-- Once for every branch of the filter that selects it. -/
theorem count_foundPids (hnodup : pids.Nodup) {p : SigarPid} (hp : p ∈ pids)
    (h : passes world branches p = true) :
    (foundPids world pids branches).count p
      = if branches.any (·.opFlags.pid) then
          (branches.filter (·.opFlags.pid)).countP fun b => selects world b p
        else 1 := by
  unfold foundPids candidates
  rw [count_filter h]
  split
  · exact count_flatMap_filter hnodup hp (selects world) _
  · exact count_eq_one_of_mem hnodup hp

/-! ## The searches and the meaning of the query -/

section Accepted

variable {ptql : CStr} (hcreate : sigarPtqlQueryCreate libc ptql = .ok query)

include hcreate

theorem accepted_pidLookup :
    ∀ b ∈ query.branches, b.opFlags.pid = true → b.lookup.type = .any ∧ b.lookup.get = .pid := by
  intro b hb hpid
  obtain ⟨_, _, _, _, _, hbuilt⟩ := branch_comesFrom hcreate hb
  exact hbuilt.pid_lookup hpid

/-- Satisfying a query is passing the match and satisfying what the match leaves out. -/
theorem satisfies_iff (hanswer : AllAnswer world pids) (p : SigarPid) :
    Satisfies libc world ptql query p ↔
      (∀ b ∈ query.branches, BranchHolds world query.branches p b) ∧
        SatisfiesPids libc world ptql p := by
  constructor
  · intro h
    constructor
    · intro b hb
      by_cases hpid : b.opFlags.pid = true
      · -- `ptql_pid_match` says yes
        obtain ⟨htype, hget⟩ := accepted_pidLookup hcreate b hb hpid
        obtain ⟨parent, hsubject⟩ := subject_ok b (hanswer.get .procState p)
        refine ⟨parent, hsubject, ?_⟩
        rw [if_pos htype]
        unfold runMatcher
        rw [hget]
        rfl
      · obtain ⟨i, piece, parsed, hpiece, hparse, hadd⟩ := (mem_branches_iff hcreate).mp hb
        have hholds := h i parsed b ⟨piece, hpiece, hparse, hadd⟩
        rw [if_neg hpid] at hholds
        exact hholds
    · intro i parsed b hb hpid
      have hholds := h i parsed b hb
      rw [if_pos hpid] at hholds
      exact hholds
  · rintro ⟨hmatch, hpids⟩ i parsed b hb
    split
    · next hpid => exact hpids i parsed b hb hpid
    · obtain ⟨piece, hpiece, hparse, hadd⟩ := hb
      exact hmatch b ((mem_branches_iff hcreate).mpr ⟨i, piece, parsed, hpiece, hparse, hadd⟩)

/-- Without branches for the filter there is nothing to leave out. -/
theorem satisfiesPids_of_none (world : World) (hnone : query.branches.any (·.opFlags.pid) = false)
    (p : SigarPid) : SatisfiesPids libc world ptql p := by
  rintro i parsed b ⟨piece, hpiece, hparse, hadd⟩ hpid
  have hb := (mem_branches_iff hcreate).mpr ⟨i, piece, parsed, hpiece, hparse, hadd⟩
  exact absurd hpid (any_eq_false.mp hnone b hb)

end Accepted

/-- The branches of the filter select every process as often as it should be found: once if it
    satisfies all of them, and never otherwise.  Only processes that the other branches hold for
    matter. -/
def SelectsOnce (libc : Libc) (world : World) (ptql : CStr) (query : PtqlQuery)
    (pids : List SigarPid) : Prop :=
  query.branches.any (·.opFlags.pid) = true →
    ∀ p ∈ pids, (∀ b ∈ query.branches, BranchHolds world query.branches p b) →
      (SatisfiesPids libc world ptql p →
        (query.branches.filter (·.opFlags.pid)).countP (fun b => selects world b p) = 1) ∧
      (¬ SatisfiesPids libc world ptql p →
        (query.branches.filter (·.opFlags.pid)).countP (fun b => selects world b p) = 0)

/-- What is found is exact if and only if the filter selects as often as it should. -/
theorem foundPids_exact_iff {ptql : CStr} (hcreate : sigarPtqlQueryCreate libc ptql = .ok query)
    (hanswer : AllAnswer world pids) :
    ((foundPids world pids query.branches).Nodup ∧
      ∀ p, p ∈ foundPids world pids query.branches ↔
        p ∈ pids ∧ Satisfies libc world ptql query p) ↔
    SelectsOnce libc world ptql query pids := by
  have hpasses := fun p => passes_iff world p (accepted_installed hcreate)
  rw [nodup_and_mem_iff_count]
  constructor
  · intro h hany p hp hholds
    have hcount := count_foundPids hanswer.nodup hp ((hpasses p).mpr hholds)
    rw [if_pos hany] at hcount
    rw [← hcount]
    constructor
    · intro hsat
      exact (h p).1 ⟨hp, (satisfies_iff hcreate hanswer p).mpr ⟨hholds, hsat⟩⟩
    · intro hsat
      exact (h p).2 fun hc => hsat ((satisfies_iff hcreate hanswer p).mp hc.2).2
  · intro h p
    rw [satisfies_iff hcreate hanswer p]
    by_cases hp : p ∈ pids
    · by_cases hpass : passes world query.branches p = true
      · -- only here the filter decides, and it decides by its count
        have hholds := (hpasses p).mp hpass
        rw [count_foundPids hanswer.nodup hp hpass]
        cases hany : query.branches.any (·.opFlags.pid) with
        | true =>
          obtain ⟨hone, hzero⟩ := h hany p hp hholds
          exact ⟨fun hc => hone hc.2.2, fun hc => hzero fun hsat => hc ⟨hp, hholds, hsat⟩⟩
        | false =>
          have hsat := satisfiesPids_of_none hcreate world hany p
          exact ⟨fun _ => rfl, fun hc => absurd ⟨hp, hholds, hsat⟩ hc⟩
      · have hzero := count_foundPids_of_not_passes pids (Bool.not_eq_true _ ▸ hpass)
        exact ⟨fun hc => absurd ((hpasses p).mpr hc.2.1) hpass, fun _ => hzero⟩
    · have hzero := count_foundPids_of_not_mem world query.branches hp
      exact ⟨fun hc => absurd hc.1 hp, fun _ => hzero⟩

/-- **When the searches are exact**: exactly when nothing without a meaning is evaluated and the
    branches of the filter select every process as often as it should be found.  It does not
    matter what earlier calls left in the buffers. -/
theorem find_exact_iff (libc : Libc) (ptql : CStr) (query query' : PtqlQuery)
    (hcreate : sigarPtqlQueryCreate libc ptql = .ok query)
    (hsame : SameBranches query.branches query') (world : World) (pids : List SigarPid)
    (hanswer : AllAnswer world pids) :
    FindsExactly world query' pids (Satisfies libc world ptql query) ↔
      SearchDefined world pids query.branches ∧ SelectsOnce libc world ptql query pids := by
  have hsound := accepted_sound hcreate
  have hinst := accepted_installed hcreate
  have hany := fun b hb hpid => (accepted_pidLookup hcreate b hb hpid).1
  rw [← foundPids_exact_iff hcreate hanswer]
  constructor
  · -- a search that returns was defined, and what it returned is `foundPids`
    rintro ⟨⟨last, found, hres, hexact⟩, _⟩
    have hdefined := searchDefined_of_find hanswer hsound hany hsame hinst hres
    obtain ⟨last', hres'⟩ := sigarPtqlQueryFind_ok hanswer hsound hany hsame hinst hdefined
    have hfound : found = foundPids world pids query.branches := by
      have heq := Except.ok.inj (hres.symm.trans hres')
      exact congrArg (fun r => r.2.2) heq
    exact ⟨hdefined, hfound ▸ hexact⟩
  · rintro ⟨hdefined, hnodup, hmem⟩
    obtain ⟨last, hfind⟩ := sigarPtqlQueryFind_ok hanswer hsound hany hsame hinst hdefined
    obtain ⟨last', hprocess⟩ := sigarPtqlQueryFindProcess_ok hanswer hsound hany hsame hinst hdefined
    have hstatus : (if (foundPids world pids query.branches).length = 1 then sigarOk else -1)
        = sigarOk ↔ (foundPids world pids query.branches).length = 1 := by
      split
      · next h => exact ⟨fun _ => h, fun _ => rfl⟩
      · next h => exact ⟨fun hc => absurd hc (by decide), fun hc => absurd hc h⟩
    refine ⟨⟨last, _, hfind, hnodup, hmem⟩, last', _, _, hprocess, ?_, ?_⟩
    · rw [hstatus]
      exact length_eq_one_iff_existsUnique hnodup hmem
    · intro hok
      obtain ⟨p, hp⟩ := length_eq_one_iff.mp (hstatus.mp hok)
      refine ⟨p, by rw [hp]; rfl, (hmem p).mp ?_⟩
      rw [hp]
      exact mem_cons_self

theorem allAnswer_plain (hnodup : pids.Nodup) : AllAnswer (.plain pids) pids :=
  ⟨rfl, hnodup, fun _ _ => rfl, fun _ => rfl, fun _ => rfl, fun _ => rfl⟩

/-- A branch that says `Pid.Pid.eq=2` holds for process 2 only. -/
theorem pidHolds_two_iff {b : PtqlBranch} {pid : SigarPid}
    (h : b.opFlags.parent = false ∧ b.opName = .eq ∧ b.flags = .pid) :
    PidHolds .plain (.plain [1, 2]) ⟨"Pid".toList, "Pid".toList, "eq".toList, "2".toList, {}⟩ b pid ↔
      pid = 2 := by
  obtain ⟨hparent, hname, hflags⟩ := h
  have hsubject : subject (.plain [1, 2]) b pid = .ok pid := by
    rw [subject, hparent]
    rfl
  have hneedle : pidNeedle .plain (.plain [1, 2])
      ⟨"Pid".toList, "Pid".toList, "eq".toList, "2".toList, {}⟩ b = some 2 := by
    rw [pidNeedle, hflags]
    rfl
  rw [PidHolds, hsubject, hname, hneedle, ← Int32.toInt_inj]
  constructor
  · rintro ⟨p, op, n, hp, hop, hn, hholds⟩
    obtain rfl := Except.ok.inj hp
    obtain rfl := Option.some.inj hop
    obtain rfl := Option.some.inj hn
    exact of_decide_eq_true hholds
  · intro heq
    exact ⟨pid, .eq, 2, rfl, rfl, rfl, decide_eq_true heq⟩

/-- The branch that `Pid.Pid.eq=2` becomes. -/
theorem exists_eqTwo (number : Nat) (h : number < 2) :
    ∃ b, ptqlBranchAdd .plain ⟨"Pid".toList, "Pid".toList, "eq".toList, "2".toList, {}⟩ number = .ok b ∧
      b.opFlags.pid = true ∧ b.opFlags.parent = false ∧ b.opName = .eq ∧ b.flags = .pid := by
  have hadd : ∀ number < 2, (ptqlBranchAdd .plain
      ⟨"Pid".toList, "Pid".toList, "eq".toList, "2".toList, {}⟩ number).toOption.any (fun b =>
        decide (b.opFlags.pid = true ∧ b.opFlags.parent = false ∧ b.opName = .eq ∧
          b.flags = .pid)) = true := by decide +kernel
  cases hb : ptqlBranchAdd .plain ⟨"Pid".toList, "Pid".toList, "eq".toList, "2".toList, {}⟩ number with
  | error message =>
    have hnone := hadd number h
    rw [hb] at hnone
    exact nomatch hnone
  | ok b =>
    have hsome := hadd number h
    rw [hb] at hsome
    exact ⟨b, rfl, of_decide_eq_true hsome⟩

/-- A branch for the filter and one for the other processes' terminals. -/
theorem satisfiesPids_two_iff (pid : SigarPid) :
    SatisfiesPids .plain (.plain [1, 2]) "Pid.Pid.eq=2,State.Tty.ge=0".toList pid ↔ pid = 2 := by
  have hpieces : pieces "Pid.Pid.eq=2,State.Tty.ge=0".toList
      = ["Pid.Pid.eq=2".toList, "State.Tty.ge=0".toList] := by decide
  have htwo : ptqlBranchParse "Pid.Pid.eq=2".toList
      = .ok ⟨"Pid".toList, "Pid".toList, "eq".toList, "2".toList, {}⟩ := rfl
  obtain ⟨two, hadd, hpid, hrest⟩ := exists_eqTwo 0 (by decide)
  constructor
  · intro h
    exact (pidHolds_two_iff hrest).mp (h 0 _ two ⟨_, congrArg (·[0]?) hpieces, htwo, hadd⟩ hpid)
  · rintro hpid' i parsed b ⟨piece, hpiece, hparse, hb⟩ hfilter
    rw [hpieces] at hpiece
    rcases i with _ | _ | i
    · obtain rfl := Option.some.inj hpiece
      obtain rfl := Except.ok.inj (htwo.symm.trans hparse)
      obtain rfl := Except.ok.inj (hadd.symm.trans hb)
      exact (pidHolds_two_iff hrest).mpr hpid'
    · -- the branch of the second piece is none of the filter
      obtain rfl := Option.some.inj hpiece
      have hnone : ((ptqlBranchParse "State.Tty.ge=0".toList).toOption.any fun parsed =>
          (ptqlBranchAdd .plain parsed 1).toOption.any (·.opFlags.pid)) = false := by decide +kernel
      rw [hparse] at hnone
      have hnot : (ptqlBranchAdd .plain parsed 1).toOption.any (·.opFlags.pid) = false := hnone
      rw [hb] at hnot
      exact absurd hfilter (Bool.eq_false_iff.mp hnot)
    · exact nomatch hpiece

/-- A branch for the filter, which selects the second process, and one that holds for both. -/
theorem find_exact_iff_example :
    ∃ query, sigarPtqlQueryCreate .plain "Pid.Pid.eq=2,State.Tty.ge=0".toList = .ok query ∧
      FindsExactly (.plain [1, 2]) query [1, 2]
        (Satisfies .plain (.plain [1, 2]) "Pid.Pid.eq=2,State.Tty.ge=0".toList query) := by
  obtain ⟨query, hcreate, htest⟩ :
      ∃ query, sigarPtqlQueryCreate .plain "Pid.Pid.eq=2,State.Tty.ge=0".toList = .ok query ∧
        decide ((∀ b ∈ query.branches, b.opName.cmp?.isSome = true) ∧
          RefsWellTyped query.branches ∧ [1, 2].map (fun p : SigarPid =>
            (query.branches.filter (·.opFlags.pid)).countP fun b => selects (.plain [1, 2]) b p)
              = [0, 1]) = true :=
    accepted_of_test (by decide +kernel)
  obtain ⟨htable, hrefs, hcounts⟩ := of_decide_eq_true htest
  obtain ⟨hone, htwo⟩ := cons.inj hcounts
  refine ⟨query, hcreate, (find_exact_iff .plain _ query query hcreate (SameBranches.refl query)
    (.plain [1, 2]) [1, 2] (allAnswer_plain (by decide))).mpr ⟨⟨?_, ?_⟩, ?_⟩⟩
  · exact fun b hb _ _ _ _ => htable b hb
  · exact fun p _ => hrefs.meaningful (accepted_installed hcreate)
  · intro _ p hp _
    rw [satisfiesPids_two_iff]
    rcases mem_pair.mp hp with rfl | rfl
    · exact ⟨fun h => absurd h (by decide), fun _ => hone⟩
    · exact ⟨fun _ => (cons.inj htwo).1, fun h => absurd rfl h⟩

/-- Two branches of the class `Pid` find what one OR the other says, and what both say twice. -/
theorem find_inexact :
    AllAnswer (.plain [1, 2]) [1, 2] ∧
    (∃ query, sigarPtqlQueryCreate .plain "Pid.Pid.eq=1,Pid.Pid.eq=2".toList = .ok query ∧
      (sigarPtqlQueryFind (.plain [1, 2]) query).res.toOption.map (·.2) = some (sigarOk, [1, 2]) ∧
      ¬ Satisfies .plain (.plain [1, 2]) "Pid.Pid.eq=1,Pid.Pid.eq=2".toList query 1) ∧
    (∃ query, sigarPtqlQueryCreate .plain "Pid.Pid.ge=1,Pid.Pid.le=2".toList = .ok query ∧
      (sigarPtqlQueryFind (.plain [1, 2]) query).res.toOption.map (·.2)
        = some (sigarOk, [1, 2, 1, 2])) := by
  refine ⟨allAnswer_plain (by decide), ?_, ?_⟩
  · obtain ⟨query, hcreate, htest⟩ :
        ∃ query, sigarPtqlQueryCreate .plain "Pid.Pid.eq=1,Pid.Pid.eq=2".toList = .ok query ∧
          decide ((sigarPtqlQueryFind (.plain [1, 2]) query).res.toOption.map (·.2)
            = some (sigarOk, [1, 2])) = true :=
      accepted_of_test (by decide +kernel)
    refine ⟨query, hcreate, of_decide_eq_true htest, fun hsat => ?_⟩
    -- the branch of the second piece
    obtain ⟨b, hadd, hpid, hrest⟩ := exists_eqTwo 1 (by decide)
    have hholds := hsat 1 _ b ⟨"Pid.Pid.eq=2".toList, by decide +kernel, rfl, hadd⟩
    rw [if_pos hpid] at hholds
    exact absurd ((pidHolds_two_iff hrest).mp hholds) (by decide)
  · obtain ⟨query, hcreate, htest⟩ :
        ∃ query, sigarPtqlQueryCreate .plain "Pid.Pid.ge=1,Pid.Pid.le=2".toList = .ok query ∧
          decide ((sigarPtqlQueryFind (.plain [1, 2]) query).res.toOption.map (·.2)
            = some (sigarOk, [1, 2, 1, 2])) = true :=
      accepted_of_test (by decide +kernel)
    exact ⟨query, hcreate, of_decide_eq_true htest⟩

end Sigar.Ptql
