/-
  The order of the branches.

  Two things arrange the branches of a query: the text, and a `qsort` by type that may leave
  branches of one type in any order.  `sigar_ptql_query_match` returns the status of the first
  branch that fails, and `sigar_ptql_query_find` gives up if that is `SIGAR_ENOTIMPL`, to "let
  caller know query is invalid".

  1. **Rearranging a query** — `Rearranged`: the same pieces in another order.  Without references
     they are accepted again, and become the same branches (`create_rearranged`).
  2. **The search, branch by branch** — `branchStatus` is what one branch says about one process;
     a search is the one of `FirstFailure` (`findOutcome_eq`).
  3. **When the order does not matter** — `find_order_iff`, by the rule of the library.  Whether
     the caller is let know depends on WHICH branch fails first, and so on the order, as soon as a
     branch that is not implemented shares its type with one that just does not match.
-/
import Sigar.Ptql.Selection
import Sigar.Lib.FirstFailure
import Mathlib.Data.List.Perm.Basic

namespace Sigar.Ptql

open CString FirstFailure Logged List

variable {libc libc' : Libc} {world : World} {query : PtqlQuery} {branch : PtqlBranch}
  {branches : List PtqlBranch} {parsed : PtqlParseBranch} {pid : SigarPid}

/-! ## Rearranging a query -/

/-- The two libraries differ in their heap and their sort only. -/
structure SameEnvironment (libc libc' : Libc) : Prop where
  getenv : libc'.getenv = libc.getenv
  getpid : libc'.getpid = libc.getpid
  strtod : libc'.strtod = libc.strtod

/-- The pieces, each with the address to which the value of its branch is copied. -/
def placed (libc : Libc) : Nat → List CStr → List (CStr × UInt64)
  | _, [] => []
  | start, piece :: rest => (piece, libc.heap start) :: placed libc (start + 1) rest

/-- The second text has the pieces of the first in any order; the library sorts in any way. -/
structure Rearranged (libc : Libc) (ptql : CStr) (libc' : Libc) (ptql' : CStr) : Prop where
  env : SameEnvironment libc libc'
  perm : (placed libc' 0 (pieces ptql')).Perm (placed libc 0 (pieces ptql))

/-- No reference, and no branch for the process list. -/
structure Unlinked (query : PtqlQuery) : Prop where
  ref : ∀ b ∈ query.branches, b.opFlags.ref = false
  pid : ∀ b ∈ query.branches, b.opFlags.pid = false

theorem Unlinked.perm {query' : PtqlQuery} (h : Unlinked query)
    (hperm : query'.branches.Perm query.branches) : Unlinked query' :=
  ⟨fun b hb => h.ref b (hperm.mem_iff.mp hb), fun b hb => h.pid b (hperm.mem_iff.mp hb)⟩

theorem runInit_same (h : SameEnvironment libc libc') (blank : PtqlBranch) (fn : Option InitFn) :
    runInit libc' parsed blank fn = runInit libc parsed blank fn := by
  cases fn with
  | none => rfl
  | some fn =>
    cases fn with
    | pid => rw [runInit, runInit, ptqlBranchInitPid, ptqlBranchInitPid, h.getpid]
    | args | any | port | service => rfl

theorem literalValue_same (h : SameEnvironment libc libc') {i j : Nat}
    (hheap : libc'.heap j = libc.heap i) (type : PtqlValueType) (value : CStr) :
    literalValue libc' type j value = literalValue libc type i value := by
  simp [literalValue, h.strtod, hheap]

/-- **A branch without a reference** does not depend on its place in the query. -/
theorem ptqlBranchAdd_same (h : SameEnvironment libc libc') {i j : Nat}
    (hheap : libc'.heap j = libc.heap i) (hadd : ptqlBranchAdd libc parsed i = .ok branch)
    (href : branch.opFlags.ref = false) : ptqlBranchAdd libc' parsed j = .ok branch := by
  obtain ⟨opName, lookup, init, matchFn, hop, hlookup, hinit, hmatch, hvalue⟩ :=
    ptqlBranchAdd_ok hadd
  rw [← runInit_same h] at hinit
  rw [ptqlBranchAdd, hop, hlookup]
  dsimp only
  rw [hinit]
  dsimp only
  rw [hmatch]
  dsimp only
  rcases hvalue with ⟨hdollar, hre, hvar⟩ | ⟨hdollar, value, hlit, rfl⟩
  · rw [if_pos hdollar, if_neg hre]
    rcases variableValue_ok hvar with ⟨-, -, rfl⟩ | ⟨hdigit, rfl⟩
    · cases href
    · rw [variableValue, if_neg (by rw [hdigit]; exact Bool.false_ne_true), h.getenv, hheap]
  · rw [if_neg hdollar, literalValue_same h hheap, hlit]

/-- What the branch of a placed piece is. -/
def PlacedBranch (libc : Libc) (place : CStr × UInt64) (branch : PtqlBranch) : Prop :=
  branch.opFlags.ref = false ∧ ∃ parsed i, ptqlBranchParse place.1 = .ok parsed ∧
    libc.heap i = place.2 ∧ ptqlBranchAdd libc parsed i = .ok branch

theorem BuiltFrom.placed : ∀ {ps : List CStr} {start : Nat} {bs : List PtqlBranch},
    BuiltFrom libc start ps bs → (∀ b ∈ bs, b.opFlags.ref = false) →
    Forall₂ (PlacedBranch libc) (placed libc start ps) bs := by
  intro ps
  induction ps with
  | nil =>
    intro start bs hbuilt _
    cases bs with
    | nil => exact .nil
    | cons b bs => exact hbuilt.elim
  | cons piece ps ih =>
    intro start bs hbuilt href
    cases bs with
    | nil => exact hbuilt.elim
    | cons b bs =>
      obtain ⟨⟨parsed, hparse, hadd⟩, hrest⟩ := hbuilt
      obtain ⟨hb, hbs⟩ := forall_mem_cons.mp href
      exact .cons ⟨hb, parsed, start, hparse, rfl, hadd⟩ (ih hrest hbs)

theorem addPieces_placed (h : SameEnvironment libc libc') :
    ∀ {ps : List CStr} {before bs : List PtqlBranch},
    Forall₂ (PlacedBranch libc) (Ptql.placed libc' before.length ps) bs →
    addPieces libc' before ps = .ok (before ++ bs) := by
  intro ps
  induction ps with
  | nil =>
    intro before bs hplaced
    cases hplaced
    rw [addPieces, append_nil]
  | cons piece ps ih =>
    intro before bs hplaced
    rw [Ptql.placed] at hplaced
    cases hplaced with
    | @cons _ b _ rest hb hrest =>
      obtain ⟨href, parsed, i, hparse, hheap, hadd⟩ := hb
      have hadd' := ptqlBranchAdd_same h hheap.symm hadd href
      rw [addPieces, hparse]
      dsimp only
      rw [hadd']
      dsimp only
      have hlen : (before ++ [b]).length = before.length + 1 := by simp
      rw [ih (by rw [hlen]; exact hrest), append_assoc]
      rfl

/-- **A rearranged query is accepted again**, and its branches are those of the first. -/
theorem create_rearranged {ptql ptql' : CStr} (hre : Rearranged libc ptql libc' ptql')
    (hcreate : sigarPtqlQueryCreate libc ptql = .ok query) (hlink : Unlinked query) :
    ∃ query', sigarPtqlQueryCreate libc' ptql' = .ok query' ∧
      query'.branches.Perm query.branches ∧ query'.branches.Pairwise ptqlBranchLe := by
  obtain ⟨bs, hbuilt, hperm⟩ := branches_perm hcreate
  have href : ∀ b ∈ bs, b.opFlags.ref = false := fun b hb => hlink.ref b (hperm.mem_iff.mpr hb)
  -- the branches follow their pieces
  obtain ⟨bs', hplaced, hperm'⟩ := perm_comp_forall₂ hre.perm (hbuilt.placed href)
  have hadd : addPieces libc' [] (pieces ptql') = .ok bs' := by
    have h : addPieces libc' [] (pieces ptql') = .ok ([] ++ bs') := addPieces_placed hre.env hplaced
    rwa [nil_append] at h
  have hnoRef : bs'.any (·.opFlags.ref) = false := by grind
  refine ⟨⟨libc'.qsort bs'⟩, ?_, ?_, libc'.qsort_sorted bs'⟩
  · rw [sigarPtqlQueryCreate, hadd]
    dsimp only
    rw [if_neg (by rw [hnoRef]; exact Bool.false_ne_true)]
  · exact ((libc'.qsort_perm bs').trans hperm').trans hperm.symm

/-! ## The search, branch by branch -/

/-- What a branch without a reference says about a process: the status with which the loop ends
    there, or OK. -/
def branchStatus (world : World) (pid : SigarPid) (branch : PtqlBranch) : Status :=
  match branchVerdict world pid [] branch with
  | .ok (.matched true) => sigarOk
  | .ok (.stop status) => status
  | _ => notMatched

/-- What is returned for the result of a search. -/
def reported : Option (List SigarPid) → Status × List SigarPid
  | none => (sigarEnotimpl, [])
  | some found => (sigarOk, found)

/-- The outcome of `sigar_ptql_query_find`. -/
def findOutcome (world : World) (query : PtqlQuery) : Except Fault (Status × List SigarPid) :=
  (sigarPtqlQueryFind world query).res.map (·.2)

theorem branchVerdict_noRef (href : branch.opFlags.ref = false) (branches : List PtqlBranch) :
    branchVerdict world pid branches branch = branchVerdict world pid [] branch := by
  grind [compareFresh, branchVerdict]

/-- Such a branch never faults. -/
theorem branchVerdict_defined (hinst : Installed branch) (href : branch.opFlags.ref = false) :
    ∃ verdict, branchVerdict world pid [] branch = .ok verdict := by
  refine (branchVerdict_ok_iff hinst fun h => ?_).mpr ?_
  · rw [href] at h
    cases h
  · rintro (⟨-, hill, -⟩ | ⟨htype, hwild, -⟩)
    · rw [href] at hill
      cases hill
    · rw [hinst.ref_of_wild htype hwild] at href
      cases href

/-- The loop returns the status of the first branch that fails. -/
theorem verdictLoop_firstFailure (branches : List PtqlBranch) : ∀ {rest : List PtqlBranch},
    (∀ b ∈ rest, Installed b ∧ b.opFlags.ref = false) →
    verdictLoop world pid branches rest
      = .ok (firstFailure sigarOk (branchStatus world pid) rest) := by
  intro rest
  induction rest with
  | nil => intro _; rfl
  | cons b rest ih =>
    intro hall
    obtain ⟨⟨hinst, href⟩, hrest⟩ := forall_mem_cons.mp hall
    obtain ⟨verdict, hverdict⟩ := @branchVerdict_defined world b pid hinst href
    rw [verdictLoop, branchVerdict_noRef href, firstFailure, hverdict]
    cases verdict with
    | stop status =>
      have hstatus : branchStatus world pid b = status := by rw [branchStatus, hverdict]
      rw [hstatus, if_neg (branchVerdict_stop hverdict)]
    | matched m =>
      cases m with
      | true =>
        have hstatus : branchStatus world pid b = sigarOk := by rw [branchStatus, hverdict]
        rw [if_pos hstatus]
        exact ih hrest
      | false =>
        have hstatus : branchStatus world pid b = notMatched := by rw [branchStatus, hverdict]
        rw [hstatus, if_neg (by decide)]

section Search

variable (hsound : Sound branches) (hall : ∀ b ∈ branches, Installed b ∧ b.opFlags.ref = false)

include hsound hall

/-- A call of `sigar_ptql_query_match`, whatever the buffers hold. -/
theorem queryMatch_firstFailure (hsame : SameBranches branches query) (p : SigarPid) :
    ∃ next, (sigarPtqlQueryMatch world query p).res
        = .ok (next, firstFailure sigarOk (branchStatus world p) branches) ∧
      SameBranches branches next := by
  obtain ⟨hverdict, hreloaded⟩ := sigarPtqlQueryMatch_verdict world hsound hsame p
  rw [queryVerdict, verdictLoop_firstFailure branches hall] at hverdict
  cases hres : (sigarPtqlQueryMatch world query p).res with
  | error fault =>
    rw [hres] at hverdict
    cases hverdict
  | ok pair =>
    rw [hres] at hverdict
    refine ⟨pair.1, ?_, hreloaded pair hres⟩
    rw [← Except.ok.inj hverdict]

/-- The loop over the processes: it stops at the first one that is not implemented. -/
theorem findLoop_search : ∀ {ps : List SigarPid} {query : PtqlQuery},
    SameBranches branches query →
    ∃ last status found, (findLoop world query ps).res = .ok (last, status, found) ∧
      (status, if status ≠ sigarOk then [] else found)
        = reported (search sigarOk sigarEnotimpl (branchStatus world) ps branches) := by
  intro ps
  induction ps with
  | nil =>
    intro query _
    refine ⟨query, sigarOk, [], rfl, ?_⟩
    rw [search_of_going (by simp)]
    rfl
  | cons p ps ih =>
    intro query hsame
    obtain ⟨next, hmatch, hnext⟩ := @queryMatch_firstFailure world query branches hsound hall hsame p
    rw [search_cons]
    by_cases hstop : firstFailure sigarOk (branchStatus world p) branches = sigarEnotimpl
    · refine ⟨next, sigarEnotimpl, [], res_bind_eq_ok.mpr ⟨_, hmatch, ?_⟩, ?_⟩
      · dsimp only
        rw [if_pos hstop, hstop]
        rfl
      · rw [if_pos hstop]
        rfl
    · obtain ⟨last, status, found, hloop, hrest⟩ := ih hnext
      refine ⟨last, status, if firstFailure sigarOk (branchStatus world p) branches = sigarOk
        then p :: found else found, res_bind_eq_ok.mpr ⟨_, hmatch, ?_⟩, ?_⟩
      · dsimp only
        rw [if_neg hstop]
        exact res_bind_eq_ok.mpr ⟨_, hloop, rfl⟩
      · rw [if_neg hstop]
        cases hsearch : search sigarOk sigarEnotimpl (branchStatus world) ps branches with
        | none =>
          rw [hsearch] at hrest
          have hstatus : status = sigarEnotimpl := congrArg Prod.fst hrest
          rw [hstatus]
          rfl
        | some rest =>
          rw [hsearch] at hrest
          have hstatus : status = sigarOk := congrArg Prod.fst hrest
          subst hstatus
          have hfound : found = rest := congrArg Prod.snd hrest
          rw [hfound]
          rfl

end Search

/-- **What a search finds**, without references and branches for the process list. -/
theorem findOutcome_eq {ptql : CStr} (hcreate : sigarPtqlQueryCreate libc ptql = .ok query)
    (hlink : Unlinked query) (world : World) :
    findOutcome world query = .ok (if world.procList.1 ≠ sigarOk then (world.procList.1, [])
      else reported (search sigarOk sigarEnotimpl (branchStatus world) world.procList.2
        query.branches)) := by
  have hall : ∀ b ∈ query.branches, Installed b ∧ b.opFlags.ref = false :=
    fun b hb => ⟨accepted_installed hcreate b hb, hlink.ref b hb⟩
  have hlist : ptqlProcListGet world query = pure world.procList := by
    grind [ptqlProcListGet, any_eq_true, hlink.pid]
  rw [findOutcome, sigarPtqlQueryFind, hlist, res_bind]
  by_cases hstatus : world.procList.1 ≠ sigarOk
  · rw [if_pos hstatus]
    show Except.map _ (Logged.res (if world.procList.1 ≠ sigarOk then _ else _)) = _
    rw [if_pos hstatus]
    rfl
  · obtain ⟨last, status, found, hloop, hfound⟩ :=
      @findLoop_search world query.branches (accepted_sound hcreate) hall world.procList.2 query
        (SameBranches.refl query)
    rw [if_neg hstatus]
    show Except.map _ (Logged.res (if world.procList.1 ≠ sigarOk then _ else _)) = _
    rw [if_neg hstatus, res_bind, hloop, ← hfound]
    rfl

/-! ## When the order does not matter -/

/-- The place of a branch among the others. -/
def branchRank (branch : PtqlBranch) : Nat := branch.lookup.type.index

/-- Every rearrangement is accepted, and finds the same. -/
def OrderIrrelevant (libc : Libc) (ptql : CStr) (world : World) (query : PtqlQuery) : Prop :=
  ∀ libc' ptql', Rearranged libc ptql libc' ptql' →
    ∃ query', sigarPtqlQueryCreate libc' ptql' = .ok query' ∧
      findOutcome world query' = findOutcome world query

theorem reported_injective {found found' : Option (List SigarPid)}
    (h : reported found = reported found') : found = found' := by
  have hdiffer : sigarEnotimpl ≠ sigarOk := by decide
  cases found with
  | none =>
    cases found' with
    | none => rfl
    | some _ => exact absurd (congrArg Prod.fst h) hdiffer
  | some _ =>
    cases found' with
    | none => exact absurd (congrArg Prod.fst h) hdiffer.symm
    | some _ => exact congrArg some (congrArg Prod.snd h)

section Arrangements

variable {ptql : CStr} (hcreate : sigarPtqlQueryCreate libc ptql = .ok query)
  (hlink : Unlinked query)

include hcreate hlink

/-- The branches come from a sort. -/
theorem exists_sorted :
    ∃ bs, addPieces libc [] (pieces ptql) = .ok bs ∧ bs.any (·.opFlags.ref) = false ∧
      query.branches = libc.qsort bs := by
  rw [sigarPtqlQueryCreate] at hcreate
  cases hadd : addPieces libc [] (pieces ptql) with
  | error message =>
    rw [hadd] at hcreate
    cases hcreate
  | ok bs => grind [hlink.ref]

theorem arranged_self : Arranged branchRank query.branches query.branches := by
  obtain ⟨bs, -, -, hsorted⟩ := exists_sorted hcreate hlink
  refine ⟨.refl _, ?_⟩
  rw [hsorted]
  exact libc.qsort_sorted bs

/-- Every arrangement is the work of some `qsort`. -/
theorem exists_qsort {checks : List PtqlBranch}
    (harr : Arranged branchRank query.branches checks) :
    ∃ libc', Rearranged libc ptql libc' ptql ∧
      sigarPtqlQueryCreate libc' ptql = .ok ⟨checks⟩ := by
  classical
  obtain ⟨bs, hadd, hnoRef, hsorted⟩ := exists_sorted hcreate hlink
  have hperm : checks.Perm bs := harr.1.trans (hsorted ▸ libc.qsort_perm bs)
  let libc' : Libc := { libc with
    qsort := fun input => if input = bs then checks else libc.qsort input
    qsort_perm := by
      intro input
      split
      · next h => rw [h]; exact hperm
      · exact libc.qsort_perm input
    qsort_sorted := by
      intro input
      split
      · exact harr.2
      · exact libc.qsort_sorted input }
  have henv : SameEnvironment libc libc' := ⟨rfl, rfl, rfl⟩
  have hplaced : ∀ (ps : List CStr) (start : Nat), placed libc' start ps = placed libc start ps := by
    intro ps
    induction ps with
    | nil => intro start; rfl
    | cons piece ps ih =>
      intro start
      rw [placed, placed, ih]
  refine ⟨libc', ⟨henv, by rw [hplaced]⟩, ?_⟩
  have hadd' : addPieces libc' [] (pieces ptql) = .ok bs := by
    obtain ⟨bs', hbs', hbuilt⟩ := addPieces_ok hadd
    obtain rfl : bs = bs' := hbs'
    have href : ∀ b ∈ bs, b.opFlags.ref = false := by
      intro b hb
      simpa using any_eq_false.mp hnoRef b hb
    have h : addPieces libc' [] (pieces ptql) = .ok ([] ++ bs) :=
      addPieces_placed henv (by rw [hplaced]; exact hbuilt.placed href)
    rwa [nil_append] at h
  rw [sigarPtqlQueryCreate, hadd']
  dsimp only
  rw [if_neg (by rw [hnoRef]; exact Bool.false_ne_true)]
  exact congrArg (fun branches => Except.ok (PtqlQuery.mk branches)) (if_pos rfl)

end Arrangements

/-- **The order of the branches.**  A query without references and branches for the process list
    finds the same in every order exactly if the processes cannot be listed, or no process has a
    branch that is not implemented among its failing branches of the lowest type, or there are
    processes for which such a branch comes first in any order. -/
theorem find_order_iff {ptql : CStr} (hcreate : sigarPtqlQueryCreate libc ptql = .ok query)
    (hlink : Unlinked query) (world : World) :
    OrderIrrelevant libc ptql world query ↔
      world.procList.1 ≠ sigarOk ∨
      (∀ p ∈ world.procList.2, ∀ b,
        Lowest sigarOk branchRank query.branches (branchStatus world p) b →
          branchStatus world p b ≠ sigarEnotimpl) ∨
      ∃ subjects, subjects ⊆ world.procList.2 ∧
        Blocking sigarOk sigarEnotimpl branchRank (branchStatus world) query.branches subjects := by
  have hbad : sigarEnotimpl ≠ sigarOk := by decide
  by_cases hlist : world.procList.1 ≠ sigarOk
  · refine ⟨fun _ => Or.inl hlist, fun _ libc' ptql' hre => ?_⟩
    obtain ⟨query', hcreate', hperm, -⟩ := create_rearranged hre hcreate hlink
    refine ⟨query', hcreate', ?_⟩
    rw [findOutcome_eq hcreate' (hlink.perm hperm), findOutcome_eq hcreate hlink, if_pos hlist,
      if_pos hlist]
  · rw [or_iff_right hlist, ← search_stable_iff hbad query.branches world.procList.2]
    constructor
    · intro hsame
      -- both arrangements find what the query finds
      have hfinds : ∀ checks, Arranged branchRank query.branches checks →
          search sigarOk sigarEnotimpl (branchStatus world) world.procList.2 checks
            = search sigarOk sigarEnotimpl (branchStatus world) world.procList.2
                query.branches := by
        intro checks harr
        obtain ⟨libc', hre, hsorted⟩ := exists_qsort hcreate hlink harr
        obtain ⟨query', hcreate', houtcome⟩ := hsame libc' ptql hre
        obtain rfl : ⟨checks⟩ = query' := Except.ok.inj (hsorted.symm.trans hcreate')
        rw [findOutcome_eq hsorted (hlink.perm harr.1), findOutcome_eq hcreate hlink, if_neg hlist,
          if_neg hlist] at houtcome
        exact reported_injective (Except.ok.inj houtcome)
      intro checks checks' harr harr'
      rw [hfinds checks harr, hfinds checks' harr']
    · intro hstable libc' ptql' hre
      obtain ⟨query', hcreate', hperm, hsorted⟩ := create_rearranged hre hcreate hlink
      refine ⟨query', hcreate', ?_⟩
      rw [findOutcome_eq hcreate' (hlink.perm hperm), findOutcome_eq hcreate hlink, if_neg hlist,
        if_neg hlist,
        hstable query'.branches query.branches ⟨hperm, hsorted⟩ (arranged_self hcreate hlink)]

instance (query : PtqlQuery) : Decidable (Unlinked query) :=
  decidable_of_iff ((∀ b ∈ query.branches, b.opFlags.ref = false) ∧
    ∀ b ∈ query.branches, b.opFlags.pid = false) ⟨fun h => ⟨h.1, h.2⟩, fun h => ⟨h.ref, h.pid⟩⟩

/-- Of two branches the one fails for every process, but is implemented. -/
theorem find_order_iff_example :
    ∃ query, sigarPtqlQueryCreate .plain "Time.User.eq=1,Mem.Size.eq=0".toList = .ok query ∧
      Unlinked query ∧ (findOutcome (.plain [1, 2]) query).toOption = some (sigarOk, []) ∧
      OrderIrrelevant .plain "Time.User.eq=1,Mem.Size.eq=0".toList (.plain [1, 2]) query := by
  obtain ⟨query, hcreate, htest⟩ :
      ∃ query, sigarPtqlQueryCreate .plain "Time.User.eq=1,Mem.Size.eq=0".toList = .ok query ∧
        decide (Unlinked query ∧
          (findOutcome (.plain [1, 2]) query).toOption = some (sigarOk, []) ∧
          ∀ b ∈ query.branches, branchStatus (.plain [1, 2]) 1 b ≠ sigarEnotimpl ∧
            branchStatus (.plain [1, 2]) 2 b ≠ sigarEnotimpl) = true :=
    accepted_of_test (by decide +kernel)
  obtain ⟨hlink, hfinds, himpl⟩ := of_decide_eq_true htest
  refine ⟨query, hcreate, hlink, hfinds, (find_order_iff hcreate hlink _).mpr (.inr (.inl ?_))⟩
  intro p hp b hlow
  rcases mem_pair.mp hp with rfl | rfl
  · exact (himpl b hlow.mem).1
  · exact (himpl b hlow.mem).2

/-- A system without process times. -/
def World.timeless : World :=
  { World.plain [1, 2] with
    get := fun getter _ =>
      (if getter = .procTime then sigarEnotimpl else sigarOk, Block.zero) }

/-- The library with the first two addresses exchanged. -/
def Libc.exchanged : Libc :=
  { Libc.plain with heap := fun number => Libc.plain.heap (if number = 0 then 1 else 0) }

/-- Whether the caller is told that there are no process times is up to the order. -/
theorem timeOrder_decides :
    Rearranged .plain "Time.User.eq=1,Mem.Size.eq=1".toList .exchanged
      "Mem.Size.eq=1,Time.User.eq=1".toList ∧
    (∃ query, sigarPtqlQueryCreate .plain "Time.User.eq=1,Mem.Size.eq=1".toList = .ok query ∧
      Unlinked query ∧ (findOutcome .timeless query).toOption = some (sigarEnotimpl, [])) ∧
    ∃ query, sigarPtqlQueryCreate .exchanged "Mem.Size.eq=1,Time.User.eq=1".toList = .ok query ∧
      (findOutcome .timeless query).toOption = some (sigarOk, []) := by
  refine ⟨⟨⟨rfl, rfl, rfl⟩, ?_⟩, ?_, ?_⟩
  · have hpieces : pieces "Time.User.eq=1,Mem.Size.eq=1".toList
        = ["Time.User.eq=1".toList, "Mem.Size.eq=1".toList] := by decide
    have hpieces' : pieces "Mem.Size.eq=1,Time.User.eq=1".toList
        = ["Mem.Size.eq=1".toList, "Time.User.eq=1".toList] := by decide
    rw [hpieces, hpieces']
    exact Perm.swap _ _ []
  · obtain ⟨query, hcreate, htest⟩ :
        ∃ query, sigarPtqlQueryCreate .plain "Time.User.eq=1,Mem.Size.eq=1".toList = .ok query ∧
          decide (Unlinked query ∧
            (findOutcome .timeless query).toOption = some (sigarEnotimpl, [])) = true :=
      accepted_of_test (by decide +kernel)
    exact ⟨query, hcreate, of_decide_eq_true htest⟩
  · obtain ⟨query, hcreate, htest⟩ :
        ∃ query, sigarPtqlQueryCreate .exchanged "Mem.Size.eq=1,Time.User.eq=1".toList = .ok query ∧
          decide ((findOutcome .timeless query).toOption = some (sigarOk, [])) = true :=
      accepted_of_test (by decide +kernel)
    exact ⟨query, hcreate, of_decide_eq_true htest⟩

end Sigar.Ptql
