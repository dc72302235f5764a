/-
  The operator tables.

  The tables of the operators of numbers end at `le`.  A branch that reads a field of a number
  type is refused any other operator, but the filter for the process list indexes the table of
  `ui64` with the operator of a branch of the type `ANY`, for which every operator is accepted.
  So every index is in range EXACTLY WHEN the class `Pid` is queried with the operators of numbers
  (`opTables_inRange_iff`): `Port` takes only `eq`, and services are not asked about.
-/
import Sigar.Ptql.Lifetime

namespace Sigar.Ptql

open CString Logged List

variable {libc : Libc} {world : World} {branch : PtqlBranch} {query : PtqlQuery}
  {P : Event → Prop}

/-! ## The filter for the process list -/

/-- An index into a table of the operators of numbers is in range. -/
def Event.InTable : Event → Prop
  | .index op => op.cmp?.isSome = true
  | _ => True

theorem pidFilter_all {matchPid : SigarPid} (hindex : P (.index branch.opName)) :
    ∀ pids : List SigarPid, (pidFilter branch matchPid pids).All P := by
  intro pids
  induction pids with
  | nil => exact all_pure _
  | cons pid rest ih =>
    have hone : (pidBranchMatch branch pid matchPid).All P := by
      refine all_bind (all_emit.mpr hindex) fun _ _ => ?_
      split
      · exact all_pure _
      · exact all_fault _
    exact all_bind hone fun _ _ => all_bind ih fun _ _ => all_pure _

/-- Nothing is asked about services. -/
theorem ptqlPidListGet_service (h : branch.flags.isService = true) :
    ptqlPidListGet world branch = pure (sigarOk, []) := by
  unfold ptqlPidListGet
  by_cases hskip : branch.flags ≠ .serviceName ∨ branch.opName ≠ .eq
  · rw [if_pos ⟨h, hskip⟩]
  · rw [if_neg fun hc => hskip hc.2]
    have hname : branch.flags = .serviceName := by grind
    have hget : ptqlPidGet world branch = (sigarEnotimpl, 0) := by
      unfold ptqlPidGet
      rw [hname]
    rw [hget]
    rfl

/-- Otherwise the processes are filtered, if there is a pid to compare with. -/
theorem ptqlPidListGet_filter (h : branch.flags.isService = false) :
    ptqlPidListGet world branch
      = if (ptqlPidGet world branch).1 ≠ sigarOk then pure (sigarOk, [])
        else if world.procList.1 ≠ sigarOk then pure (world.procList.1, [])
        else pidFilter branch (ptqlPidGet world branch).2 world.procList.2 >>= fun selected =>
          pure (sigarOk, selected) := by
  have hno : ¬ (branch.flags.isService = true ∧
      (branch.flags ≠ .serviceName ∨ branch.opName ≠ .eq)) := by
    rintro ⟨hyes, _⟩
    rw [h] at hyes
    exact nomatch hyes
  unfold ptqlPidListGet
  rw [if_neg hno]

theorem ptqlPidListGet_all (hindex : branch.flags.isService = false → P (.index branch.opName)) :
    (ptqlPidListGet world branch).All P := by
  cases hservice : branch.flags.isService with
  | true =>
    rw [ptqlPidListGet_service hservice]
    exact all_pure _
  | false =>
    rw [ptqlPidListGet_filter hservice]
    split
    · exact all_pure _
    · split
      · exact all_pure _
      · exact all_bind (pidFilter_all (hindex hservice) _) fun _ _ => all_pure _

theorem pidBranches_all : ∀ {bs : List PtqlBranch},
    (∀ b ∈ bs, b.flags.isService = false → P (.index b.opName)) →
    (pidBranches world bs).All P := by
  intro bs
  induction bs with
  | nil => intro _; exact all_pure _
  | cons b rest ih =>
    intro hindex
    refine all_bind (ptqlPidListGet_all (hindex b mem_cons_self)) ?_
    rintro ⟨status, pids⟩ _
    dsimp only
    split
    · exact all_pure _
    · exact all_bind (ih fun x hx => hindex x (mem_cons_of_mem b hx))
        fun _ _ => all_pure _

theorem ptqlProcListGet_all (hindex : ∀ b ∈ query.branches, b.opFlags.pid = true →
    b.flags.isService = false → P (.index b.opName)) : (ptqlProcListGet world query).All P := by
  unfold ptqlProcListGet
  split
  · refine pidBranches_all fun b hb => ?_
    obtain ⟨hmem, hpid⟩ := mem_filter.mp hb
    exact hindex b hmem hpid
  · exact all_pure _

/-- A world with one process, in which every port and every file leads to it. -/
def World.answering : World :=
  { World.plain [1] with
    port := fun _ _ => (sigarOk, 1)
    file2str := fun _ => (sigarOk, "1".toList)
    sudoFile2str := fun _ => (sigarOk, "1".toList) }

theorem ptqlPidGet_answering (h : branch.flags.isService = false) :
    (ptqlPidGet .answering branch).1 = sigarOk := by
  unfold ptqlPidGet
  cases hflags : branch.flags with
  | pid | file | sudoFile | tcpPort | udpPort => rfl
  | serviceName | serviceDisplay | servicePath | serviceExe | servicePid =>
    exact absurd h (by rw [hflags]; decide)

theorem ptqlPidListGet_answering (h : branch.flags.isService = false) :
    ptqlPidListGet .answering branch
      = pidFilter branch (ptqlPidGet .answering branch).2 [1] >>= fun selected =>
          pure (sigarOk, selected) := by
  have hget := ptqlPidGet_answering h
  have hlist : World.answering.procList = (sigarOk, [1]) := rfl
  rw [ptqlPidListGet_filter h, if_neg (not_not.mpr hget), hlist]
  exact if_neg (not_not.mpr rfl)

/-- There every branch of the filter is compared, as long as the indices are in range. -/
theorem pidBranches_answering : ∀ {bs : List PtqlBranch},
    (pidBranches .answering bs).All Event.InTable →
    ∀ b ∈ bs, b.flags.isService = false → b.opName.cmp?.isSome = true := by
  intro bs
  induction bs with
  | nil => intro _ b hb; exact absurd hb not_mem_nil
  | cons b rest ih =>
    intro hall
    obtain ⟨hfirst, hrest⟩ := all_of_bind hall
    -- the first branch is in range, so its filter returns and the loop goes on
    have hstep : (b.flags.isService = false → b.opName.cmp?.isSome = true) ∧
        ∃ pids, (ptqlPidListGet .answering b).res = .ok (sigarOk, pids) := by
      cases hservice : b.flags.isService with
      | true =>
        refine ⟨fun h => (nomatch h), [], ?_⟩
        rw [ptqlPidListGet_service hservice]
        rfl
      | false =>
        rw [ptqlPidListGet_answering hservice] at hfirst
        obtain ⟨hfilter, _⟩ := all_of_bind hfirst
        obtain ⟨hone, _⟩ := all_of_bind hfilter
        obtain ⟨hindex, _⟩ := all_of_bind hone
        have hin : Event.InTable (.index b.opName) := all_emit.mp hindex
        have hsome : b.opName.cmp?.isSome = true := hin
        obtain ⟨op, hop⟩ := Option.isSome_iff_exists.mp hsome
        refine ⟨fun _ => hsome, ?_⟩
        rw [ptqlPidListGet_answering hservice]
        have hmatch : ∀ m, (pidBranchMatch b 1 m).res
            = .ok (ptqlOpUi64 op (pidToUInt64 1) (pidToUInt64 m)) := by
          intro m
          unfold pidBranchMatch
          rw [hop]
          rfl
        exact ⟨_, res_bind_eq_ok.mpr ⟨_, res_bind_eq_ok.mpr
          ⟨_, hmatch _, rfl⟩, rfl⟩⟩
    obtain ⟨pids, hpids⟩ := hstep.2
    obtain ⟨htail, _⟩ := all_of_bind (hrest _ hpids)
    intro x hx
    rcases mem_cons.mp hx with rfl | hx
    · exact hstep.1
    · exact ih htail x hx

/-- The class `Pid` is queried with `eq`, `ne`, `gt`, `ge`, `lt` and `le` only. -/
def PidOperatorsCompare (ptql : CStr) : Prop :=
  ∀ piece ∈ pieces ptql, ∀ parsed, ptqlBranchParse piece = .ok parsed →
    parsed.name = "Pid".toList →
    ∃ op, ptqlOpCodeGet parsed.op = some op ∧ op.cmp?.isSome = true

/-- The filter of such a query stays in its table. -/
theorem PidOperatorsCompare.inTable {ptql : CStr}
    (hcreate : sigarPtqlQueryCreate libc ptql = .ok query) (hops : PidOperatorsCompare ptql)
    (hb : branch ∈ query.branches) (hpid : branch.opFlags.pid = true)
    (hservice : branch.flags.isService = false) : branch.opName.cmp?.isSome = true := by
  obtain ⟨piece, hpiece, number, parsed, hparse, hbuilt⟩ := branch_comesFrom hcreate hb
  rcases hbuilt.pid_cases hpid with ⟨hop, _⟩ | hyes | ⟨hinit, _⟩
  · rw [hop]
    rfl
  · rw [hservice] at hyes
    exact nomatch hyes
  · have hname := (findLookup_pid_iff hbuilt.found).mp hinit
    obtain ⟨op, hop, hsome⟩ := hops piece hpiece parsed hparse hname
    obtain rfl : op = branch.opName := Option.some.inj (hop.symm.trans hbuilt.opCode)
    exact hsome

/-- **Every index into an operator table is in range**, when a branch is added and over every
    sequence of evaluations, exactly when the class `Pid` is queried with the operators of
    numbers. -/
theorem opTables_inRange_iff (libc : Libc) (ptql : CStr) (query : PtqlQuery)
    (hcreate : sigarPtqlQueryCreate libc ptql = .ok query) :
    ((∀ b ∈ query.branches, b.lookup.type ≠ .str → b.lookup.type ≠ .any →
        b.opName.cmp?.isSome = true) ∧
      ∀ calls, (evaluations query calls).All Event.InTable) ↔ PidOperatorsCompare ptql := by
  have hsound := accepted_sound hcreate
  constructor
  · rintro ⟨_, hcalls⟩ piece hpiece parsed hparse hname
    obtain ⟨number, b, hb, parsed', hparse', hbuilt⟩ := piece_branch hcreate hpiece
    obtain rfl : parsed = parsed' := Except.ok.inj (hparse.symm.trans hparse')
    have hinit := (findLookup_pid_iff hbuilt.found).mpr hname
    have hpid : b.opFlags.pid = true := by
      rw [hbuilt.pid, hinit]
      rfl
    -- a branch of the class is no service, so it is compared where everything answers
    have hservice : b.flags.isService = false := by
      obtain ⟨init, hrun, hflags, _⟩ := hbuilt.init
      rw [hinit] at hrun
      rw [hflags]
      exact (ptqlBranchInitPid_ok hrun).2.not_service
    -- of `sigar_ptql_query_find` only the filter matters
    obtain ⟨hfind, _⟩ := all_of_bind (hcalls [(.answering, .queryFind)])
    obtain ⟨hlist, _⟩ := all_of_bind (all_of_bind hfind).1
    unfold ptqlProcListGet at hlist
    rw [if_pos (any_eq_true.mpr ⟨b, hb, hpid⟩)] at hlist
    exact ⟨b.opName, hbuilt.opCode,
      pidBranches_answering hlist b (mem_filter.mpr ⟨hb, hpid⟩) hservice⟩
  · intro hops
    refine ⟨?_, ?_⟩
    · intro b hb hstr hany
      have hinstalled := (accepted_installed hcreate b hb).installed
      cases htype : b.lookup.type with
      | ui64 | ui32 | dbl | chr =>
        rw [htype] at hinstalled
        obtain ⟨op, hop, _⟩ := Option.map_eq_some_iff.mp hinstalled
        rw [hop]
        rfl
      | str => exact absurd htype hstr
      | any => exact absurd htype hany
    · intro calls
      refine evaluations_all ?_ ?_ hsound calls (SameBranches.refl query)
      · intro world query' pid _
        exact sigarPtqlQueryMatch_all fun b _ before after =>
          evalBranch_all (fun _ _ => trivial) (fun _ => trivial) fun _ _ => trivial
      · intro world query' hsame
        refine ptqlProcListGet_all fun b' hb' hpid hservice => ?_
        obtain ⟨b, hb, hreloaded⟩ := forall₂_origin hsame b' hb'
        obtain ⟨data, size, rfl⟩ := hreloaded.eq_withData
        have hin := PidOperatorsCompare.inTable hcreate hops hb hpid hservice
        exact hin

theorem opTables_inRange_iff_example :
    ∃ query, sigarPtqlQueryCreate .plain "Pid.Pid.eq=1".toList = .ok query ∧
      ∀ calls, (evaluations query calls).All Event.InTable := by
  obtain ⟨query, hcreate, _⟩ :
      ∃ query, sigarPtqlQueryCreate .plain "Pid.Pid.eq=1".toList = .ok query ∧ true = true :=
    accepted_of_test (by decide +kernel)
  refine ⟨query, hcreate, ((opTables_inRange_iff .plain _ query hcreate).mpr ?_).2⟩
  intro piece hpiece parsed hparse _
  obtain rfl : piece = "Pid.Pid.eq=1".toList := mem_singleton.mp hpiece
  obtain rfl := Except.ok.inj hparse
  exact ⟨.eq, rfl, rfl⟩

/-- `sw` is accepted for a pid, and the filter indexes the table of numbers with it. -/
theorem pidOperator_outOfTable :
    ∃ query, sigarPtqlQueryCreate .plain "Pid.Pid.sw=1".toList = .ok query ∧
      Event.index .sw ∈ (evaluations query [(.plain [1], .queryFind)]).log ∧
      ¬ Event.InTable (.index .sw) := by
  obtain ⟨query, hcreate, hindex⟩ :
      ∃ query, sigarPtqlQueryCreate .plain "Pid.Pid.sw=1".toList = .ok query ∧
        decide (Event.index .sw ∈ (evaluations query [(.plain [1], .queryFind)]).log) = true :=
    accepted_of_test (by decide +kernel)
  exact ⟨query, hcreate, of_decide_eq_true hindex, fun h => absurd (show _ = true from h) (by decide)⟩

end Sigar.Ptql
