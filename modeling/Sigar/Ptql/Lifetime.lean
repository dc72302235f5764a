/-
  The life of a query: any sequence of evaluations, and its end.

  `evaluations` runs any sequence of calls on one query, each against the processes of its moment;
  the buffers stay from call to call.  `evaluations_all` is the rule for what every event of such
  a run satisfies: it is enough to look at the match of one process and at the filter for the
  process list, for a query that is the created one UP TO ITS BUFFERS.  `evalBranch_all` says what
  the events of one round of the match loop are.
-/
import Sigar.Ptql.Meaning

namespace Sigar.Ptql

open CString Logged List

variable {libc : Libc} {world : World} {pid : SigarPid} {branches : List PtqlBranch}
  {branch : PtqlBranch} {query : PtqlQuery} {before after : List PtqlBranch} {P : Event → Prop}

/-! ## The life of a query -/

inductive Call where
  | queryMatch (pid : SigarPid)
  | queryFind
  | queryFindProcess

/-- One call, with the query that it leaves. -/
def evaluate (world : World) (query : PtqlQuery) : Call → Eval PtqlQuery
  | .queryMatch pid => do
    let result ← sigarPtqlQueryMatch world query pid
    pure result.1
  | .queryFind => do
    let result ← sigarPtqlQueryFind world query
    pure result.1
  | .queryFindProcess => do
    let result ← sigarPtqlQueryFindProcess world query
    pure result.1

/-- Any number of calls, one after the other. -/
def evaluations : PtqlQuery → List (World × Call) → Eval PtqlQuery
  | query, [] => pure query
  | query, (world, call) :: rest => do
    let query ← evaluate world query call
    evaluations query rest

/-- The calls, and `sigar_ptql_query_destroy` in the end. -/
def lifetime (query : PtqlQuery) (calls : List (World × Call)) : Eval Unit := do
  let query ← evaluations query calls
  ptqlBranchListDestroy query.branches

/-- The query is the one with these branches, up to its buffers. -/
def SameBranches (branches : List PtqlBranch) (query : PtqlQuery) : Prop :=
  Forall₂ Reloaded branches query.branches

theorem SameBranches.refl (query : PtqlQuery) : SameBranches query.branches query :=
  forall₂_same.mpr fun b _ => .refl b

theorem forall₂_origin {bs now : List PtqlBranch} (h : Forall₂ Reloaded bs now) :
    ∀ b' ∈ now, ∃ b ∈ bs, Reloaded b b' := by
  induction h with
  | nil => intro b' hb'; exact absurd hb' not_mem_nil
  | @cons b b' bs now hbb' _ ih => grind

/-! ### Every call leaves the same branches -/

section SameBranches

variable (hsound : Sound branches)

include hsound

theorem sigarPtqlQueryMatch_same (hquery : SameBranches branches query)
    {result : PtqlQuery × Status} (h : (sigarPtqlQueryMatch world query pid).res = .ok result) :
    SameBranches branches result.1 :=
  (sigarPtqlQueryMatch_verdict world hsound hquery pid).2 result h

theorem findLoop_same : ∀ {pids : List SigarPid} {query : PtqlQuery}
    {result : PtqlQuery × Status × List SigarPid}, SameBranches branches query →
    (findLoop world query pids).res = .ok result → SameBranches branches result.1 := by
  intro pids
  induction pids with
  | nil =>
    intro query result hquery h
    obtain rfl := Except.ok.inj h
    exact hquery
  | cons pid rest ih =>
    intro query result hquery h
    rw [findLoop] at h
    obtain ⟨⟨next, status⟩, hmatch, h⟩ := res_bind_eq_ok.mp h
    have hnext : SameBranches branches next := sigarPtqlQueryMatch_same hsound hquery hmatch
    dsimp only at h
    split at h
    · obtain rfl := Except.ok.inj h
      exact hnext
    · obtain ⟨⟨last, _, _⟩, hloop, h⟩ := res_bind_eq_ok.mp h
      obtain rfl := Except.ok.inj h
      have hlast := ih hnext hloop
      exact hlast

theorem sigarPtqlQueryFind_same (hquery : SameBranches branches query)
    {result : PtqlQuery × Status × List SigarPid}
    (h : (sigarPtqlQueryFind world query).res = .ok result) : SameBranches branches result.1 := by
  obtain ⟨⟨status, pids⟩, _, h⟩ := res_bind_eq_ok.mp h
  dsimp only at h
  split at h
  · obtain rfl := Except.ok.inj h
    exact hquery
  · obtain ⟨⟨last, status', found⟩, hloop, h⟩ := res_bind_eq_ok.mp h
    obtain rfl := Except.ok.inj h
    have hlast := findLoop_same hsound hquery hloop
    exact hlast

theorem sigarPtqlQueryFindProcess_same (hquery : SameBranches branches query)
    {result : PtqlQuery × Status × Option SigarPid}
    (h : (sigarPtqlQueryFindProcess world query).res = .ok result) :
    SameBranches branches result.1 := by
  obtain ⟨⟨status, pids⟩, _, h⟩ := res_bind_eq_ok.mp h
  dsimp only at h
  split at h
  · obtain rfl := Except.ok.inj h
    exact hquery
  · obtain ⟨⟨last, status', found⟩, hloop, h⟩ := res_bind_eq_ok.mp h
    have hlast := findLoop_same hsound hquery hloop
    dsimp only at h
    split at h
    · obtain rfl := Except.ok.inj h
      exact hlast
    · obtain rfl := Except.ok.inj h
      exact hlast

theorem evaluate_same {query' : PtqlQuery} {call : Call} (hquery : SameBranches branches query)
    (h : (evaluate world query call).res = .ok query') : SameBranches branches query' := by
  cases call with
  | queryMatch pid =>
    obtain ⟨result, hres, h⟩ := res_bind_eq_ok.mp h
    obtain rfl := Except.ok.inj h
    exact sigarPtqlQueryMatch_same hsound hquery hres
  | queryFind =>
    obtain ⟨result, hres, h⟩ := res_bind_eq_ok.mp h
    obtain rfl := Except.ok.inj h
    exact sigarPtqlQueryFind_same hsound hquery hres
  | queryFindProcess =>
    obtain ⟨result, hres, h⟩ := res_bind_eq_ok.mp h
    obtain rfl := Except.ok.inj h
    exact sigarPtqlQueryFindProcess_same hsound hquery hres

theorem evaluations_same : ∀ {calls : List (World × Call)} {query query' : PtqlQuery},
    SameBranches branches query → (evaluations query calls).res = .ok query' →
    SameBranches branches query' := by
  intro calls
  induction calls with
  | nil =>
    intro query query' hquery h
    obtain rfl := Except.ok.inj h
    exact hquery
  | cons call rest ih =>
    intro query query' hquery h
    obtain ⟨next, hnext, h⟩ := res_bind_eq_ok.mp h
    exact ih (evaluate_same hsound hquery hnext) h

end SameBranches

/-! ### The rule for every event of a run -/

section Events

variable (hmatch : ∀ world query pid, SameBranches branches query →
    (sigarPtqlQueryMatch world query pid).All P)
  (hlist : ∀ world query, SameBranches branches query → (ptqlProcListGet world query).All P)

include hmatch

theorem findLoop_all (hsound : Sound branches) : ∀ {pids : List SigarPid} {query : PtqlQuery},
    SameBranches branches query → (findLoop world query pids).All P := by
  intro pids
  induction pids with
  | nil => intro query _; exact all_pure _
  | cons pid rest ih =>
    intro query hquery
    refine all_bind (hmatch world query pid hquery) ?_
    rintro ⟨next, status⟩ hres
    dsimp only
    split
    · exact all_pure _
    · have hnext : SameBranches branches next := sigarPtqlQueryMatch_same hsound hquery hres
      exact all_bind (ih hnext) fun _ _ => all_pure _

include hlist

theorem evaluate_all (hsound : Sound branches) (hquery : SameBranches branches query)
    (call : Call) : (evaluate world query call).All P := by
  cases call with
  | queryMatch pid =>
    exact all_bind (hmatch world query pid hquery) fun _ _ => all_pure _
  | queryFind =>
    refine all_bind (all_bind (hlist world query hquery) ?_)
      fun _ _ => all_pure _
    rintro ⟨status, pids⟩ _
    dsimp only
    split
    · exact all_pure _
    · exact all_bind (findLoop_all hmatch hsound hquery) fun _ _ => all_pure _
  | queryFindProcess =>
    refine all_bind (all_bind (hlist world query hquery) ?_)
      fun _ _ => all_pure _
    rintro ⟨status, pids⟩ _
    dsimp only
    split
    · exact all_pure _
    · refine all_bind (findLoop_all hmatch hsound hquery) ?_
      rintro ⟨last, status', found⟩ _
      dsimp only
      split
      · exact all_pure _
      · exact all_pure _

/-- **What every match and every filter of the process list keeps to, every run keeps to.** -/
theorem evaluations_all (hsound : Sound branches) :
    ∀ (calls : List (World × Call)) {query : PtqlQuery}, SameBranches branches query →
      (evaluations query calls).All P := by
  intro calls
  induction calls with
  | nil => intro query _; exact all_pure _
  | cons call rest ih =>
    intro query hquery
    obtain ⟨world, call⟩ := call
    refine all_bind (evaluate_all hmatch hlist hsound hquery call) ?_
    intro next hres
    exact ih (evaluate_same hsound hquery hres)

end Events

/-! ## One round of the match loop -/

/-- The matchers that compare texts with the value of their branch. -/
def Method.readsText : Method → Bool
  | .args | .modules | .env => true
  | .pid | .struct _ => false

/-- The member through which an evaluation reads the `value` of a branch, if it does. -/
def PtqlBranch.readAs (branch : PtqlBranch) : Option Member :=
  if branch.lookup.type = .any then
    if branch.lookup.get.readsText then some .str else none
  else if branch.opFlags.ref then some .ui32
  else some branch.lookup.type.member

theorem Reloaded.readAs_eq {now : PtqlBranch} (h : Reloaded branch now) :
    now.readAs = branch.readAs ∧ now.value = branch.value := by
  obtain ⟨data, size, rfl⟩ := h.eq_withData
  exact ⟨rfl, rfl⟩

theorem callMatch_all (a b : FieldVal) : (callMatch branch a b).All P := by
  unfold callMatch
  split
  · exact all_pure _
  · exact all_pure _
  · exact all_pure _
  · exact all_pure _
  · exact all_pure _
  · exact all_fault _

theorem readValue_all {member : Member} (h : P (.readValue member branch.value.written)) :
    (readValue branch member).All P :=
  all_bind (all_emit.mpr h) fun _ _ => all_pure _

section Str

variable (hstr : P (.readValue .str branch.value.written))

include hstr

theorem ptqlStrMatch_all (text : CStr) : (ptqlStrMatch world branch text).All P := by
  refine all_bind (readValue_all hstr) fun needle _ => ?_
  split
  · exact all_pure _
  · split
    · exact all_pure _
    · exact all_fault _
  · grind [all_pure, callMatch_all]

theorem anyMatches_all : ∀ texts : List CStr, (anyMatches world branch texts).All P := by
  intro texts
  induction texts with
  | nil => exact all_pure _
  | cons text rest ih =>
    refine all_bind (ptqlStrMatch_all hstr text) fun matched _ => ?_
    split
    · exact all_pure _
    · exact ih

theorem matchOne_all (text : Option CStr) : (matchOne world branch text).All P := by
  cases text with
  | none => exact all_pure _
  | some text => exact ptqlStrMatch_all hstr text

theorem matchTexts_all (texts : List CStr) (one : Option CStr) :
    (matchTexts world branch texts one).All P := by grind [matchTexts, anyMatches_all, matchOne_all]

end Str

theorem runMatcher_all (hread : ∀ member, branch.readAs = some member →
    P (.readValue member branch.value.written)) (htype : branch.lookup.type = .any) :
    (runMatcher world branch pid).All P := by
  unfold PtqlBranch.readAs at hread
  rw [if_pos htype] at hread
  unfold runMatcher
  cases hget : branch.lookup.get with
  | args =>
    have hstr := hread .str (by rw [hget]; rfl)
    show (ptqlArgsMatch world branch pid).All P
    unfold ptqlArgsMatch
    dsimp only
    split
    · exact all_pure _
    · exact all_bind (matchTexts_all hstr _ _) fun _ _ => all_pure _
  | modules =>
    have hstr := hread .str (by rw [hget]; rfl)
    exact all_bind (matchTexts_all hstr _ _) fun _ _ => all_pure _
  | env =>
    have hstr := hread .str (by rw [hget]; rfl)
    show (ptqlEnvMatch world branch pid).All P
    unfold ptqlEnvMatch
    dsimp only
    split
    · exact all_pure _
    · exact all_bind (matchOne_all hstr _) fun _ _ => all_pure _
  | pid => exact all_pure _
  | struct getter => exact all_pure _

theorem ptqlBranchMatch_all (block : Block)
    (hread : P (.readValue branch.lookup.type.member branch.value.written)) :
    (ptqlBranchMatch branch block).All P := by
  unfold ptqlBranchMatch
  cases htype : branch.lookup.type with
  | ui64 | ui32 | dbl | chr =>
    rw [htype] at hread
    exact all_bind (readValue_all hread) fun _ _ => callMatch_all _ _
  | str | any =>
    rw [htype] at hread
    refine all_bind (readValue_all hread) fun value _ => ?_
    split
    · exact all_pure _
    · exact all_fault _
    · exact callMatch_all _ _

theorem ptqlBranchMatchRef_all (ref : PtqlBranch) (block : Block) :
    (ptqlBranchMatchRef branch ref block).All P := by
  grind [ptqlBranchMatchRef, callMatch_all, all_fault]

theorem compareLoaded_all (htype : branch.lookup.type ≠ .any) {i : Nat} {block : Block}
    (hread : ∀ member, branch.readAs = some member → P (.readValue member branch.value.written))
    (href : branch.opFlags.ref = true → P (.matchRef i branch.refTo)) :
    (compareLoaded world branches i branch block).All P := by
  unfold PtqlBranch.readAs at hread
  rw [if_neg htype] at hread
  unfold compareLoaded
  by_cases hyes : branch.opFlags.ref = true
  · rw [if_pos hyes] at hread ⊢
    refine all_bind (readValue_all (hread .ui32 rfl)) fun value hvalue => ?_
    -- the index that is used is the one that was read
    obtain rfl : branch.value = value := Except.ok.inj hvalue
    refine all_bind (all_emit.mpr (href hyes)) fun _ _ => ?_
    split
    · exact ptqlBranchMatchRef_all _ _
    · exact all_fault _
  · rw [if_neg hyes] at hread ⊢
    have hmember := hread _ rfl
    split
    · next hstr =>
      rw [hstr] at hmember
      exact ptqlStrMatch_all hmember _
    · exact ptqlBranchMatch_all block hmember

theorem subject_ok (branch : PtqlBranch) (h : (world.get .procState pid).1 = sigarOk) :
    ∃ p, subject world branch pid = .ok p := by
  unfold subject
  split
  · dsimp only
    rw [if_neg (not_not.mpr h)]
    exact ⟨_, rfl⟩
  · exact ⟨pid, rfl⟩

/-- **The events of a round**: the reads of its value, its load and its reference. -/
theorem evalBranch_all
    (hread : ∀ member, branch.readAs = some member → P (.readValue member branch.value.written))
    (hload : Loads world pid branch → P (.load before.length))
    (href : Loads world pid branch → branch.opFlags.ref = true →
      P (.matchRef before.length branch.refTo)) :
    (evalBranch world pid before branch after).All P := by
  unfold evalBranch
  cases hsubject : subject world branch pid with
  | error status => exact all_pure _
  | ok p =>
    dsimp only
    by_cases htype : branch.lookup.type = .any
    · rw [if_pos htype]
      exact all_bind (runMatcher_all hread htype) fun _ _ => all_pure _
    · rw [if_neg htype]
      split
      · next getter hget =>
        by_cases hstatus : (world.get getter p).1 = sigarOk
        · rw [if_neg (not_not.mpr hstatus)]
          have hloads : Loads world pid branch := ⟨htype, p, getter, hsubject, hget, hstatus⟩
          refine all_bind (all_emit.mpr (hload hloads)) fun _ _ => ?_
          refine all_bind ?_ fun _ _ => all_pure _
          exact compareLoaded_all htype hread (href hloads)
        · rw [if_pos hstatus]
          exact all_pure _
      · exact all_pure _

theorem matchLoop_all (hround : ∀ b ∈ after, ∀ before after,
    (evalBranch world pid before b after).All P) :
    ∀ before : List PtqlBranch, (matchLoop world pid before after).All P := by
  induction after with
  | nil => intro before; exact all_pure _
  | cons b rest ih =>
    intro before
    refine all_bind (hround b mem_cons_self before rest) ?_
    rintro ⟨b', verdict⟩ _
    dsimp only
    split
    · exact all_pure _
    · exact all_pure _
    · exact ih (fun x hx => hround x (mem_cons_of_mem b hx)) _

theorem sigarPtqlQueryMatch_all (hround : ∀ b ∈ query.branches, ∀ before after,
    (evalBranch world pid before b after).All P) :
    (sigarPtqlQueryMatch world query pid).All P :=
  all_bind (matchLoop_all hround []) fun _ _ => all_pure _

end Sigar.Ptql
