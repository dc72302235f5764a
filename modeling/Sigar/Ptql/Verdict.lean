/-
  What `sigar_ptql_query_match` says about a process, without its buffers.

  The code keeps one structure per branch and reuses it from pid to pid.  `branchVerdict` looks at
  the processes directly: a reference is compared with what the referenced branch's getter returns
  for THIS pid.  `sigarPtqlQueryMatch_verdict` says that the two agree, whatever an earlier call
  left in the buffers: when a reference is compared, the branches before it have all been loaded
  in the same call.
-/
import Sigar.Ptql.Accepted

namespace Sigar.Ptql

open CString Logged List

/-! ## The verdict -/

/-- The structure that a branch loads for a pid, if it loads one. -/
def freshBlock (world : World) (pid : SigarPid) (branch : PtqlBranch) : Option Block :=
  if branch.lookup.type = .any then none
  else match subject world branch pid, branch.lookup.get with
    | .ok p, .struct getter => some (world.get getter p).2
    | _, _ => none

/-- The index that a reference holds. -/
def PtqlBranch.refTo (branch : PtqlBranch) : Nat := branch.value.bits.toUInt32.toNat

/-- `compareLoaded`, with the referenced field taken from the processes. -/
def compareFresh (world : World) (pid : SigarPid) (branches : List PtqlBranch)
    (branch : PtqlBranch) (block : Block) : Except Fault Bool :=
  if branch.opFlags.ref then
    match branches[branch.refTo]? with
    | none => .error .badRef
    | some ref =>
      match freshBlock world pid ref with
      | none => .error .badRef
      | some refBlock =>
        if ref.lookup.type = branch.lookup.type then
          (callMatch branch (block.read branch.lookup.type branch.lookup.offset)
            (refBlock.read branch.lookup.type ref.lookup.offset)).res
        else .error .badRef
  else if branch.lookup.type = .str then
    (ptqlStrMatch world branch (block.str branch.lookup.offset)).res
  else (ptqlBranchMatch branch block).res

/-- What a round of the loop says, for a branch of `branches`. -/
def branchVerdict (world : World) (pid : SigarPid) (branches : List PtqlBranch)
    (branch : PtqlBranch) : Except Fault Verdict :=
  match subject world branch pid with
  | .error status => .ok (.stop status)
  | .ok p =>
    if branch.lookup.type = .any then
      (runMatcher world branch p).res.map fun status => .matched (status = sigarOk)
    else match branch.lookup.get with
      | .struct getter =>
        if (world.get getter p).1 ≠ sigarOk then .ok (.stop (world.get getter p).1)
        else (compareFresh world pid branches branch (world.get getter p).2).map .matched
      | _ => .ok (.matched false)

/-- The loop over the branches. -/
def verdictLoop (world : World) (pid : SigarPid) (branches : List PtqlBranch) :
    List PtqlBranch → Except Fault Status
  | [] => .ok sigarOk
  | branch :: rest =>
    match branchVerdict world pid branches branch with
    | .error fault => .error fault
    | .ok (.stop status) => .ok status
    | .ok (.matched false) => .ok notMatched
    | .ok (.matched true) => verdictLoop world pid branches rest

def queryVerdict (world : World) (branches : List PtqlBranch) (pid : SigarPid) :
    Except Fault Status :=
  verdictLoop world pid branches branches

/-! ## Buffers -/

/-- The branch with other contents in its buffer. -/
def PtqlBranch.withData (branch : PtqlBranch) (data : BranchData) (size : Nat) : PtqlBranch :=
  { branch with data := data, dataSize := size }

/-- The same branch, after any number of calls: only a structure is ever exchanged. -/
def Reloaded (branch now : PtqlBranch) : Prop :=
  now = branch ∨ (branch.lookup.type ≠ .any ∧ ∃ data size, now = branch.withData data size)

theorem Reloaded.refl (branch : PtqlBranch) : Reloaded branch branch := Or.inl rfl

/-- What is not data is the same. -/
theorem Reloaded.eq_withData {branch now : PtqlBranch} (h : Reloaded branch now) :
    ∃ data size, now = branch.withData data size := by
  rcases h with rfl | ⟨_, data, size, rfl⟩
  · exact ⟨now.data, now.dataSize, rfl⟩
  · exact ⟨data, size, rfl⟩

theorem Reloaded.load {branch now : PtqlBranch} (h : Reloaded branch now) (block : Block) :
    ∃ size, now.load block = branch.withData (.struct block) size := by
  obtain ⟨data, size, rfl⟩ := h.eq_withData
  exact ⟨_, rfl⟩

/-- The branch as the loop leaves it behind: with the structure of this pid in it. -/
def LoadedFor (world : World) (pid : SigarPid) (branch now : PtqlBranch) : Prop :=
  Reloaded branch now ∧
  (branch.lookup.type ≠ .any →
    ∃ block, freshBlock world pid branch = some block ∧ now.data = .struct block)

/-- Comparing two fields never looks at the buffer of the branch itself. -/
theorem ptqlBranchMatchRef_withData (branch : PtqlBranch) (data : BranchData) (size : Nat)
    (ref : PtqlBranch) (block : Block) :
    ptqlBranchMatchRef (branch.withData data size) ref block = ptqlBranchMatchRef branch ref block :=
  rfl

/-! ## One round of the loop -/

variable {world : World} {pid : SigarPid}

/-- A loaded reference is compared with what its getter returned for this pid. -/
theorem ptqlBranchMatchRef_loaded {branch ref now : PtqlBranch} (block : Block)
    (hloaded : LoadedFor world pid ref now) (htype : branch.lookup.type ≠ .any) :
    (ptqlBranchMatchRef branch now block).res
      = match freshBlock world pid ref with
        | none => .error .badRef
        | some refBlock =>
          if ref.lookup.type = branch.lookup.type then
            (callMatch branch (block.read branch.lookup.type branch.lookup.offset)
              (refBlock.read branch.lookup.type ref.lookup.offset)).res
          else .error .badRef := by
  obtain ⟨hreloaded, hblock⟩ := hloaded
  obtain ⟨data, size, rfl⟩ := hreloaded.eq_withData
  unfold ptqlBranchMatchRef
  by_cases hany : ref.lookup.type = .any
  · -- the data of such a branch is no structure, and its type is not that of a field
    have hfresh : freshBlock world pid ref = none := if_pos hany
    have hne : ¬ (ref.withData data size).lookup.type = branch.lookup.type := by
      intro heq
      exact htype (heq.symm.trans hany)
    rw [hfresh]
    cases (ref.withData data size).data with
    | struct b => dsimp only; rw [if_neg hne]; rfl
    | null | pid _ | ui32 _ | str _ => rfl
  · obtain ⟨refBlock, hfresh, hdata⟩ := hblock hany
    rw [hfresh, hdata]
    dsimp only
    by_cases heq : ref.lookup.type = branch.lookup.type
    · rw [if_pos heq, if_pos (show (ref.withData data size).lookup.type = _ from heq)]
      rfl
    · rw [if_neg heq, if_neg (show ¬ (ref.withData data size).lookup.type = _ from heq)]
      rfl

/-- The referenced branch is among those behind the loop. -/
theorem getElem?_before {before0 before : List PtqlBranch} {i : Nat}
    (hloaded : Forall₂ (LoadedFor world pid) before0 before) (hi : i < before0.length)
    (b0 b : PtqlBranch) (after0 after : List PtqlBranch) :
    ∃ ref now, (before0 ++ b0 :: after0)[i]? = some ref ∧ (before ++ b :: after)[i]? = some now ∧
      LoadedFor world pid ref now := by
  have hlen := hloaded.length_eq
  have hi' : i < before.length := hlen ▸ hi
  refine ⟨before0.get ⟨i, hi⟩, before.get ⟨i, hi'⟩, ?_, ?_, hloaded.get hi hi'⟩
  · grind
  · grind

/-- The loop at a branch: `before` is loaded, the branch and those after it are as some earlier
    call left them. -/
structure AtBranch (world : World) (pid : SigarPid) (before0 before : List PtqlBranch)
    (branch now : PtqlBranch) : Prop where
  loaded : Forall₂ (LoadedFor world pid) before0 before
  reloaded : Reloaded branch now
  proper : branch.lookup.Proper
  refBefore : branch.opFlags.ref = true → branch.refTo < before0.length

variable {before0 before after0 after : List PtqlBranch} {branch now : PtqlBranch}

theorem readValue_res (branch : PtqlBranch) (member : Member) :
    (readValue branch member).res = .ok branch.value := rfl

theorem compareLoaded_res (after0 after : List PtqlBranch)
    (hat : AtBranch world pid before0 before branch now) (htype : branch.lookup.type ≠ .any)
    (block : Block) :
    (compareLoaded world (before ++ now.load block :: after) before.length (now.load block)
        block).res
      = compareFresh world pid (before0 ++ branch :: after0) branch block := by
  obtain ⟨size, hload⟩ := hat.reloaded.load block
  rw [hload]
  unfold compareLoaded compareFresh
  by_cases href : branch.opFlags.ref = true
  · have hrefNow : (branch.withData (.struct block) size).opFlags.ref = true := href
    rw [if_pos href, if_pos hrefNow]
    obtain ⟨ref, refNow, hget0, hget, hloaded⟩ := getElem?_before hat.loaded
      (hat.refBefore href) branch (branch.withData (.struct block) size) after0 after
    rw [hget0]
    dsimp only
    rw [← ptqlBranchMatchRef_loaded block hloaded htype]
    -- the index that the code reads is the one the branch was built with
    have hindex : (branch.withData (.struct block) size).value.bits.toUInt32.toNat
        = branch.refTo := rfl
    rw [res_bind_ok (readValue_res _ .ui32), hindex, res_bind_ok (res_emit _),
      hget]
    exact congrArg Logged.res (ptqlBranchMatchRef_withData branch _ size refNow block)
  · have hrefNow : ¬ (branch.withData (.struct block) size).opFlags.ref = true := href
    rw [if_neg href, if_neg hrefNow]
    by_cases hstr : branch.lookup.type = .str
    · have hstrNow : (branch.withData (.struct block) size).lookup.type = .str := hstr
      rw [if_pos hstr, if_pos hstrNow]
      rfl
    · have hstrNow : ¬ (branch.withData (.struct block) size).lookup.type = .str := hstr
      rw [if_neg hstr, if_neg hstrNow]
      rfl

theorem Reloaded.eq_of_any (h : Reloaded branch now) (htype : branch.lookup.type = .any) :
    now = branch := by
  rcases h with h | ⟨hne, _⟩
  · exact h
  · exact absurd htype hne

theorem subject_reloaded (world : World) (pid : SigarPid) (h : Reloaded branch now) :
    subject world now pid = subject world branch pid := by
  obtain ⟨data, size, rfl⟩ := h.eq_withData
  rfl

/-- A round for a class without a structure. -/
theorem evalBranch_any {p : SigarPid} (hsubject : subject world branch pid = .ok p)
    (htype : branch.lookup.type = .any) :
    evalBranch world pid before branch after
      = runMatcher world branch p >>= fun status =>
          pure (branch, .matched (status = sigarOk)) := by
  unfold evalBranch
  rw [hsubject]
  dsimp only
  rw [if_pos htype]

/-- A round for a field of a structure, up to its comparison. -/
theorem evalBranch_struct {p : SigarPid} {getter : Getter} (hreloaded : Reloaded branch now)
    (hsubject : subject world branch pid = .ok p) (htype : branch.lookup.type ≠ .any)
    (hget : branch.lookup.get = .struct getter) :
    evalBranch world pid before now after
      = if (world.get getter p).1 ≠ sigarOk then
          pure (now.load (world.get getter p).2, .stop (world.get getter p).1)
        else Logged.emit (.load before.length) >>= fun _ =>
          compareLoaded world (before ++ now.load (world.get getter p).2 :: after) before.length
            (now.load (world.get getter p).2) (world.get getter p).2 >>= fun matched =>
          pure (now.load (world.get getter p).2, .matched matched) := by
  obtain ⟨data, size, rfl⟩ := hreloaded.eq_withData
  unfold evalBranch
  rw [show subject world (branch.withData data size) pid = .ok p from hsubject]
  dsimp only
  rw [if_neg (show ¬ (branch.withData data size).lookup.type = .any from htype),
    show (branch.withData data size).lookup.get = .struct getter from hget]

/-- The round leaves its branch as it was, but for its buffer. -/
theorem evalBranch_reloaded (hat : AtBranch world pid before0 before branch now)
    {now' : PtqlBranch} {verdict : Verdict}
    (h : (evalBranch world pid before now after).res = .ok (now', verdict)) :
    Reloaded branch now' ∧ (∀ m, verdict = .matched m → LoadedFor world pid branch now') := by
  have hsubjectNow := subject_reloaded world pid hat.reloaded
  cases hsubject : subject world branch pid with
  | error status =>
    unfold evalBranch at h
    rw [hsubjectNow, hsubject] at h
    obtain ⟨rfl, rfl⟩ := Prod.mk.inj (Except.ok.inj h)
    exact ⟨hat.reloaded, fun m hm => nomatch hm⟩
  | ok p =>
    rcases hat.proper with ⟨htype, _, getter, hget⟩ | ⟨htype, _, _⟩
    · rw [evalBranch_struct hat.reloaded hsubject htype hget] at h
      obtain ⟨size, hload⟩ := hat.reloaded.load (world.get getter p).2
      have hdone : Reloaded branch (now.load (world.get getter p).2) :=
        Or.inr ⟨htype, _, size, hload⟩
      have hfresh : freshBlock world pid branch = some (world.get getter p).2 := by
        unfold freshBlock
        rw [if_neg htype, hsubject, hget]
      by_cases hstatus : (world.get getter p).1 ≠ sigarOk
      · rw [if_pos hstatus] at h
        obtain ⟨rfl, rfl⟩ := Prod.mk.inj (Except.ok.inj h)
        exact ⟨hdone, fun m hm => nomatch hm⟩
      · rw [if_neg hstatus] at h
        obtain ⟨_, _, h⟩ := res_bind_eq_ok.mp h
        obtain ⟨matched, _, h⟩ := res_bind_eq_ok.mp h
        obtain ⟨rfl, rfl⟩ := Prod.mk.inj (Except.ok.inj h)
        exact ⟨hdone, fun m _ => ⟨hdone, fun _ => ⟨_, hfresh, rfl⟩⟩⟩
    · obtain rfl := hat.reloaded.eq_of_any htype
      rw [evalBranch_any hsubject htype] at h
      obtain ⟨status, _, h⟩ := res_bind_eq_ok.mp h
      obtain ⟨rfl, rfl⟩ := Prod.mk.inj (Except.ok.inj h)
      exact ⟨.refl _, fun m _ => ⟨.refl _, fun hne => absurd htype hne⟩⟩

/-- The round says what the verdict says. -/
theorem evalBranch_verdict (after0 after : List PtqlBranch)
    (hat : AtBranch world pid before0 before branch now) :
    (evalBranch world pid before now after).res.map (·.2)
      = branchVerdict world pid (before0 ++ branch :: after0) branch := by
  have hsubjectNow := subject_reloaded world pid hat.reloaded
  unfold branchVerdict
  cases hsubject : subject world branch pid with
  | error status =>
    unfold evalBranch
    rw [hsubjectNow, hsubject]
    rfl
  | ok p =>
    dsimp only
    rcases hat.proper with ⟨htype, _, getter, hget⟩ | ⟨htype, _, _⟩
    · rw [evalBranch_struct hat.reloaded hsubject htype hget, if_neg htype, hget]
      dsimp only
      by_cases hstatus : (world.get getter p).1 ≠ sigarOk
      · rw [if_pos hstatus, if_pos hstatus]
        rfl
      · rw [if_neg hstatus, if_neg hstatus, ← compareLoaded_res after0 after hat htype]
        simp only [res_bind, res_emit, res_pure]
        cases (compareLoaded world (before ++ now.load (world.get getter p).2 :: after)
          before.length (now.load (world.get getter p).2) (world.get getter p).2).res <;> rfl
    · obtain rfl := hat.reloaded.eq_of_any htype
      rw [evalBranch_any hsubject htype, if_pos htype, res_bind]
      cases (runMatcher world now p).res <;> rfl

/-! ## The whole loop -/

/-- What the verdict needs to know of the branches of a query: it holds of every accepted one. -/
structure Sound (branches : List PtqlBranch) : Prop where
  proper : ∀ branch ∈ branches, branch.lookup.Proper
  refBefore : ∀ (i : Nat) (branch : PtqlBranch), branches[i]? = some branch →
    branch.opFlags.ref = true → branch.refTo < i

/-- The loop at a branch of the query. -/
theorem Sound.atBranch {branches : List PtqlBranch} (hsound : Sound branches)
    (hsplit : branches = before0 ++ branch :: after0)
    (hbefore : Forall₂ (LoadedFor world pid) before0 before) (hnow : Reloaded branch now) :
    AtBranch world pid before0 before branch now where
  loaded := hbefore
  reloaded := hnow
  proper := hsound.proper branch (by rw [hsplit]; simp)
  refBefore := hsound.refBefore before0.length branch (by rw [hsplit]; simp)

theorem matchLoop_verdict (world : World) (pid : SigarPid) :
    ∀ {after0 after before0 before : List PtqlBranch},
    Sound (before0 ++ after0) → Forall₂ (LoadedFor world pid) before0 before →
    Forall₂ Reloaded after0 after →
    (matchLoop world pid before after).res.map (·.2)
      = verdictLoop world pid (before0 ++ after0) after0 ∧
    ∀ result, (matchLoop world pid before after).res = .ok result →
      Forall₂ Reloaded (before0 ++ after0) result.1 := by
  intro after0
  induction after0 with
  | nil =>
    intro after before0 before _ hbefore hafter
    cases hafter
    refine ⟨rfl, ?_⟩
    intro result h
    obtain rfl := Except.ok.inj h
    rw [append_nil]
    exact hbefore.imp fun _ _ h => h.1
  | cons branch rest0 ih =>
    intro after before0 before hsound hbefore hafter
    cases hafter with
    | @cons _ now _ rest hnow hrest =>
    have hat := hsound.atBranch rfl hbefore hnow
    have hverdict := evalBranch_verdict rest0 rest hat
    have hstop : ∀ now', Reloaded branch now' →
        Forall₂ Reloaded (before0 ++ branch :: rest0) (before ++ now' :: rest) :=
      fun now' h => rel_append (hbefore.imp fun _ _ h => h.1) (Forall₂.cons h hrest)
    rw [matchLoop, verdictLoop]
    -- both loops do what this round says
    cases hres : (evalBranch world pid before now rest).res with
    | error fault =>
      rw [hres] at hverdict
      rw [← hverdict, res_bind, hres]
      exact ⟨rfl, fun _ h => nomatch h⟩
    | ok pair =>
      obtain ⟨now', verdict⟩ := pair
      rw [hres] at hverdict
      obtain ⟨hreloaded, hloaded⟩ := evalBranch_reloaded hat hres
      rw [← hverdict, res_bind, hres]
      cases verdict with
      | stop status =>
        refine ⟨rfl, fun result h => ?_⟩
        obtain rfl := Except.ok.inj h
        exact hstop now' hreloaded
      | matched m =>
        cases m with
        | false =>
          refine ⟨rfl, fun result h => ?_⟩
          obtain rfl := Except.ok.inj h
          exact hstop now' hreloaded
        | true =>
          -- the branch is loaded now: go on with it behind the loop
          have hbefore' : Forall₂ (LoadedFor world pid) (before0 ++ [branch])
              (before ++ [now']) :=
            rel_append hbefore (Forall₂.cons (hloaded true rfl) Forall₂.nil)
          have hassoc : before0 ++ branch :: rest0 = (before0 ++ [branch]) ++ rest0 := by simp
          rw [hassoc] at hsound ⊢
          exact ih hsound hbefore' hrest

/-- **The verdict does not depend on the buffers**, and the query is the same after the call. -/
theorem sigarPtqlQueryMatch_verdict (world : World) {branches : List PtqlBranch} {query : PtqlQuery}
    (hsound : Sound branches) (hquery : Forall₂ Reloaded branches query.branches)
    (pid : SigarPid) :
    (sigarPtqlQueryMatch world query pid).res.map (·.2) = queryVerdict world branches pid ∧
    ∀ result, (sigarPtqlQueryMatch world query pid).res = .ok result →
      Forall₂ Reloaded branches result.1.branches := by
  obtain ⟨hverdict, hreloaded⟩ := matchLoop_verdict world pid
    (show Sound ([] ++ branches) from hsound) .nil hquery
  rw [nil_append] at hverdict hreloaded
  unfold sigarPtqlQueryMatch queryVerdict
  rw [← hverdict, res_bind]
  cases hres : (matchLoop world pid [] query.branches).res with
  | error fault => exact ⟨rfl, fun _ h => nomatch h⟩
  | ok pair =>
    refine ⟨rfl, fun result h => ?_⟩
    obtain rfl := Except.ok.inj h
    exact hreloaded pair hres

end Sigar.Ptql
