/-
  The meaning of a query: a process satisfies it when it satisfies EVERY branch.

  `BranchHolds` says what a branch means for a pid, with nothing of the loop in it: the getter
  succeeds for the process that the branch is about, and the installed operator holds between its
  field and the stored value, or the field of the referenced branch.
  `sigarPtqlQueryMatch_iff_holds` says that the code decides exactly that, for every sequence of
  pids, when references relate fields of one type; so without references the order of the
  branches, and the sorting of them, does not matter.
-/
import Sigar.Ptql.Verdict
import Sigar.Lib.Fallible
import Sigar.Lib.Runs

namespace Sigar.Ptql

open CString Logged List

variable {libc : Libc} {world : World} {pid : SigarPid} {branches : List PtqlBranch}
  {branch : PtqlBranch}

/-! ## What a branch means -/

/-- The stored value, as its type reads it; a string can be missing. -/
def PtqlBranch.storedValue (branch : PtqlBranch) : Option FieldVal :=
  match branch.lookup.type with
  | .ui64 => some (.ui64 branch.value.bits)
  | .ui32 => some (.ui32 branch.value.bits.toUInt32)
  | .dbl => some (.dbl branch.value.asDbl)
  | .chr => some (.chr branch.value.asChr)
  | .str | .any =>
    match branch.value.asStr with
    | .text s => some (.str s)
    | _ => none

/-- What the field is compared with: the stored value, or the field of the referenced branch. -/
def comparand (world : World) (pid : SigarPid) (branches : List PtqlBranch)
    (branch : PtqlBranch) : Option FieldVal :=
  if branch.opFlags.ref then
    match branches[branch.refTo]? with
    | none => none
    | some ref =>
      match freshBlock world pid ref with
      | none => none
      | some refBlock =>
        if ref.lookup.type = branch.lookup.type then
          some (refBlock.read branch.lookup.type ref.lookup.offset)
        else none
  else branch.storedValue

/-- The installed operator; `re` is left to the hook. -/
def operatorHolds (world : World) (branch : PtqlBranch) (field needle : FieldVal) : Bool :=
  if branch.opName = .re then
    match world.reImpl, field, needle with
    | some impl, .str a, .str s => impl a s
    | _, _, _ => false
  else match (callMatch branch field needle).res with
    | .ok matched => matched
    | .error _ => false

/-- The branch holds for the pid. -/
def BranchHolds (world : World) (branches : List PtqlBranch) (pid : SigarPid)
    (branch : PtqlBranch) : Prop :=
  ∃ p, subject world branch pid = .ok p ∧
    if branch.lookup.type = .any then (runMatcher world branch p).res = .ok sigarOk
    else ∃ getter needle, branch.lookup.get = .struct getter ∧ (world.get getter p).1 = sigarOk ∧
      comparand world pid branches branch = some needle ∧
      operatorHolds world branch
        ((world.get getter p).2.read branch.lookup.type branch.lookup.offset) needle = true

/-- References relate fields of structures, of one type. -/
def RefsWellTyped (branches : List PtqlBranch) : Prop :=
  ∀ branch ∈ branches, branch.opFlags.ref = true → branch.lookup.type ≠ .any ∧
    ∃ ref, branches[branch.refTo]? = some ref ∧ ref.lookup.type = branch.lookup.type

/-! ## Comparing values of one type -/

/-- What is known of a branch of an accepted query, whatever its text was. -/
structure Installed (branch : PtqlBranch) : Prop where
  proper : branch.lookup.Proper
  installed : installOp branch.lookup.type branch.opName = some branch.matchFn
  refOp : branch.opFlags.ref = true → branch.opName ≠ .re
  strValue : branch.opFlags.ref = false →
    branch.lookup.type = .str ∨ branch.lookup.type = .any → ∃ p, branch.value = .str p

theorem BuiltBranch.toInstalled {parsed : PtqlParseBranch} {number : Nat}
    (hb : BuiltBranch libc parsed number branch) : Installed branch where
  proper := hb.proper
  installed := hb.installed
  refOp := by
    intro href
    cases hb.value with
    | ref _ _ hre _ _ => exact hre
    | var _ hno _ _ => rw [href] at hno; exact nomatch hno
    | literal _ hno _ => rw [href] at hno; exact nomatch hno
  strValue := by
    intro href htype
    cases hb.value with
    | ref _ hyes _ _ _ => rw [href] at hyes; exact nomatch hyes
    | var _ _ _ hvalue => exact ⟨_, hvalue⟩
    | literal _ _ hlit =>
      rcases htype with htype | htype
      · rw [htype] at hlit; exact ⟨_, (Except.ok.inj hlit).symm⟩
      · rw [htype] at hlit; exact ⟨_, (Except.ok.inj hlit).symm⟩

/-- Two fields of the type of the branch can be compared. -/
theorem callMatch_ok (hb : Installed branch) (block block' : Block) (offset offset' : Nat) :
    ∃ matched, (callMatch branch (block.read branch.lookup.type offset)
      (block'.read branch.lookup.type offset')).res = .ok matched := by
  have hinstalled := hb.installed
  unfold callMatch
  cases htype : branch.lookup.type with
  | ui64 | ui32 | dbl | chr =>
    rw [htype] at hinstalled
    obtain ⟨op, _, hop⟩ := Option.map_eq_some_iff.mp hinstalled
    rw [← hop]
    exact ⟨_, rfl⟩
  | str | any =>
    rw [htype] at hinstalled
    rw [← Option.some.inj hinstalled]
    exact ⟨_, rfl⟩

/-- A number type has no `re`. -/
theorem Installed.opName_ne_re (hb : Installed branch) (hstr : branch.lookup.type ≠ .str)
    (hany : branch.lookup.type ≠ .any) : branch.opName ≠ .re := by
  intro hre
  have hinstalled := hb.installed
  rw [hre] at hinstalled
  cases htype : branch.lookup.type with
  | ui64 | ui32 | dbl | chr => rw [htype] at hinstalled; exact nomatch hinstalled
  | str => exact hstr htype
  | any => exact hany htype

/-- Any operator but `re` is the one that is installed. -/
theorem operatorHolds_eq (world : World) (hre : branch.opName ≠ .re) {field needle : FieldVal}
    {matched : Bool} (h : (callMatch branch field needle).res = .ok matched) :
    operatorHolds world branch field needle = matched := by
  unfold operatorHolds
  rw [if_neg hre, h]

/-- A string value that is written as one is compared, or is missing. -/
theorem ptqlStrMatch_ok (hb : Installed branch) {p : Option HeapStr} (hvalue : branch.value = .str p)
    (htype : branch.lookup.type = .str ∨ branch.lookup.type = .any) (text : CStr) :
    (ptqlStrMatch world branch text).res
      = .ok (p.any fun s => operatorHolds world branch (.str text) (.str s.text)) := by
  have hmatch : branch.matchFn = .str branch.opName := by
    have hinstalled := hb.installed
    rcases htype with htype | htype
    · rw [htype] at hinstalled; exact (Option.some.inj hinstalled).symm
    · rw [htype] at hinstalled; exact (Option.some.inj hinstalled).symm
  unfold ptqlStrMatch
  rw [res_bind_ok (readValue_res branch .str)]
  rw [hvalue]
  cases p with
  | none => rfl
  | some s =>
    show (if branch.opName = .re then _ else callMatch branch (.str text) (.str s.text) :
      Eval Bool).res = .ok (operatorHolds world branch (.str text) (.str s.text))
    by_cases hre : branch.opName = .re
    · unfold operatorHolds
      rw [if_pos hre, if_pos hre]
      cases world.reImpl <;> rfl
    · have hcall : (callMatch branch (.str text) (.str s.text)).res
          = .ok (strVerdict branch.opFlags.icase branch.opName text s.text) := by
        unfold callMatch
        rw [hmatch]
        rfl
      rw [if_neg hre, operatorHolds_eq world hre hcall, hcall]

/-- A number or a character is compared with the value, whatever it was written as. -/
theorem ptqlBranchMatch_ok (world : World) (hb : Installed branch) (hstr : branch.lookup.type ≠ .str)
    (hany : branch.lookup.type ≠ .any) (block : Block) :
    ∃ needle, branch.storedValue = some needle ∧
      (ptqlBranchMatch branch block).res = .ok (operatorHolds world branch
        (block.read branch.lookup.type branch.lookup.offset) needle) := by
  have hre := hb.opName_ne_re hstr hany
  have hinstalled := hb.installed
  -- comparing with a value of the type is the installed operator
  have hcall : ∀ needle,
      (∃ matched, (callMatch branch (block.read branch.lookup.type branch.lookup.offset)
        needle).res = .ok matched) →
      (callMatch branch (block.read branch.lookup.type branch.lookup.offset) needle).res
        = .ok (operatorHolds world branch
            (block.read branch.lookup.type branch.lookup.offset) needle) := by
    grind [operatorHolds_eq]
  unfold PtqlBranch.storedValue ptqlBranchMatch
  cases htype : branch.lookup.type with
  | ui64 | ui32 | dbl | chr =>
    -- these values are compared by their bits, so there always is one
    rw [htype] at hinstalled hcall
    obtain ⟨op, _, hop⟩ := Option.map_eq_some_iff.mp hinstalled
    refine ⟨_, rfl, hcall _ ?_⟩
    unfold callMatch
    rw [← hop]
    exact ⟨_, rfl⟩
  | str => exact absurd htype hstr
  | any => exact absurd htype hany

/-! ## The verdict on a branch -/

/-- **The comparison of a field** says whether the operator holds for what it is compared with; a
    string that is missing is not matched, and a reference to no field of the type is a fault. -/
theorem compareFresh_eq (world : World) (pid : SigarPid) (branches : List PtqlBranch)
    (hb : Installed branch) (htype : branch.lookup.type ≠ .any) (block : Block) :
    compareFresh world pid branches branch block =
      match comparand world pid branches branch with
      | some needle => .ok (operatorHolds world branch
          (block.read branch.lookup.type branch.lookup.offset) needle)
      | none => if branch.opFlags.ref then .error .badRef else .ok false := by
  unfold compareFresh comparand
  by_cases href : branch.opFlags.ref = true
  · rw [if_pos href, if_pos href, if_pos href]
    cases branches[branch.refTo]? with
    | none => rfl
    | some ref =>
      dsimp only
      cases freshBlock world pid ref with
      | none => rfl
      | some refBlock =>
        dsimp only
        by_cases heq : ref.lookup.type = branch.lookup.type
        · rw [if_pos heq, if_pos heq]
          obtain ⟨matched, hcall⟩ := callMatch_ok hb block refBlock branch.lookup.offset
            ref.lookup.offset
          rw [hcall, ← operatorHolds_eq world (hb.refOp href) hcall]
        · rw [if_neg heq, if_neg heq]
  · rw [if_neg href, if_neg href, if_neg href]
    by_cases hstr : branch.lookup.type = .str
    · obtain ⟨p, hvalue⟩ := hb.strValue (by simpa using href) (Or.inl hstr)
      rw [if_pos hstr, ptqlStrMatch_ok hb hvalue (Or.inl hstr), PtqlBranch.storedValue, hstr, hvalue]
      cases p <;> rfl
    · obtain ⟨needle, hneedle, hmatch⟩ := ptqlBranchMatch_ok world hb hstr htype block
      rw [if_neg hstr, hmatch, hneedle]

theorem compareFresh_holds (world : World) (pid : SigarPid) (branches : List PtqlBranch)
    (hb : Installed branch) (htype : branch.lookup.type ≠ .any) (block : Block) :
    compareFresh world pid branches branch block = .ok true ↔
      ∃ needle, comparand world pid branches branch = some needle ∧
        operatorHolds world branch (block.read branch.lookup.type branch.lookup.offset) needle
          = true := by grind [compareFresh_eq]

/-- **The verdict is a match exactly when the branch holds.** -/
theorem branchVerdict_holds (hb : Installed branch) :
    branchVerdict world pid branches branch = .ok (.matched true) ↔
      BranchHolds world branches pid branch := by
  grind [Fallible.map_eq_ok_iff, compareFresh_holds, branchVerdict, BranchHolds]

/-! ## The verdict on a query -/

theorem subject_error {status : Status} (h : subject world branch pid = .error status) :
    status ≠ sigarOk := by
  unfold subject at h
  split at h
  · dsimp only at h
    split at h
    · next hstatus => rw [← Except.error.inj h]; exact hstatus
    · exact nomatch h
  · exact nomatch h

/-- A status that ends the loop early is that of a failure. -/
theorem branchVerdict_stop {status : Status}
    (h : branchVerdict world pid branches branch = .ok (.stop status)) : status ≠ sigarOk := by
  unfold branchVerdict at h
  cases hsubject : subject world branch pid with
  | error failed => grind [Verdict.stop.inj, subject_error]
  | ok p => grind [Fallible.map_eq_ok_iff, Verdict.stop.inj]

/-- **The loop succeeds exactly when every branch matches.** -/
theorem verdictLoop_ok : ∀ {rest : List PtqlBranch},
    verdictLoop world pid branches rest = .ok sigarOk ↔
      ∀ branch ∈ rest, branchVerdict world pid branches branch = .ok (.matched true) := by
  intro rest
  induction rest with
  | nil => simp [verdictLoop]
  | cons b rest ih =>
    rw [verdictLoop, forall_mem_cons]
    cases hverdict : branchVerdict world pid branches b with
    | error fault => simp
    | ok verdict => grind [branchVerdict_stop, notMatched, sigarOk]

/-- **The verdict on a query is a success exactly when every branch holds.** -/
theorem queryVerdict_ok (world : World) (pid : SigarPid) (hinst : ∀ b ∈ branches, Installed b) :
    queryVerdict world branches pid = .ok sigarOk ↔
      ∀ b ∈ branches, BranchHolds world branches pid b := by
  unfold queryVerdict
  rw [verdictLoop_ok]
  exact forall₂_congr fun b hb => branchVerdict_holds (hinst b hb)

/-- A branch that matched has loaded its structure. -/
theorem freshBlock_of_matched {m : Bool} (hb : Installed branch)
    (h : branchVerdict world pid branches branch = .ok (.matched m))
    (htype : branch.lookup.type ≠ .any) : ∃ block, freshBlock world pid branch = some block := by
  unfold branchVerdict at h
  unfold freshBlock
  rw [if_neg htype]
  cases hsubject : subject world branch pid with
  | error failed => rw [hsubject] at h; exact nomatch Except.ok.inj h
  | ok p =>
    rcases hb.proper with ⟨_, _, getter, hget⟩ | ⟨hany, _, _⟩
    · rw [hget]; exact ⟨_, rfl⟩
    · exact absurd hany htype

/-! ## Where the code has no meaning -/

/-- The round of a branch gets as far as comparing a structure that it loaded. -/
def Loads (world : World) (pid : SigarPid) (branch : PtqlBranch) : Prop :=
  branch.lookup.type ≠ .any ∧ ∃ p getter, subject world branch pid = .ok p ∧
    branch.lookup.get = .struct getter ∧ (world.get getter p).1 = sigarOk

/-- A reference of a field to a branch of another type. -/
def IllTyped (branches : List PtqlBranch) (branch : PtqlBranch) : Prop :=
  branch.opFlags.ref = true ∧
    ∀ ref, branches[branch.refTo]? = some ref → ref.lookup.type ≠ branch.lookup.type

/-- The texts of a process that a matcher compares with the value of its branch. -/
def comparedTexts (world : World) (branch : PtqlBranch) (p : SigarPid) : List CStr :=
  match branch.lookup.get with
  | .args =>
    if (world.args p).1 ≠ sigarOk then []
    else chosenTexts ((world.args p).2.take (intMax + 1)) (pickArg branch (world.args p).2)
  | .modules => chosenTexts (world.modules p).2 (world.modules p).2[(dataUi32 branch).toNat]?
  | .env => if (world.env p).1 ≠ sigarOk then [] else (pickVar branch (world.env p).2).toList
  | .pid | .struct _ => []
where
  chosenTexts (texts : List CStr) (one : Option CStr) : List CStr :=
    if branch.opFlags.glob then texts else one.toList

/-- A matcher takes a number for the address of a string, and has a text to compare it with. -/
def ReadsWild (world : World) (pid : SigarPid) (branch : PtqlBranch) : Prop :=
  branch.lookup.type = .any ∧ branch.value.asStr = .wild ∧
    ∃ p, subject world branch pid = .ok p ∧ comparedTexts world branch p ≠ []

/-- The round of the branch has no meaning: it compares a reference with a field of another type,
    or a text with what is no string. -/
def Meaningless (world : World) (branches : List PtqlBranch) (pid : SigarPid)
    (branch : PtqlBranch) : Prop :=
  (Loads world pid branch ∧ IllTyped branches branch) ∨ ReadsWild world pid branch

/-- Only a reference is no string. -/
theorem Installed.ref_of_wild (hb : Installed branch) (htype : branch.lookup.type = .any)
    (hwild : branch.value.asStr = .wild) : branch.opFlags.ref = true := by
  by_contra hno
  obtain ⟨p, hvalue⟩ := hb.strValue (Bool.not_eq_true _ ▸ hno) (Or.inr htype)
  rw [hvalue] at hwild
  cases p with
  | none => exact nomatch hwild
  | some s => exact nomatch hwild

/-! ### The matchers -/

section Matchers

variable (hb : Installed branch) (htype : branch.lookup.type = .any)

include hb htype

theorem ptqlStrMatch_wild (hwild : branch.value.asStr = .wild) (text : CStr) :
    (ptqlStrMatch world branch text).res = .error .wildString := by
  have hre : branch.opName ≠ .re := hb.refOp (hb.ref_of_wild htype hwild)
  unfold ptqlStrMatch
  rw [res_bind_ok (readValue_res branch .str)]
  rw [hwild]
  dsimp only
  rw [if_neg fun hc => hre hc.1]
  rfl

theorem ptqlStrMatch_noFault (world : World) (hwild : branch.value.asStr ≠ .wild) (text : CStr) :
    ∃ matched, (ptqlStrMatch world branch text).res = .ok matched := by
  unfold ptqlStrMatch
  rw [res_bind_ok (readValue_res branch .str)]
  cases hstr : branch.value.asStr with
  | null => exact ⟨_, rfl⟩
  | wild => exact absurd hstr hwild
  | text s =>
    dsimp only
    split
    · cases world.reImpl with
      | none => exact ⟨_, rfl⟩
      | some impl => exact ⟨_, rfl⟩
    · have hinstalled := hb.installed
      rw [htype] at hinstalled
      unfold callMatch
      rw [← Option.some.inj hinstalled]
      exact ⟨_, rfl⟩

/-- The loop over texts stops at the first one if the value is no string. -/
theorem anyMatches_ok_iff : ∀ texts : List CStr,
    (∃ matched, (anyMatches world branch texts).res = .ok matched) ↔
      (branch.value.asStr = .wild → texts = []) := by
  intro texts
  induction texts with
  | nil => exact ⟨fun _ _ => rfl, fun _ => ⟨_, rfl⟩⟩
  | cons text rest ih =>
    rw [anyMatches, res_bind]
    by_cases hwild : branch.value.asStr = .wild
    · rw [ptqlStrMatch_wild hb htype hwild]
      exact ⟨fun ⟨_, h⟩ => (nomatch h), fun h => (nomatch h hwild)⟩
    · obtain ⟨matched, hmatched⟩ := ptqlStrMatch_noFault hb htype world hwild text
      refine ⟨fun _ h => absurd h hwild, fun _ => ?_⟩
      rw [hmatched]
      cases matched with
      | true => exact ⟨_, rfl⟩
      | false => exact ih.mpr fun h => absurd h hwild

theorem matchOne_ok_iff (text : Option CStr) :
    (∃ matched, (matchOne world branch text).res = .ok matched) ↔
      (branch.value.asStr = .wild → text.toList = []) := by
  cases text with
  | none => exact ⟨fun _ _ => rfl, fun _ => ⟨_, rfl⟩⟩
  | some text =>
    by_cases hwild : branch.value.asStr = .wild
    · grind [matchOne, ptqlStrMatch_wild]
    · exact ⟨fun _ h => absurd h hwild, fun _ => ptqlStrMatch_noFault hb htype world hwild text⟩

theorem matchTexts_ok_iff (texts : List CStr) (one : Option CStr) :
    (∃ matched, (matchTexts world branch texts one).res = .ok matched) ↔
      (branch.value.asStr = .wild → comparedTexts.chosenTexts branch texts one = []) := by
  unfold matchTexts comparedTexts.chosenTexts
  split
  · exact anyMatches_ok_iff hb htype texts
  · exact matchOne_ok_iff hb htype one

/-- A matcher faults exactly when it compares a text with what is no string. -/
theorem runMatcher_ok_iff (world : World) (p : SigarPid) :
    (∃ status, (runMatcher world branch p).res = .ok status) ↔
      (branch.value.asStr = .wild → comparedTexts world branch p = []) := by
  -- a matcher returns a status if its comparison returns
  have hthen : ∀ (x : Eval Bool) (f : Bool → Status),
      (∃ status, (x >>= fun matched => pure (f matched)).res = .ok status) ↔
        ∃ matched, x.res = .ok matched := by
    intro x f
    constructor
    · rintro ⟨status, h⟩
      obtain ⟨matched, hx, _⟩ := res_bind_eq_ok.mp h
      exact ⟨matched, hx⟩
    · rintro ⟨matched, hx⟩
      exact ⟨_, res_bind_eq_ok.mpr ⟨matched, hx, rfl⟩⟩
  unfold runMatcher comparedTexts
  cases branch.lookup.get with
  | args =>
    show (∃ status, (ptqlArgsMatch world branch p).res = .ok status) ↔ _
    unfold ptqlArgsMatch
    dsimp only
    split
    · exact ⟨fun _ _ => rfl, fun _ => ⟨_, rfl⟩⟩
    · exact (hthen _ _).trans (matchTexts_ok_iff hb htype _ _)
  | modules => exact (hthen _ _).trans (matchTexts_ok_iff hb htype _ _)
  | env =>
    show (∃ status, (ptqlEnvMatch world branch p).res = .ok status) ↔ _
    unfold ptqlEnvMatch
    dsimp only
    split
    · exact ⟨fun _ _ => rfl, fun _ => ⟨_, rfl⟩⟩
    · exact (hthen _ _).trans (matchOne_ok_iff hb htype _)
  | pid => exact ⟨fun _ _ => rfl, fun _ => ⟨_, rfl⟩⟩
  | struct getter => exact ⟨fun _ _ => rfl, fun _ => ⟨_, rfl⟩⟩

end Matchers

/-! ### The loop -/

/-- What a reference points to has been loaded for this pid, if it is a field. -/
def RefLoaded (world : World) (branches : List PtqlBranch) (pid : SigarPid)
    (branch : PtqlBranch) : Prop :=
  ∀ ref, branches[branch.refTo]? = some ref → ref.lookup.type ≠ .any →
    ∃ block, freshBlock world pid ref = some block

/-- The comparison of a field faults exactly when its reference is of another type. -/
theorem compareFresh_ok_iff (hb : Installed branch) (htype : branch.lookup.type ≠ .any)
    (hloaded : branch.opFlags.ref = true → RefLoaded world branches pid branch) (block : Block) :
    (∃ matched, compareFresh world pid branches branch block = .ok matched) ↔
      ¬ IllTyped branches branch := by
  rw [compareFresh_eq world pid branches hb htype, comparand, IllTyped]
  by_cases href : branch.opFlags.ref = true
  · rw [if_pos href]
    cases hget : branches[branch.refTo]? with
    | none => simp [href]
    | some ref =>
      by_cases heq : ref.lookup.type = branch.lookup.type
      · obtain ⟨refBlock, hfresh⟩ := hloaded href ref hget (heq ▸ htype)
        simp [hfresh, heq]
      · grind
  · rw [if_neg href]
    cases branch.storedValue <;> simp [href]

/-- **A round faults exactly when it has no meaning.** -/
theorem branchVerdict_ok_iff (hb : Installed branch)
    (hloaded : branch.opFlags.ref = true → RefLoaded world branches pid branch) :
    (∃ verdict, branchVerdict world pid branches branch = .ok verdict) ↔
      ¬ Meaningless world branches pid branch := by
  unfold branchVerdict Meaningless Loads ReadsWild
  cases hsubject : subject world branch pid with
  | error status => simp
  | ok p =>
    rcases hb.proper with ⟨htype, _, getter, hget⟩ | ⟨htype, _, _⟩
    · by_cases hstatus : (world.get getter p).1 = sigarOk
      · have hcompare := compareFresh_ok_iff hb htype hloaded (world.get getter p).2
        simp [htype, hget, hstatus, Fallible.exists_map_eq_ok, hcompare]
      · simp [htype, hget, hstatus]
    · have hrun := runMatcher_ok_iff hb htype world p
      simp [htype, Fallible.exists_map_eq_ok, hrun]

/-- The loop comes to no branch without a meaning. -/
def MeaningfulFrom (world : World) (branches : List PtqlBranch) (pid : SigarPid)
    (rest : List PtqlBranch) : Prop :=
  ∀ before branch after, rest = before ++ branch :: after →
    (∀ b ∈ before, BranchHolds world branches pid b) → ¬ Meaningless world branches pid branch

theorem meaningfulFrom_cons {rest : List PtqlBranch} :
    MeaningfulFrom world branches pid (branch :: rest) ↔
      ¬ Meaningless world branches pid branch ∧
        (BranchHolds world branches pid branch → MeaningfulFrom world branches pid rest) := by
  constructor
  · intro h
    refine ⟨h [] branch rest rfl fun b hb => absurd hb not_mem_nil, ?_⟩
    intro hholds before b after hsplit hbefore
    refine h (branch :: before) b after (by rw [hsplit]; rfl) ?_
    exact forall_mem_cons.mpr ⟨hholds, hbefore⟩
  · rintro ⟨hfirst, hrest⟩ before b after hsplit hbefore
    cases before with
    | nil => grind
    | cons x before =>
      obtain ⟨rfl, htail⟩ := cons.inj hsplit
      obtain ⟨hx, hbefore⟩ := forall_mem_cons.mp hbefore
      exact hrest hx before b after htail hbefore

/-- **The loop faults exactly when it comes to a branch without a meaning.**  A reference points
    to a branch behind the loop, which matched and so is loaded. -/
theorem verdictLoop_ok_iff (world : World) (pid : SigarPid) (hsound : Sound branches)
    (hinst : ∀ b ∈ branches, Installed b) : ∀ (after before : List PtqlBranch),
    branches = before ++ after →
    (∀ b ∈ before, branchVerdict world pid branches b = .ok (.matched true)) →
    ((∃ status, verdictLoop world pid branches after = .ok status) ↔
      MeaningfulFrom world branches pid after) := by
  intro after
  induction after with
  | nil =>
    intro _ _ _
    refine ⟨fun _ before b rest hsplit => ?_, fun _ => ⟨_, rfl⟩⟩
    exact absurd hsplit (by simp)
  | cons b rest ih =>
    intro before hsplit hbefore
    have hget : branches[before.length]? = some b := by rw [hsplit]; simp
    have hinstb := hinst b (mem_of_getElem? hget)
    -- the referenced branch is behind the loop, so it matched
    have hloaded : b.opFlags.ref = true → RefLoaded world branches pid b := by
      intro href ref hrefGet htype
      have hlt := hsound.refBefore before.length b hget href
      have hin : ref ∈ before := by grind
      exact freshBlock_of_matched (hinst ref (mem_of_getElem? hrefGet)) (hbefore ref hin) htype
    rw [meaningfulFrom_cons, ← branchVerdict_ok_iff hinstb hloaded, ← branchVerdict_holds hinstb,
      verdictLoop]
    cases hverdict : branchVerdict world pid branches b with
    | error fault => simp
    | ok verdict =>
      cases verdict with
      | stop status => simp
      | matched m =>
        cases m with
        | false => simp
        | true =>
          have hnext := ih (before ++ [b]) (by rw [hsplit]; simp) (by
            intro x hx
            rcases mem_append.mp hx with hx | hx
            · exact hbefore x hx
            · rwa [mem_singleton.mp hx])
          simpa using hnext

theorem queryVerdict_ok_iff (world : World) (hsound : Sound branches)
    (hinst : ∀ b ∈ branches, Installed b) (pid : SigarPid) :
    (∃ status, queryVerdict world branches pid = .ok status) ↔
      MeaningfulFrom world branches pid branches :=
  verdictLoop_ok_iff world pid hsound hinst branches [] (nil_append branches).symm
    fun _ hb => absurd hb not_mem_nil

/-- References of one type always have a meaning. -/
theorem RefsWellTyped.meaningful (hrefs : RefsWellTyped branches)
    (hinst : ∀ b ∈ branches, Installed b) : MeaningfulFrom world branches pid branches := by
  rintro before b after hsplit _ (⟨_, href, hill⟩ | ⟨htype, hwild, _⟩)
  · obtain ⟨_, ref, hget, heq⟩ := hrefs b (by rw [hsplit]; simp) href
    exact hill ref hget heq
  · have hb : b ∈ branches := by rw [hsplit]; simp
    exact (hrefs b hb ((hinst b hb).ref_of_wild htype hwild)).1 htype

/-! ## Accepted queries -/

section Accepted

variable {ptql : CStr} {query : PtqlQuery} (hcreate : sigarPtqlQueryCreate libc ptql = .ok query)

include hcreate

theorem accepted_installed : ∀ b ∈ query.branches, Installed b := by
  intro b hb
  obtain ⟨_, _, _, _, _, hbuilt⟩ := branch_comesFrom hcreate hb
  exact hbuilt.toInstalled

theorem accepted_sound : Sound query.branches where
  proper b hb := (accepted_installed hcreate b hb).proper
  refBefore := by
    intro i b hget href
    obtain ⟨n, hvalue, hlt⟩ := ref_before hcreate hget href
    have hindex : b.refTo = n.toNat := by
      unfold PtqlBranch.refTo
      rw [hvalue]
      simp [AnyValue.bits]
    omega

end Accepted

/-- One call of `sigar_ptql_query_match`; a fault leaves no query to speak of. -/
def matchStep (world : World) (query : PtqlQuery) (pid : SigarPid) :
    PtqlQuery × Except Fault Status :=
  match (sigarPtqlQueryMatch world query pid).res with
  | .ok (query, status) => (query, .ok status)
  | .error fault => (query, .error fault)

/-- A call answers what the verdict says, and leaves a query that will. -/
theorem matchStep_verdict (world : World) {query : PtqlQuery} (hsound : Sound branches)
    (hquery : Forall₂ Reloaded branches query.branches) (pid : SigarPid) :
    (matchStep world query pid).2 = queryVerdict world branches pid ∧
    Forall₂ Reloaded branches (matchStep world query pid).1.branches := by
  obtain ⟨hverdict, hreloaded⟩ := sigarPtqlQueryMatch_verdict world hsound hquery pid
  unfold matchStep
  rw [← hverdict]
  cases hres : (sigarPtqlQueryMatch world query pid).res with
  | error fault => exact ⟨rfl, hquery⟩
  | ok pair => exact ⟨rfl, hreloaded pair hres⟩

/-- The run lemma: so do all the calls of a sequence. -/
theorem exec_matchStep (hsound : Sound branches) : ∀ (pids : List SigarPid) {query : PtqlQuery},
    Forall₂ Reloaded branches query.branches →
    (Runs.exec (matchStep world) query pids).2 = pids.map (queryVerdict world branches) := by
  intro pids
  induction pids with
  | nil => intro query _; rfl
  | cons pid rest ih =>
    intro query hquery
    obtain ⟨hanswer, hnext⟩ := matchStep_verdict world hsound hquery pid
    rw [Runs.exec_cons, map_cons, hanswer, ih hnext]

/-- What the verdict on a query without bad references is. -/
theorem queryVerdict_holds (world : World) (hsound : Sound branches)
    (hinst : ∀ b ∈ branches, Installed b) (hrefs : RefsWellTyped branches) (pid : SigarPid) :
    ∃ status, queryVerdict world branches pid = .ok status ∧
      (status = sigarOk ↔ ∀ b ∈ branches, BranchHolds world branches pid b) := by
  obtain ⟨status, hstatus⟩ := (queryVerdict_ok_iff world hsound hinst pid).mpr
    (hrefs.meaningful hinst)
  refine ⟨status, hstatus, ?_⟩
  have hok : status = sigarOk ↔ queryVerdict world branches pid = .ok sigarOk := by simp [hstatus]
  rw [hok, queryVerdict_ok world pid hinst]

/-! ## The order of the branches -/

/-- Both queries say the same about a pid. -/
def SameVerdict (world : World) (query query' : PtqlQuery) (pid : SigarPid) : Prop :=
  ∃ status status', (matchStep world query pid).2 = .ok status ∧
    (matchStep world query' pid).2 = .ok status' ∧ (status = sigarOk ↔ status' = sigarOk)

/-- A branch that is no reference means the same in any query. -/
theorem branchHolds_noRef (href : branch.opFlags.ref = false) (branches' : List PtqlBranch) :
    BranchHolds world branches pid branch ↔ BranchHolds world branches' pid branch := by
  grind [comparand, BranchHolds]

theorem sameVerdict_of_perm {branches' : List PtqlBranch} (hperm : branches'.Perm branches)
    (hinst : ∀ b ∈ branches, Installed b) (hnoRef : ∀ b ∈ branches, b.opFlags.ref = false)
    (pid : SigarPid) : SameVerdict world ⟨branches'⟩ ⟨branches⟩ pid := by
  -- a list without references is sound and has no bad ones
  have hgood : ∀ bs : List PtqlBranch, (∀ b ∈ bs, b ∈ branches) → ∃ status,
      (matchStep world ⟨bs⟩ pid).2 = .ok status ∧
      (status = sigarOk ↔ ∀ b ∈ bs, BranchHolds world bs pid b) := by
    intro bs hbs
    have hsound : Sound bs :=
      { proper := fun b hb => (hinst b (hbs b hb)).proper
        refBefore := by
          intro i b hget href
          rw [hnoRef b (hbs b (mem_of_getElem? hget))] at href
          exact nomatch href }
    have hrefs : RefsWellTyped bs := by
      intro b hb href
      rw [hnoRef b (hbs b hb)] at href
      exact nomatch href
    have hself : Forall₂ Reloaded bs (PtqlQuery.mk bs).branches :=
      forall₂_same.mpr fun b _ => .refl b
    obtain ⟨status, hstatus, hiff⟩ := queryVerdict_holds world hsound
      (fun b hb => hinst b (hbs b hb)) hrefs pid
    exact ⟨status, (matchStep_verdict world hsound hself pid).1.trans hstatus, hiff⟩
  obtain ⟨status', hstatus', hiff'⟩ := hgood branches' fun b hb => hperm.mem_iff.mp hb
  obtain ⟨status, hstatus, hiff⟩ := hgood branches fun b hb => hb
  refine ⟨status', status, hstatus', hstatus, ?_⟩
  rw [hiff', hiff]
  constructor
  · intro h b hb
    exact (branchHolds_noRef (hnoRef b hb) branches).mp (h b (hperm.mem_iff.mpr hb))
  · intro h b hb
    have hb' := hperm.mem_iff.mp hb
    exact (branchHolds_noRef (hnoRef b hb') branches').mp (h b hb')

/-- **The code decides the conjunction of the branches**, for every sequence of pids, with the
    data of each pid only; the order of the branches does not matter without references, and the
    sorting at creation never does. -/
theorem sigarPtqlQueryMatch_iff_holds (libc : Libc) (ptql : CStr) (query : PtqlQuery)
    (hcreate : sigarPtqlQueryCreate libc ptql = .ok query) (hrefs : RefsWellTyped query.branches)
    (world : World) :
    (∀ pids : List SigarPid,
      Forall₂ (fun pid answer => ∃ status, answer = .ok status ∧
          (status = sigarOk ↔ ∀ b ∈ query.branches, BranchHolds world query.branches pid b))
        pids (Runs.exec (matchStep world) query pids).2) ∧
    ((∀ b ∈ query.branches, b.opFlags.ref = false) →
      ∀ branches', branches'.Perm query.branches → ∀ pid, SameVerdict world ⟨branches'⟩ query pid) ∧
    (∀ built, addPieces libc [] (pieces ptql) = .ok built →
      ∀ pid, SameVerdict world ⟨built⟩ query pid) := by
  have hsound := accepted_sound hcreate
  have hinst := accepted_installed hcreate
  have hself : Forall₂ Reloaded query.branches query.branches :=
    forall₂_same.mpr fun b _ => .refl b
  refine ⟨?_, ?_, ?_⟩
  · intro pids
    rw [exec_matchStep hsound pids hself, forall₂_map_right_iff]
    refine forall₂_same.mpr fun pid _ => ?_
    exact queryVerdict_holds world hsound hinst hrefs pid
  · intro hnoRef branches' hperm pid
    exact sameVerdict_of_perm hperm hinst hnoRef pid
  · intro built hbuilt pid
    unfold sigarPtqlQueryCreate at hcreate
    rw [hbuilt] at hcreate
    dsimp only at hcreate
    by_cases hany : built.any (·.opFlags.ref) = true
    · -- not sorted: the same query
      rw [if_pos hany] at hcreate
      rw [Except.ok.inj hcreate]
      obtain ⟨status, hstatus, _⟩ := queryVerdict_holds world hsound hinst hrefs pid
      have hanswer := (matchStep_verdict world hsound hself pid).1.trans hstatus
      exact ⟨status, status, hanswer, hanswer, Iff.rfl⟩
    · rw [if_neg hany] at hcreate
      have hquery : query.branches = libc.qsort built :=
        (congrArg PtqlQuery.branches (Except.ok.inj hcreate)).symm
      have hperm : built.Perm query.branches := by
        rw [hquery]
        exact (libc.qsort_perm built).symm
      refine sameVerdict_of_perm hperm hinst ?_ pid
      intro b hb
      have hfalse := any_eq_false.mp (Bool.eq_false_iff.mpr hany) b (hperm.mem_iff.mpr hb)
      simpa using hfalse

instance (branches : List PtqlBranch) : Decidable (RefsWellTyped branches) :=
  decidable_of_iff (∀ branch ∈ branches, branch.opFlags.ref = true → branch.lookup.type ≠ .any ∧
      branches[branch.refTo]?.any (fun ref => ref.lookup.type = branch.lookup.type) = true) (by
    simp only [RefsWellTyped, Option.any_eq_true, decide_eq_true_eq])

/-- A reference to a field of the same type. -/
theorem sigarPtqlQueryMatch_iff_holds_example :
    ∃ query, sigarPtqlQueryCreate .plain "State.Tty.ge=0,State.Ppid.eq=$1".toList = .ok query ∧
      Forall₂ (fun pid answer => ∃ status, answer = .ok status ∧
          (status = sigarOk ↔
            ∀ b ∈ query.branches, BranchHolds (.plain [1, 2]) query.branches pid b))
        [1, 2] (Runs.exec (matchStep (.plain [1, 2])) query [1, 2]).2 := by
  obtain ⟨query, hcreate, hrefs⟩ :
      ∃ query, sigarPtqlQueryCreate .plain "State.Tty.ge=0,State.Ppid.eq=$1".toList = .ok query ∧
        decide (RefsWellTyped query.branches) = true := accepted_of_test (by decide +kernel)
  exact ⟨query, hcreate, (sigarPtqlQueryMatch_iff_holds .plain _ query hcreate
    (of_decide_eq_true hrefs) (.plain [1, 2])).1 [1, 2]⟩

end Sigar.Ptql
