/-
  The value of a branch, a union.

  It is written on four paths, by the form of the value's text, and read on paths chosen by the
  type of the lookup.  `BuiltBranch.readAs_iff` says for one branch when the two agree;
  `values_readAsWritten_iff` says it for every evaluation of a query: exactly when no number or
  character is compared with an environment variable `$NAME`, and no text of `Args`, `Modules` or
  `Env` with a reference `$n`.
-/
import Sigar.Ptql.OpTables
import Sigar.Ptql.Args

namespace Sigar.Ptql

open CString Logged List

variable {libc : Libc} {world : World} {pid : SigarPid} {branches : List PtqlBranch}
  {branch : PtqlBranch} {query : PtqlQuery} {before after : List PtqlBranch} {P : Event → Prop}

/-! ## One branch -/

/-- A value is read through the member that it was written through. -/
def Event.ReadAsWritten : Event → Prop
  | .readValue member written => written = some member
  | _ => True

theorem literalValue_written {type : PtqlValueType} {number : Nat} {text : CStr} {value : AnyValue}
    (h : literalValue libc type number text = .ok value) : value.written = some type.member := by
  unfold literalValue at h
  cases type with
  | ui64 | ui32 | dbl =>
    dsimp only at h
    split at h
    · exact nomatch h
    · obtain rfl := Except.ok.inj h
      rfl
  | chr =>
    dsimp only at h
    split at h
    · obtain rfl := Except.ok.inj h
      rfl
    · exact nomatch h
  | str | any =>
    obtain rfl := Except.ok.inj h
    rfl

/-- **When a branch is read as it was written**: by its lookup and the form of its value. -/
theorem BuiltBranch.readAs_iff {parsed : PtqlParseBranch} {number : Nat}
    (hb : BuiltBranch libc parsed number branch) :
    (∀ member, branch.readAs = some member → branch.value.written = some member) ↔
      (IsVarText parsed.value → branch.lookup.type = .str ∨ branch.lookup.type = .any) ∧
      (IsRefText parsed.value → branch.lookup.get.readsText = false) := by
  unfold PtqlBranch.readAs
  cases hb.value with
  | ref htext href _ hvalue _ =>
    have hvar : ¬ IsVarText parsed.value := by
      intro hv
      exact absurd htext.2 (by rw [hv.2]; decide)
    rw [hvalue, href]
    constructor
    · intro h
      refine ⟨fun hv => absurd hv hvar, fun _ => ?_⟩
      -- a matcher of texts belongs to a class without a structure
      by_contra htexts
      rw [Bool.not_eq_false] at htexts
      rcases hb.proper with ⟨_, _, getter, hget⟩ | ⟨htype, _, _⟩
      · rw [hget] at htexts
        exact nomatch htexts
      · have hread := h .str (by rw [if_pos htype, if_pos htexts])
        exact nomatch hread
    · rintro ⟨_, htexts⟩ member h
      rw [htexts htext] at h
      by_cases htype : branch.lookup.type = .any
      · rw [if_pos htype] at h
        exact nomatch h
      · rw [if_neg htype] at h
        exact h
  | var htext href _ hvalue =>
    have hnoRef : ¬ IsRefText parsed.value := by
      intro hr
      exact absurd hr.2 (by rw [htext.2]; decide)
    rw [hvalue, href]
    constructor
    · intro h
      refine ⟨fun _ => ?_, fun hr => absurd hr hnoRef⟩
      by_cases htype : branch.lookup.type = .any
      · exact Or.inr htype
      · have hread := h _ (if_neg htype)
        cases hcase : branch.lookup.type with
        | ui64 | ui32 | dbl | chr => rw [hcase] at hread; exact nomatch hread
        | str => exact Or.inl rfl
        | any => exact absurd hcase htype
    · rintro ⟨htype, _⟩ member h
      rcases htype htext with hstr | hany
      · rw [hstr] at h
        exact h
      · rw [if_pos hany] at h
        split at h
        · exact h
        · exact nomatch h
  | literal htext href hlit =>
    rw [href, literalValue_written hlit]
    constructor
    · intro _
      exact ⟨fun hv => absurd hv.1 htext, fun hr => absurd hr.1 htext⟩
    · intro _ member h
      by_cases htype : branch.lookup.type = .any
      · rw [if_pos htype] at h
        rw [htype]
        split at h
        · exact h
        · exact nomatch h
      · rw [if_neg htype] at h
        exact h

/-! ## Every branch is read somewhere -/

theorem readValue_mem (member : Member) :
    Event.readValue member branch.value.written ∈ (readValue branch member).log :=
  mem_log_bind_left mem_cons_self _

theorem ptqlStrMatch_mem (text : CStr) :
    Event.readValue .str branch.value.written ∈ (ptqlStrMatch world branch text).log :=
  mem_log_bind_left (readValue_mem .str) _

theorem matchTexts_mem {texts : List CStr} {text : CStr} (one : CStr) :
    Event.readValue .str branch.value.written
      ∈ (matchTexts world branch (text :: texts) (some one)).log := by
  unfold matchTexts
  split
  · exact mem_log_bind_left (ptqlStrMatch_mem text) _
  · exact ptqlStrMatch_mem one

theorem compareLoaded_mem {i : Nat} {block : Block} {member : Member}
    (htype : branch.lookup.type ≠ .any) (h : branch.readAs = some member) :
    Event.readValue member branch.value.written
      ∈ (compareLoaded world branches i branch block).log := by
  unfold PtqlBranch.readAs at h
  rw [if_neg htype] at h
  unfold compareLoaded
  by_cases href : branch.opFlags.ref = true
  · rw [if_pos href] at h ⊢
    obtain rfl := Option.some.inj h
    exact mem_log_bind_left (readValue_mem .ui32) _
  · rw [if_neg href] at h ⊢
    obtain rfl := Option.some.inj h
    split
    · next hstr =>
      rw [hstr]
      exact ptqlStrMatch_mem _
    · unfold ptqlBranchMatch
      cases branch.lookup.type with
      | ui64 | ui32 | dbl | chr | str | any =>
        exact mem_log_bind_left (readValue_mem _) _

/-- A world in which every argument, every module and the variable `name` is there. -/
def World.speaking (name : CStr) : World :=
  { World.plain [] with
    args := fun _ => (sigarOk, replicate 2147483648 [])
    modules := fun _ => (sigarOk, replicate 4294967296 [])
    env := fun _ => (sigarOk, [(name, [])]) }

theorem pickArg_replicate (text : CStr) :
    pickArg branch (replicate 2147483648 text) = some text := by
  have hlow := Int32.le_toInt (dataUi32 branch).toInt32
  have hhigh := Int32.toInt_lt (dataUi32 branch).toInt32
  have hdata : (dataUi32 branch).toInt32 = Int32.ofInt (dataUi32 branch).toInt32.toInt :=
    (Int32.ofInt_toInt _).symm
  -- a negative number and 2^31 add up to an `int` again
  have hinside : Inside (storedIndex (dataUi32 branch).toInt32.toInt 2147483648) 2147483648 := by
    simp only [Inside, storedIndex, Words.wrap32]
    omega
  unfold pickArg
  rw [length_replicate, argRead_eq hdata, if_pos hinside]
  dsimp only
  rw [getElem?_replicate, if_pos (by obtain ⟨h0, h1⟩ := hinside; omega)]

theorem runMatcher_mem (h : branch.lookup.get.readsText = true) :
    Event.readValue .str branch.value.written
      ∈ (runMatcher (.speaking (dataStr branch)) branch pid).log := by
  have htake : (replicate 2147483648 ([] : CStr)).take (intMax + 1)
      = [] :: replicate 2147483647 [] := by
    rw [take_replicate]
    exact replicate_succ
  have htexts : replicate 4294967296 ([] : CStr) = [] :: replicate 4294967295 [] :=
    replicate_succ
  unfold runMatcher
  cases hget : branch.lookup.get with
  | args =>
    show _ ∈ (matchTexts _ branch ((replicate 2147483648 []).take (intMax + 1))
      (pickArg branch (replicate 2147483648 [])) >>= _).log
    rw [pickArg_replicate, htake]
    exact mem_log_bind_left (matchTexts_mem []) _
  | modules =>
    show _ ∈ (matchTexts _ branch (replicate 4294967296 [])
      (replicate 4294967296 [])[(dataUi32 branch).toNat]? >>= _).log
    rw [getElem?_replicate, if_pos (dataUi32 branch).toNat_lt, htexts]
    exact mem_log_bind_left (matchTexts_mem []) _
  | env =>
    show _ ∈ (matchOne _ branch (pickVar branch [(dataStr branch, [])]) >>= _).log
    have hvar : pickVar branch [(dataStr branch, [])] = some [] := by
      unfold pickVar
      simp
    rw [hvar]
    exact mem_log_bind_left (ptqlStrMatch_mem []) _
  | pid => rw [hget] at h; exact nomatch h
  | struct getter => rw [hget] at h; exact nomatch h

/-- There a round reads the value of its branch. -/
theorem evalBranch_mem (hproper : branch.lookup.Proper) {member : Member}
    (h : branch.readAs = some member) :
    Event.readValue member branch.value.written
      ∈ (evalBranch (.speaking (dataStr branch)) pid before branch after).log := by
  obtain ⟨p, hsubject⟩ : ∃ p, subject (.speaking (dataStr branch)) branch pid = .ok p :=
    subject_ok branch rfl
  rcases hproper with ⟨htype, _, getter, hget⟩ | ⟨htype, _, _⟩
  · rw [evalBranch_struct (.refl branch) hsubject htype hget]
    show _ ∈ (Logged.emit _ >>= _).log
    refine mem_log_bind_right rfl (mem_log_bind_left ?_ _)
    exact compareLoaded_mem htype h
  · rw [evalBranch_any hsubject htype]
    unfold PtqlBranch.readAs at h
    rw [if_pos htype] at h
    split at h
    · next htexts =>
      obtain rfl := Option.some.inj h
      exact mem_log_bind_left (runMatcher_mem htexts) _
    · exact nomatch h

/-! ## Values that suit their branches -/

/-- The value was parsed as a number or a character from the text of the query, or from the
    environment variable that it names. -/
def FromText (libc : Libc) (ptql : CStr) (branch : PtqlBranch) : Prop :=
  ∃ piece ∈ pieces ptql, ∃ parsed number text, ptqlBranchParse piece = .ok parsed ∧
    (text = parsed.value ∨
      (IsVarText parsed.value ∧ libc.getenv parsed.value.tail = some text)) ∧
    literalValue libc branch.lookup.type number text = .ok branch.value

/-- The value of a branch is read as it was written: in every round of the match loop, whatever
    the buffers hold, when the branch is destroyed, and so over the whole life of the query; and
    numbers and characters come from a text. -/
structure ReadsItsValues (libc : Libc) (ptql : CStr) (query : PtqlQuery) : Prop where
  round : ∀ before branch after, SameBranches query.branches ⟨before ++ branch :: after⟩ →
    ∀ world pid, (evalBranch world pid before branch after).All Event.ReadAsWritten
  free : ∀ branch ∈ query.branches, (freeValue branch).All Event.ReadAsWritten
  life : ∀ calls, (lifetime query calls).All Event.ReadAsWritten
  numbers : ∀ branch ∈ query.branches, branch.lookup.type ≠ .str → branch.lookup.type ≠ .any →
    branch.opFlags.ref = false → FromText libc ptql branch

/-- No number or character is compared with a variable `$NAME`, and no text of `Args`, `Modules`
    or `Env` with a reference `$n`. -/
def ValuesSuit (ptql : CStr) : Prop :=
  ∀ piece ∈ pieces ptql, ∀ parsed lookup, ptqlBranchParse piece = .ok parsed →
    findLookup parsed = .ok lookup →
    (IsVarText parsed.value → lookup.type = .str ∨ lookup.type = .any) ∧
    (IsRefText parsed.value → lookup.get.readsText = false)

theorem freeValue_all (hstr : branch.opFlags.ref = false →
    branch.lookup.type = .str ∨ branch.lookup.type = .any →
    P (.readValue .str branch.value.written)) : (freeValue branch).All P := by
  unfold freeValue
  split
  · next h =>
    have hread := hstr (Bool.not_eq_true _ ▸ h.2) h.1
    refine all_bind (readValue_all hread) fun value _ => ?_
    split
    · exact all_fault _
    · exact all_pure _
  · exact all_pure _

theorem freeData_all : (freeData branch).All P := by
  unfold freeData
  split
  · exact all_pure _
  · split
    · exact all_pure _
    · exact all_pure _
    · exact all_pure _
    · split
      · exact all_pure _
      · exact all_fault _
    · split
      · exact all_pure _
      · exact all_fault _

theorem ptqlBranchListDestroy_all : ∀ {bs : List PtqlBranch},
    (∀ b ∈ bs, (freeValue b).All P) → (ptqlBranchListDestroy bs).All P := by
  intro bs
  induction bs with
  | nil => intro _; exact all_pure _
  | cons b rest ih =>
    intro hfree
    refine all_bind freeData_all fun _ _ => ?_
    refine all_bind (hfree b mem_cons_self) fun _ _ => ?_
    exact ih fun x hx => hfree x (mem_cons_of_mem b hx)

/-- A string of an accepted branch is always freed as one. -/
theorem Installed.freeValue_readAsWritten {now : PtqlBranch} (hb : Installed branch)
    (hnow : Reloaded branch now) : (freeValue now).All Event.ReadAsWritten := by
  obtain ⟨data, size, rfl⟩ := hnow.eq_withData
  refine freeValue_all fun href htype => ?_
  obtain ⟨p, hvalue⟩ := hb.strValue href htype
  show branch.value.written = some .str
  rw [hvalue]
  rfl

/-- **The value union is read as it was written** exactly when the values suit their branches. -/
theorem values_readAsWritten_iff (libc : Libc) (ptql : CStr) (query : PtqlQuery)
    (hcreate : sigarPtqlQueryCreate libc ptql = .ok query) :
    ReadsItsValues libc ptql query ↔ ValuesSuit ptql := by
  have hsound := accepted_sound hcreate
  constructor
  · intro h piece hpiece parsed lookup hparse hlookup
    obtain ⟨number, b, hb, parsed', hparse', hbuilt⟩ := piece_branch hcreate hpiece
    obtain rfl : parsed = parsed' := Except.ok.inj (hparse.symm.trans hparse')
    obtain rfl : lookup = b.lookup := Except.ok.inj (hlookup.symm.trans hbuilt.found)
    refine hbuilt.readAs_iff.mp fun member hmember => ?_
    -- a process with every text there is makes the round read the value
    obtain ⟨before, after, hsplit⟩ := append_of_mem hb
    have hsame : SameBranches query.branches ⟨before ++ b :: after⟩ := by
      rw [← hsplit]
      exact SameBranches.refl query
    have hread := h.round before b after hsame (.speaking (dataStr b)) 0
      _ (evalBranch_mem hbuilt.proper hmember)
    exact hread
  · intro hsuit
    have hbranch : ∀ b ∈ query.branches, ∀ member, b.readAs = some member →
        b.value.written = some member := by
      intro b hb
      obtain ⟨piece, hpiece, number, parsed, hparse, hbuilt⟩ := branch_comesFrom hcreate hb
      exact hbuilt.readAs_iff.mpr (hsuit piece hpiece parsed b.lookup hparse hbuilt.found)
    -- the buffers do not matter
    have hround : ∀ query', SameBranches query.branches query' → ∀ b' ∈ query'.branches,
        ∀ world pid before after,
        (evalBranch world pid before b' after).All Event.ReadAsWritten := by
      intro query' hsame b' hb' world pid before after
      obtain ⟨b, hb, hreloaded⟩ := forall₂_origin hsame b' hb'
      refine evalBranch_all (fun member hmember => ?_) (fun _ => trivial) fun _ _ => trivial
      obtain ⟨hreadAs, hvalue⟩ := hreloaded.readAs_eq
      rw [hvalue]
      exact hbranch b hb member (hreadAs ▸ hmember)
    have hfree : ∀ query', SameBranches query.branches query' → ∀ b' ∈ query'.branches,
        (freeValue b').All Event.ReadAsWritten := by
      intro query' hsame b' hb'
      obtain ⟨b, hb, hreloaded⟩ := forall₂_origin hsame b' hb'
      exact (accepted_installed hcreate b hb).freeValue_readAsWritten hreloaded
    refine ⟨?_, hfree query (SameBranches.refl query), ?_, ?_⟩
    · intro before b after hsame world pid
      exact hround _ hsame b (by simp) world pid before after
    · intro calls
      refine all_bind (evaluations_all ?_ ?_ hsound calls (SameBranches.refl query)) ?_
      · intro world query' pid hsame
        exact sigarPtqlQueryMatch_all fun b hb => hround query' hsame b hb world pid
      · intro world query' _
        exact ptqlProcListGet_all fun _ _ _ _ => trivial
      · intro last hlast
        have hsame := evaluations_same hsound (SameBranches.refl query) hlast
        exact ptqlBranchListDestroy_all (hfree last hsame)
    · intro b hb hstr hany href
      obtain ⟨piece, hpiece, number, parsed, hparse, hbuilt⟩ := branch_comesFrom hcreate hb
      cases hbuilt.value with
      | ref _ hyes _ _ _ => rw [href] at hyes; exact nomatch hyes
      | var htext _ _ _ =>
        have htype := (hsuit piece hpiece parsed b.lookup hparse hbuilt.found).1 htext
        exact absurd htype (not_or.mpr ⟨hstr, hany⟩)
      | literal _ _ hlit =>
        exact ⟨piece, hpiece, parsed, number, _, hparse, Or.inl rfl, hlit⟩

theorem values_readAsWritten_iff_example :
    ∃ query, sigarPtqlQueryCreate .plain "State.Name.eq=$HOME".toList = .ok query ∧
      ReadsItsValues .plain "State.Name.eq=$HOME".toList query := by
  obtain ⟨query, hcreate, _⟩ :
      ∃ query, sigarPtqlQueryCreate .plain "State.Name.eq=$HOME".toList = .ok query ∧
        true = true := accepted_of_test (by decide +kernel)
  refine ⟨query, hcreate, (values_readAsWritten_iff .plain _ query hcreate).mpr ?_⟩
  intro piece hpiece parsed lookup hparse hlookup
  obtain rfl : piece = "State.Name.eq=$HOME".toList := mem_singleton.mp hpiece
  have hparsed : ptqlBranchParse "State.Name.eq=$HOME".toList
      = .ok ⟨"State".toList, "Name".toList, "eq".toList, "$HOME".toList, {}⟩ := rfl
  obtain rfl := Except.ok.inj (hparsed.symm.trans hparse)
  have hfound : findLookup ⟨"State".toList, "Name".toList, "eq".toList, "$HOME".toList, {}⟩
      = .ok (entry "Name" .procState 0 168 .str) := rfl
  obtain rfl := Except.ok.inj (hfound.symm.trans hlookup)
  exact ⟨fun _ => Or.inl rfl, fun h => absurd h (by decide)⟩

/-- One process with one variable, which is empty. -/
def World.withVariable (name : CStr) : World :=
  { World.plain [1] with env := fun _ => (sigarOk, [(name, [])]) }

/-- A number is compared with the bits of a pointer, and a reference taken for a string: here the
    index is not zero, so the pointer is wild. -/
theorem value_readAsOther :
    (∃ query, sigarPtqlQueryCreate .plain "Time.User.eq=$HOME".toList = .ok query ∧
      Event.readValue .ui64 (some .str)
        ∈ (evaluations query [(.plain [1], .queryMatch 1)]).log) ∧
    (∃ query, sigarPtqlQueryCreate .plain "Fd.Total.ge=0,Fd.Total.ge=0,Env.X.eq=$2".toList
        = .ok query ∧
      Event.readValue .str (some .ui32)
        ∈ (evaluations query [(.withVariable "X".toList, .queryMatch 1)]).log) ∧
    ¬ Event.ReadAsWritten (.readValue .ui64 (some .str)) ∧
    ¬ Event.ReadAsWritten (.readValue .str (some .ui32)) := by
  obtain ⟨query, hcreate, hread⟩ :
      ∃ query, sigarPtqlQueryCreate .plain "Time.User.eq=$HOME".toList = .ok query ∧
        decide (Event.readValue .ui64 (some .str)
          ∈ (evaluations query [(.plain [1], .queryMatch 1)]).log) = true :=
    accepted_of_test (by decide +kernel)
  obtain ⟨query', hcreate', hread'⟩ :
      ∃ query, sigarPtqlQueryCreate .plain "Fd.Total.ge=0,Fd.Total.ge=0,Env.X.eq=$2".toList
          = .ok query ∧
        decide (Event.readValue .str (some .ui32)
          ∈ (evaluations query [(.withVariable "X".toList, .queryMatch 1)]).log) = true :=
    accepted_of_test (by decide +kernel)
  exact ⟨⟨query, hcreate, of_decide_eq_true hread⟩, ⟨query', hcreate', of_decide_eq_true hread'⟩,
    fun h => (nomatch (show some Member.str = some Member.ui64 from h)),
    fun h => (nomatch (show some Member.ui32 = some Member.str from h))⟩

end Sigar.Ptql
