/-
  References between branches.

  A reference `$n` points strictly before itself in the array that is evaluated, since a query
  with a reference is not sorted.  The loop reaches a branch only after every branch before it
  matched, and a field of a structure matches only after its getter filled the structure: so what
  a reference of the RIGHT TYPE is compared with was loaded in the same call.  Nothing checks the
  type.  `refs_loaded_iff` says that the types are the whole of it: a call is right exactly when
  it reaches no reference to a branch of another type.
-/
import Sigar.Ptql.Lifetime

namespace Sigar.Ptql

open CString Logged List

variable {libc : Libc} {world : World} {pid : SigarPid} {branches : List PtqlBranch}
  {branch : PtqlBranch} {query : PtqlQuery} {before after : List PtqlBranch}

/-! ## What a call must log -/

/-- Whenever a reference is compared, the referenced branch was loaded before, and it reads a
    field of a structure of the same type.  `past` is what was logged before `log`. -/
def RefsLoaded (branches : List PtqlBranch) (past log : List Event) : Prop :=
  ∀ pre post i j, log = pre ++ Event.matchRef i j :: post →
    Event.load j ∈ past ++ pre ∧
    ∃ branch ref getter, branches[i]? = some branch ∧ branches[j]? = some ref ∧
      ref.lookup.get = .struct getter ∧ ref.lookup.type = branch.lookup.type

/-- The comparisons of a part of the log can rely on what came before it. -/
theorem RefsLoaded.append {past log log' : List Event} (h : RefsLoaded branches past log)
    (h' : RefsLoaded branches (past ++ log) log') : RefsLoaded branches past (log ++ log') := by
  intro pre post i j hsplit
  rcases append_eq_append_iff.mp hsplit with ⟨mid, rfl, hlog'⟩ | ⟨mid, rfl, hmid⟩
  · obtain ⟨hload, hbranches⟩ := h' mid post i j hlog'
    rw [append_assoc] at hload
    exact ⟨hload, hbranches⟩
  · cases mid with
    | nil =>
      obtain ⟨hload, hbranches⟩ := h' [] post i j hmid.symm
      rw [append_nil, append_nil] at hload
      exact ⟨hload, hbranches⟩
    | cons event mid =>
      obtain ⟨rfl, rfl⟩ := cons.inj hmid
      exact h pre mid i j rfl

/-- It is enough that what they need was logged before all of them. -/
theorem RefsLoaded.of_mem {past log : List Event}
    (h : ∀ i j, Event.matchRef i j ∈ log → Event.load j ∈ past ∧
      ∃ branch ref getter, branches[i]? = some branch ∧ branches[j]? = some ref ∧
        ref.lookup.get = .struct getter ∧ ref.lookup.type = branch.lookup.type) :
    RefsLoaded branches past log := by
  intro pre post i j hsplit
  obtain ⟨hload, hbranches⟩ := h i j (by rw [hsplit]; simp)
  exact ⟨mem_append_left pre hload, hbranches⟩

/-- The loop comes to the branch behind `before`, and loads its structure. -/
def Reached (world : World) (branches : List PtqlBranch) (pid : SigarPid)
    (before : List PtqlBranch) (branch : PtqlBranch) : Prop :=
  (∀ b ∈ before, BranchHolds world branches pid b) ∧ Loads world pid branch

/-! ## One round -/

/-- A field that matched was loaded. -/
theorem BranchHolds.loads (h : BranchHolds world branches pid branch)
    (htype : branch.lookup.type ≠ .any) : Loads world pid branch := by
  obtain ⟨p, hsubject, h⟩ := h
  rw [if_neg htype] at h
  obtain ⟨getter, _, hget, hstatus, _⟩ := h
  exact ⟨htype, p, getter, hsubject, hget, hstatus⟩

/-- The events of a round that loads its structure. -/
theorem evalBranch_loads {now : PtqlBranch} (hnow : Reloaded branch now)
    (h : Loads world pid branch) :
    Event.load before.length ∈ (evalBranch world pid before now after).log ∧
    (branch.opFlags.ref = true →
      Event.matchRef before.length branch.refTo ∈ (evalBranch world pid before now after).log) := by
  obtain ⟨htype, p, getter, hsubject, hget, hstatus⟩ := h
  rw [evalBranch_struct hnow hsubject htype hget, if_neg (not_not.mpr hstatus)]
  refine ⟨mem_log_bind_left mem_cons_self _, fun href => ?_⟩
  refine mem_log_bind_right rfl (mem_log_bind_left ?_ _)
  obtain ⟨size, hload⟩ := hnow.load (world.get getter p).2
  rw [hload]
  unfold compareLoaded
  rw [if_pos (show (branch.withData _ size).opFlags.ref = true from href)]
  exact mem_log_bind_right rfl (mem_log_bind_left mem_cons_self _)

/-- Where a comparison with a reference comes from. -/
theorem evalBranch_matchRef {now : PtqlBranch} (hnow : Reloaded branch now) {i j : Nat}
    (h : Event.matchRef i j ∈ (evalBranch world pid before now after).log) :
    i = before.length ∧ j = branch.refTo ∧ branch.opFlags.ref = true ∧ Loads world pid branch := by
  have hall : (evalBranch world pid before now after).All fun event =>
      ∀ i j, event = .matchRef i j →
        i = before.length ∧ j = branch.refTo ∧ branch.opFlags.ref = true ∧
          Loads world pid branch := by
    obtain ⟨data, size, rfl⟩ := hnow.eq_withData
    refine evalBranch_all (fun _ _ i j h => (nomatch h)) (fun _ i j h => (nomatch h)) ?_
    intro hloads href i j heq
    obtain ⟨rfl, rfl⟩ := Event.matchRef.inj heq
    exact ⟨rfl, rfl, href, hloads⟩
  exact hall _ h i j rfl

/-- What a round says, in terms of the meaning of its branch. -/
theorem evalBranch_holds {before0 after0 : List PtqlBranch} {now : PtqlBranch}
    (after : List PtqlBranch) (hinst : Installed branch)
    (hat : AtBranch world pid before0 before branch now)
    (hsplit : branches = before0 ++ branch :: after0) :
    (∃ now', (evalBranch world pid before now after).res = .ok (now', .matched true)) ↔
      BranchHolds world branches pid branch := by
  have hverdict := evalBranch_verdict after0 after hat
  rw [← hsplit] at hverdict
  rw [← branchVerdict_holds hinst, ← hverdict]
  cases (evalBranch world pid before now after).res with
  | error fault =>
    constructor
    · rintro ⟨_, h⟩; exact nomatch h
    · intro h; exact nomatch h
  | ok pair =>
    obtain ⟨now', verdict⟩ := pair
    constructor
    · rintro ⟨_, h⟩
      obtain ⟨_, rfl⟩ := Prod.mk.inj (Except.ok.inj h)
      rfl
    · intro h
      obtain rfl : verdict = .matched true := Except.ok.inj h
      exact ⟨now', rfl⟩

/-! ## The whole loop -/

/-- An element of a list with one more at its end. -/
theorem getElem?_snoc {α : Type} {l : List α} {b x : α} {j : Nat} (h : (l ++ [b])[j]? = some x) :
    l[j]? = some x ∨ (j = l.length ∧ b = x) := by grind

section Loop

variable {before0 after0 : List PtqlBranch} (hsound : Sound branches)
  (hinst : ∀ b ∈ branches, Installed b)

include hsound

/-- A reference that is not ill-typed points to a field before it, of the same type. -/
theorem ref_of_not_illTyped (hsplit : branches = before0 ++ branch :: after0)
    (href : branch.opFlags.ref = true) (htype : branch.lookup.type ≠ .any)
    (hwell : ¬ IllTyped branches branch) :
    ∃ ref getter, branches[branch.refTo]? = some ref ∧ before0[branch.refTo]? = some ref ∧
      ref.lookup.get = .struct getter ∧ ref.lookup.type = branch.lookup.type := by
  have hlt : branch.refTo < before0.length :=
    hsound.refBefore before0.length branch (by rw [hsplit]; simp) href
  have hin : branches[branch.refTo]? = before0[branch.refTo]? := by grind
  have hget : before0[branch.refTo]? = some (before0.get ⟨branch.refTo, hlt⟩) :=
    getElem?_eq_getElem hlt
  have hsame : (before0.get ⟨branch.refTo, hlt⟩).lookup.type = branch.lookup.type := by
    by_contra hne
    refine hwell ⟨href, fun ref hrefGet => ?_⟩
    rw [hin, hget] at hrefGet
    rw [← Option.some.inj hrefGet]
    exact hne
  rcases hsound.proper _ (mem_of_getElem? (hin.trans hget)) with ⟨_, _, getter, hstruct⟩ | hany
  · exact ⟨_, getter, hin.trans hget, hget, hstruct, hsame⟩
  · exact absurd (hsame.symm.trans hany.1) htype

include hinst

/-- **The loop compares no reference that is not loaded**, as long as it comes to no ill-typed
    one. -/
theorem matchLoop_refsLoaded
    (hill : ∀ before b after, branches = before ++ b :: after → IllTyped branches b →
      ¬ Reached world branches pid before b) :
    ∀ {after0 after before0 before : List PtqlBranch} {past : List Event},
      branches = before0 ++ after0 → Forall₂ (LoadedFor world pid) before0 before →
      Forall₂ Reloaded after0 after → (∀ b ∈ before0, BranchHolds world branches pid b) →
      (∀ j ref, before0[j]? = some ref → ref.lookup.type ≠ .any → Event.load j ∈ past) →
      RefsLoaded branches past (matchLoop world pid before after).log := by
  intro after0
  induction after0 with
  | nil =>
    intro after before0 before past _ _ hafter _ _
    cases hafter
    exact RefsLoaded.of_mem fun i j h => absurd h not_mem_nil
  | cons b rest0 ih =>
    intro after before0 before past hsplit hbefore hafter hholds hpast
    cases hafter with
    | @cons _ now _ rest hnow hrest =>
    have hat := hsound.atBranch hsplit hbefore hnow
    have hlen : before0.length = before.length := hbefore.length_eq
    have hb : branches[before0.length]? = some b := by rw [hsplit]; simp
    have hmem := mem_of_getElem? hb
    -- what this round compares was loaded by a round before it
    have hround : RefsLoaded branches past (evalBranch world pid before now rest).log := by
      refine RefsLoaded.of_mem fun i j hevent => ?_
      obtain ⟨rfl, rfl, href, hloads⟩ := evalBranch_matchRef hnow hevent
      have hwell : ¬ IllTyped branches b := fun h => hill before0 b rest0 hsplit h ⟨hholds, hloads⟩
      obtain ⟨ref, getter, hget, hget0, hstruct, hsame⟩ :=
        ref_of_not_illTyped hsound hsplit href hloads.1 hwell
      refine ⟨hpast _ ref hget0 (hsame ▸ hloads.1), b, ref, getter, ?_, hget, hstruct, hsame⟩
      rw [← hlen]
      exact hb
    rw [matchLoop]
    cases hres : (evalBranch world pid before now rest).res with
    | error fault =>
      rw [log_bind_error hres]
      exact hround
    | ok pair =>
      obtain ⟨now', verdict⟩ := pair
      rw [log_bind_ok hres]
      refine hround.append ?_
      have hnil : RefsLoaded branches (past ++ (evalBranch world pid before now rest).log) [] :=
        RefsLoaded.of_mem fun i j h => absurd h not_mem_nil
      cases verdict with
      | stop status => exact hnil
      | matched m =>
        cases m with
        | false => exact hnil
        | true =>
          -- the branch holds, and if it reads a field it has logged its load
          obtain ⟨_, hloaded⟩ := evalBranch_reloaded hat hres
          have hthis := (evalBranch_holds rest (hinst b hmem) hat hsplit).mp ⟨now', hres⟩
          have hsplit' : branches = (before0 ++ [b]) ++ rest0 := by rw [hsplit]; simp
          refine ih hsplit' ?_ hrest ?_ ?_
          · exact rel_append hbefore (.cons (hloaded true rfl) .nil)
          · exact forall_mem_append.mpr ⟨hholds, forall_mem_singleton.mpr hthis⟩
          · intro j ref hget htype
            rcases getElem?_snoc hget with hget | ⟨rfl, rfl⟩
            · exact mem_append_left _ (hpast j ref hget htype)
            · rw [hlen]
              exact mem_append_right _ (evalBranch_loads hnow (hthis.loads htype)).1

/-- The loop comes to a branch that is reached, and compares its reference. -/
theorem matchLoop_matchRef {rest0 : List PtqlBranch} (href : branch.opFlags.ref = true)
    (hloads : Loads world pid branch) :
    ∀ {mid0 after before0 before : List PtqlBranch},
      branches = before0 ++ (mid0 ++ branch :: rest0) →
      Forall₂ (LoadedFor world pid) before0 before →
      Forall₂ Reloaded (mid0 ++ branch :: rest0) after →
      (∀ b ∈ mid0, BranchHolds world branches pid b) →
      Event.matchRef (before0 ++ mid0).length branch.refTo ∈ (matchLoop world pid before after).log := by
  intro mid0
  induction mid0 with
  | nil =>
    intro after before0 before _ hbefore hafter _
    cases hafter with
    | @cons _ now _ rest hnow hrest =>
    rw [matchLoop, append_nil, hbefore.length_eq]
    exact mem_log_bind_left ((evalBranch_loads hnow hloads).2 href) _
  | cons b mid0 ih =>
    intro after before0 before hsplit hbefore hafter hholds
    cases hafter with
    | @cons _ now _ rest hnow hrest =>
    have hat := hsound.atBranch hsplit hbefore hnow
    obtain ⟨now', hres⟩ := (evalBranch_holds rest (hinst b (by rw [hsplit]; simp)) hat
      hsplit).mpr (hholds b mem_cons_self)
    obtain ⟨_, hloaded⟩ := evalBranch_reloaded hat hres
    rw [matchLoop]
    refine mem_log_bind_right hres ?_
    have hnext := ih (by rw [hsplit]; simp)
      (rel_append hbefore (.cons (hloaded true rfl) .nil)) hrest
      fun x hx => hholds x (mem_cons_of_mem b hx)
    rw [append_assoc] at hnext
    exact hnext

end Loop

/-- **A call is right about its references** — each points strictly before itself, and is compared
    with a structure of its own type that the same call loaded — exactly when the call reaches no
    reference to a branch of another type.  What earlier calls left in the buffers makes no
    difference. -/
theorem refs_loaded_iff (libc : Libc) (ptql : CStr) (query query' : PtqlQuery)
    (hcreate : sigarPtqlQueryCreate libc ptql = .ok query)
    (hsame : SameBranches query.branches query') (world : World) (pid : SigarPid) :
    ((∀ (i : Nat) (b : PtqlBranch), query.branches[i]? = some b → b.opFlags.ref = true →
        b.refTo < i) ∧
      RefsLoaded query.branches [] (sigarPtqlQueryMatch world query' pid).log) ↔
    ∀ before b after, query.branches = before ++ b :: after → IllTyped query.branches b →
      ¬ Reached world query.branches pid before b := by
  have hsound := accepted_sound hcreate
  have hinst := accepted_installed hcreate
  have hlog : (sigarPtqlQueryMatch world query' pid).log
      = (matchLoop world pid [] query'.branches).log := log_bind_pure _ _
  rw [hlog]
  constructor
  · rintro ⟨_, hrefs⟩ before b after hsplit ⟨href, hill⟩ ⟨hholds, hloads⟩
    have hsame' : Forall₂ Reloaded (before ++ b :: after) query'.branches := hsplit ▸ hsame
    have hcompared := matchLoop_matchRef hsound hinst href hloads
      (hsplit.trans (nil_append _).symm) .nil hsame' hholds
    obtain ⟨pre, post, hlogged⟩ := append_of_mem hcompared
    obtain ⟨_, b', ref, _, hb', hrefGet, _, htype⟩ := hrefs pre post _ _ hlogged
    obtain rfl : b = b' := by
      rw [hsplit, nil_append] at hb'
      simpa using hb'
    exact hill ref hrefGet htype
  · intro hill
    refine ⟨hsound.refBefore, ?_⟩
    exact matchLoop_refsLoaded hsound hinst hill (nil_append _).symm .nil hsame
      (fun b hb => absurd hb not_mem_nil) fun j ref hget => by simp at hget

theorem refs_loaded_iff_example :
    ∃ query, sigarPtqlQueryCreate .plain "State.Tty.ge=0,State.Ppid.eq=$1".toList = .ok query ∧
      RefsLoaded query.branches [] (sigarPtqlQueryMatch (.plain [1]) query 1).log := by
  obtain ⟨query, hcreate, hrefs⟩ :
      ∃ query, sigarPtqlQueryCreate .plain "State.Tty.ge=0,State.Ppid.eq=$1".toList = .ok query ∧
        decide (RefsWellTyped query.branches) = true := accepted_of_test (by decide +kernel)
  refine ⟨query, hcreate, ((refs_loaded_iff .plain _ query query hcreate (SameBranches.refl query)
    (.plain [1]) 1).mpr ?_).2⟩
  rintro before b after hsplit ⟨href, hill⟩ _
  have hb : b ∈ query.branches := by rw [hsplit]; simp
  obtain ⟨_, ref, hget, htype⟩ := of_decide_eq_true hrefs b hb href
  exact hill ref hget htype

/-- A name is compared with a number, and a number with what a branch of the class `Pid` keeps in
    place of a structure. -/
theorem ref_otherType :
    (∃ query, sigarPtqlQueryCreate .plain "Time.User.ge=0,State.Name.eq=$1".toList = .ok query ∧
      query.branches.map (·.lookup.type) = [.ui64, .str] ∧
      ¬ RefsLoaded query.branches [] (sigarPtqlQueryMatch (.plain [1]) query 1).log) ∧
    (∃ query, sigarPtqlQueryCreate .plain "Pid.Pid.eq=1,State.Ppid.eq=$1".toList = .ok query ∧
      query.branches.map (·.lookup.type) = [.any, .ui32] ∧
      ¬ RefsLoaded query.branches [] (sigarPtqlQueryMatch (.plain [1]) query 1).log) := by
  -- both compare branch 1 with branch 0, whose type is another one
  have hbad : ∀ query : PtqlQuery, ∀ types : List PtqlValueType, types[0]? ≠ types[1]? →
      query.branches.map (·.lookup.type) = types →
      Event.matchRef 1 0 ∈ (sigarPtqlQueryMatch (.plain [1]) query 1).log →
      ¬ RefsLoaded query.branches [] (sigarPtqlQueryMatch (.plain [1]) query 1).log := by
    intro query types hne htypes hmem hrefs
    obtain ⟨pre, post, hlog⟩ := append_of_mem hmem
    obtain ⟨_, b, ref, _, hb, href, _, htype⟩ := hrefs pre post 1 0 hlog
    refine hne ?_
    rw [← htypes, getElem?_map, getElem?_map, hb, href]
    exact congrArg some htype
  obtain ⟨query, hcreate, htest⟩ :
      ∃ query, sigarPtqlQueryCreate .plain "Time.User.ge=0,State.Name.eq=$1".toList = .ok query ∧
        decide (query.branches.map (·.lookup.type) = [.ui64, .str] ∧
          Event.matchRef 1 0 ∈ (sigarPtqlQueryMatch (.plain [1]) query 1).log) = true :=
    accepted_of_test (by decide +kernel)
  obtain ⟨query', hcreate', htest'⟩ :
      ∃ query, sigarPtqlQueryCreate .plain "Pid.Pid.eq=1,State.Ppid.eq=$1".toList = .ok query ∧
        decide (query.branches.map (·.lookup.type) = [.any, .ui32] ∧
          Event.matchRef 1 0 ∈ (sigarPtqlQueryMatch (.plain [1]) query 1).log) = true :=
    accepted_of_test (by decide +kernel)
  obtain ⟨htypes, hmem⟩ := of_decide_eq_true htest
  obtain ⟨htypes', hmem'⟩ := of_decide_eq_true htest'
  exact ⟨⟨query, hcreate, htypes, hbad query _ (by decide) htypes hmem⟩,
    ⟨query', hcreate', htypes', hbad query' _ (by decide) htypes' hmem'⟩⟩

end Sigar.Ptql
