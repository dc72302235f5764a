/-
  `Args.<i>` and `Args.*`.

  The number of an argument goes from the text to a `long`, to the 32 bits of `data.ui32`, and to
  the `int` of `ptql_args_match`, which adds the length of the list to a negative one.

  1. **Which argument is meant** — `wantedIndex`, for an integer of any size.
  2. **Which one is read** — `storedIndex`: the same computation in `int`s (`argRead_eq`).
  3. **When they are the same** — `IndexFits`, and `ptqlArgsMatch_right_iff`.
-/
import Sigar.Ptql.Meaning
import Sigar.Ptql.Numbers
import Sigar.Ptql.RoundTrip
import Sigar.Ptql.Strings

namespace Sigar.Ptql

open CString Numerals Words Logged List

variable {i : Int} {m : Nat} {attr : CStr} {args : List CStr}

variable {libc : Libc} {parsed : PtqlParseBranch} {number : Nat} {branch : PtqlBranch}
  {world : World} {pid : SigarPid}

/-! ## The index -/

/-- The index that `i` means in a list of `m` arguments; it may be outside. -/
def wantedIndex (i : Int) (m : Nat) : Int := if i < 0 then m + i else i

/-- The index that the code computes for it. -/
def storedIndex (i : Int) (m : Nat) : Int :=
  if wrap32 i < 0 then wrap32 (wrap32 i + m) else wrap32 i

/-- `i` is an index of the list. -/
def Inside (i : Int) (m : Nat) : Prop := 0 ≤ i ∧ i < m

instance (i : Int) (m : Nat) : Decidable (Inside i m) := inferInstanceAs (Decidable (_ ∧ _))

/-- The `int`s make no difference: the index is the same, or there is no such argument in either
    way of counting. -/
def IndexFits (i : Int) (m : Nat) : Prop :=
  storedIndex i m = wantedIndex i m ∨ (¬ Inside (storedIndex i m) m ∧ ¬ Inside (wantedIndex i m) m)

/-- What is read for the number `i`. -/
theorem argRead_eq (hdata : (dataUi32 branch).toInt32 = Int32.ofInt i) (m : Nat) :
    argRead branch m
      = if Inside (storedIndex i m) m then some (storedIndex i m).toNat else none := by
  have hnum : (if Int32.ofInt i < 0 then Int32.ofInt ((Int32.ofInt i).toInt + m)
      else Int32.ofInt i).toInt = storedIndex i m := by
    grind [storedIndex, toInt_ofInt, neg_iff_toInt]
  rw [argRead, hdata]
  simp only [nonneg_iff_toInt, hnum]
  rfl

/-- Nothing is read outside the list. -/
theorem argRead_lt {k : Nat} (h : argRead branch m = some k) : k < m := by
  have hdata : (dataUi32 branch).toInt32 = Int32.ofInt (dataUi32 branch).toInt32.toInt :=
    (Int32.ofInt_toInt _).symm
  rw [argRead_eq hdata] at h
  split at h
  case isTrue hinside =>
    obtain ⟨hlow, hhigh⟩ := hinside
    have hk := Option.some.inj h
    omega
  case isFalse => cases h

/-! ## What a branch of the class is -/

/-- The branch of an accepted text `Args.<attr>.<op>=<value>`. -/
def ArgsBranch (attr : CStr) (branch : PtqlBranch) : Prop :=
  ∃ libc piece parsed number, ptqlBranchParse piece = .ok parsed ∧ parsed.name = "Args".toList ∧
    parsed.attr = attr ∧ ptqlBranchAdd libc parsed number = .ok branch

theorem findLookup_args {lookup : PtqlLookup} (hname : parsed.name = "Args".toList)
    (h : findLookup parsed = .ok lookup) : lookup = anyEntry .args .args := by
  -- read off the table
  have htable : ∀ e ∈ ptqlMap, e.1 = "Args".toList → ∀ l ∈ e.2, l = anyEntry .args .args := by
    decide
  obtain ⟨members, hclass, hmem⟩ := findLookup_class h
  exact htable (parsed.name, members) hclass hname lookup hmem

/-- What `ptql_args_branch_init` left in the branch. -/
structure ArgsSpec (attr : CStr) (branch : PtqlBranch) : Prop where
  lookup : branch.lookup = anyEntry .args .args
  installed : Installed branch
  glob : attr = "*".toList → branch.opFlags.glob = true
  index : attr ≠ "*".toList → branch.opFlags.glob = false ∧ ∃ i, wholeInt attr = some i ∧
    (-9223372036854775808 ≤ i ∧ i < 9223372036854775808) ∧
    (dataUi32 branch).toInt32 = Int32.ofInt i

theorem ptqlArgsBranchInit_spec {blank init : PtqlBranch} (hglob : blank.opFlags.glob = false)
    (h : ptqlArgsBranchInit parsed blank = .ok init) :
    (parsed.attr = "*".toList → init.opFlags.glob = true) ∧
    (parsed.attr ≠ "*".toList → init.opFlags.glob = false ∧ ∃ i, wholeInt parsed.attr = some i ∧
      (-9223372036854775808 ≤ i ∧ i < 9223372036854775808) ∧
      init.data = .ui32 (Int32.ofInt i).toUInt32) := by
  rw [ptqlArgsBranchInit] at h
  split at h
  case isTrue hstar => grind
  case isFalse hstar =>
    dsimp only at h
    split at h
    case isTrue => cases h
    case isFalse hok =>
      obtain rfl := Except.ok.inj h
      have hnum := strtol_accepted_iff.mp ⟨by simpa using hok, rfl⟩
      exact ⟨fun hyes => absurd hyes hstar, fun _ => ⟨hglob, _, hnum.1, hnum.2, rfl⟩⟩

theorem ArgsBranch.spec (h : ArgsBranch attr branch) : ArgsSpec attr branch := by
  obtain ⟨libc, piece, parsed, number, hparse, hname, rfl, hadd⟩ := h
  have hb := ptqlBranchAdd_built hparse hadd
  obtain ⟨opName, lookup, init, matchFn, -, hlookup, hinit, -, hvalue⟩ := ptqlBranchAdd_ok hadd
  obtain rfl := findLookup_args hname hlookup
  have hkeeps := runInit_keeps hinit
  have hglob : (blankBranch (anyEntry .args .args) opName parsed).opFlags.glob = false :=
    (ptqlBranchParse_flags hparse).2.1
  obtain ⟨hstar, hindex⟩ := ptqlArgsBranchInit_spec hglob hinit
  -- the value of the branch changes neither the data nor these flags
  have hsame : branch.lookup = init.lookup ∧ branch.opFlags.glob = init.opFlags.glob ∧
      branch.data = init.data := by
    rcases hvalue with ⟨-, -, hvar⟩ | ⟨-, value, -, rfl⟩
    · rcases variableValue_ok hvar with ⟨-, -, rfl⟩ | ⟨-, rfl⟩
      · exact ⟨rfl, rfl, rfl⟩
      · exact ⟨rfl, rfl, rfl⟩
    · exact ⟨rfl, rfl, rfl⟩
  refine ⟨hsame.1.trans hkeeps.lookup, hb.toInstalled, ?_, ?_⟩
  · grind
  · intro hattr
    obtain ⟨hno, i, hi, hrange, hdata⟩ := hindex hattr
    refine ⟨hsame.2.1.trans hno, i, hi, hrange, ?_⟩
    rw [dataUi32, hsame.2.2, hdata]
    rfl

/-! ## The matcher -/

/-- A text satisfies the operator of the branch. -/
def TextSatisfies (world : World) (branch : PtqlBranch) (text : CStr) : Prop :=
  (ptqlStrMatch world branch text).res = .ok true

theorem matchOne_iff {one : Option CStr} :
    (matchOne world branch one).res = .ok true
      ↔ ∃ text, one = some text ∧ TextSatisfies world branch text := by
  cases one with
  | none =>
    constructor
    · intro h
      cases h
    · rintro ⟨_, h, _⟩
      cases h
  | some text =>
    constructor
    · intro h
      exact ⟨text, rfl, h⟩
    · rintro ⟨_, h, hsat⟩
      cases h
      exact hsat

/-- The loop finds a text that satisfies the operator: if one of them is a fault, all are. -/
theorem anyMatches_iff (hb : Installed branch) (htype : branch.lookup.type = .any) :
    ∀ {texts : List CStr}, (anyMatches world branch texts).res = .ok true ↔
      ∃ text ∈ texts, TextSatisfies world branch text := by
  intro texts
  induction texts with
  | nil =>
    constructor
    · intro h
      cases h
    · rintro ⟨_, h, _⟩
      cases h
  | cons text rest ih =>
    rw [anyMatches, res_bind]
    by_cases hwild : branch.value.asStr = .wild
    · -- no text satisfies the operator
      have hfault := fun t => @ptqlStrMatch_wild world branch hb htype hwild t
      constructor
      · intro h
        rw [hfault] at h
        cases h
      · simp [TextSatisfies, hfault]
    · obtain ⟨matched, hmatched⟩ := ptqlStrMatch_noFault hb htype world hwild text
      rw [hmatched]
      cases matched with
      | true =>
        constructor
        · intro _
          exact ⟨text, mem_cons_self, hmatched⟩
        · intro _
          rfl
      | false =>
        have hno : ¬ TextSatisfies world branch text := by
          rw [TextSatisfies, hmatched]
          intro h
          cases h
        constructor
        · intro h
          obtain ⟨t, ht, hsat⟩ := ih.mp h
          exact ⟨t, mem_cons_of_mem text ht, hsat⟩
        · rintro ⟨t, ht, hsat⟩
          rcases mem_cons.mp ht with rfl | hrest
          · exact absurd hsat hno
          · exact ih.mpr ⟨t, hrest, hsat⟩

/-- The matcher succeeds if the texts that it looks at match. -/
theorem ptqlArgsMatch_iff (hargs : world.args pid = (sigarOk, args)) :
    (ptqlArgsMatch world branch pid).res = .ok sigarOk ↔
      (matchTexts world branch (args.take (intMax + 1)) (pickArg branch args)).res = .ok true := by
  have hstatus : ∀ matched, matchedStatus matched = sigarOk ↔ matched = true := by decide
  rw [ptqlArgsMatch, hargs]
  show (matchTexts world branch _ _ >>= fun matched => pure (matchedStatus matched)).res = _ ↔ _
  rw [res_bind_eq_ok]
  constructor
  · rintro ⟨matched, hmatched, hok⟩
    rw [hmatched, (hstatus matched).mp (Except.ok.inj hok)]
  · intro h
    exact ⟨true, h, rfl⟩

/-! ## What the class is for -/

/-- The argument that `i` means. -/
def wantedArg (i : Int) (args : List CStr) : Option CStr :=
  if Inside (wantedIndex i args.length) args.length then
    args[(wantedIndex i args.length).toNat]?
  else none

/-- `Args.<i>` succeeds exactly if the argument that `i` means is there and satisfies the operator,
    and reads nothing outside the list. -/
def IndexRight (world : World) (branch : PtqlBranch) (pid : SigarPid) (i : Int)
    (args : List CStr) : Prop :=
  ((ptqlArgsMatch world branch pid).res = .ok sigarOk ↔
    ∃ text, wantedArg i args = some text ∧ TextSatisfies world branch text) ∧
  ∀ k, argRead branch args.length = some k → k < args.length

/-- `Args.*` succeeds exactly if some argument satisfies the operator. -/
def GlobRight (world : World) (branch : PtqlBranch) (pid : SigarPid) (args : List CStr) : Prop :=
  (ptqlArgsMatch world branch pid).res = .ok sigarOk ↔ ∃ text ∈ args, TextSatisfies world branch text

/-- The argument that is read for `i`. -/
def storedArg (i : Int) (args : List CStr) : Option CStr :=
  if Inside (storedIndex i args.length) args.length then
    args[(storedIndex i args.length).toNat]?
  else none

theorem storedArg_eq_wantedArg (h : IndexFits i args.length) :
    storedArg i args = wantedArg i args := by
  rw [storedArg, wantedArg]
  rcases h with hsame | ⟨hstored, hwanted⟩
  · rw [hsame]
  · rw [if_neg hstored, if_neg hwanted]

theorem pickArg_eq (hdata : (dataUi32 branch).toInt32 = Int32.ofInt i) (args : List CStr) :
    pickArg branch args = storedArg i args := by
  have hread := argRead_eq hdata args.length
  unfold pickArg storedArg
  by_cases hinside : Inside (storedIndex i args.length) args.length
  · rw [if_pos hinside] at hread
    rw [hread, if_pos hinside]
  · rw [if_neg hinside] at hread
    rw [hread, if_neg hinside]

/-- A numbered branch succeeds if the argument that it reads satisfies the operator. -/
theorem ptqlArgsMatch_index (hspec : ArgsSpec attr branch) (hi : wholeInt attr = some i)
    (hargs : world.args pid = (sigarOk, args)) :
    (ptqlArgsMatch world branch pid).res = .ok sigarOk ↔
      ∃ text, storedArg i args = some text ∧ TextSatisfies world branch text := by
  have hstar : attr ≠ "*".toList := by
    rintro rfl
    have hnone : wholeInt "*".toList = none := by decide
    rw [hnone] at hi
    cases hi
  obtain ⟨hglob, j, hj, -, hdata⟩ := hspec.index hstar
  obtain rfl : i = j := Option.some.inj (hi.symm.trans hj)
  rw [ptqlArgsMatch_iff hargs, matchTexts, if_neg (by rw [hglob]; exact Bool.false_ne_true),
    pickArg_eq hdata, matchOne_iff]

/-- A `*` branch looks at the arguments that an `int` can count. -/
theorem ptqlArgsMatch_glob (hspec : ArgsSpec "*".toList branch)
    (hargs : world.args pid = (sigarOk, args)) :
    (ptqlArgsMatch world branch pid).res = .ok sigarOk ↔
      ∃ text ∈ args.take (intMax + 1), TextSatisfies world branch text := by
  have htype : branch.lookup.type = .any := by
    rw [hspec.lookup]
    rfl
  rw [ptqlArgsMatch_iff hargs, matchTexts, if_pos (hspec.glob rfl),
    anyMatches_iff hspec.installed htype]

/-! ## When the two are the same -/

/-- The operator and the value of the branch single out the text `a`. -/
def SelectsA (branch : PtqlBranch) : Prop :=
  ∀ world text, TextSatisfies world branch text ↔ text = "a".toList

theorem selectsA_of {s : HeapStr} (hvalue : branch.value = .str (some s))
    (htext : s.text = "a".toList) (hop : branch.opName = .eq) (hmatch : branch.matchFn = .str .eq)
    (hicase : branch.opFlags.icase = false) : SelectsA branch := by
  intro world text
  have hstr : branch.value.asStr = .text "a".toList := by
    rw [hvalue, ← htext]
    rfl
  rw [TextSatisfies, ptqlStrMatch, res_bind_ok (readValue_res branch .str), hstr]
  have hcall : callMatch branch (.str text) (.str "a".toList)
      = pure (strVerdict branch.opFlags.icase .eq text "a".toList) := by
    unfold callMatch
    rw [hmatch]
  dsimp only
  rw [if_neg (by rw [hop]; decide), hcall, res_pure, Except.ok.injEq, hicase]
  show (branchStrcmp false text "a".toList == .eq) = true ↔ _
  rw [branchStrcmp_eq, beq_iff_eq, strcmp_eq_iff]
  rfl

/-- The texts of integers stand for themselves in a query. -/
theorem plain_renderInt (i : Int) : Plain (renderInt i) := by
  have hchar : ∀ c ∈ renderInt i, c = '-' ∨ c.isDigit = true := by
    intro c hc
    rw [renderInt] at hc
    split at hc
    · rcases mem_cons.mp hc with hminus | hdigit
      · exact Or.inl hminus
      · exact Or.inr (isDigit_of_mem_renderNat hdigit)
    · exact Or.inr (isDigit_of_mem_renderNat hc)
  have hother : ∀ c, c ≠ '-' → c.isDigit = false → c ∉ renderInt i := by grind
  exact ⟨hother '.' (by decide) (by decide), hother '=' (by decide) (by decide),
    hother ',' (by decide) (by decide)⟩

/-- Every `long` is the number of an accepted branch. -/
theorem exists_argsBranch (hlow : -9223372036854775808 ≤ i) (hhigh : i < 9223372036854775808) :
    ∃ branch, ArgsBranch (renderInt i) branch ∧ SelectsA branch := by
  have hvalid : BranchText.Valid ⟨"Args".toList, renderInt i, [], "eq".toList, "a".toList⟩ :=
    ⟨(by decide : Plain "Args".toList), plain_renderInt i, fun c hc => absurd hc not_mem_nil,
      (by decide : "eq".toList ≠ []), (by decide : '=' ∉ "eq".toList),
      (by decide : ',' ∉ "eq".toList), (by decide : (deref "eq".toList).isUpper = false),
      (by decide : ',' ∉ "a".toList)⟩
  have hstar : renderInt i ≠ "*".toList := by
    intro h
    have hwhole := wholeInt_render i
    rw [h] at hwhole
    cases hwhole
  have hservice : renderInt i ≠ "Service".toList := by
    intro h
    have hwhole := wholeInt_render i
    rw [h] at hwhole
    cases hwhole
  obtain ⟨hok, hvalue⟩ := strtol_accepted_iff.mpr ⟨wholeInt_render i, hlow, hhigh⟩
  let parsed : PtqlParseBranch := ⟨"Args".toList, renderInt i, "eq".toList, "a".toList, {}⟩
  have hparse : ptqlBranchParse
      (BranchText.render ⟨"Args".toList, renderInt i, [], "eq".toList, "a".toList⟩)
        = .ok parsed := by
    rw [ptqlBranchParse_render hvalid, rewriteService, if_neg hservice]
    rfl
  have hinit : ptqlArgsBranchInit parsed (blankBranch (anyEntry .args .args) .eq parsed)
      = .ok { blankBranch (anyEntry .args .args) .eq parsed with
          data := .ui32 (Int32.ofInt i).toUInt32 } := by
    rw [ptqlArgsBranchInit, if_neg hstar]
    dsimp only
    rw [if_neg (by rw [show strtonumFailed parsed.attr _ _ = false from hok]; exact Bool.false_ne_true),
      show (strtol parsed.attr).value = i from hvalue]
  have hadd : ptqlBranchAdd .plain parsed 0
      = .ok { blankBranch (anyEntry .args .args) .eq parsed with
          data := .ui32 (Int32.ofInt i).toUInt32
          matchFn := .str .eq
          value := .str (some ⟨Libc.plain.heap 0, "a".toList⟩) } := by
    have hfound : findLookup parsed = .ok (anyEntry .args .args) := rfl
    have hcode : ptqlOpCodeGet parsed.op = some .eq := rfl
    rw [ptqlBranchAdd, hcode, hfound]
    dsimp only
    rw [show runInit .plain parsed (blankBranch (anyEntry .args .args) .eq parsed)
      (anyEntry .args .args).init = _ from hinit]
    rfl
  exact ⟨_, ⟨.plain, _, parsed, 0, hparse, rfl, rfl, hadd⟩, selectsA_of rfl rfl rfl rfl rfl⟩

theorem exists_globBranch : ∃ branch, ArgsBranch "*".toList branch ∧ SelectsA branch := by
  have hparse : ptqlBranchParse "Args.*.eq=a".toList
      = .ok ⟨"Args".toList, "*".toList, "eq".toList, "a".toList, {}⟩ := by decide
  refine ⟨_, ⟨.plain, _, _, 0, hparse, rfl, rfl, rfl⟩, selectsA_of rfl rfl rfl rfl rfl⟩

/-- A list of `m` arguments of which only the one at `k` is `a`. -/
def spotlight (m k : Nat) : List CStr := (replicate m []).set k "a".toList

theorem length_spotlight (m k : Nat) : (spotlight m k).length = m := by
  rw [spotlight, length_set, length_replicate]

theorem spotlight_at {k : Nat} (h : k < m) : (spotlight m k)[k]? = some "a".toList := by
  rw [spotlight, getElem?_set_self (by rw [length_replicate]; exact h)]

theorem spotlight_ne {k j : Nat} {text : CStr} (hjk : j ≠ k) (h : (spotlight m k)[j]? = some text) :
    text ≠ "a".toList := by grind [spotlight, getElem?_set_ne, Option.some.inj]

/-- Processes with the same arguments. -/
def World.withArgs (args : List CStr) : World :=
  { World.plain [] with args := fun _ => (sigarOk, args) }

/-- A number that does not fit the length is mistaken for another one in some list. -/
theorem exists_index_wrong (hspec : ArgsSpec (renderInt i) branch) (hselects : SelectsA branch)
    (hfit : ¬ IndexFits i m) :
    ∃ args : List CStr, args.length = m ∧ ¬ IndexRight (.withArgs args) branch 1 i args := by
  rw [IndexFits, not_or, not_and_or, not_not, not_not] at hfit
  obtain ⟨hne, hinside⟩ := hfit
  by_cases hwanted : Inside (wantedIndex i m) m
  · -- the argument that is meant satisfies the operator, and another one is read
    refine ⟨spotlight m (wantedIndex i m).toNat, length_spotlight _ _, fun hright => ?_⟩
    have hmeant : wantedArg i (spotlight m (wantedIndex i m).toNat) = some "a".toList := by
      rw [wantedArg, length_spotlight, if_pos hwanted]
      exact spotlight_at (by obtain ⟨hlow, hhigh⟩ := hwanted; omega)
    obtain ⟨text, hread, hsat⟩ := (ptqlArgsMatch_index hspec (wholeInt_render i) rfl).mp
      (hright.1.mpr ⟨_, hmeant, (hselects _ _).mpr rfl⟩)
    rw [storedArg, length_spotlight] at hread
    split at hread
    case isTrue hstored =>
      have hother : (storedIndex i m).toNat ≠ (wantedIndex i m).toNat := by
        obtain ⟨hlow, _⟩ := hwanted
        obtain ⟨hlow', _⟩ := hstored
        omega
      exact spotlight_ne hother hread ((hselects _ _).mp hsat)
    case isFalse => cases hread
  · -- there is no such argument, and one is read
    have hstored : Inside (storedIndex i m) m := by grind
    have hlen : (replicate m "a".toList).length = m := length_replicate
    refine ⟨replicate m "a".toList, hlen, fun hright => ?_⟩
    have hread : storedArg i (replicate m "a".toList) = some "a".toList := by
      rw [storedArg, hlen, if_pos hstored, getElem?_replicate,
        if_pos (by obtain ⟨hlow, hhigh⟩ := hstored; omega)]
    obtain ⟨text, hmeant, _⟩ := hright.1.mp
      ((ptqlArgsMatch_index hspec (wholeInt_render i) rfl).mpr
        ⟨_, hread, (hselects _ _).mpr rfl⟩)
    rw [wantedArg, hlen, if_neg hwanted] at hmeant
    cases hmeant

/-- An argument behind the first `2^31` is not looked at. -/
theorem exists_glob_wrong (hspec : ArgsSpec "*".toList branch) (hselects : SelectsA branch)
    (hm : 2147483648 < m) :
    ∃ args : List CStr, args.length = m ∧ ¬ GlobRight (.withArgs args) branch 1 args := by
  refine ⟨spotlight m 2147483648, length_spotlight _ _, fun hright => ?_⟩
  have hmem : "a".toList ∈ spotlight m 2147483648 := mem_of_getElem? (spotlight_at hm)
  obtain ⟨text, htext, hsat⟩ := (ptqlArgsMatch_glob hspec rfl).mp
    (hright.mpr ⟨_, hmem, (hselects _ _).mpr rfl⟩)
  obtain ⟨j, hj⟩ := mem_iff_getElem?.mp htext
  rw [getElem?_take] at hj
  split at hj
  case isTrue hlt =>
    rw [intMax] at hlt
    exact spotlight_ne (by omega) hj ((hselects _ _).mp hsat)
  case isFalse => cases hj

/-- **`Args.<i>` and `Args.*`** do what they are for exactly if the `int`s make no difference for
    the number and the length; no number that is not a `long` is accepted. -/
theorem ptqlArgsMatch_right_iff (i : Int) (m : Nat) :
    ((∀ attr branch world pid args, wholeInt attr = some i → ArgsBranch attr branch →
        world.args pid = (sigarOk, args) → args.length = m →
        IndexRight world branch pid i args) ↔
      i < -9223372036854775808 ∨ 9223372036854775808 ≤ i ∨ IndexFits i m) ∧
    ((∀ branch world pid args, ArgsBranch "*".toList branch →
        world.args pid = (sigarOk, args) → args.length = m → GlobRight world branch pid args) ↔
      m ≤ 2147483648) := by
  refine ⟨⟨fun hright => ?_, ?_⟩, ⟨fun hright => ?_, ?_⟩⟩
  · by_contra hno
    rw [not_or, not_or, not_lt, not_le] at hno
    obtain ⟨branch, hbranch, hselects⟩ := exists_argsBranch hno.1 hno.2.1
    obtain ⟨args, hlen, hwrong⟩ := exists_index_wrong hbranch.spec hselects hno.2.2
    exact hwrong (hright _ branch (.withArgs args) 1 args (wholeInt_render i) hbranch rfl hlen)
  · intro hfit attr branch world pid args hi hbranch hargs hlen
    have hspec := hbranch.spec
    have hstar : attr ≠ "*".toList := by
      rintro rfl
      exact absurd (hi.symm.trans (by decide : wholeInt "*".toList = none)) (Option.some_ne_none i)
    obtain ⟨-, j, hj, hrange, -⟩ := hspec.index hstar
    obtain rfl : i = j := Option.some.inj (hi.symm.trans hj)
    have hfits : IndexFits i args.length := by
      rw [hlen]
      rcases hfit with h | h | h
      · omega
      · omega
      · exact h
    refine ⟨?_, fun k hk => argRead_lt hk⟩
    rw [ptqlArgsMatch_index hspec hi hargs, storedArg_eq_wantedArg hfits]
  · by_contra hm
    obtain ⟨branch, hbranch, hselects⟩ := exists_globBranch
    obtain ⟨args, hlen, hwrong⟩ := exists_glob_wrong hbranch.spec hselects (not_le.mp hm)
    exact hwrong (hright branch (.withArgs args) 1 args hbranch rfl hlen)
  · intro hm branch world pid args hbranch hargs hlen
    rw [GlobRight, ptqlArgsMatch_glob hbranch.spec hargs, take_of_length_le (by rw [intMax]; omega)]

/-- The argument with the number 2^32 is taken to be the first one. -/
theorem hugeIndex_matches :
    ∃ branch, ArgsBranch "4294967296".toList branch ∧
      wholeInt "4294967296".toList = some 4294967296 ∧
      (ptqlArgsMatch (.withArgs ["a".toList]) branch 1).res = .ok sigarOk ∧
      wantedArg 4294967296 ["a".toList] = none := by
  have hparse : ptqlBranchParse "Args.4294967296.eq=a".toList
      = .ok ⟨"Args".toList, "4294967296".toList, "eq".toList, "a".toList, {}⟩ := by decide
  exact ⟨_, ⟨.plain, _, _, 0, hparse, rfl, rfl, rfl⟩, by decide, rfl, by decide⟩

end Sigar.Ptql
