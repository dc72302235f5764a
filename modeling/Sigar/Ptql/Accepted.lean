/-
  What is known of the branches of an accepted query.

  `ptqlBranchAdd_ok` inverts `ptql_branch_add`, `sigarPtqlQueryCreate_ok` the creation of a query:
  its branches are those of its pieces, in order if one of them is a reference and up to their
  order otherwise.  `BuiltBranch` collects what the evaluation relies on.
-/
import Sigar.Ptql.Match

namespace Sigar.Ptql

open CString List

variable {piece : CStr} {init : PtqlBranch} {ptql : CStr}

variable {libc : Libc} {parsed : PtqlParseBranch} {number : Nat} {branch : PtqlBranch}

/-! ## Parsing sets no flag but those of the modifiers -/

theorem parseModifiers_flags : ∀ {query op : CStr} {flags result : OpFlags},
    parseModifiers query flags = .ok (result, op) →
    result.ref = flags.ref ∧ result.glob = flags.glob ∧ result.pid = flags.pid := by
  intro query
  induction query with
  | nil =>
    intro op flags result h
    obtain ⟨rfl, _⟩ := Prod.mk.inj (Except.ok.inj h)
    exact ⟨rfl, rfl, rfl⟩
  | cons c rest ih =>
    intro op flags result h
    rw [parseModifiers] at h
    split at h
    · split at h
      · have hrest := ih h
        exact hrest
      · split at h
        · have hrest := ih h
          exact hrest
        · exact nomatch h
    · obtain ⟨rfl, _⟩ := Prod.mk.inj (Except.ok.inj h)
      exact ⟨rfl, rfl, rfl⟩

theorem rewriteService_opFlags (p : PtqlParseBranch) : (rewriteService p).opFlags = p.opFlags := by
  unfold rewriteService
  split <;> rfl

theorem ptqlBranchParse_flags (h : ptqlBranchParse piece = .ok parsed) :
    parsed.opFlags.ref = false ∧ parsed.opFlags.glob = false ∧ parsed.opFlags.pid = false := by
  unfold ptqlBranchParse at h
  split at h
  · exact nomatch h
  · split at h
    · exact nomatch h
    · split at h
      · exact nomatch h
      · split at h
        · exact nomatch h
        · split at h
          · exact nomatch h
          · next hmod =>
            obtain rfl := Except.ok.inj h
            rw [rewriteService_opFlags]
            exact parseModifiers_flags hmod

/-! ## The lookup tables -/

/-- All lookups, class by class. -/
def allLookups : List PtqlLookup := ptqlMap.flatMap (·.2)

/-- A lookup is one of the members of the class that the text names. -/
theorem findLookup_class {lookup : PtqlLookup} (h : findLookup parsed = .ok lookup) :
    ∃ members, (parsed.name, members) ∈ ptqlMap ∧ lookup ∈ members := by
  unfold findLookup at h
  split at h
  · exact nomatch h
  · next name members hmap =>
    have hname : name = parsed.name := by simpa using find?_some hmap
    refine ⟨members, hname ▸ mem_of_find?_eq_some hmap, ?_⟩
    split at h
    · grind [takeWhile_sublist]
    · split at h
      · split at h
        · obtain rfl := Except.ok.inj h
          exact mem_cons_self
        · exact nomatch h
      · exact nomatch h

theorem findLookup_mem {lookup : PtqlLookup} (h : findLookup parsed = .ok lookup) :
    lookup ∈ allLookups := by
  obtain ⟨members, hclass, hmem⟩ := findLookup_class h
  exact mem_flatMap.mpr ⟨_, hclass, hmem⟩

/-- The class `Pid` is the one with `ptql_branch_init_pid`. -/
theorem findLookup_pid_iff {lookup : PtqlLookup} (h : findLookup parsed = .ok lookup) :
    lookup.init = some .pid ↔ parsed.name = "Pid".toList := by
  -- read off the table
  have htable : ∀ e ∈ ptqlMap, ∀ l ∈ e.2, l.init = some .pid ↔ e.1 = "Pid".toList := by decide
  obtain ⟨members, hclass, hmem⟩ := findLookup_class h
  exact htable (parsed.name, members) hclass lookup hmem

/-- A lookup either reads a field of a structure and has no `init`, or leaves everything to its
    matcher and has one. -/
def PtqlLookup.Proper (lookup : PtqlLookup) : Prop :=
  (lookup.type ≠ .any ∧ lookup.init = none ∧ ∃ getter, lookup.get = .struct getter) ∨
  (lookup.type = .any ∧ lookup.init.isSome ∧ ∀ getter, lookup.get ≠ .struct getter)

/-- The same, as a test. -/
def PtqlLookup.proper (lookup : PtqlLookup) : Bool :=
  match lookup.get with
  | .struct _ => lookup.type ≠ .any && lookup.init.isNone
  | _ => lookup.type = .any && lookup.init.isSome

theorem PtqlLookup.proper_of_test {lookup : PtqlLookup} (h : lookup.proper = true) :
    lookup.Proper := by
  obtain ⟨name, get, offset, dataSize, type, init⟩ := lookup
  cases get with
  | struct getter =>
    simp only [PtqlLookup.proper, Bool.and_eq_true, decide_eq_true_eq,
      Option.isNone_iff_eq_none] at h
    exact Or.inl ⟨h.1, h.2, getter, rfl⟩
  | args | modules | env | pid =>
    simp only [PtqlLookup.proper, Bool.and_eq_true, decide_eq_true_eq] at h
    exact Or.inr ⟨h.1, h.2, fun _ hc => nomatch hc⟩

theorem allLookups_proper : ∀ lookup ∈ allLookups, lookup.Proper := by
  have htest : ∀ lookup ∈ allLookups, lookup.proper = true := by decide
  exact fun lookup h => PtqlLookup.proper_of_test (htest lookup h)

/-! ## Inverting `ptql_branch_add` -/

/-- The steps of a `ptql_branch_add` that succeeds. -/
theorem ptqlBranchAdd_ok (h : ptqlBranchAdd libc parsed number = .ok branch) :
    ∃ opName lookup init matchFn,
      ptqlOpCodeGet parsed.op = some opName ∧ findLookup parsed = .ok lookup ∧
      runInit libc parsed (blankBranch lookup opName parsed) lookup.init = .ok init ∧
      installOp lookup.type opName = some matchFn ∧
      ((deref parsed.value = '$' ∧ opName ≠ .re ∧
          variableValue libc number { init with matchFn := matchFn } parsed.value = .ok branch) ∨
        (deref parsed.value ≠ '$' ∧ ∃ value,
          literalValue libc lookup.type number parsed.value = .ok value ∧
          branch = { init with matchFn := matchFn, value := value })) := by
  unfold ptqlBranchAdd at h
  cases hop : ptqlOpCodeGet parsed.op with
  | none => rw [hop] at h; exact nomatch h
  | some opName =>
  cases hlookup : findLookup parsed with
  | error message => rw [hop, hlookup] at h; exact nomatch h
  | ok lookup =>
  rw [hop, hlookup] at h
  dsimp only at h
  cases hinit : runInit libc parsed (blankBranch lookup opName parsed) lookup.init with
  | error message => rw [hinit] at h; exact nomatch h
  | ok init =>
  rw [hinit] at h
  dsimp only at h
  cases hmatch : installOp lookup.type opName with
  | none => rw [hmatch] at h; exact nomatch h
  | some matchFn =>
  rw [hmatch] at h
  refine ⟨opName, lookup, init, matchFn, rfl, rfl, hinit, hmatch, ?_⟩
  dsimp only at h
  by_cases hdollar : deref parsed.value = '$'
  · rw [if_pos hdollar] at h
    by_cases hre : opName = .re
    · rw [if_pos hre] at h; exact nomatch h
    · rw [if_neg hre] at h
      exact Or.inl ⟨hdollar, hre, h⟩
  · rw [if_neg hdollar] at h
    cases hvalue : literalValue libc lookup.type number parsed.value with
    | error message => rw [hvalue] at h; exact nomatch h
    | ok value =>
      rw [hvalue] at h
      exact Or.inr ⟨hdollar, value, rfl, (Except.ok.inj h).symm⟩

/-- The steps of `variableValue`. -/
theorem variableValue_ok {value : CStr} {result : PtqlBranch}
    (h : variableValue libc number branch value = .ok result) :
    ((deref value.tail).isDigit = true ∧ (refIndex value).toNat < number ∧
      result = { branch with
        opFlags := { branch.opFlags with ref := true }
        value := .ui32 (refIndex value) }) ∨
    ((deref value.tail).isDigit = false ∧
      result = { branch with
        value := .str ((libc.getenv value.tail).map fun s => ⟨libc.heap number, s⟩) }) := by
  unfold variableValue at h
  dsimp only at h
  split at h
  · next hdigit =>
    split at h
    · exact nomatch h
    · next hrange =>
      split at h
      · exact nomatch h
      · next hself =>
        exact Or.inl ⟨hdigit, by omega, (Except.ok.inj h).symm⟩
  · next hdigit => exact Or.inr ⟨by simpa using hdigit, (Except.ok.inj h).symm⟩

/-! ## What an `init` sets -/

/-- The classes whose branches filter the process list. -/
def InitFn.setsPid : InitFn → Bool
  | .port | .pid | .service => true
  | .args | .any => false

/-- What every `init` leaves alone, and the flag that three of them set. -/
structure InitKeeps (before after : PtqlBranch) (setsPid : Bool) : Prop where
  lookup : after.lookup = before.lookup
  opName : after.opName = before.opName
  value : after.value = before.value
  parent : after.opFlags.parent = before.opFlags.parent
  icase : after.opFlags.icase = before.opFlags.icase
  ref : after.opFlags.ref = before.opFlags.ref
  pid : after.opFlags.pid = (before.opFlags.pid || setsPid)

/-- The three attributes of `Pid`. -/
inductive PidFlag.FromPidClass : PidFlag → Prop
  | pid : FromPidClass .pid
  | file : FromPidClass .file
  | sudoFile : FromPidClass .sudoFile

theorem PidFlag.FromPidClass.not_service {flags : PidFlag} (h : flags.FromPidClass) :
    flags.isService = false := by
  cases h <;> rfl

theorem ptqlBranchInitPid_ok (h : ptqlBranchInitPid libc parsed branch = .ok init) :
    InitKeeps branch init true ∧ init.flags.FromPidClass := by
  unfold ptqlBranchInitPid at h
  dsimp only at h
  split at h
  · split at h
    · obtain rfl := Except.ok.inj h
      exact ⟨⟨rfl, rfl, rfl, rfl, rfl, rfl, (Bool.or_true _).symm⟩, .pid⟩
    · split at h
      · exact nomatch h
      · obtain rfl := Except.ok.inj h
        exact ⟨⟨rfl, rfl, rfl, rfl, rfl, rfl, (Bool.or_true _).symm⟩, .pid⟩
  · split at h
    · obtain rfl := Except.ok.inj h
      exact ⟨⟨rfl, rfl, rfl, rfl, rfl, rfl, (Bool.or_true _).symm⟩, .file⟩
    · split at h
      · obtain rfl := Except.ok.inj h
        exact ⟨⟨rfl, rfl, rfl, rfl, rfl, rfl, (Bool.or_true _).symm⟩, .sudoFile⟩
      · exact nomatch h

theorem ptqlBranchInitService_ok (h : ptqlBranchInitService parsed branch = .ok init) :
    InitKeeps branch init true ∧ init.flags.isService = true := by
  unfold ptqlBranchInitService at h
  dsimp only at h
  have hkeeps : ∀ flags : PidFlag, flags.isService = true →
      InitKeeps branch { branch with
        opFlags := { branch.opFlags with pid := true }, flags := flags } true ∧
      flags.isService = true :=
    fun flags hflags => ⟨⟨rfl, rfl, rfl, rfl, rfl, rfl, (Bool.or_true _).symm⟩, hflags⟩
  split at h
  · obtain rfl := Except.ok.inj h; exact hkeeps .serviceName rfl
  · split at h
    · obtain rfl := Except.ok.inj h; exact hkeeps .serviceDisplay rfl
    · split at h
      · obtain rfl := Except.ok.inj h; exact hkeeps .servicePath rfl
      · split at h
        · obtain rfl := Except.ok.inj h; exact hkeeps .serviceExe rfl
        · split at h
          · obtain rfl := Except.ok.inj h; exact hkeeps .servicePid rfl
          · exact nomatch h

theorem ptqlBranchInitPort_ok (h : ptqlBranchInitPort parsed branch = .ok init) :
    InitKeeps branch init true ∧ branch.opName = .eq ∧ init.flags = .tcpPort := by
  unfold ptqlBranchInitPort at h
  split at h
  · exact nomatch h
  · next hop =>
    dsimp only at h
    split at h
    · split at h
      · exact nomatch h
      · obtain rfl := Except.ok.inj h
        exact ⟨⟨rfl, rfl, rfl, rfl, rfl, rfl, (Bool.or_true _).symm⟩, not_not.mp hop, rfl⟩
    · exact nomatch h

theorem ptqlArgsBranchInit_keeps (h : ptqlArgsBranchInit parsed branch = .ok init) :
    InitKeeps branch init false := by
  unfold ptqlArgsBranchInit at h
  dsimp only at h
  split at h
  · obtain rfl := Except.ok.inj h
    exact ⟨rfl, rfl, rfl, rfl, rfl, rfl, (Bool.or_false _).symm⟩
  · split at h
    · exact nomatch h
    · obtain rfl := Except.ok.inj h
      exact ⟨rfl, rfl, rfl, rfl, rfl, rfl, (Bool.or_false _).symm⟩

theorem runInit_keeps {fn : Option InitFn} (h : runInit libc parsed branch fn = .ok init) :
    InitKeeps branch init (fn.any InitFn.setsPid) := by
  match fn with
  | none =>
    obtain rfl := Except.ok.inj h
    exact ⟨rfl, rfl, rfl, rfl, rfl, rfl, (Bool.or_false _).symm⟩
  | some .args => exact ptqlArgsBranchInit_keeps h
  | some .any =>
    obtain rfl := Except.ok.inj h
    exact ⟨rfl, rfl, rfl, rfl, rfl, rfl, (Bool.or_false _).symm⟩
  | some .port => exact (ptqlBranchInitPort_ok h).1
  | some .pid => exact (ptqlBranchInitPid_ok h).1
  | some .service => exact (ptqlBranchInitService_ok h).1

/-! ## What a built branch is -/

/-- The member that a value of the type is read through. -/
def PtqlValueType.member : PtqlValueType → Member
  | .ui64 => .ui64
  | .ui32 => .ui32
  | .dbl => .dbl
  | .chr => .chr
  | .str | .any => .str

/-- A value `$n`. -/
def IsRefText (value : CStr) : Prop := deref value = '$' ∧ (deref value.tail).isDigit = true

/-- A value `$NAME`. -/
def IsVarText (value : CStr) : Prop := deref value = '$' ∧ (deref value.tail).isDigit = false

instance (value : CStr) : Decidable (IsRefText value) := inferInstanceAs (Decidable (_ ∧ _))
instance (value : CStr) : Decidable (IsVarText value) := inferInstanceAs (Decidable (_ ∧ _))

/-- How the value of a branch came about. -/
inductive ValueOrigin (libc : Libc) (parsed : PtqlParseBranch) (number : Nat)
    (branch : PtqlBranch) : Prop where
  | ref : IsRefText parsed.value → branch.opFlags.ref = true → branch.opName ≠ .re →
      branch.value = .ui32 (refIndex parsed.value) → (refIndex parsed.value).toNat < number →
      ValueOrigin libc parsed number branch
  | var : IsVarText parsed.value → branch.opFlags.ref = false → branch.opName ≠ .re →
      branch.value = .str ((libc.getenv parsed.value.tail).map fun s => ⟨libc.heap number, s⟩) →
      ValueOrigin libc parsed number branch
  | literal : deref parsed.value ≠ '$' → branch.opFlags.ref = false →
      literalValue libc branch.lookup.type number parsed.value = .ok branch.value →
      ValueOrigin libc parsed number branch

/-- What is known of the branch that `ptql_branch_add` makes of a parsed text. -/
structure BuiltBranch (libc : Libc) (parsed : PtqlParseBranch) (number : Nat)
    (branch : PtqlBranch) : Prop where
  opCode : ptqlOpCodeGet parsed.op = some branch.opName
  found : findLookup parsed = .ok branch.lookup
  installed : installOp branch.lookup.type branch.opName = some branch.matchFn
  parent : branch.opFlags.parent = parsed.opFlags.parent
  pid : branch.opFlags.pid = branch.lookup.init.any InitFn.setsPid
  init : ∃ init, runInit libc parsed (blankBranch branch.lookup branch.opName parsed)
    branch.lookup.init = .ok init ∧ branch.flags = init.flags ∧ branch.data = init.data
  value : ValueOrigin libc parsed number branch

theorem BuiltBranch.proper (hb : BuiltBranch libc parsed number branch) : branch.lookup.Proper :=
  allLookups_proper _ (findLookup_mem hb.found)

/-- What a branch that filters the process list is: of the class `Port`, which takes only `eq`, of
    `Service`, or of `Pid`. -/
theorem BuiltBranch.pid_cases (hb : BuiltBranch libc parsed number branch)
    (hpid : branch.opFlags.pid = true) :
    (branch.opName = .eq ∧ branch.flags = .tcpPort) ∨ branch.flags.isService = true ∨
      (branch.lookup.init = some .pid ∧ branch.flags.FromPidClass) := by
  obtain ⟨init, hinit, hflags, _⟩ := hb.init
  rw [hb.pid] at hpid
  rw [hflags]
  cases hfn : branch.lookup.init with
  | none => rw [hfn] at hpid; exact nomatch hpid
  | some fn =>
    rw [hfn] at hpid hinit
    cases fn with
    | args | any => exact nomatch hpid
    | port =>
      obtain ⟨_, hop, hport⟩ := ptqlBranchInitPort_ok hinit
      exact Or.inl ⟨hop, hport⟩
    | service => exact Or.inr (Or.inl (ptqlBranchInitService_ok hinit).2)
    | pid => exact Or.inr (Or.inr ⟨rfl, (ptqlBranchInitPid_ok hinit).2⟩)

/-- Those branches have no structure, and always match. -/
theorem BuiltBranch.pid_lookup (hb : BuiltBranch libc parsed number branch)
    (hpid : branch.opFlags.pid = true) :
    branch.lookup.type = .any ∧ branch.lookup.get = .pid := by
  have htable : ∀ l ∈ allLookups, l.init.any InitFn.setsPid = true →
      l.type = .any ∧ l.get = .pid := by decide
  rw [hb.pid] at hpid
  exact htable _ (findLookup_mem hb.found) hpid

/-- `ptql_branch_add` on a parsed piece builds such a branch. -/
theorem ptqlBranchAdd_built (hparse : ptqlBranchParse piece = .ok parsed)
    (h : ptqlBranchAdd libc parsed number = .ok branch) :
    BuiltBranch libc parsed number branch := by
  obtain ⟨href, _, hpid⟩ := ptqlBranchParse_flags hparse
  obtain ⟨opName, lookup, init, matchFn, hop, hlookup, hinit, hmatch, hvalue⟩ :=
    ptqlBranchAdd_ok h
  have hkeeps := runInit_keeps hinit
  have hinitPid : init.opFlags.pid = lookup.init.any InitFn.setsPid := by
    rw [hkeeps.pid]
    show (parsed.opFlags.pid || _) = _
    rw [hpid, Bool.false_or]
  have hinitRef : init.opFlags.ref = false := hkeeps.ref.trans href
  obtain ⟨rfl, rfl⟩ : init.lookup = lookup ∧ init.opName = opName := ⟨hkeeps.lookup, hkeeps.opName⟩
  -- the three origins of a value: `$n`, `$NAME` and a literal
  rcases hvalue with ⟨hdollar, hre, hvar⟩ | ⟨hdollar, value, hlit, rfl⟩
  · rcases variableValue_ok hvar with ⟨hdigit, hindex, rfl⟩ | ⟨hdigit, rfl⟩
    · exact ⟨hop, hlookup, hmatch, hkeeps.parent, hinitPid, ⟨init, hinit, rfl, rfl⟩,
        .ref ⟨hdollar, hdigit⟩ rfl hre rfl hindex⟩
    · exact ⟨hop, hlookup, hmatch, hkeeps.parent, hinitPid, ⟨init, hinit, rfl, rfl⟩,
        .var ⟨hdollar, hdigit⟩ hinitRef hre rfl⟩
  · exact ⟨hop, hlookup, hmatch, hkeeps.parent, hinitPid, ⟨init, hinit, rfl, rfl⟩,
      .literal hdollar hinitRef hlit⟩

/-! ## Accepted queries -/

/-- The branches built from the pieces `ps` behind `start` others. -/
def BuiltFrom (libc : Libc) : Nat → List CStr → List PtqlBranch → Prop
  | _, [], [] => True
  | start, piece :: ps, branch :: bs =>
    (∃ parsed, ptqlBranchParse piece = .ok parsed ∧ ptqlBranchAdd libc parsed start = .ok branch) ∧
      BuiltFrom libc (start + 1) ps bs
  | _, _, _ => False

theorem addPieces_ok : ∀ {ps : List CStr} {before branches : List PtqlBranch},
    addPieces libc before ps = .ok branches →
    ∃ added, branches = before ++ added ∧ BuiltFrom libc before.length ps added := by
  intro ps
  induction ps with
  | nil =>
    intro before branches h
    obtain rfl := Except.ok.inj h
    exact ⟨[], (append_nil _).symm, trivial⟩
  | cons piece ps ih =>
    intro before branches h
    rw [addPieces] at h
    cases hparse : ptqlBranchParse piece with
    | error message => rw [hparse] at h; exact nomatch h
    | ok parsed =>
      rw [hparse] at h
      dsimp only at h
      cases hadd : ptqlBranchAdd libc parsed before.length with
      | error message => rw [hadd] at h; exact nomatch h
      | ok branch =>
        rw [hadd] at h
        obtain ⟨added, rfl, hbuilt⟩ := ih h
        refine ⟨branch :: added, by simp, ⟨parsed, hparse, hadd⟩, ?_⟩
        rw [length_append, length_singleton] at hbuilt
        exact hbuilt

/-- **The branches of an accepted query**: those of its pieces, in their order if there is a
    reference among them. -/
theorem sigarPtqlQueryCreate_ok {query : PtqlQuery}
    (h : sigarPtqlQueryCreate libc ptql = .ok query) :
    ∃ branches, BuiltFrom libc 0 (pieces ptql) branches ∧
      ((branches.any (·.opFlags.ref) = true ∧ query.branches = branches) ∨
        (branches.any (·.opFlags.ref) = false ∧ query.branches = libc.qsort branches)) := by
  unfold sigarPtqlQueryCreate at h
  cases hadd : addPieces libc [] (pieces ptql) with
  | error message => rw [hadd] at h; exact nomatch h
  | ok branches =>
    rw [hadd] at h
    dsimp only at h
    obtain ⟨added, hbranches, hbuilt⟩ := addPieces_ok hadd
    rw [nil_append] at hbranches
    rw [hbranches] at h
    refine ⟨added, hbuilt, ?_⟩
    by_cases hany : added.any (·.opFlags.ref) = true
    · grind
    · grind

/-- The piece and the parsed text behind a branch. -/
def ComesFrom (libc : Libc) (piece : CStr) (number : Nat) (branch : PtqlBranch) : Prop :=
  ∃ parsed, ptqlBranchParse piece = .ok parsed ∧ BuiltBranch libc parsed number branch

/-- The `i`-th branch is the one of the `i`-th piece. -/
theorem BuiltFrom.getElem?_iff : ∀ {start i : Nat} {ps : List CStr} {bs : List PtqlBranch},
    BuiltFrom libc start ps bs →
    (bs[i]? = some branch ↔ ∃ piece parsed, ps[i]? = some piece ∧
      ptqlBranchParse piece = .ok parsed ∧ ptqlBranchAdd libc parsed (start + i) = .ok branch) := by
  intro start i ps
  induction ps generalizing start i with
  | nil =>
    intro bs h
    cases bs with
    | nil => exact ⟨fun h => (nomatch h), fun ⟨_, _, h, _⟩ => (nomatch h)⟩
    | cons b bs => exact h.elim
  | cons piece ps ih =>
    intro bs h
    cases bs with
    | nil => exact h.elim
    | cons b bs =>
      obtain ⟨⟨parsed, hparse, hadd⟩, hrest⟩ := h
      cases i with
      | zero => grind
      | succ i => grind

theorem BuiltFrom.get {start i : Nat} {ps : List CStr} {bs : List PtqlBranch}
    (h : BuiltFrom libc start ps bs) (hget : bs[i]? = some branch) :
    ∃ piece ∈ ps, ComesFrom libc piece (start + i) branch := by
  obtain ⟨piece, parsed, hpiece, hparse, hadd⟩ := h.getElem?_iff.mp hget
  exact ⟨piece, mem_of_getElem? hpiece, parsed, hparse, ptqlBranchAdd_built hparse hadd⟩

theorem BuiltFrom.of_piece : ∀ {start : Nat} {ps : List CStr} {bs : List PtqlBranch} {piece : CStr},
    BuiltFrom libc start ps bs → piece ∈ ps →
    ∃ number, ∃ branch ∈ bs, ComesFrom libc piece number branch := by
  intro start ps
  induction ps generalizing start with
  | nil => intro bs piece _ hmem; exact absurd hmem not_mem_nil
  | cons p ps ih =>
    intro bs piece h hmem
    cases bs with
    | nil => exact h.elim
    | cons b bs =>
      obtain ⟨⟨parsed, hparse, hadd⟩, hrest⟩ := h
      rcases mem_cons.mp hmem with rfl | hmem
      · exact ⟨start, b, mem_cons_self, parsed, hparse, ptqlBranchAdd_built hparse hadd⟩
      · grind

/-- An accepted query that passes a test, from an evaluation. -/
theorem accepted_of_test {test : PtqlQuery → Bool}
    (h : (sigarPtqlQueryCreate libc ptql).toOption.any test = true) :
    ∃ query, sigarPtqlQueryCreate libc ptql = .ok query ∧ test query = true := by
  cases hcreate : sigarPtqlQueryCreate libc ptql with
  | error message => rw [hcreate] at h; exact nomatch h
  | ok query => rw [hcreate] at h; exact ⟨query, rfl, h⟩

/-- An accepted branch that passes a test, from an evaluation. -/
theorem built_of_test {test : PtqlParseBranch → PtqlBranch → Bool}
    (h : ((ptqlBranchParse piece).toOption.any fun parsed => (ptqlBranchAdd libc parsed number).toOption.any
    (test parsed)) = true) :
    ∃ parsed branch, ptqlBranchParse piece = .ok parsed ∧
      ptqlBranchAdd libc parsed number = .ok branch ∧ test parsed branch = true := by
  cases hparse : ptqlBranchParse piece with
  | error message => rw [hparse] at h; exact nomatch h
  | ok parsed =>
    rw [hparse] at h
    have hany : (ptqlBranchAdd libc parsed number).toOption.any (test parsed) = true := h
    cases hadd : ptqlBranchAdd libc parsed number with
    | error message => rw [hadd] at hany; exact nomatch hany
    | ok branch => rw [hadd] at hany; exact ⟨parsed, branch, rfl, hadd, hany⟩

section Query

variable {ptql : CStr} {query : PtqlQuery} (h : sigarPtqlQueryCreate libc ptql = .ok query)

include h

/-- The branches are those that were built from the pieces, wherever the sorting put them. -/
theorem branches_perm :
    ∃ branches, BuiltFrom libc 0 (pieces ptql) branches ∧ query.branches.Perm branches := by
  obtain ⟨branches, hbuilt, hquery⟩ := sigarPtqlQueryCreate_ok h
  refine ⟨branches, hbuilt, ?_⟩
  rcases hquery with ⟨_, heq⟩ | ⟨_, heq⟩
  · rw [heq]
  · rw [heq]
    exact libc.qsort_perm branches

theorem mem_branches_iff :
    branch ∈ query.branches ↔ ∃ (i : Nat) (piece : CStr) (parsed : PtqlParseBranch),
      (pieces ptql)[i]? = some piece ∧ ptqlBranchParse piece = .ok parsed ∧
      ptqlBranchAdd libc parsed i = .ok branch := by
  obtain ⟨branches, hbuilt, hperm⟩ := branches_perm h
  rw [hperm.mem_iff, mem_iff_getElem?]
  refine exists_congr fun i => ?_
  rw [hbuilt.getElem?_iff, Nat.zero_add]

/-- Every branch comes from a piece. -/
theorem branch_comesFrom (hb : branch ∈ query.branches) :
    ∃ piece ∈ pieces ptql, ∃ number, ComesFrom libc piece number branch := by
  obtain ⟨i, piece, parsed, hpiece, hparse, hadd⟩ := (mem_branches_iff h).mp hb
  exact ⟨piece, mem_of_getElem? hpiece, i, parsed, hparse, ptqlBranchAdd_built hparse hadd⟩

/-- Every piece has its branch. -/
theorem piece_branch {piece : CStr} (hpiece : piece ∈ pieces ptql) :
    ∃ number, ∃ branch ∈ query.branches, ComesFrom libc piece number branch := by
  obtain ⟨branches, hbuilt, hperm⟩ := branches_perm h
  obtain ⟨number, branch, hb, hcomes⟩ := hbuilt.of_piece hpiece
  exact ⟨number, branch, hperm.mem_iff.mpr hb, hcomes⟩

/-- **A reference points strictly before itself**, in the array that is evaluated: a query with a
    reference is not sorted. -/
theorem ref_before {i : Nat} (hi : query.branches[i]? = some branch)
    (href : branch.opFlags.ref = true) :
    ∃ n : UInt32, branch.value = .ui32 n ∧ n.toNat < i := by
  obtain ⟨branches, hbuilt, hquery⟩ := sigarPtqlQueryCreate_ok h
  rcases hquery with ⟨_, heq⟩ | ⟨hnone, heq⟩
  · rw [heq] at hi
    obtain ⟨_, _, parsed, _, hb⟩ := hbuilt.get hi
    cases hb.value with
    | ref _ _ _ hvalue hlt => exact ⟨_, hvalue, by omega⟩
    | var _ hno _ _ => rw [href] at hno; exact nomatch hno
    | literal _ hno _ => rw [href] at hno; exact nomatch hno
  · -- without references there is none to look at
    have hmem : branch ∈ branches := by
      rw [heq] at hi
      exact (libc.qsort_perm branches).mem_iff.mp (mem_of_getElem? hi)
    have hfalse := any_eq_false.mp hnone branch hmem
    exact absurd href hfalse

end Query

end Sigar.Ptql
