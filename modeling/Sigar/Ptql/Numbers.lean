/-
  Branches on numeric fields.

  A literal is read by `strtoull`, which takes signs and wraps, and is then cut to the width of the
  comparison; the field is read as an unsigned number of that width, also where the structure has
  an `int`.

  1. **Numerals** — what `strtonum_failed` lets through, as integers.
  2. **The field and the literal as integers** — `fieldValue`, `Representable`, `Compares`.
  3. **The branch** compares the two modulo `2^32` or `2^64` (`ptqlBranchMatch_numeric`), which is
     right exactly for a representable literal, and for an order between signed numbers only if
     their signs agree.
-/
import Sigar.Ptql.Verdict
import Sigar.Lib.Numerals
import Sigar.Lib.Words

namespace Sigar.Ptql

open CString Numerals Words

variable {value : CStr} {n : Int} {op : CmpOp} {v : AnyValue}

variable {libc : Libc} {parsed : PtqlParseBranch} {number : Nat} {branch : PtqlBranch}

/-! ## Numerals -/

theorem strtonumFailed_eq_false_iff {src rest : CStr} {erange : Bool} :
    strtonumFailed src rest erange = false ↔
      rest.length ≠ src.length ∧ erange = false ∧ rest = [] := by
  simp [strtonumFailed, and_assoc]

/-- What `strtoull` and `strtonum_failed` accept. -/
theorem strtoull_accepted
    (h : strtonumFailed value (strtoull value).rest (strtoull value).erange = false) :
    ∃ n, wholeInt value = some n ∧ n.natAbs < 18446744073709551616 ∧
      (strtoull value).value = UInt64.ofInt n := by
  obtain ⟨hlen, herange, hrest⟩ := strtonumFailed_eq_false_iff.mp h
  cases hint : leadingInt value with
  | none =>
    have heq : strtoull value = ⟨0, value, false⟩ := by rw [strtoull_eq, hint]
    rw [heq] at hlen
    exact absurd rfl hlen
  | some n =>
    by_cases hbig : 18446744073709551616 ≤ n.natAbs
    · have heq : strtoull value = ⟨18446744073709551615, afterInt value, true⟩ := by
        rw [strtoull_eq, hint]
        exact if_pos hbig
      rw [heq] at herange
      cases herange
    · have heq : strtoull value = ⟨UInt64.ofInt n, afterInt value, false⟩ := by
        rw [strtoull_eq, hint]
        exact if_neg hbig
      rw [heq] at hrest ⊢
      have hend : afterInt value = [] := hrest
      exact ⟨n, by rw [wholeInt, if_pos hend, hint], by omega, rfl⟩

/-- What `strtol` and `strtonum_failed` accept. -/
theorem strtol_accepted_iff :
    strtonumFailed value (strtol value).rest (strtol value).erange = false ∧
        (strtol value).value = n ↔
      wholeInt value = some n ∧ -9223372036854775808 ≤ n ∧ n < 9223372036854775808 := by
  rw [strtonumFailed_eq_false_iff, strtol_eq, wholeInt]
  cases hint : leadingInt value with
  | none => simp
  | some i =>
    have hlen := length_afterInt_lt hint
    dsimp only
    by_cases hhigh : 9223372036854775807 < i
    · rw [if_pos hhigh]
      constructor
      · rintro ⟨⟨-, herange, -⟩, -⟩
        cases herange
      · rintro ⟨hwhole, -, hn⟩
        split at hwhole
        · have hi : i = n := Option.some.inj hwhole
          omega
        · cases hwhole
    · rw [if_neg hhigh]
      by_cases hlow : i < -9223372036854775808
      · rw [if_pos hlow]
        constructor
        · rintro ⟨⟨-, herange, -⟩, -⟩
          cases herange
        · rintro ⟨hwhole, hn, -⟩
          split at hwhole
          · have hi : i = n := Option.some.inj hwhole
            omega
          · cases hwhole
      · rw [if_neg hlow]
        constructor
        · rintro ⟨⟨-, -, hrest⟩, hi⟩
          have hn : i = n := hi
          exact ⟨by rw [if_pos hrest, hn], by omega, by omega⟩
        · rintro ⟨hwhole, -, -⟩
          split at hwhole
          · next hrest => exact ⟨⟨hlen.ne, rfl, hrest⟩, Option.some.inj hwhole⟩
          · cases hwhole

/-! ## The field and the literal as integers -/

/-- The fields that are an `int` or a `sigar_pid_t` in their structure: those of 32 bits in
    `sigar_proc_state_t`. -/
def PtqlLookup.signed (lookup : PtqlLookup) : Bool :=
  lookup.get = .struct .procState && lookup.type = .ui32

/-- The number in the field. -/
def PtqlLookup.fieldValue (lookup : PtqlLookup) (block : Block) : Int :=
  if lookup.type = .ui64 then (block.ui64 lookup.offset).toNat
  else if lookup.signed then (block.ui32 lookup.offset).toInt32.toInt
  else (block.ui32 lookup.offset).toNat

/-- The numbers that the field can hold. -/
def PtqlLookup.Representable (lookup : PtqlLookup) (n : Int) : Prop :=
  if lookup.type = .ui64 then 0 ≤ n ∧ n < 18446744073709551616
  else if lookup.signed then -2147483648 ≤ n ∧ n < 2147483648
  else 0 ≤ n ∧ n < 4294967296

instance (lookup : PtqlLookup) (n : Int) : Decidable (lookup.Representable n) :=
  inferInstanceAs (Decidable
    (if lookup.type = .ui64 then 0 ≤ n ∧ n < 18446744073709551616
    else if lookup.signed then -2147483648 ≤ n ∧ n < 2147483648
    else 0 ≤ n ∧ n < 4294967296))

/-- `v op n`. -/
def Compares (op : CmpOp) (v n : Int) : Prop :=
  match op with
  | .eq => v = n
  | .ne => v ≠ n
  | .gt => n < v
  | .ge => n ≤ v
  | .lt => v < n
  | .le => v ≤ n

instance (op : CmpOp) (v n : Int) : Decidable (Compares op v n) :=
  match op with
  | .eq => inferInstanceAs (Decidable (v = n))
  | .ne => inferInstanceAs (Decidable (v ≠ n))
  | .gt => inferInstanceAs (Decidable (n < v))
  | .ge => inferInstanceAs (Decidable (n ≤ v))
  | .lt => inferInstanceAs (Decidable (v < n))
  | .le => inferInstanceAs (Decidable (v ≤ n))

/-- A table whose two functions are those of the integers. -/
theorem CmpOp.apply_iff {α : Type} {eq lt : α → α → Bool} {a b : α} {x y : Int}
    (heq : eq a b = true ↔ x = y) (hlt : lt a b = true ↔ x < y) (hgt : lt b a = true ↔ y < x) :
    CmpOp.apply eq lt op a b = true ↔ Compares op x y := by
  cases op with
  | eq => exact heq
  | ne =>
    rw [CmpOp.apply, Bool.not_eq_true', Bool.eq_false_iff, ne_eq, heq]
    rfl
  | gt => exact hgt
  | ge =>
    rw [CmpOp.apply, Bool.or_eq_true, hgt, heq, Compares]
    omega
  | lt => exact hlt
  | le =>
    rw [CmpOp.apply, Bool.or_eq_true, hlt, heq, Compares]
    omega

theorem ptqlOpUi64_iff {a b : UInt64} : ptqlOpUi64 op a b = true ↔ Compares op a.toNat b.toNat := by
  apply CmpOp.apply_iff
  · rw [beq_iff_eq, ← UInt64.toNat_inj]
    omega
  · rw [decide_eq_true_eq, UInt64.lt_iff_toNat_lt]
    omega
  · rw [decide_eq_true_eq, UInt64.lt_iff_toNat_lt]
    omega

theorem ptqlOpUi32_iff {a b : UInt32} : ptqlOpUi32 op a b = true ↔ Compares op a.toNat b.toNat := by
  apply CmpOp.apply_iff
  · rw [beq_iff_eq, ← UInt32.toNat_inj]
    omega
  · rw [decide_eq_true_eq, UInt32.lt_iff_toNat_lt]
    omega
  · rw [decide_eq_true_eq, UInt32.lt_iff_toNat_lt]
    omega

/-- A signed number without its sign, in a word of at least its width. -/
theorem residue_eq {m v : Int} (hm : 4294967296 ≤ m) (hv : -2147483648 ≤ v ∧ v < 2147483648) :
    v % m = if v < 0 then v + m else v := by
  split
  · rw [← Int.add_emod_right, Int.emod_eq_of_lt (by omega) (by omega)]
  · exact Int.emod_eq_of_lt (by omega) (by omega)

/-- **Unsigned comparison of signed numbers** is right for equality, and for an order exactly if
    the signs agree. -/
theorem compares_residue_iff {m v : Int} (hm : 4294967296 ≤ m)
    (hv : -2147483648 ≤ v ∧ v < 2147483648) (hn : -2147483648 ≤ n ∧ n < 2147483648) :
    (Compares op (v % m) (n % m) ↔ Compares op v n) ↔
      op = .eq ∨ op = .ne ∨ (v < 0 ↔ n < 0) := by
  rw [residue_eq hm hv, residue_eq hm hn]
  cases op with
  | eq => simp only [Compares, true_or, iff_true]; omega
  | ne => simp only [Compares, true_or, or_true, iff_true]; omega
  | gt | ge | lt | le =>
    simp only [Compares, reduceCtorEq, false_or]
    omega

/-! ## The branch -/

theorem literalValue_ui64 (h : literalValue libc .ui64 number value = .ok v) :
    ∃ n, wholeInt value = some n ∧ v = .ui64 (UInt64.ofInt n) := by
  rw [literalValue] at h
  split at h
  case isTrue => cases h
  case isFalse hok =>
    obtain ⟨n, hn, -, hvalue⟩ := strtoull_accepted (by simpa using hok)
    exact ⟨n, hn, by rw [← Except.ok.inj h, hvalue]⟩

theorem literalValue_ui32 (h : literalValue libc .ui32 number value = .ok v) :
    ∃ n, wholeInt value = some n ∧ v = .ui32 (UInt64.ofInt n).toUInt32 := by
  rw [literalValue] at h
  split at h
  case isTrue => cases h
  case isFalse hok =>
    obtain ⟨n, hn, -, hvalue⟩ := strtoull_accepted (by simpa using hok)
    exact ⟨n, hn, by rw [← Except.ok.inj h, hvalue]⟩

section Loaded

variable {op : CmpOp} (hmatch : branch.matchFn = .cmp op) (block : Block)

include hmatch

theorem ptqlBranchMatch_ui64 {x : UInt64} (htype : branch.lookup.type = .ui64)
    (hvalue : branch.value = .ui64 x) :
    (ptqlBranchMatch branch block).res
      = .ok (ptqlOpUi64 op (block.ui64 branch.lookup.offset) x) := by
  simp only [ptqlBranchMatch, htype, Logged.res_bind, readValue_res, hvalue, Block.read, callMatch,
    hmatch]
  rfl

theorem ptqlBranchMatch_ui32 {x : UInt32} (htype : branch.lookup.type = .ui32)
    (hvalue : branch.value = .ui32 x) :
    (ptqlBranchMatch branch block).res
      = .ok (ptqlOpUi32 op (block.ui32 branch.lookup.offset) x) := by
  have hbits : (AnyValue.ui32 x).bits.toUInt32 = x := UInt32.toUInt32_toUInt64 x
  simp only [ptqlBranchMatch, htype, Logged.res_bind, readValue_res, hvalue, Block.read, callMatch,
    hmatch]
  show Except.ok (ptqlOpUi32 op _ (AnyValue.ui32 x).bits.toUInt32) = _
  rw [hbits]

end Loaded

/-- The width of the comparison. -/
def PtqlLookup.modulus (lookup : PtqlLookup) : Int :=
  if lookup.type = .ui64 then 18446744073709551616 else 4294967296

/-- The branch has a numeric field and a literal. -/
structure NumericBranch (parsed : PtqlParseBranch) (branch : PtqlBranch) : Prop where
  type : branch.lookup.type = .ui64 ∨ branch.lookup.type = .ui32
  literal : deref parsed.value ≠ '$'

/-- **What the branch compares**: the residues of the field and of the literal. -/
theorem ptqlBranchMatch_numeric (hb : BuiltBranch libc parsed number branch)
    (hnum : NumericBranch parsed branch) :
    ∃ n op, wholeInt parsed.value = some n ∧ branch.opName.cmp? = some op ∧ ∀ block,
      ((ptqlBranchMatch branch block).res = .ok true ↔
        Compares op (branch.lookup.fieldValue block % branch.lookup.modulus)
          (n % branch.lookup.modulus)) := by
  have hliteral : literalValue libc branch.lookup.type number parsed.value = .ok branch.value := by
    cases hb.value with
    | ref htext => exact absurd htext.1 hnum.literal
    | var htext => exact absurd htext.1 hnum.literal
    | literal _ _ h => exact h
  have hinstalled := hb.installed
  rcases hnum.type with htype | htype
  · rw [htype] at hliteral hinstalled
    obtain ⟨n, hn, hvalue⟩ := literalValue_ui64 hliteral
    obtain ⟨op, hop, hmatch⟩ := Option.map_eq_some_iff.mp hinstalled
    refine ⟨n, op, hn, hop, fun block => ?_⟩
    have hfield : branch.lookup.fieldValue block = (block.ui64 branch.lookup.offset).toNat := by
      rw [PtqlLookup.fieldValue, if_pos htype]
    have hlt := (block.ui64 branch.lookup.offset).toNat_lt
    rw [ptqlBranchMatch_ui64 hmatch.symm block htype hvalue, Except.ok.injEq, ptqlOpUi64_iff,
      toNat_ofInt64, hfield, PtqlLookup.modulus, if_pos htype]
    rw [show ((block.ui64 branch.lookup.offset).toNat : Int) % 18446744073709551616
      = (block.ui64 branch.lookup.offset).toNat by omega]
  · rw [htype] at hliteral hinstalled
    obtain ⟨n, hn, hvalue⟩ := literalValue_ui32 hliteral
    obtain ⟨op, hop, hmatch⟩ := Option.map_eq_some_iff.mp hinstalled
    refine ⟨n, op, hn, hop, fun block => ?_⟩
    have hnarrow : branch.lookup.type ≠ .ui64 := by rw [htype]; decide
    have hfield : (block.ui32 branch.lookup.offset).toNat
        = branch.lookup.fieldValue block % 4294967296 := by
      rw [PtqlLookup.fieldValue, if_neg hnarrow]
      split
      · exact toNat_eq_toInt32_mod _
      · have hlt := (block.ui32 branch.lookup.offset).toNat_lt
        omega
    rw [ptqlBranchMatch_ui32 hmatch.symm block htype hvalue, Except.ok.injEq, ptqlOpUi32_iff,
      toNat_ofInt64_toUInt32, hfield, PtqlLookup.modulus, if_neg hnarrow]

/-- The literal can be in the field, and the branch decides the relation between the two. -/
def NumericRight (branch : PtqlBranch) (op : CmpOp) (n : Int) (block : Block) : Prop :=
  branch.lookup.Representable n ∧
    ((ptqlBranchMatch branch block).res = .ok true ↔
      Compares op (branch.lookup.fieldValue block) n)

/-- Unsigned fields are compared as they are. -/
theorem compares_unsigned {lookup : PtqlLookup} {block : Block} (hsigned : lookup.signed = false)
    (hn : lookup.Representable n) :
    Compares op (lookup.fieldValue block % lookup.modulus) (n % lookup.modulus) ↔
      Compares op (lookup.fieldValue block) n := by
  have h64 := (block.ui64 lookup.offset).toNat_lt
  have h32 := (block.ui32 lookup.offset).toNat_lt
  have hres : lookup.fieldValue block % lookup.modulus = lookup.fieldValue block ∧
      n % lookup.modulus = n := by
    rw [PtqlLookup.Representable] at hn
    rw [PtqlLookup.fieldValue, PtqlLookup.modulus]
    simp only [hsigned, Bool.false_eq_true, if_false] at hn ⊢
    by_cases htype : lookup.type = .ui64
    · simp only [if_pos htype] at hn ⊢
      omega
    · simp only [if_neg htype] at hn ⊢
      omega
  rw [hres.1, hres.2]

/-- An `int` field and a literal that fits it. -/
theorem signed_bounds {lookup : PtqlLookup} (block : Block) (hsigned : lookup.signed = true)
    (hn : lookup.Representable n) :
    lookup.modulus = 4294967296 ∧
      (-2147483648 ≤ lookup.fieldValue block ∧ lookup.fieldValue block < 2147483648) ∧
      -2147483648 ≤ n ∧ n < 2147483648 := by
  have hnarrow : lookup.type ≠ .ui64 := by
    rw [PtqlLookup.signed, Bool.and_eq_true, decide_eq_true_eq, decide_eq_true_eq] at hsigned
    rw [hsigned.2]
    decide
  have hlow := Int32.le_toInt (block.ui32 lookup.offset).toInt32
  have hhigh := Int32.toInt_lt (block.ui32 lookup.offset).toInt32
  rw [PtqlLookup.Representable, if_neg hnarrow, if_pos hsigned] at hn
  rw [PtqlLookup.modulus, if_neg hnarrow, PtqlLookup.fieldValue, if_neg hnarrow, if_pos hsigned]
  exact ⟨rfl, ⟨by omega, by omega⟩, hn⟩

/-- Neither an unsigned field nor a literal that fits it is negative. -/
theorem unsigned_nonneg {lookup : PtqlLookup} (block : Block) (hsigned : lookup.signed = false)
    (hn : lookup.Representable n) : 0 ≤ lookup.fieldValue block ∧ 0 ≤ n := by
  simp only [PtqlLookup.Representable, PtqlLookup.fieldValue, hsigned, Bool.false_eq_true,
    if_false] at *
  split at hn <;> omega

/-- **Numeric branches.**  An accepted branch decides the relation that it states exactly if the
    field can hold the literal and, for an order, the field and the literal have the same sign. -/
theorem numericBranch_right_iff {piece : CStr} (hparse : ptqlBranchParse piece = .ok parsed)
    (hadd : ptqlBranchAdd libc parsed number = .ok branch) (hnum : NumericBranch parsed branch) :
    ∃ n op, wholeInt parsed.value = some n ∧ branch.opName.cmp? = some op ∧ ∀ block,
      (NumericRight branch op n block ↔
        branch.lookup.Representable n ∧
          (op = .eq ∨ op = .ne ∨ (branch.lookup.fieldValue block < 0 ↔ n < 0))) := by
  obtain ⟨n, op, hn, hop, hmatch⟩ :=
    ptqlBranchMatch_numeric (ptqlBranchAdd_built hparse hadd) hnum
  refine ⟨n, op, hn, hop, fun block => ?_⟩
  rw [NumericRight, hmatch block]
  refine and_congr_right fun hrep => ?_
  cases hsigned : branch.lookup.signed with
  | false =>
    obtain ⟨hv, hn0⟩ := unsigned_nonneg block hsigned hrep
    refine ⟨fun _ => Or.inr (Or.inr ?_), fun _ => compares_unsigned hsigned hrep⟩
    omega
  | true =>
    obtain ⟨hmod, hv, hbounds⟩ := signed_bounds block hsigned hrep
    rw [hmod]
    exact compares_residue_iff (by decide) hv hbounds

/-- A process with 7 pages. -/
theorem numericBranch_right_iff_example :
    ∃ parsed branch, ptqlBranchParse "Mem.Size.gt=6".toList = .ok parsed ∧
      ptqlBranchAdd .plain parsed 0 = .ok branch ∧ NumericBranch parsed branch ∧
      NumericRight branch .gt 6 { Block.zero with ui64 := fun _ => 7 } := by
  obtain ⟨parsed, branch, hparse, hadd, htest⟩ : ∃ parsed branch,
      ptqlBranchParse "Mem.Size.gt=6".toList = .ok parsed ∧
        ptqlBranchAdd .plain parsed 0 = .ok branch ∧
        decide (parsed.value = "6".toList ∧ branch.opName = .gt ∧
          branch.lookup = entry "Size" .procMem 0 48 .ui64) = true :=
    built_of_test (by decide +kernel)
  obtain ⟨hvalue, hopName, hlookup⟩ := of_decide_eq_true htest
  have hnum : NumericBranch parsed branch := by
    constructor
    · exact Or.inl (by rw [hlookup]; rfl)
    · rw [hvalue]
      decide
  obtain ⟨n, op, hn, hop, hright⟩ := numericBranch_right_iff hparse hadd hnum
  have hn6 : n = 6 := by
    rw [hvalue] at hn
    exact (Option.some.inj hn).symm
  have hgt : op = .gt := by
    rw [hopName] at hop
    exact (Option.some.inj hop).symm
  subst hn6 hgt
  refine ⟨parsed, branch, hparse, hadd, hnum, (hright _).mpr ?_⟩
  rw [hlookup]
  exact ⟨by decide, Or.inr (Or.inr (by decide))⟩

/-- A nice value of -5 is not below 0; and -1 is accepted as a size, which is then not above it. -/
theorem negativeNumber_compared :
    (∃ parsed branch, ptqlBranchParse "State.Nice.lt=0".toList = .ok parsed ∧
      ptqlBranchAdd .plain parsed 0 = .ok branch ∧ NumericBranch parsed branch ∧
      branch.lookup.fieldValue { Block.zero with ui32 := fun _ => 4294967291 } = -5 ∧
      ¬ NumericRight branch .lt 0 { Block.zero with ui32 := fun _ => 4294967291 }) ∧
    (∃ parsed branch, ptqlBranchParse "Mem.Size.gt=-1".toList = .ok parsed ∧
      ptqlBranchAdd .plain parsed 0 = .ok branch ∧ NumericBranch parsed branch ∧
      ¬ NumericRight branch .gt (-1) Block.zero) := by
  constructor
  · obtain ⟨parsed, branch, hparse, hadd, htest⟩ : ∃ parsed branch,
        ptqlBranchParse "State.Nice.lt=0".toList = .ok parsed ∧
          ptqlBranchAdd .plain parsed 0 = .ok branch ∧
          decide (parsed.value = "0".toList ∧ branch.lookup = entry "Nice" .procState 144 168 .ui32 ∧
            (ptqlBranchMatch branch { Block.zero with ui32 := fun _ => 4294967291 }).res.toOption
              = some false) = true :=
      built_of_test (by decide +kernel)
    obtain ⟨hvalue, hlookup, hres⟩ := of_decide_eq_true htest
    refine ⟨parsed, branch, hparse, hadd, ⟨Or.inr (by rw [hlookup]; rfl), by rw [hvalue]; decide⟩,
      by rw [hlookup]; decide, ?_⟩
    rintro ⟨-, hiff⟩
    have hbelow : Compares .lt
        (branch.lookup.fieldValue { Block.zero with ui32 := fun _ => 4294967291 }) 0 := by
      rw [hlookup]
      decide
    rw [hiff.mpr hbelow] at hres
    cases hres
  · obtain ⟨parsed, branch, hparse, hadd, htest⟩ : ∃ parsed branch,
        ptqlBranchParse "Mem.Size.gt=-1".toList = .ok parsed ∧
          ptqlBranchAdd .plain parsed 0 = .ok branch ∧
          decide (parsed.value = "-1".toList ∧ branch.lookup = entry "Size" .procMem 0 48 .ui64)
            = true :=
      built_of_test (by decide +kernel)
    obtain ⟨hvalue, hlookup⟩ := of_decide_eq_true htest
    refine ⟨parsed, branch, hparse, hadd, ⟨Or.inl (by rw [hlookup]; rfl), by rw [hvalue]; decide⟩, ?_⟩
    rintro ⟨hrep, -⟩
    rw [hlookup] at hrep
    exact absurd hrep (by decide)

end Sigar.Ptql
