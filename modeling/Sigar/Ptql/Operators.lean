/-
  The operators of PTQL.

  Source: `ptql_op_code_get` and the tables `ptql_op_ui64`, `ptql_op_ui32`, `ptql_op_dbl`,
  `ptql_op_chr` and `ptql_op_str` of `sigar_ptql.c`.  The four number tables have the same SIX
  entries, in the order of the first six operator names; the string table has all ten.
-/
import Sigar.Ptql.Syntax

namespace Sigar.Ptql

open CString

/-- `ptql_value_type_t`. -/
inductive PtqlValueType where
  | ui64 | ui32 | dbl | chr | str | any
  deriving DecidableEq

/-- The number of the enumerator, which `ptql_branch_compare` subtracts. -/
def PtqlValueType.index : PtqlValueType → Nat
  | .ui64 => 0
  | .ui32 => 1
  | .dbl => 2
  | .chr => 3
  | .str => 4
  | .any => 5

/-- `ptql_op_name_t`, without the `PTQL_OP_MAX` that stands for no operator. -/
inductive PtqlOpName where
  | eq | ne | gt | ge | lt | le | ew | sw | re | ct
  deriving DecidableEq

/-- `ptql_op_code_get`. -/
def ptqlOpCodeGet (op : CStr) : Option PtqlOpName :=
  if op = "eq".toList then some .eq
  else if op = "ne".toList then some .ne
  else if op = "gt".toList then some .gt
  else if op = "ge".toList then some .ge
  else if op = "lt".toList then some .lt
  else if op = "le".toList then some .le
  else if op = "ew".toList then some .ew
  else if op = "sw".toList then some .sw
  else if op = "re".toList then some .re
  else if op = "ct".toList then some .ct
  else none

/-- An entry of the number tables. -/
inductive CmpOp where
  | eq | ne | gt | ge | lt | le
  deriving DecidableEq

/-- The entry at `op_name` of a number table; `none` is past its end. -/
def PtqlOpName.cmp? : PtqlOpName → Option CmpOp
  | .eq => some .eq
  | .ne => some .ne
  | .gt => some .gt
  | .ge => some .ge
  | .lt => some .lt
  | .le => some .le
  | .ew | .sw | .re | .ct => none

/-- The six comparisons, of the type that the table is for. -/
def CmpOp.apply {α : Type} (eq lt : α → α → Bool) (op : CmpOp) (haystack needle : α) : Bool :=
  match op with
  | .eq => eq haystack needle
  | .ne => !eq haystack needle
  | .gt => lt needle haystack
  | .ge => lt needle haystack || eq haystack needle
  | .lt => lt haystack needle
  | .le => lt haystack needle || eq haystack needle

/-- `ptql_op_ui64`. -/
def ptqlOpUi64 : CmpOp → UInt64 → UInt64 → Bool := CmpOp.apply (· == ·) (fun a b => decide (a < b))

/-- `ptql_op_ui32`. -/
def ptqlOpUi32 : CmpOp → UInt32 → UInt32 → Bool := CmpOp.apply (· == ·) (fun a b => decide (a < b))

/-- `ptql_op_dbl`. -/
def ptqlOpDbl : CmpOp → Float → Float → Bool := CmpOp.apply (· == ·) (fun a b => decide (a < b))

/-- The value of a `char`, which has a sign. -/
def charValue (c : Char) : Int := if c.toNat < 128 then c.toNat else c.toNat - 256

/-- `ptql_op_chr`. -/
def ptqlOpChr : CmpOp → Char → Char → Bool :=
  CmpOp.apply (fun a b => charValue a == charValue b) (fun a b => decide (charValue a < charValue b))

/-- `branch_strcmp`. -/
def branchStrcmp (icase : Bool) (s1 s2 : CStr) : Ordering :=
  if icase then strcasecmp s1 s2 else strcmp s1 s2

/-- `branch_strnEQ`. -/
def branchStrnEq (icase : Bool) (s1 s2 : CStr) (n : Nat) : Bool :=
  if icase then strnEq (s1.map tolower) (s2.map tolower) n else strnEq s1 s2 n

/-- `branch_strstr`. -/
def branchStrstr (icase : Bool) (s1 s2 : CStr) : Option CStr :=
  if icase then sigarStrcasestr s1 s2 else strstr s1 s2

/-- `strlen`, stored in an `int`. -/
def intLength (s : CStr) : Int32 := Int32.ofNat s.length

/-- Where the language does not say what a string operator does. -/
inductive StrFault where
  | lengthDiff  -- `hlen - nlen` is no `int`
  | pastEnd     -- `haystack + diff` is behind the string

/-- `ptql_op_str_ew`.  The lengths are `int`s; `strncmp` takes one of them as a `size_t`. -/
def ptqlOpStrEw (icase : Bool) (haystack needle : CStr) : Except StrFault Bool :=
  let nlen := intLength needle
  let hlen := intLength haystack
  let diff := hlen.toInt - nlen.toInt
  if diff < -2147483648 ∨ 2147483648 ≤ diff then .error .lengthDiff
  else if diff < 0 then .ok false
  else if haystack.length < diff.toNat then .error .pastEnd
  else .ok (branchStrnEq icase (haystack.drop diff.toNat) needle nlen.toInt64.toUInt64.toNat)

/-- `ptql_op_str`; without PCRE the `re` entry never matches. -/
def ptqlOpStr (icase : Bool) (op : PtqlOpName) (haystack needle : CStr) : Except StrFault Bool :=
  match op with
  | .eq => .ok (branchStrcmp icase haystack needle == .eq)
  | .ne => .ok (branchStrcmp icase haystack needle != .eq)
  | .gt => .ok (branchStrcmp icase haystack needle == .gt)
  | .ge => .ok (branchStrcmp icase haystack needle != .lt)
  | .lt => .ok (branchStrcmp icase haystack needle == .lt)
  | .le => .ok (branchStrcmp icase haystack needle != .gt)
  | .ew => ptqlOpStrEw icase haystack needle
  | .sw => .ok (branchStrnEq icase haystack needle needle.length)
  | .re => .ok false
  | .ct => .ok (branchStrstr icase haystack needle).isSome

/-- What a branch takes a call for.  One without a meaning, which needs a string of `2^31` bytes,
    counts as no match. -/
def strVerdict (icase : Bool) (op : PtqlOpName) (haystack needle : CStr) : Bool :=
  (ptqlOpStr icase op haystack needle).toOption.getD false

end Sigar.Ptql
