/-
  The text of a PTQL query: `Class.Attr.op=value`, joined by commas.

  Source: `ptql_branch_parse` and the loop of `sigar_ptql_query_create` that cuts the text at the
  commas, in `sigar_ptql.c`.  The source cuts the text in place, by NULs; here a cut is the pair
  of the two parts.  A failure is the message that `ptql_error` writes for it.
-/
import Sigar.Util

namespace Sigar.Ptql

open CString

/-- A C string: its characters, without the NUL that ends it. -/
abbrev CStr := Text

/-- The bits of `op_flags` (`PTQL_OP_FLAG_*`). -/
structure OpFlags where
  parent : Bool := false
  ref : Bool := false
  glob : Bool := false
  pid : Bool := false
  icase : Bool := false
  deriving DecidableEq

/-- `ptql_parse_branch_t`. -/
structure PtqlParseBranch where
  name : CStr
  attr : CStr
  op : CStr
  value : CStr
  opFlags : OpFlags
  deriving DecidableEq

/-- `SIGAR_PTQL_ERRMSG_SIZE`. -/
def sigarPtqlErrmsgSize : Nat := 1024

/-- `ptql_error`: the message, as far as it fits.  The status is always
    `SIGAR_PTQL_MALFORMED_QUERY`. -/
def ptqlError {α : Type} (message : CStr) : Except CStr α :=
  .error (message.take (sigarPtqlErrmsgSize - 1))

/-- The loop over the modifiers: the flags, and the operator after them. -/
def parseModifiers : CStr → OpFlags → Except CStr (OpFlags × CStr)
  | [], flags => .ok (flags, [])
  | c :: rest, flags =>
    if c.isUpper then
      if c = 'P' then parseModifiers rest { flags with parent := true }
      else if c = 'I' then parseModifiers rest { flags with icase := true }
      else ptqlError ("Unsupported modifier: ".toList ++ [c])
    else .ok (flags, c :: rest)

/-- `Pid.Service -> Service.Name`, says the source; it looks at the attribute only. -/
def rewriteService (branch : PtqlParseBranch) : PtqlParseBranch :=
  if branch.attr = "Service".toList then
    { branch with name := branch.attr, attr := "Name".toList }
  else branch

/-- `ptql_branch_parse`. -/
def ptqlBranchParse (query : CStr) : Except CStr PtqlParseBranch :=
  match cut '=' query with
  | none => ptqlError "Missing '='".toList
  | some (query, value) =>
    match cut '.' query with
    | none => ptqlError "Missing '.'".toList
    | some (name, query) =>
      match cut '.' query with
      | none => ptqlError "Missing '.'".toList
      | some (attr, query) =>
        if query = [] then ptqlError "Missing query".toList
        else match parseModifiers query {} with
          | .error message => .error message
          | .ok (flags, op) => .ok (rewriteService ⟨name, attr, op, value, flags⟩)

/-! ## The pieces of a query -/

/-- The pieces that the loop of `sigar_ptql_query_create` parses, up to the first bad one. -/
def pieces : CStr → List CStr
  | [] => [[]]
  | c :: rest =>
    if c = ',' then
      if rest = [] then [[]] else [] :: pieces rest
    else match pieces rest with
      | [] => [[c]]
      | piece :: more => (c :: piece) :: more

/-- The `do … while (*ptql)` of the source: one piece up to the comma, and on behind it unless
    nothing is left there. -/
theorem pieces_eq : ∀ text : CStr,
    pieces text = match cut ',' text with
      | none => [text]
      | some (piece, rest) => if rest = [] then [piece] else piece :: pieces rest := by
  intro text
  induction text with
  | nil => rfl
  | cons c rest ih =>
    by_cases hc : c = ','
    · rw [pieces, if_pos hc, cut, if_pos hc]
    · rw [pieces, if_neg hc, cut, if_neg hc, ih]
      cases cut ',' rest with
      | none => rfl
      | some pair => grind

end Sigar.Ptql
