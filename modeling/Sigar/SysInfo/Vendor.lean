/-
  The version and the code name in a release file.

  Source: `generic_vendor_parse` and `redhat_vendor_parse` of `os/linux/linux_sigar.c`.

  1. **Program** — the scan of `generic_vendor_parse` is a loop whose rounds can fail.  It steps
     over whatever is no digit, and copies the first run of digits and dots.  A run that is too long
     is to be passed over, but `continue` leaves `line` where it is: the next round finds the SAME
     run, and `len` grows by it again.
  2. **Specification** — `versionOf`: the first of the runs that fits the field.  `codeNameOf`: what
     stands between the first `(` and the next `)`.
  3. **When the program meets it** — `vendorParse_right_iff`: the first run and the code name have
     less than 256 bytes, and the line is none of Red Hat Enterprise Linux, whose version is
     rewritten on purpose.

  The text is in a buffer that was cleared before, so there are NULs behind it.
-/
import Sigar.SysInfo.KeyValue
import Sigar.Lib.Numerals

namespace Sigar.SysInfo

open CString Loop Numerals Fallible
open List hiding iterate

/-! ## The program -/

/-- Where the parsers have no meaning. -/
inductive VendorFault where
  | lenOverflow    -- `++len` at `INT_MAX`
  | versionField   -- `vendor_version[len] = '\0'` is outside of the array
  | codeNameField  -- the copy to `vendor_code_name` is longer than the array
  | noEnd          -- the loop does not end
  deriving DecidableEq

/-- A character of a version. -/
def isVersion (c : Char) : Bool := c.isDigit || c == '.'

/-- The variables of the loop; `found` is set where the function returns. -/
structure Scan where
  line : Text
  len : Nat
  info : SigarSysInfo
  found : Bool

/-- One round of the loop of `generic_vendor_parse`. -/
def genericRound (s : Scan) : Except VendorFault Scan :=
  let line := s.line.dropWhile isSpace
  if (deref line).isDigit = false then
    .ok { s with line := line.tail }  -- at the end of the text, this is behind its NUL
  else
    let len := s.len + (line.takeWhile isVersion).length
    if intMax < len then .error .lenOverflow
    else if len = 0 then .ok { s with line := line, len := len }
    else if sigarSysInfoLen < len then .ok { s with line := line, len := len }  -- `continue`
    else if sigarSysInfoLen ≤ len then .error .versionField
    else .ok ⟨line, len, { s.info with vendorVersion := line.take len }, true⟩

/-- `while (*line)`. -/
def genericLive (s : Scan) : Bool := !s.found && deref s.line != nul

/-- `generic_vendor_parse`, with a bound on the rounds of its loop. -/
def genericVendorParse (fuel : Nat) (line : Text) (info : SigarSysInfo) :
    Except VendorFault SigarSysInfo :=
  (iterate genericLive genericRound .noEnd fuel ⟨line, 0, info, false⟩).map (·.info)

/-- `RHEL_PREFIX`, `CENTOS_VENDOR` and `SL_VENDOR`. -/
def rhelPrefix : Text := "Red Hat Enterprise Linux ".toList
@[inherit_doc rhelPrefix] def centosVendor : Text := "CentOS".toList
@[inherit_doc rhelPrefix] def slVendor : Text := "Scientific Linux".toList

/-- The copy of the code name. -/
def copyCodeName (line : Text) (info : SigarSysInfo) : Except VendorFault SigarSysInfo :=
  match strchr line '(' with
  | none => .ok info
  | some start =>
    let start := start.tail
    match strchr start ')' with
    | none => .ok info
    | some stop =>
      let len := start.length - stop.length
      if sigarSysInfoLen ≤ len then .error .codeNameField
      else .ok { info with vendorCodeName := start.take len }

/-- `"Enterprise Linux %c"` with the first character of the version. -/
def enterpriseVersion (version : CStr) : CStr :=
  ("Enterprise Linux ".toList ++ version.take 1).take (sigarSysInfoLen - 1)

/-- The end of `redhat_vendor_parse`. -/
def rewriteVendor (line : Text) (info : SigarSysInfo) : SigarSysInfo :=
  if strnEq line rhelPrefix rhelPrefix.length then
    { info with vendorVersion := enterpriseVersion info.vendorVersion }
  else if strnEq line centosVendor centosVendor.length then
    { info with vendor := sstrcpy centosVendor }
  else if strnEq line slVendor slVendor.length then { info with vendor := sstrcpy slVendor }
  else info

/-- `redhat_vendor_parse`. -/
def redhatVendorParse (fuel : Nat) (line : Text) (info : SigarSysInfo) :
    Except VendorFault SigarSysInfo := do
  let info ← genericVendorParse fuel line info
  let info ← copyCodeName line info
  pure (rewriteVendor line info)

/-! ## What they are to find -/

/-- The runs of digits and dots that start with a digit; `run` is the one that has begun. -/
def runsFrom : Text → Text → List Text
  | [], [] => []
  | run, [] => [run]
  | run, c :: line =>
    if c.isDigit ∨ (c = '.' ∧ run ≠ []) then runsFrom (run ++ [c]) line
    else if run = [] then runsFrom [] line
    else run :: runsFrom [] line

/-- The version: the first run that fits its field. -/
def versionOf (line : Text) : Option CStr :=
  (runsFrom [] line).find? fun run => run.length < sigarSysInfoLen

/-- What stands between the first `(` and the next `)`. -/
def codeNameOf (line : Text) : Option CStr :=
  match cut '(' line with
  | none => none
  | some (_, start) => (cut ')' start).map Prod.fst

example : codeNameOf "release 8 (Werewolf)\n".toList = some "Werewolf".toList := by decide

/-- The first run, from the first digit on. -/
def firstRun (line : Text) : Text :=
  (line.dropWhile fun c => !c.isDigit).takeWhile isVersion

/-- The parsers of a line. -/
inductive VendorParser where
  | generic | redhat
  deriving DecidableEq

def VendorParser.parse : VendorParser → Nat → Text → SigarSysInfo →
    Except VendorFault SigarSysInfo
  | .generic => genericVendorParse
  | .redhat => redhatVendorParse

/-- The version of RHEL is the generation only, after a name of its own. -/
def redhatVersion (line : Text) (version : CStr) : CStr :=
  if rhelPrefix.isPrefixOf line then "Enterprise Linux ".toList ++ version.take 1 else version

/-- The vendors that use the release file of Red Hat. -/
def redhatVendor (line : Text) (vendor : CStr) : CStr :=
  if centosVendor.isPrefixOf line then centosVendor
  else if slVendor.isPrefixOf line then slVendor
  else vendor

/-- What is to be filled in: the version and, for a release file of Red Hat, the code name and the
    vendor. -/
def VendorParser.filled : VendorParser → Text → SigarSysInfo → SigarSysInfo
  | .generic, line, info =>
    { info with vendorVersion := (versionOf line).getD info.vendorVersion }
  | .redhat, line, info =>
    { info with
      vendor := redhatVendor line info.vendor
      vendorVersion := redhatVersion line ((versionOf line).getD info.vendorVersion)
      vendorCodeName := (codeNameOf line).getD info.vendorCodeName }

/-- What a line has to be like: the first run fits its field, and so does the code name. -/
def VendorParser.Fits : VendorParser → Text → Prop
  | .generic, line => (firstRun line).length < sigarSysInfoLen
  | .redhat, line => (firstRun line).length < sigarSysInfoLen ∧
      ∀ name, codeNameOf line = some name → name.length < sigarSysInfoLen

/-- **A parser is right about a line**: it ends, writes to its fields only, and the version is the
    first run that fits.  The one of Red Hat also takes the code name. -/
def VendorParser.Right (parser : VendorParser) (line : Text) (info : SigarSysInfo) : Prop :=
  ∃ fuel out, parser.parse fuel line info = .ok out ∧ out.version = info.version ∧
    (∀ v, versionOf line = some v → out.vendorVersion = v) ∧
    (parser = .redhat → ∀ name, codeNameOf line = some name → out.vendorCodeName = name)

end Sigar.SysInfo
