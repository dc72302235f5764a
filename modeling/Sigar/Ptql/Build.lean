/-
  How a query is built from its text.

  Source: the lookup tables, the `ptql_branch_init_*` functions, `ptql_branch_add` and
  `sigar_ptql_query_create` of `sigar_ptql.c`, for a POSIX system with 64-bit `long`
  (`SIGAR_64BIT`) and without PCRE.

  A branch has two unions.  `data` belongs to the lookup's method; `value` is what the field is
  compared with.  A value remembers the member it was written through, and reading it through
  ANOTHER member gives the bits that are there: a string is its address, which `Libc.heap`
  provides, and the unset union is zero.
-/
import Sigar.Ptql.Operators
import Mathlib.Data.List.Sort

namespace Sigar.Ptql

open CString

/-! ## The lookup tables -/

/-- The functions `sigar_proc_*_get` that fill a structure. -/
inductive Getter where
  | procTime | procCpu | procDiskIo | procCredName | procMem | procExe | procCred | procState
  | procFd
  deriving DecidableEq

/-- `lookup->get`: a getter, or a matcher that looks at the branch itself. -/
inductive Method where
  | struct (getter : Getter)
  | args | modules | env
  | pid  -- `ptql_pid_match`
  deriving DecidableEq

/-- `lookup->init`. -/
inductive InitFn where
  | args | any | port | pid | service
  deriving DecidableEq

/-- `ptql_lookup_t`. -/
structure PtqlLookup where
  name : Option CStr
  get : Method
  offset : Nat
  dataSize : Nat
  type : PtqlValueType
  init : Option InitFn
  deriving DecidableEq

/-- `PTQL_LOOKUP_ENTRY`, with the offset and the size that the structure has on x86-64. -/
def entry (name : String) (getter : Getter) (offset dataSize : Nat) (type : PtqlValueType) :
    PtqlLookup :=
  ⟨some name.toList, .struct getter, offset, dataSize, type, none⟩

/-- The one member of a class whose attribute is up to its `init`. -/
def anyEntry (get : Method) (init : InitFn) : PtqlLookup := ⟨none, get, 0, 0, .any, some init⟩

def ptqlTime : List PtqlLookup :=
  [entry "StartTime" .procTime 0 32 .ui64, entry "User" .procTime 8 32 .ui64,
   entry "Sys" .procTime 16 32 .ui64, entry "Total" .procTime 24 32 .ui64]

def ptqlCpu : List PtqlLookup :=
  [entry "StartTime" .procCpu 0 48 .ui64, entry "User" .procCpu 8 48 .ui64,
   entry "Sys" .procCpu 16 48 .ui64, entry "Total" .procCpu 24 48 .ui64,
   entry "Percent" .procCpu 40 48 .dbl]

def ptqlDiskIo : List PtqlLookup :=
  [entry "BytesRead" .procDiskIo 0 24 .ui64, entry "BytesWritten" .procDiskIo 8 24 .ui64,
   entry "BytesTotal" .procDiskIo 16 24 .ui64]

def ptqlCredName : List PtqlLookup :=
  [entry "User" .procCredName 0 1024 .str, entry "Group" .procCredName 512 1024 .str]

def ptqlMem : List PtqlLookup :=
  [entry "Size" .procMem 0 48 .ui64, entry "Resident" .procMem 8 48 .ui64,
   entry "Share" .procMem 16 48 .ui64, entry "MinorFaults" .procMem 24 48 .ui64,
   entry "MajorFaults" .procMem 32 48 .ui64, entry "PageFaults" .procMem 40 48 .ui64]

def ptqlExe : List PtqlLookup :=
  [entry "Name" .procExe 0 12304 .str, entry "Cwd" .procExe 4097 12304 .str]

def ptqlCred : List PtqlLookup :=
  [entry "Uid" .procCred 0 16 .ui32, entry "Gid" .procCred 4 16 .ui32,
   entry "Euid" .procCred 8 16 .ui32, entry "Egid" .procCred 12 16 .ui32]

/-- The offset of `ppid` in `sigar_proc_state_t`. -/
def ppidOffset : Nat := 132

def ptqlState : List PtqlLookup :=
  [entry "State" .procState 128 168 .chr, entry "Name" .procState 0 168 .str,
   entry "Ppid" .procState ppidOffset 168 .ui32, entry "Tty" .procState 136 168 .ui32,
   entry "Nice" .procState 144 168 .ui32, entry "Priority" .procState 140 168 .ui32,
   entry "Threads" .procState 152 168 .ui64, entry "Processor" .procState 148 168 .ui32]

def ptqlFd : List PtqlLookup := [entry "Total" .procFd 0 8 .ui64]

/-- `ptql_map`. -/
def ptqlMap : List (CStr × List PtqlLookup) :=
  [("Time".toList, ptqlTime), ("Cpu".toList, ptqlCpu), ("CredName".toList, ptqlCredName),
   ("Mem".toList, ptqlMem), ("Exe".toList, ptqlExe), ("Cred".toList, ptqlCred),
   ("State".toList, ptqlState), ("Fd".toList, ptqlFd),
   ("Args".toList, [anyEntry .args .args]), ("Modules".toList, [anyEntry .modules .args]),
   ("Env".toList, [anyEntry .env .any]), ("Port".toList, [anyEntry .pid .port]),
   ("Pid".toList, [anyEntry .pid .pid]), ("Service".toList, [anyEntry .pid .service]),
   ("Disk_IO".toList, ptqlDiskIo)]

/-- The search of `ptql_branch_add` for the lookup of a class and an attribute. -/
def findLookup (parsed : PtqlParseBranch) : Except CStr PtqlLookup :=
  match ptqlMap.find? fun e => e.1 = parsed.name with
  | none => ptqlError ("Unsupported method: ".toList ++ parsed.name)
  | some (_, members) =>
    -- the members end at the first one without a name
    match (members.takeWhile fun l => l.name.isSome).find? fun l => l.name = some parsed.attr with
    | some lookup => .ok lookup
    | none =>
      match members with
      | lookup :: _ =>
        if lookup.type = .any then .ok lookup
        else ptqlError ("Unsupported ".toList ++ parsed.name ++ " attribute: ".toList ++ parsed.attr)
      | [] => ptqlError ("Unsupported ".toList ++ parsed.name ++ " attribute: ".toList ++ parsed.attr)

/-! ## Branches -/

/-- `branch->flags` (`PTQL_PID_*`). -/
inductive PidFlag where
  | pid | file | sudoFile | tcpPort | udpPort
  | serviceName | serviceDisplay | servicePath | serviceExe | servicePid
  deriving DecidableEq

/-- A structure that a getter filled, as typed reads at an offset. -/
structure Block where
  ui64 : Nat → UInt64
  ui32 : Nat → UInt32
  dbl : Nat → Float
  chr : Nat → Char
  str : Nat → CStr

/-- `branch->data`. -/
inductive BranchData where
  | null
  | pid (pid : SigarPid)
  | ui32 (n : UInt32)
  | str (s : CStr)
  | struct (block : Block)

/-- A member of `any_value_t`. -/
inductive Member where
  | ui64 | ui32 | dbl | chr | str
  deriving DecidableEq

/-- A string on the heap: where it is, and what it is. -/
structure HeapStr where
  address : UInt64
  text : CStr

/-- `branch->value`, by the member that was written last. -/
inductive AnyValue where
  | unset
  | ui64 (n : UInt64)
  | ui32 (n : UInt32)
  | dbl (x : Float)
  | chr (c : Char)
  | str (p : Option HeapStr)

def AnyValue.written : AnyValue → Option Member
  | .unset => none
  | .ui64 _ => some .ui64
  | .ui32 _ => some .ui32
  | .dbl _ => some .dbl
  | .chr _ => some .chr
  | .str _ => some .str

/-- The eight bytes of the union, little-endian over zeros. -/
def AnyValue.bits : AnyValue → UInt64
  | .unset => 0
  | .ui64 n => n
  | .ui32 n => n.toUInt64
  | .dbl x => x.toBits
  | .chr c => UInt64.ofNat (c.toNat % 256)
  | .str none => 0
  | .str (some s) => s.address

/-- What a `char *` read from the union points to. -/
inductive StrPtr where
  | null
  | text (s : CStr)
  | wild

/-- `value.str`: bits that were not written as a pointer point nowhere. -/
def AnyValue.asStr : AnyValue → StrPtr
  | .str none => .null
  | .str (some s) => .text s.text
  | v => if v.bits = 0 then .null else .wild

/-- `value.chr[0]`. -/
def AnyValue.asChr : AnyValue → Char
  | .chr c => c
  | v => Char.ofNat (v.bits.toNat % 256)

/-- `value.dbl`. -/
def AnyValue.asDbl : AnyValue → Float
  | .dbl x => x
  | v => Float.ofBits v.bits

/-- `branch->match`: an entry of a number table, or of the string table. -/
inductive PtqlMatch where
  | cmp (op : CmpOp)
  | str (op : PtqlOpName)
  deriving DecidableEq

/-- `ptql_branch_t`. -/
structure PtqlBranch where
  lookup : PtqlLookup
  opName : PtqlOpName
  opFlags : OpFlags
  flags : PidFlag := .pid
  data : BranchData := .null
  dataSize : Nat := 0
  matchFn : PtqlMatch
  value : AnyValue := .unset

/-- `ptql_branch_compare(b1, b2) <= 0`. -/
def ptqlBranchLe (b1 b2 : PtqlBranch) : Prop := b1.lookup.type.index ≤ b2.lookup.type.index

/-- The C library around the query code: its environment, its heap, its `strtod` and a `qsort`
    that sorts. -/
structure Libc where
  getenv : CStr → Option CStr
  getpid : SigarPid
  /-- The number, what is left of the text, and whether it was out of range. -/
  strtod : CStr → Float × CStr × Bool
  /-- Where the string that branch `n` copies is put. -/
  heap : Nat → UInt64
  qsort : List PtqlBranch → List PtqlBranch
  qsort_perm : ∀ branches, (qsort branches).Perm branches
  qsort_sorted : ∀ branches, (qsort branches).Pairwise ptqlBranchLe

instance : DecidableRel ptqlBranchLe := fun _ _ => inferInstanceAs (Decidable (_ ≤ _))
instance : Std.Total ptqlBranchLe := ⟨fun _ _ => Nat.le_total _ _⟩
instance : IsTrans PtqlBranch ptqlBranchLe := ⟨fun _ _ _ => Nat.le_trans⟩

/-- A library without variables, whose numbers are whole and whose sort is stable. -/
def Libc.plain : Libc where
  getenv _ := none
  getpid := 1
  strtod text := ((strtoull text).value.toFloat, (strtoull text).rest, (strtoull text).erange)
  heap number := UInt64.ofNat (4096 * (number + 1))
  qsort branches := branches.insertionSort ptqlBranchLe
  qsort_perm branches := List.perm_insertionSort ptqlBranchLe branches
  qsort_sorted branches := List.pairwise_insertionSort ptqlBranchLe branches

/-- `strtonum_failed`. -/
def strtonumFailed (src rest : CStr) (erange : Bool) : Bool :=
  rest.length == src.length || erange || rest != []

/-- `PTQL_ERRNAN`. -/
def ptqlErrnan {α : Type} (value : CStr) : Except CStr α :=
  ptqlError ("Query value '".toList ++ value ++ "' is not a number".toList)

/-! ## The `init` functions -/

def ptqlBranchInitAny (parsed : PtqlParseBranch) (branch : PtqlBranch) : Except CStr PtqlBranch :=
  .ok { branch with data := .str parsed.attr, dataSize := parsed.attr.length }

def ptqlBranchInitService (parsed : PtqlParseBranch) (branch : PtqlBranch) :
    Except CStr PtqlBranch :=
  let branch := { branch with opFlags := { branch.opFlags with pid := true } }
  if parsed.attr = "Name".toList then .ok { branch with flags := .serviceName }
  else if parsed.attr = "DisplayName".toList then .ok { branch with flags := .serviceDisplay }
  else if parsed.attr = "Path".toList then .ok { branch with flags := .servicePath }
  else if parsed.attr = "Exe".toList then .ok { branch with flags := .serviceExe }
  else if parsed.attr = "Pid".toList then .ok { branch with flags := .servicePid }
  else ptqlError ("Unsupported ".toList ++ parsed.name ++ " attribute: ".toList ++ parsed.attr)

/-- A 64-bit number stored in a `sigar_pid_t`. -/
def toPid (n : UInt64) : SigarPid := n.toUInt32.toInt32

def ptqlBranchInitPid (libc : Libc) (parsed : PtqlParseBranch) (branch : PtqlBranch) :
    Except CStr PtqlBranch :=
  let branch := { branch with opFlags := { branch.opFlags with pid := true } }
  if parsed.attr = "Pid".toList then
    if parsed.value = "$$".toList then .ok { branch with flags := .pid, data := .pid libc.getpid }
    else
      let number := strtoull parsed.value
      if strtonumFailed parsed.value number.rest number.erange then ptqlErrnan parsed.value
      else .ok { branch with flags := .pid, data := .pid (toPid number.value) }
  else if parsed.attr = "PidFile".toList then
    .ok { branch with
      flags := .file, data := .str parsed.value, dataSize := parsed.value.length }
  else if parsed.attr = "SudoPidFile".toList then
    .ok { branch with
      flags := .sudoFile, data := .str parsed.value, dataSize := parsed.value.length }
  else ptqlError ("Unsupported ".toList ++ parsed.name ++ " attribute: ".toList ++ parsed.attr)

def ptqlArgsBranchInit (parsed : PtqlParseBranch) (branch : PtqlBranch) :
    Except CStr PtqlBranch :=
  if parsed.attr = "*".toList then
    .ok { branch with opFlags := { branch.opFlags with glob := true } }
  else
    let number := strtol parsed.attr
    if strtonumFailed parsed.attr number.rest number.erange then
      ptqlError (parsed.attr ++ " is not a number".toList)
    else .ok { branch with data := .ui32 (Int32.ofInt number.value).toUInt32 }

/-- `udp` sets the flag of `tcp`, as in the source. -/
def ptqlBranchInitPort (parsed : PtqlParseBranch) (branch : PtqlBranch) :
    Except CStr PtqlBranch :=
  if branch.opName ≠ .eq then ptqlError (parsed.name ++ " requires 'eq' operator".toList)
  else if parsed.attr = "tcp".toList ∨ parsed.attr = "udp".toList then
    let number := strtoull parsed.value
    if strtonumFailed parsed.value number.rest number.erange then ptqlErrnan parsed.value
    else .ok { branch with
      flags := .tcpPort
      opFlags := { branch.opFlags with pid := true }
      data := .ui32 number.value.toUInt32 }
  else ptqlError ("Unsupported ".toList ++ parsed.name ++ " protocol: ".toList ++ parsed.attr)

/-- `lookup->init`, for the lookups that have one. -/
def runInit (libc : Libc) (parsed : PtqlParseBranch) (branch : PtqlBranch) :
    Option InitFn → Except CStr PtqlBranch
  | none => .ok branch
  | some .args => ptqlArgsBranchInit parsed branch
  | some .any => ptqlBranchInitAny parsed branch
  | some .port => ptqlBranchInitPort parsed branch
  | some .pid => ptqlBranchInitPid libc parsed branch
  | some .service => ptqlBranchInitService parsed branch

/-! ## `ptql_branch_add` -/

/-- The operator that is installed for a type, `none` where the source refuses it
    (`op_name > PTQL_OP_MAX_NSTR` for a type before `STR`). -/
def installOp (type : PtqlValueType) (op : PtqlOpName) : Option PtqlMatch :=
  match type with
  | .ui64 | .ui32 | .dbl | .chr => op.cmp?.map .cmp
  | .str | .any => some (.str op)

/-- The value of a text that does not start with `$`. -/
def literalValue (libc : Libc) (type : PtqlValueType) (number : Nat) (value : CStr) :
    Except CStr AnyValue :=
  match type with
  | .ui64 =>
    let n := strtoull value
    if strtonumFailed value n.rest n.erange then ptqlErrnan value else .ok (.ui64 n.value)
  | .ui32 =>
    let n := strtoull value
    if strtonumFailed value n.rest n.erange then ptqlErrnan value
    else .ok (.ui32 n.value.toUInt32)
  | .dbl =>
    let n := libc.strtod value
    if strtonumFailed value n.2.1 n.2.2 then ptqlErrnan value else .ok (.dbl n.1)
  | .chr =>
    match value with
    | [c] => .ok (.chr c)
    | _ => ptqlError (value ++ " is not a char".toList)
  | .str | .any => .ok (.str (some ⟨libc.heap number, value⟩))

/-- `value.ui32 = atoi(value + 1) - 1`. -/
def refIndex (value : CStr) : UInt32 := (atoi value.tail - 1).toUInt32

/-- The number in a message. -/
def decimal (n : Nat) : CStr := Nat.toDigits 10 n

/-- The value of a text that starts with `$`: a reference to an earlier branch, or an environment
    variable.  `number` is the number of branches before this one. -/
def variableValue (libc : Libc) (number : Nat) (branch : PtqlBranch) (value : CStr) :
    Except CStr PtqlBranch :=
  if (deref value.tail).isDigit then
    let index := refIndex value
    if number + 1 ≤ index.toNat then
      ptqlError ("Variable ".toList ++ value ++ " out of range (".toList ++ decimal (number + 1) ++
        ")".toList)
    else if index.toNat = number then
      ptqlError ("Variable ".toList ++ value ++ " self reference".toList)
    else .ok { branch with
      opFlags := { branch.opFlags with ref := true }
      value := .ui32 index }
  else .ok { branch with
    value := .str ((libc.getenv value.tail).map fun s => ⟨libc.heap number, s⟩) }

/-- The branch before its `init` and its value.  `match` is set further down; until then nothing
    reads it. -/
def blankBranch (lookup : PtqlLookup) (opName : PtqlOpName) (parsed : PtqlParseBranch) :
    PtqlBranch :=
  { lookup := lookup, opName := opName, opFlags := parsed.opFlags, matchFn := .str opName }

/-- `ptql_branch_add`, for the branch after `number` others. -/
def ptqlBranchAdd (libc : Libc) (parsed : PtqlParseBranch) (number : Nat) :
    Except CStr PtqlBranch :=
  match ptqlOpCodeGet parsed.op with
  | none => ptqlError ("Unsupported operator: ".toList ++ parsed.op)
  | some opName =>
    match findLookup parsed with
    | .error message => .error message
    | .ok lookup =>
      match runInit libc parsed (blankBranch lookup opName parsed) lookup.init with
      | .error message => .error message
      | .ok branch =>
        match installOp lookup.type opName with
        | none => ptqlError ("Unsupported operator '".toList ++ parsed.op ++ "' for ".toList ++
            parsed.name ++ ".".toList ++ parsed.attr)
        | some matchFn =>
          let branch := { branch with matchFn := matchFn }
          if deref parsed.value = '$' then
            if opName = .re then
              ptqlError ("Unsupported operator '".toList ++ parsed.op ++ "' with variable ".toList ++
                parsed.value)
            else variableValue libc number branch parsed.value
          else
            match literalValue libc lookup.type number parsed.value with
            | .error message => .error message
            | .ok value => .ok { branch with value := value }

/-! ## `sigar_ptql_query_create` -/

/-- `sigar_ptql_query_t`. -/
structure PtqlQuery where
  branches : List PtqlBranch

/-- The loop of `sigar_ptql_query_create`: one branch after the other, behind those in `done`. -/
def addPieces (libc : Libc) : List PtqlBranch → List CStr → Except CStr (List PtqlBranch)
  | done, [] => .ok done
  | done, piece :: rest =>
    match ptqlBranchParse piece with
    | .error message => .error message
    | .ok parsed =>
      match ptqlBranchAdd libc parsed done.length with
      | .error message => .error message
      | .ok branch => addPieces libc (done ++ [branch]) rest

/-- `sigar_ptql_query_create`.  With a reference in it the query keeps its order. -/
def sigarPtqlQueryCreate (libc : Libc) (ptql : CStr) : Except CStr PtqlQuery :=
  match addPieces libc [] (pieces ptql) with
  | .error message => .error message
  | .ok branches =>
    if branches.any (·.opFlags.ref) then .ok ⟨branches⟩
    else .ok ⟨libc.qsort branches⟩

end Sigar.Ptql
