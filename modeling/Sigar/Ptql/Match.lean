/-
  How a query is evaluated.

  Source: `ptql_str_match`, `ptql_branch_match`, `ptql_branch_match_ref`, the matchers,
  `ptql_pid_list_get`, `sigar_ptql_query_match`, `ptql_proc_list_get`, `sigar_ptql_query_find`,
  `sigar_ptql_query_find_process` and `ptql_branch_list_destroy` of `sigar_ptql.c`.

  The processes are a `World`: what each getter returns for each pid.  An evaluation LOGS what the
  safety of the code hangs on (an index into a number table, a read of a `value`, a structure that
  is loaded, a reference that is compared) and stops with a FAULT where C leaves it without a
  meaning: an index past the end of a table, a string pointer that is no pointer (used, or freed),
  and a reference to something that is no field of the type being compared.
-/
import Sigar.Ptql.Build
import Sigar.Lib.Logged

namespace Sigar.Ptql

open CString

/-- `SIGAR_NETCONN_TCP` and `SIGAR_NETCONN_UDP`. -/
inductive Proto where
  | tcp | udp
  deriving DecidableEq

structure World where
  get : Getter → SigarPid → Status × Block
  /-- `sigar_proc_args_get`. -/
  args : SigarPid → Status × List CStr
  /-- The names that `sigar_proc_modules_get` walks over. -/
  modules : SigarPid → Status × List CStr
  /-- The variables that `sigar_proc_env_get` walks over. -/
  env : SigarPid → Status × List (CStr × CStr)
  /-- `sigar_proc_port_get`. -/
  port : Proto → UInt64 → Status × SigarPid
  file2str : CStr → Status × CStr
  sudoFile2str : CStr → Status × CStr
  /-- `sigar_proc_list_get`. -/
  procList : Status × List SigarPid
  /-- `ptql_re_impl`, if one was set. -/
  reImpl : Option (CStr → CStr → Bool)

/-- A structure of zeros. -/
def Block.zero : Block where
  ui64 _ := 0
  ui32 _ := 0
  dbl _ := 0
  chr _ := nul
  str _ := []

/-- Processes about which every getter has something to say, and all of it is zero or empty. -/
def World.plain (pids : List SigarPid) : World where
  get _ _ := (sigarOk, Block.zero)
  args _ := (sigarOk, [])
  modules _ := (sigarOk, [])
  env _ := (sigarOk, [])
  port _ _ := (sigarEnotimpl, 0)
  file2str _ := (sigarEnotimpl, [])
  sudoFile2str _ := (sigarEnotimpl, [])
  procList := (sigarOk, pids)
  reImpl := none

inductive Event where
  | index (op : PtqlOpName)  -- into `ptql_op_ui64`, for a pid
  | readValue (member : Member) (written : Option Member)
  | load (branch : Nat)
  | matchRef (branch ref : Nat)
  deriving DecidableEq

inductive Fault where
  | opTable | wildString | badRef | wildFree
  deriving DecidableEq

abbrev Eval := Logged Event Fault

/-! ## Comparing one field -/

/-- A field, or what it is compared with. -/
inductive FieldVal where
  | ui64 (n : UInt64)
  | ui32 (n : UInt32)
  | dbl (x : Float)
  | chr (c : Char)
  | str (s : CStr)

/-- `*(T *)DATA_PTR(branch)` of a structure, for the type `T` of a lookup. -/
def Block.read (block : Block) (type : PtqlValueType) (offset : Nat) : FieldVal :=
  match type with
  | .ui64 => .ui64 (block.ui64 offset)
  | .ui32 => .ui32 (block.ui32 offset)
  | .dbl => .dbl (block.dbl offset)
  | .chr => .chr (block.chr offset)
  | .str | .any => .str (block.str offset)

/-- `branch->match`, called for two values. -/
def callMatch (branch : PtqlBranch) (haystack needle : FieldVal) : Eval Bool :=
  match branch.matchFn, haystack, needle with
  | .cmp op, .ui64 a, .ui64 b => pure (ptqlOpUi64 op a b)
  | .cmp op, .ui32 a, .ui32 b => pure (ptqlOpUi32 op a b)
  | .cmp op, .dbl a, .dbl b => pure (ptqlOpDbl op a b)
  | .cmp op, .chr a, .chr b => pure (ptqlOpChr op a b)
  | .str op, .str a, .str b => pure (strVerdict branch.opFlags.icase op a b)
  | _, _, _ => .fault .badRef

/-- Read `branch->value` through a member. -/
def readValue (branch : PtqlBranch) (member : Member) : Eval AnyValue := do
  Logged.emit (.readValue member branch.value.written)
  pure branch.value

/-- `ptql_str_match`. -/
def ptqlStrMatch (world : World) (branch : PtqlBranch) (value : CStr) : Eval Bool := do
  let needle ← readValue branch .str
  match needle.asStr with
  | .null => pure false
  | .wild =>
    if branch.opName = .re ∧ world.reImpl.isNone then pure false else .fault .wildString
  | .text s =>
    if branch.opName = .re then
      match world.reImpl with
      | some impl => pure (impl value s)
      | none => pure false
    else callMatch branch (.str value) (.str s)

/-- `ptql_branch_match`. -/
def ptqlBranchMatch (branch : PtqlBranch) (block : Block) : Eval Bool := do
  let haystack := block.read branch.lookup.type branch.lookup.offset
  match branch.lookup.type with
  | .ui64 =>
    let v ← readValue branch .ui64
    callMatch branch haystack (.ui64 v.bits)
  | .ui32 =>
    let v ← readValue branch .ui32
    callMatch branch haystack (.ui32 v.bits.toUInt32)
  | .dbl =>
    let v ← readValue branch .dbl
    callMatch branch haystack (.dbl v.asDbl)
  | .chr =>
    let v ← readValue branch .chr
    callMatch branch haystack (.chr v.asChr)
  | .str | .any =>
    let v ← readValue branch .str
    match v.asStr with
    | .null => pure false
    | .wild => .fault .wildString
    | .text s => callMatch branch haystack (.str s)

/-- `ptql_branch_match_ref`: the field of the referenced branch must be of the type that is
    read. -/
def ptqlBranchMatchRef (branch ref : PtqlBranch) (block : Block) : Eval Bool :=
  match ref.data with
  | .struct refBlock =>
    if ref.lookup.type = branch.lookup.type then
      callMatch branch (block.read branch.lookup.type branch.lookup.offset)
        (refBlock.read branch.lookup.type ref.lookup.offset)
    else .fault .badRef
  | _ => .fault .badRef

/-! ## The matchers of the classes without a structure -/

/-- `!SIGAR_OK`, and what `sigar_ptql_query_match` returns for a process that does not match. -/
def notMatched : Status := 1

def matchedStatus (matched : Bool) : Status := if matched then sigarOk else notMatched

/-- The loop of the matchers over texts, up to the first match. -/
def anyMatches (world : World) (branch : PtqlBranch) : List CStr → Eval Bool
  | [] => pure false
  | text :: rest => do
    let matched ← ptqlStrMatch world branch text
    if matched then pure true else anyMatches world branch rest

/-- The match of one text, if it is there. -/
def matchOne (world : World) (branch : PtqlBranch) : Option CStr → Eval Bool
  | none => pure false
  | some text => ptqlStrMatch world branch text

/-- All the texts with `*`, and one of them otherwise. -/
def matchTexts (world : World) (branch : PtqlBranch) (texts : List CStr) (one : Option CStr) :
    Eval Bool :=
  if branch.opFlags.glob then anyMatches world branch texts else matchOne world branch one

/-- `branch->data.ui32`. -/
def dataUi32 (branch : PtqlBranch) : UInt32 :=
  match branch.data with
  | .ui32 n => n
  | _ => 0

/-- The index that is read, if any, in a list of `number` arguments: a negative one counts from the
    end.  The sum is stored in an `int`. -/
def argRead (branch : PtqlBranch) (number : Nat) : Option Nat :=
  let num := (dataUi32 branch).toInt32
  let num := if num < 0 then Int32.ofInt (num.toInt + number) else num
  if 0 ≤ num ∧ num.toInt < number then some num.toInt.toNat else none

/-- The argument with the number of the branch. -/
def pickArg (branch : PtqlBranch) (args : List CStr) : Option CStr :=
  match argRead branch args.length with
  | none => none
  | some num => args[num]?

/-- `ptql_args_match`.  The counter of the loop is an `int`, so it passes over no more than `2^31`
    arguments. -/
def ptqlArgsMatch (world : World) (branch : PtqlBranch) (pid : SigarPid) : Eval Status :=
  let (status, args) := world.args pid
  if status ≠ sigarOk then pure status
  else do
    let matched ← matchTexts world branch (args.take (intMax + 1)) (pickArg branch args)
    pure (matchedStatus matched)

/-- `ptql_modules_match` with the walk of `proc_modules_match`. -/
def ptqlModulesMatch (world : World) (branch : PtqlBranch) (pid : SigarPid) : Eval Status := do
  let (status, names) := world.modules pid
  let matched ← matchTexts world branch names names[(dataUi32 branch).toNat]?
  pure (if status ≠ sigarOk then status else matchedStatus matched)

/-- `branch->data.str`. -/
def dataStr (branch : PtqlBranch) : CStr :=
  match branch.data with
  | .str s => s
  | _ => []

/-- The variable with the name of the branch (`sigar_proc_env_get_key`). -/
def pickVar (branch : PtqlBranch) (vars : List (CStr × CStr)) : Option CStr :=
  (vars.find? fun v => v.1 = dataStr branch).map (·.2)

/-- `ptql_env_match`. -/
def ptqlEnvMatch (world : World) (branch : PtqlBranch) (pid : SigarPid) : Eval Status :=
  let (status, vars) := world.env pid
  if status ≠ sigarOk then pure status
  else do
    let matched ← matchOne world branch (pickVar branch vars)
    pure (matchedStatus matched)

/-- `lookup->get` of a class without a structure. -/
def runMatcher (world : World) (branch : PtqlBranch) (pid : SigarPid) : Eval Status :=
  match branch.lookup.get with
  | .args => ptqlArgsMatch world branch pid
  | .modules => ptqlModulesMatch world branch pid
  | .env => ptqlEnvMatch world branch pid
  | .pid => pure sigarOk       -- `ptql_pid_match`
  | .struct _ => pure sigarOk  -- no such lookup has the type `ANY`

/-! ## `sigar_ptql_query_match` -/

/-- What one round of the loop comes to: the status to return, or whether the branch matched. -/
inductive Verdict where
  | stop (status : Status)
  | matched (matched : Bool)
  deriving DecidableEq

/-- The process that a branch is about: the parent, with the `P` modifier. -/
def subject (world : World) (branch : PtqlBranch) (pid : SigarPid) : Except Status SigarPid :=
  if branch.opFlags.parent then
    let (status, state) := world.get .procState pid
    if status ≠ sigarOk then .error status else .ok (state.ui32 ppidOffset).toInt32
  else .ok pid

/-- The branch with a structure in its buffer, which the first call allocates. -/
def PtqlBranch.load (branch : PtqlBranch) (block : Block) : PtqlBranch :=
  { branch with
    data := .struct block
    dataSize := match branch.data with
      | .null => branch.lookup.dataSize
      | _ => branch.dataSize }

/-- The comparison of a branch whose structure is loaded; `branches` is the array it is in. -/
def compareLoaded (world : World) (branches : List PtqlBranch) (i : Nat) (branch : PtqlBranch)
    (block : Block) : Eval Bool :=
  if branch.opFlags.ref then do
    let index ← readValue branch .ui32
    let ref := index.bits.toUInt32.toNat
    Logged.emit (.matchRef i ref)
    match branches[ref]? with
    | some refBranch => ptqlBranchMatchRef branch refBranch block
    | none => .fault .badRef
  else if branch.lookup.type = .str then
    ptqlStrMatch world branch (block.str branch.lookup.offset)
  else ptqlBranchMatch branch block

/-- One round of the loop: branch `i` of `before ++ branch :: after`. -/
def evalBranch (world : World) (pid : SigarPid) (before : List PtqlBranch) (branch : PtqlBranch)
    (after : List PtqlBranch) : Eval (PtqlBranch × Verdict) :=
  match subject world branch pid with
  | .error status => pure (branch, .stop status)
  | .ok pid =>
    if branch.lookup.type = .any then do
      let status ← runMatcher world branch pid
      pure (branch, .matched (status = sigarOk))
    else match branch.lookup.get with
      | .struct getter => do
        let (status, block) := world.get getter pid
        let loaded := branch.load block
        if status ≠ sigarOk then pure (loaded, .stop status)
        else
          Logged.emit (.load before.length)
          let matched ← compareLoaded world (before ++ loaded :: after) before.length loaded block
          pure (loaded, .matched matched)
      | _ => pure (branch, .matched false)  -- only `ANY` lookups have another method

/-- The loop, with the branches behind it in `before`. -/
def matchLoop (world : World) (pid : SigarPid) :
    List PtqlBranch → List PtqlBranch → Eval (List PtqlBranch × Status)
  | before, [] => pure (before, sigarOk)
  | before, branch :: after => do
    let (branch, verdict) ← evalBranch world pid before branch after
    match verdict with
    | .stop status => pure (before ++ branch :: after, status)
    | .matched false => pure (before ++ branch :: after, notMatched)
    | .matched true => matchLoop world pid (before ++ [branch]) after

/-- `sigar_ptql_query_match`: the query with its buffers, and the status. -/
def sigarPtqlQueryMatch (world : World) (query : PtqlQuery) (pid : SigarPid) :
    Eval (PtqlQuery × Status) := do
  let (branches, status) ← matchLoop world pid [] query.branches
  pure (⟨branches⟩, status)

/-! ## `ptql_proc_list_get` -/

/-- `ERANGE` of Linux. -/
def erange : Status := 34

/-- `ptql_pid_get`.  A file without a number gives the status `errno`, which is 0 then, and the
    pid 0. -/
def ptqlPidGet (world : World) (branch : PtqlBranch) : Status × SigarPid :=
  match branch.flags with
  | .file => pidOfFile (world.file2str (dataStr branch))
  | .sudoFile => pidOfFile (world.sudoFile2str (dataStr branch))
  | .serviceName => (sigarEnotimpl, 0)
  | .tcpPort => world.port .tcp (dataUi32 branch).toUInt64
  | .udpPort => world.port .udp (dataUi32 branch).toUInt64
  | _ => (sigarOk, match branch.data with
      | .pid pid => pid
      | _ => 0)
where
  pidOfFile (file : Status × CStr) : Status × SigarPid :=
    let number := strtoull file.2
    if file.1 ≠ sigarOk then (file.1, 0)
    else if number.erange then (erange, toPid number.value)
    else (sigarOk, toPid number.value)

/-- `IS_PID_SERVICE_QUERY`. -/
def PidFlag.isService : PidFlag → Bool
  | .serviceName | .serviceDisplay | .servicePath | .serviceExe | .servicePid => true
  | _ => false

/-- `pid_branch_match`. -/
def pidBranchMatch (branch : PtqlBranch) (pid matchPid : SigarPid) : Eval Bool := do
  Logged.emit (.index branch.opName)
  match branch.opName.cmp? with
  | some op => pure (ptqlOpUi64 op (pidToUInt64 pid) (pidToUInt64 matchPid))
  | none => .fault .opTable

/-- The loop of `ptql_pid_list_get` over the processes. -/
def pidFilter (branch : PtqlBranch) (matchPid : SigarPid) : List SigarPid → Eval (List SigarPid)
  | [] => pure []
  | pid :: rest => do
    let matched ← pidBranchMatch branch pid matchPid
    let more ← pidFilter branch matchPid rest
    pure (if matched then pid :: more else more)

/-- `ptql_pid_list_get`: the status, and the pids that it appends. -/
def ptqlPidListGet (world : World) (branch : PtqlBranch) : Eval (Status × List SigarPid) :=
  if branch.flags.isService ∧ (branch.flags ≠ .serviceName ∨ branch.opName ≠ .eq) then
    pure (sigarOk, [])
  else
    let (status, matchPid) := ptqlPidGet world branch
    if status ≠ sigarOk then pure (sigarOk, [])  -- treated as no match
    else
      let (status, pids) := world.procList
      if status ≠ sigarOk then pure (status, [])
      else do
        let selected ← pidFilter branch matchPid pids
        pure (sigarOk, selected)

/-- The loop of `ptql_proc_list_get` over the `Pid`, `Port` and `Service` branches. -/
def pidBranches (world : World) : List PtqlBranch → Eval (Status × List SigarPid)
  | [] => pure (sigarOk, [])
  | branch :: rest => do
    let (status, pids) ← ptqlPidListGet world branch
    if status ≠ sigarOk then pure (status, [])
    else
      let (status, more) ← pidBranches world rest
      pure (status, pids ++ more)

/-- `ptql_proc_list_get`. -/
def ptqlProcListGet (world : World) (query : PtqlQuery) : Eval (Status × List SigarPid) :=
  if query.branches.any (·.opFlags.pid) then
    pidBranches world (query.branches.filter (·.opFlags.pid))
  else pure world.procList

/-! ## `sigar_ptql_query_find` and `sigar_ptql_query_find_process` -/

/-- The loop of both: the pids that match, in order, unless one of them says that the query is
    not implemented. -/
def findLoop (world : World) : PtqlQuery → List SigarPid → Eval (PtqlQuery × Status × List SigarPid)
  | query, [] => pure (query, sigarOk, [])
  | query, pid :: rest => do
    let (query, status) ← sigarPtqlQueryMatch world query pid
    if status = sigarEnotimpl then pure (query, status, [])
    else
      let (query, result, more) ← findLoop world query rest
      pure (query, result, if status = sigarOk then pid :: more else more)

/-- `sigar_ptql_query_find`. -/
def sigarPtqlQueryFind (world : World) (query : PtqlQuery) :
    Eval (PtqlQuery × Status × List SigarPid) := do
  let (status, pids) ← ptqlProcListGet world query
  if status ≠ sigarOk then pure (query, status, [])
  else
    let (query, status, found) ← findLoop world query pids
    pure (query, status, if status ≠ sigarOk then [] else found)

/-- `sigar_ptql_query_find_process`: the status, and the pid that it last wrote. -/
def sigarPtqlQueryFindProcess (world : World) (query : PtqlQuery) :
    Eval (PtqlQuery × Status × Option SigarPid) := do
  let (status, pids) ← ptqlProcListGet world query
  if status ≠ sigarOk then pure (query, status, none)
  else
    let (query, status, found) ← findLoop world query pids
    if status ≠ sigarOk then pure (query, status, found.getLast?)
    else pure (query, if found.length = 1 then sigarOk else -1, found.getLast?)

/-! ## `ptql_branch_list_destroy` -/

/-- `data_free(branch->data.ptr)`, for data with a size: a number in its place is no pointer. -/
def freeData (branch : PtqlBranch) : Eval Unit :=
  if branch.dataSize = 0 then pure ()
  else match branch.data with
    | .null | .str _ | .struct _ => pure ()
    | .pid pid => if pid = 0 then pure () else .fault .wildFree
    | .ui32 n => if n = 0 then pure () else .fault .wildFree

/-- `value_free(branch->value.str)`, for a string that is no reference. -/
def freeValue (branch : PtqlBranch) : Eval Unit :=
  if (branch.lookup.type = .str ∨ branch.lookup.type = .any) ∧ ¬ branch.opFlags.ref then do
    let value ← readValue branch .str
    match value.asStr with
    | .wild => .fault .wildFree
    | _ => pure ()
  else pure ()

def ptqlBranchListDestroy : List PtqlBranch → Eval Unit
  | [] => pure ()
  | branch :: rest => do
    freeData branch
    freeValue branch
    ptqlBranchListDestroy rest

end Sigar.Ptql
