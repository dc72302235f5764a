/-
  The rows of the interfaces of a Windows host.

  Source: `netif_hash`, `get_mib_ifrow`, `sigar_net_interface_name_get` and
  `sigar_net_interface_list_get` of `os/win32/win32_sigar.c`.

  The rows are cached under a HASH of their names, as if it were the name, and are never given up.

  1. **Program** — a list puts each row under its name, a lookup refreshes the one it finds.  Next to
     the table stands which interface was listed under which name, for the statement alone.
  2. **Table** (`RowsInv`) — if no two names have one hash, the table has for each name that was listed
     a row of its interface, and nothing else.
  3. **Result** — in a run whose names have different hashes, every lookup finds the interface of its
     name, or `ENOENT` (`rows_run_found`).
-/
import Sigar.Util
import Sigar.Cache.Values
import Sigar.Lib.Numerals

namespace Sigar.Net.Win32

open CString Cache Numerals Runs

/-! ## The program -/

/-- `MIB_IFROW`. -/
structure MibIfRow where
  dwIndex : UInt32
  dwType : UInt32
  bPhysAddr : List UInt8
  dwDescrLen : Nat
  bDescr : Text
  counters : List UInt32

/-- An entry of `IP_ADAPTER_ADDRESSES`. -/
structure Adapter where
  physicalAddress : List UInt8
  friendlyName : Text

/-- What a call sees of its host; `frame` is what lies where the array `name` is. -/
structure NetHost where
  interfaces : Option Nat                    -- `GetNumberOfInterfaces`
  adapters : Option (List Adapter)           -- `sigar_get_adapters_addresses`
  ifTable : Except Status (List MibIfRow)    -- `sigar_get_if_table`
  ifEntry : UInt32 → Except Status MibIfRow  -- `GetIfEntry`
  frame : Text
  now : UInt64
  clock : Clock
  entry_index : ∀ index row, ifEntry index = .ok row → row.dwIndex = index

/-- `netif_hash`, as the key of the table. -/
def netifHash (name : Text) : UInt64 := (hash31 name).toInt64.toUInt64

/-- `MAX_INTERFACE_NAME_LEN`. -/
def maxInterfaceNameLen : Nat := 256

/-- Bytes are written at the start of an array. -/
def put (array bytes : Text) : Text := bytes ++ array.drop bytes.length

/-- `_snprintf(name, len, "%s", text)`, which writes no NUL where the text has `len` bytes or more. -/
def snprintf (name : Text) (len : Nat) (text : Text) : Text :=
  put name ((text ++ [nul]).take len)

/-- `sprintf(name, "la%d", n)` and the like. -/
def numbered (name : Text) (kind : String) (n : Nat) : Text :=
  put name (kind.toList ++ renderNat n ++ [nul])

/-- `sigar_net_interface_name_get`, into the array `name`. -/
def sigarNetInterfaceNameGet (ifr : MibIfRow) (adapters : Option (List Adapter)) (name : Text) :
    Option Text :=
  ((adapters.getD []).find? fun iter => iter.physicalAddress.isPrefixOf ifr.bPhysAddr).map
    fun iter => (put name ((iter.friendlyName ++ [nul]).take maxInterfaceNameLen)).set
      (maxInterfaceNameLen - 1) nul

/-- The counters `lo`, `eth` and `la`, and the array `name`. -/
structure Naming where
  lo : Nat
  eth : Nat
  la : Nat
  name : Text

section Names

/- `netif_name_short`. -/
variable (short : Bool) (adapters : Option (List Adapter))

/-- A round of the loop up to the name: whether the row has one. -/
def nameRow (s : Naming) (ifr : MibIfRow) : Bool × Naming :=
  let friendly := if short then none else sigarNetInterfaceNameGet ifr adapters s.name
  if ifr.bDescr = "Microsoft Loopback Adapter".toList then
    (true, { s with la := s.la + 1, name := numbered s.name "la" s.la })
  else if ifr.dwType = 24 then  -- MIB_IF_TYPE_LOOPBACK
    match friendly with
    | some name => (true, { s with name := name })
    | none => (true, { s with lo := s.lo + 1, name := numbered s.name "lo" s.lo })
  else if ifr.dwType = 6 ∨ ifr.dwType = 71 then  -- ETHERNET, IEEE80211
    let friendly := if (strstr ifr.bDescr "Scheduler".toList).isNone ∧
      (strstr ifr.bDescr "Filter".toList).isNone then friendly else none
    match friendly with
    | some name => (true, { s with name := name })
    | none =>
      if short then (true, { s with eth := s.eth + 1, name := numbered s.name "eth" s.eth })
      else (true, { s with name := snprintf s.name ifr.dwDescrLen ifr.bDescr })
  else (false, s)

/-- The rows that are listed, with their names. -/
def namedRows : Naming → List MibIfRow → List (Text × MibIfRow)
  | _, [] => []
  | s, ifr :: rows =>
    let (named, s) := nameRow short adapters s ifr
    let rest := namedRows s rows
    if named then (s.name.takeWhile (· ≠ nul), ifr) :: rest else rest

end Names

/-- A row is put under its name. -/
def cacheRow (clock : Clock) (table : SigarCache MibIfRow) (named : Text × MibIfRow) :
    SigarCache MibIfRow :=
  let (table, entry) := sigarCacheGet table (netifHash named.1) clock
  storeValue table entry.addr (some named.2)

section Calls

variable (short : Bool)

/-- The rows that a list goes over. -/
def listedRows (host : NetHost) : List (Text × MibIfRow) :=
  match host.ifTable with
  | .error _ => []
  | .ok rows => namedRows short host.adapters ⟨0, 0, 0, host.frame⟩ rows

/-- The table of the handle; the first call makes it (`sigar_netif_cache_new`). -/
def mibRows (mib : Option (SigarCache MibIfRow)) (host : NetHost) : SigarCache MibIfRow :=
  let num := host.interfaces.getD 0
  mib.getD (sigarCacheNew MibIfRow (if num = 0 then 10 else num) host.now)

/-- `sigar_net_interface_list_get`: the table, and the names or the status. -/
def sigarNetInterfaceListGet (mib : Option (SigarCache MibIfRow)) (host : NetHost) :
    SigarCache MibIfRow × Except Status (List Text) :=
  ((listedRows short host).foldl (cacheRow host.clock) (mibRows mib host),
    host.ifTable.map fun _ => (listedRows short host).map Prod.fst)

/-- `get_mib_ifrow`, once there is a table. -/
def findRow (cached : Bool) (table : SigarCache MibIfRow) (host : NetHost) (name : Text) :
    SigarCache MibIfRow × Except Status MibIfRow :=
  let got := sigarCacheGet table (netifHash name) host.clock
  match got.2.value with
  | none => (got.1, .error enoent)
  | some row =>
    if cached then match host.ifEntry row.dwIndex with  -- refresh
      | .error status => (got.1, .error status)
      | .ok row => (storeValue got.1 got.2.addr (some row), .ok row)
    else (got.1, .ok row)

/-- `get_mib_ifrow`. -/
def getMibIfrow (mib : Option (SigarCache MibIfRow)) (host : NetHost) (name : Text) :
    SigarCache MibIfRow × Except Status MibIfRow :=
  match mib, host.ifTable with
  | some table, _ => findRow true table host name
  | none, .error status => (mibRows mib host, .error status)
  | none, .ok _ => findRow false (sigarNetInterfaceListGet short mib host).1 host name

/-! ## What is to be found -/

/-- A call on a handle. -/
inductive Call where
  | list (host : NetHost)
  | lookup (host : NetHost) (name : Text)

/-- The table, and the interface that was last listed under a name. -/
structure State where
  mib : Option (SigarCache MibIfRow)
  listed : Text → Option UInt32

/-- The interfaces that are listed after `rows`. -/
def listedAfter (listed : Text → Option UInt32) (rows : List (Text × MibIfRow)) :
    Text → Option UInt32 :=
  rows.foldl (fun listed row name => if name = row.1 then some row.2.dwIndex else listed name) listed

/-- The rows that a call lists. -/
def Call.rows (s : State) : Call → List (Text × MibIfRow)
  | .list host => listedRows short host
  | .lookup host _ => if s.mib.isSome then [] else listedRows short host

def step (s : State) (call : Call) : State × Option (Except Status MibIfRow) :=
  let listed := listedAfter s.listed (call.rows short s)
  match call with
  | .list host => (⟨some (sigarNetInterfaceListGet short s.mib host).1, listed⟩, none)
  | .lookup host name =>
    let (table, row) := getMibIfrow short s.mib host name
    (⟨some table, listed⟩, some row)

/-- A handle that was opened. -/
def opened : State := ⟨none, fun _ => none⟩

/-- An answer for a name: a row of the interface that was listed under it, or the error that the
    refresh of that interface gives; `ENOENT` if none was. -/
def Found (host : NetHost) : Option UInt32 → Except Status MibIfRow → Prop
  | none, answer => answer = .error enoent
  | some index, .ok row => row.dwIndex = index
  | some index, .error status => host.ifEntry index = .error status

/-- **A lookup finds the interface of its name**, and no two names have one row.  A handle that cannot
    list its interfaces says so. -/
def FindsRight (s : State) (call : Call) : Prop :=
  let listed := (step short s call).1.listed
  (∀ a b, listed a ≠ none → listed b ≠ none → netifHash a = netifHash b → a = b) ∧
  match call with
  | .list _ => True
  | .lookup host name => ∀ answer, (step short s call).2 = some answer →
    Found host (listed name) answer ∨
      s.mib = none ∧ ∃ status, host.ifTable = .error status ∧ answer = .error status

/-- The names that a call knows: those that were listed, those it lists, and the one it looks up. -/
def Known (s : State) (call : Call) (name : Text) : Prop :=
  s.listed name ≠ none ∨ name ∈ (call.rows short s).map Prod.fst ∨
    match call with
    | .list _ => False
    | .lookup _ looked => name = looked

/-- **No two of them have one hash.** -/
def Apart (s : State) (call : Call) : Prop :=
  ∀ a b, Known short s call a → Known short s call b → netifHash a = netifHash b → a = b

/-! ## The table -/

/-- The table has a row of the interface of each name that was listed, and nothing else. -/
structure RowsInv (table : SigarCache MibIfRow) (listed : Text → Option UInt32) : Prop where
  kept : Kept table
  row : ∀ name index, listed name = some index →
    ∃ row, table.valueOf (netifHash name) = some row ∧ row.dwIndex = index
  name : ∀ key row, table.valueOf key = some row → ∃ name, listed name ≠ none ∧ netifHash name = key

variable {short} {table : SigarCache MibIfRow} {listed : Text → Option UInt32}

/-- A row is put under a name whose hash no other listed name has. -/
theorem RowsInv.put (h : RowsInv table listed) {name : Text} (row : MibIfRow) (clock : Clock)
    (hname : ∀ other, listed other ≠ none → netifHash other = netifHash name → other = name) :
    RowsInv (cacheRow clock table (name, row))
      fun other => if other = name then some row.dwIndex else listed other := by
  obtain ⟨hkept, hvalue⟩ := h.kept.put (netifHash name) clock (some row)
  refine ⟨hkept, fun other index hother => ?_, fun key found hfound => ?_⟩
  · grind [cacheRow, h.row]
  · have hput := (hvalue key).symm.trans hfound
    split at hput
    · next heq => exact ⟨name, by simp, heq.symm⟩
    · obtain ⟨other, hother, hhash⟩ := h.name key found hput
      refine ⟨other, ?_, hhash⟩
      split
      · exact Option.some_ne_none _
      · exact hother

section Known

/- A set of names no two of which have one hash. -/
variable {K : Text → Prop} (hK : ∀ a b, K a → K b → netifHash a = netifHash b → a = b)
include hK

/-- **A list of rows with such names.** -/
theorem RowsInv.putAll (clock : Clock) : ∀ {rows : List (Text × MibIfRow)}
    {table : SigarCache MibIfRow} {listed : Text → Option UInt32}, RowsInv table listed →
      (∀ name ∈ rows.map Prod.fst, K name) → (∀ name, listed name ≠ none → K name) →
      RowsInv (rows.foldl (cacheRow clock) table) (listedAfter listed rows) ∧
        ∀ name, listedAfter listed rows name ≠ none → K name := by
  intro rows
  induction rows with
  | nil => exact fun h _ hlisted => ⟨h, hlisted⟩
  | cons row rows ih =>
    intro table listed h hrows hlisted
    have hrow : K row.1 := hrows row.1 (by simp)
    refine ih (h.put row.2 clock fun other hother => hK other row.1 (hlisted other hother) hrow)
      (fun name hname => hrows name (List.mem_cons_of_mem _ hname)) fun name hname => ?_
    dsimp only at hname
    split at hname
    · next heq => exact heq ▸ hrow
    · exact hlisted name hname

/-- What the entry of a name has. -/
theorem RowsInv.valueOf (h : RowsInv table listed) (hlisted : ∀ name, listed name ≠ none → K name)
    {name : Text} (hname : K name) :
    (table.valueOf (netifHash name)).map MibIfRow.dwIndex = listed name := by
  cases hindex : listed name with
  | some index =>
    obtain ⟨row, hrow, rfl⟩ := h.row name index hindex
    rw [hrow]
    rfl
  | none =>
    cases hvalue : table.valueOf (netifHash name) with
    | none => rfl
    | some row =>
      obtain ⟨other, hother, hhash⟩ := h.name _ row hvalue
      rw [hK other name (hlisted other hother) hname hhash] at hother
      exact absurd hindex hother

end Known

/-- Entries that are got change no row, and a refresh keeps the interface. -/
theorem RowsInv.same {result : SigarCache MibIfRow} (h : RowsInv table listed)
    (hkept : Kept result) (hvalue : ∀ key, (result.valueOf key).map MibIfRow.dwIndex
      = (table.valueOf key).map MibIfRow.dwIndex) : RowsInv result listed := by
  refine ⟨hkept, fun name index hname => ?_, fun key row hrow => ?_⟩
  · obtain ⟨row, hrow, rfl⟩ := h.row name index hname
    have := hvalue (netifHash name)
    rw [hrow] at this
    exact Option.map_eq_some_iff.mp this
  · have := hvalue key
    rw [hrow] at this
    obtain ⟨old, hold, -⟩ := Option.map_eq_some_iff.mp this.symm
    exact h.name key old hold

/-! ## A call -/

/-- The state of a handle. -/
def Inv (s : State) : Prop :=
  match s.mib with
  | none => s.listed = fun _ => none
  | some table => RowsInv table s.listed

variable {s : State} {call : Call} {host : NetHost}

theorem mibRows_inv (hs : Inv s) (host : NetHost) : RowsInv (mibRows s.mib host) s.listed := by
  rw [Inv] at hs
  cases hmib : s.mib with
  | some table => rwa [hmib] at hs
  | none =>
    rw [hmib] at hs
    have hnew := fun size hsize => @sigarCacheNew_kept MibIfRow size hsize host.now
    rw [hs, mibRows, Option.getD_none]
    refine ⟨hnew _ ?_, nofun, fun key row hrow => ?_⟩
    · split <;> omega
    · rw [valueOf_new] at hrow
      cases hrow

/-- **The lookup in a table of rows.** -/
theorem findRow_found {K : Text → Prop}
    (hK : ∀ a b, K a → K b → netifHash a = netifHash b → a = b) (h : RowsInv table listed)
    (hlisted : ∀ name, listed name ≠ none → K name) {name : Text} (hname : K name)
    (cached : Bool) (host : NetHost) :
    RowsInv (findRow cached table host name).1 listed ∧
      Found host (listed name) (findRow cached table host name).2 := by
  obtain ⟨hsame, hvalue, hpoints⟩ := h.kept.get (netifHash name) host.clock
  have hgot : RowsInv (sigarCacheGet table (netifHash name) host.clock).1 listed :=
    h.same hsame.kept fun key => by rw [hsame.value]
  have hindex := h.valueOf hK hlisted hname
  rw [findRow]
  cases hrow : table.valueOf (netifHash name) with
  | none =>
    rw [hrow] at hvalue hindex
    rw [hvalue, ← hindex]
    exact ⟨hgot, rfl⟩
  | some row =>
    rw [hrow] at hvalue hindex
    rw [hvalue, ← hindex]
    cases cached with
    | false => exact ⟨hgot, rfl⟩
    | true =>
      dsimp only
      rw [if_pos rfl]
      cases hentry : host.ifEntry row.dwIndex with
      | error status => exact ⟨hgot, hentry⟩
      | ok fresh =>
        have hfresh := host.entry_index _ _ hentry
        obtain ⟨hkept, hstore, -⟩ := hsame.kept.store hpoints (some fresh)
        refine ⟨h.same hkept fun key => ?_, hfresh⟩
        rw [hstore, hsame.value]
        split
        · next heq => rw [heq, hrow, Option.map_some, Option.map_some, hfresh]
        · rfl

/-- **A call whose names have different hashes** keeps the table and finds what it should. -/
theorem step_found (hs : Inv s) (hapart : Apart short s call) :
    Inv (step short s call).1 ∧ FindsRight short s call := by
  have hrows : ∀ host : NetHost, _ := fun host => RowsInv.putAll hapart host.clock
    (mibRows_inv hs host) (fun name hname => .inr (.inl hname)) fun name hname => .inl hname
  cases call with
  | list host =>
    obtain ⟨hinv, hknown⟩ := hrows host
    exact ⟨hinv, fun a b ha hb => hapart a b (hknown a ha) (hknown b hb), trivial⟩
  | lookup host name =>
    obtain ⟨hinv, hknown⟩ := hrows host
    have hfound := fun cached => findRow_found hapart hinv hknown (.inr (.inr rfl)) cached host
    have hshare := fun a b ha hb => hapart a b (hknown a ha) (hknown b hb)
    cases hmib : s.mib with
    | some table =>
      simp only [Call.rows, hmib, Option.isSome_some, if_true] at hfound hshare
      simp only [FindsRight, step, getMibIfrow, Call.rows, hmib, Option.isSome_some, if_true]
      refine ⟨(hfound true).1, hshare, ?_⟩
      rintro answer ⟨⟩
      exact .inl (hfound true).2
    | none =>
      simp only [Call.rows, hmib, Option.isSome_none, Bool.false_eq_true, if_false] at hinv hfound hshare
      simp only [FindsRight, step, getMibIfrow, Call.rows, hmib, Option.isSome_none,
        Bool.false_eq_true, if_false]
      cases htable : host.ifTable with
      | error status =>
        have hnone : listedRows short host = [] := by rw [listedRows, htable]
        rw [hnone] at hinv hshare ⊢
        refine ⟨hinv, hshare, ?_⟩
        rintro answer ⟨⟩
        exact .inr ⟨trivial, status, rfl, rfl⟩
      | ok rows =>
        refine ⟨(hfound false).1, hshare, ?_⟩
        rintro answer ⟨⟩
        exact .inl (hfound false).2

/-- **In a run whose names have different hashes every lookup finds the interface of its name.** -/
theorem rows_run_found (short : Bool) (calls : List Call)
    (hrun : Along (step short) (Apart short) opened calls) :
    Along (step short) (FindsRight short) opened calls :=
  along_of_invariant (fun _ _ hs h => step_found hs h) calls opened rfl hrun

/-- The names that a call can come to. -/
def Call.names (short : Bool) : Call → List Text
  | .list host => (listedRows short host).map Prod.fst
  | .lookup host name => name :: (listedRows short host).map Prod.fst

theorem known_or_listed {rows : List (Text × MibIfRow)} {name : Text}
    (h : listedAfter listed rows name ≠ none) : listed name ≠ none ∨ name ∈ rows.map Prod.fst := by
  induction rows generalizing listed with
  | nil => exact .inl h
  | cons row rows ih =>
    rw [List.map_cons, List.mem_cons]
    rcases ih h with hlisted | hmem
    · dsimp only at hlisted
      split at hlisted
      · next heq => exact .inr (.inl heq)
      · exact .inl hlisted
    · exact .inr (.inr hmem)

/-- The calls of a run whose names are all from a list of names with different hashes. -/
theorem along_apart {names : List Text}
    (hnames : ∀ a ∈ names, ∀ b ∈ names, netifHash a = netifHash b → a = b) {calls : List Call}
    (hcalls : ∀ call ∈ calls, ∀ name ∈ call.names short, name ∈ names) :
    Along (step short) (Apart short) opened calls := by
  have hopened : ∀ name, opened.listed name ≠ none → name ∈ names := fun _ h => absurd rfl h
  refine along_of_invariant (fun s call (hs : ∀ name, s.listed name ≠ none → name ∈ names) hcall => ?_)
    calls opened hopened (along_of_forall hcalls)
  have hrows : ∀ name ∈ (call.rows short s).map Prod.fst, name ∈ names := by
    intro name hname
    refine hcall name ?_
    cases call with
    | list host => exact hname
    | lookup host looked =>
      rw [Call.rows] at hname
      split at hname
      · exact absurd hname List.not_mem_nil
      · exact List.mem_cons_of_mem _ hname
  have hknown : ∀ name, Known short s call name → name ∈ names := by
    rintro name (hlisted | hname | hlooked)
    · exact hs name hlisted
    · exact hrows name hname
    · cases call with
      | list host => exact hlooked.elim
      | lookup host looked => exact hcall name (hlooked ▸ List.mem_cons_self)
  refine ⟨fun name hname => ?_, fun a b ha hb => hnames a (hknown a ha) b (hknown b hb)⟩
  have hlisted : listedAfter s.listed (call.rows short s) name ≠ none := by cases call <;> exact hname
  exact (known_or_listed hlisted).elim (hs name) (hrows name)

end Calls

/-- An interface with a short name. -/
def ethernet (index : UInt32) (descr : String) : MibIfRow :=
  ⟨index, 6, [0, 0, 0, 0, 0, 0, 0, UInt8.ofNat index.toNat], 256, descr.toList, []⟩

/-- A host with the interfaces `rows`, which have no friendly names. -/
def hostWith (rows : List MibIfRow) : NetHost where
  interfaces := some 2
  adapters := none
  ifTable := .ok rows
  ifEntry := fun index => match rows.find? (·.dwIndex = index) with
    | some row => .ok row
    | none => .error enoent
  frame := List.replicate 256 nul
  now := 0
  clock := ⟨0, 0⟩
  entry_index := by
    intro index row hentry
    split at hentry
    · next found hfind =>
      rw [← Except.ok.inj hentry]
      have hindex := List.find?_some hfind
      exact of_decide_eq_true hindex
    · cases hentry

/-- A host with two interfaces. -/
def twoInterfaces : NetHost := hostWith [ethernet 1 "Aa", ethernet 2 "Ab"]

/-- The list, and three lookups: of each interface, and of a name that was never listed. -/
def listThenLookups : List Call :=
  [.list twoInterfaces, .lookup twoInterfaces "Ab".toList, .lookup twoInterfaces "Aa".toList,
    .lookup twoInterfaces "Ac".toList]

theorem rows_run_found_two :
    Along (step false) (FindsRight false) opened listThenLookups ∧
    (exec (step false) opened listThenLookups).2.map
        (·.map fun answer => answer.toOption.map MibIfRow.dwIndex)
      = [none, some (some 2), some (some 1), some none] := by
  refine ⟨rows_run_found false _ ?_, by decide +kernel⟩
  refine @along_apart _ ["Aa".toList, "Ab".toList, "Ac".toList] (by decide +kernel) _ ?_
  have hrows : (listedRows false twoInterfaces).map Prod.fst = ["Aa".toList, "Ab".toList] := by
    decide +kernel
  simp only [listThenLookups, List.forall_mem_cons, Call.names, hrows]
  decide +kernel

/-- **Two interfaces, one row**: `Aa` and `BB` have the same hash, and what is looked up as the first is
    the second. -/
theorem sameHash_shares :
    (listedRows false (hostWith [ethernet 1 "Aa", ethernet 2 "BB"])).map
      (fun row => (row.1, row.2.dwIndex)) = [("Aa".toList, 1), ("BB".toList, 2)] ∧
    ((getMibIfrow false none (hostWith [ethernet 1 "Aa", ethernet 2 "BB"]) "Aa".toList).2.toOption.map
      MibIfRow.dwIndex) = some 2 ∧
    ¬ FindsRight false opened
      (.lookup (hostWith [ethernet 1 "Aa", ethernet 2 "BB"]) "Aa".toList) := by
  refine ⟨by decide +kernel, by decide +kernel, fun hright => ?_⟩
  refine absurd (hright.1 "Aa".toList "BB".toList ?_ ?_ ?_) ?_ <;> decide +kernel

end Sigar.Net.Win32
