/-
  The address that a port listens on.

  Source: `sigar_net_listen_address_get`, `sigar_net_listen_address_add` and `net_stat_walker` of
  `sigar.c`, modelled in `Sigar.Net.Stat`.

  A LISTEN row stores its address in the entry of its port, unless there is one and the new one is
  of IPv6.  So the table is the fold `prefer` over the rows, for all ports at once (`Holds`), and of
  the rows of a port the last one of IPv4 wins, or the FIRST one of IPv6 where there is none of IPv4
  (`Best`).  An entry is only made where an address is stored behind it: this too is part of `Holds`,
  and it is what the copy at the end relies on.

  The results are for counters that wrap around as the machine's do, since nothing reads them.
-/
import Sigar.Net.Accounting
import Sigar.Cache.Values

namespace Sigar.Net

open Cache List

variable {conn : SigarNetConnection} {clock : Nat → Clock}
  {values : UInt64 → Option SigarNetAddress} {port : UInt64} {count : Count}

/-! ## The table as a function -/

/-- The addresses after a row. -/
def prefer (values : UInt64 → Option SigarNetAddress) (conn : SigarNetConnection) :
    UInt64 → Option SigarNetAddress := fun port =>
  if conn.isListener ∧ port = conn.localPort then
    if (values port).isSome ∧ conn.localAddress.isInet6 then values port else some conn.localAddress
  else values port

/-- `net_listen` has these addresses, and every port in it has one. -/
structure Holds (listenPorts : SigarCache SigarNetAddress)
    (values : UInt64 → Option SigarNetAddress) : Prop where
  kept : Kept listenPorts
  value : ∀ port, listenPorts.valueOf port = values port
  stored : ∀ port, HasKey listenPorts port → (values port).isSome = true

section Holds

variable {listenPorts : SigarCache SigarNetAddress}

theorem Holds.permanent (h : Holds listenPorts values) : Permanent listenPorts :=
  ⟨h.kept.owned.wellFormed, h.kept.never⟩

theorem holds_new (now : UInt64) : Holds (sigarCacheNew SigarNetAddress 32 now) fun _ => none where
  kept := sigarCacheNew_kept SigarNetAddress (by decide) now
  value port := valueOf_new SigarNetAddress 32 now port
  stored port h := absurd h (not_hasKey_new SigarNetAddress 32 now port)

variable (h : Holds listenPorts values)

include h

/-- The ports with an address are the ports of the table. -/
theorem Holds.hasKey_iff (port : UInt64) :
    HasKey listenPorts port ↔ (values port).isSome = true := by
  refine ⟨h.stored port, fun hsome => ?_⟩
  by_contra hnone
  have hvalue : listenPorts.valueOf port = none :=
    valueOf_eq_none fun entry he hid => hnone ⟨entry, he, hid⟩
  rw [← h.value, hvalue] at hsome
  exact absurd hsome (by decide)

/-- **No entry is without an address.** -/
theorem Holds.entries :
    ∀ entry ∈ listenPorts.cells, entry.value ≠ none := by
  intro entry he hnone
  have hsome := h.stored entry.id ⟨entry, he, rfl⟩
  rw [← h.value, valueOf_of_mem h.kept.owned.wellFormed he, hnone] at hsome
  exact absurd hsome (by decide)

/-- A step that changes no value and no key. -/
theorem Holds.same {result : SigarCache SigarNetAddress}
    (hsame : Same listenPorts result)
    (hkeys : ∀ port, HasKey result port → (values port).isSome = true) : Holds result values where
  kept := hsame.kept
  value port := (hsame.value port).trans (h.value port)
  stored := hkeys

theorem Holds.find (port : UInt64) (clock : Clock) :
    Holds (sigarCacheFind listenPorts port clock).1 values ∧
    (sigarCacheFind listenPorts port clock).2.isSome = (values port).isSome := by
  obtain ⟨hsame, -⟩ := h.kept.find port clock
  obtain ⟨-, hkeys, hfound⟩ := sigarCacheFind_permanent h.permanent port clock
  refine ⟨h.same hsame fun k hk => h.stored k ((hkeys k).mp hk), ?_⟩
  rw [Bool.eq_iff_iff, hfound, h.hasKey_iff]

/-- `sigar_cache_get` of a port that is there. -/
theorem Holds.get {port : UInt64}
    (hport : (values port).isSome = true) (clock : Clock) :
    Holds (sigarCacheGet listenPorts port clock).1 values ∧
    (sigarCacheGet listenPorts port clock).2.value = values port := by
  obtain ⟨hsame, hvalue, -⟩ := h.kept.get port clock
  obtain ⟨-, hkeys⟩ := sigarCacheGet_permanent h.permanent port clock
  refine ⟨h.same hsame fun k hk => ?_, hvalue.trans (h.value port)⟩
  rcases (hkeys k).mp hk with rfl | hold
  · exact hport
  · exact h.stored k hold

/-- **`sigar_net_listen_address_add`.** -/
theorem Holds.add {conn : SigarNetConnection}
    (hlisten : conn.isListener = true) (clock : Clock) :
    Holds (sigarNetListenAddressAdd listenPorts conn clock) (prefer values conn) := by
  obtain ⟨hsame, hvalue, hp⟩ := h.kept.get conn.localPort clock
  obtain ⟨hperm, hkeys⟩ := sigarCacheGet_permanent h.permanent conn.localPort clock
  rw [h.value] at hvalue
  unfold sigarNetListenAddressAdd
  dsimp only
  rw [hvalue]
  by_cases hkeep : (values conn.localPort).isSome ∧ conn.localAddress.isInet6
  · -- an address of IPv6 for a port that has one: nothing is stored
    have hprefer : prefer values conn = values := by grind [prefer]
    rw [if_pos hkeep, hprefer]
    exact (h.get hkeep.1 clock).1
  · -- the entry is new, or has its address overwritten
    have hprefer : ∀ port, prefer values conn port =
        if port = conn.localPort then some conn.localAddress else values port := by grind [prefer]
    obtain ⟨hkept, hstored, -⟩ := hsame.kept.store hp (some conn.localAddress)
    obtain ⟨-, hkeys'⟩ := storeValue_permanent hperm
      (sigarCacheGet listenPorts conn.localPort clock).2.addr (some conn.localAddress)
    rw [if_neg hkeep]
    refine ⟨hkept, fun port => ?_, fun port hport => ?_⟩
    · rw [hstored, hprefer, hsame.value, h.value]
    · grind [h.stored]

end Holds

/-! ## A walk -/

/-- A row that is no LISTEN row changes no address. -/
theorem prefer_of_not_listener (h : conn.isListener = false)
    (values : UInt64 → Option SigarNetAddress) : prefer values conn = values := by
  grind [prefer]

/-- **One row.** -/
theorem netStatStepWith_holds {run run' : StatRun} (h : Holds run.listenPorts values)
    (hstep : netStatStepWith count clock run conn = .ok run') :
    Holds run'.listenPorts (prefer values conn) := by
  unfold netStatStepWith at hstep
  by_cases htcp : conn.type = .tcp
  · rw [if_pos htcp] at hstep
    cases hcount : count run.netstat.tcpStates conn.state with
    | error fault =>
      rw [hcount] at hstep
      cases hstep
    | ok states =>
      rw [hcount] at hstep
      dsimp only at hstep
      by_cases hlisten : conn.state = sigarTcpListen
      · rw [if_pos hlisten] at hstep
        obtain rfl := Except.ok.inj hstep
        exact h.add (decide_eq_true ⟨htcp, hlisten⟩) (clock run.readings)
      · rw [if_neg hlisten] at hstep
        obtain rfl := Except.ok.inj hstep
        rw [prefer_of_not_listener (decide_eq_false fun hl => hlisten hl.2)]
        exact (h.find conn.localPort (clock run.readings)).1
  · rw [if_neg htcp] at hstep
    obtain rfl := Except.ok.inj hstep
    rw [prefer_of_not_listener (decide_eq_false fun hl => htcp hl.1)]
    exact h

/-- **All rows**, by induction. -/
theorem netStatRowsWith_holds :
    ∀ {rows : List SigarNetConnection} {run run' : StatRun}
      {values : UInt64 → Option SigarNetAddress}, Holds run.listenPorts values →
      netStatRowsWith count clock rows run = .ok run' →
        Holds run'.listenPorts (rows.foldl prefer values) := by
  intro rows
  induction rows with
  | nil =>
    intro run run' values h hrun
    obtain rfl := Except.ok.inj hrun
    exact h
  | cons conn rows ih =>
    intro run run' values h hrun
    unfold netStatRowsWith at hrun
    rw [foldlM_cons] at hrun
    obtain ⟨next, hstep, hrest⟩ := Fallible.bind_eq_ok_iff.mp hrun
    exact ih (netStatStepWith_holds h hstep) hrest

/-- The states of the rows are indices into `tcp_states`. -/
def StatesInRange (rows : List SigarNetConnection) : Prop :=
  ∀ conn ∈ rows, conn.type = .tcp → InRange conn.state

/-- Counters that wrap around never stop a walk. -/
theorem netStatRowsWith_wrapping (clock : Nat → Clock) : ∀ {rows : List SigarNetConnection},
    StatesInRange rows → ∀ run, ∃ run', netStatRowsWith countWrapping clock rows run = .ok run' := by
  intro rows
  induction rows with
  | nil => intro _ run; exact ⟨run, rfl⟩
  | cons conn rows ih =>
    intro hrange run
    have hstep : ∃ next, netStatStepWith countWrapping clock run conn = .ok next := by
      unfold netStatStepWith
      by_cases htcp : conn.type = .tcp
      · have hcount : countWrapping run.netstat.tcpStates conn.state = .ok _ :=
          dif_pos (hrange conn mem_cons_self htcp)
        rw [if_pos htcp, hcount]
        dsimp only
        split <;> exact ⟨_, rfl⟩
      · rw [if_neg htcp]
        exact ⟨_, rfl⟩
    obtain ⟨next, hnext⟩ := hstep
    obtain ⟨run', hrun⟩ := ih (fun x hx => hrange x (mem_cons_of_mem conn hx)) next
    refine ⟨run', ?_⟩
    unfold netStatRowsWith
    rw [foldlM_cons, hnext]
    exact hrun

/-! ## Calls -/

/-- A handle without a table has no address. -/
structure HandleHolds (handle : NetHandle) (values : UInt64 → Option SigarNetAddress) : Prop where
  none : handle.netListen = none → values = fun _ => none
  some : ∀ listenPorts, handle.netListen = some listenPorts → Holds listenPorts values

section Calls

variable {handle : NetHandle}

theorem handleHolds_new : HandleHolds ⟨none⟩ fun _ => none := ⟨fun _ => rfl, fun _ h => (by cases h)⟩

theorem handleHolds_some {listenPorts : SigarCache SigarNetAddress} (h : Holds listenPorts values) :
    HandleHolds ⟨some listenPorts⟩ values where
  none heq := by cases heq
  some _ heq := Option.some.inj heq ▸ h

theorem HandleHolds.start (h : HandleHolds handle values) (clock : Nat → Clock) :
    Holds (statStart handle clock).listenPorts values := by
  unfold statStart
  cases hlisten : handle.netListen with
  | none =>
    rw [h.none hlisten]
    exact holds_new _
  | some listenPorts => exact h.some listenPorts hlisten

/-- `sigar_net_stat_get`, where the counting of its rows comes to an end. -/
theorem sigarNetStatGetWith_holds (h : HandleHolds handle values) {count : Count} {walk : Walk}
    {clock : Nat → Clock} {run : StatRun}
    (hrun : netStatRowsWith count clock walk.rows (statStart handle clock) = .ok run) :
    sigarNetStatGetWith count handle walk clock =
      .ok (⟨some run.listenPorts⟩, run.netstat, walk.status) ∧
    HandleHolds ⟨some run.listenPorts⟩ (walk.rows.foldl prefer values) := by
  refine ⟨?_, handleHolds_some (netStatRowsWith_holds (h.start clock) hrun)⟩
  unfold sigarNetStatGetWith
  rw [run_netStatWalkerWith, hrun]
  rfl

theorem HandleHolds.findPort (h : HandleHolds handle values) (port : UInt64) (clock : Clock) :
    HandleHolds (handle.findPort port clock).1 values ∧
    (handle.findPort port clock).2 = (values port).isSome := by
  unfold NetHandle.findPort
  cases hlisten : handle.netListen with
  | none =>
    refine ⟨h, ?_⟩
    rw [h.none hlisten]
    rfl
  | some listenPorts =>
    obtain ⟨hfind, hfound⟩ := (h.some listenPorts hlisten).find port clock
    exact ⟨handleHolds_some hfind, hfound⟩

/-- What the second half of a call returns for the address of the port. -/
def answerOf (value : Option SigarNetAddress) : Status × Option SigarNetAddress :=
  if value.isSome then (sigarOk, value) else (enoent, none)

theorem HandleHolds.addressOf (h : HandleHolds handle values) (port : UInt64)
    (clock : Nat → Clock) :
    ∃ handle', handle.addressOf port clock = (handle', answerOf (values port)) ∧
      HandleHolds handle' values := by
  unfold NetHandle.addressOf answerOf
  cases hlisten : handle.netListen with
  | none => grind [h.none]
  | some listenPorts =>
    obtain ⟨hfind, hfound⟩ := (h.some listenPorts hlisten).find port (clock 1)
    dsimp only
    rw [hfound]
    by_cases hsome : (values port).isSome = true
    · obtain ⟨hget, hvalue⟩ := hfind.get hsome (clock 2)
      rw [if_pos hsome, if_pos hsome, hvalue]
      exact ⟨_, rfl, handleHolds_some hget⟩
    · rw [if_neg hsome, if_neg hsome]
      exact ⟨_, rfl, handleHolds_some hfind⟩

/-- The addresses after a call: a walk is made for a port that is not known. -/
def valuesAfter (values : UInt64 → Option SigarNetAddress) (port : UInt64) (walk : Walk) :
    UInt64 → Option SigarNetAddress :=
  if (values port).isSome then values else walk.rows.foldl prefer values

/-- The counting of the rows comes to an end, whatever the ports. -/
def Counts (count : Count) (clock : Nat → Clock) (rows : List SigarNetConnection) : Prop :=
  ∀ handle values, HandleHolds handle values →
    ∃ run, netStatRowsWith count clock rows (statStart handle clock) = .ok run

/-- **`sigar_net_listen_address_get`**, where the counting comes to an end. -/
theorem listenAddressGetWith_holds (h : HandleHolds handle values) {count : Count} {walk : Walk}
    {statClock : Nat → Clock} (hcounts : Counts count statClock walk.rows) (port : UInt64)
    (clock : Nat → Clock) :
    ∃ handle' answer,
      sigarNetListenAddressGetWith count handle port walk clock statClock = .ok (handle', answer) ∧
      HandleHolds handle' (valuesAfter values port walk) ∧
      (answer = answerOf (valuesAfter values port walk port) ∨
        walk.status ≠ sigarOk ∧ answer = (walk.status, none)) := by
  obtain ⟨hfind, hknown⟩ := h.findPort port (clock 0)
  unfold sigarNetListenAddressGetWith valuesAfter
  dsimp only
  rw [hknown]
  by_cases hsome : (values port).isSome = true
  · obtain ⟨handle', haddress, hholds⟩ := hfind.addressOf port clock
    simp only [if_pos hsome, haddress]
    exact ⟨handle', _, rfl, hholds, .inl rfl⟩
  · obtain ⟨run, hrun⟩ := hcounts _ _ hfind
    obtain ⟨hstat, hholds⟩ := sigarNetStatGetWith_holds hfind hrun
    simp only [if_neg hsome, hstat]
    by_cases hstatus : walk.status = sigarOk
    · obtain ⟨handle', haddress, hholds'⟩ := hholds.addressOf port clock
      rw [if_neg fun hne => hne hstatus, haddress]
      exact ⟨handle', _, rfl, hholds', .inl rfl⟩
    · simp [hstatus]
      omega

/-- A status of `SIGAR_OK` comes with an address. -/
theorem answerOf_ok {value : Option SigarNetAddress} (h : (answerOf value).1 = sigarOk) :
    (answerOf value).2 = value ∧ value.isSome = true := by
  unfold answerOf at h ⊢
  by_cases hsome : value.isSome = true
  · rw [if_pos hsome]
    exact ⟨rfl, hsome⟩
  · rw [if_neg hsome] at h
    exact absurd h (by decide)

theorem answerOf_ok_iff (value : Option SigarNetAddress) :
    (answerOf value).1 = sigarOk ↔ value.isSome = true := by
  refine ⟨fun h => (answerOf_ok h).2, fun h => ?_⟩
  rw [answerOf, if_pos h]

theorem counts_wrapping {rows : List SigarNetConnection} (hrange : StatesInRange rows)
    (clock : Nat → Clock) : Counts countWrapping clock rows := fun handle _ _ =>
  netStatRowsWith_wrapping clock hrange (statStart handle clock)

/-- The walks of a call have states in range. -/
def NetCall.InRange : NetCall → Prop
  | .stat walk _ => StatesInRange walk.rows
  | .listenAddress _ walk _ _ => StatesInRange walk.rows

/-- One call of a history. -/
theorem netCallWith_holds (h : HandleHolds handle values) {call : NetCall} (hrange : call.InRange) :
    ∃ handle' values', netCallWith countWrapping handle call = .ok handle' ∧
      HandleHolds handle' values' := by
  cases call with
  | stat walk clock =>
    obtain ⟨run, hrun⟩ := counts_wrapping hrange clock handle values h
    obtain ⟨hstat, hholds⟩ := sigarNetStatGetWith_holds h hrun
    refine ⟨_, _, ?_, hholds⟩
    rw [netCallWith, hstat]
    rfl
  | listenAddress port walk clock statClock =>
    obtain ⟨handle', answer, hcall, hholds, -⟩ :=
      listenAddressGetWith_holds h (counts_wrapping hrange statClock) port clock
    refine ⟨handle', _, ?_, hholds⟩
    rw [netCallWith, hcall]
    rfl

/-- **Any history.** -/
theorem netCallsWith_holds : ∀ {calls : List NetCall} {handle : NetHandle}
    {values : UInt64 → Option SigarNetAddress}, HandleHolds handle values →
    (∀ call ∈ calls, call.InRange) →
      ∃ handle' values', calls.foldlM (netCallWith countWrapping) handle = .ok handle' ∧
        HandleHolds handle' values' := by
  intro calls
  induction calls with
  | nil => intro handle values h _; exact ⟨handle, values, rfl, h⟩
  | cons call calls ih =>
    intro handle values h hrange
    obtain ⟨next, values', hcall, hnext⟩ := netCallWith_holds h (hrange call mem_cons_self)
    obtain ⟨handle', values'', hrest, hholds⟩ :=
      ih hnext fun x hx => hrange x (mem_cons_of_mem call hx)
    refine ⟨handle', values'', ?_, hholds⟩
    rw [foldlM_cons, hcall]
    exact hrest

end Calls

/-! ## Which row wins -/

/-- A LISTEN row of the port. -/
def ListensOn (port : UInt64) (conn : SigarNetConnection) : Prop :=
  conn.isListener = true ∧ conn.localPort = port

/-- The address of a port after some rows: there is one if a row listens, it is the one of such a
    row, and it is of IPv6 only if all of them are. -/
structure Best (port : UInt64) (rows : List SigarNetConnection) (value : Option SigarNetAddress) :
    Prop where
  isSome : value.isSome = true ↔ ∃ conn ∈ rows, ListensOn port conn
  row : ∀ a, value = some a → ∃ conn ∈ rows, ListensOn port conn ∧ conn.localAddress = a
  inet6 : ∀ a, value = some a → a.isInet6 = true →
    ∀ conn ∈ rows, ListensOn port conn → conn.localAddress.isInet6 = true

theorem best_nil (port : UInt64) : Best port [] none where
  isSome := iff_of_false (by decide) (by rintro ⟨_, h, _⟩; exact not_mem_nil h)
  row _ h := by cases h
  inet6 _ h := by cases h

section Best

variable {rows : List SigarNetConnection} {value : Option SigarNetAddress}

/-- A row that does not listen on the port makes no difference. -/
theorem Best.other (h : Best port rows value)
    (hconn : ¬ ListensOn port conn) : Best port (rows ++ [conn]) value where
  isSome := by
    rw [h.isSome]
    constructor
    · grind
    · grind
  row a ha := by
    obtain ⟨x, hx, hlistens⟩ := h.row a ha
    exact ⟨x, mem_append_left _ hx, hlistens⟩
  inet6 a ha h6 x hx hlistens := by
    rcases mem_append.mp hx with hold | hnew
    · exact h.inet6 a ha h6 x hold hlistens
    · exact absurd (mem_singleton.mp hnew ▸ hlistens) hconn

/-- A row of IPv6 leaves an address that is there. -/
theorem Best.keep (h : Best port rows value)
    (hsome : value.isSome = true) (hconn : ListensOn port conn)
    (h6 : conn.localAddress.isInet6 = true) : Best port (rows ++ [conn]) value where
  isSome := iff_of_true hsome ⟨conn, mem_append_right _ mem_cons_self, hconn⟩
  row a ha := by
    obtain ⟨x, hx, hlistens⟩ := h.row a ha
    exact ⟨x, mem_append_left _ hx, hlistens⟩
  inet6 a ha ha6 x hx hlistens := by
    rcases mem_append.mp hx with hold | hnew
    · exact h.inet6 a ha ha6 x hold hlistens
    · exact mem_singleton.mp hnew ▸ h6

/-- Any other row that listens takes the place. -/
theorem Best.replace (h : Best port rows value)
    (hconn : ListensOn port conn)
    (hreplace : ¬ (value.isSome = true ∧ conn.localAddress.isInet6 = true)) :
    Best port (rows ++ [conn]) (some conn.localAddress) where
  isSome := iff_of_true rfl ⟨conn, mem_append_right _ mem_cons_self, hconn⟩
  row a ha := ⟨conn, mem_append_right _ mem_cons_self, hconn, Option.some.inj ha⟩
  inet6 a ha ha6 x hx hlistens := by
    have hconn6 : conn.localAddress.isInet6 = true := Option.some.inj ha ▸ ha6
    rcases mem_append.mp hx with hold | hnew
    · -- there was no address, so no row before listens
      exact absurd ⟨h.isSome.mpr ⟨x, hold, hlistens⟩, hconn6⟩ hreplace
    · exact mem_singleton.mp hnew ▸ hconn6

theorem Best.prefer (h : Best port rows (values port))
    (conn : SigarNetConnection) : Best port (rows ++ [conn]) (Net.prefer values conn port) := by
  unfold Net.prefer
  by_cases hconn : conn.isListener = true ∧ port = conn.localPort
  · have hlistens : ListensOn port conn := ⟨hconn.1, hconn.2.symm⟩
    rw [if_pos hconn]
    by_cases hkeep : (values port).isSome = true ∧ conn.localAddress.isInet6 = true
    · grind [h.keep]
    · rw [if_neg hkeep]
      exact h.replace hlistens hkeep
  · rw [if_neg hconn]
    exact h.other fun hlistens => hconn ⟨hlistens.1, hlistens.2.symm⟩

end Best

/-- **The fold**, from the last row back. -/
theorem best_foldl (port : UInt64) (rows : List SigarNetConnection) :
    Best port rows (rows.foldl prefer (fun _ => none) port) := by
  induction rows using reverseRecOn with
  | nil => exact best_nil port
  | append_singleton rows conn ih =>
    rw [foldl_append]
    exact ih.prefer conn

/-! ## The table of connections -/

/-- Whether the family is `SIGAR_AF_INET`. -/
def SigarNetAddress.isInet : SigarNetAddress → Bool
  | .inet _ => true
  | _ => false

theorem not_inet6_of_inet {a : SigarNetAddress} (h : a.isInet = true) : ¬ a.isInet6 = true := by
  cases a with
  | inet _ => exact Bool.false_ne_true
  | unspec => cases h
  | inet6 _ _ _ _ => cases h
  | link _ => cases h

/-- A table of connections of IPv4 and IPv6. -/
structure ConnTable where
  rows : List SigarNetConnection
  states : StatesInRange rows
  listen : ∀ conn ∈ rows, conn.isListener = true → conn.remotePort = 0
  families : ∀ conn ∈ rows, conn.localAddress.isInet = true ∨ conn.localAddress.isInet6 = true

variable {table : ConnTable}

/-- The rows that a walk with these flags delivers. -/
def delivered (flags : Int32) (conn : SigarNetConnection) : Bool :=
  flags &&& conn.type.flag ≠ 0 ∧
    (conn.remotePort ≠ 0 ∧ flags &&& sigarNetconnClient ≠ 0 ∨
      conn.remotePort = 0 ∧ flags &&& sigarNetconnServer ≠ 0)

/-- The walk of `sigar_net_listen_address_get`. -/
def ConnTable.walk (table : ConnTable) : Walk where
  rows := table.rows.filter (delivered (sigarNetconnServer ||| NetconnType.tcp.flag))
  status := sigarOk

/-- **What is promised of one call.** -/
structure RightAddress (table : ConnTable) (port : UInt64) (status : Status)
    (address : Option SigarNetAddress) : Prop where
  ok_iff : status = sigarOk ↔ ∃ conn ∈ table.rows, ListensOn port conn
  address : status = sigarOk → ∃ conn ∈ table.rows, ListensOn port conn ∧
    address = some conn.localAddress ∧
    ((∃ x ∈ table.rows, ListensOn port x ∧ x.localAddress.isInet = true) →
      conn.localAddress.isInet = true)

/-- No entry of the cache is without an address. -/
def NetHandle.AllStored (handle : NetHandle) : Prop :=
  ∀ listenPorts, handle.netListen = some listenPorts →
    ∀ entry ∈ listenPorts.cells, entry.value ≠ none

theorem HandleHolds.allStored {handle : NetHandle} (h : HandleHolds handle values) :
    handle.AllStored := fun listenPorts hlisten =>
  (h.some listenPorts hlisten).entries

/-- Every LISTEN row is delivered. -/
theorem mem_walk_iff (table : ConnTable) (hconn : ListensOn port conn) :
    conn ∈ table.walk.rows ↔ conn ∈ table.rows := by
  unfold ConnTable.walk
  dsimp only
  rw [mem_filter]
  refine ⟨fun h => h.1, fun h => ⟨h, ?_⟩⟩
  have hremote : conn.remotePort = 0 := table.listen conn h hconn.1
  have htcp : conn.type = .tcp := (of_decide_eq_true hconn.1).1
  unfold delivered
  rw [decide_eq_true_iff, hremote, htcp]
  exact ⟨by decide, .inr ⟨rfl, by decide⟩⟩

theorem statesInRange_walk (table : ConnTable) : StatesInRange table.walk.rows := fun conn h =>
  table.states conn (mem_of_mem_filter h)

/-- The winner of the walk is right. -/
theorem rightAddress_best {value : Option SigarNetAddress} (h : Best port table.walk.rows value) :
    RightAddress table port (answerOf value).1 (answerOf value).2 where
  ok_iff := by
    rw [answerOf_ok_iff, h.isSome]
    constructor
    · rintro ⟨conn, hmem, hconn⟩
      exact ⟨conn, (mem_walk_iff table hconn).mp hmem, hconn⟩
    · rintro ⟨conn, hmem, hconn⟩
      exact ⟨conn, (mem_walk_iff table hconn).mpr hmem, hconn⟩
  address hok := by
    obtain ⟨hvalue, hsome⟩ := answerOf_ok hok
    obtain ⟨a, ha⟩ := Option.isSome_iff_exists.mp hsome
    obtain ⟨conn, hmem, hconn, rfl⟩ := h.row a ha
    have htable := (mem_walk_iff table hconn).mp hmem
    refine ⟨conn, htable, hconn, hvalue.trans ha, ?_⟩
    rintro ⟨x, hx, hxport, hinet⟩
    rcases table.families conn htable with hfour | hsix
    · exact hfour
    · -- an address of IPv6 wins only if no row is of IPv4
      have hx6 := h.inet6 _ ha hsix x ((mem_walk_iff table hxport).mpr hx) hxport
      exact absurd hx6 (not_inet6_of_inet hinet)

/-- The first call of a handle. -/
theorem listenAddressGetWith_fresh {statClock : Nat → Clock}
    (hcounts : Counts count statClock table.walk.rows) (port : UInt64) (clock : Nat → Clock) :
    ∃ handle values status address,
      sigarNetListenAddressGetWith count ⟨none⟩ port table.walk clock statClock =
        .ok (handle, status, address) ∧
      HandleHolds handle values ∧ RightAddress table port status address := by
  obtain ⟨handle, answer, hcall, hholds, hanswer⟩ :=
    listenAddressGetWith_holds handleHolds_new hcounts port clock
  refine ⟨handle, _, answer.1, answer.2, hcall, hholds, ?_⟩
  rcases hanswer with rfl | ⟨hstatus, -⟩
  · exact rightAddress_best (best_foldl port table.walk.rows)
  · exact absurd rfl hstatus

/-- **The address of a port**: the first call on a handle returns the right one for every table, and
    after any history of calls no entry is without an address, so that a call that succeeds has one
    to copy. -/
theorem listenAddress_right (table : ConnTable) (port : UInt64) (clock statClock : Nat → Clock)
    (later : List NetCall) (hlater : ∀ call ∈ later, call.InRange) :
    ∃ handle status address,
      sigarNetListenAddressGetWith countWrapping ⟨none⟩ port table.walk clock statClock =
        .ok (handle, status, address) ∧
      RightAddress table port status address ∧
      ∃ handle', later.foldlM (netCallWith countWrapping) handle = .ok handle' ∧
        handle'.AllStored ∧
        ∀ port' walk clock' statClock', StatesInRange walk.rows →
          ∃ handle'' status' address',
            sigarNetListenAddressGetWith countWrapping handle' port' walk clock' statClock' =
              .ok (handle'', status', address') ∧
            (status' = sigarOk → address' ≠ none) := by
  obtain ⟨handle, values, status, address, hcall, hholds, hright⟩ :=
    listenAddressGetWith_fresh (counts_wrapping (statesInRange_walk table) statClock) port clock
  obtain ⟨handle', values', hrun, hholds'⟩ := netCallsWith_holds hholds hlater
  refine ⟨handle, status, address, hcall, hright, handle', hrun, hholds'.allStored, ?_⟩
  intro port' walk clock' statClock' hrange
  obtain ⟨handle'', answer, hlast, -, hanswer⟩ :=
    listenAddressGetWith_holds hholds' (counts_wrapping hrange statClock') port' clock'
  refine ⟨handle'', answer.1, answer.2, hlast, fun hok hnone => ?_⟩
  rcases hanswer with rfl | ⟨hstatus, rfl⟩
  · obtain ⟨hvalue, hsome⟩ := answerOf_ok hok
    rw [← hvalue, hnone] at hsome
    exact absurd hsome (by decide)
  · exact hstatus hok

/-- A port that listens on IPv6 and, in a later row, on IPv4. -/
def twoFamilies : ConnTable where
  rows := [{ SigarNetConnection.zero with
              localPort := 80, localAddress := .inet6 0 0 0 1, state := sigarTcpListen },
           { SigarNetConnection.zero with
              localPort := 80, localAddress := .inet 0x0100007f, state := sigarTcpListen }]
  states := by unfold StatesInRange; decide
  listen := by decide
  families := by decide

/-- The address of IPv4 is returned, and the cache stays without an empty entry after a walk over an
    empty table. -/
theorem twoFamilies_inet :
    ∃ handle, sigarNetListenAddressGetWith countWrapping ⟨none⟩ 80 twoFamilies.walk
        (fun _ => ⟨0, 0⟩) (fun _ => ⟨0, 0⟩) = .ok (handle, sigarOk, some (.inet 0x0100007f)) ∧
      ∃ handle', [NetCall.stat ⟨[], sigarOk⟩ fun _ => ⟨0, 0⟩].foldlM (netCallWith countWrapping)
        handle = .ok handle' ∧ handle'.AllStored := by
  have hlater : ∀ call ∈ [NetCall.stat ⟨[], sigarOk⟩ fun _ => ⟨0, 0⟩], call.InRange := by
    intro call hcall
    rw [mem_singleton.mp hcall]
    exact fun conn hconn => absurd hconn not_mem_nil
  obtain ⟨handle, status, address, hcall, hright, handle', hrun, hstored, -⟩ :=
    listenAddress_right twoFamilies 80 (fun _ => ⟨0, 0⟩) (fun _ => ⟨0, 0⟩) _ hlater
  obtain rfl : status = sigarOk :=
    hright.ok_iff.mpr ⟨_, mem_cons_self, by decide, rfl⟩
  obtain ⟨conn, hconn, -, haddress, hinet⟩ := hright.address rfl
  have hfour := hinet ⟨_, mem_cons_of_mem _ mem_cons_self, ⟨by decide, rfl⟩, rfl⟩
  rcases mem_cons.mp hconn with rfl | hconn
  · exact absurd hfour (by decide)
  · rw [mem_singleton.mp hconn] at haddress
    exact ⟨handle, haddress ▸ hcall, handle', hrun, hstored⟩

end Sigar.Net
