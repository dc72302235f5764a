/-
  What the counters of `sigar_net_stat_get` and `sigar_net_stat_port_get` come to.

  1. **One row** — `netStatStep_ok`: with the ports known so far, a row adds one to its state and
     to its direction, and a LISTEN row makes its port known.
  2. **A walk** — `netStatRows_ok`, by induction over the rows; `netStatRows_error`: it faults
     exactly if the states do not fit.
  3. **A run of calls** — `runCalls_remembers`: the handle remembers the LISTEN ports of every
     earlier walk.
  4. **Directions** (`sigarNetStatGet_classifies_iff`) and **accounting** (`netStat_accounts_iff`).
-/
import Mathlib.Algebra.BigOperators.Fin
import Sigar.Lib.Fallible
import Sigar.Net.Stat
import Sigar.Net.Linux
import Sigar.Net.Win32

namespace Sigar.Net

open Cache List

variable {conn : SigarNetConnection} {states : Fin 14 → Nat} {rest : List SigarNetConnection}
  {known : List UInt64} {run : StatRun} {clock : Nat → Clock} {netstat : SigarNetStat}
  {port : UInt64}

/-! ## Rows -/

/-- A TCP row in the state LISTEN. -/
def SigarNetConnection.isListener (conn : SigarNetConnection) : Bool :=
  conn.type = .tcp ∧ conn.state = sigarTcpListen

/-- A TCP row in another state. -/
def SigarNetConnection.isClient (conn : SigarNetConnection) : Bool :=
  conn.type = .tcp ∧ conn.state ≠ sigarTcpListen

/-- A TCP row in the state with this index. -/
def SigarNetConnection.inState (i : Fin 14) (conn : SigarNetConnection) : Bool :=
  conn.type = .tcp ∧ conn.state.toInt = i.val

/-- The known ports after a row. -/
def learn (known : List UInt64) (conn : SigarNetConnection) : List UInt64 :=
  if conn.isListener then conn.localPort :: known else known

/-- The rows that are no LISTEN rows and meet a test, which may look at the ports known when the
    row comes. -/
def clientCount (test : List UInt64 → SigarNetConnection → Bool) :
    List UInt64 → List SigarNetConnection → Nat
  | _, [] => 0
  | known, conn :: rest =>
    (if conn.isClient && test known conn then 1 else 0) + clientCount test (learn known conn) rest

/-- The rows that `net_stat_walker` takes for inbound ones. -/
def inboundCount : List UInt64 → List SigarNetConnection → Nat :=
  clientCount fun known conn => known.contains conn.localPort

/-- The rows that `net_stat_walker` takes for outbound ones. -/
def outboundCount : List UInt64 → List SigarNetConnection → Nat :=
  clientCount fun known conn => !known.contains conn.localPort

/-- The states of the rows are indices, and no counter that starts as in `states` overflows. -/
def FitsFrom (states : Fin 14 → Nat) (rows : List SigarNetConnection) : Prop :=
  (∀ conn ∈ rows, conn.type = .tcp → InRange conn.state) ∧
  ∀ i, states i + rows.countP (·.inState i) ≤ intMax

/-- The states of the rows are indices into `tcp_states`, and no state has more than `INT_MAX`
    rows. -/
def StatesFit (rows : List SigarNetConnection) : Prop :=
  (∀ conn ∈ rows, conn.type = .tcp → InRange conn.state) ∧
  ∀ i : Fin 14, rows.countP (·.inState i) ≤ intMax

theorem zero_le_intMax (i : Fin 14) : SigarNetStat.zero.tcpStates i ≤ intMax := Nat.zero_le _

theorem fitsFrom_zero (rows : List SigarNetConnection) :
    FitsFrom SigarNetStat.zero.tcpStates rows ↔ StatesFit rows := by
  have hzero : ∀ i, SigarNetStat.zero.tcpStates i = 0 := fun _ => rfl
  unfold FitsFrom StatesFit
  simp only [hzero, Nat.zero_add]

/-! ## Counting a state -/

/-- The counters after a row. -/
def bump (states : Fin 14 → Nat) (conn : SigarNetConnection) : Fin 14 → Nat :=
  fun i => states i + if conn.inState i then 1 else 0

theorem inState_index (htcp : conn.type = .tcp) (h : InRange conn.state) (i : Fin 14) :
    conn.inState i = true ↔ i = h.index := by
  unfold SigarNetConnection.inState
  rw [decide_eq_true_iff, Fin.ext_iff]
  unfold InRange at h
  show (_ ∧ _) ↔ i.val = conn.state.toInt.toNat
  constructor
  · rintro ⟨_, hi⟩; omega
  · intro hi; exact ⟨htcp, by omega⟩

/-- The first row fits by itself. -/
def RowFitsIn (states : Fin 14 → Nat) (conn : SigarNetConnection) : Prop :=
  conn.type = .tcp → ∃ h : InRange conn.state, states h.index < intMax

theorem countState_ok (htcp : conn.type = .tcp) (hfits : RowFitsIn states conn) :
    countState states conn.state = .ok (bump states conn) := by
  obtain ⟨h, hroom⟩ := hfits htcp
  unfold countState
  rw [dif_pos h, if_neg (Nat.not_le.mpr hroom)]
  congr 1
  funext i
  unfold bump
  by_cases hi : i = h.index
  · rw [if_pos hi, if_pos ((inState_index htcp h i).mpr hi)]
  · rw [if_neg hi, if_neg fun hin => hi ((inState_index htcp h i).mp hin)]
    rfl

theorem countState_error (hfits : ¬ RowFitsIn states conn) :
    ∃ fault, countState states conn.state = .error fault := by
  unfold countState
  by_cases h : InRange conn.state
  · have hfull : intMax ≤ states h.index := by
      by_contra hroom
      exact hfits fun _ => ⟨h, Nat.not_le.mp hroom⟩
    rw [dif_pos h, if_pos hfull]
    exact ⟨_, rfl⟩
  · rw [dif_neg h]
    exact ⟨_, rfl⟩

theorem fitsFrom_cons :
    FitsFrom states (conn :: rest) ↔ RowFitsIn states conn ∧ FitsFrom (bump states conn) rest := by
  have hcount : ∀ i, states i + (conn :: rest).countP (·.inState i)
      = bump states conn i + rest.countP (·.inState i) := by
    intro i
    unfold bump
    rw [countP_cons]
    omega
  unfold FitsFrom RowFitsIn
  simp only [hcount, forall_mem_cons]
  constructor
  · rintro ⟨⟨hconn, hrest⟩, hroom⟩
    refine ⟨fun htcp => ⟨hconn htcp, ?_⟩, hrest, hroom⟩
    have hone : bump states conn (hconn htcp).index = states (hconn htcp).index + 1 := by
      unfold bump
      rw [if_pos ((inState_index htcp (hconn htcp) _).mpr rfl)]
    have := hroom (hconn htcp).index
    omega
  · grind

theorem RowFitsIn.bump_le (hfits : RowFitsIn states conn) (hle : ∀ i, states i ≤ intMax) :
    ∀ i, bump states conn i ≤ intMax := by
  intro i
  unfold bump
  by_cases hin : conn.inState i = true
  · have htcp : conn.type = .tcp := (of_decide_eq_true hin).1
    obtain ⟨hrange, hroom⟩ := hfits htcp
    rw [if_pos hin, (inState_index htcp hrange i).mp hin]
    omega
  · rw [if_neg hin]
    exact hle i

theorem bump_of_not_tcp (htcp : conn.type ≠ .tcp) : bump states conn = states := by
  funext i
  have hout : ¬ conn.inState i = true := fun hin => htcp (of_decide_eq_true hin).1
  unfold bump
  rw [if_neg hout]
  rfl

/-! ## One row -/

/-- `net_listen` is a permanent table of exactly these ports. -/
structure Knows (listenPorts : SigarCache SigarNetAddress) (known : List UInt64) : Prop where
  permanent : Permanent listenPorts
  keys : ∀ port, HasKey listenPorts port ↔ port ∈ known

theorem knows_new (now : UInt64) : Knows (sigarCacheNew SigarNetAddress 32 now) [] where
  permanent := sigarCacheNew_permanent SigarNetAddress (by decide) now
  keys port := iff_of_false (not_hasKey_new SigarNetAddress 32 now port) not_mem_nil

section Knows

variable {listenPorts : SigarCache SigarNetAddress} {known : List UInt64}

theorem Knows.find (hk : Knows listenPorts known) (port : UInt64) (clock : Clock) :
    Knows (sigarCacheFind listenPorts port clock).1 known ∧
    (sigarCacheFind listenPorts port clock).2.isSome = known.contains port := by
  obtain ⟨hperm, hkeys, hfound⟩ := sigarCacheFind_permanent hk.permanent port clock
  refine ⟨⟨hperm, fun k => (hkeys k).trans (hk.keys k)⟩, ?_⟩
  rw [Bool.eq_iff_iff, hfound, hk.keys, contains_iff_mem]

theorem Knows.get (hk : Knows listenPorts known) (port : UInt64) (clock : Clock) :
    Knows (sigarCacheGet listenPorts port clock).1 (port :: known) := by
  obtain ⟨hperm, hkeys⟩ := sigarCacheGet_permanent hk.permanent port clock
  refine ⟨hperm, fun k => ?_⟩
  rw [hkeys, hk.keys, mem_cons]

theorem Knows.store (hk : Knows listenPorts known) (addr : Nat) (value : Option SigarNetAddress) :
    Knows (storeValue listenPorts addr value) known := by
  obtain ⟨hperm, hkeys⟩ := storeValue_permanent hk.permanent addr value
  exact ⟨hperm, fun k => (hkeys k).trans (hk.keys k)⟩

theorem Knows.add (hk : Knows listenPorts known) (conn : SigarNetConnection) (clock : Clock) :
    Knows (sigarNetListenAddressAdd listenPorts conn clock) (conn.localPort :: known) := by
  unfold sigarNetListenAddressAdd
  dsimp only
  split
  · exact hk.get conn.localPort clock
  · exact (hk.get conn.localPort clock).store _ _

/-- The same set of ports, listed in another way. -/
theorem Knows.congr (hk : Knows listenPorts known) {known' : List UInt64}
    (h : ∀ port, port ∈ known ↔ port ∈ known') : Knows listenPorts known' :=
  ⟨hk.permanent, fun port => (hk.keys port).trans (h port)⟩

end Knows

theorem inboundCount_one (known : List UInt64) (conn : SigarNetConnection) :
    inboundCount known [conn]
      = if conn.isClient && known.contains conn.localPort then 1 else 0 := rfl

theorem outboundCount_one (known : List UInt64) (conn : SigarNetConnection) :
    outboundCount known [conn]
      = if conn.isClient && !known.contains conn.localPort then 1 else 0 := rfl

theorem direction_inbound (netstat : SigarNetStat) (inbound : Bool) :
    (netstat.direction inbound).copyTotals.tcpInboundTotal
      = netstat.tcpInboundTotal + UInt32.ofNat (if inbound then 1 else 0) := by
  cases inbound with
  | true => rfl
  | false => exact (UInt32.add_zero _).symm

theorem direction_outbound (netstat : SigarNetStat) (inbound : Bool) :
    (netstat.direction inbound).copyTotals.tcpOutboundTotal
      = netstat.tcpOutboundTotal + UInt32.ofNat (if !inbound then 1 else 0) := by
  cases inbound with
  | true => exact (UInt32.add_zero _).symm
  | false => rfl

theorem direction_states (netstat : SigarNetStat) (inbound : Bool) :
    (netstat.direction inbound).copyTotals.tcpStates = netstat.tcpStates := by
  cases inbound with
  | true => rfl
  | false => rfl

/-- What rows do to the counters and to the known ports. -/
structure Tally (known : List UInt64) (run : StatRun) (rows : List SigarNetConnection)
    (run' : StatRun) : Prop where
  knows : Knows run'.listenPorts (rows.foldl learn known)
  states : ∀ i, run'.netstat.tcpStates i
    = run.netstat.tcpStates i + rows.countP (·.inState i)
  inbound : run'.netstat.tcpInboundTotal
    = run.netstat.tcpInboundTotal + UInt32.ofNat (inboundCount known rows)
  outbound : run'.netstat.tcpOutboundTotal
    = run.netstat.tcpOutboundTotal + UInt32.ofNat (outboundCount known rows)

/-- **One row that fits.** -/
theorem netStatStep_ok (clock : Nat → Clock) (hk : Knows run.listenPorts known)
    (hfits : RowFitsIn run.netstat.tcpStates conn) :
    ∃ run', netStatStepWith countState clock run conn = .ok run' ∧ Tally known run [conn] run' ∧
      run'.netstat.tcpStates = bump run.netstat.tcpStates conn := by
  have hstates : ∀ i, bump run.netstat.tcpStates conn i
      = run.netstat.tcpStates i + [conn].countP (·.inState i) := by
    intro i
    rw [countP_cons, countP_nil, Nat.zero_add]
    rfl
  unfold netStatStepWith
  by_cases htcp : conn.type = .tcp
  · rw [if_pos htcp, countState_ok htcp hfits]
    dsimp only
    by_cases hlisten : conn.state = sigarTcpListen
    · -- a LISTEN row: its port becomes known, and no direction is counted
      have hlearn : [conn].foldl learn known = conn.localPort :: known :=
        if_pos (decide_eq_true ⟨htcp, hlisten⟩)
      have hclient : conn.isClient = false := decide_eq_false fun h => h.2 hlisten
      rw [if_pos hlisten]
      refine ⟨_, rfl, ⟨?_, hstates, ?_, ?_⟩, rfl⟩
      · rw [hlearn]
        exact hk.add conn _
      · rw [inboundCount_one, hclient]
        exact (UInt32.add_zero _).symm
      · rw [outboundCount_one, hclient]
        exact (UInt32.add_zero _).symm
    · have hlearn : [conn].foldl learn known = known :=
        if_neg fun h => hlisten (of_decide_eq_true h).2
      have hclient : conn.isClient = true := decide_eq_true ⟨htcp, hlisten⟩
      obtain ⟨hknows, hfound⟩ := hk.find conn.localPort (clock run.readings)
      rw [if_neg hlisten, hfound]
      refine ⟨_, rfl, ⟨?_, ?_, ?_, ?_⟩, direction_states _ _⟩
      · rw [hlearn]
        exact hknows
      · intro i
        rw [← hstates]
        exact congrFun (direction_states _ _) i
      · rw [inboundCount_one, hclient, Bool.true_and]
        exact direction_inbound _ _
      · rw [outboundCount_one, hclient, Bool.true_and]
        exact direction_outbound _ _
  · -- no TCP row: nothing is counted
    have hlearn : [conn].foldl learn known = known :=
      if_neg fun h => htcp (of_decide_eq_true h).1
    have hclient : conn.isClient = false := decide_eq_false fun h => htcp h.1
    rw [if_neg htcp]
    refine ⟨_, rfl, ⟨?_, ?_, ?_, ?_⟩, (bump_of_not_tcp htcp).symm⟩
    · rw [hlearn]
      exact hk
    · intro i
      rw [← hstates, bump_of_not_tcp htcp]
      rfl
    · rw [inboundCount_one, hclient]
      exact (UInt32.add_zero _).symm
    · rw [outboundCount_one, hclient]
      exact (UInt32.add_zero _).symm

theorem netStatStep_error (clock : Nat → Clock) (hfits : ¬ RowFitsIn run.netstat.tcpStates conn) :
    ∃ fault, netStatStepWith countState clock run conn = .error fault := by
  have htcp : conn.type = .tcp := by
    by_contra htcp
    exact hfits fun h => absurd h htcp
  obtain ⟨fault, hfault⟩ := countState_error hfits
  unfold netStatStepWith
  rw [if_pos htcp, hfault]
  exact ⟨fault, rfl⟩

/-! ## A walk -/

/-- `net_stat_walker` over all rows. -/
def netStatRowsWith (count : Count) (clock : Nat → Clock) (rows : List SigarNetConnection)
    (run : StatRun) : Except StatFault StatRun :=
  rows.foldlM (netStatStepWith count clock) run

theorem run_netStatWalkerWith (count : Count) (clock : Nat → Clock) (walk : Walk) (run : StatRun) :
    walk.run (netStatWalkerWith count clock) (.ok run) =
      (netStatRowsWith count clock walk.rows run, walk.status) := by
  unfold Walk.run netStatRowsWith
  rw [Visit.visit_eq_foldl isOk (netStatWalkerWith count clock) (fun _ _ => rfl), foldlM_eq_foldl]
  rfl

theorem clientCount_append (test : List UInt64 → SigarNetConnection → Bool) (known : List UInt64)
    (conn : SigarNetConnection) (rest : List SigarNetConnection) :
    clientCount test known (conn :: rest)
      = clientCount test known [conn] + clientCount test (learn known conn) rest := rfl

theorem Tally.cons {run' run'' : StatRun} (hone : Tally known run [conn] run')
    (hrest : Tally (learn known conn) run' rest run'') :
    Tally known run (conn :: rest) run'' where
  knows := hrest.knows
  states i := by
    rw [hrest.states, hone.states, countP_cons, countP_cons, countP_nil]
    omega
  inbound := by
    unfold inboundCount
    rw [hrest.inbound, hone.inbound, clientCount_append, UInt32.ofNat_add, UInt32.add_assoc]
    rfl
  outbound := by
    unfold outboundCount
    rw [hrest.outbound, hone.outbound, clientCount_append, UInt32.ofNat_add, UInt32.add_assoc]
    rfl

/-- **The rows of a walk, if their states fit.** -/
theorem netStatRows_ok (clock : Nat → Clock) : ∀ (rows : List SigarNetConnection)
    {known : List UInt64} {run : StatRun}, Knows run.listenPorts known →
    FitsFrom run.netstat.tcpStates rows →
    ∃ run', netStatRowsWith countState clock rows run = .ok run' ∧ Tally known run rows run' := by
  intro rows
  induction rows with
  | nil =>
    intro known run hk _
    exact ⟨run, rfl, hk, fun _ => rfl, (UInt32.add_zero _).symm, (UInt32.add_zero _).symm⟩
  | cons conn rest ih =>
    intro known run hk hfits
    obtain ⟨hrow, hrest⟩ := fitsFrom_cons.mp hfits
    obtain ⟨next, hstep, htally, hstates⟩ := netStatStep_ok clock hk hrow
    obtain ⟨run', hrun, htallies⟩ := ih htally.knows (hstates ▸ hrest)
    refine ⟨run', ?_, htally.cons htallies⟩
    unfold netStatRowsWith
    rw [foldlM_cons, hstep]
    exact hrun

/-- If they do not fit, the walk faults. -/
theorem netStatRows_error (clock : Nat → Clock) : ∀ (rows : List SigarNetConnection)
    {known : List UInt64} {run : StatRun}, Knows run.listenPorts known →
    (∀ i, run.netstat.tcpStates i ≤ intMax) → ¬ FitsFrom run.netstat.tcpStates rows →
    ∃ fault, netStatRowsWith countState clock rows run = .error fault := by
  intro rows
  induction rows with
  | nil =>
    intro known run _ hle hfits
    exact absurd ⟨fun _ h => absurd h not_mem_nil, hle⟩ hfits
  | cons conn rest ih =>
    intro known run hk hle hfits
    unfold netStatRowsWith
    rw [foldlM_cons]
    by_cases hrow : RowFitsIn run.netstat.tcpStates conn
    · obtain ⟨next, hstep, htally, hstates⟩ := netStatStep_ok clock hk hrow
      rw [hstep]
      refine ih htally.knows ?_ ?_
      · rw [hstates]
        exact hrow.bump_le hle
      · rw [hstates]
        exact fun hrest => hfits (fitsFrom_cons.mpr ⟨hrow, hrest⟩)
    · obtain ⟨fault, hfault⟩ := netStatStep_error clock hrow
      rw [hfault]
      exact ⟨fault, rfl⟩

/-! ## Calls -/

/-- The handle remembers exactly these ports. -/
structure Remembers (handle : NetHandle) (known : List UInt64) : Prop where
  none : handle.netListen = none → known = []
  some : ∀ listenPorts, handle.netListen = some listenPorts → Knows listenPorts known

theorem remembers_new : Remembers ⟨none⟩ [] := ⟨fun _ => rfl, fun _ h => (by cases h)⟩

theorem remembers_some {listenPorts : SigarCache SigarNetAddress} (hk : Knows listenPorts known) :
    Remembers ⟨some listenPorts⟩ known where
  none h := by cases h
  some _ h := Option.some.inj h ▸ hk

section Remembers

variable {handle handle' : NetHandle} (hr : Remembers handle known)

include hr

theorem Remembers.start (clock : Nat → Clock) :
    Knows (statStart handle clock).listenPorts known := by
  unfold statStart
  cases hlisten : handle.netListen with
  | none =>
    rw [hr.none hlisten]
    exact knows_new _
  | some listenPorts => exact hr.some listenPorts hlisten

/-- **`sigar_net_stat_get`, if the states fit**: the counters are the numbers of rows, and the
    handle remembers the LISTEN ports of the walk too. -/
theorem sigarNetStatGet_ok (walk : Walk)
    (clock : Nat → Clock) (hfits : StatesFit walk.rows) :
    ∃ run, sigarNetStatGet handle walk clock
        = .ok (⟨some run.listenPorts⟩, run.netstat, walk.status) ∧
      Tally known (statStart handle clock) walk.rows run := by
  have hstart : FitsFrom (statStart handle clock).netstat.tcpStates walk.rows :=
    (fitsFrom_zero walk.rows).mpr hfits
  obtain ⟨run, hrun, htally⟩ := netStatRows_ok clock walk.rows (hr.start clock) hstart
  refine ⟨run, ?_, htally⟩
  unfold sigarNetStatGet sigarNetStatGetWith
  rw [run_netStatWalkerWith, hrun]
  rfl

theorem sigarNetStatGet_error (walk : Walk)
    (clock : Nat → Clock) (hfits : ¬ StatesFit walk.rows) :
    ∃ fault, sigarNetStatGet handle walk clock = .error fault := by
  have hstart : ¬ FitsFrom (statStart handle clock).netstat.tcpStates walk.rows :=
    fun h => hfits ((fitsFrom_zero walk.rows).mp h)
  obtain ⟨fault, hfault⟩ :=
    netStatRows_error clock walk.rows (hr.start clock) zero_le_intMax hstart
  refine ⟨fault, ?_⟩
  unfold sigarNetStatGet sigarNetStatGetWith
  rw [run_netStatWalkerWith, hfault]
  rfl

/-- The ports known after a call: a walk adds those of its LISTEN rows, and
    `sigar_net_listen_address_get` makes one only for a port that is not known. -/
def remember (known : List UInt64) : NetCall → List UInt64
  | .stat walk _ => walk.rows.foldl learn known
  | .listenAddress port walk _ _ =>
    if known.contains port then known else walk.rows.foldl learn known

/-- The ports that a new handle remembers after these calls. -/
def remembered (calls : List NetCall) : List UInt64 := calls.foldl remember []

theorem sigarNetStatGet_remembers {walk : Walk} {status : Status}
    (hget : sigarNetStatGet handle walk clock = .ok (handle', netstat, status)) :
    Remembers handle' (walk.rows.foldl learn known) := by
  by_cases hfits : StatesFit walk.rows
  · obtain ⟨run, hrun, htally⟩ := sigarNetStatGet_ok hr walk clock hfits
    rw [hrun] at hget
    obtain rfl := (Prod.mk.inj (Except.ok.inj hget)).1
    exact remembers_some htally.knows
  · obtain ⟨fault, hfault⟩ := sigarNetStatGet_error hr walk clock hfits
    rw [hfault] at hget
    cases hget

theorem findPort_remembers (port : UInt64)
    (clock : Clock) :
    Remembers (handle.findPort port clock).1 known ∧
    (handle.findPort port clock).2 = known.contains port := by
  unfold NetHandle.findPort
  cases hlisten : handle.netListen with
  | none =>
    refine ⟨hr, ?_⟩
    rw [hr.none hlisten]
    rfl
  | some listenPorts =>
    obtain ⟨hknows, hfound⟩ := (hr.some listenPorts hlisten).find port clock
    exact ⟨remembers_some hknows, hfound⟩

theorem addressOf_remembers (port : UInt64)
    (clock : Nat → Clock) : Remembers (handle.addressOf port clock).1 known := by
  unfold NetHandle.addressOf
  cases hlisten : handle.netListen with
  | none => exact hr
  | some listenPorts =>
    obtain ⟨hknows, hfound⟩ := (hr.some listenPorts hlisten).find port (clock 1)
    dsimp only
    by_cases hport : port ∈ known
    · -- the entry is there: `sigar_cache_get` adds nothing
      rw [if_pos (hfound.trans (contains_iff_mem.mpr hport))]
      refine remembers_some ((hknows.get port (clock 2)).congr fun k => ?_)
      rw [mem_cons]
      exact ⟨fun h => h.elim (fun heq => heq ▸ hport) id, Or.inr⟩
    · grind [remembers_some]

theorem netCall_remembers {call : NetCall}
    (hcall : netCallWith countState handle call = .ok handle') :
    Remembers handle' (remember known call) := by
  cases call with
  | stat walk clock =>
    rw [netCallWith] at hcall
    obtain ⟨⟨next, netstat, status⟩, hget, rfl⟩ := Fallible.map_eq_ok_iff.mp hcall
    exact sigarNetStatGet_remembers hr hget
  | listenAddress port walk clock statClock =>
    obtain ⟨hfind, hknown⟩ := findPort_remembers hr port (clock 0)
    rw [netCallWith, sigarNetListenAddressGetWith] at hcall
    dsimp only at hcall
    rw [hknown] at hcall
    rw [remember]
    by_cases hport : known.contains port = true
    · rw [if_pos hport] at hcall ⊢
      rw [← Except.ok.inj hcall]
      exact addressOf_remembers hfind port clock
    · rw [if_neg hport] at hcall ⊢
      cases hget : sigarNetStatGetWith countState (handle.findPort port (clock 0)).1 walk statClock with
      | error fault => rw [hget] at hcall; cases hcall
      | ok result =>
        obtain ⟨next, netstat, status⟩ := result
        have hnext := sigarNetStatGet_remembers hfind hget
        rw [hget] at hcall
        dsimp only at hcall
        by_cases hstatus : status = sigarOk
        · rw [if_neg (not_not_intro hstatus)] at hcall
          rw [← Except.ok.inj hcall]
          exact addressOf_remembers hnext port clock
        · rw [if_pos hstatus] at hcall
          rw [← Except.ok.inj hcall]
          exact hnext

end Remembers

/-- **What a handle remembers after any calls.** -/
theorem runCalls_remembers {calls : List NetCall} {handle : NetHandle}
    (hcalls : runCalls calls = .ok handle) : Remembers handle (remembered calls) :=
  Runs.foldlM_sim (netCallWith countState) remember Remembers (fun _ _ _ _ hr hcall => netCall_remembers hr hcall)
    remembers_new hcalls

/-! ## Directions -/

/-- The table has a LISTEN row for the port. -/
def hasListener (rows : List SigarNetConnection) (port : UInt64) : Bool :=
  rows.any fun conn => conn.isListener && conn.localPort == port

/-- The inbound connections of a table. -/
def inboundOf (rows : List SigarNetConnection) : Nat :=
  rows.countP fun conn => conn.isClient && hasListener rows conn.localPort

/-- The outbound connections of a table. -/
def outboundOf (rows : List SigarNetConnection) : Nat :=
  rows.countP fun conn => conn.isClient && !hasListener rows conn.localPort

/-- The inbound rows that come before their port is known. -/
def earlyCount (known : List UInt64) (rows : List SigarNetConnection) : Nat :=
  clientCount (fun known conn => hasListener rows conn.localPort && !known.contains conn.localPort)
    known rows

/-- The outbound rows whose port is still known from an earlier table. -/
def staleCount (known : List UInt64) (rows : List SigarNetConnection) : Nat :=
  clientCount (fun known conn => !hasListener rows conn.localPort && known.contains conn.localPort)
    known rows

/-- A test that does not look at the known ports. -/
theorem clientCount_eq_countP (test : SigarNetConnection → Bool) :
    ∀ (rows : List SigarNetConnection) (known : List UInt64),
      clientCount (fun _ conn => test conn) known rows
        = rows.countP fun conn => conn.isClient && test conn := by
  intro rows
  induction rows with
  | nil => intro known; rfl
  | cons conn rest ih =>
    intro known
    rw [clientCount, ih, countP_cons, Nat.add_comm]

/-- Tests that add up row by row add up over the rows. -/
theorem clientCount_add {p q r t : List UInt64 → SigarNetConnection → Bool}
    (h : ∀ known conn, (if p known conn then 1 else 0) + (if q known conn then 1 else 0)
      = (if r known conn then 1 else 0) + if t known conn then 1 else 0) :
    ∀ (rows : List SigarNetConnection) (known : List UInt64),
      clientCount p known rows + clientCount q known rows
        = clientCount r known rows + clientCount t known rows := by
  intro rows
  induction rows with
  | nil => intro known; rfl
  | cons conn rest ih =>
    intro known
    have hrest := ih (learn known conn)
    have hrow := h known conn
    simp only [clientCount]
    cases conn.isClient with
    | false =>
      simp only [Bool.false_and, Bool.false_eq_true, if_false]
      omega
    | true =>
      simp only [Bool.true_and]
      omega

theorem inboundCount_add_early (known : List UInt64) (rows : List SigarNetConnection) :
    inboundCount known rows + earlyCount known rows = inboundOf rows + staleCount known rows := by
  have hspec := clientCount_eq_countP (fun conn => hasListener rows conn.localPort) rows known
  unfold inboundCount earlyCount inboundOf staleCount
  rw [← hspec]
  refine clientCount_add (fun known conn => ?_) rows known
  cases hasListener rows conn.localPort <;> cases known.contains conn.localPort <;> rfl

theorem outboundCount_add_stale (known : List UInt64) (rows : List SigarNetConnection) :
    outboundCount known rows + staleCount known rows = outboundOf rows + earlyCount known rows := by
  have hspec := clientCount_eq_countP (fun conn => !hasListener rows conn.localPort) rows known
  unfold outboundCount staleCount outboundOf earlyCount
  rw [← hspec]
  refine clientCount_add (fun known conn => ?_) rows known
  cases hasListener rows conn.localPort <;> cases known.contains conn.localPort <;> rfl

theorem ofNat_eq_iff {m n : Nat} :
    UInt32.ofNat m = UInt32.ofNat n ↔ m % 4294967296 = n % 4294967296 := by
  rw [← UInt32.toNat_inj, UInt32.toNat_ofNat', UInt32.toNat_ofNat']

/-- **Directions.**  After any calls, the totals are those of the table exactly when the states of
    its rows fit, and the rows that come too early are as many as those that come too late, up to
    the width of the counters. -/
theorem sigarNetStatGet_classifies_iff {calls : List NetCall} {handle : NetHandle}
    (hcalls : runCalls calls = .ok handle) (walk : Walk) (clock : Nat → Clock) :
    (∃ handle' netstat, sigarNetStatGet handle walk clock = .ok (handle', netstat, walk.status) ∧
      netstat.tcpInboundTotal = UInt32.ofNat (inboundOf walk.rows) ∧
      netstat.tcpOutboundTotal = UInt32.ofNat (outboundOf walk.rows)) ↔
    StatesFit walk.rows ∧
      earlyCount (remembered calls) walk.rows % 4294967296
        = staleCount (remembered calls) walk.rows % 4294967296 := by
  have hr := runCalls_remembers hcalls
  by_cases hfits : StatesFit walk.rows
  · obtain ⟨run, hrun, htally⟩ := sigarNetStatGet_ok hr walk clock hfits
    have hin : run.netstat.tcpInboundTotal
        = UInt32.ofNat (inboundCount (remembered calls) walk.rows) :=
      htally.inbound.trans (UInt32.zero_add _)
    have hout : run.netstat.tcpOutboundTotal
        = UInt32.ofNat (outboundCount (remembered calls) walk.rows) :=
      htally.outbound.trans (UInt32.zero_add _)
    have hinbound := inboundCount_add_early (remembered calls) walk.rows
    have houtbound := outboundCount_add_stale (remembered calls) walk.rows
    constructor
    · rintro ⟨handle', netstat, hget, htotal, _⟩
      rw [hrun] at hget
      obtain ⟨_, hsecond⟩ := Prod.mk.inj (Except.ok.inj hget)
      rw [← (Prod.mk.inj hsecond).1, hin, ofNat_eq_iff] at htotal
      exact ⟨hfits, by omega⟩
    · rintro ⟨_, hsame⟩
      refine ⟨_, run.netstat, hrun, ?_, ?_⟩
      · rw [hin, ofNat_eq_iff]
        omega
      · rw [hout, ofNat_eq_iff]
        omega
  · obtain ⟨fault, hfault⟩ := sigarNetStatGet_error hr walk clock hfits
    refine iff_of_false ?_ fun h => hfits h.1
    rintro ⟨handle', netstat, hget, _⟩
    rw [hfault] at hget
    cases hget

/-- A TCP row between these ports. -/
def tcpRow (localPort remotePort : UInt64) (state : Int32) : SigarNetConnection :=
  { SigarNetConnection.zero with localPort := localPort, remotePort := remotePort, state := state }

/-- Clock readings of 0. -/
def stopped : Nat → Clock := fun _ => ⟨0, 0⟩

/-- The totals of a call on a handle. -/
def totals (handle : Except StatFault NetHandle) (rows : List SigarNetConnection) :
    Except StatFault (UInt32 × UInt32) :=
  handle.bind fun handle => (sigarNetStatGet handle ⟨rows, sigarOk⟩ stopped).map fun result =>
    (result.2.1.tcpInboundTotal, result.2.1.tcpOutboundTotal)

/-- The LISTEN row of port 80 in front of a connection to it, on a new handle. -/
theorem sigarNetStatGet_classifies_iff_example :
    ∃ handle' netstat, sigarNetStatGet ⟨none⟩ ⟨[tcpRow 80 0 10, tcpRow 80 5000 1], sigarOk⟩ stopped
        = .ok (handle', netstat, sigarOk) ∧
      netstat.tcpInboundTotal = UInt32.ofNat (inboundOf [tcpRow 80 0 10, tcpRow 80 5000 1]) ∧
      netstat.tcpOutboundTotal = UInt32.ofNat (outboundOf [tcpRow 80 0 10, tcpRow 80 5000 1]) :=
  (@sigarNetStatGet_classifies_iff [] ⟨none⟩ rfl ⟨[tcpRow 80 0 10, tcpRow 80 5000 1], sigarOk⟩
    stopped).mpr ⟨⟨by decide, by decide⟩, by decide⟩

/-- **The order and the history of the LISTEN row of port 80 decide**: behind the connection, in
    front of it, and in an earlier table only. -/
theorem listenOrder_decides :
    totals (.ok ⟨none⟩) [tcpRow 80 5000 1, tcpRow 80 0 10] = .ok (0, 1) ∧
    totals (.ok ⟨none⟩) [tcpRow 80 0 10, tcpRow 80 5000 1] = .ok (1, 0) ∧
    totals (.ok ⟨none⟩) [tcpRow 80 5000 1] = .ok (0, 1) ∧
    totals (runCalls [.stat ⟨[tcpRow 80 0 10], sigarOk⟩ stopped]) [tcpRow 80 5000 1]
      = .ok (1, 0) := by
  decide +kernel

/-! ## The port of `sigar_net_stat_port_get` -/

/-- A TCP row with the port at one of its ends. -/
def touchesPort (port : UInt64) (conn : SigarNetConnection) : Bool :=
  conn.type = .tcp ∧ (conn.localPort = port ∨ conn.remotePort = port)

/-- What a row with the port adds to the states. -/
theorem netStatPortStep_touches (address : SigarNetAddress) (netstat : SigarNetStat)
    (htouches : touchesPort port conn = true) :
    (netStatPortStep address port netstat conn).map (·.tcpStates)
      = countState netstat.tcpStates conn.state := by
  unfold netStatPortStep
  rw [if_pos (of_decide_eq_true htouches)]
  dsimp only
  by_cases hlocal : conn.localPort = port
  · rw [if_pos hlocal]
    cases countState netstat.tcpStates conn.state with
    | error fault => rfl
    | ok states => rfl
  · rw [if_neg hlocal]
    cases countState netstat.tcpStates conn.state with
    | error fault => rfl
    | ok states => rfl

/-- **One row with the port that fits.** -/
theorem netStatPortStep_ok (address : SigarNetAddress) (htouches : touchesPort port conn = true)
    (hfits : RowFitsIn netstat.tcpStates conn) :
    ∃ next, netStatPortStep address port netstat conn = .ok next ∧
      next.tcpStates = bump netstat.tcpStates conn := by
  have htcp : conn.type = .tcp := (of_decide_eq_true htouches).1
  have hstep := netStatPortStep_touches address netstat htouches
  rw [countState_ok htcp hfits] at hstep
  obtain ⟨next, hnext, hstates⟩ := Fallible.map_eq_ok_iff.mp hstep
  exact ⟨next, hnext, hstates⟩

theorem netStatPortStep_error (address : SigarNetAddress) (htouches : touchesPort port conn = true)
    (hfits : ¬ RowFitsIn netstat.tcpStates conn) :
    ∃ fault, netStatPortStep address port netstat conn = .error fault := by
  have hstep := netStatPortStep_touches address netstat htouches
  obtain ⟨fault, hfault⟩ := countState_error hfits
  rw [hfault] at hstep
  cases hnext : netStatPortStep address port netstat conn with
  | error fault => exact ⟨fault, rfl⟩
  | ok next => rw [hnext] at hstep; cases hstep

theorem netStatPortStep_passes (address : SigarNetAddress) (netstat : SigarNetStat)
    (htouches : touchesPort port conn = false) :
    netStatPortStep address port netstat conn = .ok netstat :=
  if_neg (of_decide_eq_false htouches)

/-- `net_stat_port_walker` over all rows. -/
def netStatPortRows (address : SigarNetAddress) (port : UInt64) (rows : List SigarNetConnection)
    (netstat : SigarNetStat) : Except StatFault SigarNetStat :=
  rows.foldlM (netStatPortStep address port) netstat

theorem run_netStatPortWalker (address : SigarNetAddress) (port : UInt64) (walk : Walk)
    (netstat : SigarNetStat) :
    walk.run (netStatPortWalker address port) (.ok netstat)
      = (netStatPortRows address port walk.rows netstat, walk.status) := by
  unfold Walk.run netStatPortRows
  rw [Visit.visit_eq_foldl isOk (netStatPortWalker address port) (fun _ _ => rfl), foldlM_eq_foldl]
  rfl

/-- **The rows of a walk for a port**: only those with the port count. -/
theorem netStatPortRows_spec (address : SigarNetAddress) (port : UInt64) :
    ∀ (rows : List SigarNetConnection) {netstat : SigarNetStat},
      (∀ i, netstat.tcpStates i ≤ intMax) →
      (FitsFrom netstat.tcpStates (rows.filter (touchesPort port)) →
        ∃ netstat', netStatPortRows address port rows netstat = .ok netstat' ∧
          ∀ i, netstat'.tcpStates i = netstat.tcpStates i
            + (rows.filter (touchesPort port)).countP (·.inState i)) ∧
      (¬ FitsFrom netstat.tcpStates (rows.filter (touchesPort port)) →
        ∃ fault, netStatPortRows address port rows netstat = .error fault) := by
  intro rows
  induction rows with
  | nil =>
    intro netstat hle
    refine ⟨fun _ => ⟨netstat, rfl, fun _ => rfl⟩, fun hfits => ?_⟩
    exact absurd ⟨fun _ h => absurd h not_mem_nil, hle⟩ hfits
  | cons conn rest ih =>
    intro netstat hle
    unfold netStatPortRows
    rw [foldlM_cons]
    cases htouches : touchesPort port conn with
    | false =>
      rw [netStatPortStep_passes address netstat htouches,
        filter_cons_of_neg (by rw [htouches]; decide)]
      exact ih hle
    | true =>
      rw [filter_cons_of_pos htouches, fitsFrom_cons]
      by_cases hrow : RowFitsIn netstat.tcpStates conn
      · obtain ⟨next, hnext, hstates⟩ := netStatPortStep_ok address htouches hrow
        have hnextle : ∀ i, next.tcpStates i ≤ intMax := hstates ▸ hrow.bump_le hle
        obtain ⟨hok, herror⟩ := ih hnextle
        rw [hstates] at hok herror
        rw [hnext]
        refine ⟨fun hfits => ?_, fun hfits => herror fun h => hfits ⟨hrow, h⟩⟩
        obtain ⟨netstat', hrun, hcount⟩ := hok hfits.2
        refine ⟨netstat', hrun, fun i => ?_⟩
        rw [hcount, countP_cons, bump]
        omega
      · obtain ⟨fault, hfault⟩ := netStatPortStep_error address htouches hrow
        rw [hfault]
        exact ⟨fun hfits => absurd hfits.1 hrow, fun _ => ⟨fault, rfl⟩⟩

/-! ## Accounting -/

/-- Every TCP row is in one state, if all states are indices. -/
theorem sum_countP_inState : ∀ {rows : List SigarNetConnection},
    (∀ conn ∈ rows, conn.type = .tcp → InRange conn.state) →
    ∑ i, rows.countP (·.inState i) = rows.countP fun conn => conn.type = .tcp := by
  intro rows
  induction rows with
  | nil =>
    intro _
    simp
  | cons conn rest ih =>
    intro hrange
    have hrest := ih fun c hc => hrange c (mem_cons_of_mem conn hc)
    have hone : ∑ i, (if conn.inState i then 1 else 0) = if conn.type = .tcp then 1 else 0 := by
      by_cases htcp : conn.type = .tcp
      · have hindex := inState_index htcp (hrange conn mem_cons_self htcp)
        simp [htcp, hindex]
      · have hout : ∀ i, conn.inState i = false := fun i => decide_eq_false fun h => htcp h.1
        simp [htcp, hout]
    simp only [countP_cons, Finset.sum_add_distrib, hrest, hone, decide_eq_true_eq]

theorem inboundCount_add_outbound (known : List UInt64) (rows : List SigarNetConnection) :
    inboundCount known rows + outboundCount known rows = rows.countP (·.isClient) := by
  have hall := clientCount_eq_countP (fun _ => true) rows known
  have hnone := clientCount_eq_countP (fun _ => false) rows known
  have hadd := clientCount_add (p := fun known conn => known.contains conn.localPort)
    (q := fun known conn => !known.contains conn.localPort) (r := fun _ _ => true)
    (t := fun _ _ => false) (fun known conn => by cases known.contains conn.localPort <;> rfl)
    rows known
  simp only [Bool.and_true, Bool.and_false, countP_false] at hall hnone
  unfold inboundCount outboundCount
  rw [hadd, hall, hnone]
  rfl

/-- The counters of `sigar_net_stat_get` account for every row. -/
def Accounts (rows : List SigarNetConnection) (netstat : SigarNetStat) : Prop :=
  ∑ i, netstat.tcpStates i = (rows.countP fun conn => conn.type = .tcp) ∧
  netstat.tcpInboundTotal.toNat + netstat.tcpOutboundTotal.toNat = rows.countP (·.isClient)

/-- No total of the walk reaches `2^32`. -/
def TotalsFit (known : List UInt64) (rows : List SigarNetConnection) : Prop :=
  inboundCount known rows < 4294967296 ∧ outboundCount known rows < 4294967296

theorem Tally.accounts_iff {handle : NetHandle} {rows : List SigarNetConnection}
    (htally : Tally known (statStart handle clock) rows run) (hfits : StatesFit rows) :
    Accounts rows run.netstat ↔ TotalsFit known rows := by
  have hstates : ∀ i, run.netstat.tcpStates i = rows.countP (·.inState i) :=
    fun i => (htally.states i).trans (Nat.zero_add _)
  have hin : run.netstat.tcpInboundTotal.toNat = inboundCount known rows % 4294967296 := by
    rw [htally.inbound]
    exact (congrArg UInt32.toNat (UInt32.zero_add _)).trans UInt32.toNat_ofNat'
  have hout : run.netstat.tcpOutboundTotal.toNat = outboundCount known rows % 4294967296 := by
    rw [htally.outbound]
    exact (congrArg UInt32.toNat (UInt32.zero_add _)).trans UInt32.toNat_ofNat'
  have hclients := inboundCount_add_outbound known rows
  unfold Accounts TotalsFit
  rw [hin, hout]
  simp only [hstates, sum_countP_inState hfits.1, true_and]
  omega

/-- The accounting of `sigar_net_stat_get`. -/
theorem sigarNetStatGet_accounts_iff {handle : NetHandle} (hr : Remembers handle known)
    (walk : Walk) (clock : Nat → Clock) :
    (∃ handle' netstat, sigarNetStatGet handle walk clock = .ok (handle', netstat, walk.status) ∧
      Accounts walk.rows netstat) ↔ StatesFit walk.rows ∧ TotalsFit known walk.rows := by
  by_cases hfits : StatesFit walk.rows
  · obtain ⟨run, hrun, htally⟩ := sigarNetStatGet_ok hr walk clock hfits
    rw [← htally.accounts_iff hfits]
    constructor
    · grind
    · grind
  · obtain ⟨fault, hfault⟩ := sigarNetStatGet_error hr walk clock hfits
    refine iff_of_false ?_ fun h => hfits h.1
    rintro ⟨handle', netstat, hget, _⟩
    rw [hfault] at hget
    cases hget

/-- The accounting of `sigar_net_stat_port_get`. -/
theorem sigarNetStatPortGet_accounts_iff (walk : Walk) (address : SigarNetAddress) (port : UInt64) :
    (∃ netstat, sigarNetStatPortGet walk address port = .ok (netstat, walk.status) ∧
      ∑ i, netstat.tcpStates i = walk.rows.countP (touchesPort port)) ↔
    StatesFit (walk.rows.filter (touchesPort port)) := by
  obtain ⟨hok, herror⟩ := netStatPortRows_spec address port walk.rows
    zero_le_intMax
  rw [fitsFrom_zero] at hok herror
  by_cases hfits : StatesFit (walk.rows.filter (touchesPort port))
  · obtain ⟨netstat, hrun, hcount⟩ := hok hfits
    refine iff_of_true ⟨netstat, ?_, ?_⟩ hfits
    · unfold sigarNetStatPortGet
      rw [run_netStatPortWalker, hrun]
      rfl
    · -- every row with the port is a TCP row
      have htcp : ∀ conn ∈ walk.rows.filter (touchesPort port),
          (decide (conn.type = .tcp)) = true := fun conn hconn =>
        decide_eq_true (of_decide_eq_true (mem_filter.mp hconn).2).1
      have hzero : ∀ i, SigarNetStat.zero.tcpStates i = 0 := fun _ => rfl
      simp only [hcount, hzero, Nat.zero_add]
      rw [sum_countP_inState hfits.1, countP_eq_length.mpr htcp, ← countP_eq_length_filter]
  · obtain ⟨fault, hfault⟩ := herror hfits
    refine iff_of_false ?_ hfits
    rintro ⟨netstat, hget, _⟩
    unfold sigarNetStatPortGet at hget
    rw [run_netStatPortWalker, hfault] at hget
    cases hget

/-- **Accounting.**  On a handle after any calls, every TCP row of a walk is counted once exactly
    when the states are indices into `tcp_states` and no counter reaches its limit; for a port,
    only the rows with the port matter. -/
theorem netStat_accounts_iff {calls : List NetCall} {handle : NetHandle}
    (hcalls : runCalls calls = .ok handle) (walk : Walk) (clock : Nat → Clock)
    (address : SigarNetAddress) (port : UInt64) :
    ((∃ handle' netstat, sigarNetStatGet handle walk clock = .ok (handle', netstat, walk.status) ∧
        Accounts walk.rows netstat) ↔
      StatesFit walk.rows ∧ TotalsFit (remembered calls) walk.rows) ∧
    ((∃ netstat, sigarNetStatPortGet walk address port = .ok (netstat, walk.status) ∧
        ∑ i, netstat.tcpStates i = walk.rows.countP (touchesPort port)) ↔
      StatesFit (walk.rows.filter (touchesPort port))) :=
  ⟨sigarNetStatGet_accounts_iff (runCalls_remembers hcalls) walk clock,
    sigarNetStatPortGet_accounts_iff walk address port⟩

theorem netStat_accounts_iff_example :
    ∃ handle' netstat, sigarNetStatGet ⟨none⟩ ⟨[tcpRow 80 0 10, tcpRow 80 5000 1], sigarOk⟩ stopped
        = .ok (handle', netstat, sigarOk) ∧
      Accounts [tcpRow 80 0 10, tcpRow 80 5000 1] netstat :=
  (@netStat_accounts_iff [] ⟨none⟩ rfl ⟨[tcpRow 80 0 10, tcpRow 80 5000 1], sigarOk⟩ stopped
    .unspec 80).1.mpr ⟨⟨by decide, by decide⟩, by decide, by decide⟩

/-- A line of /proc/net/tcp with the state `0E`. -/
def stateFourteen : NetTables :=
  { bothEighty with
    tcp := ⟨.ok ("sl\n 0: 00000000:0050 00000000:1388 0E 00000000:00000000 "
      ++ "00:00000000 00000000 0 0 1").toList, []⟩
    tcp6 := ⟨.error enoent, []⟩ }

/-- The status of a result, or the fault. -/
def faultOf {α : Type} : Except StatFault α → Option StatFault
  | .ok _ => none
  | .error fault => some fault

/-- **A state of 14 is no index**: from a line of /proc/net/tcp, and from a Windows row in the state
    `MIB_TCP_STATE_DELETE_TCB`. -/
theorem unknownState_faults :
    faultOf (sigarNetStatGet ⟨none⟩ (linuxWalk 0x11 stateFourteen) stopped) = some .index ∧
    faultOf (sigarNetStatPortGet (linuxWalk 0x11 stateFourteen) .unspec 80) = some .index ∧
    faultOf (sigarNetStatGet ⟨none⟩
      (Win32.win32Walk 0x11 .zero (.ok [⟨12, 0, 0x5000, 0, 0x8813⟩])) stopped) = some .index ∧
    faultOf (sigarNetStatPortGet
      (Win32.win32Walk 0x11 .zero (.ok [⟨12, 0, 0x5000, 0, 0x8813⟩])) .unspec 80)
        = some .index := by
  decide +kernel

end Sigar.Net
