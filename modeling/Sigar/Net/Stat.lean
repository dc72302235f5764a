/-
  Counting connections by state and direction.

  Source: `net_stat_walker`, `sigar_net_stat_get`, `sigar_net_listen_address_add`,
  `sigar_net_listen_address_get`, `net_stat_port_walker` and `sigar_net_stat_port_get` of
  `sigar.c`.

  A connection is inbound if its local port is in `net_listen`, a cache of ports that the SAME walk
  fills and that no call ever empties.  The state indexes an array of `SIGAR_TCP_UNKNOWN` counters,
  unchecked: an index out of the array, or an `int` that overflows, is a fault here.  What the
  counters come to is said in `Sigar.Net.Accounting`.

  The counters of the walk of `sigar_net_listen_address_get` are in a variable that nothing reads.
  So the walk is written for any way to count (`Count`): `countState` stops where a counter
  overflows, `countWrapping` goes on, as the machine does.
-/
import Sigar.Util
import Sigar.Cache.Permanent
import Sigar.Net.Connection

namespace Sigar.Net

open Cache

/-! ## The counters -/

/-- `sigar_net_stat_t`; the counters of `tcp_states` are of type `int`. -/
structure SigarNetStat where
  tcpStates : Fin 14 → Nat
  tcpInboundTotal : UInt32
  tcpOutboundTotal : UInt32
  allInboundTotal : UInt32
  allOutboundTotal : UInt32

/-- `SIGAR_ZERO(netstat)`. -/
def SigarNetStat.zero : SigarNetStat := ⟨fun _ => 0, 0, 0, 0, 0⟩

/-- Where the walkers leave the defined behaviour of C. -/
inductive StatFault where
  | index     -- `tcp_states[state]` outside of the array
  | overflow  -- `tcp_states[state]++` at `INT_MAX`
  deriving DecidableEq

/-- A state that is an index into `tcp_states`. -/
def InRange (state : Int32) : Prop := 0 ≤ state.toInt ∧ state.toInt < 14

instance (state : Int32) : Decidable (InRange state) :=
  inferInstanceAs (Decidable (0 ≤ state.toInt ∧ state.toInt < 14))

/-- The index. -/
def InRange.index {state : Int32} (h : InRange state) : Fin 14 :=
  ⟨state.toInt.toNat, by unfold InRange at h; omega⟩

/-- `tcp_states[state]++`. -/
abbrev Count := (Fin 14 → Nat) → Int32 → Except StatFault (Fin 14 → Nat)

/-- As C defines it. -/
def countState : Count := fun states state =>
  if h : InRange state then
    if intMax ≤ states h.index then .error .overflow
    else .ok fun i => if i = h.index then states i + 1 else states i
  else .error .index

/-- With `int`s that wrap around, as patterns of 32 bits. -/
def countWrapping : Count := fun states state =>
  if h : InRange state then
    .ok fun i => if i = h.index then (states i + 1) % 4294967296 else states i
  else .error .index

/-! ## `sigar_net_stat_get` -/

/-- The part of the handle that the counting uses. -/
structure NetHandle where
  netListen : Option (SigarCache SigarNetAddress)

/-- What the walker works on: the counters and `net_listen`, and the number of clock readings that
    the cache has made so far. -/
structure StatRun where
  netstat : SigarNetStat
  listenPorts : SigarCache SigarNetAddress
  readings : Nat

/-- Whether the family is `SIGAR_AF_INET6`. -/
def SigarNetAddress.isInet6 : SigarNetAddress → Bool
  | .inet6 _ _ _ _ => true
  | _ => false

/-- `sigar_net_listen_address_add`. -/
def sigarNetListenAddressAdd (listenPorts : SigarCache SigarNetAddress) (conn : SigarNetConnection)
    (clock : Clock) : SigarCache SigarNetAddress :=
  let (listenPorts, entry) := sigarCacheGet listenPorts conn.localPort clock
  if entry.value.isSome ∧ conn.localAddress.isInet6 then listenPorts  -- prefer ipv4
  else storeValue listenPorts entry.addr (some conn.localAddress)

/-- The end of the walker: the totals of all types are those of TCP. -/
def SigarNetStat.copyTotals (netstat : SigarNetStat) : SigarNetStat :=
  { netstat with
    allInboundTotal := netstat.tcpInboundTotal
    allOutboundTotal := netstat.tcpOutboundTotal }

/-- The counter of a direction. -/
def SigarNetStat.direction (netstat : SigarNetStat) (inbound : Bool) : SigarNetStat :=
  if inbound then { netstat with tcpInboundTotal := netstat.tcpInboundTotal + 1 }
  else { netstat with tcpOutboundTotal := netstat.tcpOutboundTotal + 1 }

/-- The body of `net_stat_walker`; `clock n` is the `n`-th reading of the clock. -/
def netStatStepWith (count : Count) (clock : Nat → Clock) (run : StatRun)
    (conn : SigarNetConnection) : Except StatFault StatRun :=
  if conn.type = .tcp then
    match count run.netstat.tcpStates conn.state with
    | .error fault => .error fault
    | .ok states =>
      let netstat := { run.netstat with tcpStates := states }
      if conn.state = sigarTcpListen then
        .ok { netstat := netstat.copyTotals
              listenPorts := sigarNetListenAddressAdd run.listenPorts conn (clock run.readings)
              readings := run.readings + 1 }
      else
        let found := sigarCacheFind run.listenPorts conn.localPort (clock run.readings)
        .ok { netstat := (netstat.direction found.2.isSome).copyTotals
              listenPorts := found.1
              readings := run.readings + 1 }
  else .ok { run with netstat := run.netstat.copyTotals }

/-- `net_stat_walker`: it never stops a walk. -/
def netStatWalkerWith (count : Count) (clock : Nat → Clock) :
    AddConnection (Except StatFault StatRun) :=
  fun data conn => (data.bind fun run => netStatStepWith count clock run conn, sigarOk)

/-- What the walk of `sigar_net_stat_get` starts with: `net_listen` is created by the first call. -/
def statStart (handle : NetHandle) (clock : Nat → Clock) : StatRun where
  netstat := .zero
  listenPorts := handle.netListen.getD (sigarCacheNew SigarNetAddress 32 (clock 0).access)
  readings := 1

/-- `sigar_net_stat_get`: the handle, the counters and the status. -/
def sigarNetStatGetWith (count : Count) (handle : NetHandle) (walk : Walk) (clock : Nat → Clock) :
    Except StatFault (NetHandle × SigarNetStat × Status) :=
  let (data, status) := walk.run (netStatWalkerWith count clock) (.ok (statStart handle clock))
  data.map fun run => (⟨some run.listenPorts⟩, run.netstat, status)

@[inherit_doc sigarNetStatGetWith] abbrev sigarNetStatGet := sigarNetStatGetWith countState

/-! ## `sigar_net_listen_address_get` -/

/-- `sigar->net_listen && sigar_cache_find(sigar->net_listen, port)`. -/
def NetHandle.findPort (handle : NetHandle) (port : UInt64) (clock : Clock) : NetHandle × Bool :=
  match handle.netListen with
  | none => (handle, false)
  | some listenPorts =>
    let found := sigarCacheFind listenPorts port clock
    (⟨some found.1⟩, found.2.isSome)

/-- The second half, after the port was found or a walk was made. -/
def NetHandle.addressOf (handle : NetHandle) (port : UInt64) (clock : Nat → Clock) :
    NetHandle × Status × Option SigarNetAddress :=
  match handle.netListen with
  | none => (handle, enoent, none)
  | some listenPorts =>
    let found := sigarCacheFind listenPorts port (clock 1)
    if found.2.isSome then
      let got := sigarCacheGet found.1 port (clock 2)
      (⟨some got.1⟩, sigarOk, got.2.value)
    else (⟨some found.1⟩, enoent, none)

/-- `sigar_net_listen_address_get`; `walk` is what a walk with `SIGAR_NETCONN_SERVER` and
    `SIGAR_NETCONN_TCP` delivers, IF the port is not known. -/
def sigarNetListenAddressGetWith (count : Count) (handle : NetHandle) (port : UInt64) (walk : Walk)
    (clock statClock : Nat → Clock) :
    Except StatFault (NetHandle × Status × Option SigarNetAddress) :=
  let (handle, known) := handle.findPort port (clock 0)
  if known then .ok (handle.addressOf port clock)
  else match sigarNetStatGetWith count handle walk statClock with
    | .error fault => .error fault
    | .ok (handle, _, status) =>
      if status ≠ sigarOk then .ok (handle, status, none)
      else .ok (handle.addressOf port clock)

@[inherit_doc sigarNetListenAddressGetWith]
abbrev sigarNetListenAddressGet := sigarNetListenAddressGetWith countState

/-! ## `sigar_net_stat_port_get` -/

/-- The body of `net_stat_port_walker`. -/
def netStatPortStep (address : SigarNetAddress) (port : UInt64) (netstat : SigarNetStat)
    (conn : SigarNetConnection) : Except StatFault SigarNetStat :=
  if conn.type = .tcp ∧ (conn.localPort = port ∨ conn.remotePort = port) then
    let netstat :=
      if conn.localPort = port then
        { netstat with
          allInboundTotal := netstat.allInboundTotal + 1
          tcpInboundTotal := netstat.tcpInboundTotal
            + if sigarNetAddressEquals address conn.localAddress then 1 else 0 }
      else
        { netstat with
          allOutboundTotal := netstat.allOutboundTotal + 1
          tcpOutboundTotal := netstat.tcpOutboundTotal
            + if sigarNetAddressEquals address conn.remoteAddress then 1 else 0 }
    match countState netstat.tcpStates conn.state with
    | .error fault => .error fault
    | .ok states => .ok { netstat with tcpStates := states }
  else .ok netstat

/-- `net_stat_port_walker`. -/
def netStatPortWalker (address : SigarNetAddress) (port : UInt64) :
    AddConnection (Except StatFault SigarNetStat) :=
  fun data conn => (data.bind fun netstat => netStatPortStep address port netstat conn, sigarOk)

/-- `sigar_net_stat_port_get`. -/
def sigarNetStatPortGet (walk : Walk) (address : SigarNetAddress) (port : UInt64) :
    Except StatFault (SigarNetStat × Status) :=
  let (data, status) := walk.run (netStatPortWalker address port) (.ok .zero)
  data.map fun netstat => (netstat, status)

/-! ## Runs of a handle -/

/-- The calls that use `net_listen`. -/
inductive NetCall where
  | stat (walk : Walk) (clock : Nat → Clock)
  | listenAddress (port : UInt64) (walk : Walk) (clock statClock : Nat → Clock)

/-- What a call leaves in the handle. -/
def netCallWith (count : Count) (handle : NetHandle) : NetCall → Except StatFault NetHandle
  | .stat walk clock => (sigarNetStatGetWith count handle walk clock).map (·.1)
  | .listenAddress port walk clock statClock =>
    (sigarNetListenAddressGetWith count handle port walk clock statClock).map (·.1)

/-- What a list of calls leaves in a new handle. -/
def runCalls (calls : List NetCall) : Except StatFault NetHandle :=
  calls.foldlM (netCallWith countState) ⟨none⟩

end Sigar.Net
