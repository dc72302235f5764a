/-
  Connections and their walkers, from `include/sigar.h`.

  A platform's `sigar_net_connection_walk` hands every connection it finds to the `add_connection`
  of a walker.  The walker's `data` is explicit state here, and `SIGAR_OK` asks for more.

  1. **Addresses and connections**, as the header declares them.
  2. **Walks**: a `Walk` is what a callback that never stops is handed.  What is proved about the
     counters and the listening ports is about ANY walk; `sigarNetConnectionWalk_run` says that those
     of Linux and Win32 are walks.
-/
import Sigar.Base
import Sigar.Lib.Visit

namespace Sigar.Net

/-! ## Addresses -/

/-- `sigar_net_address_t`: the family says which member of the union is in use. -/
inductive SigarNetAddress where
  | unspec
  | inet (addr : UInt32)
  | inet6 (a b c d : UInt32)
  | link (mac : List UInt8)
  deriving DecidableEq

/-- Whether `sigar_net_address_equals` returns `SIGAR_OK`; without a family it is `EINVAL`. -/
def sigarNetAddressEquals (addr1 addr2 : SigarNetAddress) : Bool :=
  addr1 ≠ .unspec ∧ addr1 = addr2

/-! ## Connections -/

/-- `SIGAR_NETCONN_TCP`, `SIGAR_NETCONN_UDP` and `SIGAR_NETCONN_RAW`. -/
inductive NetconnType where
  | tcp | udp | raw
  deriving DecidableEq

/-- The bit of a type in the flags of a walker. -/
def NetconnType.flag : NetconnType → Int32
  | .tcp => 0x10
  | .udp => 0x20
  | .raw => 0x40

/-- `SIGAR_NETCONN_CLIENT`. -/
def sigarNetconnClient : Int32 := 0x01
/-- `SIGAR_NETCONN_SERVER`. -/
def sigarNetconnServer : Int32 := 0x02

/-- `SIGAR_TCP_LISTEN`. -/
def sigarTcpListen : Int32 := 10
/-- `SIGAR_TCP_UNKNOWN`, the last of the `SIGAR_TCP_*`. -/
def sigarTcpUnknown : Int32 := 14

/-- `sigar_net_connection_t`.  A `pid` of `none` is one that was NEVER WRITTEN. -/
structure SigarNetConnection where
  localPort : UInt64
  localAddress : SigarNetAddress
  remotePort : UInt64
  remoteAddress : SigarNetAddress
  uid : UInt32
  inode : UInt64
  type : NetconnType
  state : Int32
  sendQueue : UInt64
  receiveQueue : UInt64
  pid : Option SigarPid
  deriving DecidableEq

/-- A connection that `SIGAR_ZERO` has cleared. -/
def SigarNetConnection.zero : SigarNetConnection where
  localPort := 0
  localAddress := .unspec
  remotePort := 0
  remoteAddress := .unspec
  uid := 0
  inode := 0
  type := .tcp
  state := 0
  sendQueue := 0
  receiveQueue := 0
  pid := some 0

/-- The `add_connection` of a walker. -/
abbrev AddConnection (σ : Type) := σ → SigarNetConnection → σ × Status

/-- The answer that asks a walk for more. -/
def isOk (status : Status) : Bool := status = sigarOk

theorem isOk_iff {status : Status} : isOk status = true ↔ status = sigarOk := decide_eq_true_iff

/-- What a walk hands to a callback that never stops, and the status it returns. -/
structure Walk where
  rows : List SigarNetConnection
  status : Status

/-- `sigar_net_connection_walk`, for such a callback. -/
def Walk.run {σ : Type} (walk : Walk) (addConnection : AddConnection σ) (data : σ) : σ × Status :=
  ((Visit.visit isOk addConnection walk.rows data).1, walk.status)

end Sigar.Net
