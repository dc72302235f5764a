/-
  Walking over the connections of a Windows host.

  Source: `net_conn_get_tcp`, `net_conn_get_udp` and `sigar_net_connection_walk` of
  `os/win32/win32_sigar.c`.

  The table of `GetTcpTable` is walked from its end, "to get LISTEN states first".  A state that
  the code does not know, and one that it does (`MIB_TCP_STATE_DELETE_TCB`), becomes
  `SIGAR_TCP_UNKNOWN`.
-/
import Sigar.Net.Connection

namespace Sigar.Net.Win32

open Visit

/-- `MIB_TCPROW`. -/
structure MibTcpRow where
  dwState : UInt32
  dwLocalAddr : UInt32
  dwLocalPort : UInt32
  dwRemoteAddr : UInt32
  dwRemotePort : UInt32

/-- `MIB_TCP_STATE_LISTEN`. -/
def mibTcpStateListen : UInt32 := 2

/-- The switch over the `MIB_TCP_STATE_*`. -/
def tcpState (state : UInt32) : Int32 :=
  match state.toNat with
  | 1 => 7   -- CLOSED
  | 2 => 10  -- LISTEN
  | 3 => 2   -- SYN_SENT
  | 4 => 3   -- SYN_RCVD
  | 5 => 1   -- ESTAB
  | 6 => 4   -- FIN_WAIT1
  | 7 => 5   -- FIN_WAIT2
  | 8 => 8   -- CLOSE_WAIT
  | 9 => 11  -- CLOSING
  | 10 => 9  -- LAST_ACK
  | 11 => 6  -- TIME_WAIT
  | _ => sigarTcpUnknown

/-- `htons((WORD)port)` on a little-endian host. -/
def htons (port : UInt32) : UInt64 :=
  let word := port.toNat % 65536
  UInt64.ofNat (word % 256 * 256 + word / 256)

/-- The body of the loop, up to the callback; `frame` is what `conn` holds in the fields that are
    not written. -/
def netConnTcpRow (flags : Int32) (frame : SigarNetConnection) (row : MibTcpRow) :
    Option SigarNetConnection :=
  if ¬ (flags &&& sigarNetconnServer ≠ 0 ∧ row.dwState = mibTcpStateListen ∨
        flags &&& sigarNetconnClient ≠ 0 ∧ row.dwState ≠ mibTcpStateListen) then none
  else some { frame with
    localPort := htons row.dwLocalPort
    localAddress := .inet row.dwLocalAddr
    remotePort := htons row.dwRemotePort
    remoteAddress := .inet row.dwRemoteAddr
    type := .tcp
    state := tcpState row.dwState
    sendQueue := 4294967295  -- `SIGAR_FIELD_NOTIMPL` in an `unsigned long` of 32 bits
    receiveQueue := 4294967295 }

/-- The rows that a table delivers. -/
def tcpRows (flags : Int32) (frame : SigarNetConnection) (table : List MibTcpRow) :
    List SigarNetConnection :=
  table.reverse.filterMap (netConnTcpRow flags frame)

section Walk

variable {σ : Type} (addConnection : AddConnection σ) (flags : Int32) (frame : SigarNetConnection)

/-- `net_conn_get_tcp`; `table` is what `GetTcpTable` returns, or the status of its failure. -/
def netConnGetTcp (table : Except Status (List MibTcpRow)) (data : σ) : σ × Status :=
  match table with
  | .error status => (data, status)
  | .ok table => ((visit isOk addConnection (tcpRows flags frame table) data).1, sigarOk)

/-- `sigar_net_connection_walk`; `net_conn_get_udp` returns `SIGAR_ENOTIMPL`. -/
def sigarNetConnectionWalk (table : Except Status (List MibTcpRow)) (data : σ) : σ × Status :=
  let (data, status) :=
    if flags &&& NetconnType.tcp.flag ≠ 0 then netConnGetTcp addConnection flags frame table data
    else (data, sigarOk)
  if status ≠ sigarOk then (data, status)
  else if flags &&& NetconnType.udp.flag ≠ 0 then (data, sigarEnotimpl)
  else (data, sigarOk)

/-- What a walk over this table delivers. -/
def win32Walk (table : Except Status (List MibTcpRow)) : Walk where
  rows := if flags &&& NetconnType.tcp.flag ≠ 0 then
      match table with
      | .error _ => []
      | .ok table => tcpRows flags frame table
    else []
  status := (sigarNetConnectionWalk (fun (_ : Unit) _ => ((), sigarOk)) flags frame table ()).2

theorem sigarNetConnectionWalk_run (table : Except Status (List MibTcpRow)) (data : σ) :
    sigarNetConnectionWalk addConnection flags frame table data
      = (win32Walk flags frame table).run addConnection data := by
  unfold Walk.run win32Walk sigarNetConnectionWalk
  by_cases htcp : flags &&& NetconnType.tcp.flag ≠ 0
  · rw [if_pos htcp, if_pos htcp, if_pos htcp]
    cases table with
    | error status =>
      unfold netConnGetTcp
      dsimp only
      by_cases hstatus : status = sigarOk
      · rw [if_neg (not_not_intro hstatus), if_neg (not_not_intro hstatus)]
        split
        · rfl
        · rfl
      · rw [if_pos hstatus, if_pos hstatus]
        rfl
    | ok table => grind [netConnGetTcp]
  · rw [if_neg htcp, if_neg htcp, if_neg htcp]
    dsimp only
    rw [if_neg (not_not_intro rfl), if_neg (not_not_intro rfl)]
    split
    · rfl
    · rfl

end Walk

end Sigar.Net.Win32
