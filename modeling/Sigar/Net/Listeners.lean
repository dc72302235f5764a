/-
  The listening sockets of a Linux host and their processes.

  Source: `sigar_net_connection_listeners_get` and `sigar_proc_port_get` of
  `os/linux/linux_sigar.c`.

  1. **Program** — for every listener, the process is looked up BY ITS PORT: a second walk ends at
     some row for that port, and the first process with ANY descriptor of that row's inode number
     is the owner.
  2. **Specification** — `HoldsSocket`: a process holds a socket with the inode of the listener.
  3. **Correctness** — `listeners_owned_iff`: the pids are right exactly when, row by row, the
     process found by number also holds the row's own socket.
-/
import Sigar.Net.Linux

namespace Sigar.Net

open CString List

variable {tables : NetTables} {row looked : SigarNetConnection}

/-! ## The processes -/

/-- The kind of an open file. -/
inductive FileKind where
  | socket | regular | directory | pipe | device
  deriving DecidableEq

/-- The `struct stat` of a descriptor. -/
structure FdStat where
  kind : FileKind
  ino : UInt64
  deriving DecidableEq

/-- An entry of /proc/<pid>/fd; `none` if `stat` fails. -/
structure FdEntry where
  name : Text
  stat : Option FdStat
  deriving DecidableEq

/-- An entry of /proc, with whether `stat` works and what `opendir` makes of its `fd`. -/
structure ProcEntry where
  name : Text
  statOk : Bool
  fds : Option (List FdEntry)
  deriving DecidableEq

/-- `strtoul(ent->d_name, NULL, 10)` as a pid. -/
def ProcEntry.pid (ent : ProcEntry) : SigarPid := (strtoull ent.name).value.toUInt32.toInt32

/-- `sigar_isdigit(*ent->d_name)`. -/
def startsWithDigit (name : Text) : Bool := (deref name).isDigit

/-- The test of a descriptor in the inner loop. -/
def FdEntry.numbered (inode : UInt64) (fd : FdEntry) : Bool :=
  startsWithDigit fd.name && fd.stat.any fun sb => sb.ino == inode

/-- The body of the outer loop: whether one of the descriptors has the inode number. -/
def ProcEntry.numbered (inode : UInt64) (ent : ProcEntry) : Bool :=
  startsWithDigit ent.name && ent.statOk && ent.fds.any fun fds => fds.any (·.numbered inode)

/-- `sigar_proc_port_get`: the status, and what it leaves in `*pid`. -/
def sigarProcPortGet (tables : NetTables) (proc : Except Status (List ProcEntry))
    (protocol : Int32) (port : UInt64) : Status × SigarPid :=
  let (netconn, status) :=
    sigarNetConnectionGet tables .zero port (sigarNetconnServer ||| protocol)
  if status ≠ sigarOk then (status, 0)
  else if netconn.localPort ≠ port then (sigarOk, 0)
  else match proc with
    | .error errno => (errno, 0)
    | .ok entries =>
      match entries.find? (·.numbered netconn.inode) with
      | some ent => (sigarOk, ent.pid)
      | none => (sigarOk, 0)

/-- `SIGAR_NETCONN_UDP | SIGAR_NETCONN_TCP | SIGAR_NETCONN_SERVER`. -/
def listenerFlags : Int32 := NetconnType.udp.flag ||| NetconnType.tcp.flag ||| sigarNetconnServer

/-- The body of the loop of `sigar_net_connection_listeners_get`. -/
def setOwner (tables : NetTables) (proc : Except Status (List ProcEntry))
    (conn : SigarNetConnection) : SigarNetConnection :=
  let (status, pid) :=
    sigarProcPortGet tables proc (NetconnType.tcp.flag ||| NetconnType.udp.flag) conn.localPort
  if status = sigarOk then { conn with pid := some pid } else conn

/-- `sigar_net_connection_listeners_get`. -/
def sigarNetConnectionListenersGet (tables : NetTables) (proc : Except Status (List ProcEntry)) :
    Except Status (List SigarNetConnection) :=
  match sigarNetConnectionListGet tables listenerFlags with
  | .error status => .error status
  | .ok connlist => .ok (connlist.map (setOwner tables proc))

/-! ## Specification -/

/-- The process `pid` holds an open socket with this inode. -/
def HoldsSocket (entries : List ProcEntry) (pid : SigarPid) (inode : UInt64) : Prop :=
  ∃ ent ∈ entries, startsWithDigit ent.name = true ∧ ent.pid = pid ∧
    ∃ fds ∈ ent.fds, ∃ fd ∈ fds, fd.stat = some ⟨.socket, inode⟩

instance (entries : List ProcEntry) (pid : SigarPid) (inode : UInt64) :
    Decidable (HoldsSocket entries pid inode) :=
  inferInstanceAs (Decidable (∃ ent ∈ entries, _ ∧ _ ∧ ∃ fds ∈ ent.fds, ∃ fd ∈ fds, _))

/-- A listener whose pid was never written, or is not zero, has that process as its owner. -/
def Owned (proc : Except Status (List ProcEntry)) (conn : SigarNetConnection) : Prop :=
  conn.pid ≠ some 0 →
    ∃ pid entries, conn.pid = some pid ∧ proc = .ok entries ∧ HoldsSocket entries pid conn.inode

/-- The lookup by the port of a row ends at a row whose inode number leads to a process that holds
    the socket of the first row. -/
def RowFits (tables : NetTables) (proc : Except Status (List ProcEntry))
    (row : SigarNetConnection) : Prop :=
  match proc with
  | .error errno => errno = sigarOk  -- no error has this number
  | .ok entries =>
    ∀ looked ∈ (firstOpens listenerFlags tables row.localPort).getLast?,
      ∀ ent ∈ entries.find? (·.numbered looked.inode), ent.pid ≠ 0 →
        HoldsSocket entries ent.pid row.inode

/-! ## The list of listeners -/

/-- `proc_net_walker` with a list. -/
def appendRow (rows : List SigarNetConnection) (conn : SigarNetConnection) :
    List SigarNetConnection × Status :=
  (rows ++ [conn], sigarOk)

theorem foldl_appendRow : ∀ conns rows : List SigarNetConnection,
    conns.foldl (fun rows conn => (appendRow rows conn).1) rows = rows ++ conns := by
  intro conns
  induction conns with
  | nil => intro rows; exact (append_nil rows).symm
  | cons conn conns ih =>
    intro rows
    rw [foldl_cons, ih]
    exact append_assoc rows [conn] conns

/-- The list is the whole walk. -/
theorem sigarNetConnectionListGet_eq (tables : NetTables) (flags : Int32) :
    sigarNetConnectionListGet tables flags
      = if (filesRead flags tables).2 ≠ sigarOk then .error (filesRead flags tables).2
        else .ok (walkOrder flags tables) := by
  have hembed : Visit.visitAll isOk procNetWalker (filesRead flags tables).1 ⟨some [], none, 0⟩
      = ⟨some (Visit.visitAll isOk appendRow (filesRead flags tables).1 []), none, 0⟩ :=
    Visit.visitAll_embed (e := fun rows => (⟨some rows, none, 0⟩ : NetConnGetter))
      (fun _ _ => rfl) (filesRead flags tables).1 []
  unfold sigarNetConnectionListGet
  rw [sigarNetConnectionWalk_eq]
  dsimp only
  rw [hembed, Visit.visitAll_eq_foldl isOk appendRow (fun _ _ => rfl), foldl_appendRow]
  rfl

/-- Without `SIGAR_NETCONN_CLIENT` every row is open to any peer. -/
theorem procNetParse_remotePort {flags : Int32} (hclient : flags &&& sigarNetconnClient = 0)
    {type : NetconnType} {buffer : Text} {conn : SigarNetConnection}
    (h : procNetParse flags type buffer = some conn) : conn.remotePort = 0 := by
  grind [Option.some.inj, procNetParse]

/-! ## The lookup of a listener -/

theorem listener_remotePort (tables : NetTables) :
    ∀ row ∈ walkOrder listenerFlags tables, row.remotePort = 0 :=
  walkOrder_forall (fun _ _ _ h => procNetParse_remotePort (by decide) h) tables

/-- The lookup of a listener's port finds a row: the listener's own is one. -/
theorem exists_looked (hrow : row ∈ walkOrder listenerFlags tables) :
    ∃ looked, (firstOpens listenerFlags tables row.localPort).getLast? = some looked ∧
      looked.localPort = row.localPort := by
  have hopens : opensPort row.localPort row = true :=
    decide_eq_true ⟨rfl, listener_remotePort tables row hrow⟩
  have hsome : ((walkOrder listenerFlags tables).find? (opensPort row.localPort)).isSome = true :=
    find?_isSome.mpr ⟨row, hrow, hopens⟩
  rw [find?_walkOrder] at hsome
  have hne : firstOpens listenerFlags tables row.localPort ≠ [] := by grind
  refine ⟨_, getLast?_eq_some_getLast hne, ?_⟩
  exact (of_decide_eq_true (mem_firstOpens (getLast_mem hne))).1.symm

/-- The process found by number. -/
def ownerByNumber (entries : List ProcEntry) (inode : UInt64) : SigarPid :=
  ((entries.find? (·.numbered inode)).map ProcEntry.pid).getD 0

theorem sigarProcPortGet_listener (hstatus : (filesRead listenerFlags tables).2 = sigarOk)
    (proc : Except Status (List ProcEntry))
    (hlooked : (firstOpens listenerFlags tables row.localPort).getLast? = some looked)
    (hport : looked.localPort = row.localPort) :
    sigarProcPortGet tables proc (NetconnType.tcp.flag ||| NetconnType.udp.flag) row.localPort
      = match proc with
        | .error errno => (errno, 0)
        | .ok entries => (sigarOk, ownerByNumber entries looked.inode) := by
  have hflags : sigarNetconnServer ||| (NetconnType.tcp.flag ||| NetconnType.udp.flag)
      = listenerFlags := by decide
  unfold sigarProcPortGet ownerByNumber
  rw [hflags, sigarNetConnectionGet_eq, hlooked]
  dsimp only [Option.getD_some]
  rw [if_neg (not_not_intro hstatus), if_neg (not_not_intro hport)]
  cases proc with
  | error errno => rfl
  | ok entries => grind

theorem setOwner_inode (tables : NetTables) (proc : Except Status (List ProcEntry))
    (row : SigarNetConnection) : (setOwner tables proc row).inode = row.inode := by
  unfold setOwner
  dsimp only
  split
  · rfl
  · rfl

theorem setOwner_pid_ok (hstatus : (filesRead listenerFlags tables).2 = sigarOk)
    (entries : List ProcEntry)
    (hlooked : (firstOpens listenerFlags tables row.localPort).getLast? = some looked)
    (hport : looked.localPort = row.localPort) :
    (setOwner tables (.ok entries) row).pid = some (ownerByNumber entries looked.inode) := by
  grind [sigarProcPortGet_listener, setOwner]

theorem setOwner_pid_error (hstatus : (filesRead listenerFlags tables).2 = sigarOk) (errno : Status)
    (hlooked : (firstOpens listenerFlags tables row.localPort).getLast? = some looked)
    (hport : looked.localPort = row.localPort) :
    (setOwner tables (.error errno) row).pid = if errno = sigarOk then some 0 else row.pid := by
  grind [sigarProcPortGet_listener, setOwner]

/-- `proc_net_read` writes no pid. -/
theorem listener_pid (tables : NetTables) :
    ∀ row ∈ walkOrder listenerFlags tables, row.pid = none := by
  refine walkOrder_forall (fun type buffer conn h => ?_) tables
  unfold procNetParse at h
  dsimp only at h
  split at h
  · cases h
  · rw [← Option.some.inj h]

/-- One listener. -/
theorem owned_setOwner_iff (hstatus : (filesRead listenerFlags tables).2 = sigarOk)
    (proc : Except Status (List ProcEntry)) (hrow : row ∈ walkOrder listenerFlags tables) :
    Owned proc (setOwner tables proc row) ↔ RowFits tables proc row := by
  obtain ⟨looked, hlooked, hport⟩ := exists_looked hrow
  unfold Owned RowFits
  rw [setOwner_inode]
  cases proc with
  | error errno => grind [setOwner_pid_error, listener_pid]
  | ok entries =>
    rw [setOwner_pid_ok hstatus entries hlooked hport, hlooked]
    unfold ownerByNumber
    dsimp only
    cases hfind : entries.find? (·.numbered looked.inode) with
    | none => simp [Option.some.inj, hfind]
    | some owner => grind [Option.some.inj]

/-- **The pids of the listeners.**  After a success, every listener with a pid is owned by that
    process exactly when every row of the walk fits. -/
theorem listeners_owned_iff {tables : NetTables} {proc : Except Status (List ProcEntry)}
    {connlist : List SigarNetConnection}
    (hget : sigarNetConnectionListenersGet tables proc = .ok connlist) :
    (∀ conn ∈ connlist, Owned proc conn) ↔
      ∀ row ∈ walkOrder listenerFlags tables, RowFits tables proc row := by
  unfold sigarNetConnectionListenersGet at hget
  rw [sigarNetConnectionListGet_eq] at hget
  by_cases hstatus : (filesRead listenerFlags tables).2 = sigarOk
  · rw [if_neg (not_not_intro hstatus)] at hget
    rw [← Except.ok.inj hget, forall_mem_map]
    exact forall₂_congr fun row hrow => owned_setOwner_iff hstatus proc hrow
  · rw [if_pos hstatus] at hget
    cases hget

/-- The process 7 with the socket 1, and the process 9 with the socket 2. -/
def twoServers : List ProcEntry :=
  [⟨['7'], true, some [⟨['3'], some ⟨.socket, 1⟩⟩]⟩, ⟨['9'], true, some [⟨['3'], some ⟨.socket, 2⟩⟩]⟩]

/-- Port 80 over IPv4 only. -/
def oneEighty : NetTables := { bothEighty with tcp6 := ⟨.error enoent, []⟩ }

/-- The row of port 80. -/
def rowEighty (address : SigarNetAddress) (inode : UInt64) (pid : Option SigarPid) :
    SigarNetConnection where
  localPort := 80
  localAddress := address
  remotePort := 0
  remoteAddress := address
  uid := 0
  inode := inode
  type := .tcp
  state := sigarTcpListen
  sendQueue := 0
  receiveQueue := 0
  pid := pid

/-- Port 80 over IPv4 (inode 1) and port 443 over IPv6 (inode 2). -/
def twoPorts : NetTables :=
  { bothEighty with
    tcp6 := ⟨.ok ("sl\n 0: 00000000000000000000000000000000:01BB 00000000000000000000000000000000:0000 "
      ++ "0A 00000000:00000000 00:00000000 00000000 0 0 2").toList, []⟩ }

/-- Every port has one listener, and both get their owners. -/
theorem listeners_owned_iff_example :
    sigarNetConnectionListenersGet twoPorts (.ok twoServers)
      = .ok [rowEighty (.inet 0) 1 (some 7),
          { rowEighty (.inet6 0 0 0 0) 2 (some 9) with localPort := 443 }] ∧
    ∀ conn ∈ [rowEighty (.inet 0) 1 (some 7),
        { rowEighty (.inet6 0 0 0 0) 2 (some 9) with localPort := 443 }],
      Owned (.ok twoServers) conn := by
  have hget : sigarNetConnectionListenersGet twoPorts (.ok twoServers)
      = .ok [rowEighty (.inet 0) 1 (some 7),
          { rowEighty (.inet6 0 0 0 0) 2 (some 9) with localPort := 443 }] := by decide +kernel
  refine ⟨hget, (listeners_owned_iff hget).mpr ?_⟩
  unfold RowFits
  decide +kernel

/-- **The IPv4 listener of the process 7 is given to the process 9**, which holds the IPv6 one. -/
theorem bothEighty_wrongOwner :
    sigarNetConnectionListenersGet bothEighty (.ok twoServers)
      = .ok [rowEighty (.inet 0) 1 (some 9), rowEighty (.inet6 0 0 0 0) 2 (some 9)] ∧
    ¬ HoldsSocket twoServers 9 1 ∧ HoldsSocket twoServers 7 1 := by
  decide +kernel

end Sigar.Net
