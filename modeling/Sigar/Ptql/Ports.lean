/-
  `Port.tcp.eq=<n>` and `Port.udp.eq=<n>`.

  The process that listens on a port, as `sigar_proc_port_get` reports it.

  1. **The branch** — any integer of 64 bits is accepted and its low 32 bits are the port; `udp`
     sets the flag of `tcp`, so the protocol of the query is lost (`portBranch_of_built`).
  2. **The selection** — the pids of the table are compared with what the TCP lookup leaves in
     `*pid`, which is 0 where no process was found (`sigarPtqlQueryFind_port`).
  3. **When it is right** — `PortFits`, and `portQuery_iff`.
-/
import Sigar.Ptql.Numbers
import Sigar.Ptql.PidBranch
import Sigar.Net.Listeners

namespace Sigar.Ptql

open CString Numerals Net List

/-- The protocol in a query. -/
def Proto.text : Proto → CStr
  | .tcp => "tcp".toList
  | .udp => "udp".toList

/-- `SIGAR_NETCONN_TCP` and `SIGAR_NETCONN_UDP`. -/
def Proto.flag : Proto → Int32
  | .tcp => NetconnType.tcp.flag
  | .udp => NetconnType.udp.flag

/-- `Port.<proto>.eq=<value>`. -/
def portText (proto : Proto) (value : CStr) : BranchText :=
  ⟨"Port".toList, proto.text, [], "eq".toList, value⟩

variable {libc : Libc} {world : World} {query : PtqlQuery} {branch : PtqlBranch} {proto : Proto}
  {value : CStr} {pids : List SigarPid} {tables : NetTables}
  {proc : Except Status (List ProcEntry)}

theorem portText_valid (proto : Proto) (hvalue : ',' ∉ value) : (portText proto value).Valid := by
  have hproto : Plain proto.text := by
    cases proto <;> decide
  exact ⟨(by decide : Plain "Port".toList), hproto, fun _ hc => absurd hc not_mem_nil,
    (by decide : "eq".toList ≠ []), (by decide : '=' ∉ "eq".toList),
    (by decide : ',' ∉ "eq".toList), (by decide : (deref "eq".toList).isUpper = false), hvalue⟩

/-! ## The branch -/

/-- What such a query consists of, for the integer `i` in its text. -/
structure PortBranch (i : Int) (branch : PtqlBranch) : Prop where
  filters : Filters .eq branch
  flags : branch.flags = .tcpPort
  data : dataUi32 branch = (UInt64.ofInt i).toUInt32

theorem portBranch_of_built {number : Nat}
    (hb : BuiltBranch libc (portText proto value).components number branch) :
    ∃ i, wholeInt value = some i ∧ PortBranch i branch := by
  have hservice : (portText proto value).components
      = ⟨"Port".toList, proto.text, "eq".toList, value, modifierFlags []⟩ :=
    if_neg fun h => absurd h.1 (by decide : "Port".toList ≠ "Pid".toList)
  rw [hservice] at hb
  have hclass : ∀ e ∈ ptqlMap, e.1 = "Port".toList → ∀ l ∈ e.2, l.init = some .port := by decide
  obtain ⟨members, hmem, hlookup⟩ := findLookup_class hb.found
  have hinit : branch.lookup.init = some .port := hclass (_, members) hmem rfl _ hlookup
  have hpid : branch.opFlags.pid = true := by
    rw [hb.pid, hinit]
    rfl
  have hop : branch.opName = .eq := (Option.some.inj hb.opCode).symm
  obtain ⟨htype, hget⟩ := hb.pid_lookup hpid
  obtain ⟨init, hrun, hflags, hdata⟩ := hb.init
  rw [hinit] at hrun
  have hport : ptqlBranchInitPort _ _ = .ok init := hrun
  have hproto : proto.text = "tcp".toList ∨ proto.text = "udp".toList := by
    cases proto
    · exact .inl rfl
    · exact .inr rfl
  have heq : (blankBranch branch.lookup branch.opName
      ⟨"Port".toList, proto.text, "eq".toList, value, modifierFlags []⟩).opName = .eq := hop
  rw [ptqlBranchInitPort, if_neg (not_not_intro heq), if_pos hproto] at hport
  dsimp only at hport
  split at hport
  · cases hport
  · next hnum =>
    obtain ⟨i, hwhole, -, hvalue⟩ := strtoull_accepted (Bool.eq_false_iff.mpr hnum)
    obtain rfl := Except.ok.inj hport
    refine ⟨i, hwhole, ⟨by rw [hop]; rfl, htype, hget, hpid, hb.parent⟩, hflags, ?_⟩
    rw [dataUi32, hdata, ← hvalue]

theorem portQuery_branches (hvalue : ',' ∉ value)
    (hcreate : sigarPtqlQueryCreate libc (portText proto value).render = .ok query) :
    ∃ i branch, wholeInt value = some i ∧ query.branches = [branch] ∧ PortBranch i branch := by
  have hservice : proto.text ≠ "Service".toList := by
    cases proto <;> decide
  obtain ⟨branch, hquery, hbuilt⟩ :=
    singleBranch (portText_valid proto hvalue) hservice hcreate
  obtain ⟨i, hwhole, hb⟩ := portBranch_of_built hbuilt
  exact ⟨i, branch, hwhole, hquery, hb⟩

/-! ## The selection -/

theorem ptqlOpUi64_eq_pid {p q : SigarPid} :
    ptqlOpUi64 .eq (pidToUInt64 p) (pidToUInt64 q) = decide (p = q) := by
  show decide (pidToUInt64 p = pidToUInt64 q) = decide (p = q)
  exact decide_eq_decide.mpr ⟨pidToUInt64_injective, congrArg pidToUInt64⟩

/-- **What the query finds** for a number that is a port: the processes with the pid that the TCP
    lookup has left. -/
theorem sigarPtqlQueryFind_port {n : Nat} (hn : n ≤ 65535) (hquery : query.branches = [branch])
    (hb : PortBranch n branch) (hlist : world.procList = (sigarOk, pids)) :
    (sigarPtqlQueryFind world query).res
      = .ok (query, sigarOk,
          if (world.port .tcp (UInt64.ofNat n)).1 = sigarOk then
            replicate (pids.count (world.port .tcp (UInt64.ofNat n)).2)
              (world.port .tcp (UInt64.ofNat n)).2
          else []) := by
  have hdata : (dataUi32 branch).toUInt64 = UInt64.ofNat n := by
    apply UInt64.toNat_inj.mp
    rw [hb.data, ofInt_natCast, UInt32.toNat_toUInt64, UInt64.toNat_toUInt32, UInt64.toNat_ofNat']
    omega
  have hget : ptqlPidGet world branch = world.port .tcp (UInt64.ofNat n) := by
    rw [ptqlPidGet, hb.flags, ← hdata]
  rw [sigarPtqlQueryFind_filters hquery hb.filters hlist]
  congr 3
  by_cases hok : (world.port .tcp (UInt64.ofNat n)).1 = sigarOk
  · rw [if_pos hok, ← filter_eq]
    congr 1
    funext p
    rw [selects, hget, hb.flags, hb.filters.cmp, Option.any_some, ptqlOpUi64_eq_pid, hok]
    rfl
  · simp [filter_eq_nil_iff, selects, hget, hok]

/-! ## When it is the right one -/

/-- The process that `sigar_proc_port_get` reports; there is no process 0. -/
def reportedPid (tables : NetTables) (proc : Except Status (List ProcEntry)) (proto : Proto)
    (port : Nat) : Option SigarPid :=
  let (status, pid) := sigarProcPortGet tables proc proto.flag (UInt64.ofNat port)
  if status = sigarOk ∧ pid ≠ 0 then some pid else none

/-- The value is a port number, and the query finds the process that is reported for it, or none. -/
def PortRight (world : World) (query : PtqlQuery) (tables : NetTables)
    (proc : Except Status (List ProcEntry)) (proto : Proto) (value : CStr) : Prop :=
  ∃ n : Nat, n ≤ 65535 ∧ wholeInt value = some (n : Int) ∧ ∃ last,
    (sigarPtqlQueryFind world query).res
      = .ok (last, sigarOk, (reportedPid tables proc proto n).toList)

/-- What the pids of the table and the two lookups have to be like: the process that is reported is
    the one of the TCP lookup, and is in the table once; and if none is reported, the table has no
    process with the pid of the TCP lookup, which is 0 if that has found none. -/
def PortFits (pids : List SigarPid) (tables : NetTables) (proc : Except Status (List ProcEntry))
    (proto : Proto) (n : Nat) : Prop :=
  let tcp := sigarProcPortGet tables proc Proto.tcp.flag (UInt64.ofNat n)
  match reportedPid tables proc proto n with
  | some pid => tcp = (sigarOk, pid) ∧ pids.count pid = 1
  | none => tcp.1 = sigarOk → tcp.2 ∉ pids

theorem replicate_eq_singleton_iff {α : Type} {k : Nat} {a b : α} :
    replicate k a = [b] ↔ a = b ∧ k = 1 := by grind [length_replicate, length_singleton]

theorem portFits_iff {n : Nat} {tcp : Status × SigarPid}
    (htcp : sigarProcPortGet tables proc Proto.tcp.flag (UInt64.ofNat n) = tcp) :
    (if tcp.1 = sigarOk then replicate (pids.count tcp.2) tcp.2 else [])
        = (reportedPid tables proc proto n).toList ↔ PortFits pids tables proc proto n := by
  obtain ⟨status, q⟩ := tcp
  rw [PortFits, htcp]
  cases reportedPid tables proc proto n with
  | some pid =>
    by_cases hok : status = sigarOk
    · simp only [hok, if_true, Option.toList_some, replicate_eq_singleton_iff, Prod.mk.injEq,
        true_and]
      constructor
      · grind
      · grind
    · simp [hok]
  | none =>
    by_cases hok : status = sigarOk
    · simp [hok, count_eq_zero]
    · simp [hok]

/-- **Ports.**  The query finds the process that is reported for its protocol and its port exactly
    if its value is a port number and the TCP lookup leads to that process. -/
theorem portQuery_iff (hvalue : ',' ∉ value)
    (hcreate : sigarPtqlQueryCreate libc (portText proto value).render = .ok query)
    (hport : ∀ proto port, world.port proto port = sigarProcPortGet tables proc proto.flag port)
    (hlist : world.procList = (sigarOk, pids)) :
    PortRight world query tables proc proto value ↔
      ∃ n : Nat, n ≤ 65535 ∧ wholeInt value = some (n : Int) ∧
        PortFits pids tables proc proto n := by
  obtain ⟨i, branch, hwhole, hquery, hb⟩ := portQuery_branches hvalue hcreate
  refine exists_congr fun n => and_congr_right fun hn => and_congr_right fun hnum => ?_
  obtain rfl : i = n := Option.some.inj (hwhole.symm.trans hnum)
  have hfind := sigarPtqlQueryFind_port hn hquery hb hlist
  rw [hport] at hfind
  rw [← portFits_iff rfl, hfind]
  constructor
  · rintro ⟨last, h⟩
    exact congrArg (fun r => r.2.2) (Except.ok.inj h)
  · intro h
    exact ⟨query, by rw [h]⟩

/-- The processes 7 and 9, and the listeners of a host. -/
def World.withPorts (tables : NetTables) : World :=
  { World.plain [7, 9] with
    port := fun proto port => sigarProcPortGet tables (.ok twoServers) proto.flag port }

/-- The process 7 listens on the TCP port 80. -/
theorem portQuery_iff_example :
    ∃ query, sigarPtqlQueryCreate .plain (portText .tcp "80".toList).render = .ok query ∧
      PortRight (.withPorts oneEighty) query oneEighty (.ok twoServers) .tcp "80".toList := by
  obtain ⟨query, hcreate, -⟩ :
      ∃ query, sigarPtqlQueryCreate .plain (portText .tcp "80".toList).render = .ok query ∧
        decide True = true :=
    accepted_of_test (by decide +kernel)
  have htcp : sigarProcPortGet oneEighty (.ok twoServers) Proto.tcp.flag (UInt64.ofNat 80)
      = (sigarOk, 7) := by decide +kernel
  have hreported : reportedPid oneEighty (.ok twoServers) .tcp 80 = some 7 := by decide +kernel
  refine ⟨query, hcreate, (portQuery_iff (by decide) hcreate (fun _ _ => rfl) rfl).mpr
    ⟨80, by decide, by decide, ?_⟩⟩
  rw [PortFits, hreported]
  exact ⟨htcp, by decide⟩

/-- The process 7 listens on the TCP port 80, and the process 9 on the UDP port. -/
def udpEighty : NetTables := { oneEighty with udp := portEighty "00000000" "2" }

/-- **The query for the UDP port finds the process of the TCP port**, and 2^32 + 80 is accepted and
    finds that of port 80. -/
theorem udpPort_findsTcp :
    (∃ query, sigarPtqlQueryCreate .plain (portText .udp "80".toList).render = .ok query ∧
      (sigarPtqlQueryFind (.withPorts udpEighty) query).res.toOption.map (·.2)
        = some (sigarOk, [7]) ∧
      reportedPid udpEighty (.ok twoServers) .udp 80 = some 9) ∧
    (∃ query, sigarPtqlQueryCreate .plain (portText .tcp "4294967376".toList).render = .ok query ∧
      (sigarPtqlQueryFind (.withPorts udpEighty) query).res.toOption.map (·.2)
        = some (sigarOk, [7])) := by
  constructor
  · obtain ⟨query, hcreate, htest⟩ :
        ∃ query, sigarPtqlQueryCreate .plain (portText .udp "80".toList).render = .ok query ∧
          decide ((sigarPtqlQueryFind (.withPorts udpEighty) query).res.toOption.map (·.2)
            = some (sigarOk, [7])) = true :=
      accepted_of_test (by decide +kernel)
    exact ⟨query, hcreate, of_decide_eq_true htest, by decide +kernel⟩
  · obtain ⟨query, hcreate, htest⟩ :
        ∃ query, sigarPtqlQueryCreate .plain (portText .tcp "4294967376".toList).render = .ok query ∧
          decide ((sigarPtqlQueryFind (.withPorts udpEighty) query).res.toOption.map (·.2)
            = some (sigarOk, [7])) = true :=
      accepted_of_test (by decide +kernel)
    exact ⟨query, hcreate, of_decide_eq_true htest⟩

end Sigar.Ptql
