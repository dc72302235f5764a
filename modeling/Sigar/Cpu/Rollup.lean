/-
  Rolling logical processors up.

  Source: `sigar_cpu_core_count` and `sigar_cpu_core_rollup` of `sigar_util.c`, and their callers
  `sigar_cpu_list_get`, `sigar_cpu_info_list_get` and `sigar_proc_state_get` of
  `os/linux/linux_sigar.c`.

  `sigar_cpu_core_rollup` is to say whether the logical processors of a package are merged, and its
  answer is to depend on the configuration only.  But the answer 1 stands inside a test that is
  there for the LOG: it is returned at the debug level, and only by the call that finds `lcpu` not
  yet initialised.

  1. **The machine** — a handle (`CpuState`) on a host (`CpuHost`), and the calls on it.
  2. **What a call is to answer** — `cpuAnswer`: a function of the call and the host, without a
     handle.  Processors are merged if `merges host`.
  3. **When it answers that** — one step (`cpuStep_answers`), and then every run of such steps:
     neither the log level nor the calls before matter (`rollup_consistent`).
-/
import Mathlib.Data.Bool.Basic
import Sigar.Cpu.Metrics
import Sigar.LastProc.Linux
import Sigar.Lib.Groups
import Sigar.Lib.Runs

namespace Sigar.Cpu

open CString LastProc Groups Runs List

/-! ## `sigar_cpu_core_rollup` -/

/-- What CPUID answers: EBX of request 0, EBX and EDX of request 1. -/
structure Cpuid where
  vendor : UInt32
  ebx : UInt32
  edx : UInt32

def intelId : UInt32 := 0x756e6547
def amdId : UInt32 := 0x68747541

/-- The logical processors of a package. -/
def Cpuid.lcpu (id : Cpuid) : Int32 :=
  if id.vendor = intelId ∨ id.vendor = amdId then
    if id.edx &&& 0x10000000 ≠ 0 then ((id.ebx &&& 0x00FF0000) >>> 16).toInt32 else 1
  else 1

/-- What the handle reads of its host, and the settings that it keeps. -/
structure CpuHost where
  ticks : Int32
  bootTime : UInt64
  pagesize : UInt64
  cpuListCores : Int32
  cpuid : Cpuid
  procStat : SigarPid → FileRead  -- /proc/<pid>/stat

/-- The fields of the handle that change. -/
structure CpuState where
  logLevel : Int32
  lcpu : Int32
  lastProcStat : LinuxProcStat

/-- `SIGAR_LOG_DEBUG`. -/
def sigarLogDebug : Int32 := 4

/-- `sigar_cpu_core_count`: CPUID is asked once. -/
def sigarCpuCoreCount (host : CpuHost) (state : CpuState) : CpuState :=
  if state.lcpu = -1 then { state with lcpu := host.cpuid.lcpu } else state

def sigarCpuCoreRollup (host : CpuHost) (state : CpuState) : CpuState × Bool :=
  let logRollup : Bool := sigarLogDebug ≤ state.logLevel ∧ state.lcpu = -1
  let state := sigarCpuCoreCount host state
  if host.cpuListCores ≠ 0 then (state, false)  -- "treating cores as-is"
  else (state, logRollup && 1 < state.lcpu)     -- "rolling up cores to sockets"

/-! ## The callers -/

/-- The divisor of `core_rollup && (i % sigar->lcpu)`: without the rollup every processor starts a
    group of its own. -/
def groupWidth (rollup : Bool) (lcpu : Int32) : Nat := if rollup then lcpu.toInt.toNat else 1

/-- The lines of the single processors: those after the first, as long as they say `cpu`. -/
def cpuLines (text : Text) : List Text :=
  (fgetsLines bufsiz text []).tail.takeWhile fun line => "cpu".toList.isPrefixOf line

/-- `sigar_cpu_list_get`.  `stat` is the text of /proc/stat, or why it cannot be opened.  Without
    lines of processors the array `cpu_total` is parsed, which holds what the stack held. -/
def sigarCpuListGet (host : CpuHost) (state : CpuState) (stat : Except Status Text)
    (cpuTotal : Text) : CpuState × Except Status (List SigarCpu) :=
  let (state, rollup) := sigarCpuCoreRollup host state
  match stat with
  | .error errno => (state, .error errno)
  | .ok text =>
    if fgetsLines bufsiz text [] = [] then (state, .error (-1))  -- no first line to skip
    else
      let cpus := collect (fun _ => getCpuMetrics host.ticks .zero) (getCpuMetrics host.ticks)
        (groupWidth rollup state.lcpu) 0 [] (cpuLines text)
      (state, .ok (if cpus = [] then [getCpuMetrics host.ticks .zero cpuTotal] else cpus))

/-- `sigar_cpu_info_t`. -/
structure SigarCpuInfo where
  vendor : Text
  model : Text
  mhz : Int32
  mhzMax : Int32
  mhzMin : Int32
  cacheSize : UInt64
  totalSockets : Int32
  totalCores : Int32
  coresPerSocket : Int32
  deriving DecidableEq

/-- What `sigar_cpu_info_list_get` reads: the entries of /proc/cpuinfo as `get_cpu_info` leaves
    them, or why it cannot be opened, `sysconf(_SC_NPROCESSORS_CONF)`, and the frequencies of
    `cpu<n>` under /sys in kHz. -/
structure CpuInfoInputs where
  entries : Except Status (List SigarCpuInfo)
  ncpu : Int32
  maxFreq : Nat → Option Int32
  minFreq : Nat → Option Int32

/-- A division by zero. -/
inductive CpuFault where
  | divisionByZero
  deriving DecidableEq

def sigarCpuSocketCount (ncpu lcpu : Int32) : Except CpuFault Int32 :=
  if ncpu < lcpu then .ok ncpu
  else if lcpu = 0 then .error .divisionByZero
  else .ok (ncpu / lcpu)

/-- What is added to the entry with the number `number` of the list. -/
def fillCpuInfo (inputs : CpuInfoInputs) (lcpu : Int32) (entry : Nat × SigarCpuInfo) :
    Except CpuFault SigarCpuInfo := do
  let (number, info) := entry
  let totalSockets ← sigarCpuSocketCount inputs.ncpu lcpu
  pure { info with
    mhzMax := ((inputs.maxFreq number).map (· / 1000)).getD info.mhzMax
    mhzMin := ((inputs.minFreq number).map (· / 1000)).getD info.mhzMin
    totalCores := inputs.ncpu
    coresPerSocket := lcpu
    totalSockets := totalSockets }

/-- `sigar_cpu_info_list_get`: of the entries of a group the first one is kept. -/
def sigarCpuInfoListGet (host : CpuHost) (state : CpuState) (inputs : CpuInfoInputs) :
    CpuState × Except CpuFault (Except Status (List SigarCpuInfo)) :=
  let (state, rollup) := sigarCpuCoreRollup host state
  match inputs.entries with
  | .error errno => (state, .ok (.error errno))
  | .ok entries =>
    let kept := collect Prod.mk (fun first _ => first) (groupWidth rollup state.lcpu) 0 [] entries
    (state, (kept.mapM (fillCpuInfo inputs state.lcpu)).map .ok)

/-- The handle as the getters of a process see it. -/
def CpuHost.handle (host : CpuHost) (lcpu : Int32) (rollup : Bool) : LinuxHandle where
  ticks := host.ticks
  bootTime := host.bootTime
  pagesize := host.pagesize
  lcpu := lcpu
  coreRollup := rollup

/-- `sigar_proc_state_get`: when the process cannot be read, `sigar_cpu_core_rollup` is not
    called. -/
def procStateGet (host : CpuHost) (state : CpuState) (pid : SigarPid) (timenow : Int)
    (others : StateInputs) (procstate : SigarProcState) :
    CpuState × Status × SigarProcState :=
  let (rolled, rollup) := sigarCpuCoreRollup host state
  let (last, status, procstate) := sigarProcStateGet (host.handle rolled.lcpu rollup)
    state.lastProcStat pid timenow (host.procStat pid) others procstate
  ({ (if status = sigarOk then rolled else state) with lastProcStat := last }, status, procstate)

/-! ## Runs -/

/-- A call on the handle, with what the host shows it. -/
inductive CpuCall where
  | cpuList (stat : Except Status Text) (cpuTotal : Text)
  | cpuInfoList (inputs : CpuInfoInputs)
  | procState (pid : SigarPid) (timenow : Int) (others : StateInputs) (procstate : SigarProcState)
  | logLevelSet (level : Int32)

/-- What a call returns. -/
inductive CpuAnswer where
  | cpuList (result : Except Status (List SigarCpu))
  | cpuInfoList (result : Except CpuFault (Except Status (List SigarCpuInfo)))
  | procState (status : Status) (procstate : SigarProcState)
  | logLevelSet

def cpuStep (host : CpuHost) (state : CpuState) : CpuCall → CpuState × CpuAnswer
  | .cpuList stat cpuTotal =>
    let (state, result) := sigarCpuListGet host state stat cpuTotal
    (state, .cpuList result)
  | .cpuInfoList inputs =>
    let (state, result) := sigarCpuInfoListGet host state inputs
    (state, .cpuInfoList result)
  | .procState pid timenow others procstate =>
    let (state, status, procstate) := procStateGet host state pid timenow others procstate
    (state, .procState status procstate)
  | .logLevelSet level => ({ state with logLevel := level }, .logLevelSet)

/-- A handle that `sigar_open` has just made, at some log level. -/
structure CpuState.Opened (state : CpuState) : Prop where
  lcpu : state.lcpu = -1
  pid : state.lastProcStat.pid = -1

/-! ## What a call is to answer -/

/-- Logical processors are merged: cores are not to be listed, and a package has several. -/
def merges (host : CpuHost) : Prop := host.cpuListCores = 0 ∧ 1 < host.cpuid.lcpu

instance (host : CpuHost) : Decidable (merges host) := inferInstanceAs (Decidable (_ ∧ _))

/-- The groups of logical processors: each is a processor and those merged with it. -/
def packages {α : Type} (host : CpuHost) (processors : List α) : List (α × List α) :=
  if merges host then groups host.cpuid.lcpu.toInt.toNat processors
  else processors.map fun processor => (processor, [])

/-- The CPU list: the counters of a group are added up. -/
def cpuListAnswer (host : CpuHost) (stat : Except Status Text) (cpuTotal : Text) :
    Except Status (List SigarCpu) :=
  match stat with
  | .error errno => .error errno
  | .ok text =>
    if fgetsLines bufsiz text [] = [] then .error (-1)
    else if cpuLines text = [] then .ok [getCpuMetrics host.ticks .zero cpuTotal]
    else .ok ((packages host (cpuLines text)).map fun group =>
      group.2.foldl (getCpuMetrics host.ticks) (getCpuMetrics host.ticks .zero group.1))

/-- The CPU info list: a group has one entry. -/
def cpuInfoListAnswer (host : CpuHost) (inputs : CpuInfoInputs) :
    Except CpuFault (Except Status (List SigarCpuInfo)) :=
  match inputs.entries with
  | .error errno => .ok (.error errno)
  | .ok entries =>
    (((packages host entries).mapIdx fun number group => (number, group.1)).mapM
      (fillCpuInfo inputs host.cpuid.lcpu)).map .ok

/-- The process, as its file shows it. -/
def CpuHost.readStat (host : CpuHost) (pid : SigarPid) : Option ProcStat :=
  let (status, buffer) := sigarProcFile2str bufsiz (host.procStat pid)
  if status ≠ sigarOk then none else parseProcStat (host.handle 0 false) buffer

/-- What every call is to answer; of a process, if it can be read. -/
def cpuAnswer (host : CpuHost) : CpuCall → CpuAnswer
  | .cpuList stat cpuTotal => .cpuList (cpuListAnswer host stat cpuTotal)
  | .cpuInfoList inputs => .cpuInfoList (cpuInfoListAnswer host inputs)
  | .procState pid _ others procstate =>
    match host.readStat pid with
    | none => .procState esrch procstate
    | some pstat => .procState sigarOk
        (fillState (host.handle host.cpuid.lcpu (merges host)) pstat others procstate)
  | .logLevelSet _ => .logLevelSet

/-! ## When it answers that -/

/-- The decision is the one of the configuration: nothing is to be merged, or this is the call
    that initialises `lcpu`, at the debug level. -/
def Decides (host : CpuHost) (state : CpuState) : Prop :=
  ¬ merges host ∨ (sigarLogDebug ≤ state.logLevel ∧ state.lcpu = -1)

instance (host : CpuHost) (state : CpuState) : Decidable (Decides host state) :=
  inferInstanceAs (Decidable (_ ∨ _))

/-- The condition on a call: the decision is right, and a process that is asked for can be read.
    (A failed `proc_stat_read` leaves the pid in the handle, with the data of another one.) -/
def Fits (host : CpuHost) (state : CpuState) : CpuCall → Prop
  | .cpuList _ _ => Decides host state
  | .cpuInfoList _ => Decides host state
  | .procState pid _ _ _ => Decides host state ∧ pid ≠ -1 ∧ (host.readStat pid).isSome
  | .logLevelSet _ => True

instance (host : CpuHost) (state : CpuState) : ∀ call, Decidable (Fits host state call)
  | .cpuList _ _ => inferInstanceAs (Decidable (Decides host state))
  | .cpuInfoList _ => inferInstanceAs (Decidable (Decides host state))
  | .procState _ _ _ _ => inferInstanceAs (Decidable (_ ∧ _ ∧ _))
  | .logLevelSet _ => .isTrue trivial

/-- What the handle has found out is so. -/
structure Coherent (host : CpuHost) (state : CpuState) : Prop where
  lcpu : state.lcpu = -1 ∨ state.lcpu = host.cpuid.lcpu
  last : state.lastProcStat.pid = -1 ∨
    host.readStat state.lastProcStat.pid = some state.lastProcStat.toProcStat

variable {host : CpuHost} {state : CpuState}

theorem CpuState.Opened.coherent (h : state.Opened) : Coherent host state :=
  ⟨Or.inl h.lcpu, Or.inl h.pid⟩

theorem sigarCpuCoreCount_lcpu (h : Coherent host state) :
    (sigarCpuCoreCount host state).lcpu = host.cpuid.lcpu := by
  rw [sigarCpuCoreCount]
  split
  · rfl
  · next hne =>
    rcases h.lcpu with hnew | hknown
    · exact absurd hnew hne
    · exact hknown

/-- **What `sigar_cpu_core_rollup` does** where the condition is met. -/
theorem sigarCpuCoreRollup_eq (h : Coherent host state) (hdecides : Decides host state) :
    sigarCpuCoreRollup host state = (sigarCpuCoreCount host state, decide (merges host)) := by
  have hlcpu := sigarCpuCoreCount_lcpu h
  rw [sigarCpuCoreRollup]
  by_cases hcores : host.cpuListCores ≠ 0
  · rw [if_pos hcores, decide_eq_false fun hmerges => hcores hmerges.1]
  · rw [if_neg hcores, hlcpu]
    rw [not_not] at hcores
    by_cases hmany : 1 < host.cpuid.lcpu
    · have hmerges : merges host := ⟨hcores, hmany⟩
      rcases hdecides with hno | hfirst
      · exact absurd hmerges hno
      · grind
    · rw [decide_eq_false hmany, Bool.and_false, decide_eq_false fun hmerges => hmany hmerges.2]

/-- The handle stays coherent. -/
theorem Coherent.counted (h : Coherent host state) :
    Coherent host (sigarCpuCoreCount host state) := by
  refine ⟨Or.inr (sigarCpuCoreCount_lcpu h), ?_⟩
  rw [sigarCpuCoreCount]
  split
  · exact h.last
  · exact h.last

/-! ### The lists -/

/-- The loop makes the groups that are meant. -/
theorem collect_packages {α γ : Type} {start : Nat → α → γ} {merge : γ → α → γ}
    (processors : List α) :
    collect start merge (groupWidth (merges host) host.cpuid.lcpu) 0 [] processors
      = (packages host processors).mapIdx (folded start merge) := by
  rw [packages, groupWidth]
  by_cases hmerges : merges host
  · have hpos : 0 < host.cpuid.lcpu.toInt.toNat := by
      have hlt := Int32.lt_iff_toInt_lt.mp hmerges.2
      rw [Int32.toInt_one] at hlt
      omega
    rw [if_pos hmerges, if_pos (decide_eq_true hmerges), collect_eq hpos]
  · rw [if_neg hmerges, if_neg (by simpa using hmerges), collect_eq Nat.one_pos, groups_one]

theorem packages_eq_nil_iff {α : Type} {processors : List α} :
    packages host processors = [] ↔ processors = [] := by
  rw [packages]
  cases processors with
  | nil =>
    rw [groups]
    simp
  | cons x rest =>
    rw [groups]
    split <;> simp

/-- A group that has no use for its number. -/
theorem mapIdx_folded {α γ : Type} {start : α → γ} {merge : γ → α → γ}
    (packages : List (α × List α)) :
    packages.mapIdx (folded (fun _ => start) merge)
      = packages.map fun group => group.2.foldl merge (start group.1) := by
  apply ext_getElem?
  intro k
  rw [getElem?_mapIdx, getElem?_map]
  rfl

theorem sigarCpuListGet_answer (h : Coherent host state) (hdecides : Decides host state)
    (stat : Except Status Text) (cpuTotal : Text) :
    sigarCpuListGet host state stat cpuTotal
      = (sigarCpuCoreCount host state, cpuListAnswer host stat cpuTotal) := by
  rw [sigarCpuListGet, sigarCpuCoreRollup_eq h hdecides]
  cases stat with
  | error errno => rfl
  | ok text =>
    dsimp only [cpuListAnswer]
    rw [sigarCpuCoreCount_lcpu h, collect_packages, mapIdx_folded]
    by_cases hempty : fgetsLines bufsiz text [] = []
    · rw [if_pos hempty, if_pos hempty]
    · grind [map_eq_nil_iff, packages_eq_nil_iff]

theorem sigarCpuInfoListGet_answer (h : Coherent host state) (hdecides : Decides host state)
    (inputs : CpuInfoInputs) :
    sigarCpuInfoListGet host state inputs
      = (sigarCpuCoreCount host state, cpuInfoListAnswer host inputs) := by
  -- of a group the first entry is kept
  have hfold : ∀ (others : List SigarCpuInfo) (first : Nat × SigarCpuInfo),
      others.foldl (fun first _ => first) first = first := by simp
  have hfirst : folded Prod.mk (fun (first : Nat × SigarCpuInfo) _ => first)
      = fun number group => (number, group.1) := by
    funext number group
    exact hfold group.2 (number, group.1)
  rw [sigarCpuInfoListGet, sigarCpuCoreRollup_eq h hdecides, cpuInfoListAnswer]
  cases inputs.entries with
  | error errno => rfl
  | ok entries =>
    dsimp only
    rw [sigarCpuCoreCount_lcpu h, collect_packages, hfirst]

/-! ### The process -/

/-- `proc_stat_read` of a process that can be read: the file, or what was read of it before. -/
theorem procStatRead_coherent {lcpu : Int32} {rollup : Bool} {pid : SigarPid} {pstat : ProcStat}
    (h : Coherent host state) (hpid : pid ≠ -1) (hread : host.readStat pid = some pstat)
    (timenow : Int) :
    ∃ mtime, procStatRead (host.handle lcpu rollup) state.lastProcStat pid timenow
        (host.procStat pid)
      = ({ pstat with pid := pid, mtime := mtime }, sigarOk) := by
  rw [procStatRead]
  by_cases hhit :
      state.lastProcStat.pid = pid ∧ timenow - state.lastProcStat.mtime < sigarLastProcExpire
  · -- served from the handle
    rw [if_pos hhit]
    obtain ⟨hsame, -⟩ := hhit
    have hlast : pstat = state.lastProcStat.toProcStat := by
      rcases h.last with hnone | hlast
      · exact absurd (hsame.symm.trans hnone) hpid
      · grind
    refine ⟨state.lastProcStat.mtime, ?_⟩
    rw [hlast, ← hsame]
  · rw [if_neg hhit]
    rw [CpuHost.readStat] at hread
    dsimp only at hread ⊢
    split at hread
    case isTrue => cases hread
    case isFalse hstatus =>
      rw [if_neg hstatus]
      have hparse : parseProcStat (host.handle lcpu rollup)
          (sigarProcFile2str bufsiz (host.procStat pid)).2 = some pstat := hread
      rw [hparse]
      exact ⟨timenow, rfl⟩

theorem procStateGet_answer {pid : SigarPid} {pstat : ProcStat} (h : Coherent host state)
    (hdecides : Decides host state) (hpid : pid ≠ -1) (hread : host.readStat pid = some pstat)
    (timenow : Int) (others : StateInputs) (procstate : SigarProcState) :
    ∃ mtime, procStateGet host state pid timenow others procstate
      = ({ sigarCpuCoreCount host state with
            lastProcStat := { pstat with pid := pid, mtime := mtime } }, sigarOk,
          fillState (host.handle host.cpuid.lcpu (merges host)) pstat others procstate) := by
  obtain ⟨mtime, hstat⟩ := @procStatRead_coherent host state host.cpuid.lcpu (merges host) pid pstat
    h hpid hread timenow
  have hget : sigarProcStateGet (host.handle host.cpuid.lcpu (merges host)) state.lastProcStat pid
      timenow (host.procStat pid) others procstate
      = ({ pstat with pid := pid, mtime := mtime }, sigarOk,
          fillState (host.handle host.cpuid.lcpu (merges host)) pstat others procstate) := by
    rw [sigarProcStateGet, hstat]
    rfl
  refine ⟨mtime, ?_⟩
  rw [procStateGet, sigarCpuCoreRollup_eq h hdecides]
  simp only [sigarCpuCoreCount_lcpu h, hget, if_true]

/-! ### Every run -/

/-- **One call**: it answers what it is to answer, and leaves a handle that will. -/
theorem cpuStep_answers (call : CpuCall) (h : Coherent host state)
    (hfits : Fits host state call) :
    (cpuStep host state call).2 = cpuAnswer host call ∧
      Coherent host (cpuStep host state call).1 := by
  cases call with
  | cpuList stat cpuTotal =>
    rw [cpuStep, sigarCpuListGet_answer h hfits]
    exact ⟨rfl, h.counted⟩
  | cpuInfoList inputs =>
    rw [cpuStep, sigarCpuInfoListGet_answer h hfits]
    exact ⟨rfl, h.counted⟩
  | procState pid timenow others procstate =>
    obtain ⟨hdecides, hpid, hsome⟩ := hfits
    obtain ⟨pstat, hread⟩ := Option.isSome_iff_exists.mp hsome
    obtain ⟨mtime, hget⟩ := procStateGet_answer h hdecides hpid hread timenow others procstate
    rw [cpuStep, hget, cpuAnswer, hread]
    exact ⟨rfl, h.counted.lcpu, Or.inr hread⟩
  | logLevelSet level => exact ⟨rfl, h.lcpu, h.last⟩

/-- The run lemma. -/
theorem exec_answers : ∀ {calls : List CpuCall} {state : CpuState}, Coherent host state →
    Along (cpuStep host) (Fits host) state calls →
    (exec (cpuStep host) state calls).2 = calls.map (cpuAnswer host) := by
  intro calls
  induction calls with
  | nil => intro state _ _; rfl
  | cons call calls ih =>
    intro state h hfits
    obtain ⟨hanswer, hnext⟩ := cpuStep_answers call h hfits.1
    rw [exec_cons, map_cons, hanswer, ih hnext hfits.2]

/-- What a call answers after others. -/
def answerAfter (host : CpuHost) (state : CpuState) (before : List CpuCall) (call : CpuCall) :
    CpuAnswer :=
  (cpuStep host (exec (cpuStep host) state before).1 call).2

/-- **The log level and the calls before do not matter**, in runs whose calls all meet the
    condition: a call answers the same on any two handles, and what it is to answer. -/
theorem rollup_consistent {state state' : CpuState} {before before' : List CpuCall}
    {call : CpuCall} (hopen : state.Opened) (hopen' : state'.Opened)
    (hfits : Along (cpuStep host) (Fits host) state (before ++ [call]))
    (hfits' : Along (cpuStep host) (Fits host) state' (before' ++ [call])) :
    answerAfter host state before call = answerAfter host state' before' call ∧
      answerAfter host state before call = cpuAnswer host call := by
  have hone : ∀ {state : CpuState} {before : List CpuCall}, state.Opened →
      Along (cpuStep host) (Fits host) state (before ++ [call]) →
      answerAfter host state before call = cpuAnswer host call := by
    intro state before hopen hfits
    have hlast := exec_getElem? (cpuStep host) before call [] state
    rw [exec_answers hopen.coherent hfits, getElem?_map, getElem?_append_right
      (Nat.le_refl _), Nat.sub_self] at hlast
    exact (Option.some.inj hlast).symm
  exact ⟨(hone hopen hfits).trans (hone hopen' hfits').symm, hone hopen hfits⟩

/-! ### A host with two logical processors to a package -/

/-- `SIGAR_CPU_LIST_SOCKETS` is set, and CPUID reports two logical processors. -/
def twinHost : CpuHost where
  ticks := 100
  bootTime := 0
  pagesize := 12
  cpuListCores := 0
  cpuid := ⟨intelId, 0x00020000, 0x10000000⟩
  procStat _ := .noFile

/-- A new handle. -/
def openedAt (logLevel : Int32) : CpuState where
  logLevel := logLevel
  lcpu := -1
  lastProcStat := ⟨⟨[], nul, 0, 0, 0, 0, 0, 0, 0, 0, 0, 0, 0, 0⟩, -1, 0⟩

/-- /proc/stat with two processors. -/
def twinStat : CpuCall :=
  .cpuList (.ok "cpu 3 0 0 0\ncpu0 1 0 0 0\ncpu1 2 0 0 0\nintr 0\n".toList) []

/-- The user times of a list. -/
def CpuAnswer.userTimes : CpuAnswer → List UInt64
  | .cpuList (.ok cpus) => cpus.map (·.user)
  | _ => []

/-- The debug level, set on the handle or from the start. -/
theorem rollup_consistent_example :
    Along (cpuStep twinHost) (Fits twinHost) (openedAt (-1)) ([.logLevelSet 4] ++ [twinStat]) ∧
    Along (cpuStep twinHost) (Fits twinHost) (openedAt 5) ([] ++ [twinStat]) ∧
    answerAfter twinHost (openedAt (-1)) [.logLevelSet 4] twinStat
      = answerAfter twinHost (openedAt 5) [] twinStat := by
  have hfits : Along (cpuStep twinHost) (Fits twinHost) (openedAt (-1))
      ([.logLevelSet 4] ++ [twinStat]) := by decide +kernel
  have hfits' : Along (cpuStep twinHost) (Fits twinHost) (openedAt 5) ([] ++ [twinStat]) := by
    decide +kernel
  exact ⟨hfits, hfits', (rollup_consistent ⟨rfl, rfl⟩ ⟨rfl, rfl⟩ hfits hfits').1⟩

/-- The two processors are merged at the debug level only, and by the first call only. -/
theorem debugLevel_merges :
    (answerAfter twinHost (openedAt (-1)) [] twinStat).userTimes = [10, 20] ∧
    (answerAfter twinHost (openedAt 4) [] twinStat).userTimes = [30] ∧
    (answerAfter twinHost (openedAt 4) [twinStat] twinStat).userTimes = [10, 20] ∧
    (cpuAnswer twinHost twinStat).userTimes = [30] := by
  have hopen : (openedAt 4).Opened := ⟨rfl, rfl⟩
  have hfits : Fits twinHost (openedAt 4) twinStat := by decide +kernel
  have hmerged : (answerAfter twinHost (openedAt 4) [] twinStat).userTimes = [30] := by
    decide +kernel
  refine ⟨by decide +kernel, hmerged, by decide +kernel, ?_⟩
  rw [← (cpuStep_answers twinStat hopen.coherent hfits).1]
  exact hmerged

end Sigar.Cpu
