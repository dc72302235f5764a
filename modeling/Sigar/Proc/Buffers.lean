/-
  What the caller's structure has to do with what `sigar_proc_cpu_get` reports.

  On a success the function copies the CALLER's structure into the cache, and only then writes the
  percentage into the caller's structure: the cached percentage is whatever the caller had there.
  A second call in the same millisecond returns the cached structure.

  1. **Two runs** — `Erased` relates two runs with the same calls but other structures: their
     caches agree up to the percentages, because the table never looks at its values.
  2. **One run** — `BufferInv`: the cached percentage is the one that the caller's structure held in
     the last call that copied it into the entry (`heldAt`).
  3. **Result** — `sigarProcCpu_buffers`: the structures make no difference exactly when no call
     comes in the millisecond of a sample that a call has stored; and a second call in a millisecond
     reports the same percentage if the structure of the first held, by chance, what that call then
     reported.
-/
import Sigar.Proc.Cpu
import Sigar.Cache.Parametric

namespace Sigar.Proc

open Sigar.Cache Runs List

/-! ## Runs -/

/-- A percentage that was reported. -/
structure Report where
  pid : SigarPid
  time : UInt64
  percent : ℚ
  deriving DecidableEq

/-- A sample that was copied into the cache: the entry, the percentage that the caller's structure held
    before the call, and what the call reported. -/
structure Copied where
  addr : Nat
  held : ℚ
  report : Report

/-- A handle, with the samples that were copied and what was reported, the newest first. -/
structure BufferRun where
  cache : Option (SigarCache SigarProcCpu)
  stored : List Copied
  reports : List Report

/-- The last sample that was copied into an entry, and the percentage that its caller held. -/
def lastCopied (stored : List Copied) (addr : Nat) : Option Copied :=
  stored.find? fun c => c.addr = addr

def heldAt (stored : List Copied) (addr : Nat) : ℚ := ((lastCopied stored addr).map (·.held)).getD 0

def BufferRun.start : BufferRun := ⟨none, [], []⟩

/-- `*prev` at the start of a call. -/
def cachedSample (cache : Option (SigarCache SigarProcCpu)) (call : CpuCall) : SigarProcCpu :=
  (procCpuEntry cache call).value.getD .zero

/-- What a call reports, if it succeeds. -/
def reportOf (run : BufferRun) (call : CpuCall) : Report :=
  ⟨call.pid, call.timeNow, (sigarProcCpuGet run.cache call).2.2.percent⟩

/-- A call, its status and, if it succeeds, the structure that it fills. -/
def bufferStep (run : BufferRun) (call : CpuCall) : BufferRun × (Status × Option SigarProcCpu) :=
  let result := sigarProcCpuGet run.cache call
  let copied := call.timeNow ≠ (cachedSample run.cache call).lastTime ∧ call.timeStatus = sigarOk
  let addr := (procCpuEntry run.cache call).addr
  ({ cache := some result.1
     stored :=
       if copied then ⟨addr, call.proccpu.percent, reportOf run call⟩ :: run.stored else run.stored
     reports := if result.2.1 = sigarOk then reportOf run call :: run.reports else run.reports },
    (result.2.1, if result.2.1 = sigarOk then some result.2.2 else none))

/-- The same call with another structure of the caller. -/
def SameButBuffer (call call' : CpuCall) : Prop := call' = { call with proccpu := call'.proccpu }

/-- The statuses and structures that a run returns are the same whatever the callers' structures
    held before. -/
def BufferFree (calls : List CpuCall) : Prop :=
  ∀ calls', Forall₂ SameButBuffer calls calls' →
    (exec bufferStep .start calls').2 = (exec bufferStep .start calls).2

/-- The call does not come in the millisecond of a sample that was copied into the cache. -/
def NoStoredRepeat (run : BufferRun) (call : CpuCall) : Prop :=
  (procCpuEntry run.cache call).addr ∈ run.stored.map (·.addr) →
    call.timeNow ≠ (cachedSample run.cache call).lastTime

/-- The call reports the percentage of every earlier success for the pid in the millisecond. -/
def SamePercent (run : BufferRun) (call : CpuCall) : Prop :=
  ∀ report ∈ run.reports, report.pid = call.pid → report.time = call.timeNow →
    ∃ out, (bufferStep run call).2 = (sigarOk, some out) ∧ out.percent = report.percent

/-- If there was such a success, the last sample in the entry is of the pid and of that millisecond,
    no other call has moved the entry's time, and the structure of the caller that took the sample held
    the percentage that it was then told. -/
def HeldReported (run : BufferRun) (call : CpuCall) : Prop :=
  ∀ report ∈ run.reports, report.pid = call.pid → report.time = call.timeNow →
    (cachedSample run.cache call).lastTime = call.timeNow ∧
      ∃ c ∈ lastCopied run.stored (procCpuEntry run.cache call).addr,
        c.report.pid = call.pid ∧ c.report.time = call.timeNow ∧ c.held = c.report.percent

/-! ## One call -/

section Call

variable {run : BufferRun} {call : CpuCall}

/-- A call in the millisecond of the cached structure returns that structure. -/
theorem bufferStep_repeat (h : call.timeNow = (cachedSample run.cache call).lastTime) :
    (bufferStep run call).2 = (sigarOk, some (cachedSample run.cache call)) := by
  have hupdate := cpuUpdate_same h
  unfold bufferStep sigarProcCpuGet
  dsimp only
  rw [show (procCpuEntry run.cache call).value.getD .zero = cachedSample run.cache call from rfl,
    hupdate]
  rfl

theorem bufferStep_cache (run : BufferRun) (call : CpuCall) :
    (bufferStep run call).1.cache
      = some (updateKey (procCpuTable run.cache call) (pidToUInt64 call.pid) call.clock
          (some (cpuUpdate (cachedSample run.cache call) call).1)) := rfl

theorem bufferStep_stored (run : BufferRun) (call : CpuCall) :
    (bufferStep run call).1.stored
      = if call.timeNow ≠ (cachedSample run.cache call).lastTime ∧ call.timeStatus = sigarOk then
          ⟨(procCpuEntry run.cache call).addr, call.proccpu.percent, reportOf run call⟩ :: run.stored
        else run.stored := rfl

theorem bufferStep_reports (run : BufferRun) (call : CpuCall) :
    (bufferStep run call).1.reports
      = if (cpuUpdate (cachedSample run.cache call) call).2.1 = sigarOk then
          reportOf run call :: run.reports else run.reports := rfl

end Call

/-! ## Two runs -/

/-- The structure without its percentage. -/
def erase (cpu : SigarProcCpu) : SigarProcCpu := { cpu with percent := 0 }

theorem erase_inj {a b : SigarProcCpu} (h : erase a = erase b) (hp : a.percent = b.percent) :
    a = b := by
  obtain ⟨_, _, _, _, _, pa⟩ := a
  obtain ⟨_, _, _, _, _, pb⟩ := b
  unfold erase at h
  simp only [SigarProcCpu.mk.injEq] at h hp ⊢
  exact ⟨h.1, h.2.1, h.2.2.1, h.2.2.2.1, h.2.2.2.2.1, hp⟩

theorem lastTime_of_erase {a b : SigarProcCpu} (h : erase a = erase b) : a.lastTime = b.lastTime :=
  (congrArg SigarProcCpu.lastTime h :)

/-- The caches agree up to percentages, and samples were copied into the same entries. -/
structure Erased (run run' : BufferRun) : Prop where
  cache : run.cache.map (SigarCache.mapValues erase) = run'.cache.map (SigarCache.mapValues erase)
  stored : run.stored.map (·.addr) = run'.stored.map (·.addr)

section Erasure

variable {run run' : BufferRun} {call call' : CpuCall}

theorem procCpuTable_erase (cache : Option (SigarCache SigarProcCpu)) (call : CpuCall) :
    (procCpuTable cache call).mapValues erase
      = procCpuTable (cache.map (SigarCache.mapValues erase)) call := by
  cases cache with
  | some table => rfl
  | none =>
    show (sigarExpiredCacheNew SigarProcCpu 128 600000 1200000 call.newTime).mapValues erase = _
    unfold sigarExpiredCacheNew SigarCache.mapValues
    dsimp only
    rw [map_replicate, map_nil]
    rfl

/-- What a call does to its sample: the same in both runs, up to the percentage that is stored.
    If it is not a repeat, it reports the same structure. -/
theorem cpuUpdate_erase {prev prev' : SigarProcCpu} (hprev : erase prev = erase prev')
    (hcall : SameButBuffer call call') :
    erase (cpuUpdate prev call).1 = erase (cpuUpdate prev' call').1 ∧
    (cpuUpdate prev call).2.1 = (cpuUpdate prev' call').2.1 ∧
    (call.timeNow ≠ prev.lastTime → (cpuUpdate prev call).2.1 = sigarOk →
      (cpuUpdate prev call).2.2 = (cpuUpdate prev' call').2.2) := by
  have hlast := lastTime_of_erase hprev
  have htotal : prev.total = prev'.total := (congrArg SigarProcCpu.total hprev :)
  have hnow : call'.timeNow = call.timeNow := by rw [hcall]
  have hstatus : call'.timeStatus = call.timeStatus := by rw [hcall]
  have htime : call'.time = call.time := by rw [hcall]
  by_cases hrep : call.timeNow = prev.lastTime
  · simp [cpuUpdate_same, hnow, hrep, hlast]
    omega
  · have hrep' : call'.timeNow ≠ prev'.lastTime := by rw [hnow, ← hlast]; exact hrep
    by_cases hok : call.timeStatus = sigarOk
    · rw [cpuUpdate_ok hrep hok, cpuUpdate_ok hrep' (hstatus.trans hok), hnow, htime, hlast, htotal]
      exact ⟨rfl, rfl, fun _ _ => rfl⟩
    · rw [cpuUpdate_fail hrep hok, cpuUpdate_fail hrep' (hstatus ▸ hok), hnow, hstatus]
      refine ⟨?_, rfl, fun _ h => absurd h hok⟩
      exact congrArg (fun c : SigarProcCpu => { c with lastTime := call.timeNow }) hprev

variable (h : Erased run run') (hcall : SameButBuffer call call')

include h hcall

theorem Erased.table :
    (procCpuTable run.cache call).mapValues erase
      = (procCpuTable run'.cache call').mapValues erase := by
  rw [procCpuTable_erase, procCpuTable_erase, h.cache, hcall]
  rfl

/-- The entry of the call is the same one, up to its percentage. -/
theorem Erased.entry :
    (procCpuEntry run.cache call).mapValue erase
      = (procCpuEntry run'.cache call').mapValue erase := by
  have htable := h.table hcall
  have hget := sigarCacheGet_map erase (procCpuTable run.cache call) (pidToUInt64 call.pid)
    call.clock
  have hget' := sigarCacheGet_map erase (procCpuTable run'.cache call') (pidToUInt64 call'.pid)
    call'.clock
  have hpid : call'.pid = call.pid := by rw [hcall]
  have hclock : call'.clock = call.clock := by rw [hcall]
  rw [htable] at hget
  rw [hpid, hclock, hget] at hget'
  unfold procCpuEntry
  rw [hpid, hclock]
  exact congrArg Prod.snd hget'

theorem Erased.addr :
    (procCpuEntry run.cache call).addr = (procCpuEntry run'.cache call').addr := by
  have hentry := congrArg SigarCacheEntry.addr (h.entry hcall)
  rw [mapValue_addr, mapValue_addr] at hentry
  exact hentry

theorem Erased.sample :
    erase (cachedSample run.cache call) = erase (cachedSample run'.cache call') := by
  have hvalue : (procCpuEntry run.cache call).value.map erase
      = (procCpuEntry run'.cache call').value.map erase :=
    congrArg SigarCacheEntry.value (h.entry hcall)
  have hgetD : ∀ value : Option SigarProcCpu,
      erase (value.getD .zero) = (value.map erase).getD .zero := by
    intro value
    cases value <;> rfl
  unfold cachedSample
  rw [hgetD, hgetD, hvalue]

/-- A call keeps two runs related. -/
theorem Erased.step :
    Erased (bufferStep run call).1 (bufferStep run' call').1 := by
  obtain ⟨hcached, _, _⟩ := cpuUpdate_erase (h.sample hcall) hcall
  have hlast := lastTime_of_erase (h.sample hcall)
  have hnow : call'.timeNow = call.timeNow := by rw [hcall]
  have hstatus : call'.timeStatus = call.timeStatus := by rw [hcall]
  have hpid : call'.pid = call.pid := by rw [hcall]
  have hclock : call'.clock = call.clock := by rw [hcall]
  constructor
  · show some ((updateKey _ _ _ (some _)).mapValues erase)
      = some ((updateKey _ _ _ (some _)).mapValues erase)
    rw [← updateKey_map, ← updateKey_map, h.table hcall, hpid, hclock]
    exact congrArg (fun c => some (updateKey _ _ _ (some c))) hcached
  · rw [bufferStep_stored, bufferStep_stored, hlast, hnow, hstatus, h.addr hcall]
    split
    · rw [map_cons, map_cons, h.stored]
    · exact h.stored

end Erasure

/-! ## Which percentages are cached -/

theorem heldAt_of_notMem {stored : List Copied} {addr : Nat} (h : addr ∉ stored.map (·.addr)) :
    heldAt stored addr = 0 := by
  have hnone : lastCopied stored addr = none := by
    rw [lastCopied, find?_eq_none]
    intro c hc
    have hne : c.addr ≠ addr := fun heq => h (heq ▸ mem_map_of_mem hc)
    simpa using hne
  rw [heldAt, hnone]
  rfl

theorem heldAt_of_forall {stored : List Copied} {addr : Nat} {q : ℚ}
    (h : addr ∈ stored.map (·.addr)) (hheld : ∀ c ∈ stored, c.held = q) :
    heldAt stored addr = q := by
  obtain ⟨c, hc, rfl⟩ := mem_map.mp h
  obtain ⟨c', hlast⟩ : ∃ c', lastCopied stored c.addr = some c' :=
    Option.isSome_iff_exists.mp (find?_isSome.mpr ⟨c, hc, decide_eq_true rfl⟩)
  rw [heldAt, hlast]
  exact hheld c' (mem_of_find?_eq_some hlast)

theorem lastCopied_cons_self (c : Copied) (stored : List Copied) :
    lastCopied (c :: stored) c.addr = some c := by
  rw [lastCopied, find?_cons, decide_eq_true rfl]

theorem heldAt_cons_other {c : Copied} {addr : Nat} (h : addr ≠ c.addr) (stored : List Copied) :
    heldAt (c :: stored) addr = heldAt stored addr := by
  rw [heldAt, lastCopied, find?_cons, decide_eq_false h.symm]
  rfl

theorem heldAt_of_lastCopied {stored : List Copied} {addr : Nat} {c : Copied}
    (h : lastCopied stored addr = some c) : heldAt stored addr = c.held := by
  rw [heldAt, h]
  rfl

/-- The percentage of an entry is what the caller held whose structure was copied into it last. -/
structure PercentsHeld (stored : List Copied) (table : SigarCache SigarProcCpu) : Prop where
  owned : Owned table
  stored_lt : ∀ addr ∈ stored.map (·.addr), addr < table.mallocs
  percent : ∀ entry ∈ table.cells,
    (entry.value.getD .zero).percent = heldAt stored entry.addr

/-- The invariant of a run. -/
structure BufferInv (run : BufferRun) : Prop where
  unused : run.cache = none → run.stored = []
  table : ∀ table, run.cache = some table → PercentsHeld run.stored table

theorem BufferInv.start : BufferInv BufferRun.start := ⟨fun _ => rfl, fun _ h => by cases h⟩

section Percents

variable {run : BufferRun}

theorem BufferInv.percentsHeld (hinv : BufferInv run) (call : CpuCall) :
    PercentsHeld run.stored (procCpuTable run.cache call) := by
  cases hcache : run.cache with
  | some table => exact hinv.table table hcache
  | none =>
    refine ⟨sigarExpiredCacheNew_owned SigarProcCpu (by decide) _ _ _, ?_, fun entry he => ?_⟩
    · rw [hinv.unused hcache]
      exact fun addr haddr => absurd haddr not_mem_nil
    · exact absurd he (not_mem_new SigarProcCpu _ _ _ _ entry)

/-- **The cached percentage of a call** is the one that the last caller held. -/
theorem BufferInv.sample (hinv : BufferInv run) (call : CpuCall) :
    (cachedSample run.cache call).percent
      = heldAt run.stored (procCpuEntry run.cache call).addr := by
  have htable := hinv.percentsHeld call
  have hgot := sigarCacheGet_got htable.owned (pidToUInt64 call.pid) call.clock
  rcases hgot.origin with ⟨entry, he, _, haddr, hvalue⟩ | ⟨hnone, haddr⟩
  · -- the entry was there
    have haddr' : entry.addr = (procCpuEntry run.cache call).addr := haddr
    have hsample : cachedSample run.cache call = entry.value.getD .zero :=
      (congrArg (Option.getD · SigarProcCpu.zero) hvalue).symm
    rw [hsample, ← haddr']
    exact htable.percent entry he
  · -- a new entry
    have haddr' : (procCpuEntry run.cache call).addr = (procCpuTable run.cache call).mallocs :=
      haddr
    have hsample : cachedSample run.cache call = .zero :=
      congrArg (Option.getD · SigarProcCpu.zero) hnone
    have hnew : (procCpuEntry run.cache call).addr ∉ run.stored.map (·.addr) := by
      intro hin
      have hlt := htable.stored_lt _ hin
      omega
    rw [hsample, heldAt_of_notMem hnew]
    rfl

/-- The table after a call, for what it copied and what it put into the entry. -/
theorem PercentsHeld.update {stored stored' : List Copied} {table : SigarCache SigarProcCpu}
    (h : PercentsHeld stored table) (key : UInt64) (clock : Clock) {value : SigarProcCpu}
    (hnew : ∀ addr ∈ stored'.map (·.addr), addr = (sigarCacheGet table key clock).2.addr ∨
      addr ∈ stored.map (·.addr))
    (hsame : ∀ addr, addr ≠ (sigarCacheGet table key clock).2.addr →
      heldAt stored' addr = heldAt stored addr)
    (hvalue : value.percent = heldAt stored' (sigarCacheGet table key clock).2.addr) :
    PercentsHeld stored' (updateKey table key clock (some value)) := by
  obtain ⟨howned, hcells, hmallocs, hlt⟩ := updateKey_spec h.owned key clock (some value)
  have hgot := sigarCacheGet_got h.owned key clock
  refine ⟨howned, fun addr haddr => ?_, fun entry he => ?_⟩
  · rcases hnew addr haddr with rfl | hold
    · exact hlt
    · exact Nat.lt_of_lt_of_le (h.stored_lt addr hold) hmallocs
  · rcases hcells entry he with rfl | ⟨hold, hne⟩
    · exact hvalue
    · rw [h.percent entry hold, hsame _ (hgot.addr_ne h.owned hold hne)]

/-- The step lemma. -/
theorem BufferInv.step (hinv : BufferInv run) (call : CpuCall) :
    BufferInv (bufferStep run call).1 := by
  have htable := hinv.percentsHeld call
  refine ⟨fun h => (by cases h), fun table heq => ?_⟩
  rw [bufferStep_cache] at heq
  rw [← Option.some.inj heq]
  by_cases hcopy : call.timeNow ≠ (cachedSample run.cache call).lastTime ∧
      call.timeStatus = sigarOk
  · -- the caller's structure is copied into the entry
    have hpercent : (cpuUpdate (cachedSample run.cache call) call).1.percent
        = call.proccpu.percent := by
      rw [cpuUpdate_ok hcopy.1 hcopy.2]
      rfl
    rw [bufferStep_stored, if_pos hcopy]
    refine htable.update (pidToUInt64 call.pid) call.clock ?_ ?_ ?_
    · exact fun addr haddr => mem_cons.mp haddr
    · exact fun addr hne => heldAt_cons_other hne _
    · rw [hpercent]
      exact (heldAt_of_lastCopied (lastCopied_cons_self ⟨_, call.proccpu.percent, _⟩ _)).symm
  · -- the percentage of the entry stays
    have hpercent : (cpuUpdate (cachedSample run.cache call) call).1.percent
        = (cachedSample run.cache call).percent := by grind [cpuUpdate_same, cpuUpdate_fail]
    rw [bufferStep_stored, if_neg hcopy]
    exact htable.update (pidToUInt64 call.pid) call.clock (fun _ => .inr) (fun _ _ => rfl)
      (hpercent.trans (hinv.sample call))

end Percents

/-! ## The structures make no difference, and where they do -/

theorem bufferStep_answer (run : BufferRun) (call : CpuCall) :
    (bufferStep run call).2
      = ((cpuUpdate (cachedSample run.cache call) call).2.1,
          if (cpuUpdate (cachedSample run.cache call) call).2.1 = sigarOk then
            some (cpuUpdate (cachedSample run.cache call) call).2.2 else none) := rfl

/-- Related runs give the same answer, except to a repeat of a sample that was copied. -/
theorem Erased.answer {run run' : BufferRun} {call call' : CpuCall}
    (h : Erased run run') (hcall : SameButBuffer call call') (hinv : BufferInv run)
    (hinv' : BufferInv run') (hno : NoStoredRepeat run call) :
    (bufferStep run' call').2 = (bufferStep run call).2 := by
  have hsample := h.sample hcall
  have hlast := lastTime_of_erase hsample
  have hnow : call'.timeNow = call.timeNow := by rw [hcall]
  by_cases hrep : call.timeNow = (cachedSample run.cache call).lastTime
  · -- nothing was copied into the entry, so there is no percentage in either cache
    have hnot : (procCpuEntry run.cache call).addr ∉ run.stored.map (·.addr) :=
      fun hin => hno hin hrep
    have hnot' : (procCpuEntry run'.cache call').addr ∉ run'.stored.map (·.addr) := by
      rw [← h.addr hcall, ← h.stored]
      exact hnot
    have hequal : cachedSample run.cache call = cachedSample run'.cache call' :=
      erase_inj hsample (by rw [hinv.sample, hinv'.sample, heldAt_of_notMem hnot,
        heldAt_of_notMem hnot'])
    rw [bufferStep_repeat hrep, bufferStep_repeat (by rw [hnow, hrep, hlast]), hequal]
  · obtain ⟨_, hstatus, hout⟩ := cpuUpdate_erase hsample hcall
    rw [bufferStep_answer, bufferStep_answer, ← hstatus]
    by_cases hok : (cpuUpdate (cachedSample run.cache call) call).2.1 = sigarOk
    · rw [if_pos hok, if_pos hok, hout hrep hok]
    · rw [if_neg hok, if_neg hok]

/-- The run lemma: related runs stay related. -/
theorem Erased.exec : ∀ {calls calls' : List CpuCall}, Forall₂ SameButBuffer calls calls' →
    ∀ {run run' : BufferRun}, Erased run run' →
      Erased (exec bufferStep run calls).1 (exec bufferStep run' calls').1 := by
  intro calls calls' hcalls
  induction hcalls with
  | nil => intro run run' h; exact h
  | cons hcall _ ih => intro run run' h; exact ih (h.step hcall)

theorem BufferInv.exec {calls : List CpuCall} {run : BufferRun} (h : BufferInv run) :
    BufferInv (exec bufferStep run calls).1 := by
  induction calls generalizing run with
  | nil => exact h
  | cons call calls ih => exact ih (h.step call)

/-- What the callers' structures held, the copied samples do. -/
theorem stored_held {P : ℚ → Prop} : ∀ {calls : List CpuCall},
    (∀ call ∈ calls, P call.proccpu.percent) → ∀ {run : BufferRun},
      (∀ c ∈ run.stored, P c.held) → ∀ c ∈ (exec bufferStep run calls).1.stored, P c.held := by
  intro calls
  induction calls with
  | nil => intro _ run h; exact h
  | cons call calls ih =>
    intro hP run h
    obtain ⟨hcall, hcalls⟩ := forall_mem_cons.mp hP
    refine ih hcalls ?_
    rw [bufferStep_stored]
    split
    · exact forall_mem_cons.mpr ⟨hcall, h⟩
    · exact h

theorem results_eq : ∀ {calls calls' : List CpuCall}, Forall₂ SameButBuffer calls calls' →
    ∀ {run run' : BufferRun}, Erased run run' → BufferInv run → BufferInv run' →
      Along bufferStep NoStoredRepeat run calls →
      (exec bufferStep run' calls').2 = (exec bufferStep run calls).2 := by
  intro calls calls' hcalls
  induction hcalls with
  | nil => intro run run' _ _ _ _; rfl
  | cons hcall _ ih =>
    intro run run' h hinv hinv' hno
    rw [exec_cons, exec_cons, h.answer hcall hinv hinv' hno.1,
      ih (h.step hcall) (hinv.step _) (hinv'.step _) hno.2]

/-- The call of a caller with another percentage in its structure. -/
def withPercent (q : ℚ) (call : CpuCall) : CpuCall :=
  { call with proccpu := { call.proccpu with percent := q } }

theorem sameButBuffer_withPercent (q : ℚ) :
    ∀ calls : List CpuCall, Forall₂ SameButBuffer calls (calls.map (withPercent q)) := by
  intro calls
  induction calls with
  | nil => exact .nil
  | cons call calls ih => exact .cons rfl ih

/-- A repeat of a sample that was copied shows what the caller had in its structure. -/
theorem noStoredRepeat_of_bufferFree {calls : List CpuCall} (hfree : BufferFree calls) :
    Along bufferStep NoStoredRepeat .start calls := by
  refine along_of_cuts calls BufferRun.start fun before call after hcut hin hrep => ?_
  -- the same calls, with a percentage that was not reported here
  let q := (cachedSample (exec bufferStep .start before).1.cache call).percent + 1
  have herased : Erased (exec bufferStep .start before).1
      (exec bufferStep .start (before.map (withPercent q))).1 :=
    Erased.exec (sameButBuffer_withPercent q before) ⟨rfl, rfl⟩
  have hinv : BufferInv (exec bufferStep .start (before.map (withPercent q))).1 :=
    BufferInv.start.exec
  have hheld : ∀ c ∈ (exec bufferStep .start (before.map (withPercent q))).1.stored, c.held = q := by
    refine @stored_held (· = q) _ (fun c hc => ?_) .start fun c hc => absurd hc not_mem_nil
    obtain ⟨c', _, rfl⟩ := mem_map.mp hc
    rfl
  have hcall : SameButBuffer call (withPercent q call) := rfl
  have hlast := lastTime_of_erase (herased.sample hcall)
  have hpercent := hinv.sample (withPercent q call)
  rw [← herased.addr hcall, heldAt_of_forall (herased.stored ▸ hin) hheld] at hpercent
  have hresults := hfree (calls.map (withPercent q)) (sameButBuffer_withPercent q calls)
  have hanswer := congrArg (·[before.length]?) hresults
  have hlen : (before.map (withPercent q)).length = before.length := length_map _
  have hrep' : (withPercent q call).timeNow = _ := hrep.trans hlast
  rw [hcut, map_append, map_cons, exec_getElem?, ← hlen, exec_getElem?, bufferStep_repeat hrep,
    bufferStep_repeat hrep'] at hanswer
  have hequal := Option.some.inj (Prod.mk.inj (Option.some.inj hanswer)).2
  rw [hequal] at hpercent
  exact absurd hpercent (by show _ ≠ _ + 1; simp)

/-! ## Second calls in a millisecond -/

/-- A run so far: the cache is as its invariant says, samples were reported, and the reports for a
    process in a millisecond agree. -/
structure Agreeing (run : BufferRun) : Prop where
  inv : BufferInv run
  reported : ∀ c ∈ run.stored, c.report ∈ run.reports
  agree : ∀ r ∈ run.reports, ∀ r' ∈ run.reports, r.pid = r'.pid → r.time = r'.time →
    r.percent = r'.percent

/-- A second call returns what the first caller held, which is what that call reported. -/
theorem Agreeing.samePercent {run : BufferRun} (h : Agreeing run) {call : CpuCall}
    (hheld : HeldReported run call) : SamePercent run call := by
  intro report hmem hpid htime
  obtain ⟨hlast, c, hc, hcpid, hctime, hcheld⟩ := hheld report hmem hpid htime
  refine ⟨_, bufferStep_repeat hlast.symm, ?_⟩
  have hreport := h.reported c (mem_of_find?_eq_some hc)
  calc (cachedSample run.cache call).percent
      = heldAt run.stored (procCpuEntry run.cache call).addr := h.inv.sample call
    _ = c.report.percent := (heldAt_of_lastCopied hc).trans hcheld
    _ = report.percent :=
      h.agree _ hreport _ hmem (hcpid.trans hpid.symm) (hctime.trans htime.symm)

/-- The step lemma: a new report agrees with those of the millisecond. -/
theorem Agreeing.step {run : BufferRun} (h : Agreeing run) {call : CpuCall}
    (hsame : SamePercent run call) : Agreeing (bufferStep run call).1 := by
  have hstatus : ∀ out, (bufferStep run call).2 = (sigarOk, some out) →
      out = (cpuUpdate (cachedSample run.cache call) call).2.2 := by
    intro out hout
    rw [bufferStep_answer, Prod.mk.injEq] at hout
    rw [if_pos hout.1] at hout
    exact (Option.some.inj hout.2).symm
  have hold : ∀ r ∈ run.reports, r.pid = call.pid → r.time = call.timeNow →
      (cpuUpdate (cachedSample run.cache call) call).2.2.percent = r.percent := by
    intro r hr hpid htime
    obtain ⟨out, hout, hpercent⟩ := hsame r hr hpid htime
    rw [← hstatus out hout, hpercent]
  refine ⟨h.inv.step call, ?_, ?_⟩
  · rw [bufferStep_stored, bufferStep_reports]
    by_cases hcopy : call.timeNow ≠ (cachedSample run.cache call).lastTime ∧
        call.timeStatus = sigarOk
    · have hok : (cpuUpdate (cachedSample run.cache call) call).2.1 = sigarOk := by
        rw [cpuUpdate_ok hcopy.1 hcopy.2]
      rw [if_pos hcopy, if_pos hok]
      exact forall_mem_cons.mpr ⟨mem_cons_self, fun c hc => mem_cons_of_mem _ (h.reported c hc)⟩
    · rw [if_neg hcopy]
      intro c hc
      split
      · exact mem_cons_of_mem _ (h.reported c hc)
      · exact h.reported c hc
  · rw [bufferStep_reports]
    split
    · intro r hr r' hr' hpid htime
      rcases mem_cons.mp hr with rfl | hr
      · rcases mem_cons.mp hr' with rfl | hr'
        · rfl
        · exact hold r' hr' hpid.symm htime.symm
      · rcases mem_cons.mp hr' with rfl | hr'
        · exact (hold r hr hpid htime).symm
        · exact h.agree r hr r' hr' hpid htime
    · exact h.agree

/-- **The callers' structures make no difference exactly when no call repeats a sample that was
    copied into the cache; and a second call in a millisecond reports the same percentage if the
    structure of the first held it.** -/
theorem sigarProcCpu_buffers (calls : List CpuCall) :
    (BufferFree calls ↔ Along bufferStep NoStoredRepeat .start calls) ∧
    (Along bufferStep HeldReported .start calls → Along bufferStep SamePercent .start calls) := by
  constructor
  · constructor
    · exact noStoredRepeat_of_bufferFree
    · intro hno calls' hcalls
      exact results_eq hcalls ⟨rfl, rfl⟩ BufferInv.start BufferInv.start hno
  · have hstart : Agreeing .start :=
      ⟨BufferInv.start, fun _ h => absurd h not_mem_nil, fun _ h => absurd h not_mem_nil⟩
    refine along_of_invariant (fun run call h hheld => ?_) calls _ hstart
    have hsame := h.samePercent hheld
    exact ⟨h.step hsame, hsame⟩

/-- A call at `now` for a process with this total, from a caller with this percentage in its
    structure. -/
def bufferCall (now total : UInt64) (percent : ℚ) : CpuCall :=
  withPercent percent (exampleCall now sigarOk 7 total)

instance (run : BufferRun) (call : CpuCall) : Decidable (NoStoredRepeat run call) :=
  inferInstanceAs (Decidable (_ → _))

instance (run : BufferRun) (call : CpuCall) : Decidable (HeldReported run call) :=
  inferInstanceAs (Decidable (∀ report ∈ run.reports, _ → _ → _ ∧ ∃ c ∈ lastCopied _ _, _))

/-- Two samples in different milliseconds; and two, one from a cleared structure and one from a
    structure that holds the 1/2 that the call reports, each asked for twice in its millisecond. -/
theorem sigarProcCpu_buffers_example :
    BufferFree [bufferCall 1000 50 7, bufferCall 2000 90 3] ∧
    Along bufferStep SamePercent .start [bufferCall 1000 50 0, bufferCall 1000 50 7,
      bufferCall 2000 550 (1 / 2), bufferCall 2000 550 7] := by
  constructor
  · apply (sigarProcCpu_buffers _).1.mpr
    decide +kernel
  · apply (sigarProcCpu_buffers _).2
    decide +kernel

/-- The second call in the millisecond reports the 7 that the first caller's structure held. -/
theorem callersPercent_reported :
    ¬ BufferFree [bufferCall 1000 50 7, bufferCall 1000 50 0] ∧
    ¬ Along bufferStep SamePercent .start [bufferCall 1000 50 7, bufferCall 1000 50 0] := by
  constructor
  · intro hfree
    have hsame := hfree [bufferCall 1000 50 3, bufferCall 1000 50 0] (.cons rfl (.cons rfl .nil))
    exact absurd hsame (by decide +kernel)
  · intro halong
    have hreported : (⟨1, 1000, 0⟩ : Report) ∈
        (bufferStep .start (bufferCall 1000 50 7)).1.reports := by decide +kernel
    obtain ⟨out, hout, hpercent⟩ := halong.2.1 _ hreported rfl rfl
    have hseven : ((bufferStep (bufferStep .start (bufferCall 1000 50 7)).1
        (bufferCall 1000 50 0)).2.2.map (·.percent)) = some 7 := by decide +kernel
    rw [hout] at hseven
    have hout7 : out.percent = 7 := Option.some.inj hseven
    rw [hout7] at hpercent
    exact absurd hpercent (by decide +kernel)

end Sigar.Proc
