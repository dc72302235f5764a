/-
  The CPU counters of a Linux host.

  Source: `sigar_cpu_t`, and `get_cpu_metrics` and `sigar_cpu_get` of `os/linux/linux_sigar.c`.

  The eight counters are read, subtracted and divided one by one in the source, always in the same
  way: `Counters` is the record of eight values, and `Counter` names its fields.
-/
import Sigar.Util

namespace Sigar.Cpu

open CString

/-- The names of the counters. -/
inductive Counter where
  | user | sys | nice | idle | wait | irq | softIrq | stolen
  deriving DecidableEq

/-- One value for each counter. -/
structure Counters (α : Type) where
  user : α
  sys : α
  nice : α
  idle : α
  wait : α
  irq : α
  softIrq : α
  stolen : α
  deriving DecidableEq

namespace Counters

variable {α β γ : Type}

/-- The value of a counter. -/
def get (r : Counters α) : Counter → α
  | .user => r.user
  | .sys => r.sys
  | .nice => r.nice
  | .idle => r.idle
  | .wait => r.wait
  | .irq => r.irq
  | .softIrq => r.softIrq
  | .stolen => r.stolen

/-- The same computation for every counter. -/
def map (f : α → β) (r : Counters α) : Counters β :=
  ⟨f r.user, f r.sys, f r.nice, f r.idle, f r.wait, f r.irq, f r.softIrq, f r.stolen⟩

@[inherit_doc map] def zipWith (f : α → β → γ) (r : Counters α) (s : Counters β) : Counters γ :=
  ⟨f r.user s.user, f r.sys s.sys, f r.nice s.nice, f r.idle s.idle, f r.wait s.wait,
    f r.irq s.irq, f r.softIrq s.softIrq, f r.stolen s.stolen⟩

/-- All counters together. -/
def sum [Add α] (r : Counters α) : α :=
  r.user + r.sys + r.nice + r.idle + r.wait + r.irq + r.softIrq + r.stolen

@[simp] theorem get_map (f : α → β) (r : Counters α) (c : Counter) :
    (r.map f).get c = f (r.get c) := by
  cases c <;> rfl

@[simp] theorem get_zipWith (f : α → β → γ) (r : Counters α) (s : Counters β) (c : Counter) :
    (r.zipWith f s).get c = f (r.get c) (s.get c) := by
  cases c <;> rfl

/-- A record is its eight values. -/
theorem ext_get {r s : Counters α} (h : ∀ c, r.get c = s.get c) : r = s := by
  obtain ⟨r1, r2, r3, r4, r5, r6, r7, r8⟩ := r
  obtain ⟨s1, s2, s3, s4, s5, s6, s7, s8⟩ := s
  have hu : r1 = s1 := h .user
  have hs : r2 = s2 := h .sys
  have hn : r3 = s3 := h .nice
  have hi : r4 = s4 := h .idle
  have hw : r5 = s5 := h .wait
  have hq : r6 = s6 := h .irq
  have hf : r7 = s7 := h .softIrq
  have ht : r8 = s8 := h .stolen
  rw [hu, hs, hn, hi, hw, hq, hf, ht]

end Counters

/-- `sigar_cpu_t`. -/
structure SigarCpu extends Counters UInt64 where
  total : UInt64
  deriving DecidableEq

/-- `SIGAR_ZERO`. -/
def SigarCpu.zero : SigarCpu := ⟨⟨0, 0, 0, 0, 0, 0, 0, 0⟩, 0⟩

/-- `counter += SIGAR_TICK2MSEC(s)`: the sum is formed as a `double`. -/
def addTicks (ticks : Int32) (counter s : UInt64) : UInt64 :=
  (counter.toFloat + s.toFloat * (1000.0 / Float.ofInt ticks.toInt)).toUInt64

/-- `get_cpu_metrics`: the counters of a line are ADDED to those of `cpu`. -/
def getCpuMetrics (ticks : Int32) (cpu : SigarCpu) (line : Text) : SigarCpu :=
  let ptr := sigarSkipToken line  -- "cpu%d"
  let user := strtoull ptr
  let nice := strtoull user.rest
  let sys := strtoull nice.rest
  let idle := strtoull sys.rest
  let cpu := { cpu with
    user := addTicks ticks cpu.user user.value
    nice := addTicks ticks cpu.nice nice.value
    sys := addTicks ticks cpu.sys sys.value
    idle := addTicks ticks cpu.idle idle.value }
  let (cpu, ptr) :=
    if deref idle.rest = ' ' then  -- 2.6+ kernels only
      let wait := strtoull idle.rest
      let irq := strtoull wait.rest
      let softIrq := strtoull irq.rest
      ({ cpu with
        wait := addTicks ticks cpu.wait wait.value
        irq := addTicks ticks cpu.irq irq.value
        softIrq := addTicks ticks cpu.softIrq softIrq.value }, softIrq.rest)
    else (cpu, idle.rest)
  let cpu :=
    if deref ptr = ' ' then  -- 2.6.11+ kernels only
      { cpu with stolen := addTicks ticks cpu.stolen (strtoull ptr).value }
    else cpu
  { cpu with
    total := cpu.user + cpu.nice + cpu.sys + cpu.idle + cpu.wait + cpu.irq + cpu.softIrq +
      cpu.stolen }

/-- `sigar_cpu_get`: the status, and the counters of the first line of /proc/stat. -/
def sigarCpuGet (ticks : Int32) (stat : FileRead) (cpu : SigarCpu) : Status × SigarCpu :=
  let (status, buffer) := sigarFile2str bufsiz stat
  if status ≠ sigarOk then (status, cpu)
  else (sigarOk, getCpuMetrics ticks .zero buffer)

end Sigar.Cpu
