/-
  Calls of `sigar_disk_usage_get` one after the other: the service time and the queue.

  Both are quotients by the seconds since the sample before, and the uptime is cut to seconds.  The
  sample before is the one that the device has kept from the last call; before the first call it is
  cleared, and the interval is the uptime itself.

  1. **One call** — `deriveMetrics_marked`: with an interval that is not 0 both are numbers.
  2. **The run** — `metrics_defined_iff`: the sample before is always the one of the call before
     (`Holds`), so no counter is behind, and no interval is 0 exactly if the calls come in later and
     later seconds.
-/
import Sigar.Disk.Diskstats
import Sigar.Disk.Sample
import Mathlib.Tactic.Positivity

namespace Sigar.Disk

open CString Cache Runs List

/-! ## One call -/

/-- A derived metric: the mark if its counter is not there, and else a number that is not negative. -/
def Marked (counter : UInt64) (metric : Option ℚ) : Prop :=
  if counter = sigarFieldNotImpl then metric = notImplDouble else ∃ q, metric = some q ∧ 0 ≤ q

/-- The whole seconds of the uptime. -/
def DiskHost.snaptime (host : DiskHost) : UInt64 := UInt64.ofNat ⌊host.uptime⌋.toNat

theorem divide_some (x : ℚ) {y : ℚ} (hy : y ≠ 0) : divide (some x) (some y) = some (x / y) := by
  rw [divide, if_neg hy]

theorem deriveMetrics_marked (host : DiskHost) {prev : DiskUsage} (disk : DiskUsage)
    (hinterval : intervalSince prev host.snaptime ≠ 0) :
    Marked disk.time (deriveMetrics host.uptime prev disk).serviceTime ∧
      Marked disk.qtime (deriveMetrics host.uptime prev disk).queue := by
  have hne : ((intervalSince prev host.snaptime).toNat : ℚ) ≠ 0 := by
    intro h
    exact hinterval (UInt64.toNat_inj.mp (Nat.cast_eq_zero.mp h))
  rw [DiskHost.snaptime] at hne
  constructor
  · rw [Marked, deriveMetrics]
    split
    · rfl
    · simp only [divide_some _ hne, Option.map_some]
      split
      · exact ⟨0, rfl, le_refl _⟩
      · next htput =>
        refine ⟨_, divide_some _ fun h => htput (by rw [h]), ?_⟩
        rw [hz]
        positivity
  · rw [Marked, deriveMetrics]
    split
    · rfl
    · simp only [divide_some _ hne, Option.map_some]
      exact ⟨_, rfl, by positivity⟩

/-! ## The run -/

/-- What a call reads: the second, the counters that it derives from, and what the caller gets. -/
structure Reading where
  snaptime : UInt64
  sample : DiskCounters
  usage : DiskUsage

/-- A call as a step of the handle; there is a reading if it succeeds. -/
def readDisk (handle : DiskHandle) (call : DiskCall) : DiskHandle × Option Reading :=
  match fetch call.host handle call.name, sigarDiskUsageGet call.host handle call.name with
  | .ok fetched, .ok (handle', status, usage) =>
    if status = sigarOk then
      (handle', fetched.iodev.map fun found =>
        ⟨call.host.snaptime, (fetched.sample handle.iostat found.2).toDiskCounters, usage⟩)
    else (handle', none)
  | _, _ => (handle, none)

/-- The counters that differences are taken of have not gone back. -/
def DiskCounters.NotBehind (c prev : DiskCounters) : Prop :=
  prev.reads ≤ c.reads ∧ prev.writes ≤ c.writes ∧ prev.time ≤ c.time ∧ prev.qtime ≤ c.qtime

/-- The metrics of a call are defined: the interval is not 0, no counter is behind the sample that
    the device has kept, and both metrics are numbers. -/
def MetricsDefined (key : UInt64) (handle : DiskHandle) (call : DiskCall) : Prop :=
  ∀ reading, (readDisk handle call).2 = some reading →
    intervalSince (keptSample (openFsdev call.host handle.fsdev) key) reading.snaptime ≠ 0 ∧
    reading.sample.NotBehind (keptSample (openFsdev call.host handle.fsdev) key).toDiskCounters ∧
    Marked reading.sample.time reading.usage.serviceTime ∧
    Marked reading.sample.qtime reading.usage.queue

/-- The device has kept that reading. -/
structure Holds (key : UInt64) (handle : DiskHandle) (last : Reading) : Prop where
  kept : ∀ host, Kept (openFsdev host handle.fsdev)
  snaptime : ∀ host, (keptSample (openFsdev host handle.fsdev) key).snaptime = last.snaptime
  sample : ∀ host, (keptSample (openFsdev host handle.fsdev) key).toDiskCounters = last.sample

/-- What a new handle has read. -/
def Reading.nothing : Reading := ⟨0, DiskUsage.zero.toDiskCounters, .zero⟩

theorem holds_new (key : UInt64) (iostat : Iostat) : Holds key ⟨none, iostat⟩ .nothing := by
  have hzero : ∀ host, keptSample (openFsdev host none) key = .zero := by
    intro host
    rw [keptSample, openFsdev, Option.getD_none, valueOf_new]
    rfl
  refine ⟨openFsdev_none_kept, fun host => ?_, fun host => ?_⟩
  · rw [hzero]
    rfl
  · rw [hzero]
    rfl

/-- A reading is one of a call that succeeds. -/
theorem readDisk_ok {handle : DiskHandle} {call : DiskCall} {reading : Reading}
    (h : (readDisk handle call).2 = some reading) :
    ∃ fetched addr iodev handle' usage, fetch call.host handle call.name = .ok fetched ∧
      fetched.status = sigarOk ∧ fetched.iodev = some (addr, iodev) ∧
      sigarDiskUsageGet call.host handle call.name = .ok (handle', sigarOk, usage) ∧
      readDisk handle call = (handle', some reading) ∧
      reading = ⟨call.host.snaptime, (fetched.sample handle.iostat iodev).toDiskCounters, usage⟩ := by
  unfold readDisk at h ⊢
  split at h
  · next fetched handle' status usage hfetch hcall =>
    split at h
    · next hstatus =>
      subst hstatus
      obtain ⟨fetched', addr, iodev, hfetch', hok, hiodev⟩ := sigarDiskUsageGet_ok hcall
      rw [hfetch, Except.ok.injEq] at hfetch'
      subst hfetch'
      rw [hiodev, Option.map_some, Option.some.injEq] at h
      refine ⟨fetched, addr, iodev, handle', usage, hfetch, hok, hiodev, hcall, ?_, h.symm⟩
      rw [if_pos rfl, hiodev, Option.map_some, h]
    · cases h
  · cases h

/-- **The step**: the device keeps the sample of the call, and the metrics are those derived from it
    and from the sample that was kept before. -/
theorem readDisk_holds {key : UInt64} {handle : DiskHandle} {last : Reading} {call : DiskCall}
    {reading : Reading} (hholds : Holds key handle last) (hon : call.IsOn key)
    (h : (readDisk handle call).2 = some reading) :
    Holds key (readDisk handle call).1 reading ∧
      ∃ disk : DiskUsage, disk.toDiskCounters = reading.sample ∧
        reading.snaptime = call.host.snaptime ∧
        reading.usage.serviceTime = (deriveMetrics call.host.uptime
          (keptSample (openFsdev call.host handle.fsdev) key) disk).serviceTime ∧
        reading.usage.queue = (deriveMetrics call.host.uptime
          (keptSample (openFsdev call.host handle.fsdev) key) disk).queue := by
  obtain ⟨fetched, addr, iodev, handle', usage, hfetch, hok, hiodev, hcall, hread, hreading⟩ :=
    readDisk_ok h
  obtain ⟨sb, table, usage', hstat, -, hcall', htaken⟩ :=
    sigarDiskUsageGet_taken (hholds.kept call.host) hfetch hok hiodev
  obtain ⟨sb', hstat', hkey⟩ := hon
  rw [hstat, Except.ok.injEq] at hstat'
  rw [hstat', hkey] at htaken
  rw [hcall, Except.ok.injEq, Prod.mk.injEq, Prod.mk.injEq] at hcall'
  obtain ⟨rfl, -, rfl⟩ := hcall'
  have hopen : ∀ host, openFsdev host (some table) = table := fun _ => rfl
  rw [hread, hreading]
  refine ⟨⟨fun _ => htaken.kept, fun host => ?_, fun host => ?_⟩, _, rfl, rfl, ?_, ?_⟩
  · dsimp only
    rw [hopen, htaken.sample]
    rfl
  · dsimp only
    rw [hopen, htaken.sample]
    rfl
  · rw [← htaken.sample]
    exact htaken.serviceTime
  · rw [← htaken.sample]
    exact htaken.queue

/-- A reading that is not earlier than another, and whose counters are not behind. -/
def Reading.NotBefore (last reading : Reading) : Prop :=
  last.snaptime ≤ reading.snaptime ∧ reading.sample.NotBehind last.sample

instance (last reading : Reading) : Decidable (last.NotBefore reading) :=
  inferInstanceAs (Decidable (_ ∧ _ ∧ _ ∧ _ ∧ _))

/-- The interval is 0 exactly if no second has passed since the sample that is kept. -/
theorem intervalSince_ne_zero_iff {prev : DiskUsage} {snaptime : UInt64}
    (h : prev.snaptime ≤ snaptime) :
    intervalSince prev snaptime ≠ 0 ↔ prev.snaptime < snaptime := by
  have hsub := UInt64.toNat_sub_of_le _ _ h
  have hzero : (0 : UInt64).toNat = 0 := rfl
  rw [UInt64.le_iff_toNat_le] at h
  rw [intervalSince, UInt64.lt_iff_toNat_lt, Ne, ← UInt64.toNat_inj, hzero]
  split
  · omega
  · grind

/-- **One call is defined** exactly if it comes in a later second than the reading that is kept. -/
theorem metricsDefined_iff {key : UInt64} {handle : DiskHandle} {last reading : Reading}
    {call : DiskCall} (hholds : Holds key handle last) (hon : call.IsOn key)
    (hread : (readDisk handle call).2 = some reading) (hnot : last.NotBefore reading) :
    MetricsDefined key handle call ↔ last.snaptime < reading.snaptime := by
  have hprev := hholds.snaptime call.host
  have hinterval := intervalSince_ne_zero_iff (hprev ▸ hnot.1)
  rw [hprev] at hinterval
  constructor
  · intro hdefined
    exact hinterval.mp (hdefined reading hread).1
  · intro hlater reading' hread'
    rw [hread, Option.some.injEq] at hread'
    subst hread'
    obtain ⟨-, disk, hdisk, hsnaptime, htime, hqueue⟩ := readDisk_holds hholds hon hread
    have hne := hinterval.mpr hlater
    have hmarked := deriveMetrics_marked call.host disk (by rwa [← hsnaptime])
    rw [← htime, ← hqueue, hdisk] at hmarked
    refine ⟨hne, ?_, hmarked⟩
    rw [hholds.sample]
    exact hnot.2

/-- The run, from a handle whose device has kept a reading. -/
theorem along_metricsDefined_iff {key : UInt64} : ∀ (calls : List DiskCall)
    (readings : List Reading) (handle : DiskHandle) (last : Reading), Holds key handle last →
    (∀ call ∈ calls, call.IsOn key) → (exec readDisk handle calls).2 = readings.map some →
    (last :: readings).IsChain Reading.NotBefore →
    (Along readDisk (MetricsDefined key) handle calls ↔
      (last.snaptime :: calls.map fun call => call.host.snaptime).IsChain (· < ·)) := by
  intro calls
  induction calls with
  | nil =>
    intro readings handle last _ _ _ _
    exact ⟨fun _ => isChain_singleton _, fun _ => trivial⟩
  | cons call calls ih =>
    intro readings handle last hholds hon hrun hchain
    have hthis : call.IsOn key := hon call mem_cons_self
    cases readings with
    | nil => cases hrun
    | cons reading readings =>
      rw [exec_cons, map_cons, List.cons.injEq] at hrun
      obtain ⟨hread, hrest⟩ := hrun
      obtain ⟨hnot, hchain⟩ := isChain_cons_cons.mp hchain
      obtain ⟨hholds', -, -, hsnaptime, -⟩ := readDisk_holds hholds hthis hread
      have hcalls := ih readings _ reading hholds'
        (fun c hc => hon c (mem_cons_of_mem call hc)) hrest hchain
      rw [map_cons, isChain_cons_cons, Along, ← hsnaptime, hcalls,
        metricsDefined_iff hholds hthis hread hnot]

/-- **In every run of calls that succeed on one device of a new handle**, with seconds and counters
    that do not go back, the metrics of every call are defined exactly if each call comes in a later
    second than the one before, and the first not in the second 0. -/
theorem metrics_defined_iff {key : UInt64} {iostat : Iostat} {calls : List DiskCall}
    {readings : List Reading} (hon : ∀ call ∈ calls, call.IsOn key)
    (hrun : (exec readDisk ⟨none, iostat⟩ calls).2 = readings.map some)
    (hchain : readings.IsChain Reading.NotBefore) :
    Along readDisk (MetricsDefined key) ⟨none, iostat⟩ calls ↔
      (0 :: calls.map fun call => call.host.snaptime).IsChain (· < ·) := by
  refine along_metricsDefined_iff calls readings _ .nothing (holds_new key iostat) hon hrun ?_
  cases readings with
  | nil => exact isChain_singleton _
  | cons reading readings =>
    -- nothing is before nothing
    refine isChain_cons_cons.mpr ⟨⟨UInt64.zero_le, ?_⟩, hchain⟩
    exact ⟨UInt64.zero_le, UInt64.zero_le, UInt64.zero_le, UInt64.zero_le⟩

/-- A call for the disk of `sdaRows` at an uptime. -/
def sdaCall (uptime : ℚ) : DiskCall :=
  ⟨{ rowsHost sdaRows 2048 with uptime := uptime }, "/dev/sda".toList⟩

/-- The readings of two such calls. -/
def sdaReadings (first second : ℚ) : List Reading :=
  (exec readDisk ⟨none, .diskstats⟩ [sdaCall first, sdaCall second]).2.filterMap id

theorem metrics_defined_sda : Along readDisk (MetricsDefined 2048) ⟨none, .diskstats⟩
    [sdaCall 5, sdaCall 7] := by
  have hon : ∀ call ∈ [sdaCall 5, sdaCall 7], call.IsOn 2048 := by
    intro call hcall
    rcases mem_pair.mp hcall with rfl | rfl <;> exact ⟨_, rfl, rfl⟩
  have hchain : (sdaReadings 5 7).IsChain Reading.NotBefore :=
    isChain_cons_cons.mpr ⟨by decide, isChain_singleton _⟩
  exact (metrics_defined_iff hon (by rfl) hchain).mpr (by decide)

/-- Two calls in the same second: the second has an interval of 0. -/
theorem sameSecond_undefined :
    (∀ call ∈ [sdaCall 5, sdaCall 5], call.IsOn 2048) ∧
    (exec readDisk ⟨none, .diskstats⟩ [sdaCall 5, sdaCall 5]).2 = (sdaReadings 5 5).map some ∧
    (sdaReadings 5 5).IsChain Reading.NotBefore ∧
    ¬ Along readDisk (MetricsDefined 2048) ⟨none, .diskstats⟩ [sdaCall 5, sdaCall 5] := by
  refine ⟨?_, by rfl, ?_, ?_⟩
  · intro call hcall
    rcases mem_pair.mp hcall with rfl | rfl <;> exact ⟨_, rfl, rfl⟩
  · exact isChain_cons_cons.mpr ⟨by decide, isChain_singleton _⟩
  · rintro ⟨-, hsecond, -⟩
    obtain ⟨hinterval, -⟩ := hsecond _ rfl
    exact hinterval (by decide)

end Sigar.Disk
