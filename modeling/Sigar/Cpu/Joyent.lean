/-
  The CPU counters of a Joyent zone.

  Source: `sigar_cpu_list_get_joyent` of `os/solaris/solaris_sigar.c`.

  A zone has three counters of nanoseconds and no idle time.  The handle keeps a TOTAL, which starts
  at what has been used at the first call and is then advanced by the clock; what the zone has not
  used of it is the idle time.

  1. **Program** — `sigarCpuListGetJoyent`.  The first call only primes the handle: the total and the
     idle time that it REPORTS are 0.
  2. **The invariant** (`Shown`) — the total of the handle is the one that was reported last and is not
     above the clock, and the idle time is the rest.
  3. **Result** — the law holds in a run exactly when the zone has used nothing at the first call and
     in no interval more than the time that passes (`joyent_run_iff`).
-/
import Sigar.Cpu.Metrics
import Sigar.Lib.Runs
import Mathlib.Data.List.Chain

namespace Sigar.Cpu.Joyent

open Runs List

/-! ## The program -/

/-- `kstat_named_t`, of 64 bits. -/
structure KstatNamed where
  name : List Char
  value : UInt64

/-- What a call finds: the kstats cannot be updated, the zone has none, or it has one that is not of
    the type `KSTAT_TYPE_NAMED`, or one that is. -/
inductive ZoneKstat where
  | noUpdate (errno : Status)
  | missing
  | otherType
  | named (data : List KstatNamed)

/-- What the function keeps in the handle. -/
structure JoyentHandle where
  cpuPrevTime : UInt64
  cpuTotal : UInt64

/-- A handle from `sigar_os_open`, which is cleared. -/
def JoyentHandle.opened : JoyentHandle := ⟨0, 0⟩

/-- The body of the loop over `ks_data`. -/
def readNamed (cpu : SigarCpu) (kn : KstatNamed) : SigarCpu :=
  if kn.name = "nsec_sys".toList then { cpu with sys := kn.value / 1000000 }
  else if kn.name = "nsec_user".toList then { cpu with user := kn.value / 1000000 }
  else if kn.name = "nsec_waitrq".toList then { cpu with wait := kn.value / 1000000 }
  else cpu

/-- A call: what it finds, and the clock. -/
structure ZoneCall where
  kstat : ZoneKstat
  now : UInt64

/-- `sigar_cpu_list_get_joyent`: the handle, the status and the list. -/
def sigarCpuListGetJoyent (handle : JoyentHandle) (call : ZoneCall) :
    JoyentHandle × Status × List SigarCpu :=
  match call.kstat with
  | .noUpdate errno => (handle, errno, [])
  | .missing => (handle, sigarOk, [])
  | .otherType => (handle, sigarOk, [.zero])
  | .named data =>
    let cpu := data.foldl readNamed .zero
    if handle.cpuPrevTime = 0 then
      (⟨call.now, cpu.user + cpu.sys + cpu.wait⟩, sigarOk, [cpu])
    else
      let delta := call.now - handle.cpuPrevTime
      let cpuTotal := handle.cpuTotal + delta
      (⟨call.now, cpuTotal⟩, sigarOk,
        [{ cpu with total := cpuTotal, idle := cpuTotal - (cpu.user + cpu.sys + cpu.wait) }])

/-- What the calls of a run report, in order. -/
def reports (handle : JoyentHandle) (calls : List ZoneCall) : List SigarCpu :=
  (exec sigarCpuListGetJoyent handle calls).2.flatMap (·.2)

/-! ## The law -/

/-- `user + sys + wait + idle = total`, as numbers. -/
def Balanced (cpu : SigarCpu) : Prop :=
  cpu.user.toNat + cpu.sys.toNat + cpu.wait.toNat + cpu.idle.toNat = cpu.total.toNat

instance (cpu : SigarCpu) : Decidable (Balanced cpu) := inferInstanceAs (Decidable (_ = _))

/-- The total and the idle time do not decrease. -/
def Grows (cpu cpu' : SigarCpu) : Prop := cpu.total ≤ cpu'.total ∧ cpu.idle ≤ cpu'.idle

/-- **The law**, for the values that the calls of a run report. -/
structure Lawful (cpus : List SigarCpu) : Prop where
  balanced : ∀ cpu ∈ cpus, Balanced cpu
  grows : cpus.IsChain Grows

/-! ## What the zone does -/

/-- A counter of the zone; where a name stands twice, the last value is taken. -/
def counter (name : List Char) (data : List KstatNamed) : UInt64 :=
  ((data.filter (·.name = name)).getLast?.map (·.value)).getD 0

/-- What the zone is like at a call. -/
structure Reading where
  now : UInt64
  nsecUser : UInt64
  nsecSys : UInt64
  nsecWaitrq : UInt64

def ZoneCall.reading (call : ZoneCall) : Option Reading :=
  match call.kstat with
  | .named data => some ⟨call.now, counter "nsec_user".toList data, counter "nsec_sys".toList data,
      counter "nsec_waitrq".toList data⟩
  | _ => none

/-- What the calls of a run read. -/
def readings (calls : List ZoneCall) : List Reading := calls.filterMap ZoneCall.reading

/-- The milliseconds that the zone has used or waited. -/
def Reading.used (r : Reading) : Nat :=
  r.nsecUser.toNat / 1000000 + r.nsecSys.toNat / 1000000 + r.nsecWaitrq.toNat / 1000000

/-- Neither the clock nor a counter decreases. -/
structure Reading.Before (r r' : Reading) : Prop where
  now : r.now ≤ r'.now
  user : r.nsecUser ≤ r'.nsecUser
  sys : r.nsecSys ≤ r'.nsecSys
  waitrq : r.nsecWaitrq ≤ r'.nsecWaitrq

/-- A run of calls in one zone: its kstat is a named one wherever it is found. -/
structure ZoneRun (calls : List ZoneCall) : Prop where
  named : ∀ call ∈ calls, call.kstat ≠ .otherType
  before : (readings calls).IsChain Reading.Before

/-- The zone uses no more than the time that passes; after a reading of the clock that was 0 the
    handle is primed once more, and nothing may have been used. -/
def Fits (r r' : Reading) : Prop :=
  if r.now = 0 then r'.used = 0 else r'.used - r.used ≤ r'.now.toNat - r.now.toNat

/-- **When the law holds.** -/
structure FitsClock (rs : List Reading) : Prop where
  first : ∀ r ∈ rs.head?, r.used = 0
  between : rs.IsChain Fits

/-! ## One call -/

theorem counter_concat (name : List Char) (data : List KstatNamed) (kn : KstatNamed) :
    counter name (data ++ [kn]) = if kn.name = name then kn.value else counter name data := by
  grind [filter_cons_of_pos, getLast?_concat, filter_cons_of_neg, counter]

/-- **The loop** takes the last value of each name. -/
theorem foldl_readNamed (data : List KstatNamed) :
    data.foldl readNamed .zero =
      { SigarCpu.zero with
        user := counter "nsec_user".toList data / 1000000
        sys := counter "nsec_sys".toList data / 1000000
        wait := counter "nsec_waitrq".toList data / 1000000 } := by
  induction data using reverseRecOn with
  | nil => rfl
  | append_singleton data kn ih =>
    rw [foldl_append, ih, foldl_cons, foldl_nil, readNamed, counter_concat, counter_concat,
      counter_concat]
    by_cases hsys : kn.name = "nsec_sys".toList
    · rw [if_pos hsys, if_pos hsys, hsys, if_neg (by decide), if_neg (by decide)]
    · rw [if_neg hsys, if_neg hsys]
      by_cases huser : kn.name = "nsec_user".toList
      · rw [if_pos huser, if_pos huser, huser, if_neg (by decide)]
      · rw [if_neg huser, if_neg huser]
        by_cases hwait : kn.name = "nsec_waitrq".toList
        · rw [if_pos hwait, if_pos hwait]
        · rw [if_neg hwait, if_neg hwait]

/-- What has been used, as the sum is formed. -/
def Reading.usedWord (r : Reading) : UInt64 :=
  r.nsecUser / 1000000 + r.nsecSys / 1000000 + r.nsecWaitrq / 1000000

/-- The sum does not wrap: each of the three is far below 2^64. -/
theorem Reading.toNat_usedWord (r : Reading) : r.usedWord.toNat = r.used := by
  have huser := r.nsecUser.toNat_lt
  have hsys := r.nsecSys.toNat_lt
  have hwait := r.nsecWaitrq.toNat_lt
  rw [usedWord, used, UInt64.toNat_add, UInt64.toNat_add, UInt64.toNat_div, UInt64.toNat_div,
    UInt64.toNat_div, show (1000000 : UInt64).toNat = 1000000 from rfl]
  omega

/-- What a call reports for a reading. -/
def Reading.shown (r : Reading) (total idle : UInt64) : SigarCpu :=
  { SigarCpu.zero with
    user := r.nsecUser / 1000000
    sys := r.nsecSys / 1000000
    wait := r.nsecWaitrq / 1000000
    idle := idle
    total := total }

theorem balanced_shown (r : Reading) (total idle : UInt64) :
    Balanced (r.shown total idle) ↔ r.used + idle.toNat = total.toNat := by
  show (r.nsecUser / 1000000).toNat + (r.nsecSys / 1000000).toNat + (r.nsecWaitrq / 1000000).toNat
    + idle.toNat = total.toNat ↔ _
  rw [UInt64.toNat_div, UInt64.toNat_div, UInt64.toNat_div]
  exact Iff.rfl

/-- The total that a reading comes to. -/
def Reading.totalAfter (r : Reading) (handle : JoyentHandle) : UInt64 :=
  handle.cpuTotal + (r.now - handle.cpuPrevTime)

section Call

variable {call : ZoneCall} {r : Reading} {handle : JoyentHandle}

/-- A call that finds the kstat: the first one, and all others. -/
theorem call_named (hr : call.reading = some r) :
    sigarCpuListGetJoyent handle call =
      if handle.cpuPrevTime = 0 then (⟨r.now, r.usedWord⟩, sigarOk, [r.shown 0 0])
      else (⟨r.now, r.totalAfter handle⟩, sigarOk,
        [r.shown (r.totalAfter handle) (r.totalAfter handle - r.usedWord)]) := by
  obtain ⟨kstat, now⟩ := call
  cases kstat with
  | named data =>
    obtain rfl := Option.some.inj hr
    unfold sigarCpuListGetJoyent
    dsimp only
    rw [foldl_readNamed]
    rfl
  | noUpdate errno => cases hr
  | missing => cases hr
  | otherType => cases hr

/-- A call that finds no kstat reports nothing and changes nothing. -/
theorem call_silent (hr : call.reading = none) (hnamed : call.kstat ≠ .otherType) :
    (sigarCpuListGetJoyent handle call).1 = handle ∧
    (sigarCpuListGetJoyent handle call).2.2 = [] := by
  obtain ⟨kstat, now⟩ := call
  cases kstat with
  | named data => cases hr
  | noUpdate errno => exact ⟨rfl, rfl⟩
  | missing => exact ⟨rfl, rfl⟩
  | otherType => exact absurd rfl hnamed

end Call

/-- **The invariant**, after a call that has read `r` and reported `cpu`. -/
structure Shown (r : Reading) (handle : JoyentHandle) (cpu : SigarCpu) : Prop where
  prev : handle.cpuPrevTime = r.now
  total : cpu.total = handle.cpuTotal
  rest : r.used + cpu.idle.toNat = handle.cpuTotal.toNat
  clock : handle.cpuTotal.toNat ≤ r.now.toNat

/-- Before the first call it holds for a zone that has used nothing when the clock was 0. -/
theorem shown_opened : Shown ⟨0, 0, 0, 0⟩ .opened .zero := ⟨rfl, rfl, rfl, Nat.le_refl 0⟩

/-- **A call** is lawful exactly when the zone fits the clock since the one before. -/
theorem call_lawful {call : ZoneCall} {r r' : Reading} (hr' : call.reading = some r')
    {handle : JoyentHandle} {cpu : SigarCpu} (hs : Shown r handle cpu) (hbefore : r.Before r') :
    ∃ handle' cpu', sigarCpuListGetJoyent handle call = (handle', sigarOk, [cpu']) ∧
      (Balanced cpu' ∧ Grows cpu cpu' ↔ Fits r r') ∧ (Fits r r' → Shown r' handle' cpu') := by
  have hnow : r.now.toNat ≤ r'.now.toNat := UInt64.le_iff_toNat_le.mp hbefore.now
  have hused := r'.toNat_usedWord
  obtain ⟨hprev, htotal, hrest, hclock⟩ := hs
  rw [call_named hr', hprev, Fits]
  unfold Grows
  simp only [UInt64.le_iff_toNat_le, htotal]
  split
  case isTrue hzero =>
    -- the handle is primed, and the total was 0
    rw [hzero] at hclock
    have hcleared : handle.cpuTotal.toNat = 0 := Nat.le_zero.mp hclock
    refine ⟨_, _, rfl, ?_, fun hnone => ⟨rfl, ?_, ?_, ?_⟩⟩
    · simp [balanced_shown]
      omega
    · have hword : r'.usedWord = 0 := UInt64.toNat_inj.mp (hused.trans hnone)
      exact hword.symm
    · exact hused.symm
    · grind
  case isFalse =>
    have hnow' := r'.now.toNat_lt
    have hadvanced : (r'.totalAfter handle).toNat
        = handle.cpuTotal.toNat + (r'.now.toNat - r.now.toNat) := by
      rw [Reading.totalAfter, hprev, UInt64.toNat_add, UInt64.toNat_sub_of_le _ _ hbefore.now,
        Nat.mod_eq_of_lt (by omega)]
    -- the idle time, where it does not wrap
    have hidle : r'.used ≤ (r'.totalAfter handle).toNat →
        (r'.totalAfter handle - r'.usedWord).toNat
          = (r'.totalAfter handle).toNat - r'.used := by
      rw [← hused]
      exact fun hle => UInt64.toNat_sub_of_le _ _ (UInt64.le_iff_toNat_le.mpr hle)
    refine ⟨_, _, rfl, ?_, fun hfits => ⟨rfl, rfl, ?_, ?_⟩⟩
    · rw [balanced_shown]
      show _ ∧ _ ≤ (r'.totalAfter handle).toNat ∧
        _ ≤ (r'.totalAfter handle - r'.usedWord).toNat ↔ _
      omega
    · show r'.used + (r'.totalAfter handle - r'.usedWord).toNat = (r'.totalAfter handle).toNat
      omega
    · grind

/-! ## The run -/

section Run

variable {call : ZoneCall} {handle handle' : JoyentHandle} {cpu : SigarCpu}

theorem reports_silent (hr : call.reading = none) (hnamed : call.kstat ≠ .otherType)
    (calls : List ZoneCall) : reports handle (call :: calls) = reports handle calls := by
  obtain ⟨hsame, hnone⟩ := @call_silent call handle hr hnamed
  rw [reports, exec_cons, flatMap_cons, hsame, hnone]
  rfl

theorem reports_cons (h : sigarCpuListGetJoyent handle call = (handle', sigarOk, [cpu]))
    (calls : List ZoneCall) : reports handle (call :: calls) = cpu :: reports handle' calls := by
  rw [reports, exec_cons, flatMap_cons, h]
  rfl

end Run

/-- **The rest of a run**, after a call that left the invariant. -/
theorem run_from : ∀ {calls : List ZoneCall} {r : Reading} {handle : JoyentHandle}
    {cpu : SigarCpu}, Shown r handle cpu → (∀ call ∈ calls, call.kstat ≠ .otherType) →
    (r :: readings calls).IsChain Reading.Before →
      ((∀ cpu' ∈ reports handle calls, Balanced cpu') ∧
          (cpu :: reports handle calls).IsChain Grows ↔
        (r :: readings calls).IsChain Fits) := by
  -- on the calls; the first one that does not fit ends the argument, so the invariant is there
  intro calls
  induction calls with
  | nil =>
    intro r handle cpu _ _ _
    refine iff_of_true ⟨fun cpu' hcpu' => absurd hcpu' not_mem_nil, .singleton cpu⟩ (.singleton r)
  | cons call calls ih =>
    intro r handle cpu hs hnamed hbefore
    have hnamed' : ∀ c ∈ calls, c.kstat ≠ .otherType := fun c hc =>
      hnamed c (mem_cons_of_mem call hc)
    cases hreading : call.reading with
    | none =>
      rw [readings, filterMap_cons_none hreading] at hbefore ⊢
      rw [reports_silent hreading (hnamed call mem_cons_self)]
      exact ih hs hnamed' hbefore
    | some r' =>
      rw [readings, filterMap_cons_some hreading] at hbefore ⊢
      obtain ⟨hstep, hbefore'⟩ := isChain_cons_cons.mp hbefore
      obtain ⟨handle', cpu', hcall, hlawful, hshown⟩ := call_lawful hreading hs hstep
      rw [reports_cons hcall, isChain_cons_cons, isChain_cons_cons, forall_mem_cons]
      constructor
      · rintro ⟨⟨hbalanced, hrest⟩, hgrows, hchain⟩
        have hfits := hlawful.mp ⟨hbalanced, hgrows⟩
        exact ⟨hfits, (ih (hshown hfits) hnamed' hbefore').mp ⟨hrest, hchain⟩⟩
      · rintro ⟨hfits, hchain⟩
        obtain ⟨hbalanced, hgrows⟩ := hlawful.mpr hfits
        obtain ⟨hrest, hmore⟩ := (ih (hshown hfits) hnamed' hbefore').mpr hchain
        exact ⟨⟨hbalanced, hrest⟩, hgrows, hmore⟩

/-- **The law holds in a run exactly when the zone fits the clock**: nothing is used before the
    first call, and in no interval more than the time that passes. -/
theorem joyent_run_iff {calls : List ZoneCall} (hrun : ZoneRun calls) :
    Lawful (reports .opened calls) ↔ FitsClock (readings calls) := by
  have hbefore : (⟨0, 0, 0, 0⟩ :: readings calls).IsChain Reading.Before :=
    isChain_cons.mpr
      ⟨fun r _ => ⟨UInt64.zero_le, UInt64.zero_le, UInt64.zero_le, UInt64.zero_le⟩, hrun.before⟩
  have hiff := run_from shown_opened hrun.named hbefore
  have hgrows : ∀ cpu, Grows .zero cpu := fun cpu => ⟨UInt64.zero_le, UInt64.zero_le⟩
  have hfirst : ∀ r, Fits ⟨0, 0, 0, 0⟩ r ↔ r.used = 0 := fun r => by rw [Fits, if_pos rfl]
  simp only [isChain_cons, hgrows, hfirst, implies_true, true_and] at hiff
  exact ⟨fun h => ⟨(hiff.mp ⟨h.1, h.2⟩).1, (hiff.mp ⟨h.1, h.2⟩).2⟩,
    fun h => ⟨(hiff.mpr ⟨h.1, h.2⟩).1, (hiff.mpr ⟨h.1, h.2⟩).2⟩⟩

/-- A call in a zone with the three counters. -/
def zoneCall (now user sys waitrq : UInt64) : ZoneCall where
  kstat := .named [⟨"zonename".toList, 0⟩, ⟨"nsec_user".toList, user⟩, ⟨"nsec_sys".toList, sys⟩,
    ⟨"nsec_waitrq".toList, waitrq⟩]
  now := now

/-- A zone that has just started and uses half a second of the next one. -/
theorem joyent_run_iff_halfBusy :
    ZoneRun [zoneCall 1000 0 0 0, zoneCall 2000 300000000 200000000 0] ∧
    Lawful (reports .opened [zoneCall 1000 0 0 0, zoneCall 2000 300000000 200000000 0]) := by
  have hrun : ZoneRun [zoneCall 1000 0 0 0, zoneCall 2000 300000000 200000000 0] := by
    refine ⟨fun call hcall => ?_, isChain_pair.mpr ?_⟩
    · rcases mem_pair.mp hcall with rfl | rfl
      · exact fun h => nomatch h
      · exact fun h => nomatch h
    · exact ⟨by decide, by decide, by decide, by decide⟩
  refine ⟨hrun, (joyent_run_iff hrun).mpr ⟨fun r hr => ?_, isChain_pair.mpr ?_⟩⟩
  · obtain rfl := Option.mem_some_iff.mp hr
    decide
  · show 500 - 0 ≤ 2000 - 1000
    decide

/-- **Two CPUs in one second**: the zone has used 2000 ms of 1000, and the idle time wraps. -/
theorem twoBusy_wraps :
    ZoneRun [zoneCall 1000 0 0 0, zoneCall 2000 2000000000 0 0] ∧
    (reports .opened [zoneCall 1000 0 0 0, zoneCall 2000 2000000000 0 0]).map
        (fun cpu => (cpu.user, cpu.total, cpu.idle))
      = [(0, 0, 0), (2000, 1000, 18446744073709550616)] ∧
    ¬ Lawful (reports .opened [zoneCall 1000 0 0 0, zoneCall 2000 2000000000 0 0]) := by
  refine ⟨⟨fun call hcall => ?_, isChain_pair.mpr ?_⟩, by decide +kernel, fun hlawful => ?_⟩
  · rcases mem_pair.mp hcall with rfl | rfl
    · exact fun h => nomatch h
    · exact fun h => nomatch h
  · exact ⟨by decide, by decide, by decide, by decide⟩
  · have hsecond := hlawful.balanced _ (mem_cons_of_mem _ mem_cons_self)
    exact absurd hsecond (by decide +kernel)

end Sigar.Cpu.Joyent
