/-
  The running moving average of `src/sigar_rma.c`.

  1. **Data** — `sigar_rma_stat_t`: a ring of samples and the position that is written next.
     `sigar_rma_open` clears it, so that a sample with `stime == 0` is one that was never written.
  2. **Program** — `sigar_rma_get_average` walks BACKWARDS from the newest sample and stops at the
     first one that is too old, at the first that was never written, or when it comes back to
     `current_pos`.  In a full ring `current_pos` is the OLDEST sample: the walk never reads it.
  3. **Specification** — the mean of those of the last `element_count` samples that are not older
     than `rate`.
  4. **Correctness** — `sigarRmaGetAverage_iff`: for every sequence of samples, exactly when the
     oldest sample of a full ring does not matter.

  A `float` is a rational here.  The one subtraction of times is that of two 64-bit integers, which
  has no meaning when it overflows.
-/
import Sigar.Base
import Sigar.Lib.RingBuffer
import Sigar.Lib.Runs
import Mathlib.Tactic.FieldSimp
import Mathlib.Tactic.Linarith

namespace Sigar.Rma

open List

/-! ## The program -/

/-- `sigar_rma_sample_t`. -/
structure RmaSample where
  stime : Int64
  value : ℚ
  deriving DecidableEq

variable {sample : RmaSample} {samples : List RmaSample}

/-- What `calloc` leaves in a sample. -/
def RmaSample.zero : RmaSample := ⟨0, 0⟩

/-- `sigar_rma_stat_t`. -/
structure RmaStat where
  elementCount : UInt16
  samples : List RmaSample
  currentPos : Int

/-- `SIGAR_RMA_RATE_15_MIN`. -/
def rmaRate15Min : UInt16 := 900

/-- `sigar_rma_open`; the options are `max_average_time`, or `NULL`. -/
def sigarRmaOpen (opts : Option UInt16) : RmaStat :=
  let size := match opts with
    | none => rmaRate15Min
    | some maxAverageTime => if maxAverageTime = 0 then rmaRate15Min else maxAverageTime
  { elementCount := size, samples := replicate size.toNat RmaSample.zero, currentPos := 0 }

def nextPos (rma : RmaStat) (pos : Int) : Int :=
  let pos := pos + 1
  if pos ≥ rma.elementCount.toNat then 0 else pos

def prevPos (rma : RmaStat) (pos : Int) : Int :=
  let pos := pos - 1
  if pos < 0 then (rma.elementCount.toNat : Int) - 1 else pos

/-- What one `sigar_rma_add_sample` is given, and what `sigar_time_now_millis` shows if it looks. -/
structure AddCall where
  value : ℚ
  curTimeSec : Int64
  millis : UInt64

def addSample (rma : RmaStat) (call : AddCall) : RmaStat :=
  let stime := if call.curTimeSec ≠ 0 then call.curTimeSec else (call.millis / 1000).toInt64
  { rma with
    samples := rma.samples.set rma.currentPos.toNat ⟨stime, call.value⟩
    currentPos := nextPos rma rma.currentPos }

/-- `sigar_rma_add_sample`; a ring that is `NULL` stays so. -/
def sigarRmaAddSample : Option RmaStat → AddCall → Option RmaStat × Int
  | none, _ => (none, -1)
  | some rma, call => (some (addSample rma call), 0)

/-- Where `sigar_rma_get_average` has no meaning. -/
inductive RmaFault where
  | overflow  -- `cur_time_sec - sample->stime` is not a `sigar_int64_t`
  | noEnd     -- the walk does not end
  deriving DecidableEq

/-- `cur_time_sec - sample->stime`, as numbers. -/
def age (now : Int64) (sample : RmaSample) : Int := now.toInt - sample.stime.toInt

/-- The loop of `sigar_rma_get_average`, for at most `fuel` rounds: `avg` and `count`. -/
def averageLoop (rma : RmaStat) (rate : Int32) (now : Int64) :
    Nat → Int → ℚ → Nat → Except RmaFault (ℚ × Nat)
  | 0, _, _, _ => .error .noEnd
  | fuel + 1, pos, avg, count =>
    if pos = rma.currentPos then .ok (avg, count)
    else
      let sample := (rma.samples[pos.toNat]?).getD RmaSample.zero
      if sample.stime = 0 then .ok (avg, count)
      else if age now sample < -2 ^ 63 ∨ 2 ^ 63 ≤ age now sample then .error .overflow
      else if age now sample > rate.toInt then .ok (avg, count)
      else averageLoop rma rate now fuel (prevPos rma pos) (avg + sample.value) (count + 1)

/-- `sigar_rma_get_average`: the average and `*result`. -/
def sigarRmaGetAverage (rma : Option RmaStat) (rate : Int32) (now : Int64) :
    Except RmaFault (ℚ × Int) :=
  match rma with
  | none => .ok (0, -1)
  | some rma => do
    let pos := prevPos rma rma.currentPos
    let (avg, count) ← averageLoop rma rate now (rma.elementCount.toNat + 1) pos 0 0
    if count = 0 then .ok (0, -1) else .ok (avg / count, 0)

/-! ## The specification -/

/-- The samples that were added, newest first. -/
def added (calls : List AddCall) : List RmaSample :=
  (calls.map fun call => ⟨call.curTimeSec, call.value⟩).reverse

def mean (samples : List RmaSample) : ℚ := (samples.map (·.value)).sum / samples.length

/-- What an average over these samples is: their mean, or `-1` if there are none. -/
def averageOf (samples : List RmaSample) : ℚ × Int :=
  if samples = [] then (0, -1) else (mean samples, 0)

/-- The samples that are not older than `rate`. -/
def inWindow (rate : Int32) (now : Int64) (samples : List RmaSample) : List RmaSample :=
  samples.filter fun sample => age now sample ≤ rate.toInt

/-! ## The ring behind the structure -/

/-- The structure holds this ring. -/
structure Backed (rma : RmaStat) (ring : RingBuffer RmaSample) : Prop where
  samples_eq : rma.samples = ring.cells
  count_eq : rma.elementCount.toNat = ring.cells.length
  pos_eq : rma.currentPos = ring.pos
  pos_lt : ring.pos < ring.cells.length

/-- The ring that `sigar_rma_open` makes. -/
def emptyRing (n : Nat) : RingBuffer RmaSample := ⟨replicate n RmaSample.zero, 0⟩

/-- `element_count` after `sigar_rma_open`. -/
def ringSize (opts : Option UInt16) : Nat := (sigarRmaOpen opts).elementCount.toNat

theorem ringSize_pos (opts : Option UInt16) : 0 < ringSize opts := by
  cases opts with
  | none => decide
  | some maxAverageTime =>
    show 0 < (if maxAverageTime = 0 then rmaRate15Min else maxAverageTime).toNat
    split
    · decide
    · next h =>
      have hne : maxAverageTime.toNat ≠ 0 := fun h0 => h (UInt16.toNat_inj.mp h0)
      omega

theorem sigarRmaOpen_backed (opts : Option UInt16) :
    Backed (sigarRmaOpen opts) (emptyRing (ringSize opts)) where
  samples_eq := rfl
  count_eq := by simp [emptyRing, ringSize]
  pos_eq := rfl
  pos_lt := by simpa [emptyRing] using ringSize_pos opts

theorem emptyRing_newest (n : Nat) :
    (emptyRing n).newest RmaSample.zero = replicate n RmaSample.zero := by
  apply eq_replicate_iff.mpr
  constructor
  · simp [emptyRing]
  · intro sample hmem
    obtain ⟨i, _, rfl⟩ := mem_map.mp hmem
    show ((replicate n RmaSample.zero)[_]?).getD RmaSample.zero = RmaSample.zero
    rw [getElem?_replicate]
    split <;> rfl

variable {rma : RmaStat} {ring : RingBuffer RmaSample} {rate : Int32} {now : Int64}

theorem addSample_backed (h : Backed rma ring) {call : AddCall} (htime : call.curTimeSec ≠ 0) :
    Backed (addSample rma call) (ring.push ⟨call.curTimeSec, call.value⟩) where
  samples_eq := by
    show rma.samples.set rma.currentPos.toNat ⟨if call.curTimeSec ≠ 0 then _ else _, _⟩ = _
    rw [if_pos htime, h.samples_eq, h.pos_eq]
    rfl
  count_eq := by
    rw [RingBuffer.push_cells_length]
    exact h.count_eq
  pos_eq := by
    show nextPos rma rma.currentPos = _
    unfold nextPos RingBuffer.push RingBuffer.next
    rw [h.pos_eq, h.count_eq]
    dsimp only
    split <;> split <;> omega
  pos_lt := RingBuffer.push_pos_lt h.pos_lt

/-- Adding samples is pushing them. -/
theorem exec_addSample : ∀ {calls : List AddCall} {rma : RmaStat} {ring : RingBuffer RmaSample},
    Backed rma ring → (∀ call ∈ calls, call.curTimeSec ≠ 0) →
    ∃ rma', (Runs.exec sigarRmaAddSample (some rma) calls).1 = some rma' ∧
      Backed rma' ((added calls).reverse.foldl RingBuffer.push ring) := by
  intro calls
  induction calls with
  | nil => intro rma ring h _; exact ⟨rma, rfl, h⟩
  | cons call calls ih =>
    intro rma ring h htimes
    obtain ⟨rma', hexec, hbacked⟩ := ih (addSample_backed h (htimes call mem_cons_self))
      (fun c hc => htimes c (mem_cons_of_mem call hc))
    refine ⟨rma', hexec, ?_⟩
    simpa [added] using hbacked

/-! ## The walk is a scan of the newest samples -/

/-- The loop, over the samples that it meets. -/
def scan (rate : Int32) (now : Int64) : List RmaSample → ℚ → Nat → Except RmaFault (ℚ × Nat)
  | [], avg, count => .ok (avg, count)
  | sample :: rest, avg, count =>
    if sample.stime = 0 then .ok (avg, count)
    else if age now sample < -2 ^ 63 ∨ 2 ^ 63 ≤ age now sample then .error .overflow
    else if age now sample > rate.toInt then .ok (avg, count)
    else scan rate now rest (avg + sample.value) (count + 1)

theorem prevPos_eq (h : Backed rma ring) {p : Nat} (hp : p < ring.cells.length) :
    prevPos rma p = (RingBuffer.prev ring.cells.length p : Nat) := by
  unfold prevPos RingBuffer.prev
  rw [h.count_eq]
  dsimp only
  split <;> split <;> omega

/-- **The walk stops one sample short of a whole turn**, with any fuel that is enough for it. -/
theorem averageLoop_eq_scan (h : Backed rma ring) :
    ∀ (fuel i : Nat) (avg : ℚ) (count : Nat), 1 ≤ i → i ≤ ring.cells.length →
      ring.cells.length - i < fuel →
      averageLoop rma rate now fuel
          ((RingBuffer.stepBack ring.cells.length ring.pos i : Nat) : Int) avg count
        = scan rate now
            (((ring.newest RmaSample.zero).take (ring.cells.length - 1)).drop (i - 1)) avg count := by
  intro fuel
  induction fuel with
  | zero => intro i avg count _ _ hfuel; omega
  | succ fuel ih =>
    intro i avg count hpos hle hfuel
    rw [averageLoop, h.pos_eq]
    have hback := RingBuffer.stepBack_eq_iff h.pos_lt hle
    by_cases hend : i = ring.cells.length
    · grind [length_take, scan, hback.mpr]
    · have hlt : i < ring.cells.length := by omega
      have hne : ((RingBuffer.stepBack ring.cells.length ring.pos i : Nat) : Int) ≠ ring.pos := by
        omega
      have hcell : ((ring.newest RmaSample.zero).take (ring.cells.length - 1))[i - 1]?
          = some ((ring.cells[RingBuffer.stepBack ring.cells.length ring.pos i]?).getD
              RmaSample.zero) := by grind [getElem?_take_of_lt, RingBuffer.newest_getElem?]
      obtain ⟨hin, hget⟩ := List.getElem?_eq_some_iff.mp hcell
      rw [if_neg hne, drop_eq_getElem_cons hin, hget, scan, h.samples_eq, Int.toNat_natCast]
      dsimp only
      rw [prevPos_eq h (RingBuffer.stepBack_lt h.pos_lt hle), RingBuffer.prev_stepBack h.pos_lt hlt,
        ih (i + 1) _ _ (by omega) (by omega) (by omega)]
      congr 5
      omega

theorem averageLoop_start (h : Backed rma ring) :
    averageLoop rma rate now (rma.elementCount.toNat + 1) (prevPos rma rma.currentPos) 0 0
      = scan rate now ((ring.newest RmaSample.zero).take (ring.cells.length - 1)) 0 0 := by
  have hlt := h.pos_lt
  rw [h.pos_eq, prevPos_eq h hlt, RingBuffer.prev_eq_stepBack hlt, h.count_eq,
    averageLoop_eq_scan h _ 1 0 0 (Nat.le_refl 1) (by omega) (by omega)]
  rfl

/-! ## What the scan returns -/

/-- The first sample that is too old, if there is one, is not so old that its age overflows. -/
def AgeFits (rate : Int32) (now : Int64) (samples : List RmaSample) : Prop :=
  ∀ sample, samples.find? (fun sample => rate.toInt < age now sample) = some sample →
    age now sample < 2 ^ 63

/-- A rate is far below the ages that overflow. -/
theorem rate_lt (rate : Int32) : rate.toInt < 2 ^ 63 := by
  have := rate.toInt_lt
  omega

/-- What the scan skips at the end of a ring that was never full. -/
theorem scan_append_zeros (k : Nat) : ∀ (samples : List RmaSample) (avg : ℚ) (count : Nat),
    scan rate now (samples ++ replicate k RmaSample.zero) avg count
      = scan rate now samples avg count := by
  intro samples
  induction samples with
  | nil =>
    intro avg count
    cases k with
    | zero => rfl
    | succ k =>
      rw [nil_append, replicate_succ]
      exact if_pos rfl
  | cons sample rest ih =>
    intro avg count
    rw [cons_append, scan, scan, ih]

/-- The samples before the first that is too old. -/
def recent (rate : Int32) (now : Int64) (samples : List RmaSample) : List RmaSample :=
  samples.takeWhile fun sample => age now sample ≤ rate.toInt

theorem recent_of_old (hold : rate.toInt < age now sample) (rest : List RmaSample) :
    recent rate now (sample :: rest) = [] :=
  takeWhile_cons_of_neg (by simp only [decide_eq_true_eq]; omega)

theorem recent_of_recent (hrecent : ¬ rate.toInt < age now sample) (rest : List RmaSample) :
    recent rate now (sample :: rest) = sample :: recent rate now rest :=
  takeWhile_cons_of_pos (by simp only [decide_eq_true_eq]; omega)

/-- In order of age, all that follow a sample that is too old are too old. -/
theorem recent_eq_inWindow (rate : Int32) : ∀ {samples : List RmaSample},
    samples.Pairwise (fun a b => age now a ≤ age now b) →
      recent rate now samples = inWindow rate now samples := by
  intro samples
  induction samples with
  | nil => intro _; rfl
  | cons sample rest ih =>
    intro hsorted
    obtain ⟨hhead, htail⟩ := pairwise_cons.mp hsorted
    by_cases hold : rate.toInt < age now sample
    · have hnone : inWindow rate now (sample :: rest) = [] := by
        apply filter_eq_nil_iff.mpr
        intro s hs
        simp only [decide_eq_true_eq]
        rcases mem_cons.mp hs with rfl | hs
        · omega
        · have hle := hhead s hs
          omega
      rw [recent_of_old hold, hnone]
    · have hkept : inWindow rate now (sample :: rest) = sample :: inWindow rate now rest :=
        filter_cons_of_pos (by simp only [decide_eq_true_eq]; omega)
      rw [recent_of_recent hold, hkept, ih htail]

theorem ageFits_of_old (hold : rate.toInt < age now sample) (rest : List RmaSample) :
    AgeFits rate now (sample :: rest) ↔ age now sample < 2 ^ 63 := by grind [AgeFits]

theorem ageFits_of_recent (hrecent : ¬ rate.toInt < age now sample) (rest : List RmaSample) :
    AgeFits rate now (sample :: rest) ↔ AgeFits rate now rest := by grind [AgeFits]

/-- **The scan** adds up the samples before the first that is too old, unless that one is too old
    for the subtraction. -/
theorem scan_spec (rate : Int32) : ∀ {samples : List RmaSample}, (∀ s ∈ samples, s.stime ≠ 0) →
    (∀ s ∈ samples, -2 ^ 63 ≤ age now s) → ∀ (avg : ℚ) (count : Nat),
      (AgeFits rate now samples →
        scan rate now samples avg count
          = .ok (avg + ((recent rate now samples).map (·.value)).sum,
              count + (recent rate now samples).length)) ∧
      (¬ AgeFits rate now samples → scan rate now samples avg count = .error .overflow) := by
  intro samples
  induction samples with
  | nil =>
    intro _ _ avg count
    refine ⟨fun _ => by simp [scan, recent], fun h => absurd (fun s hs => ?_) h⟩
    exact absurd hs (by simp)
  | cons sample rest ih =>
    intro htimes hages avg count
    have hage := hages sample mem_cons_self
    rw [scan, if_neg (htimes sample mem_cons_self)]
    by_cases hold : rate.toInt < age now sample
    · simp [ageFits_of_old, recent_of_old, hold]
      omega
    · have hrate := rate_lt rate
      obtain ⟨hok, herr⟩ := ih (fun s hs => htimes s (mem_cons_of_mem _ hs))
        (fun s hs => hages s (mem_cons_of_mem _ hs)) (avg + sample.value) (count + 1)
      rw [if_neg (by omega), if_neg (by omega), ageFits_of_recent hold, recent_of_recent hold]
      refine ⟨fun h => ?_, herr⟩
      rw [hok h, map_cons, sum_cons, length_cons, add_assoc]
      congr 2
      omega

/-- The end of `sigar_rma_get_average`. -/
theorem average_value (window : List RmaSample) :
    (if 0 + window.length = 0 then Except.ok ((0 : ℚ), (-1 : Int))
      else .ok ((0 + (window.map (·.value)).sum) / ((0 + window.length : Nat) : ℚ), 0))
        = (.ok (averageOf window) : Except RmaFault (ℚ × Int)) := by
  unfold averageOf mean
  rw [Nat.zero_add, zero_add]
  by_cases hnil : window = []
  · rw [if_pos hnil, if_pos (by rw [hnil]; rfl)]
  · rw [if_neg hnil, if_neg fun h => hnil (length_eq_zero_iff.mp h)]

/-- What the function returns, once the scan is known. -/
theorem average_of_scan (htimes : ∀ s ∈ samples, s.stime ≠ 0)
    (hages : ∀ s ∈ samples, -2 ^ 63 ≤ age now s) (window : List RmaSample) :
    (do
      let (avg, count) ← scan rate now samples 0 0
      if count = 0 then Except.ok ((0 : ℚ), (-1 : Int)) else .ok (avg / count, 0))
        = .ok (averageOf window) ↔
      AgeFits rate now samples ∧ averageOf (recent rate now samples) = averageOf window := by
  obtain ⟨hok, herr⟩ := scan_spec rate htimes hages 0 0
  by_cases hfits : AgeFits rate now samples
  · rw [hok hfits]
    constructor
    · intro h
      exact ⟨hfits, Except.ok.inj ((average_value _).symm.trans h)⟩
    · intro h
      exact (average_value _).trans (congrArg Except.ok h.2)
  · rw [herr hfits]
    constructor
    · intro h
      cases h
    · intro h
      exact absurd h.1 hfits

/-! ## The oldest sample -/

theorem mean_append_eq_iff {more : List RmaSample} (hne : samples ≠ []) (hmore : more ≠ []) :
    mean samples = mean (samples ++ more) ↔ mean more = mean samples := by
  have hlen : (samples.length : ℚ) ≠ 0 := by
    exact_mod_cast fun h => hne (length_eq_zero_iff.mp h)
  have hmorelen : (more.length : ℚ) ≠ 0 := by
    exact_mod_cast fun h => hmore (length_eq_zero_iff.mp h)
  have hboth : (samples.length : ℚ) + more.length ≠ 0 := by
    exact_mod_cast fun h => hne (length_eq_zero_iff.mp (Nat.eq_zero_of_add_eq_zero_right h))
  unfold mean
  rw [map_append, sum_append, length_append, Nat.cast_add, div_eq_div_iff hlen hboth,
    div_eq_div_iff hmorelen hlen]
  constructor
  · intro h
    linarith
  · intro h
    linarith

/-- More samples make no difference exactly when their mean is that of the others. -/
theorem averageOf_append_iff (samples more : List RmaSample) :
    averageOf samples = averageOf (samples ++ more) ↔
      more = [] ∨ samples ≠ [] ∧ mean more = mean samples := by
  by_cases hmore : more = []
  · rw [hmore, append_nil]
    exact iff_of_true rfl (.inl rfl)
  · unfold averageOf
    rw [if_neg (append_ne_nil_of_right_ne_nil samples hmore)]
    by_cases hnil : samples = []
    · simp [hnil]
      omega
    · grind [Prod.mk.injEq, mean_append_eq_iff]

theorem mean_singleton (sample : RmaSample) : mean [sample] = sample.value := by
  simp [mean]

/-- The oldest sample of a full ring does not matter: it is outside the window, or its value is the
    mean of the others. -/
def OldestFits (rate : Int32) (now : Int64) (n : Nat) (samples : List RmaSample) : Prop :=
  ∀ oldest, samples[n - 1]? = some oldest → age now oldest ≤ rate.toInt →
    2 ≤ n ∧ oldest.value = mean (samples.take (n - 1))

/-- Leaving out the oldest of `n` samples makes no difference exactly when it does not matter. -/
theorem averageOf_take_iff {n : Nat} (hn : 0 < n)
    (hsorted : samples.Pairwise fun a b => age now a ≤ age now b) :
    averageOf (inWindow rate now (samples.take (n - 1)))
        = averageOf (inWindow rate now (samples.take n)) ↔
      OldestFits rate now n samples := by
  obtain ⟨k, rfl⟩ : ∃ k, n = k + 1 := ⟨n - 1, by omega⟩
  unfold OldestFits
  rw [Nat.add_sub_cancel, take_add_one]
  cases hget : samples[k]? with
  | none => simp
  | some oldest =>
    obtain ⟨hk, hgetk⟩ := List.getElem?_eq_some_iff.mp hget
    have hlast : inWindow rate now (samples.take k ++ [oldest])
        = inWindow rate now (samples.take k) ++ inWindow rate now [oldest] :=
      filter_append ..
    rw [Option.toList_some, hlast]
    by_cases hin : age now oldest ≤ rate.toInt
    · -- the oldest is in the window, so all of them are
      have hone : inWindow rate now [oldest] = [oldest] :=
        filter_cons_of_pos (by simpa using hin)
      have hall : inWindow rate now (samples.take k) = samples.take k := by
        apply filter_eq_self.mpr
        intro s hs
        obtain ⟨i, hi, rfl⟩ := mem_take_iff_getElem.mp hs
        have hle := pairwise_iff_getElem.mp hsorted i k (by omega) hk (by omega)
        rw [hgetk] at hle
        simp only [decide_eq_true_eq]
        omega
      have hempty : samples.take k ≠ [] ↔ 2 ≤ k + 1 := by
        rw [ne_eq, ← length_eq_zero_iff, length_take]
        omega
      rw [hone, hall, averageOf_append_iff, hempty, mean_singleton]
      constructor
      · grind
      · intro h
        exact .inr (h oldest rfl hin)
    · have hout : inWindow rate now [oldest] = [] :=
        filter_cons_of_neg (by simpa using hin)
      rw [hout, append_nil]
      refine ⟨fun _ s hs hs' => ?_, fun _ => rfl⟩
      obtain rfl := Option.some.inj hs
      exact absurd hs' hin

/-! ## Runs -/

/-- The samples of the ring after a run, as the walk meets them: those added, and then cells that
    were never written. -/
theorem newest_run (opts : Option UInt16) (calls : List AddCall) :
    (((added calls).reverse.foldl RingBuffer.push (emptyRing (ringSize opts))).newest
        RmaSample.zero).take (ringSize opts - 1)
      = (added calls).take (ringSize opts - 1)
          ++ replicate (ringSize opts - 1 - (added calls).length) RmaSample.zero := by
  have hbacked := sigarRmaOpen_backed opts
  have hlen : (emptyRing (ringSize opts)).cells.length = ringSize opts := hbacked.count_eq.symm
  obtain ⟨_, _, hnewest⟩ := RingBuffer.newest_pushes RmaSample.zero hbacked.pos_lt
    (added calls).reverse
  rw [hnewest, hlen, reverse_reverse, emptyRing_newest, take_take, Nat.min_eq_left (by omega),
    take_append, take_replicate, Nat.min_eq_left (by omega)]

/-- **The average is right exactly when the oldest sample of a full ring does not matter** and no
    age overflows, for every ring and every sequence of samples. -/
theorem sigarRmaGetAverage_iff (opts : Option UInt16) (calls : List AddCall) (rate : Int32)
    (now : Int64) (htimes : ∀ call ∈ calls, call.curTimeSec ≠ 0)
    (hsorted : calls.Pairwise fun a b => a.curTimeSec ≤ b.curTimeSec)
    (hnow : ∀ call ∈ calls, call.curTimeSec ≤ now) :
    sigarRmaGetAverage (Runs.exec sigarRmaAddSample (some (sigarRmaOpen opts)) calls).1 rate now
        = .ok (averageOf (inWindow rate now ((added calls).take (ringSize opts)))) ↔
      AgeFits rate now ((added calls).take (ringSize opts - 1)) ∧
        OldestFits rate now (ringSize opts) (added calls) := by
  -- the samples that were added: written, not of the future, and in order of age
  have hadded : ∀ s ∈ added calls, ∃ call ∈ calls, s = ⟨call.curTimeSec, call.value⟩ := by
    intro s hs
    obtain ⟨call, hcall, rfl⟩ := mem_map.mp (mem_reverse.mp hs)
    exact ⟨call, hcall, rfl⟩
  have hwritten : ∀ s ∈ added calls, s.stime ≠ 0 := by
    intro s hs
    obtain ⟨call, hcall, rfl⟩ := hadded s hs
    exact htimes call hcall
  have hages : ∀ s ∈ added calls, -2 ^ 63 ≤ age now s := by
    intro s hs
    obtain ⟨call, hcall, rfl⟩ := hadded s hs
    have hle := Int64.le_iff_toInt_le.mp (hnow call hcall)
    show -2 ^ 63 ≤ now.toInt - call.curTimeSec.toInt
    omega
  have horder : (added calls).Pairwise fun a b => age now a ≤ age now b := by
    unfold added
    rw [pairwise_reverse, pairwise_map]
    refine hsorted.imp fun {a b} hab => ?_
    have hle := Int64.le_iff_toInt_le.mp hab
    show now.toInt - b.curTimeSec.toInt ≤ now.toInt - a.curTimeSec.toInt
    omega
  -- the walk over the ring is the scan of all but the oldest of them
  obtain ⟨rma, hexec, hbacked⟩ := exec_addSample (sigarRmaOpen_backed opts) htimes
  have hcells : ((added calls).reverse.foldl RingBuffer.push
      (emptyRing (ringSize opts))).cells.length = ringSize opts := by
    rw [(RingBuffer.newest_pushes RmaSample.zero (sigarRmaOpen_backed opts).pos_lt
      (added calls).reverse).1]
    exact (sigarRmaOpen_backed opts).count_eq.symm
  rw [hexec]
  show (do
    let (avg, count) ← averageLoop rma rate now (rma.elementCount.toNat + 1)
      (prevPos rma rma.currentPos) 0 0
    if count = 0 then Except.ok ((0 : ℚ), (-1 : Int)) else .ok (avg / count, 0)) = _ ↔ _
  rw [averageLoop_start hbacked, hcells, newest_run, scan_append_zeros,
    average_of_scan (fun s hs => hwritten s (mem_of_mem_take hs))
      (fun s hs => hages s (mem_of_mem_take hs)),
    recent_eq_inWindow rate (horder.sublist (take_sublist _ _)),
    averageOf_take_iff (ringSize_pos opts) horder]

/-- Two samples in a ring of three. -/
theorem sigarRmaGetAverage_iff_example :
    sigarRmaGetAverage (Runs.exec sigarRmaAddSample (some (sigarRmaOpen (some 3)))
        [⟨1, 1, 0⟩, ⟨3, 2, 0⟩]).1 60 2
      = .ok (averageOf (inWindow 60 2 ((added [⟨1, 1, 0⟩, ⟨3, 2, 0⟩]).take (ringSize (some 3))))) := by
  have hnone : ((added [⟨1, 1, 0⟩, ⟨3, 2, 0⟩]).take (ringSize (some 3) - 1)).find?
      (fun sample => (60 : Int32).toInt < age 2 sample) = none := by decide +kernel
  have habsent : (added [⟨1, 1, 0⟩, ⟨3, 2, 0⟩])[ringSize (some 3) - 1]? = none := by decide +kernel
  refine (sigarRmaGetAverage_iff (some 3) [⟨1, 1, 0⟩, ⟨3, 2, 0⟩] 60 2 (by decide) (by decide)
    (by decide)).mpr ⟨?_, ?_⟩
  · intro sample hsample
    rw [hnone] at hsample
    cases hsample
  · intro oldest holdest
    rw [habsent] at holdest
    cases holdest

/-- A ring of two with two samples: the average is that of the newer one. -/
theorem fullRing_wrongAverage :
    sigarRmaGetAverage (Runs.exec sigarRmaAddSample (some (sigarRmaOpen (some 2)))
        [⟨1, 1, 0⟩, ⟨3, 2, 0⟩]).1 60 2 = .ok (3, 0) ∧
      averageOf (inWindow 60 2 ((added [⟨1, 1, 0⟩, ⟨3, 2, 0⟩]).take (ringSize (some 2)))) = (2, 0) := by
  constructor
  · decide +kernel
  · decide +kernel

end Sigar.Rma
