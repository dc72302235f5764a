/-
  Adding a sample and fetching averages at once.

  Source: `sigar_rma_add_fetch_std_sample` and `sigar_rma_add_fetch_custom_sample` of
  `src/sigar_rma.c`, and `sigar_loadavg_t` of `include/sigar.h`.

  1. **Program** — both functions add the sample and then ask `sigar_rma_get_average` for one window
     after the other.  The windows of the custom function stand in the array that receives the
     averages, and that array has THREE places.
  2. **What a fetch stores** — `run_eq_ok_iff`: the answer for every window, in order, each in the
     place where its window was.  A fourth window has no place: `customSample_answers_iff`.
  3. **`cur_time_sec == 0`** — adding takes it for the time of the clock, and averaging takes it for
     the time 0, at which no sample of our age is old.  The samples that a window excludes only at the
     time of the clock are `stale` for it.  Where there are none, both averages are taken over the SAME
     samples, whatever a `float` makes of their sum; where there is one, there are values for which
     they differ (`fetch_now_iff`).
-/
import Sigar.Rma
import Sigar.Lib.Fallible
import Mathlib.Algebra.Order.BigOperators.Group.List
import Mathlib.Data.List.TakeWhile

namespace Sigar.Rma

open Fallible List

/-! ## The program -/

/-- The two arrays of `sigar_loadavg_t`. -/
structure Loadavg where
  loadavg : List ℚ
  loadavgResult : List Int
  loadavg_length : loadavg.length = 3
  result_length : loadavgResult.length = 3

/-- Where a fetch has no meaning. -/
inductive FetchFault where
  | average (fault : RmaFault)  -- in `sigar_rma_get_average`
  | window                      -- `avg_secs = loadavg->loadavg[i]` is no `int`
  | index                       -- `i` is outside of the arrays
  deriving DecidableEq

/-- The stores to `loadavg->loadavg[i]` and `loadavg->loadavg_result[i]`. -/
def Loadavg.store (l : Loadavg) (i : Nat) (answer : ℚ × Int) : Loadavg where
  loadavg := l.loadavg.set i answer.1
  loadavgResult := l.loadavgResult.set i answer.2
  loadavg_length := by rw [length_set, l.loadavg_length]
  result_length := by rw [length_set, l.result_length]

/-- One call of `sigar_rma_get_average` with its two stores. -/
def fetchInto (rma : Option RmaStat) (now : Int64) (rate : Int32) (i : Nat) (l : Loadavg) :
    Except FetchFault Loadavg :=
  match sigarRmaGetAverage rma rate now with
  | .error fault => .error (.average fault)
  | .ok answer => if i < 3 then .ok (l.store i answer) else .error .index

/-- `SIGAR_RMA_RATE_1_MIN`, `SIGAR_RMA_RATE_5_MIN` and `SIGAR_RMA_RATE_15_MIN`, as `int`s. -/
def stdWindows : List Int32 := [1 * 60, 5 * 60, 15 * 60]

/-- The calls for windows that are known, from the place `i` on. -/
def fetchWindows (rma : Option RmaStat) (now : Int64) :
    List Int32 → Nat → Loadavg → Except FetchFault Loadavg
  | [], _, l => .ok l
  | rate :: rates, i, l => do
    let l ← fetchInto rma now rate i l
    fetchWindows rma now rates (i + 1) l

/-- `sigar_rma_add_fetch_std_sample`: the ring, the arrays, and what is returned. -/
def sigarRmaAddFetchStdSample (rma : Option RmaStat) (call : AddCall) (l : Loadavg) :
    Except FetchFault (Option RmaStat × Loadavg × Int) := do
  let rma := (sigarRmaAddSample rma call).1
  let l ← fetchWindows rma call.curTimeSec stdWindows 0 l
  pure (rma, l, 0)

/-- A `double` converted to `int`: it is cut towards 0. -/
def toIntC (x : ℚ) : Option Int32 :=
  let n := x.num.tdiv x.den
  if -2147483648 ≤ n ∧ n < 2147483648 then some (Int32.ofInt n) else none

/-- The loop of the custom function, for `todo` more rounds. -/
def customLoop (rma : Option RmaStat) (now : Int64) :
    Nat → Nat → Loadavg → Except FetchFault Loadavg
  | 0, _, l => .ok l
  | todo + 1, i, l =>
    match l.loadavg[i]? with
    | none => .error .index
    | some x =>
      match toIntC x with
      | none => .error .window
      | some avgSecs => do
        let l ← fetchInto rma now avgSecs i l
        customLoop rma now todo (i + 1) l

/-- `sigar_rma_add_fetch_custom_sample`. -/
def sigarRmaAddFetchCustomSample (rma : Option RmaStat) (call : AddCall) (l : Loadavg)
    (numAvg : Int32) : Except FetchFault (Option RmaStat × Loadavg × Int) := do
  let (rma, result) := sigarRmaAddSample rma call
  if result < 0 then pure (rma, l, result)
  else
    let l ← customLoop rma call.curTimeSec numAvg.toInt.toNat 0 l
    pure (rma, l, result)

/-- Either function. -/
inductive Fetch where
  | std
  | custom (numAvg : Int32)

def Fetch.run : Fetch → Option RmaStat → AddCall → Loadavg →
    Except FetchFault (Option RmaStat × Loadavg × Int)
  | .std, rma, call, l => sigarRmaAddFetchStdSample rma call l
  | .custom numAvg, rma, call, l => sigarRmaAddFetchCustomSample rma call l numAvg

/-! ## What a fetch stores -/

/-- The first `n` places as windows, if there are as many and all of them are `int`s. -/
def Loadavg.windows (l : Loadavg) (n : Nat) : Option (List Int32) :=
  if n ≤ 3 then (l.loadavg.take n).mapM toIntC else none

/-- The windows that are asked for. -/
def Fetch.windows : Fetch → Loadavg → Option (List Int32)
  | .std, _ => some stdWindows
  | .custom numAvg, l => l.windows numAvg.toInt.toNat

/-- Answers in places that follow each other. -/
def Loadavg.storeAll (l : Loadavg) : Nat → List (ℚ × Int) → Loadavg
  | _, [] => l
  | i, answer :: answers => (l.store i answer).storeAll (i + 1) answers

/-- `fetch` asks for these windows, and gets these answers, at the time `now`. -/
def Answers (rma : RmaStat) (now : Int64) (windows : List Int32) (answers : List (ℚ × Int)) : Prop :=
  Forall₂ (fun rate answer => sigarRmaGetAverage (some rma) rate now = .ok answer) windows
    answers

variable {rma : RmaStat} {ring : RingBuffer RmaSample} {rate : Int32} {now t : Int64}
  {call : AddCall} {l : Loadavg}

theorem fetchInto_eq_ok_iff {rma : Option RmaStat} {i : Nat} {out : Loadavg} :
    fetchInto rma now rate i l = .ok out ↔
      ∃ answer, sigarRmaGetAverage rma rate now = .ok answer ∧ i < 3 ∧ out = l.store i answer := by
  unfold fetchInto
  cases hget : sigarRmaGetAverage rma rate now with
  | error fault => simp
  | ok answer =>
    dsimp only
    by_cases hi : i < 3
    · rw [if_pos hi, Except.ok.injEq]
      constructor
      · intro h
        exact ⟨answer, rfl, hi, h.symm⟩
      · rintro ⟨_, hanswer, -, rfl⟩
        rw [Except.ok.inj hanswer]
    · rw [if_neg hi]
      constructor
      · intro h
        cases h
      · rintro ⟨_, -, hlt, -⟩
        exact absurd hlt hi

/-- The calls succeed when every window has its answer and its place. -/
theorem fetchWindows_eq_ok_iff {out : Loadavg} : ∀ {rates : List Int32} {i : Nat} {l : Loadavg},
    i ≤ 3 → (fetchWindows (some rma) now rates i l = .ok out ↔
      i + rates.length ≤ 3 ∧ ∃ answers, Answers rma now rates answers ∧ out = l.storeAll i answers) := by
  intro rates
  induction rates with
  | nil =>
    intro i l hi
    rw [fetchWindows, Except.ok.injEq]
    constructor
    · intro h
      exact ⟨hi, [], .nil, h.symm⟩
    · rintro ⟨-, answers, hanswers, rfl⟩
      cases hanswers
      rfl
  | cons rate rates ih =>
    intro i l hi
    rw [fetchWindows, bind_eq_ok_iff]
    constructor
    · rintro ⟨l', hinto, hrest⟩
      obtain ⟨answer, hget, hlt, rfl⟩ := fetchInto_eq_ok_iff.mp hinto
      obtain ⟨hlen, answers, hanswers, rfl⟩ := (ih (by omega)).mp hrest
      refine ⟨?_, answer :: answers, .cons hget hanswers, rfl⟩
      rw [length_cons]
      omega
    · rintro ⟨hlen, answers, hanswers, rfl⟩
      rw [length_cons] at hlen
      cases hanswers with
      | cons hget hanswers =>
        refine ⟨_, fetchInto_eq_ok_iff.mpr ⟨_, hget, by omega, rfl⟩, ?_⟩
        exact (ih (by omega)).mpr ⟨by omega, _, hanswers, rfl⟩

/-- **The loop over the array**: the answer for a window is stored where the window was, and the
    windows that follow are still in their places. -/
theorem customLoop_eq_ok_iff {out : Loadavg} : ∀ {todo i : Nat} {l : Loadavg}, i ≤ 3 →
    (customLoop (some rma) now todo i l = .ok out ↔
      i + todo ≤ 3 ∧ ∃ windows answers, ((l.loadavg.drop i).take todo).mapM toIntC = some windows ∧
        Answers rma now windows answers ∧ out = l.storeAll i answers) := by
  intro todo
  induction todo with
  | zero =>
    intro i l hi
    rw [customLoop, Except.ok.injEq]
    constructor
    · intro h
      exact ⟨hi, [], [], rfl, .nil, h.symm⟩
    · rintro ⟨-, windows, answers, hwindows, hanswers, rfl⟩
      obtain rfl := Option.some.inj hwindows
      cases hanswers
      rfl
  | succ todo ih =>
    intro i l hi
    rw [customLoop]
    by_cases hlt : i < 3
    · have hin : i < l.loadavg.length := by rw [l.loadavg_length]; exact hlt
      have hdrop : (l.loadavg.drop i).take (todo + 1)
          = l.loadavg[i] :: (l.loadavg.drop (i + 1)).take todo := by
        rw [drop_eq_getElem_cons hin, take_succ_cons]
      have hkept : ∀ answer, (l.store i answer).loadavg.drop (i + 1) = l.loadavg.drop (i + 1) :=
        fun answer => drop_set_of_lt (Nat.lt_succ_self i)
      rw [getElem?_eq_getElem hin, hdrop, mapM_cons]
      dsimp only
      cases hwindow : toIntC l.loadavg[i] with
      | none =>
        constructor
        · intro h
          cases h
        · rintro ⟨-, windows, answers, hwindows, -⟩
          cases hwindows
      | some avgSecs =>
        dsimp only
        rw [bind_eq_ok_iff]
        constructor
        · rintro ⟨l', hinto, hrest⟩
          obtain ⟨answer, hget, -, rfl⟩ := fetchInto_eq_ok_iff.mp hinto
          obtain ⟨hlen, windows, answers, hwindows, hanswers, rfl⟩ := (ih (by omega)).mp hrest
          rw [hkept] at hwindows
          refine ⟨by omega, avgSecs :: windows, answer :: answers, ?_, .cons hget hanswers, rfl⟩
          rw [hwindows]
          rfl
        · rintro ⟨hlen, windows, answers, hwindows, hanswers, rfl⟩
          obtain ⟨first, hfirst, hmore⟩ := Option.bind_eq_some_iff.mp hwindows
          obtain ⟨rest, hrest, hcons⟩ := Option.bind_eq_some_iff.mp hmore
          obtain rfl := Option.some.inj hfirst
          obtain rfl := Option.some.inj hcons
          cases hanswers with
          | cons hget hanswers =>
            refine ⟨_, fetchInto_eq_ok_iff.mpr ⟨_, hget, hlt, rfl⟩, (ih (by omega)).mpr ?_⟩
            exact ⟨by omega, rest, _, by rw [hkept]; exact hrest, hanswers, rfl⟩
    · have hout : l.loadavg[i]? = none :=
        getElem?_eq_none (by rw [l.loadavg_length]; omega)
      rw [hout]
      constructor
      · intro h
        cases h
      · rintro ⟨hlen, -⟩
        omega

/-- **What either function does**, where it has a meaning. -/
theorem run_eq_ok_iff (fetch : Fetch) {out : Option RmaStat × Loadavg × Int} :
    fetch.run (some rma) call l = .ok out ↔
      ∃ windows answers, fetch.windows l = some windows ∧
        Answers (addSample rma call) call.curTimeSec windows answers ∧
        out = (some (addSample rma call), l.storeAll 0 answers, 0) := by
  cases fetch with
  | std =>
    show (fetchWindows (some (addSample rma call)) _ _ _ _ >>= fun l => _) = _ ↔ _
    rw [bind_eq_ok_iff]
    constructor
    · rintro ⟨l', hfetch, hout⟩
      obtain ⟨-, answers, hanswers, rfl⟩ := (fetchWindows_eq_ok_iff (by decide)).mp hfetch
      exact ⟨stdWindows, answers, rfl, hanswers, (Except.ok.inj hout).symm⟩
    · rintro ⟨windows, answers, hwindows, hanswers, rfl⟩
      obtain rfl := Option.some.inj hwindows
      exact ⟨_, (fetchWindows_eq_ok_iff (by decide)).mpr ⟨by decide, answers, hanswers, rfl⟩, rfl⟩
  | custom numAvg =>
    show (customLoop (some (addSample rma call)) _ _ _ _ >>= fun l => _) = _ ↔ _
    rw [bind_eq_ok_iff, Fetch.windows, Loadavg.windows]
    constructor
    · rintro ⟨l', hloop, hout⟩
      obtain ⟨hlen, windows, answers, hwindows, hanswers, rfl⟩ :=
        (customLoop_eq_ok_iff (by decide)).mp hloop
      refine ⟨windows, answers, ?_, hanswers, (Except.ok.inj hout).symm⟩
      rw [if_pos (by omega)]
      exact hwindows
    · rintro ⟨windows, answers, hwindows, hanswers, rfl⟩
      by_cases hlen : numAvg.toInt.toNat ≤ 3
      · rw [if_pos hlen] at hwindows
        exact ⟨_, (customLoop_eq_ok_iff (by decide)).mpr
          ⟨by omega, windows, answers, hwindows, hanswers, rfl⟩, rfl⟩
      · rw [if_neg hlen] at hwindows
        cases hwindows

/-! ## Any number of averages -/

theorem splice_set {α : Type} {xs : List α} {i : Nat} (hi : i < xs.length) (a : α) (as : List α) :
    (xs.set i a).take (i + 1) ++ (as ++ (xs.set i a).drop (i + 1 + as.length))
      = xs.take i ++ (a :: as ++ xs.drop (i + (a :: as).length)) := by
  have htake : (xs.set i a).take (i + 1) = xs.take i ++ [a] := by
    rw [take_add_one, take_set_of_le (Nat.le_refl i), getElem?_set_self hi]
    rfl
  have hdrop : (xs.set i a).drop (i + 1 + as.length) = xs.drop (i + (a :: as).length) := by
    rw [drop_set_of_lt (by omega), length_cons, Nat.add_assoc, Nat.add_comm 1]
  rw [htake, hdrop, append_assoc]
  rfl

/-- The answers in one of the two arrays: `view` is the array, and `part` what is stored in it. -/
theorem view_storeAll {α : Type} {view : Loadavg → List α} {part : ℚ × Int → α}
    (hlength : ∀ l, (view l).length = 3)
    (hstore : ∀ l i answer, view (l.store i answer) = (view l).set i (part answer)) :
    ∀ {answers : List (ℚ × Int)} {i : Nat} (l : Loadavg), i + answers.length ≤ 3 →
      view (l.storeAll i answers)
        = (view l).take i ++ (answers.map part ++ (view l).drop (i + answers.length)) := by
  intro answers
  induction answers with
  | nil =>
    intro i l _
    exact (take_append_drop i (view l)).symm
  | cons answer answers ih =>
    intro i l hlen
    rw [length_cons] at hlen
    have hset := splice_set (show i < (view l).length by rw [hlength]; omega) (part answer)
      (answers.map part)
    rw [length_cons, length_map] at hset
    rw [Loadavg.storeAll, ih (l.store i answer) (by omega), hstore]
    exact hset

theorem storeAll_loadavg {answers : List (ℚ × Int)} (l : Loadavg) (h : answers.length ≤ 3) :
    (l.storeAll 0 answers).loadavg = answers.map (·.1) ++ l.loadavg.drop answers.length := by
  rw [view_storeAll Loadavg.loadavg_length (fun _ _ _ => rfl) l (by omega), Nat.zero_add]
  rfl

theorem storeAll_result {answers : List (ℚ × Int)} (l : Loadavg) (h : answers.length ≤ 3) :
    (l.storeAll 0 answers).loadavgResult
      = answers.map (·.2) ++ l.loadavgResult.drop answers.length := by
  rw [view_storeAll Loadavg.result_length (fun _ _ _ => rfl) l (by omega), Nat.zero_add]
  rfl

/-- An `int` that is stored in a `double` comes back. -/
theorem toIntC_intCast (w : Int32) : toIntC (w.toInt : ℚ) = some w := by
  have hlow := Int32.le_toInt w
  have hhigh := Int32.toInt_lt w
  unfold toIntC
  rw [Rat.num_intCast, Rat.den_intCast, Nat.cast_one, Int.tdiv_one, if_pos ⟨hlow, hhigh⟩,
    Int32.ofInt_toInt]

theorem mapM_toIntC (windows : List Int32) :
    (windows.map fun w => (w.toInt : ℚ)).mapM toIntC = some windows :=
  mapM_eq_some_iff.mpr
    (forall₂_map_left_iff.mpr (forall₂_same.mpr fun w _ => toIntC_intCast w))

/-- The windows are in the array, as far as there is place for them. -/
def Holds (l : Loadavg) (windows : List Int32) : Prop :=
  l.loadavg.take windows.length = (windows.map fun w => (w.toInt : ℚ)).take 3

/-- Every window has its average and its result code where it was, and the sample was added. -/
def AnswersAll (rma : RmaStat) (call : AddCall) (l : Loadavg) (numAvg : Int32)
    (answers : List (ℚ × Int)) : Prop :=
  ∃ out, sigarRmaAddFetchCustomSample (some rma) call l numAvg
      = .ok (some (addSample rma call), out, 0) ∧
    ∀ i, i < answers.length →
      out.loadavg[i]? = answers[i]?.map (·.1) ∧ out.loadavgResult[i]? = answers[i]?.map (·.2)

/-- **Any number of averages**, as long as it is no more than three. -/
theorem customSample_answers_iff {numAvg : Int32} {windows : List Int32} {answers : List (ℚ × Int)}
    (hnum : numAvg.toInt = windows.length) (hholds : Holds l windows)
    (hanswers : Answers (addSample rma call) call.curTimeSec windows answers) :
    AnswersAll rma call l numAvg answers ↔ windows.length ≤ 3 := by
  have hlength : windows.length = answers.length := hanswers.length_eq
  have hnat : numAvg.toInt.toNat = windows.length := by omega
  constructor
  · rintro ⟨out, hrun, -⟩
    obtain ⟨asked, _, hasked, -⟩ := (run_eq_ok_iff (.custom numAvg)).mp hrun
    by_contra hmany
    rw [Fetch.windows, Loadavg.windows, hnat, if_neg hmany] at hasked
    cases hasked
  · intro hfew
    have hasked : (Fetch.custom numAvg).windows l = some windows := by
      rw [Fetch.windows, Loadavg.windows, hnat, if_pos hfew, hholds,
        take_of_length_le (by rw [length_map]; exact hfew), mapM_toIntC]
    refine ⟨l.storeAll 0 answers,
      (run_eq_ok_iff (.custom numAvg)).mpr ⟨windows, answers, hasked, hanswers, rfl⟩, ?_⟩
    intro i hi
    rw [storeAll_loadavg l (by omega), storeAll_result l (by omega),
      getElem?_append_left (by rw [length_map]; exact hi),
      getElem?_append_left (by rw [length_map]; exact hi), getElem?_map, getElem?_map]
    exact ⟨rfl, rfl⟩

/-- One window. -/
def oneWindow : Loadavg := ⟨[60, 0, 0], [0, 0, 0], rfl, rfl⟩

/-- Three windows. -/
def threeWindows : Loadavg := ⟨[60, 300, 20], [7, 7, 7], rfl, rfl⟩

/-- Three windows, over a sample of the time 39 and the new one of the time 100: the second window has
    both, and no answer takes the place of a window that is still to be asked for. -/
theorem customSample_answers_iff_threeWindows :
    AnswersAll (addSample (sigarRmaOpen (some 3)) ⟨2, 39, 0⟩) ⟨4, 100, 0⟩ threeWindows 3
      [(4, 0), (3, 0), (4, 0)] := by
  have hholds : Holds threeWindows [60, 300, 20] := by
    show [(60 : ℚ), 300, 20] = [(((60 : Int32).toInt : Int) : ℚ), (((300 : Int32).toInt : Int) : ℚ),
      (((20 : Int32).toInt : Int) : ℚ)]
    norm_num [show (60 : Int32).toInt = 60 by decide, show (300 : Int32).toInt = 300 by decide,
      show (20 : Int32).toInt = 20 by decide]
  refine (customSample_answers_iff (show (3 : Int32).toInt = [(60 : Int32), 300, 20].length by decide)
    hholds (.cons ?_ (.cons ?_ (.cons ?_ .nil)))).mpr (by decide)
  · decide +kernel
  · decide +kernel
  · decide +kernel

/-- Four windows: the fourth is read after the end of the array. -/
theorem fourWindows_outside :
    sigarRmaAddFetchCustomSample (some (sigarRmaOpen (some 3))) ⟨2, 5, 0⟩
      ⟨[60, 60, 60], [0, 0, 0], rfl, rfl⟩ 4 = .error .index := by
  rfl

/-! ## The averages at a time -/

/-- The samples that a walk over the ring meets, if it is not stopped by their age. -/
def met (ring : RingBuffer RmaSample) : List RmaSample :=
  ((ring.newest RmaSample.zero).take (ring.cells.length - 1)).takeWhile (·.stime ≠ 0)

theorem scan_takeWhile : ∀ (samples : List RmaSample) (avg : ℚ) (count : Nat),
    scan rate now samples avg count
      = scan rate now (samples.takeWhile (·.stime ≠ 0)) avg count := by
  intro samples
  induction samples with
  | nil => intro _ _; rfl
  | cons sample rest ih =>
    intro avg count
    by_cases hzero : sample.stime = 0
    · rw [takeWhile_cons_of_neg (by simpa using hzero)]
      exact if_pos hzero
    · rw [takeWhile_cons_of_pos (by simpa using hzero), scan, scan, ih]

theorem age_lower (hnow : 0 ≤ now.toInt) (sample : RmaSample) : -2 ^ 63 ≤ age now sample := by
  have hlt := sample.stime.toInt_lt
  unfold age
  omega

/-- **The average at a time that is not negative**, for a ring in any state. -/
theorem getAverage_eq_ok_iff (h : Backed rma ring) (hnow : 0 ≤ now.toInt) {answer : ℚ × Int} :
    sigarRmaGetAverage (some rma) rate now = .ok answer ↔
      AgeFits rate now (met ring) ∧ answer = averageOf (recent rate now (met ring)) := by
  have hwritten : ∀ s ∈ met ring, s.stime ≠ 0 := by
    intro s hs
    simpa using mem_takeWhile_imp hs
  obtain ⟨hok, herr⟩ := scan_spec rate hwritten (fun s _ => age_lower hnow s) 0 0
  show (averageLoop rma rate now (rma.elementCount.toNat + 1) (prevPos rma rma.currentPos) 0 0
    >>= fun pair => if pair.2 = 0 then Except.ok ((0 : ℚ), (-1 : Int))
      else .ok (pair.1 / pair.2, 0)) = _ ↔ _
  rw [averageLoop_start h, scan_takeWhile, ← met]
  by_cases hfits : AgeFits rate now (met ring)
  · have hvalue := average_value (recent rate now (met ring))
    rw [hok hfits]
    show (if _ then _ else _) = _ ↔ _
    rw [hvalue, Except.ok.injEq]
    exact ⟨fun h => ⟨hfits, h.symm⟩, fun h => h.2.symm⟩
  · rw [herr hfits]
    constructor
    · intro h
      cases h
    · intro h
      exact absurd h.1 hfits

/-! ## Zero for now -/

/-- The samples that count at the time 0, but not at `t`: they are older than the window, or behind
    one that is. -/
def stale (rate : Int32) (t : Int64) (samples : List RmaSample) : List RmaSample :=
  recent rate 0 (samples.dropWhile fun sample => age t sample ≤ rate.toInt)

/-- For this window the time 0 is as good as `t`: the same samples count. -/
structure NowFits (rate : Int32) (t : Int64) (samples : List RmaSample) : Prop where
  zero_fits : AgeFits rate 0 samples
  time_fits : AgeFits rate t samples
  none_stale : stale rate t samples = []

/-- At the time 0 the samples are younger. -/
theorem recent_zero (ht : 0 < t.toInt) (rate : Int32) (samples : List RmaSample) :
    recent rate 0 samples = recent rate t samples ++ stale rate t samples := by
  have hsplit : recent rate 0 (recent rate t samples
      ++ samples.dropWhile fun sample => age t sample ≤ rate.toInt) = _ :=
    takeWhile_append_of_pos (by
      intro sample hsample
      have hage : age t sample ≤ rate.toInt := by simpa using mem_takeWhile_imp hsample
      have hyounger : age 0 sample ≤ age t sample := by
        show (0 : Int64).toInt - sample.stime.toInt ≤ t.toInt - sample.stime.toInt
        rw [show (0 : Int64).toInt = 0 by decide]
        omega
      simpa using Int.le_trans hyounger hage)
  rw [recent, recent, takeWhile_append_dropWhile] at hsplit
  exact hsplit

/-- It cannot be seen where no sample is older than the window. -/
theorem nowFits_of_recent {samples : List RmaSample} (ht : 0 < t.toInt)
    (h : ∀ s ∈ samples, age t s ≤ rate.toInt) : NowFits rate t samples := by
  have hfits : ∀ now : Int64, now.toInt ≤ t.toInt → AgeFits rate now samples := by
    intro now hnow sample hfind
    have hold : rate.toInt < age now sample := by simpa using find?_some hfind
    have hage := h sample (mem_of_find?_eq_some hfind)
    unfold age at hold hage
    omega
  have hdrop : samples.dropWhile (fun sample => age t sample ≤ rate.toInt) = [] :=
    dropWhile_eq_nil_iff.mpr fun s hs => by simpa using h s hs
  refine ⟨hfits 0 (Int.le_of_lt ht), hfits t (Int.le_refl _), ?_⟩
  rw [stale, hdrop]
  rfl

/-- The average is the same at 0 and at `t`, if the same samples count. -/
theorem getAverage_of_nowFits (h : Backed rma ring) (ht : 0 < t.toInt)
    (hfits : NowFits rate t (met ring)) :
    sigarRmaGetAverage (some rma) rate 0 = .ok (averageOf (recent rate t (met ring))) ∧
      sigarRmaGetAverage (some rma) rate t = .ok (averageOf (recent rate t (met ring))) := by
  have hsame := recent_zero ht rate (met ring)
  rw [hfits.none_stale, append_nil] at hsame
  refine ⟨(getAverage_eq_ok_iff h (by decide)).mpr ⟨hfits.zero_fits, by rw [hsame]⟩, ?_⟩
  exact (getAverage_eq_ok_iff h (Int.le_of_lt ht)).mpr ⟨hfits.time_fits, rfl⟩

/-! ## Other values at the same times -/

/-- A change of samples that leaves their times, and what was never written. -/
structure Revalues (g : RmaSample → RmaSample) : Prop where
  time : ∀ s, (g s).stime = s.stime
  zero : g RmaSample.zero = RmaSample.zero

section Values

variable {g : RmaSample → RmaSample} (hg : Revalues g)
include hg

theorem Revalues.age (now : Int64) (s : RmaSample) : age now (g s) = age now s := by
  rw [Rma.age, Rma.age, hg.time]

theorem Revalues.ageFits (now : Int64) (samples : List RmaSample) :
    AgeFits rate now (samples.map g) ↔ AgeFits rate now samples := by
  simp [AgeFits, find?_map, Function.comp_def, hg.age]

theorem Revalues.recent (samples : List RmaSample) :
    recent rate t (samples.map g) = (recent rate t samples).map g := by
  simp only [Rma.recent, takeWhile_map, Function.comp_def, hg.age]

theorem Revalues.stale (samples : List RmaSample) :
    stale rate t (samples.map g) = (stale rate t samples).map g := by
  simp only [Rma.stale, dropWhile_map, Function.comp_def, hg.age, hg.recent]

theorem Revalues.met (ring : RingBuffer RmaSample) : met (ring.map g) = (met ring).map g := by
  have hnewest := ring.newest_map g RmaSample.zero
  rw [hg.zero] at hnewest
  have hlength : (ring.map g).cells.length = ring.cells.length := length_map g
  rw [Rma.met, hnewest, hlength, ← map_take, takeWhile_map]
  simp only [Function.comp_def, hg.time, Rma.met]

end Values

/-- A sample without its value. -/
def RmaSample.bare (s : RmaSample) : RmaSample := ⟨s.stime, 0⟩

theorem revalues_bare : Revalues .bare := ⟨fun _ => rfl, rfl⟩

/-- Two rings with samples of the same times. -/
def SameTimes (ring ring' : RingBuffer RmaSample) : Prop := ring'.map RmaSample.bare = ring.map .bare

/-- Whether the time 0 is as good as `t` does not depend on values. -/
theorem nowFits_sameTimes {ring ring' : RingBuffer RmaSample} (hsame : SameTimes ring ring')
    (h : NowFits rate t (met ring)) : NowFits rate t (met ring') := by
  have hmet : (met ring').map RmaSample.bare = (met ring).map .bare := by
    rw [← revalues_bare.met, hsame, revalues_bare.met]
  have hages := fun now => @Revalues.ageFits rate _ revalues_bare now
  have hstale : (stale rate t (met ring')).map RmaSample.bare = [] := by
    rw [← revalues_bare.stale, hmet, revalues_bare.stale, h.none_stale]
    rfl
  exact ⟨(hages 0 _).mp (hmet ▸ (hages 0 _).mpr h.zero_fits),
    (hages t _).mp (hmet ▸ (hages t _).mpr h.time_fits), map_eq_nil_iff.mp hstale⟩

/-- A value of 1 for what a window excludes, and 0 for the rest. -/
def weigh (rate : Int32) (t : Int64) (s : RmaSample) : RmaSample :=
  ⟨s.stime, if s.stime ≠ 0 ∧ rate.toInt < age t s then 1 else 0⟩

theorem revalues_weigh (rate : Int32) (t : Int64) : Revalues (weigh rate t) :=
  ⟨fun _ => rfl, by simp [weigh, RmaSample.zero]⟩

/-- **With these values the averages agree only if nothing is stale.** -/
theorem stale_eq_nil_of_weigh {samples : List RmaSample} (hwritten : ∀ s ∈ samples, s.stime ≠ 0)
    (hsame : averageOf (recent rate t (samples.map (weigh rate t)))
      = averageOf (recent rate t (samples.map (weigh rate t))
          ++ stale rate t (samples.map (weigh rate t)))) :
    stale rate t samples = [] := by
  rw [(revalues_weigh rate t).recent, (revalues_weigh rate t).stale, averageOf_append_iff,
    map_eq_nil_iff] at hsame
  refine hsame.elim id fun ⟨_, hmean⟩ => ?_
  have hrecent : mean ((recent rate t samples).map (weigh rate t)) = 0 := by
    have hvalues : ∀ s ∈ recent rate t samples, (weigh rate t s).value = 0 := by
      intro s hs
      have hage : age t s ≤ rate.toInt := by simpa using mem_takeWhile_imp hs
      exact if_neg fun h => absurd h.2 (Int.not_lt.mpr hage)
    have hsum : (((recent rate t samples).map (weigh rate t)).map (·.value)).sum = 0 := by
      rw [map_map]
      exact sum_eq_zero (by simpa using hvalues)
    rw [mean, hsum, zero_div]
  rw [hrecent] at hmean
  cases hdrop : samples.dropWhile fun s => age t s ≤ rate.toInt with
  | nil =>
    rw [stale, hdrop]
    rfl
  | cons s rest =>
    -- the first sample that the window excludes has the value 1, and none has a negative one
    have hold : rate.toInt < age t s := by
      have hhead := dropWhile_get_zero_not (fun s => decide (age t s ≤ rate.toInt)) samples
        (by rw [hdrop]; exact Nat.succ_pos _)
      simpa [hdrop] using hhead
    have hmem : s ∈ samples := (dropWhile_sublist _).subset (hdrop ▸ mem_cons_self)
    have hone : (weigh rate t s).value = 1 := if_pos ⟨hwritten s hmem, hold⟩
    rw [stale, hdrop] at hmean ⊢
    by_cases hage : age 0 s ≤ rate.toInt
    · rw [recent, takeWhile_cons_of_pos (by simpa using hage), map_cons, mean] at hmean
      have hnonneg : 0 ≤ (((rest.takeWhile fun s => age 0 s ≤ rate.toInt).map (weigh rate t)).map
          (·.value)).sum := by
        refine sum_nonneg fun v hv => ?_
        obtain ⟨s', hs', rfl⟩ := mem_map.mp hv
        obtain ⟨s'', _, rfl⟩ := mem_map.mp hs'
        show 0 ≤ (if _ then (1 : ℚ) else 0)
        split <;> norm_num
      rw [map_cons, sum_cons, hone, div_eq_zero_iff] at hmean
      rcases hmean with hsum | hlength
      · linarith
      · exact absurd (Nat.cast_eq_zero.mp hlength) (Nat.succ_ne_zero _)
    · rw [recent, takeWhile_cons_of_neg (by simpa using hage)]

theorem windows_length_le {fetch : Fetch} {windows : List Int32}
    (h : fetch.windows l = some windows) : windows.length ≤ 3 := by
  cases fetch with
  | std =>
    obtain rfl := Option.some.inj h
    decide
  | custom numAvg =>
    rw [Fetch.windows, Loadavg.windows] at h
    split at h
    · next hfew =>
      have hlen := (mapM_eq_some_iff.mp h).length_eq
      rw [length_take] at hlen
      omega
    · cases h

theorem storeAll_inj {as bs : List (ℚ × Int)} (has : as.length ≤ 3) (hlen : as.length = bs.length)
    (h : l.storeAll 0 as = l.storeAll 0 bs) : as = bs := by
  have hvalues := congrArg Loadavg.loadavg h
  have hresults := congrArg Loadavg.loadavgResult h
  rw [storeAll_loadavg l (by omega), storeAll_loadavg l (by omega), hlen] at hvalues
  rw [storeAll_result l (by omega), storeAll_result l (by omega), hlen] at hresults
  have hfst : as.map (·.1) = bs.map (·.1) := by
    refine (append_inj hvalues ?_).1
    rw [length_map, length_map, hlen]
  have hsnd : as.map (·.2) = bs.map (·.2) := by
    refine (append_inj hresults ?_).1
    rw [length_map, length_map, hlen]
  exact (zip_of_prod hfst hsnd).trans (zip_of_prod rfl rfl).symm

/-- With 0 for the time the same is returned as with `t`: the ring, the result codes, and for every
    window the average of the samples that it does not exclude at `t`. -/
def NowIsTime (rma : RmaStat) (value : ℚ) (t : Int64) (millis : UInt64) (fetch : Fetch)
    (l : Loadavg) (samples : List RmaSample) : Prop :=
  ∃ windows out, fetch.windows l = some windows ∧
    fetch.run (some rma) ⟨value, 0, millis⟩ l = .ok out ∧
    fetch.run (some rma) ⟨value, t, millis⟩ l = .ok out ∧
    out.2.1 = l.storeAll 0 (windows.map fun w => averageOf (recent w t samples))

/-- The two calls agree exactly when every window has one average, that at `t`. -/
theorem nowIsTime_iff (ht : 0 < t) {millis : UInt64} (hclock : (millis / 1000).toInt64 = t)
    (value : ℚ) (fetch : Fetch) (l : Loadavg) (samples : List RmaSample) :
    NowIsTime rma value t millis fetch l samples ↔
      ∃ windows, fetch.windows l = some windows ∧ ∀ now ∈ [0, t], ∀ w ∈ windows,
        sigarRmaGetAverage (some (addSample rma ⟨value, t, millis⟩)) w now
          = .ok (averageOf (recent w t samples)) := by
  have hne : t ≠ 0 := fun h0 => Int64.lt_irrefl (h0 ▸ ht)
  have hadd : addSample rma ⟨value, 0, millis⟩ = addSample rma ⟨value, t, millis⟩ := by
    unfold addSample
    dsimp only
    rw [if_neg (by simp), if_pos hne, hclock]
  have hanswers : ∀ {now : Int64} {windows : List Int32}, Answers (addSample rma ⟨value, t, millis⟩)
      now windows (windows.map fun w => averageOf (recent w t samples)) ↔ ∀ w ∈ windows,
        sigarRmaGetAverage (some (addSample rma ⟨value, t, millis⟩)) w now
          = .ok (averageOf (recent w t samples)) :=
    forall₂_map_right_iff.trans forall₂_same
  simp only [forall_mem_cons, not_mem_nil, false_implies, implies_true, and_true, ← hanswers]
  constructor
  · rintro ⟨windows, out, hwindows, hzero, htime, hout⟩
    refine ⟨windows, hwindows, ?_⟩
    obtain ⟨_, answers, hwindows0, hanswers0, rfl⟩ := (run_eq_ok_iff fetch).mp hzero
    obtain ⟨_, answers', hwindows', hanswers', hout'⟩ := (run_eq_ok_iff fetch).mp htime
    obtain rfl := Option.some.inj (hwindows.symm.trans hwindows0)
    obtain rfl := Option.some.inj (hwindows.symm.trans hwindows')
    have hlen := windows_length_le hwindows
    have hlen0 := hanswers0.length_eq
    have hlen' := hanswers'.length_eq
    obtain rfl := storeAll_inj (by omega) (by omega) (Prod.mk.inj (Prod.mk.inj hout').2).1
    obtain rfl := storeAll_inj (by omega) (by rw [length_map]; omega) hout
    exact ⟨hadd ▸ hanswers0, hanswers'⟩
  · rintro ⟨windows, hwindows, hzero, htime⟩
    refine ⟨windows, _, hwindows, (run_eq_ok_iff fetch).mpr ⟨windows, _, hwindows, ?_, rfl⟩,
      (run_eq_ok_iff fetch).mpr ⟨windows, _, hwindows, htime, ?_⟩, rfl⟩
    · rw [hadd]
      exact hzero
    · rw [hadd]

theorem SameTimes.push {ring ring' : RingBuffer RmaSample} (h : SameTimes ring ring') (t : Int64)
    (value value' : ℚ) : SameTimes (ring.push ⟨t, value⟩) (ring'.push ⟨t, value'⟩) := by
  rw [SameTimes, ← RingBuffer.push_map, ← RingBuffer.push_map, h]
  rfl

/-- **Zero means now**, whatever the values of the samples are, exactly when no window of the request
    excludes a sample at the time of the clock that it takes at the time 0. -/
theorem fetch_now_iff (h : Backed rma ring) (ht : 0 < t) {millis : UInt64}
    (hclock : (millis / 1000).toInt64 = t) (fetch : Fetch) (l : Loadavg) :
    (∀ rma' ring' value, Backed rma' ring' → SameTimes ring ring' →
      NowIsTime rma' value t millis fetch l (met (ring'.push ⟨t, value⟩))) ↔
      ∃ windows, fetch.windows l = some windows ∧
        ∀ w ∈ windows, NowFits w t (met (ring.push ⟨t, 0⟩)) := by
  have hpos : 0 < t.toInt := Int64.lt_iff_toInt_lt.mp ht
  have hne : t ≠ 0 := fun h0 => Int64.lt_irrefl (h0 ▸ ht)
  have hbacked : ∀ {rma' ring'} (value : ℚ), Backed rma' ring' →
      Backed (addSample rma' ⟨value, t, millis⟩) (ring'.push ⟨t, value⟩) := fun value hring =>
    addSample_backed hring (show (AddCall.mk value t millis).curTimeSec ≠ 0 from hne)
  constructor
  · intro hall
    obtain ⟨windows, hwindows, -⟩ := (nowIsTime_iff ht hclock 0 fetch l _).mp (hall rma ring 0 h rfl)
    refine ⟨windows, hwindows, fun w hw => ?_⟩
    -- the values that tell what the window excludes from the rest
    have hg := revalues_weigh w t
    have hring : Backed { rma with samples := rma.samples.map (weigh w t) } (ring.map (weigh w t)) :=
      ⟨congrArg (map _) h.samples_eq, h.count_eq.trans (length_map _).symm, h.pos_eq,
        h.pos_lt.trans_eq (length_map _).symm⟩
    have hsame : SameTimes ring (ring.map (weigh w t)) := by
      simp [SameTimes, RingBuffer.map, Function.comp_def, RmaSample.bare, weigh]
    obtain ⟨windows', hwindows', hanswers⟩ := (nowIsTime_iff ht hclock _ fetch l _).mp
      (hall _ _ (weigh w t ⟨t, 0⟩).value hring hsame)
    obtain rfl := Option.some.inj (hwindows.symm.trans hwindows')
    have hmet : met ((ring.map (weigh w t)).push ⟨t, (weigh w t ⟨t, 0⟩).value⟩)
        = (met (ring.push ⟨t, 0⟩)).map (weigh w t) := by
      rw [← hg.met, ← RingBuffer.push_map]
      rfl
    obtain ⟨hfits0, hzero⟩ := (getAverage_eq_ok_iff (hbacked _ hring) (by decide)).mp
      (hanswers 0 (by simp) w hw)
    obtain ⟨hfitst, -⟩ := (getAverage_eq_ok_iff (hbacked _ hring) (Int.le_of_lt hpos)).mp
      (hanswers t (by simp) w hw)
    rw [hmet] at hfits0 hfitst hzero
    rw [recent_zero hpos] at hzero
    refine ⟨(hg.ageFits 0 _).mp hfits0, (hg.ageFits t _).mp hfitst,
      stale_eq_nil_of_weigh (fun s hs => ?_) hzero⟩
    simpa using mem_takeWhile_imp hs
  · rintro ⟨windows, hwindows, hfits⟩ rma' ring' value hring hsame
    refine (nowIsTime_iff ht hclock value fetch l _).mpr ⟨windows, hwindows, ?_⟩
    have haverage := fun w hw => getAverage_of_nowFits (hbacked value hring) hpos
      (nowFits_sameTimes (hsame.push t 0 value) (hfits w hw))
    simp only [forall_mem_cons, not_mem_nil, false_implies, implies_true, and_true]
    exact ⟨fun w hw => (haverage w hw).1, fun w hw => (haverage w hw).2⟩

/-- A ring with two samples, at the times 100 and 130. -/
def twoSamples : RmaStat := addSample (addSample (sigarRmaOpen (some 5)) ⟨1, 100, 0⟩) ⟨2, 130, 0⟩

/-- Its cells. -/
def twoSamplesRing : RingBuffer RmaSample := ((emptyRing 5).push ⟨100, 1⟩).push ⟨130, 2⟩

theorem twoSamples_backed : Backed twoSamples twoSamplesRing := by
  have hfirst : (⟨1, 100, 0⟩ : AddCall).curTimeSec ≠ 0 := by decide
  have hsecond : (⟨2, 130, 0⟩ : AddCall).curTimeSec ≠ 0 := by decide
  exact addSample_backed (addSample_backed (sigarRmaOpen_backed (some 5)) hfirst) hsecond

/-- A third sample, at the time 150: all three are in every window. -/
theorem fetch_now_iff_threeSamples :
    NowIsTime twoSamples 3 150 150000 .std oneWindow
      [⟨150, 3⟩, ⟨130, 2⟩, ⟨100, 1⟩] := by
  have hmet : met (twoSamplesRing.push ⟨150, 0⟩) = [⟨150, 0⟩, ⟨130, 2⟩, ⟨100, 1⟩] := by
    decide +kernel
  have hnow := (@fetch_now_iff _ _ 150 twoSamples_backed (by decide) 150000 (by decide) .std
    oneWindow).mpr ⟨stdWindows, rfl, fun w hw => nowFits_of_recent (by decide) ?_⟩
  · exact hnow twoSamples twoSamplesRing 3 twoSamples_backed rfl
  · rw [hmet]
    have hwindows : stdWindows.all (fun w => 50 ≤ w.toInt) = true := by decide
    have hw50 := of_decide_eq_true (all_eq_true.mp hwindows w hw)
    have hages : ∀ s ∈ [(⟨150, 0⟩ : RmaSample), ⟨130, 2⟩, ⟨100, 1⟩], age 150 s ≤ 50 := by decide
    exact fun s hs => (hages s hs).trans hw50

/-- A sample of the time 1 at the time 1000, and one of now: for 0 all averages are those of both,
    and for 1000 those of the second. -/
theorem zeroTime_keepsOld :
    ((Fetch.run .std (some (addSample (sigarRmaOpen (some 3)) ⟨1, 1, 0⟩)) ⟨3, 0, 1000000⟩
        oneWindow).map (·.2.1.loadavg) = .ok [2, 2, 2]) ∧
      (Fetch.run .std (some (addSample (sigarRmaOpen (some 3)) ⟨1, 1, 0⟩)) ⟨3, 1000, 1000000⟩
        oneWindow).map (·.2.1.loadavg) = .ok [3, 3, 3] := by
  constructor
  · decide +kernel
  · decide +kernel

end Sigar.Rma
