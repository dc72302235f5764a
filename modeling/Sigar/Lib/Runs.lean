/-
  Runs of a deterministic machine that answers every input.

  A machine is a step function `σ → ι → σ × ο`: it takes an input and returns the next state with
  an answer.  `exec` feeds it a list of inputs.  Three rules carry every result about runs:

  * `exec_invariant` — an invariant kept by every step that meets a guard is kept by every run
    whose steps all meet it (`Along`);
  * `along_of_invariant` — what such steps guarantee one by one, every step of such a run does;
  * `exec_sim` — a simulation between two machines, indexed by a clock that the inputs advance
    (`Admissible`), relates the final states and gives the same answers.

  A machine that may also FAIL is run by `List.foldlM`; `foldlM_sim` is its simulation rule.
-/
import Mathlib.Data.List.Basic

namespace Runs

open List

variable {σ τ ι ο ω κ : Type}

/-! ## Feeding a list of inputs to a machine -/

/-- Run `step` over the inputs from the left: the final state and the answers in order. -/
def exec (step : σ → ι → σ × ο) : σ → List ι → σ × List ο
  | s, [] => (s, [])
  | s, i :: is =>
    let rest := exec step (step s i).1 is
    (rest.1, (step s i).2 :: rest.2)

@[simp] theorem exec_nil (step : σ → ι → σ × ο) (s : σ) : exec step s [] = (s, []) := rfl

@[simp] theorem exec_cons (step : σ → ι → σ × ο) (s : σ) (i : ι) (is : List ι) :
    exec step s (i :: is)
      = ((exec step (step s i).1 is).1, (step s i).2 :: (exec step (step s i).1 is).2) := rfl

theorem exec_append (step : σ → ι → σ × ο) :
    ∀ (is js : List ι) (s : σ),
      (exec step s (is ++ js)).1 = (exec step (exec step s is).1 js).1 := by
  intro is
  induction is with
  | nil => intro js s; rfl
  | cons i is ih => intro js s; exact ih js (step s i).1

/-- Every step that the run from `s` takes meets the guard `G`. -/
def Along (step : σ → ι → σ × ο) (G : σ → ι → Prop) : σ → List ι → Prop
  | _, [] => True
  | s, i :: is => G s i ∧ Along step G (step s i).1 is

/-- A guard that can be checked can be checked along a run. -/
instance Along.instDecidable (step : σ → ι → σ × ο) (G : σ → ι → Prop)
    [∀ s i, Decidable (G s i)] : ∀ (s : σ) (is : List ι), Decidable (Along step G s is)
  | _, [] => .isTrue trivial
  | s, i :: is =>
    haveI := Along.instDecidable step G (step s i).1 is
    inferInstanceAs (Decidable (G s i ∧ Along step G (step s i).1 is))

/-- The answer to the input after `before`. -/
theorem exec_getElem? (step : σ → ι → σ × ο) :
    ∀ (before : List ι) (i : ι) (after : List ι) (s : σ),
      (exec step s (before ++ i :: after)).2[before.length]?
        = some (step (exec step s before).1 i).2 := by
  intro before
  induction before with
  | nil => intro i after s; rfl
  | cons j before ih => intro i after s; exact ih i after (step s j).1

variable {step : σ → ι → σ × ο}

/-- The guard is met along a run if it is met wherever the run can be cut. -/
theorem along_of_cuts {G : σ → ι → Prop} :
    ∀ (is : List ι) (s : σ),
      (∀ before i after, is = before ++ i :: after → G (exec step s before).1 i) →
      Along step G s is := by
  intro is
  induction is with
  | nil => intro s _; exact trivial
  | cons i is ih =>
    intro s h
    refine ⟨h [] i is rfl, ih (step s i).1 fun before j after heq => ?_⟩
    exact h (i :: before) j after (by rw [heq]; rfl)

/-- **The invariant rule**: what every guarded step keeps, every guarded run keeps. -/
theorem exec_invariant (step : σ → ι → σ × ο) (G : σ → ι → Prop) (Inv : σ → Prop)
    (hstep : ∀ s i, Inv s → G s i → Inv (step s i).1) :
    ∀ (is : List ι) (s : σ), Inv s → Along step G s is → Inv (exec step s is).1 := by
  intro is
  induction is with
  | nil => intro s hs _; exact hs
  | cons i is ih =>
    intro s hs hG
    obtain ⟨hGi, hGis⟩ := hG
    exact ih (step s i).1 (hstep s i hs hGi) hGis

/-- A weaker guard is met too. -/
theorem Along.mono {G H : σ → ι → Prop} (h : ∀ s i, G s i → H s i) :
    ∀ {is : List ι} {s : σ}, Along step G s is → Along step H s is := by
  intro is
  induction is with
  | nil => intro s _; exact trivial
  | cons i is ih => intro s hG; exact ⟨h s i hG.1, ih hG.2⟩

/-- Guards that agree on every step agree along every run. -/
theorem along_congr {G H : σ → ι → Prop} (h : ∀ s i, G s i ↔ H s i) :
    ∀ (is : List ι) (s : σ), Along step G s is ↔ Along step H s is := by
  intro is
  induction is with
  | nil => intro s; exact Iff.rfl
  | cons i is ih => intro s; exact and_congr (h s i) (ih (step s i).1)

/-- Guards can be met together. -/
theorem Along.and {G H : σ → ι → Prop} :
    ∀ {is : List ι} {s : σ}, Along step G s is → Along step H s is →
      Along step (fun s i => G s i ∧ H s i) s is := by
  intro is
  induction is with
  | nil => intro s _ _; exact trivial
  | cons i is ih =>
    intro s hG hH
    exact ⟨⟨hG.1, hH.1⟩, ih hG.2 hH.2⟩

/-- A guard on the inputs alone. -/
theorem along_of_forall {P : ι → Prop} :
    ∀ {is : List ι} {s : σ}, (∀ i ∈ is, P i) → Along step (fun _ i => P i) s is := by
  intro is
  induction is with
  | nil => intro s _; exact trivial
  | cons i is ih =>
    intro s h
    exact ⟨h i mem_cons_self, ih fun j hj => h j (mem_cons_of_mem i hj)⟩

/-- **The rule for clocks**: if the state remembers the time of the last input, inputs in order
    come in order after what the state remembers. -/
theorem along_of_pairwise (last : σ → Option κ) (time : ι → κ)
    (R : κ → κ → Prop) (hstep : ∀ s i, last (step s i).1 = some (time i)) :
    ∀ {is : List ι} {s : σ}, (∀ k, last s = some k → ∀ i ∈ is, R k (time i)) →
      is.Pairwise (fun i j => R (time i) (time j)) →
      Along step (fun s i => ∀ k, last s = some k → R k (time i)) s is := by
  intro is
  induction is with
  | nil => intro s _ _; exact trivial
  | cons i is ih =>
    intro s hlast hsorted
    obtain ⟨hfirst, hrest⟩ := pairwise_cons.mp hsorted
    refine ⟨fun k hk => hlast k hk i mem_cons_self, ih ?_ hrest⟩
    intro k hk j hj
    rw [hstep s i] at hk
    rw [← Option.some.inj hk]
    exact hfirst j hj

/-- **The rule for what every step does**: under an invariant that guarded steps keep, what each
    of them guarantees holds of every step of a guarded run. -/
theorem along_of_invariant {G Q : σ → ι → Prop} {Inv : σ → Prop}
    (hstep : ∀ s i, Inv s → G s i → Inv (step s i).1 ∧ Q s i) :
    ∀ (is : List ι) (s : σ), Inv s → Along step G s is → Along step Q s is := by
  intro is
  induction is with
  | nil => intro s _ _; exact trivial
  | cons i is ih =>
    intro s hs hG
    obtain ⟨hInv, hQ⟩ := hstep s i hs hG.1
    exact ⟨hQ, ih _ hInv hG.2⟩

/-! ## Simulations indexed by a clock -/

/-- The inputs are admissible for a clock that starts at `k`: each one is allowed by `ok` at the
    time it arrives, and moves the clock on by `adv`. -/
def Admissible (ok : κ → ι → Prop) (adv : κ → ι → κ) : κ → List ι → Prop
  | _, [] => True
  | k, i :: is => ok k i ∧ Admissible ok adv (adv k i) is

/-- What is allowed at any time needs no clock. -/
theorem admissible_of_forall {ok : ι → Prop} (k : κ) : ∀ {is : List ι}, (∀ i ∈ is, ok i) →
    Admissible (fun _ => ok) (fun k _ => k) k is := by
  intro is
  induction is with
  | nil => intro _; exact trivial
  | cons i is ih =>
    intro h
    exact ⟨h i mem_cons_self, ih fun j hj => h j (mem_cons_of_mem i hj)⟩

/-- **The simulation rule**: if every admissible step keeps `R` and gives the same answer, seen
    through `view`, then so does every admissible run. -/
theorem exec_sim (step : σ → ι → σ × ο) (step' : τ → ι → τ × ω) (view : ο → ω)
    (R : κ → σ → τ → Prop) {ok : κ → ι → Prop} {adv : κ → ι → κ}
    (hstep : ∀ k s t i, ok k i → R k s t →
      R (adv k i) (step s i).1 (step' t i).1 ∧ view (step s i).2 = (step' t i).2) :
    ∀ (is : List ι) (k : κ) (s : σ) (t : τ), Admissible ok adv k is → R k s t →
      R (is.foldl adv k) (exec step s is).1 (exec step' t is).1 ∧
      (exec step s is).2.map view = (exec step' t is).2 := by
  intro is
  induction is with
  | nil => intro k s t _ hR; exact ⟨hR, rfl⟩
  | cons i is ih =>
    intro k s t hadm hR
    obtain ⟨hok, hrest⟩ := hadm
    obtain ⟨hR', hout⟩ := hstep k s t i hok hR
    obtain ⟨hRfin, houts⟩ := ih (adv k i) (step s i).1 (step' t i).1 hrest hR'
    refine ⟨hRfin, ?_⟩
    rw [exec_cons, exec_cons, map_cons, hout, houts]

/-! ## Machines that may fail -/

/-- **The rule for runs without a failure**: if every step that succeeds keeps `R`, so does every
    run that does. -/
theorem foldlM_sim (step : σ → ι → Except ο σ) (step' : τ → ι → τ) (R : σ → τ → Prop)
    (hstep : ∀ s t i s', R s t → step s i = .ok s' → R s' (step' t i)) :
    ∀ {is : List ι} {s s' : σ} {t : τ}, R s t → is.foldlM step s = .ok s' →
      R s' (is.foldl step' t) := by
  intro is
  induction is with
  | nil =>
    intro s s' t hR hrun
    exact Except.ok.inj hrun ▸ hR
  | cons i is ih =>
    intro s s' t hR hrun
    rw [foldlM_cons] at hrun
    cases hi : step s i with
    | error failure => rw [hi] at hrun; cases hrun
    | ok next =>
      rw [hi] at hrun
      exact ih (hstep s t i next hR hi) hrun

end Runs
