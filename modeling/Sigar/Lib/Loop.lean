/-
  Loops `while (live) round`, whose rounds can fail.

  `iterate` is the loop with a bound on its rounds, so that it can be evaluated.  `Descends` says of
  a loop that it ENDS, that no round of it fails, and that every round takes a measure down; such a
  loop needs no more rounds than the measure says (`Descends.iterate_eq`).  Where there is no
  measure, `Ends` says that some number of rounds is enough (`exists_iterate_iff`).
-/
import Sigar.Lib.Fallible

namespace Loop

open Fallible

variable {S ε : Type} {live : S → Bool} {round : S → Except ε S} {μ : S → Nat} {stuck : ε}
  {s out : S}

/-- At most `fuel` rounds; the loop is stuck if these are not enough. -/
def iterate (live : S → Bool) (round : S → Except ε S) (stuck : ε) : Nat → S → Except ε S
  | 0, _ => .error stuck
  | fuel + 1, s =>
    if live s then round s >>= iterate live round stuck fuel
    else .ok s

/-- From `s` the loop ends in `out`, and every round takes the measure down. -/
inductive Descends (live : S → Bool) (round : S → Except ε S) (μ : S → Nat) : S → S → Prop
  | done {s : S} (hlive : live s = false) : Descends live round μ s s
  | step {s s' out : S} (hlive : live s = true) (hround : round s = .ok s') (hless : μ s' < μ s)
      (hrest : Descends live round μ s' out) : Descends live round μ s out

/-- **A loop that descends is iterated to its end.** -/
theorem Descends.iterate_eq (h : Descends live round μ s out) :
    ∀ {fuel : Nat}, μ s < fuel → iterate live round stuck fuel s = .ok out := by
  induction h with
  | done hlive =>
    intro fuel hfuel
    obtain ⟨fuel, rfl⟩ : ∃ n, fuel = n + 1 := ⟨fuel - 1, by omega⟩
    rw [iterate, hlive]
    rfl
  | step hlive hround hless _ ih =>
    intro fuel hfuel
    obtain ⟨fuel, rfl⟩ : ∃ n, fuel = n + 1 := ⟨fuel - 1, by omega⟩
    rw [iterate, if_pos hlive]
    exact bind_eq_ok_iff.mpr ⟨_, hround, ih (by omega)⟩

/-- A round that changes nothing is repeated for ever. -/
theorem iterate_stuck (hlive : live s = true) (hround : round s = .ok s) :
    ∀ fuel, iterate live round stuck fuel s = .error stuck := by
  intro fuel
  induction fuel with
  | zero => rfl
  | succ fuel ih =>
    rw [iterate, if_pos hlive, hround]
    exact ih

/-! ## Loops without a measure -/

/-- From `s` the loop ends in `out`. -/
inductive Ends (live : S → Bool) (round : S → Except ε S) : S → S → Prop
  | done {s : S} (hlive : live s = false) : Ends live round s s
  | step {s s' out : S} (hlive : live s = true) (hround : round s = .ok s')
      (hrest : Ends live round s' out) : Ends live round s out

/-- From some number of rounds on, a loop that ends is iterated to its end. -/
theorem Ends.eventually (h : Ends live round s out) :
    ∃ least, ∀ fuel, least ≤ fuel → iterate live round stuck fuel s = .ok out := by
  induction h with
  | done hlive =>
    refine ⟨1, fun fuel hfuel => ?_⟩
    obtain ⟨fuel, rfl⟩ : ∃ n, fuel = n + 1 := ⟨fuel - 1, by omega⟩
    rw [iterate, hlive]
    rfl
  | step hlive hround _ ih =>
    obtain ⟨least, hleast⟩ := ih
    refine ⟨least + 1, fun fuel hfuel => ?_⟩
    obtain ⟨fuel, rfl⟩ : ∃ n, fuel = n + 1 := ⟨fuel - 1, by omega⟩
    rw [iterate, if_pos hlive]
    exact bind_eq_ok_iff.mpr ⟨_, hround, hleast fuel (by omega)⟩

/-- **A loop ends** where some number of rounds is enough. -/
theorem exists_iterate_iff :
    (∃ fuel, iterate live round stuck fuel s = .ok out) ↔ Ends live round s out := by
  constructor
  · rintro ⟨fuel, h⟩
    induction fuel generalizing s with
    | zero => cases h
    | succ fuel ih =>
      rw [iterate] at h
      split at h
      case isTrue hlive =>
        obtain ⟨s', hround, hrest⟩ := bind_eq_ok_iff.mp h
        exact .step hlive hround (ih hrest)
      case isFalse hlive =>
        rw [← Except.ok.inj h]
        exact .done (Bool.eq_false_iff.mpr hlive)
  · intro h
    obtain ⟨least, hleast⟩ := @Ends.eventually S ε live round stuck s out h
    exact ⟨least, hleast least (Nat.le_refl least)⟩

/-- A loop ends in one way only. -/
theorem Ends.unique {out' : S} (h : Ends live round s out) (h' : Ends live round s out') :
    out = out' := by
  induction h with
  | done hlive =>
    cases h' with
    | done => rfl
    | step hlive' => rw [hlive] at hlive'; cases hlive'
  | step hlive hround _ ih =>
    cases h' with
    | done hlive' => rw [hlive] at hlive'; cases hlive'
    | step _ hround' hrest' => grind

end Loop
