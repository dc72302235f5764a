/-
  Scanning an array from its end.

  `skipBack p d buffer n` is the loop `while ((n > 0) && p(buffer[n--])) ;` and returns `n`.  It
  stops ONE PLACE BEFORE the first element that fails `p`, and never looks at `buffer[0]`.

  1. `skipBack_run`: over a run of elements that satisfy `p`, and the one before them.
  2. `skipBack_congr`: only what stands at or before the start of the scan matters.
-/
import Mathlib.Data.List.Basic
import Mathlib.Data.List.GetD
import Mathlib.Data.List.Induction

namespace BackScan

open List

variable {α : Type} (p : α → Bool) (d : α)

/-- `while ((n > 0) && p(buffer[n--])) ;`. -/
def skipBack (buffer : List α) : Nat → Nat
  | 0 => 0
  | n + 1 => if p (buffer.getD (n + 1) d) then skipBack buffer n else n

variable {p d}

theorem skipBack_le (buffer : List α) : ∀ n, skipBack p d buffer n ≤ n := by
  intro n
  induction n with
  | zero => exact Nat.le_refl 0
  | succ n ih =>
    rw [skipBack]
    split
    · omega
    · omega

/-- The scan sees nothing after its start. -/
theorem skipBack_congr {buffer buffer' : List α} : ∀ {n : Nat},
    (∀ i ≤ n, buffer.getD i d = buffer'.getD i d) →
      skipBack p d buffer n = skipBack p d buffer' n := by
  intro n
  induction n with
  | zero => intro _; rfl
  | succ n ih =>
    intro hsame
    rw [skipBack, skipBack, hsame (n + 1) (Nat.le_refl _), ih fun i hi => hsame i (by omega)]

theorem getD_middle (before after : List α) (x : α) :
    (before ++ x :: after).getD before.length d = x := by simp

/-- **The scan goes over a run** and over the element before it. -/
theorem skipBack_run {before : List α} (hbefore : before ≠ []) {x : α} (hx : p x = false)
    {run : List α} (hrun : ∀ c ∈ run, p c = true) (after : List α) :
    skipBack p d (before ++ x :: (run ++ after)) (before.length + run.length)
      = before.length - 1 := by
  have hpos : 0 < before.length := length_pos_iff.mpr hbefore
  induction run using reverseRecOn generalizing after with
  | nil =>
    rw [length_nil, Nat.add_zero, nil_append, show before.length = (before.length - 1) + 1 by omega,
      skipBack, show before.length - 1 + 1 = before.length by omega, getD_middle, hx]
    rfl
  | append_singleton run c ih =>
    have hc : p c = true := hrun c (mem_append_right run mem_cons_self)
    have hrest : ∀ c' ∈ run, p c' = true := fun c' h => hrun c' (mem_append_left [c] h)
    have hat : (before ++ x :: (run ++ ([c] ++ after))).getD (before.length + run.length + 1) d
        = c := by grind
    rw [append_assoc, length_append, length_singleton, ← Nat.add_assoc, skipBack, hat, if_pos hc]
    exact ih hrest ([c] ++ after)

end BackScan
