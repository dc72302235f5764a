/-
  A ring of cells with a write position.

  `push` writes at the position and moves it on; the oldest cell is overwritten.  `newest` reads
  the ring BACKWARDS from the position: the cell written last comes first, and the cell at the
  position itself, which the next push overwrites, comes last.  The one fact about a ring is that a
  push puts its element in front of this list and drops the last one (`newest_push`).
-/
import Mathlib.Data.List.Induction

structure RingBuffer (α : Type) where
  cells : List α
  pos : Nat

namespace RingBuffer

open List

variable {n pos i : Nat}

variable {α : Type}

/-- The position `i` cells before `pos` in a ring of `n` cells, for `i ≤ n`. -/
def stepBack (n pos i : Nat) : Nat := if i ≤ pos then pos - i else pos + n - i

/-- The position after `pos`. -/
def next (n pos : Nat) : Nat := if n ≤ pos + 1 then 0 else pos + 1

/-- The position before `pos`. -/
def prev (n pos : Nat) : Nat := if pos = 0 then n - 1 else pos - 1

theorem stepBack_lt (hpos : pos < n) (hi : i ≤ n) : stepBack n pos i < n := by
  unfold stepBack; split <;> omega

theorem prev_eq_stepBack (hpos : pos < n) : prev n pos = stepBack n pos 1 := by
  unfold prev stepBack; split <;> split <;> omega

theorem prev_stepBack (hpos : pos < n) (hi : i < n) :
    prev n (stepBack n pos i) = stepBack n pos (i + 1) := by
  unfold prev stepBack
  split <;> split <;> split <;> omega

/-- Going back from the next position takes one step more. -/
theorem stepBack_next (hpos : pos < n) (hi : i < n) :
    stepBack n (next n pos) (i + 1) = stepBack n pos i := by
  unfold stepBack next
  split <;> split <;> split <;> omega

/-- Only a whole turn, or no step at all, leads back to the position. -/
theorem stepBack_eq_iff (hpos : pos < n) (hi : i ≤ n) : stepBack n pos i = pos ↔ i = 0 ∨ i = n := by
  unfold stepBack; split <;> omega

/-- The cells in the order in which a walk backwards from the position meets them. -/
def newest (r : RingBuffer α) (default : α) : List α :=
  (range r.cells.length).map fun i =>
    (r.cells[stepBack r.cells.length r.pos (i + 1)]?).getD default

def push (r : RingBuffer α) (a : α) : RingBuffer α :=
  { cells := r.cells.set r.pos a, pos := next r.cells.length r.pos }

/-- Other cells at the same places. -/
def map {β : Type} (g : α → β) (r : RingBuffer α) : RingBuffer β := ⟨r.cells.map g, r.pos⟩

variable {r : RingBuffer α} {default a : α}

theorem newest_map {β : Type} (r : RingBuffer α) (g : α → β) (default : α) :
    (r.map g).newest (g default) = (r.newest default).map g := by
  simp [newest, RingBuffer.map, Option.getD_map]

theorem push_map {β : Type} (r : RingBuffer α) (g : α → β) (a : α) :
    (r.map g).push (g a) = (r.push a).map g := by
  simp [push, RingBuffer.map, map_set]

@[simp] theorem newest_length : (r.newest default).length = r.cells.length := by
  simp [newest]

theorem newest_getElem? (hi : i < r.cells.length) :
    (r.newest default)[i]?
      = some ((r.cells[stepBack r.cells.length r.pos (i + 1)]?).getD default) := by
  simp [newest, hi]

@[simp] theorem push_cells_length : (r.push a).cells.length = r.cells.length := by
  simp [push]

theorem push_pos_lt (hpos : r.pos < r.cells.length) : (r.push a).pos < (r.push a).cells.length := by
  rw [push_cells_length]
  show next r.cells.length r.pos < r.cells.length
  unfold next
  split <;> omega

/-- **A push goes in front, and the last cell is lost.** -/
theorem newest_push (hpos : r.pos < r.cells.length) :
    (r.push a).newest default = (a :: r.newest default).take r.cells.length := by
  apply ext_getElem?
  intro i
  by_cases hi : i < r.cells.length
  · rw [newest_getElem? (by rw [push_cells_length]; exact hi), push_cells_length,
      getElem?_take_of_lt hi]
    show some (((r.cells.set r.pos a)[stepBack r.cells.length (next r.cells.length r.pos)
      (i + 1)]?).getD default) = _
    rw [stepBack_next hpos hi]
    cases i with
    | zero => grind [stepBack, getElem?_set_self]
    | succ i =>
      -- fewer than `n` steps back: not the cell that was written
      have hne : r.pos ≠ stepBack r.cells.length r.pos (i + 1) := by
        intro h
        have := (stepBack_eq_iff hpos (by omega)).mp h.symm
        omega
      rw [getElem?_set_ne hne, getElem?_cons_succ, newest_getElem? (by omega)]
  · grind [getElem?_eq_none, newest_length, push_cells_length, length_take]

/-- The elements pushed onto a ring, newest first and as many as it holds, with what it held before
    behind them. -/
theorem newest_pushes (default : α) (hpos : r.pos < r.cells.length) :
    ∀ as : List α,
      (as.foldl push r).cells.length = r.cells.length ∧
      (as.foldl push r).pos < r.cells.length ∧
      (as.foldl push r).newest default
        = (as.reverse ++ r.newest default).take r.cells.length := by
  intro as
  induction as using reverseRecOn with
  | nil =>
    simp [reverse_nil, nil_append, take_of_length_le]
    omega
  | append_singleton as a ih =>
    obtain ⟨hlen, hpos', hnewest⟩ := ih
    rw [foldl_append]
    have hin : (as.foldl push r).pos < (as.foldl push r).cells.length := by rw [hlen]; exact hpos'
    refine ⟨?_, ?_, ?_⟩
    · exact push_cells_length.trans hlen
    · have := push_pos_lt (a := a) hin
      rw [push_cells_length, hlen] at this
      exact this
    · show ((as.foldl push r).push a).newest default = _
      rw [newest_push hin, hnewest, hlen, reverse_append, reverse_singleton, cons_append,
        nil_append, cons_append]
      obtain ⟨k, hk⟩ : ∃ k, r.cells.length = k + 1 := ⟨r.cells.length - 1, by omega⟩
      rw [hk, take_succ_cons, take_succ_cons, take_take, Nat.min_eq_left (by omega)]

end RingBuffer
