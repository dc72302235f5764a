/-
  Computations that can fail.

  A program that stops at the first failure is a chain of binds in `Except`; that it SUCCEEDS is a
  statement about each of its parts.

  1. **Chains**: `bind_eq_ok_iff`, `map_eq_ok_iff`.
  2. **Lists** that are mapped element by element: `exists_mapM`, `mapM_eq_some_iff`.
  3. **Loops**: `foldlM_isSome`, where no round runs out of fuel.
-/
import Mathlib.Data.List.Forall2

namespace Fallible

open List

variable {ε α β : Type}

theorem ok_bind (a : α) (f : α → Except ε β) : (Except.ok a >>= f) = f a := rfl

/-- Nothing fails, and so the whole list is mapped. -/
theorem exists_mapM {f : α → Except ε β} (hf : ∀ x, ∃ y, f x = .ok y) (xs : List α) :
    ∃ ys, xs.mapM f = .ok ys := by
  induction xs with
  | nil => exact ⟨[], rfl⟩
  | cons x xs ih =>
    obtain ⟨y, hy⟩ := hf x
    obtain ⟨ys, hys⟩ := ih
    exact ⟨y :: ys, by rw [mapM_cons, hy, hys]; rfl⟩

/-- A chain succeeds exactly when both parts do. -/
theorem bind_eq_ok_iff {x : Except ε α} {f : α → Except ε β} {b : β} :
    (x >>= f) = .ok b ↔ ∃ a, x = .ok a ∧ f a = .ok b := by
  cases x <;> simp [bind, Except.bind]

/-- A result that is passed on changed is a result. -/
theorem map_eq_ok_iff {x : Except ε α} {f : α → β} {b : β} :
    x.map f = .ok b ↔ ∃ a, x = .ok a ∧ f a = b := by
  cases x <;> simp [Except.map]

theorem exists_map_eq_ok {x : Except ε α} {f : α → β} :
    (∃ b, x.map f = .ok b) ↔ ∃ a, x = .ok a := by
  cases x <;> simp [Except.map]

/-- A list is mapped when each of its elements is. -/
theorem mapM_eq_some_iff {f : α → Option β} : ∀ {xs : List α} {ys : List β},
    xs.mapM f = some ys ↔ Forall₂ (fun x y => f x = some y) xs ys := by
  intro xs
  induction xs with
  | nil => simp
  | cons x xs ih =>
    intro ys
    rw [mapM_cons, forall₂_cons_left_iff]
    constructor
    · intro h
      obtain ⟨y, hy, hmore⟩ := Option.bind_eq_some_iff.mp h
      obtain ⟨zs, hzs, hcons⟩ := Option.bind_eq_some_iff.mp hmore
      exact ⟨y, zs, hy, ih.mp hzs, (Option.some.inj hcons).symm⟩
    · grind

/-- A loop ends if each of its rounds does. -/
theorem foldlM_isSome {α β : Type} {round : β → α → Option β}
    (hround : ∀ b a, (round b a).isSome) : ∀ (l : List α) (b : β), (l.foldlM round b).isSome := by
  intro l
  induction l with
  | nil => intro b; rfl
  | cons a l ih =>
    intro b
    obtain ⟨next, hnext⟩ := Option.isSome_iff_exists.mp (hround b a)
    rw [foldlM_cons, hnext]
    exact ih next

end Fallible
