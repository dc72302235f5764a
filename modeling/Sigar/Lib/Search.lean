/-
  Searching a list for the first place at which something starts.

  The places of a list are its tails (`t <:+ s`), and a search accepts one of them.  `firstTail` is
  the search from the left; `IsFirst` says, without any order of search, which tail it is to find:
  an accepted one such that no accepted one is LONGER.
-/
import Mathlib.Data.List.Infix

namespace Search

open List

variable {α : Type}

/-- The first tail that is accepted. -/
def firstTail (p : List α → Bool) : List α → Option (List α)
  | [] => if p [] then some [] else none
  | x :: xs => if p (x :: xs) then some (x :: xs) else firstTail p xs

/-- `t` is the accepted tail of `s` that starts first. -/
def IsFirst (p : List α → Prop) (s t : List α) : Prop :=
  t <:+ s ∧ p t ∧ ∀ t', t' <:+ s → p t' → t'.length ≤ t.length

/-- There is one first tail. -/
theorem IsFirst.unique {p : List α → Prop} {s t t' : List α} (h : IsFirst p s t)
    (h' : IsFirst p s t') : t = t' := by
  have hlen : t.length = t'.length :=
    Nat.le_antisymm (h'.2.2 t h.1 h.2.1) (h.2.2 t' h'.1 h'.2.1)
  exact (suffix_of_suffix_length_le h.1 h'.1 hlen.le).eq_of_length hlen

/-- What the search finds is the first tail. -/
theorem isFirst_of_firstTail {p : List α → Bool} :
    ∀ {s t : List α}, firstTail p s = some t → IsFirst (p · = true) s t := by
  intro s
  induction s with
  | nil =>
    intro t h
    rw [firstTail] at h
    split at h
    case isTrue hp =>
      cases h
      refine ⟨suffix_rfl, hp, fun t' ht' _ => ?_⟩
      rw [suffix_nil.mp ht']
    case isFalse => cases h
  | cons x xs ih =>
    intro t h
    rw [firstTail] at h
    split at h
    case isTrue hp =>
      cases h
      exact ⟨suffix_rfl, hp, fun t' ht' _ => ht'.length_le⟩
    case isFalse hp =>
      obtain ⟨ht, hpt, hfirst⟩ := ih h
      refine ⟨ht.trans (suffix_cons x xs), hpt, fun t' ht' hpt' => ?_⟩
      rcases suffix_cons_iff.mp ht' with rfl | hxs
      · exact absurd hpt' hp
      · exact hfirst t' hxs hpt'

/-- The search fails exactly if nothing is accepted. -/
theorem firstTail_eq_none_iff {p : List α → Bool} :
    ∀ {s : List α}, firstTail p s = none ↔ ∀ t, t <:+ s → p t = false := by
  intro s
  induction s with
  | nil =>
    rw [firstTail]
    simp
  | cons x xs ih =>
    rw [firstTail]
    constructor
    · intro h t ht
      split at h
      case isTrue => cases h
      case isFalse hp =>
        rcases suffix_cons_iff.mp ht with rfl | hxs
        · exact Bool.not_eq_true _ ▸ hp
        · exact ih.mp h t hxs
    · grind

/-- **The search is right**: it finds the first accepted tail, whenever there is one. -/
theorem firstTail_eq_some_iff {p : List α → Bool} {s t : List α} :
    firstTail p s = some t ↔ IsFirst (p · = true) s t := by
  constructor
  · exact isFirst_of_firstTail
  · intro h
    cases hfound : firstTail p s with
    | none =>
      have hno := firstTail_eq_none_iff.mp hfound t h.1
      rw [h.2.1] at hno
      cases hno
    | some t' => rw [(isFirst_of_firstTail hfound).unique h]

theorem firstTail_isSome_iff {p : List α → Bool} {s : List α} :
    (firstTail p s).isSome = true ↔ ∃ t, t <:+ s ∧ p t = true := by
  rw [Option.isSome_iff_ne_none, ne_eq, firstTail_eq_none_iff]
  push Not
  simp

end Search
