/-
  Bucket arrays: a hash table's array of chains, as a list of lists.

  The array is a `List (List α)`; an element `a` belongs in bucket `h a` (`Placed`).  The results
  say what a change of the array does to its CONTENTS, the flattened list of all chains:

  * `perm_modify` — putting elements into one bucket adds them to the contents;
  * `placed_modify` — and keeps the placement when they belong there;
  * `mem_bucket_iff` — a placed element is found in its own bucket and nowhere else;
  * `modify_eq_map` — rewriting ONE bucket is rewriting the whole array when no other bucket has
    an element that the rewriting changes.
-/
import Mathlib.Data.List.Perm.Basic

namespace Buckets

open List

variable {α : Type} {h : α → Nat} {bs : List (List α)}

/-- Every element sits in the bucket that `h` gives it. -/
def Placed (h : α → Nat) (bs : List (List α)) : Prop :=
  ∀ i, ∀ a ∈ bs.getD i [], h a = i

/-- An element of the array is an element of some bucket. -/
theorem mem_flatten_iff (a : α) : a ∈ bs.flatten ↔ ∃ i, a ∈ bs.getD i [] := by
  constructor
  · intro ha
    obtain ⟨l, hl, hal⟩ := mem_flatten.mp ha
    obtain ⟨i, hi, hil⟩ := mem_iff_getElem.mp hl
    refine ⟨i, ?_⟩
    rw [getD_eq_getElem?_getD, getElem?_eq_getElem hi, hil]
    exact hal
  · grind [getElem?_eq_getElem, getElem?_eq_none, mem_flatten.mpr]

/-- A placed element is in its own bucket, and only there. -/
theorem mem_bucket_iff (hp : Placed h bs) (i : Nat) (a : α) :
    a ∈ bs.getD i [] ↔ a ∈ bs.flatten ∧ h a = i := by
  constructor
  · intro ha
    exact ⟨(mem_flatten_iff a).mpr ⟨i, ha⟩, hp i a ha⟩
  · rintro ⟨ha, hi⟩
    obtain ⟨j, hj⟩ := (mem_flatten_iff a).mp ha
    have hji : j = i := (hp j a hj).symm.trans hi
    exact hji ▸ hj

theorem placed_replicate (h : α → Nat) (n : Nat) : Placed h (replicate n []) := by
  intro i a ha
  obtain ⟨b, hb, hab⟩ := mem_flatten.mp ((mem_flatten_iff a).mpr ⟨i, ha⟩)
  rw [(mem_replicate.mp hb).2] at hab
  exact absurd hab not_mem_nil

/-! ## Changing one bucket -/

theorem getD_modify (i j : Nat) (f : List α → List α) (hi : i < bs.length) :
    (bs.modify i f).getD j [] = if j = i then f (bs.getD i []) else bs.getD j [] := by grind

/-- Adding `xs` to a bucket adds them to the contents, wherever in the chain they go. -/
theorem perm_modify {i : Nat} {f : List α → List α} {xs : List α} (hi : i < bs.length)
    (hf : (f (bs.getD i [])).Perm (xs ++ bs.getD i [])) :
    (bs.modify i f).flatten.Perm (xs ++ bs.flatten) := by
  induction bs generalizing i with
  | nil => exact absurd hi (Nat.not_lt_zero i)
  | cons b bs ih =>
    cases i with
    | zero => grind [modify_zero_cons, flatten_cons, append_assoc, Perm.append_right]
    | succ i =>
      have hi' : i < bs.length := by simpa using hi
      have hrest := ih hi' hf
      rw [modify_succ_cons, flatten_cons, flatten_cons]
      calc (b ++ (bs.modify i f).flatten).Perm (b ++ (xs ++ bs.flatten)) := hrest.append_left b
        _ = (b ++ xs) ++ bs.flatten := (append_assoc ..).symm
        Perm _ ((xs ++ b) ++ bs.flatten) := perm_append_comm.append_right _
        _ = xs ++ (b ++ bs.flatten) := append_assoc ..

/-- Adding elements that belong to bucket `i` keeps the placement. -/
theorem placed_modify {i : Nat} {f : List α → List α} (hp : Placed h bs) (hi : i < bs.length)
    (hf : ∀ a ∈ f (bs.getD i []), h a = i) : Placed h (bs.modify i f) := by
  intro j a ha
  rw [getD_modify i j f hi] at ha
  by_cases hji : j = i
  · grind
  · rw [if_neg hji] at ha
    exact hp j a ha

/-! ## Changing every bucket -/

theorem getD_map (g : List α → List α) (hg : g [] = []) (i : Nat) :
    (bs.map g).getD i [] = g (bs.getD i []) := by
  rw [getD_eq_getElem?_getD, getElem?_map, getD_eq_getElem?_getD]
  cases bs[i]? with
  | none => exact hg.symm
  | some b => rfl

/-- Dropping elements keeps the placement of the others. -/
theorem placed_map_filter (p : α → Bool) (hp : Placed h bs) :
    Placed h (bs.map (List.filter p)) := by
  intro i a ha
  rw [getD_map (List.filter p) rfl] at ha
  exact hp i a (mem_filter.mp ha).1

/-- Rewriting elements keeps the placement when it keeps their bucket. -/
theorem placed_map_map {g : α → α} (hg : ∀ a, h (g a) = h a) (hp : Placed h bs) :
    Placed h (bs.map (List.map g)) := by
  intro i a ha
  rw [getD_map (List.map g) rfl] at ha
  obtain ⟨b, hb, rfl⟩ := mem_map.mp ha
  rw [hg]
  exact hp i b hb

/-- Rewriting bucket `i` alone is rewriting the whole array, when the elements that `g` changes
    all belong to bucket `i`. -/
theorem modify_eq_map {i : Nat} {f : List α → List α} {g : α → α} (hp : Placed h bs)
    (hf : f (bs.getD i []) = (bs.getD i []).map g) (hg : ∀ a, h a ≠ i → g a = a) :
    bs.modify i f = bs.map (List.map g) := by
  apply ext_getElem?
  intro j
  rw [getElem?_modify, getElem?_map]
  cases hj : bs[j]? with
  | none => rfl
  | some b =>
    have hbj : bs.getD j [] = b := by rw [getD_eq_getElem?_getD, hj]; rfl
    by_cases hij : i = j
    · subst hij
      rw [hbj] at hf
      simp [hf]
    · have hsame : b.map g = b := by
        rw [map_congr_left (g := id), map_id]
        intro a ha
        have haj : h a = j := hp j a (hbj ▸ ha)
        exact hg a (by omega)
      simp [hij, hsame]

end Buckets
