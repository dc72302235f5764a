/-
  Items in groups of a fixed size.

  `groups n` cuts a list into groups of `n` items, the last of which may be shorter; a group is its
  first item and the others.  `collect` is how a loop with a counter does it: at every multiple of
  `n` it starts a new group, and between them it merges into the last one.
-/
import Mathlib.Algebra.GroupWithZero.Nat
import Mathlib.Algebra.BigOperators.Group.List.Basic

namespace Groups

open List

variable {α γ : Type}

/-- The groups of `n` items. -/
def groups (n : Nat) : List α → List (α × List α)
  | [] => []
  | x :: rest => (x, rest.take (n - 1)) :: groups n (rest.drop (n - 1))
termination_by items => items.length
decreasing_by
  rw [length_cons, length_drop]
  omega

/-- The loop with the counter `i`, and the groups so far, last first.  `start` gets the number of
    the group. -/
def collect (start : Nat → α → γ) (merge : γ → α → γ) (n : Nat) :
    Nat → List γ → List α → List γ
  | _, done, [] => done.reverse
  | i, [], x :: rest => collect start merge n (i + 1) [start 0 x] rest
  | i, g :: done, x :: rest =>
    if i % n = 0 then collect start merge n (i + 1) (start (done.length + 1) x :: g :: done) rest
    else collect start merge n (i + 1) (merge g x :: done) rest

/-- What becomes of a group. -/
def folded (start : Nat → α → γ) (merge : γ → α → γ) (number : Nat) (group : α × List α) : γ :=
  group.2.foldl merge (start number group.1)

variable {start : Nat → α → γ} {merge : γ → α → γ} {n : Nat}

/-- The loop inside a group that `m` more items belong to. -/
theorem collect_cons : ∀ (items : List α) {i m : Nat} {g : γ} {done : List γ}, n ∣ i + m → m < n →
    collect start merge n i (g :: done) items
      = done.reverse ++ (items.take m).foldl merge g ::
        (groups n (items.drop m)).mapIdx fun k group =>
          folded start merge (done.length + 1 + k) group := by
  intro items
  induction items with
  | nil =>
    intro i m g done _ _
    rw [collect, reverse_cons, take_nil, drop_nil, groups]
    rfl
  | cons x rest ih =>
    intro i m g done hdvd hm
    rw [collect]
    cases m with
    | zero =>
      -- the group is full, and `x` starts the next one
      have hi : i % n = 0 := Nat.mod_eq_zero_of_dvd hdvd
      have hnext : n ∣ i + 1 + (n - 1) := by
        rw [show i + 1 + (n - 1) = i + n by omega]
        exact Nat.dvd_add hdvd (Nat.dvd_refl n)
      rw [if_pos hi, ih hnext (by omega), reverse_cons, append_assoc, take_zero, drop_zero, groups,
        mapIdx_cons]
      simp only [foldl_nil, singleton_append, length_cons, folded, Nat.add_zero, Nat.add_assoc,
        Nat.add_comm 1]
    | succ m =>
      have hi : i % n ≠ 0 := by
        intro hzero
        have hle := Nat.le_of_dvd (Nat.succ_pos m)
          ((Nat.dvd_add_right (Nat.dvd_of_mod_eq_zero hzero)).mp hdvd)
        omega
      have hnext : n ∣ i + 1 + m := by grind
      rw [if_neg hi, ih hnext (by omega)]
      rfl

/-- **The loop makes the groups.** -/
theorem collect_eq (hn : 0 < n) (items : List α) :
    collect start merge n 0 [] items = (groups n items).mapIdx (folded start merge) := by
  cases items with
  | nil =>
    rw [collect, groups]
    rfl
  | cons x rest =>
    have hdvd : n ∣ 0 + 1 + (n - 1) := ⟨1, by omega⟩
    rw [collect, collect_cons rest hdvd (by omega), groups, mapIdx_cons]
    simp only [reverse_nil, nil_append, length_nil, folded, Nat.zero_add, Nat.add_comm 1]
    rfl

theorem collect_map {β : Type} (f : β → α) : ∀ {items : List β} {i : Nat} {done : List γ},
    collect start merge n i done (items.map f) =
      collect (fun k x => start k (f x)) (fun g x => merge g (f x)) n i done items := by
  intro items
  induction items with
  | nil => intro i done; cases done <;> rfl
  | cons x rest ih =>
    intro i done
    cases done with
    | nil => exact ih
    | cons g done =>
      rw [map_cons, collect, collect]
      split <;> exact ih

theorem collect_ne_nil : ∀ {items : List α} {i : Nat} {done : List γ}, done ≠ [] ∨ items ≠ [] →
    collect start merge n i done items ≠ [] := by
  intro items
  induction items with
  | nil => simp [collect, Ne, reverse_eq_nil_iff]
  | cons x rest ih =>
    intro i done _
    cases done with
    | nil => exact ih (.inl (cons_ne_nil _ _))
    | cons g done =>
      rw [collect]
      split <;> exact ih (.inl (cons_ne_nil _ _))

/-- What is true of every group: of one that is started, and of one that has merged an item. -/
theorem forall_mem_collect {p : γ → Prop} (hstart : ∀ k x, p (start k x))
    (hmerge : ∀ g x, p (merge g x)) : ∀ {items : List α} {i : Nat} {done : List γ},
      (∀ g ∈ done, p g) → ∀ g ∈ collect start merge n i done items, p g := by
  intro items
  induction items with
  | nil =>
    intro i done hdone g hg
    cases done with
    | nil => cases hg
    | cons d done => exact hdone g (mem_reverse.mp hg)
  | cons x rest ih =>
    intro i done hdone
    cases done with
    | nil => exact ih fun g hg => mem_singleton.mp hg ▸ hstart 0 x
    | cons d done => grind [collect]

/-- **Nothing is lost**: where the merging adds weights up, as it does below a bound, the groups
    weigh as much as the items. -/
theorem sum_collect {w : γ → Nat} {v : α → Nat} {bound : Nat} : ∀ {items : List α} {i : Nat}
    {done : List γ}, (∀ k, ∀ x ∈ items, v x < bound → w (start k x) = v x) →
      (∀ g, ∀ x ∈ items, w g + v x < bound → w (merge g x) = w g + v x) →
      (done.map w).sum + (items.map v).sum < bound →
      ((collect start merge n i done items).map w).sum = (done.map w).sum + (items.map v).sum := by
  intro items
  induction items with
  | nil =>
    intro i done _ _ _
    have hrev : collect start merge n i done [] = done.reverse := by cases done <;> rfl
    rw [hrev, map_reverse, sum_reverse]
    rfl
  | cons x rest ih =>
    intro i done hstart hmerge hsum
    have hstart' : ∀ k, ∀ y ∈ rest, v y < bound → w (start k y) = v y := fun k y hy =>
      hstart k y (mem_cons_of_mem x hy)
    have hmerge' : ∀ g, ∀ y ∈ rest, w g + v y < bound → w (merge g y) = w g + v y := fun g y hy =>
      hmerge g y (mem_cons_of_mem x hy)
    rw [map_cons, sum_cons] at hsum ⊢
    have hx : ∀ k, w (start k x) = v x := fun k => hstart k x mem_cons_self (by omega)
    cases done with
    | nil =>
      rw [collect, ih hstart' hmerge' (by simp [hx]; simpa using hsum)]
      simp [hx]
    | cons g done => grind [collect]

/-- Groups of one item are the items. -/
theorem groups_one : ∀ items : List α, groups 1 items = items.map fun x => (x, []) := by
  intro items
  induction items with
  | nil =>
    rw [groups]
    rfl
  | cons x rest ih =>
    rw [groups, map_cons]
    exact congrArg _ ih

end Groups
