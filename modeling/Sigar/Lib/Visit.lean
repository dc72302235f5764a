/-
  Walks that hand their items to a visitor.

  A visitor takes its state and an item, and its answer says whether the walk goes on.  `visit`
  hands it the items of one list until it answers stop; `visitAll` does so list after list, and a
  stop ends ONLY the list it came in.

  1. **A visitor that never stops** — `visitAll_eq_foldl`: the walk is a fold over all the items.
  2. **A visitor that keeps the first match** — `visitAll_search`: what is left is the first match
     of the LAST list that has one.
  3. **Stops** — `stopsForGood_iff`: a stop is the last call exactly when the lists after it are
     empty.
-/
import Mathlib.Data.List.Basic

namespace Visit

open List

variable {σ α ρ : Type} (go : ρ → Bool) (f : σ → α → σ × ρ)

/-- Hand over the items of one list: the state, and the answer that stopped the walk. -/
def visit : List α → σ → σ × Option ρ
  | [], s => (s, none)
  | a :: as, s =>
    if go (f s a).2 then visit as (f s a).1
    else ((f s a).1, some (f s a).2)

/-- Hand over the items of every list. -/
def visitAll : List (List α) → σ → σ
  | [], s => s
  | as :: rest, s => visitAll rest (visit go f as s).1

theorem visitAll_append : ∀ (lists lists' : List (List α)) (s : σ),
    visitAll go f (lists ++ lists') s = visitAll go f lists' (visitAll go f lists s) := by
  intro lists
  induction lists with
  | nil => intro lists' s; rfl
  | cons as rest ih => intro lists' s; exact ih lists' _

section Embedding

variable {go f} {τ : Type} {g : τ → α → τ × ρ} {e : σ → τ}
  (hstep : ∀ s a, g (e s) a = (e (f s a).1, (f s a).2))

include hstep

/-- A visitor that acts on a part of its state. -/
theorem visit_embed : ∀ (as : List α) (s : σ),
    visit go g as (e s) = (e (visit go f as s).1, (visit go f as s).2) := by
  intro as
  induction as with
  | nil => intro s; rfl
  | cons a as ih =>
    intro s
    rw [visit, visit, hstep]
    by_cases hgo : go (f s a).2 = true
    · rw [if_pos hgo, if_pos hgo]
      exact ih (f s a).1
    · rw [if_neg hgo, if_neg hgo]

theorem visitAll_embed : ∀ (lists : List (List α)) (s : σ),
    visitAll go g lists (e s) = e (visitAll go f lists s) := by
  intro lists
  induction lists with
  | nil => intro s; rfl
  | cons as rest ih =>
    intro s
    rw [visitAll, visitAll, visit_embed hstep]
    exact ih _

end Embedding

/-! ## A visitor that never stops -/

theorem visit_eq_foldl (hgo : ∀ s a, go (f s a).2 = true) : ∀ (as : List α) (s : σ),
    (visit go f as s).1 = as.foldl (fun s a => (f s a).1) s := by
  intro as
  induction as with
  | nil => intro s; rfl
  | cons a as ih =>
    intro s
    rw [visit, if_pos (hgo s a)]
    exact ih (f s a).1

theorem visitAll_eq_foldl (hgo : ∀ s a, go (f s a).2 = true) : ∀ (lists : List (List α)) (s : σ),
    visitAll go f lists s = lists.flatten.foldl (fun s a => (f s a).1) s := by
  intro lists
  induction lists with
  | nil => intro s; rfl
  | cons as rest ih =>
    intro s
    rw [visitAll, ih, visit_eq_foldl go f hgo, flatten_cons, foldl_append]

/-! ## A visitor that keeps the first match -/

section Search

variable {go} {keep : α → α → α × ρ} {p : α → Bool}
  (hhit : ∀ kept a, p a = true → (keep kept a).1 = a ∧ go (keep kept a).2 = false)
  (hmiss : ∀ kept a, p a = false → (keep kept a).1 = kept ∧ go (keep kept a).2 = true)

include hhit hmiss

theorem visit_search : ∀ (as : List α) (kept : α),
    (visit go keep as kept).1 = (as.find? p).getD kept := by
  intro as
  induction as with
  | nil => intro kept; rfl
  | cons a as ih =>
    intro kept
    cases hp : p a with
    | true => grind [visit, find?_cons_of_pos]
    | false =>
      obtain ⟨hsame, hon⟩ := hmiss kept a hp
      rw [visit, if_pos hon, find?_cons_of_neg (by rw [hp]; decide), hsame]
      exact ih kept

/-- **The last list with a match decides.** -/
theorem visitAll_search : ∀ (lists : List (List α)) (kept : α),
    visitAll go keep lists kept
      = ((lists.filterMap fun as => as.find? p).getLast?).getD kept := by
  intro lists
  induction lists with
  | nil => intro kept; rfl
  | cons as rest ih =>
    intro kept
    rw [visitAll, ih, visit_search hhit hmiss, filterMap_cons]
    cases as.find? p with
    | none => rfl
    | some a => grind

end Search

/-- The first match of all is that of the first list with one. -/
theorem find?_flatten_eq_head? (p : α → Bool) (lists : List (List α)) :
    lists.flatten.find? p = (lists.filterMap fun as => as.find? p).head? := by
  rw [find?_flatten, head?_filterMap]

/-! ## Stops -/

/-- The visitor, with a log of its calls and its answers. -/
def logged (s : σ × List (α × ρ)) (a : α) : (σ × List (α × ρ)) × ρ :=
  (((f s.1 a).1, s.2 ++ [(a, (f s.1 a).2)]), (f s.1 a).2)

/-- No call follows one that was answered with a stop. -/
def StopsForGood (log : List (α × ρ)) : Prop :=
  ∀ before call after, log = before ++ call :: after → go call.2 = false → after = []

/-- Once the visitor stops, no later list has an item. -/
def StopsInLast : List (List α) → σ → Prop
  | [], _ => True
  | as :: rest, s =>
    if (visit go f as s).2.isNone then StopsInLast rest (visit go f as s).1
    else ∀ bs ∈ rest, bs = []

variable {go f}

theorem stopsForGood_nil : StopsForGood go ([] : List (α × ρ)) := by
  intro before call after h
  exact absurd h (by simp)

theorem stopsForGood_cons_go {a : α} {r : ρ} (hr : go r = true) (log : List (α × ρ)) :
    StopsForGood go ((a, r) :: log) ↔ StopsForGood go log := by
  constructor
  · intro h before call after heq hstop
    exact h ((a, r) :: before) call after (by rw [heq]; rfl) hstop
  · intro h before call after heq hstop
    cases before with
    | nil => grind
    | cons b before => exact h before call after (cons.inj heq).2 hstop

theorem stopsForGood_cons_stop {a : α} {r : ρ} (hr : go r = false) (log : List (α × ρ)) :
    StopsForGood go ((a, r) :: log) ↔ log = [] := by
  constructor
  · intro h
    exact h [] (a, r) log rfl hr
  · rintro rfl before call after heq _
    cases before with
    | nil => exact (cons.inj heq).2.symm
    | cons b before => exact absurd (cons.inj heq).2 (by simp)

/-- The log only grows at its end. -/
theorem visit_logged : ∀ (as : List α) (s : σ) (log : List (α × ρ)),
    visit go (logged f) as (s, log)
      = (((visit go f as s).1, log ++ (visit go (logged f) as (s, [])).1.2), (visit go f as s).2) := by
  intro as
  induction as with
  | nil =>
    intro s log
    rw [visit, visit, visit, append_nil]
  | cons a as ih =>
    intro s log
    have hstep : ∀ log, logged f (s, log) a
        = (((f s a).1, log ++ [(a, (f s a).2)]), (f s a).2) := fun _ => rfl
    rw [visit, visit, visit, hstep, hstep]
    by_cases hgo : go (f s a).2 = true
    · rw [if_pos hgo, if_pos hgo, if_pos hgo, ih, ih (f s a).1 ([] ++ _), append_assoc]
      rfl
    · rw [if_neg hgo, if_neg hgo, if_neg hgo]
      rfl

theorem visitAll_logged : ∀ (lists : List (List α)) (s : σ) (log : List (α × ρ)),
    (visitAll go (logged f) lists (s, log)).2
      = log ++ (visitAll go (logged f) lists (s, [])).2 := by
  intro lists
  induction lists with
  | nil => intro s log; exact (append_nil log).symm
  | cons as rest ih =>
    intro s log
    rw [visitAll, visitAll, visit_logged, ih, visit_logged as s [], ih _ ([] ++ _), nil_append,
      append_assoc]

/-- The calls made for one list, and what they mean for the calls after them. -/
theorem stopsForGood_visit : ∀ (as : List α) (s : σ) (log : List (α × ρ)),
    StopsForGood go ((visit go (logged f) as (s, [])).1.2 ++ log) ↔
      if (visit go f as s).2.isNone then StopsForGood go log else log = [] := by
  intro as
  induction as with
  | nil => intro s log; exact Iff.rfl
  | cons a as ih =>
    intro s log
    have hstep : logged f (s, []) a = (((f s a).1, [(a, (f s a).2)]), (f s a).2) := rfl
    rw [visit, visit, hstep]
    by_cases hgo : go (f s a).2 = true
    · rw [if_pos hgo, if_pos hgo, visit_logged, append_assoc, singleton_append,
        stopsForGood_cons_go hgo]
      exact ih (f s a).1 log
    · simp [stopsForGood_cons_stop, hgo]

theorem visit_log_eq_nil : ∀ (as : List α) (s : σ),
    (visit go (logged f) as (s, [])).1.2 = [] ↔ as = [] := by
  intro as s
  cases as with
  | nil => exact iff_of_true rfl rfl
  | cons a as =>
    have hstep : logged f (s, []) a = (((f s a).1, [(a, (f s a).2)]), (f s a).2) := rfl
    refine iff_of_false ?_ (cons_ne_nil a as)
    rw [visit, hstep]
    by_cases hgo : go (f s a).2 = true
    · rw [if_pos hgo, visit_logged]
      exact cons_ne_nil _ _
    · rw [if_neg hgo]
      exact cons_ne_nil _ _

theorem visitAll_log_eq_nil : ∀ (lists : List (List α)) (s : σ),
    (visitAll go (logged f) lists (s, [])).2 = [] ↔ ∀ as ∈ lists, as = [] := by
  intro lists
  induction lists with
  | nil =>
    intro s
    refine iff_of_true rfl ?_
    simp
  | cons as rest ih =>
    intro s
    rw [visitAll, visit_logged, visitAll_logged, nil_append, append_eq_nil_iff, visit_log_eq_nil,
      ih, forall_mem_cons]

/-- **A stop is the last call exactly when no later list has an item.** -/
theorem stopsForGood_iff : ∀ (lists : List (List α)) (s : σ),
    StopsForGood go (visitAll go (logged f) lists (s, [])).2 ↔ StopsInLast go f lists s := by
  intro lists
  induction lists with
  | nil => intro s; exact iff_of_true stopsForGood_nil trivial
  | cons as rest ih =>
    intro s
    rw [visitAll, visit_logged, visitAll_logged, nil_append, stopsForGood_visit, StopsInLast]
    cases (visit go f as s).2.isNone with
    | true => exact ih _
    | false => exact visitAll_log_eq_nil rest _

end Visit
