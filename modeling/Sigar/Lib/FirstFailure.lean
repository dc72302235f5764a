/-
  Checks that are made one after the other, and the failure that is reported.

  A list of checks is run for each of some subjects; the first check that does not answer `ok` ends
  the run, with its answer.  One answer, `bad`, ends the whole search.  The checks are arranged by
  their rank, in ANY order within a rank.

  1. **One run** — `firstFailure` answers `ok` exactly if every check does, in any order; what it
     answers otherwise is up to the order among the failing checks of the lowest rank (`Lowest`).
  2. **The search** — `search`: nothing if some run answers `bad`, and otherwise the subjects that
     pass.
  3. **When the order does not matter** — `search_stable_iff`.  Either no arrangement can make a
     run answer `bad`, or none can avoid it.  The second is so exactly if some subjects BLOCK each
     other: every check that can come first for one of them is `bad` for one of them.  If no
     subjects do, a check that is safe for all of them can be put first, and so on with the rest
     (`exists_safe_arrangement`).
-/
import Mathlib.Data.List.Basic

namespace FirstFailure

open List

variable {β π σ : Type} [DecidableEq σ] (ok bad : σ) (rank : β → Nat) (status : π → β → σ)

/-- The answer of the first check that does not answer `ok`. -/
def firstFailure (answer : β → σ) : List β → σ
  | [] => ok
  | b :: rest => if answer b = ok then firstFailure answer rest else answer b

/-- The search over the subjects `ps`: none if one of them answers `bad`. -/
def search (ps : List π) (checks : List β) : Option (List π) :=
  if ∃ p ∈ ps, firstFailure ok (status p) checks = bad then none
  else some (ps.filter fun p => firstFailure ok (status p) checks = ok)

/-- The checks, sorted by rank. -/
def Arranged (items checks : List β) : Prop :=
  checks.Perm items ∧ checks.Pairwise fun b b' => rank b ≤ rank b'

/-- A failing check of the lowest rank of any. -/
structure Lowest (items : List β) (answer : β → σ) (b : β) : Prop where
  mem : b ∈ items
  fails : answer b ≠ ok
  low : ∀ b' ∈ items, answer b' ≠ ok → rank b ≤ rank b'

/-- Subjects of which one answers `bad` in any order. -/
structure Blocking (items : List β) (subjects : List π) : Prop where
  nonempty : subjects ≠ []
  failing : ∀ p ∈ subjects, ∃ b, Lowest ok rank items (status p) b
  covered : ∀ p ∈ subjects, ∀ b, Lowest ok rank items (status p) b →
    ∃ p' ∈ subjects, Lowest ok rank items (status p') b ∧ status p' b = bad

/-! ## One run -/

variable {ok bad rank status}

theorem firstFailure_eq_ok_iff {answer : β → σ} {checks : List β} :
    firstFailure ok answer checks = ok ↔ ∀ b ∈ checks, answer b = ok := by
  induction checks with
  | nil => simp [firstFailure]
  | cons b rest ih =>
    rw [firstFailure, forall_mem_cons]
    by_cases hb : answer b = ok
    · simp [ih, hb]
    · simp [hb]

/-- Checks in front that answer `ok` are not seen. -/
theorem firstFailure_append {answer : β → σ} {before rest : List β}
    (h : ∀ b ∈ before, answer b = ok) :
    firstFailure ok answer (before ++ rest) = firstFailure ok answer rest := by
  induction before with
  | nil => rfl
  | cons b before ih =>
    obtain ⟨hb, hbefore⟩ := forall_mem_cons.mp h
    rw [cons_append, firstFailure, if_pos hb, ih hbefore]

/-- **Which failure is reported**: that of a failing check before which none fails. -/
theorem exists_first {answer : β → σ} {checks : List β}
    (h : ∃ b ∈ checks, answer b ≠ ok) :
    ∃ before b after, checks = before ++ b :: after ∧ (∀ x ∈ before, answer x = ok) ∧
      answer b ≠ ok ∧ firstFailure ok answer checks = answer b := by
  induction checks with
  | nil =>
    obtain ⟨b, hb, _⟩ := h
    cases hb
  | cons b rest ih =>
    by_cases hb : answer b = ok
    · obtain ⟨x, hx, hfails⟩ := h
      have hrest : x ∈ rest := by grind
      obtain ⟨before, c, after, rfl, hbefore, hc, hfirst⟩ := ih ⟨x, hrest, hfails⟩
      refine ⟨b :: before, c, after, rfl, forall_mem_cons.mpr ⟨hb, hbefore⟩, hc, ?_⟩
      rw [firstFailure, if_pos hb, hfirst]
    · exact ⟨[], b, rest, rfl, fun x hx => (by cases hx), hb, if_neg hb⟩

/-! ## Arrangements -/

omit [DecidableEq σ]

/-- In an arrangement the first failure is one of the lowest rank. -/
theorem lowest_of_first {answer : β → σ} {items before after : List β} {b : β}
    (harr : Arranged rank items (before ++ b :: after)) (hbefore : ∀ x ∈ before, answer x = ok)
    (hb : answer b ≠ ok) : Lowest ok rank items answer b where
  mem := harr.1.mem_iff.mp (by simp)
  fails := hb
  low := by
    intro x hx hfails
    rcases mem_append.mp (harr.1.mem_iff.mpr hx) with hx | hx
    · exact absurd (hbefore x hx) hfails
    · rcases mem_cons.mp hx with rfl | hx
      · exact Nat.le_refl _
      · exact (pairwise_cons.mp (pairwise_append.mp harr.2).2.1).1 x hx

/-- Two failing checks of the lowest rank have the same rank. -/
theorem Lowest.rank_eq {items : List β} {answer : β → σ} {b b' : β}
    (h : Lowest ok rank items answer b) (h' : Lowest ok rank items answer b') :
    rank b = rank b' :=
  Nat.le_antisymm (h.low b' h'.mem h'.fails) (h'.low b h.mem h.fails)

/-- A check that answers `ok` does not count. -/
theorem lowest_cons_iff {items rest : List β} {answer : β → σ} {b x : β}
    (hperm : items.Perm (b :: rest)) (hb : answer b = ok) :
    Lowest ok rank items answer x ↔ Lowest ok rank rest answer x := by
  have hmem : ∀ y, answer y ≠ ok → (y ∈ items ↔ y ∈ rest) := by grind
  constructor
  · rintro ⟨hx, hfails, hlow⟩
    exact ⟨(hmem x hfails).mp hx, hfails, fun y hy hfy => hlow y ((hmem y hfy).mpr hy) hfy⟩
  · rintro ⟨hx, hfails, hlow⟩
    exact ⟨(hmem x hfails).mpr hx, hfails, fun y hy hfy => hlow y ((hmem y hfy).mp hy) hfy⟩

theorem exists_arranged (rank : β → Nat) (items : List β) : ∃ checks, Arranged rank items checks := by
  have hsorted : (items.mergeSort fun b b' => decide (rank b ≤ rank b')).Pairwise
      fun b b' => decide (rank b ≤ rank b') = true := by
    apply pairwise_mergeSort
    · simp [decide_eq_true_eq]
      omega
    · intro a b
      simp only [Bool.or_eq_true, decide_eq_true_eq]
      omega
  exact ⟨_, mergeSort_perm _ _, hsorted.imp fun h => of_decide_eq_true h⟩

/-- A check of the lowest rank goes in front. -/
theorem Arranged.cons {items rest checks : List β} {b : β} (hperm : items.Perm (b :: rest))
    (hmin : ∀ x ∈ items, rank b ≤ rank x) (harr : Arranged rank rest checks) :
    Arranged rank items (b :: checks) := by
  refine ⟨(harr.1.cons b).trans hperm.symm, pairwise_cons.mpr ⟨fun x hx => ?_, harr.2⟩⟩
  exact hmin x (hperm.mem_iff.mpr (mem_cons_of_mem b (harr.1.mem_iff.mp hx)))

theorem exists_perm_cons {items : List β} {b : β} (hb : b ∈ items) :
    ∃ rest, items.Perm (b :: rest) := by
  obtain ⟨before, after, rfl⟩ := append_of_mem hb
  exact ⟨before ++ after, perm_middle⟩

theorem exists_min {items : List β} (rank : β → Nat) (h : items ≠ []) :
    ∃ b ∈ items, ∀ x ∈ items, rank b ≤ rank x := by
  obtain ⟨checks, hperm, hsorted⟩ := exists_arranged rank items
  cases checks with
  | nil => exact absurd (nil_perm.mp hperm) h
  | cons b rest =>
    refine ⟨b, hperm.mem_iff.mp mem_cons_self, fun x hx => ?_⟩
    rcases mem_cons.mp (hperm.mem_iff.mpr hx) with rfl | hx
    · exact Nat.le_refl _
    · exact (pairwise_cons.mp hsorted).1 x hx

/-- **A check that is safe for all subjects**: it can come first, and is `bad` for nobody. -/
theorem exists_safe {items : List β} {ps : List π} (hbad : bad ≠ ok) (hne : items ≠ [])
    (hno : ∀ subjects, subjects ⊆ ps → ¬ Blocking ok bad rank status items subjects) :
    ∃ b ∈ items, (∀ x ∈ items, rank b ≤ rank x) ∧ ∀ p ∈ ps, status p b ≠ bad := by
  classical
  obtain ⟨m, hm, hmin⟩ := exists_min rank hne
  by_cases hfail : ∃ p ∈ ps, ∃ b ∈ items, rank b = rank m ∧ status p b ≠ ok
  · -- the subjects that fail at the lowest rank do not block each other
    obtain ⟨p₀, hp₀, hfail₀⟩ := hfail
    let subjects := ps.filter fun p => ∃ b ∈ items, rank b = rank m ∧ status p b ≠ ok
    have hmem : ∀ p, p ∈ subjects ↔ p ∈ ps ∧ ∃ b ∈ items, rank b = rank m ∧ status p b ≠ ok := by
      intro p
      rw [mem_filter, decide_eq_true_eq]
    have hlowest : ∀ p b, b ∈ items → rank b = rank m → status p b ≠ ok →
        Lowest ok rank items (status p) b :=
      fun p b hb hrank hfails => ⟨hb, hfails, fun x hx _ => hrank ▸ hmin x hx⟩
    obtain ⟨p, hp, b, hlow, hsafe⟩ : ∃ p ∈ subjects, ∃ b, Lowest ok rank items (status p) b ∧
        ∀ p' ∈ subjects, Lowest ok rank items (status p') b → status p' b ≠ bad := by
      by_contra hnone
      push Not at hnone
      refine hno subjects (filter_subset_self _) ⟨?_, ?_, hnone⟩
      · exact ne_nil_of_mem ((hmem p₀).mpr ⟨hp₀, hfail₀⟩)
      · grind
    have hrank : rank b = rank m := by grind [hlow.rank_eq]
    refine ⟨b, hlow.mem, fun x hx => hrank ▸ hmin x hx, fun p' hp' hbad' => ?_⟩
    have hfails : status p' b ≠ ok := hbad' ▸ hbad
    exact hsafe p' ((hmem p').mpr ⟨hp', b, hlow.mem, hrank, hfails⟩)
      (hlowest p' b hlow.mem hrank hfails) hbad'
  · grind

/-! ## The search -/

variable [DecidableEq σ]

theorem search_of_stopped {ps : List π} {checks : List β}
    (h : ∃ p ∈ ps, firstFailure ok (status p) checks = bad) :
    search ok bad status ps checks = none := if_pos h

theorem search_of_going {ps : List π} {checks : List β}
    (h : ¬ ∃ p ∈ ps, firstFailure ok (status p) checks = bad) :
    search ok bad status ps checks
      = some (ps.filter fun p => firstFailure ok (status p) checks = ok) := if_neg h

/-- The search as a loop over the subjects. -/
theorem search_cons (p : π) (ps : List π) (checks : List β) :
    search ok bad status (p :: ps) checks
      = if firstFailure ok (status p) checks = bad then none
        else (search ok bad status ps checks).map fun found =>
          if firstFailure ok (status p) checks = ok then p :: found else found := by
  by_cases hstop : firstFailure ok (status p) checks = bad
  · rw [search_of_stopped ⟨p, mem_cons_self, hstop⟩, if_pos hstop]
  · rw [if_neg hstop]
    by_cases hlater : ∃ q ∈ ps, firstFailure ok (status q) checks = bad
    · grind [search_of_stopped]
    · simp [search_of_going, filter_cons, Option.map_some, decide_eq_true_eq, hstop, hlater]

/-- Without subjects that block each other `bad` can be avoided. -/
theorem exists_safe_arrangement (hbad : bad ≠ ok) : ∀ (n : Nat) {items : List β} {ps : List π},
    items.length = n →
    (∀ subjects, subjects ⊆ ps → ¬ Blocking ok bad rank status items subjects) →
    ∃ checks, Arranged rank items checks ∧
      ∀ p ∈ ps, firstFailure ok (status p) checks ≠ bad := by
  intro n
  induction n with
  | zero =>
    intro items ps hlen _
    rw [length_eq_zero_iff.mp hlen]
    exact ⟨[], ⟨.refl _, .nil⟩, fun p _ => hbad.symm⟩
  | succ n ih =>
    intro items ps hlen hno
    have hne : items ≠ [] := ne_nil_of_length_eq_add_one hlen
    obtain ⟨b, hb, hmin, hsafe⟩ := exists_safe hbad hne hno
    obtain ⟨rest, hperm⟩ := exists_perm_cons hb
    have hrest : rest.length = n := by
      have := hperm.length_eq
      rw [length_cons] at this
      omega
    -- the subjects that go on behind `b`
    have hno' : ∀ subjects, subjects ⊆ ps.filter (fun p => status p b = ok) →
        ¬ Blocking ok bad rank status rest subjects := by
      intro subjects hsub hblock
      have hok : ∀ p ∈ subjects, status p b = ok :=
        fun p hp => of_decide_eq_true (mem_filter.mp (hsub hp)).2
      have hlowest : ∀ p ∈ subjects, ∀ x, Lowest ok rank items (status p) x ↔
          Lowest ok rank rest (status p) x :=
        fun p hp x => lowest_cons_iff hperm (hok p hp)
      refine hno subjects (fun p hp => (mem_filter.mp (hsub hp)).1) ⟨hblock.nonempty, ?_, ?_⟩
      · intro p hp
        obtain ⟨x, hx⟩ := hblock.failing p hp
        exact ⟨x, (hlowest p hp x).mpr hx⟩
      · intro p hp x hx
        obtain ⟨p', hp', hx', hbad'⟩ := hblock.covered p hp x ((hlowest p hp x).mp hx)
        exact ⟨p', hp', (hlowest p' hp' x).mpr hx', hbad'⟩
    obtain ⟨checks, harr, hchecks⟩ := ih hrest hno'
    refine ⟨b :: checks, harr.cons hperm hmin, fun p hp => ?_⟩
    rw [firstFailure]
    by_cases hok : status p b = ok
    · grind
    · rw [if_neg hok]
      exact hsafe p hp

/-- A `bad` failure of the lowest rank can be made the first one. -/
theorem exists_bad_arrangement {items : List β} {answer : β → σ} {b : β}
    (h : Lowest ok rank items answer b) :
    ∃ checks, Arranged rank items checks ∧ firstFailure ok answer checks = answer b := by
  obtain ⟨rest, hperm⟩ := exists_perm_cons h.mem
  obtain ⟨sorted, hsorted, hpair⟩ := exists_arranged rank rest
  let lower := sorted.filter fun x => rank x < rank b
  let upper := sorted.filter fun x => !decide (rank x < rank b)
  have hlower : ∀ x ∈ lower, rank x < rank b :=
    fun x hx => of_decide_eq_true (mem_filter.mp hx).2
  have hupper : ∀ x ∈ upper, rank b ≤ rank x := by grind
  refine ⟨lower ++ b :: upper, ⟨?_, ?_⟩, ?_⟩
  · calc lower ++ b :: upper
      _ |>.Perm (b :: (lower ++ upper)) := perm_middle
      _ |>.Perm (b :: sorted) := (filter_append_perm _ sorted).cons b
      _ |>.Perm (b :: rest) := hsorted.cons b
      _ |>.Perm items := hperm.symm
  · grind [pairwise_cons.mpr]
  · have hbefore : ∀ x ∈ lower, answer x = ok := by
      intro x hx
      by_contra hfails
      have hitem : x ∈ items := hperm.mem_iff.mpr
        (mem_cons_of_mem b (hsorted.mem_iff.mp (mem_filter.mp hx).1))
      have hle := h.low x hitem hfails
      have hlt := hlower x hx
      omega
    rw [firstFailure_append hbefore, firstFailure, if_neg h.fails]

/-- Of subjects that block each other one answers `bad` in any order. -/
theorem Blocking.stopped {items checks : List β} {subjects : List π}
    (hblock : Blocking ok bad rank status items subjects) (harr : Arranged rank items checks) :
    ∃ p ∈ subjects, firstFailure ok (status p) checks = bad := by
  classical
  -- the first check that can come first for one of them
  obtain ⟨p₀, hp₀⟩ := exists_mem_of_ne_nil _ hblock.nonempty
  obtain ⟨b₀, hb₀⟩ := hblock.failing p₀ hp₀
  have hsome : ∃ b ∈ checks,
      decide (∃ p ∈ subjects, Lowest ok rank items (status p) b) ≠ false :=
    ⟨b₀, harr.1.mem_iff.mpr hb₀.mem, by simpa using ⟨p₀, hp₀, hb₀⟩⟩
  obtain ⟨before, b, after, rfl, hbefore, hb, -⟩ := exists_first hsome
  rw [ne_eq, Bool.not_eq_false, decide_eq_true_eq] at hb
  obtain ⟨p, hp, hlow⟩ := hb
  obtain ⟨p', hp', hlow', hbad'⟩ := hblock.covered p hp b hlow
  -- nothing before it fails for the one that it is `bad` for
  have hquiet : ∀ x ∈ before, status p' x = ok := by
    intro x hx
    by_contra hfails
    have hitem : x ∈ items := harr.1.mem_iff.mp (mem_append_left _ hx)
    have hle : rank x ≤ rank b := (pairwise_append.mp harr.2).2.2 x hx b mem_cons_self
    have hlowx : Lowest ok rank items (status p') x :=
      ⟨hitem, hfails, fun y hy hfy => Nat.le_trans hle (hlow'.low y hy hfy)⟩
    exact of_decide_eq_false (hbefore x hx) ⟨p', hp', hlowx⟩
  refine ⟨p', hp', ?_⟩
  rw [firstFailure_append hquiet, firstFailure, if_neg hlow'.fails, hbad']

/-- Subjects pass in every order or in none. -/
theorem filter_eq_of_perm {checks checks' : List β} (hperm : checks.Perm checks') (ps : List π) :
    ps.filter (fun p => firstFailure ok (status p) checks = ok)
      = ps.filter fun p => firstFailure ok (status p) checks' = ok := by
  refine filter_congr fun p _ => ?_
  simp only [firstFailure_eq_ok_iff, hperm.mem_iff]

/-- **When the order does not matter.**  The search finds the same in every arrangement exactly if
    no failure of a lowest rank is `bad`, or some subjects block each other. -/
theorem search_stable_iff (hbad : bad ≠ ok) (items : List β) (ps : List π) :
    (∀ checks checks', Arranged rank items checks → Arranged rank items checks' →
      search ok bad status ps checks = search ok bad status ps checks') ↔
    (∀ p ∈ ps, ∀ b, Lowest ok rank items (status p) b → status p b ≠ bad) ∨
      ∃ subjects, subjects ⊆ ps ∧ Blocking ok bad rank status items subjects := by
  constructor
  · intro hsame
    by_contra hno
    push Not at hno
    obtain ⟨⟨p, hp, b, hlow, hbad'⟩, hblock⟩ := hno
    obtain ⟨stopping, harr, hfirst⟩ := exists_bad_arrangement hlow
    obtain ⟨going, harr', hsafe⟩ := exists_safe_arrangement hbad items.length rfl hblock
    have hsearch := hsame stopping going harr harr'
    rw [search_of_stopped ⟨p, hp, hfirst.trans hbad'⟩,
      search_of_going (by rintro ⟨p, hp, h⟩; exact hsafe p hp h)] at hsearch
    cases hsearch
  · rintro (hgood | ⟨subjects, hsub, hblock⟩) checks checks' harr harr'
    · -- no arrangement answers `bad`
      have hnever : ∀ c, Arranged rank items c →
          ¬ ∃ p ∈ ps, firstFailure ok (status p) c = bad := by
        rintro c hc ⟨p, hp, hfirst⟩
        by_cases hfail : ∃ b ∈ c, status p b ≠ ok
        · obtain ⟨before, b, after, rfl, hbefore, hb, hb'⟩ := exists_first hfail
          exact hgood p hp b (lowest_of_first hc hbefore hb) (hb'.symm.trans hfirst)
        · grind [firstFailure_eq_ok_iff.mpr]
      rw [search_of_going (hnever checks harr), search_of_going (hnever checks' harr'),
        filter_eq_of_perm (harr.1.trans harr'.1.symm)]
    · have halways : ∀ c, Arranged rank items c →
          ∃ p ∈ ps, firstFailure ok (status p) c = bad := by
        intro c hc
        obtain ⟨p, hp, hfirst⟩ := hblock.stopped hc
        exact ⟨p, hsub hp, hfirst⟩
      rw [search_of_stopped (halways checks harr), search_of_stopped (halways checks' harr')]

end FirstFailure
