/-
  The maximal runs of a list: as long as a key stays the same.

  They are the groups that `List.splitBy` makes.  `runsBy_keys` gives each run its key, and says
  that neighbours have different ones; an induction over the runs starts from it.
-/
import Mathlib.Data.List.SplitBy

namespace KeyRuns

open List

variable {α κ : Type} [DecidableEq κ]

/-- The maximal runs of neighbours with one key. -/
def runsBy (key : α → κ) (l : List α) : List (List α) := l.splitBy fun a b => key a == key b

/-- `run` is not empty, and all of it has the key `k`. -/
def IsRun (key : α → κ) (k : κ) (run : List α) : Prop := run ≠ [] ∧ ∀ a ∈ run, key a = k

variable {key : α → κ}

theorem isRun_of_isChain : ∀ {run : List α}, run.IsChain (fun a b => (key a == key b) = true) →
    ∀ hne : run ≠ [], IsRun key (key (run.head hne)) run := by
  intro run
  induction run with
  | nil => intro _ hne; exact absurd rfl hne
  | cons a run ih =>
    intro hchain _
    refine ⟨cons_ne_nil a run, ?_⟩
    rintro b (_ | ⟨_, hb⟩)
    · rfl
    · have hrun : run ≠ [] := ne_nil_of_mem hb
      obtain ⟨hfirst, hrest⟩ := isChain_cons.mp hchain
      have hhead : key a = key (run.head hrun) :=
        eq_of_beq (hfirst _ (head_mem_head? hrun))
      exact ((ih hrest hrun).2 b hb).trans hhead.symm

/-- **Each run has its key**, and neighbours have different ones. -/
theorem runsBy_keys (key : α → κ) (l : List α) :
    ∃ keys, Forall₂ (IsRun key) keys (runsBy key l) ∧ keys.IsChain (· ≠ ·) := by
  have hne : ∀ run ∈ runsBy key l, run ≠ [] :=
    fun run hrun hnil => nil_notMem_splitBy _ l (hnil ▸ hrun)
  have hsame : ∀ run ∈ runsBy key l, run.IsChain fun a b => (key a == key b) = true :=
    fun run hrun => isChain_of_mem_splitBy hrun
  have hdiffer := isChain_getLast_head_splitBy (fun a b => key a == key b) l
  change (runsBy key l).IsChain _ at hdiffer
  generalize runsBy key l = runs at hne hsame hdiffer ⊢
  induction runs with
  | nil => exact ⟨[], .nil, .nil⟩
  | cons run runs ih =>
    obtain ⟨hfirst, hrest⟩ := isChain_cons.mp hdiffer
    obtain ⟨keys, hkeys, hchain⟩ := ih (fun r hr => hne r (mem_cons_of_mem run hr))
      (fun r hr => hsame r (mem_cons_of_mem run hr)) hrest
    have hrun := isRun_of_isChain (hsame run mem_cons_self) (hne run mem_cons_self)
    refine ⟨_ :: keys, .cons hrun hkeys, isChain_cons.mpr ⟨?_, hchain⟩⟩
    intro k hk hsameKey
    cases hkeys with
    | nil => cases hk
    | cons hnext _ =>
      obtain ⟨hlast, hhead, hne'⟩ := hfirst _ rfl
      cases hk
      refine beq_eq_false_iff_ne.mp hne' ?_
      rw [hrun.2 _ (getLast_mem hlast), hnext.2 _ (head_mem hhead)]
      exact hsameKey

end KeyRuns
