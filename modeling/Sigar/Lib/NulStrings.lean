/-
  Memory as a sequence of strings.

  Files such as /proc/<pid>/environ hold strings one after the other, each ended by a NUL; the last
  NUL may be missing.  `strings` cuts any bytes into them.  A loop over such bytes takes one string
  in each round, and `strings_induction` is the induction that follows it.
-/
import Sigar.Lib.CString

namespace NulStrings

open CString List

/-- The strings in some bytes. -/
def strings : Text → List Text
  | [] => []
  | c :: rest =>
    if c = nul then [] :: strings rest
    else match strings rest with
      | [] => [[c]]
      | s :: more => (c :: s) :: more

example : strings "a\x00\x00bc".toList = ["a".toList, [], "bc".toList] := by decide

/-- Strings, each with its NUL. -/
def terminated (ss : List Text) : Text := ss.flatMap (· ++ [nul])

/-- `s` is the first string of `s ++ after`. -/
structure Leads (s after : Text) : Prop where
  no_nul : nul ∉ s
  ends : deref after = nul
  ne_nil : s ++ after ≠ []

/-- What follows a string: nothing, or its NUL. -/
theorem Leads.cases {s after : Text} (h : Leads s after) :
    after = [] ∨ ∃ rest, after = nul :: rest := by
  cases after with
  | nil => exact .inl rfl
  | cons c rest => exact .inr ⟨rest, congrArg (· :: rest) h.ends⟩

/-- **The first string is cut off.** -/
theorem strings_append : ∀ {s after : Text}, Leads s after →
    strings (s ++ after) = s :: strings after.tail := by
  intro s
  induction s with
  | nil =>
    intro after h
    rcases h.cases with rfl | ⟨rest, rfl⟩
    · exact absurd rfl h.ne_nil
    · rw [nil_append, strings, if_pos rfl]
      rfl
  | cons c s ih =>
    intro after h
    have hc : c ≠ nul := fun hc => h.no_nul (hc ▸ mem_cons_self)
    have hs : nul ∉ s := fun hs => h.no_nul (mem_cons_of_mem c hs)
    rw [cons_append, strings, if_neg hc]
    by_cases hlast : s ++ after = []
    · obtain ⟨rfl, rfl⟩ := append_eq_nil_iff.mp hlast
      rfl
    · rw [ih ⟨hs, h.ends, hlast⟩]

/-- Bytes start with a string. -/
theorem exists_leads {bytes : Text} (hne : bytes ≠ []) :
    ∃ s after, bytes = s ++ after ∧ Leads s after := by
  by_cases hnul : nul ∈ bytes
  · obtain ⟨s, rest, rfl, hs⟩ := eq_append_cons_of_mem hnul
    exact ⟨s, nul :: rest, rfl, hs, rfl, hne⟩
  · exact ⟨bytes, [], (append_nil bytes).symm, hnul, rfl, by rwa [append_nil]⟩

/-- **Induction over bytes, string by string.** -/
theorem strings_induction {P : Text → Prop} (nil : P [])
    (step : ∀ s after, Leads s after → P after.tail → P (s ++ after)) : ∀ bytes, P bytes := by
  intro bytes
  induction hn : bytes.length using Nat.strongRecOn generalizing bytes with
  | ind n ih =>
    by_cases hne : bytes = []
    · rw [hne]
      exact nil
    · obtain ⟨s, after, rfl, h⟩ := exists_leads hne
      refine step s after h (ih after.tail.length ?_ after.tail rfl)
      have hpos : 0 < (s ++ after).length := length_pos_iff.mpr hne
      rw [length_append] at hn hpos
      rw [length_tail]
      omega

/-- Strings that are written are read. -/
theorem strings_terminated : ∀ {ss : List Text}, (∀ s ∈ ss, nul ∉ s) → ∀ rest,
    strings (terminated ss ++ rest) = ss ++ strings rest := by
  intro ss
  induction ss with
  | nil => intro _ rest; rfl
  | cons s ss ih =>
    intro hss rest
    have hfirst : terminated (s :: ss) ++ rest = s ++ nul :: (terminated ss ++ rest) := by
      simp [terminated]
    rw [hfirst, strings_append ⟨hss s mem_cons_self, rfl, by simp⟩, tail_cons,
      ih (fun s' hs' => hss s' (mem_cons_of_mem s hs')), cons_append]

end NulStrings
