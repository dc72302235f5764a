/-
  The place that a path names.

  A path is read part by part: repeated slashes count as one, and a part `.` stays where it is.  So
  two paths with the same parts, both from the root or both from where one is, name ONE place.  What
  `..` and links make of a path depends on the file system and is left to it.
-/
import Mathlib.Data.List.Basic

namespace Paths

open List

/-- The parts of a path. -/
def parts (path : List Char) : List (List Char) :=
  (path.splitOnP (· == '/')).filter fun part => part ≠ [] ∧ part ≠ ['.']

theorem parts_append_slash (a b : List Char) : parts (a ++ '/' :: b) = parts a ++ parts b := by
  have hsplit : (a ++ '/' :: b).splitOnP (· == '/')
      = a.splitOnP (· == '/') ++ b.splitOnP (· == '/') := splitOnP_append_cons a b rfl
  rw [parts, hsplit, filter_append]
  rfl

/-- Every character but a slash is in a part. -/
theorem mem_splitOnP {c : Char} (hslash : c ≠ '/') : ∀ {path : List Char}, c ∈ path →
    ∃ part ∈ path.splitOnP (· == '/'), c ∈ part := by
  intro path
  induction path with
  | nil => intro h; cases h
  | cons x path ih =>
    intro hc
    obtain ⟨first, rest, hsplit⟩ :=
      exists_cons_of_ne_nil (splitOnP_ne_nil (· == '/') path)
    rw [hsplit] at ih
    rw [splitOnP_cons_eq_if_modifyHead, hsplit]
    by_cases hx : (x == '/') = true
    · grind
    · rw [if_neg hx]
      show ∃ part ∈ (x :: first) :: rest, c ∈ part
      rcases mem_cons.mp hc with rfl | hc
      · exact ⟨_, mem_cons_self, mem_cons_self⟩
      · grind

theorem parts_ne_nil {c : Char} (hslash : c ≠ '/') (hdot : c ≠ '.') {path : List Char}
    (hc : c ∈ path) : parts path ≠ [] := by
  obtain ⟨part, hpart, hin⟩ := mem_splitOnP hslash hc
  refine ne_nil_of_mem (mem_filter.mpr ⟨hpart, decide_eq_true ⟨?_, ?_⟩⟩)
  · exact ne_nil_of_mem hin
  · rintro rfl
    exact hdot (mem_singleton.mp hin)

/-- A place: from the root or not, and the parts. -/
structure Place where
  absolute : Bool
  parts : List (List Char)
  deriving DecidableEq

def place (path : List Char) : Place := ⟨path.head? == some '/', parts path⟩

/-- Paths that go on below one directory differ in their parts. -/
theorem place_below (dir a b : List Char) :
    place (dir ++ '/' :: a) = place (dir ++ '/' :: b) ↔ parts a = parts b := by
  have hhead : (dir ++ '/' :: a).head? = (dir ++ '/' :: b).head? := by simp
  rw [place, place, Place.mk.injEq, parts_append_slash, parts_append_slash, hhead]
  exact ⟨fun h => append_cancel_left h.2, fun h => ⟨rfl, by rw [h]⟩⟩

/-- The same below two names of one directory, or of two. -/
theorem place_below_same {dir dir' : List Char} (hdir : dir ≠ []) (hdir' : dir' ≠ [])
    {rest : List Char} :
    place (dir ++ '/' :: rest) = place (dir' ++ '/' :: rest) ↔ place dir = place dir' := by
  obtain ⟨c, dir, rfl⟩ := exists_cons_of_ne_nil hdir
  obtain ⟨c', dir', rfl⟩ := exists_cons_of_ne_nil hdir'
  rw [place, place, place, place, Place.mk.injEq, Place.mk.injEq, parts_append_slash,
    parts_append_slash]
  exact ⟨fun h => ⟨h.1, append_cancel_right h.2⟩, fun h => ⟨h.1, by rw [h.2]⟩⟩

end Paths
