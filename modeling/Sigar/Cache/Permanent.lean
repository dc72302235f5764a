/-
  A table of `sigar_cache_new`: it has no cleanup, so it is a set of keys that only grows.

  `sigar_cache_find` answers whether the key is in the set, `sigar_cache_get` adds it, and writing
  a value through the pointer changes nothing about the keys.
-/
import Sigar.Cache.Invariant

namespace Sigar.Cache

open Buckets List

variable {V : Type} {table : SigarCache V}

/-- The shape of a table, with no cleanup. -/
structure Permanent (table : SigarCache V) : Prop where
  wellFormed : WellFormed table
  never : table.cleanupPeriodMillis = sigarFieldNotImpl

/-- The table has an entry for the key. -/
def HasKey (table : SigarCache V) (key : UInt64) : Prop := ∃ entry ∈ table.cells, entry.id = key

theorem sigarCacheNew_permanent (V : Type) {size : Nat} (hsize : 1 ≤ size) (now : UInt64) :
    Permanent (sigarCacheNew V size now) where
  wellFormed := sigarExpiredCacheNew_wellFormed V hsize _ _ now
  never := rfl

theorem not_hasKey_new (V : Type) (size : Nat) (now key : UInt64) :
    ¬ HasKey (sigarCacheNew V size now) key := by
  rintro ⟨entry, hmem, _⟩
  exact not_mem_new V size _ _ now entry hmem

theorem Permanent.cleanup (hp : Permanent table) (now : UInt64) :
    sigarPerformCleanupIfNecessary table now = table :=
  if_pos hp.never

/-- Rewriting the entries without changing an id keeps the keys. -/
theorem Permanent.map_entries (hp : Permanent table) {g : SigarCacheEntry V → SigarCacheEntry V}
    (hid : ∀ entry, (g entry).id = entry.id) :
    Permanent { table with entries := table.entries.map (List.map g) } where
  wellFormed := hp.wellFormed.map_entries hid
  never := hp.never

theorem hasKey_map_entries {g : SigarCacheEntry V → SigarCacheEntry V}
    (hid : ∀ entry, (g entry).id = entry.id) (key : UInt64) :
    HasKey { table with entries := table.entries.map (List.map g) } key ↔ HasKey table key := by
  have hcells : SigarCache.cells { table with entries := table.entries.map (List.map g) }
      = table.cells.map g := map_flatten.symm
  unfold HasKey
  rw [hcells]
  constructor
  · grind
  · grind

/-- **`sigar_cache_find`** tells whether the key is there and changes no key. -/
theorem sigarCacheFind_permanent (hp : Permanent table) (key : UInt64) (clock : Clock) :
    Permanent (sigarCacheFind table key clock).1 ∧
    (∀ k, HasKey (sigarCacheFind table key clock).1 k ↔ HasKey table k) ∧
    ((sigarCacheFind table key clock).2.isSome = true ↔ HasKey table key) := by
  have hcases := sigarCacheFind_cases hp.wellFormed key clock
  rw [hp.cleanup] at hcases
  rcases hcases with ⟨entry, hmem, hid, heq⟩ | ⟨hnone, heq⟩
  · rw [heq]
    exact ⟨hp.map_entries (touch_id key clock.access),
      hasKey_map_entries (touch_id key clock.access), iff_of_true rfl ⟨entry, hmem, hid⟩⟩
  · rw [heq]
    refine ⟨hp, fun _ => Iff.rfl, iff_of_false (by simp) ?_⟩
    rintro ⟨entry, hmem, hid⟩
    exact hnone entry hmem hid

/-- **`sigar_cache_get`** adds the key. -/
theorem sigarCacheGet_permanent (hp : Permanent table) (key : UInt64) (clock : Clock) :
    Permanent (sigarCacheGet table key clock).1 ∧
    ∀ k, HasKey (sigarCacheGet table key clock).1 k ↔ k = key ∨ HasKey table k := by
  have hcases := sigarCacheGet_cases hp.wellFormed key clock
  rw [hp.cleanup] at hcases
  rcases hcases with ⟨entry, hmem, hid, heq⟩ | ⟨_, _, hins⟩
  · rw [heq]
    refine ⟨hp.map_entries (touch_id key clock.access), fun k => ?_⟩
    rw [hasKey_map_entries (touch_id key clock.access)]
    constructor
    · exact Or.inr
    · rintro (rfl | h)
      · exact ⟨entry, hmem, hid⟩
      · exact h
  · refine ⟨⟨hins.wellFormed, hins.period.trans hp.never⟩, fun k => ?_⟩
    unfold HasKey
    constructor
    · rintro ⟨entry, hmem, hk⟩
      rcases mem_cons.mp (hins.cells.mem_iff.mp hmem) with rfl | hmem
      · exact Or.inl hk.symm
      · exact Or.inr ⟨entry, hmem, hk⟩
    · rintro (rfl | ⟨entry, hmem, hk⟩)
      · exact ⟨_, hins.cells.mem_iff.mpr mem_cons_self, rfl⟩
      · exact ⟨entry, hins.cells.mem_iff.mpr (mem_cons_of_mem _ hmem), hk⟩

/-- A caller's write through the pointer keeps the keys. -/
theorem storeValue_permanent (hp : Permanent table) (addr : Nat) (value : Option V) :
    Permanent (storeValue table addr value) ∧
    ∀ k, HasKey (storeValue table addr value) k ↔ HasKey table k := by
  have hid : ∀ entry : SigarCacheEntry V,
      (if entry.addr = addr then { entry with value := value } else entry).id = entry.id := by
    intro entry
    split <;> rfl
  exact ⟨hp.map_entries hid, hasKey_map_entries hid⟩

end Sigar.Cache
