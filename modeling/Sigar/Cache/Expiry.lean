/-
  What a cleanup removes when the clock is set back.

  The age of an entry is `current_time - entry->last_access_time`, a difference of UNSIGNED
  numbers.  An entry that was used at a later time than the clock now shows does not get a negative
  age but one near 2^64, and the cleanup is due for the same reason.

  1. **Step** — `keepsRecent_iff`: an operation keeps every entry that was used recently, except
     exactly when its cleanup is due and finds an entry of the future whose wrapped age is too big.
  2. **Run** — `sigarCache_keepsRecent_iff`: so does every run, for any table to start from and any
     readings of the clock.
-/
import Sigar.Cache.Invariant

namespace Sigar.Cache

open Runs

variable {V : Type} {table : SigarCache V}

/-- The reading of the clock that an operation's cleanup works with. -/
def CacheOp.cleanupReading : CacheOp V → Option UInt64
  | .get _ clock => some clock.cleanup
  | .find _ clock => some clock.cleanup
  | .store _ _ => none

/-- The last access is not more than the expiry period before `now`; it may be after `now`. -/
def UsedRecently (table : SigarCache V) (now : UInt64) (entry : SigarCacheEntry V) : Prop :=
  (now.toNat : Int) - entry.lastAccessTime.toNat ≤ table.entryExpirePeriod.toNat

/-- The cleanup of the operation removes no entry that was used recently. -/
def KeepsRecent (table : SigarCache V) (op : CacheOp V) : Prop :=
  ∀ now, op.cleanupReading = some now → ∀ entry ∈ table.cells,
    UsedRecently table now entry → entry ∈ (sigarPerformCleanupIfNecessary table now).cells

/-- If the cleanup is due, an entry that was used later than `now` was used so much later that its
    wrapped age is within the expiry period. -/
def FutureFar (table : SigarCache V) (op : CacheOp V) : Prop :=
  ∀ now, op.cleanupReading = some now → CleanupDue table now → ∀ entry ∈ table.cells,
    now < entry.lastAccessTime →
      2 ^ 64 ≤ entry.lastAccessTime.toNat - now.toNat + table.entryExpirePeriod.toNat

/-! ## One entry -/

/-- A cleanup that is due keeps exactly the entries that survive it. -/
theorem mem_cleanup_iff {now : UInt64} (hdue : CleanupDue table now) (entry : SigarCacheEntry V) :
    entry ∈ (sigarPerformCleanupIfNecessary table now).cells ↔
      entry ∈ table.cells ∧ survives table.entryExpirePeriod now entry = true := by
  rcases sigarPerformCleanupIfNecessary_cases table now with ⟨hnot, _⟩ | ⟨_, heq⟩
  · exact absurd hdue hnot
  · rw [heq]
    split
    · rw [(sigarCacheRehash_spec _).2.2.mem_iff, sweep_cells, List.mem_filter]
    · rw [sweep_cells, List.mem_filter]

theorem survives_iff_age (expire now : UInt64) (entry : SigarCacheEntry V) :
    survives expire now entry = true ↔ (now - entry.lastAccessTime).toNat ≤ expire.toNat := by
  unfold survives
  rw [Bool.not_eq_true', decide_eq_false_iff_not, UInt64.not_lt, UInt64.le_iff_toNat_le]

/-- The age of an entry of the future has wrapped around. -/
theorem age_of_future {last now : UInt64} (h : now < last) :
    (now - last).toNat = 2 ^ 64 - (last.toNat - now.toNat) := by
  have hlt := UInt64.lt_iff_toNat_lt.mp h
  have hlast := last.toNat_lt
  rw [UInt64.toNat_sub]
  omega

/-- An entry survives whenever it was used recently, unless it is one of the future whose wrapped
    age is too big. -/
theorem survives_of_recent_iff (table : SigarCache V) (now : UInt64) (entry : SigarCacheEntry V) :
    (UsedRecently table now entry → survives table.entryExpirePeriod now entry = true) ↔
      (now < entry.lastAccessTime →
        2 ^ 64 ≤ entry.lastAccessTime.toNat - now.toNat + table.entryExpirePeriod.toNat) := by
  rw [survives_iff_age]
  unfold UsedRecently
  have hlast := entry.lastAccessTime.toNat_lt
  rcases UInt64.lt_or_le now entry.lastAccessTime with hlt | hle
  · -- the future: used recently in any case, so only the wrapped age counts
    have hnat := UInt64.lt_iff_toNat_lt.mp hlt
    rw [age_of_future hlt]
    constructor
    · omega
    · intro h _
      have hfar := h hlt
      omega
  · grind [UInt64.toNat_sub_of_le]

/-! ## One operation, and runs -/

theorem keepsRecent_iff (table : SigarCache V) (op : CacheOp V) :
    KeepsRecent table op ↔ FutureFar table op := by
  constructor
  · intro hkeeps now hnow hdue entry hmem
    rw [← survives_of_recent_iff]
    intro hrecent
    exact ((mem_cleanup_iff hdue entry).mp (hkeeps now hnow entry hmem hrecent)).2
  · intro hfar now hnow entry hmem hrecent
    rcases sigarPerformCleanupIfNecessary_cases table now with ⟨_, heq⟩ | ⟨hdue, _⟩
    · -- nothing happens
      rw [heq]
      exact hmem
    · have hsurv := (survives_of_recent_iff table now entry).mpr (hfar now hnow hdue entry hmem)
      exact (mem_cleanup_iff hdue entry).mpr ⟨hmem, hsurv hrecent⟩

/-- **A run keeps every recently used entry exactly when no cleanup that is due meets an entry of
    the near future.** -/
theorem sigarCache_keepsRecent_iff (table : SigarCache V) (ops : List (CacheOp V)) :
    Along cacheStep KeepsRecent table ops ↔ Along cacheStep FutureFar table ops :=
  along_congr keepsRecent_iff ops table

/-- The clock goes back by a millisecond, and the entry that was just used is gone. -/
theorem stepBack_removesRecent :
    ¬ Along cacheStep KeepsRecent (sigarExpiredCacheNew Unit 128 600000 1200000 10000000)
      [.get 7 ⟨10000000, 10000000⟩, .find 7 ⟨9999999, 9999999⟩] := by
  intro h
  have hentry : (⟨0, 7, none, 10000000⟩ : SigarCacheEntry Unit) ∈
      (cacheStep (sigarExpiredCacheNew Unit 128 600000 1200000 10000000)
        (.get 7 ⟨10000000, 10000000⟩)).1.cells := by decide
  have hkept := h.2.1 9999999 rfl _ hentry (by unfold UsedRecently; decide)
  exact absurd hkept (by decide)

end Sigar.Cache
