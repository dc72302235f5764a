/-
  A table of `sigar_cache_new` as a function from keys to values.

  Nothing is ever cleaned up, and an entry that is there without a value is as good as none: the
  callers ask `entry->value` and store one where it is `NULL`.  So the table is the function
  `valueOf`.  `sigar_cache_get` does not change it (`Kept.get`), and a store through the pointer to
  the entry of a key changes it at that key (`Kept.store`).  `PointsTo` is what is known of such a
  pointer, and it stays true.
-/
import Sigar.Cache.Update

namespace Sigar.Cache

open List

variable {V : Type} {table : SigarCache V}

/-- The value of a key. -/
def SigarCache.valueOf (table : SigarCache V) (key : UInt64) : Option V :=
  (table.cells.find? (·.id = key)).bind (·.value)

/-- `entry->value` through a pointer. -/
def loadValue (table : SigarCache V) (addr : Nat) : Option V :=
  (table.cells.find? (·.addr = addr)).bind (·.value)

/-- The pointer is to the entry of the key. -/
def PointsTo (table : SigarCache V) (key : UInt64) (addr : Nat) : Prop :=
  ∃ entry ∈ table.cells, entry.id = key ∧ entry.addr = addr

/-- A table without cleanup. -/
structure Kept (table : SigarCache V) : Prop where
  owned : Owned table
  never : table.cleanupPeriodMillis = sigarFieldNotImpl

theorem sigarCacheNew_kept (V : Type) {size : Nat} (hsize : 1 ≤ size) (now : UInt64) :
    Kept (sigarCacheNew V size now) where
  owned := sigarExpiredCacheNew_owned V hsize _ _ now
  never := rfl

theorem valueOf_new (V : Type) (size : Nat) (now key : UInt64) :
    (sigarCacheNew V size now).valueOf key = none := by
  have hcells : (sigarCacheNew V size now).cells = [] := sigarExpiredCacheNew_cells V size _ _ now
  rw [SigarCache.valueOf, hcells]
  rfl

theorem valueOf_of_mem (wf : WellFormed table) {entry : SigarCacheEntry V}
    (he : entry ∈ table.cells) : table.valueOf entry.id = entry.value := by
  cases hfind : table.cells.find? (·.id = entry.id) with
  | none =>
    exact absurd (decide_eq_true rfl) (find?_eq_none.mp hfind entry he)
  | some found => grind [SigarCache.valueOf, wf.eq_of_id]

theorem valueOf_eq_none {key : UInt64} (h : ∀ entry ∈ table.cells, entry.id ≠ key) :
    table.valueOf key = none := by grind [find?_eq_none, SigarCache.valueOf]

/-- A pointer and its key give the same value. -/
theorem PointsTo.load {key : UInt64} {addr : Nat} (ow : Owned table)
    (hp : PointsTo table key addr) : loadValue table addr = table.valueOf key := by
  obtain ⟨entry, he, rfl, rfl⟩ := hp
  rw [valueOf_of_mem ow.wellFormed he]
  cases hfind : table.cells.find? (·.addr = entry.addr) with
  | none =>
    exact absurd (decide_eq_true rfl) (find?_eq_none.mp hfind entry he)
  | some found => grind [loadValue, ow.eq_of_addr]

/-- Two tables with the same entries, up to what no value depends on. -/
theorem valueOf_congr {result : SigarCache V} (wf : WellFormed table) (wf' : WellFormed result)
    {k : UInt64}
    (hto : ∀ entry ∈ table.cells, entry.id = k →
      ∃ entry' ∈ result.cells, entry'.id = k ∧ entry'.value = entry.value)
    (hfrom : ∀ entry ∈ result.cells, entry.id = k → entry.value ≠ none →
      ∃ entry' ∈ table.cells, entry'.id = k) :
    result.valueOf k = table.valueOf k := by
  by_cases hk : ∃ entry ∈ table.cells, entry.id = k
  · grind [valueOf_of_mem]
  · grind [valueOf_of_mem, valueOf_eq_none]

/-- What a step leaves as it is: the values of the table, and where the pointers point. -/
structure Same (table result : SigarCache V) : Prop where
  kept : Kept result
  value : ∀ k, result.valueOf k = table.valueOf k
  points : ∀ k addr, PointsTo table k addr → PointsTo result k addr

/-- A touch changes no value and no pointer. -/
theorem Kept.touched (hk : Kept table) (key now : UInt64) :
    Same table { table with entries := table.entries.map (List.map (touch key now)) } := by
  have howned := hk.owned.map_entries (touch_id key now) (touch_addr key now)
  have hcells : SigarCache.cells { table with entries := table.entries.map (List.map (touch key now)) }
      = table.cells.map (touch key now) := map_flatten.symm
  have hvalue : ∀ x : SigarCacheEntry V, (touch key now x).value = x.value := by
    intro x
    unfold touch
    split <;> rfl
  refine ⟨⟨howned, hk.never⟩, fun k => ?_, fun k addr => ?_⟩
  · refine valueOf_congr hk.owned.wellFormed howned.wellFormed (fun x hx hxk => ?_)
      fun x hx hxk _ => ?_
    · exact ⟨touch key now x, hcells ▸ mem_map_of_mem hx, (touch_id _ _ x).trans hxk, hvalue x⟩
    · rw [hcells] at hx
      obtain ⟨y, hy, rfl⟩ := mem_map.mp hx
      exact ⟨y, hy, (touch_id _ _ y).symm.trans hxk⟩
  · rintro ⟨x, hx, rfl, rfl⟩
    exact ⟨touch key now x, hcells ▸ mem_map_of_mem hx, touch_id _ _ x, touch_addr _ _ x⟩

/-- **`sigar_cache_find`** hands out the value of the key, if the key is there, and changes none. -/
theorem Kept.find (hk : Kept table) (key : UInt64) (clock : Clock) :
    Same table (sigarCacheFind table key clock).1 ∧
    (sigarCacheFind table key clock).2.bind (·.value) = table.valueOf key := by
  have hclean : sigarPerformCleanupIfNecessary table clock.cleanup = table := if_pos hk.never
  have hcases := sigarCacheFind_cases hk.owned.wellFormed key clock
  rw [hclean] at hcases
  rcases hcases with ⟨entry, he, rfl, heq⟩ | ⟨hnone, heq⟩
  · rw [heq]
    exact ⟨hk.touched _ clock.access, (valueOf_of_mem hk.owned.wellFormed he).symm⟩
  · rw [heq]
    exact ⟨⟨hk, fun _ => rfl, fun _ _ h => h⟩, (valueOf_eq_none hnone).symm⟩

/-- **`sigar_cache_get`** hands out the value of the key and changes none. -/
theorem Kept.get (hk : Kept table) (key : UInt64) (clock : Clock) :
    Same table (sigarCacheGet table key clock).1 ∧
    (sigarCacheGet table key clock).2.value = table.valueOf key ∧
    PointsTo (sigarCacheGet table key clock).1 key (sigarCacheGet table key clock).2.addr := by
  have hgot := sigarCacheGet_got hk.owned key clock
  have hclean : sigarPerformCleanupIfNecessary table clock.cleanup = table := if_pos hk.never
  have hcases := sigarCacheGet_cases hk.owned.wellFormed key clock
  rw [hclean] at hcases
  have hsame : Same table (sigarCacheGet table key clock).1 := by
    rcases hcases with ⟨entry, he, hid, heq⟩ | ⟨hfresh, hnew, hins⟩
    · rw [heq]
      exact hk.touched key clock.access
    · -- an entry without a value is added
      refine ⟨⟨hgot.owned, hins.period.trans hk.never⟩, fun k => ?_, fun k addr => ?_⟩
      · refine valueOf_congr hk.owned.wellFormed hgot.owned.wellFormed (fun x hx hxk => ?_)
          fun x hx hxk hvalue => ?_
        · exact ⟨x, (hins.mem_cells_iff x).mpr (.inr hx), hxk, rfl⟩
        · rcases (hins.mem_cells_iff x).mp hx with rfl | hx
          · exact absurd rfl hvalue
          · exact ⟨x, hx, hxk⟩
      · rintro ⟨x, hx, rfl, rfl⟩
        exact ⟨x, (hins.mem_cells_iff x).mpr (.inr hx), rfl, rfl⟩
  refine ⟨hsame, ?_, ⟨_, hgot.mem, hgot.id, rfl⟩⟩
  rw [← hsame.value key]
  have h := valueOf_of_mem hgot.owned.wellFormed hgot.mem
  rw [hgot.id] at h
  exact h.symm

/-- **A store through the pointer to a key** changes the value of that key. -/
theorem Kept.store (hk : Kept table) {key : UInt64} {addr : Nat} (hp : PointsTo table key addr)
    (value : Option V) :
    Kept (storeValue table addr value) ∧
    (∀ k, (storeValue table addr value).valueOf k = if k = key then value else table.valueOf k) ∧
    ∀ k a, PointsTo table k a → PointsTo (storeValue table addr value) k a := by
  obtain ⟨entry, he, hid, haddr⟩ := hp
  let g : SigarCacheEntry V → SigarCacheEntry V :=
    fun entry => if entry.addr = addr then { entry with value := value } else entry
  have hgid : ∀ x, (g x).id = x.id := by grind
  have hgaddr : ∀ x, (g x).addr = x.addr := by grind
  have howned : Owned (storeValue table addr value) := hk.owned.map_entries hgid hgaddr
  have hcells : (storeValue table addr value).cells = table.cells.map g := map_flatten.symm
  have hmem : ∀ {x}, x ∈ table.cells → g x ∈ (storeValue table addr value).cells := fun hx =>
    hcells ▸ mem_map_of_mem hx
  refine ⟨⟨howned, hk.never⟩, fun k => ?_, ?_⟩
  · split
    · next hkey =>
      have h := valueOf_of_mem howned.wellFormed (hmem he)
      rw [hgid, hid] at h
      rw [hkey, h]
      exact congrArg SigarCacheEntry.value (if_pos haddr)
    · next hkey =>
      refine valueOf_congr hk.owned.wellFormed howned.wellFormed (fun x hx hxk => ?_)
        fun x hx hxk _ => ?_
      · grind [hk.owned.eq_of_addr]
      · grind
  · rintro k a ⟨x, hx, rfl, rfl⟩
    exact ⟨g x, hmem hx, hgid x, hgaddr x⟩

/-- The value of the entry that is got is set. -/
theorem Kept.put (hk : Kept table) (key : UInt64) (clock : Clock) (value : Option V) :
    Kept (storeValue (sigarCacheGet table key clock).1 (sigarCacheGet table key clock).2.addr value) ∧
    ∀ k, (storeValue (sigarCacheGet table key clock).1 (sigarCacheGet table key clock).2.addr
      value).valueOf k = if k = key then value else table.valueOf k := by
  obtain ⟨hsame, -, hpoints⟩ := hk.get key clock
  obtain ⟨hkept, hvalue, -⟩ := hsame.kept.store hpoints value
  refine ⟨hkept, fun k => ?_⟩
  rw [hvalue, hsame.value]

end Sigar.Cache
