/-
  The idiom of every caller of the cache: `entry = sigar_cache_get(table, key)`, then a value
  stored through `entry`.

  `Owned` adds to a well-formed table that its entries are distinct allocations, so that a store
  through one pointer reaches one entry.  `updateKey_spec` says what the idiom does, without the
  buckets: the key's entry is the one the table had (if its cleanup left it) or a fresh one, it
  now holds the stored value, and every other entry of the result was there before.  The clock
  readings are arbitrary: a cleanup only ever drops entries.
-/
import Sigar.Cache.Invariant

namespace Sigar.Cache

open Buckets List

variable {V : Type} {table : SigarCache V}

/-- The entries are distinct allocations, all made before. -/
structure Owned (table : SigarCache V) : Prop where
  wellFormed : WellFormed table
  addr_nodup : (table.cells.map (·.addr)).Nodup
  addr_lt : ∀ entry ∈ table.cells, entry.addr < table.mallocs

theorem sigarExpiredCacheNew_owned (V : Type) {size : Nat} (hsize : 1 ≤ size)
    (cleanup expire now : UInt64) :
    Owned (sigarExpiredCacheNew V size cleanup expire now) where
  wellFormed := sigarExpiredCacheNew_wellFormed V hsize cleanup expire now
  addr_nodup := by rw [sigarExpiredCacheNew_cells]; exact nodup_nil
  addr_lt entry he := absurd he (not_mem_new V size cleanup expire now entry)

/-- A cleanup leaves a part of the entries, up to their order. -/
theorem sigarPerformCleanupIfNecessary_cells (table : SigarCache V) (now : UInt64) :
    ∃ p : SigarCacheEntry V → Bool,
      (sigarPerformCleanupIfNecessary table now).cells.Perm (table.cells.filter p) := by
  rcases sigarPerformCleanupIfNecessary_cases table now with ⟨_, heq⟩ | ⟨_, heq⟩
  · refine ⟨fun _ => true, ?_⟩
    rw [heq, filter_true]
  · refine ⟨survives table.entryExpirePeriod now, ?_⟩
    rw [heq]
    split
    · rw [← sweep_cells]
      exact (sigarCacheRehash_spec _).2.2
    · rw [sweep_cells]

theorem sigarPerformCleanupIfNecessary_mallocs (table : SigarCache V) (now : UInt64) :
    (sigarPerformCleanupIfNecessary table now).mallocs = table.mallocs := by
  rcases sigarPerformCleanupIfNecessary_cases table now with ⟨_, heq⟩ | ⟨_, heq⟩
  · rw [heq]
  · rw [heq]
    split <;> rfl

theorem mem_of_mem_cleanup {now : UInt64} {entry : SigarCacheEntry V}
    (he : entry ∈ (sigarPerformCleanupIfNecessary table now).cells) : entry ∈ table.cells := by
  obtain ⟨p, hperm⟩ := sigarPerformCleanupIfNecessary_cells table now
  exact (mem_filter.mp (hperm.mem_iff.mp he)).1

theorem Owned.cleanup (ow : Owned table) (now : UInt64) :
    Owned (sigarPerformCleanupIfNecessary table now) where
  wellFormed := sigarPerformCleanupIfNecessary_wellFormed ow.wellFormed now
  addr_nodup := by
    obtain ⟨p, hperm⟩ := sigarPerformCleanupIfNecessary_cells table now
    exact (hperm.map _).nodup_iff.mpr (ow.addr_nodup.sublist (filter_sublist.map _))
  addr_lt := by
    intro entry he
    rw [sigarPerformCleanupIfNecessary_mallocs]
    exact ow.addr_lt entry (mem_of_mem_cleanup he)

theorem Owned.eq_of_addr (ow : Owned table) {a b : SigarCacheEntry V}
    (ha : a ∈ table.cells) (hb : b ∈ table.cells) (haddr : a.addr = b.addr) : a = b :=
  inj_on_of_nodup_map ow.addr_nodup ha hb haddr

/-- Rewriting entries in place keeps them owned when it keeps their ids and addresses. -/
theorem Owned.map_entries (ow : Owned table) {g : SigarCacheEntry V → SigarCacheEntry V}
    (hid : ∀ entry, (g entry).id = entry.id) (haddr : ∀ entry, (g entry).addr = entry.addr) :
    Owned { table with entries := table.entries.map (List.map g) } := by
  have hcells : (table.entries.map (List.map g)).flatten = table.cells.map g :=
    map_flatten.symm
  refine {
    wellFormed := ow.wellFormed.map_entries hid
    addr_nodup := ?_
    addr_lt := ?_ }
  · show ((table.entries.map (List.map g)).flatten.map (·.addr)).Nodup
    have hmap : (table.cells.map g).map (·.addr) = table.cells.map (·.addr) := by
      rw [map_map]
      exact map_congr_left (fun entry _ => haddr entry)
    rw [hcells, hmap]
    exact ow.addr_nodup
  · intro x hx
    have hx' : x ∈ (table.entries.map (List.map g)).flatten := hx
    rw [hcells] at hx'
    obtain ⟨entry, he, rfl⟩ := mem_map.mp hx'
    rw [haddr]
    exact ow.addr_lt entry he

theorem Inserted.mem_cells_iff {swept result : SigarCache V} {new : SigarCacheEntry V}
    (hins : Inserted swept result new) (entry : SigarCacheEntry V) :
    entry ∈ result.cells ↔ entry = new ∨ entry ∈ swept.cells := by
  rw [hins.cells.mem_iff, mem_cons]

/-- Adding the next allocation keeps the entries owned. -/
theorem Owned.inserted (ow : Owned table) {result : SigarCache V} {new : SigarCacheEntry V}
    (hins : Inserted table result new) (hnew : new.addr = table.mallocs) : Owned result where
  wellFormed := hins.wellFormed
  addr_nodup := by
    refine (hins.cells.map _).nodup_iff.mpr ?_
    rw [map_cons, nodup_cons]
    refine ⟨?_, ow.addr_nodup⟩
    intro hin
    obtain ⟨entry, he, haddr⟩ := mem_map.mp hin
    have hlt := ow.addr_lt entry he
    omega
  addr_lt := by
    intro entry he
    rw [hins.mallocs]
    rcases (hins.mem_cells_iff entry).mp he with rfl | he
    · exact Nat.lt_succ_of_le (Nat.le_of_eq hnew)
    · exact Nat.lt_succ_of_lt (ow.addr_lt entry he)

theorem touch_addr (key now : UInt64) (entry : SigarCacheEntry V) :
    (touch key now entry).addr = entry.addr := by
  unfold touch; split <;> rfl

/-- What `sigar_cache_get` hands out: an entry of the key that the table has now, and that is
    either the one it had or a new, empty one. -/
structure Got (table : SigarCache V) (key : UInt64) (result : SigarCache V × SigarCacheEntry V) :
    Prop where
  owned : Owned result.1
  id : result.2.id = key
  mem : result.2 ∈ result.1.cells
  origin : (∃ entry ∈ table.cells, entry.id = key ∧ entry.addr = result.2.addr ∧
      entry.value = result.2.value) ∨
    (result.2.value = none ∧ result.2.addr = table.mallocs)
  others : ∀ entry ∈ result.1.cells, entry.id ≠ key → entry ∈ table.cells
  mallocs : table.mallocs ≤ result.1.mallocs

theorem sigarCacheGet_got (ow : Owned table) (key : UInt64) (clock : Clock) :
    Got table key (sigarCacheGet table key clock) := by
  have hswept := ow.cleanup clock.cleanup
  have hmal := sigarPerformCleanupIfNecessary_mallocs table clock.cleanup
  rcases sigarCacheGet_cases ow.wellFormed key clock with ⟨entry, he, hid, heq⟩ | ⟨_, hnew, hins⟩
  · -- a hit
    rw [heq]
    have hcells : ((sigarPerformCleanupIfNecessary table clock.cleanup).entries.map
        (List.map (touch key clock.access))).flatten
          = (sigarPerformCleanupIfNecessary table clock.cleanup).cells.map
              (touch key clock.access) := map_flatten.symm
    refine {
      owned := hswept.map_entries (touch_id _ _) (touch_addr _ _)
      id := hid
      mem := ?_
      origin := Or.inl ⟨entry, mem_of_mem_cleanup he, hid, rfl, rfl⟩
      others := ?_
      mallocs := Nat.le_of_eq hmal.symm }
    · show { entry with lastAccessTime := clock.access } ∈ List.flatten _
      rw [hcells, ← touch_of_id hid]
      exact mem_map_of_mem he
    · intro x hx hne
      have hx' : x ∈ ((sigarPerformCleanupIfNecessary table clock.cleanup).entries.map
        (List.map (touch key clock.access))).flatten := hx
      rw [hcells] at hx'
      obtain ⟨y, hy, rfl⟩ := mem_map.mp hx'
      rw [touch_id] at hne
      rw [touch_of_ne hne]
      exact mem_of_mem_cleanup hy
  · -- a miss
    refine {
      owned := hswept.inserted hins rfl
      id := by rw [hnew]; rfl
      mem := (hins.mem_cells_iff _).mpr (Or.inl hnew)
      origin := Or.inr ⟨by rw [hnew]; rfl, by rw [hnew]; exact hmal⟩
      others := ?_
      mallocs := by rw [hins.mallocs, hmal]; exact Nat.le_succ _ }
    intro entry he hne
    rcases (hins.mem_cells_iff entry).mp he with rfl | he
    · exact absurd rfl hne
    · exact mem_of_mem_cleanup he

/-! ## Get and store -/

/-- `entry = sigar_cache_get(table, key)` followed by `entry->value = f(entry->value)`. -/
def updateKey (table : SigarCache V) (key : UInt64) (clock : Clock) (value : Option V) :
    SigarCache V :=
  storeValue (sigarCacheGet table key clock).1 (sigarCacheGet table key clock).2.addr value

/-- **What the idiom does to the table.** -/
theorem updateKey_spec (ow : Owned table) (key : UInt64) (clock : Clock) (value : Option V) :
    Owned (updateKey table key clock value) ∧
    (∀ entry ∈ (updateKey table key clock value).cells,
      entry = { (sigarCacheGet table key clock).2 with value := value } ∨
      (entry ∈ table.cells ∧ entry.id ≠ key)) ∧
    table.mallocs ≤ (updateKey table key clock value).mallocs ∧
    (sigarCacheGet table key clock).2.addr < (updateKey table key clock value).mallocs := by
  have hgot := sigarCacheGet_got ow key clock
  let got := (sigarCacheGet table key clock).2
  let g : SigarCacheEntry V → SigarCacheEntry V :=
    fun entry => if entry.addr = got.addr then { entry with value := value } else entry
  have hgid : ∀ entry, (g entry).id = entry.id := by grind
  have hgaddr : ∀ entry, (g entry).addr = entry.addr := by grind
  refine ⟨hgot.owned.map_entries hgid hgaddr, ?_, hgot.mallocs,
    hgot.owned.addr_lt _ hgot.mem⟩
  intro x hx
  have hcells : (updateKey table key clock value).cells
      = (sigarCacheGet table key clock).1.cells.map g := map_flatten.symm
  rw [hcells] at hx
  obtain ⟨entry, he, rfl⟩ := mem_map.mp hx
  by_cases haddr : entry.addr = got.addr
  · left
    obtain rfl : entry = got := hgot.owned.eq_of_addr he hgot.mem haddr
    exact if_pos rfl
  · -- another address is another key: the table has only one entry for each
    right
    have hsame : g entry = entry := if_neg haddr
    have hne : entry.id ≠ key := by
      intro hid
      exact haddr (congrArg _ (hgot.owned.wellFormed.eq_of_id he hgot.mem (hid.trans hgot.id.symm)))
    rw [hsame]
    exact ⟨hgot.others entry he hne, hne⟩

/-- The entry of another key is at another address than the one that is handed out. -/
theorem Got.addr_ne {key : UInt64} {result : SigarCache V × SigarCacheEntry V} (ow : Owned table)
    (hgot : Got table key result) {entry : SigarCacheEntry V} (he : entry ∈ table.cells)
    (hne : entry.id ≠ key) : entry.addr ≠ result.2.addr := by
  intro heq
  rcases hgot.origin with ⟨entry', he', hid, haddr, _⟩ | ⟨_, haddr⟩
  · have hsame := ow.eq_of_addr he he' (heq.trans haddr.symm)
    exact hne (hsame ▸ hid)
  · have hbound := ow.addr_lt entry he
    omega

/-! ## A record for each key -/

/-- Every entry has a value, and the value is as `P` says for the entry's key and address. -/
structure Records (P : UInt64 → Nat → V → Prop) (table : SigarCache V) : Prop where
  owned : Owned table
  each : ∀ entry ∈ table.cells, ∃ value, entry.value = some value ∧ P entry.id entry.addr value

theorem Records.new (P : UInt64 → Nat → V → Prop) {size : Nat} (hsize : 1 ≤ size)
    (cleanup expire now : UInt64) :
    Records P (sigarExpiredCacheNew V size cleanup expire now) where
  owned := sigarExpiredCacheNew_owned V hsize cleanup expire now
  each entry he := absurd he (not_mem_new V size cleanup expire now entry)

/-- `sigar_cache_get` hands out a record, or a new entry without a value. -/
theorem Records.get_cases {P : UInt64 → Nat → V → Prop} (hr : Records P table) (key : UInt64)
    (clock : Clock) :
    (∃ value, (sigarCacheGet table key clock).2.value = some value ∧
      P key (sigarCacheGet table key clock).2.addr value) ∨
    ((sigarCacheGet table key clock).2.value = none ∧
      (sigarCacheGet table key clock).2.addr = table.mallocs) := by
  rcases (sigarCacheGet_got hr.owned key clock).origin with ⟨entry, he, hid, haddr, hvalue⟩ | hnew
  · obtain ⟨value, hsome, hP⟩ := hr.each entry he
    rw [hid, haddr] at hP
    exact Or.inl ⟨value, hvalue.symm.trans hsome, hP⟩
  · exact Or.inr hnew

/-- A record that is replaced, and the others that stay. -/
theorem Records.update {P P' : UInt64 → Nat → V → Prop} (hr : Records P table) (key : UInt64)
    (clock : Clock) {value : V} (hnew : P' key (sigarCacheGet table key clock).2.addr value)
    (hother : ∀ id addr old, id ≠ key → P id addr old → P' id addr old) :
    Records P' (updateKey table key clock (some value)) ∧
    table.mallocs ≤ (updateKey table key clock (some value)).mallocs ∧
    (sigarCacheGet table key clock).2.addr < (updateKey table key clock (some value)).mallocs := by
  obtain ⟨howned, hcells, hmallocs⟩ := updateKey_spec hr.owned key clock (some value)
  refine ⟨⟨howned, fun entry he => ?_⟩, hmallocs⟩
  rcases hcells entry he with rfl | ⟨hold, hne⟩
  · refine ⟨value, rfl, ?_⟩
    rw [(sigarCacheGet_got hr.owned key clock).id]
    exact hnew
  · obtain ⟨old, hsome, hP⟩ := hr.each entry hold
    exact ⟨old, hsome, hother entry.id entry.addr old hne hP⟩

end Sigar.Cache
