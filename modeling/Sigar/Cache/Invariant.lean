/-
  The representation invariant of the cache table, over every run.

  Four code paths change the chains: the append in `sigar_cache_get`, the unlinking in the cleanup,
  and the two rehashes (grow, with `count` already incremented; shrink, after a cleanup).  Each is
  first reduced to what it does to the table's CONTENTS `cells`:

  * a rehash permutes them (`sigarCacheRehash_spec`);
  * a cleanup filters them (`sigarPerformCleanupIfNecessary_cases`);
  * a hit rewrites the entry found and nothing else (`touchSlot_entries`);
  * a miss adds exactly one entry (`sigarCacheGet_cases`).

  `WellFormed` holds after ANY operations: its counter is exact modulo 2^32, because `count` is an
  `unsigned int`, and the size is never 0, because `2 * count + 1` is odd even when it wraps.
  `RepInv` adds the exact count and the load bound, for runs in which `2 * count + 1` fits an int.
-/
import Sigar.Cache.Table
import Sigar.Lib.Buckets
import Sigar.Lib.Runs
import Mathlib.Algebra.GroupWithZero.Nat
import Mathlib.Data.List.Nodup

namespace Sigar.Cache

open Buckets Runs List

variable {size newSize : Nat} {key now : UInt64} {pos : Nat}

variable {V : Type} {table : SigarCache V}

/-- The bucket of an entry in a table of `size` buckets. -/
def home (size : Nat) (entry : SigarCacheEntry V) : Nat := entry.id.toNat % size

/-- The shape every reachable table has, whatever its counter went through. -/
structure WellFormed (table : SigarCache V) : Prop where
  length_eq : table.entries.length = table.size
  size_pos : 1 ≤ table.size
  placed : Placed (home table.size) table.entries
  nodup : (table.cells.map (·.id)).Nodup
  count_mod : table.count = u32 table.cells.length

theorem sigarExpiredCacheNew_cells (V : Type) (size : Nat) (cleanup expire now : UInt64) :
    (sigarExpiredCacheNew V size cleanup expire now).cells = [] := by
  show (replicate size []).flatten = []
  rw [flatten_replicate_nil]

/-- A new table has no entries. -/
theorem not_mem_new (V : Type) (size : Nat) (cleanup expire now : UInt64)
    (entry : SigarCacheEntry V) :
    entry ∉ (sigarExpiredCacheNew V size cleanup expire now).cells := by
  rw [sigarExpiredCacheNew_cells]
  exact not_mem_nil

theorem sigarExpiredCacheNew_wellFormed (V : Type) (hsize : 1 ≤ size)
    (cleanup expire now : UInt64) :
    WellFormed (sigarExpiredCacheNew V size cleanup expire now) where
  length_eq := length_replicate
  size_pos := hsize
  placed := placed_replicate _ size
  nodup := by rw [sigarExpiredCacheNew_cells]; exact nodup_nil
  count_mod := by rw [sigarExpiredCacheNew_cells]; rfl

/-- Two entries of a table with the same id are the same entry. -/
theorem WellFormed.eq_of_id (wf : WellFormed table) {a b : SigarCacheEntry V}
    (ha : a ∈ table.cells) (hb : b ∈ table.cells) (hid : a.id = b.id) : a = b :=
  inj_on_of_nodup_map wf.nodup ha hb hid

/-! ## Rehash -/

/-- The inner loop moves one chain: nothing is lost, and every entry lands in its bucket. -/
theorem rehashChain_spec (hpos : 1 ≤ newSize) :
    ∀ (chain : List (SigarCacheEntry V)) (new : List (List (SigarCacheEntry V))),
      new.length = newSize → Placed (home newSize) new →
      (rehashChain newSize chain new).length = newSize ∧
      Placed (home newSize) (rehashChain newSize chain new) ∧
      (rehashChain newSize chain new).flatten.Perm (chain ++ new.flatten) := by
  intro chain
  induction chain with
  | nil => intro new hlen hp; exact ⟨hlen, hp, Perm.refl _⟩
  | cons entry next ih =>
    intro new hlen hp
    have hix : entry.id.toNat % newSize < new.length := by
      rw [hlen]; exact Nat.mod_lt _ hpos
    have hlen' : (new.modify (entry.id.toNat % newSize) (entry :: ·)).length = newSize := by
      rw [length_modify, hlen]
    have hp' : Placed (home newSize) (new.modify (entry.id.toNat % newSize) (entry :: ·)) := by
      refine placed_modify hp hix ?_
      intro a ha
      rcases mem_cons.mp ha with rfl | ha
      · rfl
      · exact hp _ a ha
    obtain ⟨h1, h2, h3⟩ := ih _ hlen' hp'
    refine ⟨h1, h2, h3.trans ?_⟩
    -- the entry moves from the chain to the front of its bucket
    have hadd : (new.modify (entry.id.toNat % newSize) (entry :: ·)).flatten.Perm
        ([entry] ++ new.flatten) := perm_modify hix (Perm.refl _)
    calc (next ++ (new.modify (entry.id.toNat % newSize) (entry :: ·)).flatten).Perm
          (next ++ ([entry] ++ new.flatten)) := hadd.append_left next
      Perm _ (entry :: next ++ new.flatten) := perm_middle

/-- The outer loop moves every chain. -/
theorem rehashBuckets_spec (hpos : 1 ≤ newSize) :
    ∀ (old new : List (List (SigarCacheEntry V))),
      new.length = newSize → Placed (home newSize) new →
      (rehashBuckets newSize old new).length = newSize ∧
      Placed (home newSize) (rehashBuckets newSize old new) ∧
      (rehashBuckets newSize old new).flatten.Perm (old.flatten ++ new.flatten) := by
  intro old
  induction old with
  | nil => intro new hlen hp; exact ⟨hlen, hp, Perm.refl _⟩
  | cons chain old ih =>
    intro new hlen hp
    obtain ⟨hlen', hp', hperm'⟩ := rehashChain_spec hpos chain new hlen hp
    obtain ⟨h1, h2, h3⟩ := ih _ hlen' hp'
    refine ⟨h1, h2, h3.trans ?_⟩
    rw [flatten_cons, append_assoc]
    calc (old.flatten ++ (rehashChain newSize chain new).flatten).Perm
          (old.flatten ++ (chain ++ new.flatten)) := hperm'.append_left _
      Perm _ (chain ++ (old.flatten ++ new.flatten)) := perm_append_comm_assoc ..

/-- `2 * count + 1` is odd, so the new size is at least 1 even when it wraps. -/
theorem rehash_size_pos (count : Nat) : 1 ≤ u32 (count * 2 + 1) := by
  unfold u32; omega

theorem sigarCacheRehash_spec (table : SigarCache V) :
    (sigarCacheRehash table).entries.length = (sigarCacheRehash table).size ∧
    Placed (home (sigarCacheRehash table).size) (sigarCacheRehash table).entries ∧
    (sigarCacheRehash table).cells.Perm table.cells := by
  have hpos := rehash_size_pos table.count
  obtain ⟨h1, h2, h3⟩ := rehashBuckets_spec hpos table.entries
    (replicate (u32 (table.count * 2 + 1)) []) length_replicate
    (placed_replicate _ _)
  refine ⟨h1, h2, ?_⟩
  rw [flatten_replicate_nil, append_nil] at h3
  exact h3

/-- A rehash keeps a table well formed when its counter is right modulo 2^32. -/
theorem sigarCacheRehash_wellFormed (hnodup : (table.cells.map (·.id)).Nodup)
    (hcount : table.count = u32 table.cells.length) : WellFormed (sigarCacheRehash table) where
  length_eq := (sigarCacheRehash_spec table).1
  size_pos := rehash_size_pos table.count
  placed := (sigarCacheRehash_spec table).2.1
  nodup := ((sigarCacheRehash_spec table).2.2.map _).nodup_iff.mpr hnodup
  count_mod := by
    rw [(sigarCacheRehash_spec table).2.2.length_eq]
    exact hcount

/-! ## Cleanup -/

/-- The entry survives a cleanup that runs at `now`. -/
def survives (expire now : UInt64) (entry : SigarCacheEntry V) : Bool :=
  !decide (expire < now - entry.lastAccessTime)

theorem cleanupChain_fst (expire now : UInt64) :
    ∀ (chain kept : List (SigarCacheEntry V)) (count : Nat),
      (cleanupChain expire now kept chain count).1 = kept ++ chain.filter (survives expire now) := by
  intro chain
  induction chain with
  | nil => intro kept count; exact (append_nil kept).symm
  | cons entry ptr ih =>
    intro kept count
    unfold cleanupChain
    by_cases hexp : expire < now - entry.lastAccessTime
    · rw [if_pos hexp, ih, filter_cons_of_neg (by simp [survives, hexp])]
    · rw [if_neg hexp, ih, filter_cons_of_pos (by simp [survives, hexp]), append_assoc]
      rfl

/-- The counter follows the chain: `n` stands for the entries outside it. -/
theorem cleanupChain_snd (expire now : UInt64) :
    ∀ (chain kept : List (SigarCacheEntry V)) (count n : Nat),
      count = u32 (n + chain.length) →
      (cleanupChain expire now kept chain count).2
        = u32 (n + (chain.filter (survives expire now)).length) := by
  intro chain
  induction chain with
  | nil => intro kept count n hcount; exact hcount
  | cons entry ptr ih =>
    intro kept count n hcount
    rw [length_cons] at hcount
    unfold cleanupChain
    by_cases hexp : expire < now - entry.lastAccessTime
    · rw [if_pos hexp, filter_cons_of_neg (by simp [survives, hexp])]
      -- `count--` adds 2^32 - 1, which undoes the entry that is gone
      refine ih kept _ n ?_
      rw [hcount]
      unfold u32
      omega
    · rw [if_neg hexp, filter_cons_of_pos (by simp [survives, hexp]), length_cons,
        ih (kept ++ [entry]) count (n + 1) (by rw [hcount]; congr 1; omega)]
      congr 1
      omega

theorem cleanupBuckets_fst (expire now : UInt64) :
    ∀ (entries : List (List (SigarCacheEntry V))) (count : Nat),
      (cleanupBuckets expire now entries count).1
        = entries.map (List.filter (survives expire now)) := by
  intro entries
  induction entries with
  | nil => intro count; rfl
  | cons chain entries ih =>
    intro count
    show (cleanupChain expire now [] chain count).1 :: _ = _
    rw [cleanupChain_fst, ih]
    rfl

theorem cleanupBuckets_snd (expire now : UInt64) :
    ∀ (entries : List (List (SigarCacheEntry V))) (count n : Nat),
      count = u32 (n + entries.flatten.length) →
      (cleanupBuckets expire now entries count).2
        = u32 (n + (entries.flatten.filter (survives expire now)).length) := by
  intro entries
  induction entries with
  | nil => intro count n hcount; exact hcount
  | cons chain entries ih =>
    intro count n hcount
    rw [flatten_cons, length_append] at hcount
    have hchain := cleanupChain_snd expire now chain [] count (n + entries.flatten.length)
      (by rw [hcount]; congr 1; omega)
    have hrest := ih (cleanupChain expire now [] chain count).2
      (n + (chain.filter (survives expire now)).length) (by rw [hchain]; congr 1; omega)
    show (cleanupBuckets expire now entries (cleanupChain expire now [] chain count).2).2 = _
    rw [hrest, flatten_cons, filter_append, length_append]
    congr 1
    omega

/-- The table between the cleanup's loops and its rehash. -/
def sweep (table : SigarCache V) (now : UInt64) : SigarCache V :=
  { table with
    entries := (cleanupBuckets table.entryExpirePeriod now table.entries table.count).1
    count := (cleanupBuckets table.entryExpirePeriod now table.entries table.count).2
    lastCleanupTime := now }

theorem sweep_cells (table : SigarCache V) (now : UInt64) :
    (sweep table now).cells = table.cells.filter (survives table.entryExpirePeriod now) := by
  show (cleanupBuckets _ now table.entries table.count).1.flatten = _
  rw [cleanupBuckets_fst, ← filter_flatten]
  rfl

theorem sweep_count (wf : WellFormed table) (now : UInt64) :
    (sweep table now).count = u32 (sweep table now).cells.length := by
  have hcount : table.count = u32 (0 + table.entries.flatten.length) := by
    rw [Nat.zero_add]; exact wf.count_mod
  rw [sweep_cells]
  exact (cleanupBuckets_snd _ now table.entries table.count 0 hcount).trans
    (congrArg u32 (Nat.zero_add _))

theorem sweep_wellFormed (wf : WellFormed table) (now : UInt64) :
    WellFormed (sweep table now) where
  length_eq := by
    show (cleanupBuckets _ now table.entries table.count).1.length = table.size
    rw [cleanupBuckets_fst, length_map, wf.length_eq]
  size_pos := wf.size_pos
  placed := by
    show Placed _ (cleanupBuckets _ now table.entries table.count).1
    rw [cleanupBuckets_fst]
    exact placed_map_filter _ wf.placed
  nodup := by
    rw [sweep_cells]
    exact wf.nodup.sublist (filter_sublist.map _)
  count_mod := sweep_count wf now

/-- The cleanup is due at `now`: the table has a cleanup period, and it has passed. -/
def CleanupDue (table : SigarCache V) (now : UInt64) : Prop :=
  table.cleanupPeriodMillis ≠ sigarFieldNotImpl ∧
  ¬ now - table.lastCleanupTime < table.cleanupPeriodMillis

/-- **What a cleanup can do**: nothing when it is not due; otherwise it sweeps, and may rehash. -/
theorem sigarPerformCleanupIfNecessary_cases (table : SigarCache V) (now : UInt64) :
    (¬ CleanupDue table now ∧ sigarPerformCleanupIfNecessary table now = table) ∨
    (CleanupDue table now ∧
      sigarPerformCleanupIfNecessary table now
        = if (sweep table now).count < table.size / 4 then sigarCacheRehash (sweep table now)
          else sweep table now) := by
  unfold sigarPerformCleanupIfNecessary CleanupDue
  by_cases hnone : table.cleanupPeriodMillis = sigarFieldNotImpl
  · rw [if_pos hnone]
    exact Or.inl ⟨fun h => h.1 hnone, rfl⟩
  · by_cases hearly : now - table.lastCleanupTime < table.cleanupPeriodMillis
    · simp [hnone, hearly, Or.inl]
    · rw [if_neg hnone, if_neg hearly]
      exact Or.inr ⟨⟨hnone, hearly⟩, rfl⟩

theorem sigarPerformCleanupIfNecessary_wellFormed (wf : WellFormed table) (now : UInt64) :
    WellFormed (sigarPerformCleanupIfNecessary table now) := by
  have hsweep := sweep_wellFormed wf now
  rcases sigarPerformCleanupIfNecessary_cases table now with ⟨_, heq⟩ | ⟨_, heq⟩
  · rw [heq]; exact wf
  · rw [heq]
    split
    · exact sigarCacheRehash_wellFormed hsweep.nodup hsweep.count_mod
    · exact hsweep

/-! ## Lookup -/

theorem chainSearch_none :
    ∀ {chain : List (SigarCacheEntry V)} {pos p : Nat}, chainSearch key chain pos = (p, none) →
      p = pos + chain.length ∧ ∀ entry ∈ chain, entry.id ≠ key := by
  intro chain
  induction chain with
  | nil =>
    intro pos p h
    obtain ⟨rfl, -⟩ := Prod.mk.inj h
    exact ⟨rfl, fun entry he => absurd he not_mem_nil⟩
  | cons entry next ih => grind [chainSearch]

theorem chainSearch_some {entry : SigarCacheEntry V} :
    ∀ {chain : List (SigarCacheEntry V)} {pos p : Nat},
      chainSearch key chain pos = (p, some entry) →
      entry.id = key ∧ ∃ i, p = pos + i ∧ chain[i]? = some entry := by
  intro chain
  induction chain with
  | nil => intro pos p h; exact absurd (Prod.mk.inj h).2 (by simp)
  | cons e next ih =>
    intro pos p h
    unfold chainSearch at h
    by_cases hid : e.id = key
    · rw [if_pos hid] at h
      obtain ⟨hp, he⟩ := Prod.mk.inj h
      obtain rfl : e = entry := Option.some.inj he
      exact ⟨hid, 0, hp.symm, rfl⟩
    · rw [if_neg hid] at h
      obtain ⟨hkey, i, hp, hi⟩ := ih h
      exact ⟨hkey, i + 1, by omega, hi⟩

theorem chainEnd_eq : ∀ (chain : List (SigarCacheEntry V)) (pos : Nat),
    chainEnd chain pos = pos + chain.length := by
  intro chain
  induction chain with
  | nil => intro pos; rfl
  | cons entry next ih => intro pos; rw [chainEnd, ih, length_cons]; omega

/-- What a hit does to an entry. -/
def touch (key now : UInt64) (entry : SigarCacheEntry V) : SigarCacheEntry V :=
  if entry.id = key then { entry with lastAccessTime := now } else entry

@[simp] theorem touch_id (key now : UInt64) (entry : SigarCacheEntry V) :
    (touch key now entry).id = entry.id := by
  unfold touch; split <;> rfl

theorem touch_of_id {entry : SigarCacheEntry V} (h : entry.id = key) :
    touch key now entry = { entry with lastAccessTime := now } := if_pos h

theorem touch_of_ne {entry : SigarCacheEntry V} (h : entry.id ≠ key) :
    touch key now entry = entry := if_neg h

theorem WellFormed.chain_nodup (wf : WellFormed table) (ix : Nat) :
    ((table.chain ix).map (·.id)).Nodup := by
  unfold SigarCache.chain
  rcases Nat.lt_or_ge ix table.entries.length with hix | hix
  · rw [getD_eq_getElem?_getD, getElem?_eq_getElem hix]
    exact wf.nodup.sublist ((sublist_flatten_of_mem (getElem_mem hix)).map _)
  · grind

/-- Writing the found entry back is touching the whole chain: its key occurs only there. -/
theorem set_eq_map_touch {chain : List (SigarCacheEntry V)} {entry : SigarCacheEntry V} {i : Nat}
    (hnodup : (chain.map (·.id)).Nodup) (hi : chain[i]? = some entry) (hid : entry.id = key) :
    chain.set i { entry with lastAccessTime := now } = chain.map (touch key now) := by
  apply ext_getElem?
  intro j
  rw [getElem?_set, getElem?_map]
  by_cases hij : i = j
  · grind [touch_of_id]
  · rw [if_neg hij]
    cases hj : chain[j]? with
    | none => rfl
    | some e =>
      -- two positions with the key would break `hnodup`
      have hne : e.id ≠ key := by
        intro hek
        have hlt : i < (chain.map (·.id)).length := by
          rw [length_map]; exact (List.getElem?_eq_some_iff.mp hi).1
        refine hij ((getElem?_inj hlt hnodup).mp ?_)
        rw [getElem?_map, getElem?_map, hi, hj, Option.map_some, Option.map_some, hid, hek]
      rw [Option.map_some, touch_of_ne hne]

/-- **What a hit does to the table**: it touches the entry found, and nothing else. -/
theorem touchSlot_entries (wf : WellFormed table) {entry : SigarCacheEntry V}
    (hs : chainSearch key (table.chain (sigarCacheIx table key)) 0 = (pos, some entry)) :
    (touchSlot table ⟨sigarCacheIx table key, pos⟩ entry now).1
      = { table with entries := table.entries.map (List.map (touch key now)) } := by
  obtain ⟨hid, i, hpos, hi⟩ := chainSearch_some hs
  obtain rfl : pos = i := by omega
  have hmap : table.entries.modify (sigarCacheIx table key)
      (·.set pos { entry with lastAccessTime := now })
        = table.entries.map (List.map (touch key now)) := by
    refine modify_eq_map wf.placed (set_eq_map_touch (wf.chain_nodup _) hi hid) ?_
    intro a ha
    refine touch_of_ne ?_
    intro hak
    exact ha (by rw [home, hak]; rfl)
  show { table with
    entries := table.entries.modify (sigarCacheIx table key)
      (·.set pos { entry with lastAccessTime := now }) } = _
  rw [hmap]

/-- Rewriting entries in place keeps a table well formed when it keeps their ids. -/
theorem WellFormed.map_entries (wf : WellFormed table)
    {g : SigarCacheEntry V → SigarCacheEntry V} (hg : ∀ entry, (g entry).id = entry.id) :
    WellFormed { table with entries := table.entries.map (List.map g) } where
  length_eq := by rw [length_map]; exact wf.length_eq
  size_pos := wf.size_pos
  placed := placed_map_map (fun entry => by rw [home, home, hg]) wf.placed
  nodup := by
    have hids : ((table.entries.map (List.map g)).flatten.map (·.id)) = table.cells.map (·.id) := by
      rw [← map_flatten, map_map]
      exact map_congr_left fun entry _ => hg entry
    show ((table.entries.map (List.map g)).flatten.map (·.id)).Nodup
    rw [hids]
    exact wf.nodup
  count_mod := by
    show table.count = u32 (table.entries.map (List.map g)).flatten.length
    rw [← map_flatten, length_map]
    exact wf.count_mod

/-- A key that the search does not find in its bucket is nowhere in the table. -/
theorem WellFormed.not_mem_of_search (wf : WellFormed table)
    (hs : chainSearch key (table.chain (sigarCacheIx table key)) 0 = (pos, none)) :
    ∀ entry ∈ table.cells, entry.id ≠ key := by
  intro entry he hid
  refine (chainSearch_none hs).2 entry ?_ hid
  exact (mem_bucket_iff wf.placed _ entry).mpr ⟨he, by rw [home, hid]; rfl⟩

/-- An entry that the search finds is in the table, under the key. -/
theorem mem_cells_of_search {entry : SigarCacheEntry V} {ix : Nat}
    (hs : chainSearch key (table.chain ix) 0 = (pos, some entry)) :
    entry ∈ table.cells ∧ entry.id = key := by
  obtain ⟨hid, i, -, hi⟩ := chainSearch_some hs
  exact ⟨(mem_flatten_iff entry).mpr ⟨ix, mem_of_getElem? hi⟩, hid⟩

/-! ## Insertion -/

/-- The table that `growAndPlace` hands to the write, and the slot it chose: the contents are as
    before, the counter has moved, and the slot is the end of the key's chain. -/
structure Grown (swept grown : SigarCache V) (key : UInt64) (ptr : Slot) : Prop where
  length_eq : grown.entries.length = grown.size
  size_pos : 1 ≤ grown.size
  placed : Placed (home grown.size) grown.entries
  cells : grown.cells.Perm swept.cells
  count : grown.count = u32 (swept.count + 1)
  load : grown.count ≤ grown.size ∨ grown.size = u32 (grown.count * 2 + 1)
  bucket : ptr.bucket = sigarCacheIx grown key
  pos : ptr.pos = (grown.chain ptr.bucket).length
  expire : grown.entryExpirePeriod = swept.entryExpirePeriod
  period : grown.cleanupPeriodMillis = swept.cleanupPeriodMillis
  lastCleanup : grown.lastCleanupTime = swept.lastCleanupTime
  mallocs : grown.mallocs = swept.mallocs

/-- The slot left by the search is still the end of the chain unless the table was rehashed, and
    then it is computed again. -/
theorem growAndPlace_spec (wf : WellFormed table) (key : UInt64) :
    Grown table
      (growAndPlace table key
        ⟨sigarCacheIx table key, (table.chain (sigarCacheIx table key)).length⟩).1 key
      (growAndPlace table key
        ⟨sigarCacheIx table key, (table.chain (sigarCacheIx table key)).length⟩).2 := by
  unfold growAndPlace
  dsimp only
  by_cases hfull : u32 (table.count + 1) > table.size
  · rw [if_pos hfull]
    obtain ⟨hlen, hplaced, hcells⟩ :=
      sigarCacheRehash_spec { table with count := u32 (table.count + 1) }
    exact {
      length_eq := hlen
      size_pos := rehash_size_pos _
      placed := hplaced
      cells := hcells
      count := rfl
      load := Or.inr rfl
      bucket := rfl
      pos := (chainEnd_eq _ 0).trans (Nat.zero_add _)
      expire := rfl
      period := rfl
      lastCleanup := rfl
      mallocs := rfl }
  · rw [if_neg hfull]
    exact {
      length_eq := wf.length_eq
      size_pos := wf.size_pos
      placed := wf.placed
      cells := Perm.refl _
      count := rfl
      load := Or.inl (Nat.le_of_not_gt hfull)
      bucket := rfl
      pos := rfl
      expire := rfl
      period := rfl
      lastCleanup := rfl
      mallocs := rfl }

/-- `result` is `swept` with the entry `new` added. -/
structure Inserted (swept result : SigarCache V) (new : SigarCacheEntry V) : Prop where
  wellFormed : WellFormed result
  cells : result.cells.Perm (new :: swept.cells)
  count : result.count = u32 (swept.count + 1)
  load : result.count ≤ result.size ∨ result.size = u32 (result.count * 2 + 1)
  expire : result.entryExpirePeriod = swept.entryExpirePeriod
  period : result.cleanupPeriodMillis = swept.cleanupPeriodMillis
  lastCleanup : result.lastCleanupTime = swept.lastCleanupTime
  mallocs : result.mallocs = swept.mallocs + 1

/-- Writing an entry with a new key at the end of its chain inserts it. -/
theorem writeSlot_inserted {grown : SigarCache V} {ptr : Slot} {new : SigarCacheEntry V}
    (wf : WellFormed table) (hg : Grown table grown new.id ptr)
    (hfresh : ∀ entry ∈ table.cells, entry.id ≠ new.id) :
    Inserted table { writeSlot grown ptr new with mallocs := grown.mallocs + 1 } new := by
  have hix : ptr.bucket < grown.entries.length := by
    rw [hg.bucket, hg.length_eq]
    exact Nat.mod_lt _ hg.size_pos
  -- nothing is cut off: the slot is at the end of the chain
  have htake : (grown.entries.getD ptr.bucket []).take ptr.pos = grown.entries.getD ptr.bucket [] :=
    take_of_length_le (Nat.le_of_eq hg.pos.symm)
  have hcells : (grown.entries.modify ptr.bucket
      (fun chain => chain.take ptr.pos ++ [new])).flatten.Perm (new :: table.cells) := by
    have hadd : (grown.entries.modify ptr.bucket
        (fun chain => chain.take ptr.pos ++ [new])).flatten.Perm
          ([new] ++ grown.entries.flatten) := by
      refine perm_modify hix ?_
      rw [htake]
      exact perm_append_comm
    exact hadd.trans (hg.cells.cons new)
  refine {
    wellFormed := ?_
    cells := hcells
    count := hg.count
    load := hg.load
    expire := hg.expire
    period := hg.period
    lastCleanup := hg.lastCleanup
    mallocs := by rw [hg.mallocs] }
  refine {
    length_eq := (length_modify ..).trans hg.length_eq
    size_pos := hg.size_pos
    placed := placed_modify hg.placed hix ?_
    nodup := ?_
    count_mod := ?_ }
  · intro a ha
    rw [htake] at ha
    rcases mem_append.mp ha with ha | ha
    · exact hg.placed _ a ha
    · rw [mem_singleton.mp ha, hg.bucket]
      rfl
  · refine (hcells.map _).nodup_iff.mpr ?_
    rw [map_cons, nodup_cons]
    refine ⟨?_, wf.nodup⟩
    intro hmem
    obtain ⟨entry, he, hid⟩ := mem_map.mp hmem
    exact hfresh entry he hid
  · show grown.count = u32 (grown.entries.modify ptr.bucket _).flatten.length
    rw [hcells.length_eq, hg.count, wf.count_mod, length_cons]
    unfold u32
    omega

/-- The entry that a miss creates. -/
def newEntry (table : SigarCache V) (key now : UInt64) : SigarCacheEntry V :=
  { addr := table.mallocs, id := key, value := none, lastAccessTime := now }

section Outcome

-- the table after the cleanup, and what the search of its chain returned
variable {key : UInt64} {clock : Clock} {swept : SigarCache V} {pos : Nat}
  {entry : SigarCacheEntry V}
  (hswept : sigarPerformCleanupIfNecessary table clock.cleanup = swept)

include hswept

theorem sigarCacheGet_hit
    (hs : chainSearch key (swept.chain (sigarCacheIx swept key)) 0 = (pos, some entry)) :
    sigarCacheGet table key clock
      = touchSlot swept ⟨sigarCacheIx swept key, pos⟩ entry clock.access := by
  unfold sigarCacheGet
  dsimp only
  rw [hswept, hs]

theorem sigarCacheGet_miss
    (hs : chainSearch key (swept.chain (sigarCacheIx swept key)) 0 = (pos, none)) :
    let grown := growAndPlace swept key ⟨sigarCacheIx swept key, pos⟩
    let entry := newEntry grown.1 key clock.access
    sigarCacheGet table key clock
      = ({ writeSlot grown.1 grown.2 entry with mallocs := grown.1.mallocs + 1 }, entry) := by
  unfold sigarCacheGet
  dsimp only
  rw [hswept, hs]
  rfl

theorem sigarCacheFind_hit
    (hs : chainSearch key (swept.chain (sigarCacheIx swept key)) 0 = (pos, some entry)) :
    sigarCacheFind table key clock
      = ((touchSlot swept ⟨sigarCacheIx swept key, pos⟩ entry clock.access).1,
         some { entry with lastAccessTime := clock.access }) := by
  unfold sigarCacheFind
  dsimp only
  rw [hswept, hs]
  rfl

theorem sigarCacheFind_miss
    (hs : chainSearch key (swept.chain (sigarCacheIx swept key)) 0 = (pos, none)) :
    sigarCacheFind table key clock = (swept, none) := by
  unfold sigarCacheFind
  dsimp only
  rw [hswept, hs]

end Outcome

/-- **What `sigar_cache_get` can do** after its cleanup: touch the entry it finds, or insert a new
    one under a key that no entry has. -/
theorem sigarCacheGet_cases (wf : WellFormed table) (key : UInt64) (clock : Clock) :
    let swept := sigarPerformCleanupIfNecessary table clock.cleanup
    (∃ entry ∈ swept.cells, entry.id = key ∧
      sigarCacheGet table key clock
        = ({ swept with entries := swept.entries.map (List.map (touch key clock.access)) },
           { entry with lastAccessTime := clock.access })) ∨
    ((∀ entry ∈ swept.cells, entry.id ≠ key) ∧
      (sigarCacheGet table key clock).2 = newEntry swept key clock.access ∧
      Inserted swept (sigarCacheGet table key clock).1 (newEntry swept key clock.access)) := by
  intro swept
  have hwf : WellFormed swept := sigarPerformCleanupIfNecessary_wellFormed wf clock.cleanup
  rcases hs : chainSearch key (swept.chain (sigarCacheIx swept key)) 0 with ⟨pos, _ | entry⟩
  · -- a miss: `pos` is the end of the chain
    right
    have hfresh := hwf.not_mem_of_search hs
    obtain rfl : pos = (swept.chain (sigarCacheIx swept key)).length :=
      (chainSearch_none hs).1.trans (Nat.zero_add _)
    have hg := growAndPlace_spec hwf key
    have hnew : newEntry (growAndPlace swept key ⟨sigarCacheIx swept key,
        (swept.chain (sigarCacheIx swept key)).length⟩).1 key clock.access
          = newEntry swept key clock.access := by
      unfold newEntry; rw [hg.mallocs]
    rw [sigarCacheGet_miss rfl hs, hnew]
    exact ⟨hfresh, rfl, writeSlot_inserted hwf hg hfresh⟩
  · -- a hit
    left
    obtain ⟨hmem, hid⟩ := mem_cells_of_search hs
    refine ⟨entry, hmem, hid, ?_⟩
    rw [sigarCacheGet_hit rfl hs]
    exact Prod.ext (touchSlot_entries hwf hs) rfl

/-- **What `sigar_cache_find` can do** after its cleanup: touch the entry it finds, or return
    `NULL` for a key that no entry has. -/
theorem sigarCacheFind_cases (wf : WellFormed table) (key : UInt64) (clock : Clock) :
    let swept := sigarPerformCleanupIfNecessary table clock.cleanup
    (∃ entry ∈ swept.cells, entry.id = key ∧
      sigarCacheFind table key clock
        = ({ swept with entries := swept.entries.map (List.map (touch key clock.access)) },
           some { entry with lastAccessTime := clock.access })) ∨
    ((∀ entry ∈ swept.cells, entry.id ≠ key) ∧ sigarCacheFind table key clock = (swept, none)) := by
  intro swept
  have hwf : WellFormed swept := sigarPerformCleanupIfNecessary_wellFormed wf clock.cleanup
  rcases hs : chainSearch key (swept.chain (sigarCacheIx swept key)) 0 with ⟨pos, _ | entry⟩
  · right
    exact ⟨hwf.not_mem_of_search hs, sigarCacheFind_miss rfl hs⟩
  · left
    obtain ⟨hmem, hid⟩ := mem_cells_of_search hs
    refine ⟨entry, hmem, hid, ?_⟩
    rw [sigarCacheFind_hit rfl hs, touchSlot_entries hwf hs]

/-- Every operation keeps the table well formed, whatever its counter. -/
theorem cacheStep_wellFormed (wf : WellFormed table) (op : CacheOp V) :
    WellFormed (cacheStep table op).1 := by
  cases op with
  | get key clock =>
    show WellFormed (sigarCacheGet table key clock).1
    rcases sigarCacheGet_cases wf key clock with ⟨entry, _, _, heq⟩ | ⟨_, _, hins⟩
    · rw [heq]
      exact (sigarPerformCleanupIfNecessary_wellFormed wf clock.cleanup).map_entries (touch_id _ _)
    · exact hins.wellFormed
  | find key clock =>
    show WellFormed (sigarCacheFind table key clock).1
    rcases sigarCacheFind_cases wf key clock with ⟨entry, _, _, heq⟩ | ⟨_, heq⟩
    · rw [heq]
      exact (sigarPerformCleanupIfNecessary_wellFormed wf clock.cleanup).map_entries (touch_id _ _)
    · rw [heq]
      exact sigarPerformCleanupIfNecessary_wellFormed wf clock.cleanup
  | store addr value =>
    refine wf.map_entries ?_
    intro entry
    split <;> rfl

/-! ## The exact counter and the load bound -/

/-- The representation invariant: the counter is exact, every entry sits in its bucket, no id
    occurs twice, there is a bucket, and there are at least as many buckets as entries. -/
structure RepInv (table : SigarCache V) : Prop where
  count_eq : table.count = (table.entries.map List.length).sum
  length_eq : table.entries.length = table.size
  placed : ∀ ix, ∀ entry ∈ table.chain ix, entry.id.toNat % table.size = ix
  nodup : (table.cells.map (·.id)).Nodup
  size_pos : 1 ≤ table.size
  count_le : table.count ≤ table.size

/-- The table is well formed, its counter is exact and its load at most one. -/
structure Counted (table : SigarCache V) : Prop where
  wellFormed : WellFormed table
  exact : table.count = table.cells.length
  load : table.count ≤ table.size

theorem Counted.repInv (hc : Counted table) : RepInv table where
  count_eq := by rw [hc.exact]; exact length_flatten
  length_eq := hc.wellFormed.length_eq
  placed := hc.wellFormed.placed
  nodup := hc.wellFormed.nodup
  size_pos := hc.wellFormed.size_pos
  count_le := hc.load

/-- `2 * count + 1` fits an int. -/
def CountFits (table : SigarCache V) : Prop := 2 * table.count + 1 ≤ intMax

instance (table : SigarCache V) : Decidable (CountFits table) :=
  inferInstanceAs (Decidable (_ ≤ _))

theorem sigarCacheRehash_counted (hfit : CountFits table)
    (hnodup : (table.cells.map (·.id)).Nodup) (hexact : table.count = table.cells.length) :
    Counted (sigarCacheRehash table) := by
  have hsmall : table.count * 2 + 1 < 4294967296 := by
    unfold CountFits intMax at hfit; omega
  refine {
    wellFormed := sigarCacheRehash_wellFormed hnodup ?_
    exact := ?_
    load := ?_ }
  · rw [← hexact, u32, Nat.mod_eq_of_lt (by omega)]
  · rw [(sigarCacheRehash_spec table).2.2.length_eq]
    exact hexact
  · show table.count ≤ u32 (table.count * 2 + 1)
    rw [u32, Nat.mod_eq_of_lt hsmall]
    omega

theorem sigarPerformCleanupIfNecessary_counted (hc : Counted table) (hfit : CountFits table)
    (now : UInt64) :
    Counted (sigarPerformCleanupIfNecessary table now) ∧
    (sigarPerformCleanupIfNecessary table now).count ≤ table.count := by
  have hwf := sweep_wellFormed hc.wellFormed now
  have hle : (sweep table now).cells.length ≤ table.cells.length := by
    rw [sweep_cells]; exact length_filter_le ..
  -- a sweep only shortens the table, so what fitted before fits after it
  have hexact : (sweep table now).count = (sweep table now).cells.length := by
    rw [hwf.count_mod, u32, Nat.mod_eq_of_lt]
    have := hc.exact
    unfold CountFits intMax at hfit
    omega
  have hcle : (sweep table now).count ≤ table.count := by
    rw [hexact, hc.exact]; exact hle
  rcases sigarPerformCleanupIfNecessary_cases table now with ⟨_, heq⟩ | ⟨_, heq⟩
  · rw [heq]; exact ⟨hc, Nat.le_refl _⟩
  · rw [heq]
    split
    · have hfit' : CountFits (sweep table now) := by unfold CountFits at *; omega
      exact ⟨sigarCacheRehash_counted hfit' hwf.nodup hexact, hcle⟩
    · exact ⟨{ wellFormed := hwf, exact := hexact, load := Nat.le_trans hcle hc.load }, hcle⟩

theorem Counted.map_entries (hc : Counted table)
    {g : SigarCacheEntry V → SigarCacheEntry V} (hg : ∀ entry, (g entry).id = entry.id) :
    Counted { table with entries := table.entries.map (List.map g) } where
  wellFormed := hc.wellFormed.map_entries hg
  exact := by
    show table.count = (table.entries.map (List.map g)).flatten.length
    rw [← map_flatten, length_map]
    exact hc.exact
  load := hc.load

/-- One operation keeps the counted table, as long as the counter still fits afterwards. -/
theorem cacheStep_counted (hc : Counted table) (hfit : CountFits table) (op : CacheOp V)
    (hfit' : CountFits (cacheStep table op).1) : Counted (cacheStep table op).1 := by
  cases op with
  | get key clock =>
    obtain ⟨hswept, hle⟩ := sigarPerformCleanupIfNecessary_counted hc hfit clock.cleanup
    show Counted (sigarCacheGet table key clock).1
    rcases sigarCacheGet_cases hc.wellFormed key clock with ⟨entry, _, _, heq⟩ | ⟨_, _, hins⟩
    · rw [heq]
      exact hswept.map_entries (touch_id _ _)
    · -- `hfit'` is about the table after the insertion: there the new size does not wrap
      have hcount : (sigarCacheGet table key clock).1.count
          = (sigarPerformCleanupIfNecessary table clock.cleanup).count + 1 := by
        rw [hins.count, u32, Nat.mod_eq_of_lt]
        unfold CountFits intMax at hfit
        omega
      refine { wellFormed := hins.wellFormed, exact := ?_, load := ?_ }
      · rw [hcount, hins.cells.length_eq, length_cons, hswept.exact]
      · rcases hins.load with h | h
        · exact h
        · have hfit'' : 2 * (sigarCacheGet table key clock).1.count + 1 ≤ intMax := hfit'
          unfold intMax at hfit''
          rw [h, u32, Nat.mod_eq_of_lt (by omega)]
          omega
  | find key clock =>
    obtain ⟨hswept, -⟩ := sigarPerformCleanupIfNecessary_counted hc hfit clock.cleanup
    show Counted (sigarCacheFind table key clock).1
    rcases sigarCacheFind_cases hc.wellFormed key clock with ⟨entry, _, _, heq⟩ | ⟨_, heq⟩
    · rw [heq]
      exact hswept.map_entries (touch_id _ _)
    · rw [heq]
      exact hswept
  | store addr value =>
    refine hc.map_entries ?_
    intro entry
    split <;> rfl

theorem sigarExpiredCacheNew_counted (V : Type) (hsize : 1 ≤ size) (cleanup expire now : UInt64) :
    Counted (sigarExpiredCacheNew V size cleanup expire now) where
  wellFormed := sigarExpiredCacheNew_wellFormed V hsize cleanup expire now
  exact := by rw [sigarExpiredCacheNew_cells]; rfl
  load := Nat.zero_le _

/-- **The representation invariant holds after every operation** of every run on a table created
    with at least one bucket (by `sigar_expired_cache_new` with any periods, so also by
    `sigar_cache_new`): any keys, any clock readings, also decreasing ones, as long as
    `2 * count + 1` fits an int after each operation. -/
theorem sigarCache_run_repInv {size : Nat} (hsize : 1 ≤ size) (cleanup expire now : UInt64)
    (ops : List (CacheOp V))
    (hfit : Along cacheStep (fun table op => CountFits (cacheStep table op).1)
      (sigarExpiredCacheNew V size cleanup expire now) ops) :
    RepInv (exec cacheStep (sigarExpiredCacheNew V size cleanup expire now) ops).1 := by
  have hrun := exec_invariant cacheStep (fun table op => CountFits (cacheStep table op).1)
    (fun table : SigarCache V => Counted table ∧ CountFits table)
    (fun table op hinv hG => ⟨cacheStep_counted hinv.1 hinv.2 op hG, hG⟩)
    ops (sigarExpiredCacheNew V size cleanup expire now)
    ⟨sigarExpiredCacheNew_counted V hsize cleanup expire now, by
      show 2 * 0 + 1 ≤ intMax; decide⟩ hfit
  exact hrun.1.repInv

/-- Two keys in a table of one bucket, which grows to five buckets, and a clock that goes back; then
    a cleanup that drops both entries and shrinks the table. -/
def growAndShrink : List (CacheOp Nat) :=
  [.get 5 ⟨8, 9⟩, .get 6 ⟨10, 11⟩, .find 5 ⟨9, 8⟩, .find 5 ⟨4000, 4000⟩]

theorem sigarCache_run_repInv_example :
    ((growAndShrink.inits.map fun ops =>
        (exec cacheStep (sigarExpiredCacheNew Nat 1 1000 500 7) ops).1).map fun table =>
          (table.count, table.size)) = [(0, 1), (1, 1), (2, 5), (2, 5), (0, 1)] ∧
    RepInv (exec cacheStep (sigarExpiredCacheNew Nat 1 1000 500 7) growAndShrink).1 := by
  refine ⟨by decide +kernel, sigarCache_run_repInv (by decide) 1000 500 7 _ ?_⟩
  exact ⟨by decide, by decide, by decide, by decide, trivial⟩

end Sigar.Cache
