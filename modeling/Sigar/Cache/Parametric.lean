/-
  The table never looks at the values it keeps.

  Changing every value by a function and then working with the table is the same as working with it
  first: `sigarCacheGet_map` and `updateKey_map`, with one lemma for each loop below them.  Two
  tables that agree up to a part of their values therefore go through the same cleanups, rehashes
  and searches.
-/
import Sigar.Cache.Update

namespace Sigar.Cache

open List

variable {V W : Type}

def SigarCacheEntry.mapValue (f : V → W) (entry : SigarCacheEntry V) : SigarCacheEntry W where
  addr := entry.addr
  id := entry.id
  value := entry.value.map f
  lastAccessTime := entry.lastAccessTime

theorem mapValue_addr (f : V → W) (entry : SigarCacheEntry V) :
    (entry.mapValue f).addr = entry.addr := rfl

def SigarCache.mapValues (f : V → W) (table : SigarCache V) : SigarCache W where
  entries := table.entries.map (List.map (SigarCacheEntry.mapValue f))
  count := table.count
  size := table.size
  entryExpirePeriod := table.entryExpirePeriod
  cleanupPeriodMillis := table.cleanupPeriodMillis
  lastCleanupTime := table.lastCleanupTime
  mallocs := table.mallocs

variable (f : V → W)

/-- A change inside one bucket, seen through a map on all of them. -/
theorem modify_map {α β : Type} {f : α → β} {g : α → α} {h : β → β}
    (hfg : ∀ a, h (f a) = f (g a)) (l : List α) (ix : Nat) :
    (l.map f).modify ix h = (l.modify ix g).map f := by
  apply ext_getElem?
  intro i
  rw [getElem?_modify, getElem?_map, getElem?_map, getElem?_modify]
  cases l[i]? with
  | none => rfl
  | some a => grind

/-! ## Rehash -/

theorem rehashChain_map (newSize : Nat) :
    ∀ (chain : List (SigarCacheEntry V)) (newEntries : List (List (SigarCacheEntry V))),
      rehashChain newSize (chain.map (SigarCacheEntry.mapValue f))
          (newEntries.map (List.map (SigarCacheEntry.mapValue f)))
        = (rehashChain newSize chain newEntries).map (List.map (SigarCacheEntry.mapValue f)) := by
  intro chain
  induction chain with
  | nil => intro newEntries; rfl
  | cons entry next ih =>
    intro newEntries
    rw [map_cons, rehashChain, rehashChain, ← ih]
    exact congrArg _ (modify_map (g := (entry :: ·)) (h := (entry.mapValue f :: ·))
      (fun _ => rfl) newEntries (entry.id.toNat % newSize))

theorem rehashBuckets_map (newSize : Nat) :
    ∀ entries newEntries : List (List (SigarCacheEntry V)),
      rehashBuckets newSize (entries.map (List.map (SigarCacheEntry.mapValue f)))
          (newEntries.map (List.map (SigarCacheEntry.mapValue f)))
        = (rehashBuckets newSize entries newEntries).map
            (List.map (SigarCacheEntry.mapValue f)) := by
  intro entries
  induction entries with
  | nil => intro newEntries; rfl
  | cons chain entries ih =>
    intro newEntries
    rw [map_cons, rehashBuckets, rehashBuckets, rehashChain_map, ih]

theorem sigarCacheRehash_map (table : SigarCache V) :
    sigarCacheRehash (table.mapValues f) = (sigarCacheRehash table).mapValues f := by
  have hempty : (replicate (u32 (table.count * 2 + 1)) ([] : List (SigarCacheEntry W)))
      = (replicate (u32 (table.count * 2 + 1)) []).map
          (List.map (SigarCacheEntry.mapValue f)) := by
    rw [map_replicate, map_nil]
  unfold sigarCacheRehash SigarCache.mapValues
  dsimp only
  rw [hempty, rehashBuckets_map]

/-! ## Cleanup -/

theorem cleanupChain_map (expire now : UInt64) :
    ∀ (chain kept : List (SigarCacheEntry V)) (count : Nat),
      cleanupChain expire now (kept.map (SigarCacheEntry.mapValue f))
          (chain.map (SigarCacheEntry.mapValue f)) count
        = ((cleanupChain expire now kept chain count).1.map (SigarCacheEntry.mapValue f),
            (cleanupChain expire now kept chain count).2) := by
  intro chain
  induction chain with
  | nil => intro kept count; rfl
  | cons entry ptr ih =>
    intro kept count
    rw [map_cons]
    unfold cleanupChain
    by_cases hexp : expire < now - entry.lastAccessTime
    · have hexp' : expire < now - (entry.mapValue f).lastAccessTime := hexp
      rw [if_pos hexp, if_pos hexp', ih]
    · have hexp' : ¬ expire < now - (entry.mapValue f).lastAccessTime := hexp
      rw [if_neg hexp, if_neg hexp', ← ih, map_append, map_singleton]

theorem cleanupBuckets_map (expire now : UInt64) :
    ∀ (entries : List (List (SigarCacheEntry V))) (count : Nat),
      cleanupBuckets expire now (entries.map (List.map (SigarCacheEntry.mapValue f))) count
        = ((cleanupBuckets expire now entries count).1.map (List.map (SigarCacheEntry.mapValue f)),
            (cleanupBuckets expire now entries count).2) := by
  intro entries
  induction entries with
  | nil => intro count; rfl
  | cons chain entries ih =>
    intro count
    have hchain := cleanupChain_map f expire now chain [] count
    rw [map_nil] at hchain
    rw [map_cons, cleanupBuckets, cleanupBuckets, hchain]
    dsimp only
    rw [ih]
    rfl

theorem sigarPerformCleanupIfNecessary_map (table : SigarCache V) (now : UInt64) :
    sigarPerformCleanupIfNecessary (table.mapValues f) now
      = (sigarPerformCleanupIfNecessary table now).mapValues f := by
  have hsweep : sweep (table.mapValues f) now = (sweep table now).mapValues f := by
    unfold sweep SigarCache.mapValues
    dsimp only
    rw [cleanupBuckets_map]
  have hdue : CleanupDue (table.mapValues f) now ↔ CleanupDue table now := Iff.rfl
  rcases sigarPerformCleanupIfNecessary_cases table now with ⟨hnot, heq⟩ | ⟨hyes, heq⟩
  · rcases sigarPerformCleanupIfNecessary_cases (table.mapValues f) now with ⟨_, heq'⟩ | ⟨h, _⟩
    · rw [heq, heq']
    · exact absurd (hdue.mp h) hnot
  · rcases sigarPerformCleanupIfNecessary_cases (table.mapValues f) now with ⟨h, _⟩ | ⟨_, heq'⟩
    · exact absurd (hdue.mpr hyes) h
    · have hcount : (sweep (table.mapValues f) now).count = (sweep table now).count := by
        rw [hsweep]; rfl
      have hsize : (table.mapValues f).size = table.size := rfl
      rw [heq, heq', hcount, hsize]
      split
      · rw [hsweep, sigarCacheRehash_map]
      · exact hsweep

/-! ## Lookup -/

theorem chain_map (table : SigarCache V) (ix : Nat) :
    (table.mapValues f).chain ix = (table.chain ix).map (SigarCacheEntry.mapValue f) := by
  grind [SigarCache.chain, SigarCache.mapValues]

theorem chainSearch_map (key : UInt64) : ∀ (chain : List (SigarCacheEntry V)) (pos : Nat),
    chainSearch key (chain.map (SigarCacheEntry.mapValue f)) pos
      = ((chainSearch key chain pos).1,
          (chainSearch key chain pos).2.map (SigarCacheEntry.mapValue f)) := by
  intro chain
  induction chain with
  | nil => intro pos; rfl
  | cons entry next ih =>
    intro pos
    rw [map_cons]
    unfold chainSearch
    by_cases hid : entry.id = key
    · have hid' : (entry.mapValue f).id = key := hid
      rw [if_pos hid, if_pos hid']
      rfl
    · have hid' : ¬ (entry.mapValue f).id = key := hid
      rw [if_neg hid, if_neg hid', ih]

theorem touchSlot_map (table : SigarCache V) (ptr : Slot) (entry : SigarCacheEntry V)
    (now : UInt64) :
    touchSlot (table.mapValues f) ptr (entry.mapValue f) now
      = ((touchSlot table ptr entry now).1.mapValues f,
          (touchSlot table ptr entry now).2.mapValue f) := by
  unfold touchSlot SigarCache.mapValues
  dsimp only
  rw [modify_map (g := (·.set ptr.pos { entry with lastAccessTime := now }))
    (fun chain => by rw [map_set]; rfl)]
  rfl

theorem writeSlot_map (table : SigarCache V) (ptr : Slot) (entry : SigarCacheEntry V) :
    writeSlot (table.mapValues f) ptr (entry.mapValue f)
      = (writeSlot table ptr entry).mapValues f := by
  grind [modify_map, map_take, writeSlot, SigarCache.mapValues]

theorem growAndPlace_map (table : SigarCache V) (key : UInt64) (ptr : Slot) :
    growAndPlace (table.mapValues f) key ptr
      = ((growAndPlace table key ptr).1.mapValues f, (growAndPlace table key ptr).2) := by
  unfold growAndPlace
  dsimp only
  by_cases hfull : u32 (table.count + 1) > table.size
  · have hfull' : u32 ((table.mapValues f).count + 1) > (table.mapValues f).size := hfull
    have hrehash := sigarCacheRehash_map f { table with count := u32 (table.count + 1) }
    have hchain := chain_map f (sigarCacheRehash { table with count := u32 (table.count + 1) })
      (sigarCacheIx (sigarCacheRehash { table with count := u32 (table.count + 1) }) key)
    rw [if_pos hfull, if_pos hfull', chainEnd_eq, chainEnd_eq]
    rw [← length_map (f := SigarCacheEntry.mapValue f), ← hchain, ← hrehash]
    rfl
  · have hfull' : ¬ u32 ((table.mapValues f).count + 1) > (table.mapValues f).size := hfull
    rw [if_neg hfull, if_neg hfull']
    rfl

/-- The new entry at its slot, with the table that has it. -/
def placeNew (grown : SigarCache V × Slot) (key now : UInt64) : SigarCache V × SigarCacheEntry V :=
  let entry := newEntry grown.1 key now
  ({ writeSlot grown.1 grown.2 entry with mallocs := grown.1.mallocs + 1 }, entry)

theorem placeNew_map (table : SigarCache V) (ptr : Slot) (key now : UInt64) :
    placeNew (table.mapValues f, ptr) key now
      = ((placeNew (table, ptr) key now).1.mapValues f,
          (placeNew (table, ptr) key now).2.mapValue f) := by
  have hwrite := writeSlot_map f table ptr (newEntry table key now)
  exact Prod.ext (congrArg (fun t : SigarCache W => ({ t with mallocs := table.mallocs + 1 } :
    SigarCache W)) hwrite) rfl

/-- The search of a key goes to the same place. -/
theorem search_map (table : SigarCache V) (key : UInt64) :
    chainSearch key ((table.mapValues f).chain (sigarCacheIx (table.mapValues f) key)) 0
      = ((chainSearch key (table.chain (sigarCacheIx table key)) 0).1,
          (chainSearch key (table.chain (sigarCacheIx table key)) 0).2.map
            (SigarCacheEntry.mapValue f)) := by
  rw [chain_map, chainSearch_map]
  rfl

/-- **`sigar_cache_get` does not depend on the values.** -/
theorem sigarCacheGet_map (table : SigarCache V) (key : UInt64) (clock : Clock) :
    sigarCacheGet (table.mapValues f) key clock
      = ((sigarCacheGet table key clock).1.mapValues f,
          (sigarCacheGet table key clock).2.mapValue f) := by
  have hswept := sigarPerformCleanupIfNecessary_map f table clock.cleanup
  have hsearch := search_map f (sigarPerformCleanupIfNecessary table clock.cleanup) key
  rcases hs : chainSearch key ((sigarPerformCleanupIfNecessary table clock.cleanup).chain
      (sigarCacheIx (sigarPerformCleanupIfNecessary table clock.cleanup) key)) 0
    with ⟨pos, _ | entry⟩
  · -- a miss in both
    rw [hs] at hsearch
    have hgrown := growAndPlace_map f (sigarPerformCleanupIfNecessary table clock.cleanup) key
      ⟨sigarCacheIx (sigarPerformCleanupIfNecessary table clock.cleanup) key, pos⟩
    rw [sigarCacheGet_miss rfl hs, sigarCacheGet_miss hswept hsearch]
    show placeNew (growAndPlace _ key ⟨sigarCacheIx _ key, pos⟩) key clock.access = _
    exact (congrArg (placeNew · key clock.access) hgrown).trans (placeNew_map f _ _ key _)
  · -- a hit in both
    rw [hs] at hsearch
    rw [sigarCacheGet_hit rfl hs, sigarCacheGet_hit hswept hsearch]
    exact touchSlot_map f _ _ entry clock.access

theorem storeValue_map (table : SigarCache V) (addr : Nat) (value : Option V) :
    storeValue (table.mapValues f) addr (value.map f) = (storeValue table addr value).mapValues f := by
  unfold storeValue SigarCache.mapValues
  dsimp only
  rw [map_map, map_map]
  congr 1
  apply map_congr_left
  intro chain _
  rw [Function.comp_apply, Function.comp_apply, map_map, map_map]
  apply map_congr_left
  intro entry _
  rw [Function.comp_apply, Function.comp_apply]
  by_cases haddr : entry.addr = addr
  · have haddr' : (entry.mapValue f).addr = addr := haddr
    rw [if_pos haddr, if_pos haddr']
    rfl
  · have haddr' : ¬ (entry.mapValue f).addr = addr := haddr
    rw [if_neg haddr, if_neg haddr']

theorem updateKey_map (table : SigarCache V) (key : UInt64) (clock : Clock) (value : Option V) :
    updateKey (table.mapValues f) key clock (value.map f)
      = (updateKey table key clock value).mapValues f := by
  unfold updateKey
  rw [sigarCacheGet_map]
  exact storeValue_map f _ _ value

end Sigar.Cache
