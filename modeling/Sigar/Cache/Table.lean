/-
  The hash table of `src/sigar_cache.c`, "to cache values where key is a unique number".

  A table is an array of chains.  The model keeps the chains as lists and makes explicit the two
  places where the C code works through pointers:

  * `Slot` is a `sigar_cache_entry_t **` into the table — bucket and position in its chain.  The
    search loop leaves `ptr` at the slot where it stopped, and `sigar_cache_get` writes the new
    entry there; the slot is computed again only on the rehash path.  `writeSlot` is that write:
    the new entry's `next` is `NULL`, so whatever the chain held from the slot on is cut off.
  * `cleanupChain` carries the part of the chain up to `entry_prev`, so that unlinking at the head
    (`*entry_in_table = ptr`) and behind a survivor (`entry_prev->next = ptr`) are both visible.

  Every `malloc` of an entry gives it a fresh `addr`: the identity of the entry that the caller
  gets a pointer to.  Clock readings are inputs; one operation makes up to two of them.
-/
import Sigar.Base

namespace Sigar.Cache

variable {V : Type}

/-! ## The data types of `sigar_util.h` -/

/-- `sigar_cache_entry_t`; `next` is the position in the chain, a `NULL` value is `none`. -/
structure SigarCacheEntry (V : Type) where
  addr : Nat
  id : UInt64
  value : Option V
  lastAccessTime : UInt64
deriving DecidableEq, Repr

/-- `sigar_cache_t`, with the number of entries allocated so far in place of the heap. -/
structure SigarCache (V : Type) where
  entries : List (List (SigarCacheEntry V))
  count : Nat
  size : Nat
  entryExpirePeriod : UInt64
  cleanupPeriodMillis : UInt64
  lastCleanupTime : UInt64
  mallocs : Nat
deriving DecidableEq, Repr

/-- All entries of the table, bucket by bucket. -/
def SigarCache.cells (table : SigarCache V) : List (SigarCacheEntry V) := table.entries.flatten

/-- A pointer to an entry pointer of the table. -/
structure Slot where
  bucket : Nat
  pos : Nat

/-- The readings of `sigar_time_now_millis` in one operation: the one in the cleanup, and the one
    stored in the entry. -/
structure Clock where
  cleanup : UInt64
  access : UInt64

/-! ## Creation -/

def sigarExpiredCacheNew (V : Type) (size : Nat) (cleanupPeriodMillis entryExpirePeriod : UInt64)
    (now : UInt64) : SigarCache V where
  entries := List.replicate size []
  count := 0
  size := size
  entryExpirePeriod := entryExpirePeriod
  cleanupPeriodMillis := cleanupPeriodMillis
  lastCleanupTime := now
  mallocs := 0

def sigarCacheNew (V : Type) (size : Nat) (now : UInt64) : SigarCache V :=
  sigarExpiredCacheNew V size sigarFieldNotImpl sigarFieldNotImpl now

/-! ## Rehash -/

/-- The inner loop of `sigar_cache_rehash`: each entry of one chain is pushed onto the front of
    its new bucket. -/
def rehashChain (newSize : Nat) : List (SigarCacheEntry V) → List (List (SigarCacheEntry V)) →
    List (List (SigarCacheEntry V))
  | [], newEntries => newEntries
  | entry :: next, newEntries =>
    rehashChain newSize next (newEntries.modify (entry.id.toNat % newSize) (entry :: ·))

/-- The outer loop over the old buckets. -/
def rehashBuckets (newSize : Nat) : List (List (SigarCacheEntry V)) →
    List (List (SigarCacheEntry V)) → List (List (SigarCacheEntry V))
  | [], newEntries => newEntries
  | chain :: entries, newEntries =>
    rehashBuckets newSize entries (rehashChain newSize chain newEntries)

def sigarCacheRehash (table : SigarCache V) : SigarCache V :=
  let newSize := u32 (table.count * 2 + 1)
  { table with
    entries := rehashBuckets newSize table.entries (List.replicate newSize [])
    size := newSize }

/-! ## Cleanup -/

/-- The inner loop of the cleanup.  `kept` is the chain up to and including `entry_prev`; an
    expired entry is unlinked by linking `ptr` behind `kept`, and `count--` is the decrement of an
    `unsigned int`. -/
def cleanupChain (entryExpirePeriod currentTime : UInt64) (kept : List (SigarCacheEntry V)) :
    List (SigarCacheEntry V) → Nat → List (SigarCacheEntry V) × Nat
  | [], count => (kept, count)
  | entry :: ptr, count =>
    let periodWithNoAccess := currentTime - entry.lastAccessTime
    if entryExpirePeriod < periodWithNoAccess then
      cleanupChain entryExpirePeriod currentTime kept ptr (u32 (count + 4294967295))
    else
      cleanupChain entryExpirePeriod currentTime (kept ++ [entry]) ptr count

/-- The outer loop over the buckets. -/
def cleanupBuckets (entryExpirePeriod currentTime : UInt64) : List (List (SigarCacheEntry V)) →
    Nat → List (List (SigarCacheEntry V)) × Nat
  | [], count => ([], count)
  | chain :: entries, count =>
    let (chain', count') := cleanupChain entryExpirePeriod currentTime [] chain count
    let (entries', count'') := cleanupBuckets entryExpirePeriod currentTime entries count'
    (chain' :: entries', count'')

/-- `sigar_perform_cleanup_if_necessary`; `now` is the clock reading it makes when the table has
    a cleanup period. -/
def sigarPerformCleanupIfNecessary (table : SigarCache V) (now : UInt64) : SigarCache V :=
  if table.cleanupPeriodMillis = sigarFieldNotImpl then table  -- no cleanup for this cache
  else if now - table.lastCleanupTime < table.cleanupPeriodMillis then table
  else
    let (entries, count) := cleanupBuckets table.entryExpirePeriod now table.entries table.count
    let table := { table with entries := entries, count := count, lastCleanupTime := now }
    if table.count < table.size / 4 then sigarCacheRehash table else table

/-! ## Lookup -/

/-- `SIGAR_CACHE_IX`. -/
def sigarCacheIx (table : SigarCache V) (key : UInt64) : Nat := key.toNat % table.size

def SigarCache.chain (table : SigarCache V) (ix : Nat) : List (SigarCacheEntry V) :=
  table.entries.getD ix []

/-- The search loop over a chain, from position `pos` on: where it stops, and the entry there. -/
def chainSearch (key : UInt64) : List (SigarCacheEntry V) → Nat → Nat × Option (SigarCacheEntry V)
  | [], pos => (pos, none)
  | entry :: next, pos =>
    if entry.id = key then (pos, some entry) else chainSearch key next (pos + 1)

/-- The empty loop that `sigar_cache_get` runs after a rehash, to the end of the chain. -/
def chainEnd : List (SigarCacheEntry V) → Nat → Nat
  | [], pos => pos
  | _ :: next, pos => chainEnd next (pos + 1)

/-- `entry->last_access_time = now` at a slot. -/
def touchSlot (table : SigarCache V) (ptr : Slot) (entry : SigarCacheEntry V) (now : UInt64) :
    SigarCache V × SigarCacheEntry V :=
  let entry := { entry with lastAccessTime := now }
  ({ table with entries := table.entries.modify ptr.bucket (·.set ptr.pos entry) }, entry)

/-- `*ptr = entry` for an entry whose `next` is `NULL`. -/
def writeSlot (table : SigarCache V) (ptr : Slot) (entry : SigarCacheEntry V) : SigarCache V :=
  { table with
    entries := table.entries.modify ptr.bucket (fun chain => chain.take ptr.pos ++ [entry]) }

def sigarCacheFind (table : SigarCache V) (key : UInt64) (clock : Clock) :
    SigarCache V × Option (SigarCacheEntry V) :=
  let table := sigarPerformCleanupIfNecessary table clock.cleanup
  let ix := sigarCacheIx table key
  match chainSearch key (table.chain ix) 0 with
  | (pos, some entry) =>
    let (table, entry) := touchSlot table ⟨ix, pos⟩ entry clock.access
    (table, some entry)
  | (_, none) => (table, none)

/-- `++table->count`, the rehash when the table is full, and the slot for the new entry: `ptr` is
    kept from the search unless the table was rehashed. -/
def growAndPlace (table : SigarCache V) (key : UInt64) (ptr : Slot) : SigarCache V × Slot :=
  let table := { table with count := u32 (table.count + 1) }
  if table.count > table.size then
    let table := sigarCacheRehash table
    let ix := sigarCacheIx table key
    (table, ⟨ix, chainEnd (table.chain ix) 0⟩)
  else (table, ptr)

/-- `sigar_cache_get`: "create entry if it does not exist". -/
def sigarCacheGet (table : SigarCache V) (key : UInt64) (clock : Clock) :
    SigarCache V × SigarCacheEntry V :=
  let table := sigarPerformCleanupIfNecessary table clock.cleanup
  let ix := sigarCacheIx table key
  match chainSearch key (table.chain ix) 0 with
  | (pos, some entry) => touchSlot table ⟨ix, pos⟩ entry clock.access
  | (pos, none) =>
    let (table, ptr) := growAndPlace table key ⟨ix, pos⟩
    let entry :=
      { addr := table.mallocs, id := key, value := none, lastAccessTime := clock.access }
    ({ writeSlot table ptr entry with mallocs := table.mallocs + 1 }, entry)

/-- A caller's `entry->value = value` through the pointer it was given. -/
def storeValue (table : SigarCache V) (addr : Nat) (value : Option V) : SigarCache V :=
  { table with
    entries := table.entries.map
      (List.map fun entry => if entry.addr = addr then { entry with value := value } else entry) }

/-! ## The table as a machine -/

/-- What a caller can do with a table. -/
inductive CacheOp (V : Type) where
  | get (key : UInt64) (clock : Clock)
  | find (key : UInt64) (clock : Clock)
  | store (addr : Nat) (value : Option V)

/-- One operation, with the entry that the caller gets a pointer to (`none` for `NULL`). -/
def cacheStep (table : SigarCache V) : CacheOp V → SigarCache V × Option (SigarCacheEntry V)
  | .get key clock => ((sigarCacheGet table key clock).1, some (sigarCacheGet table key clock).2)
  | .find key clock => sigarCacheFind table key clock
  | .store addr value => (storeValue table addr value, none)

end Sigar.Cache
