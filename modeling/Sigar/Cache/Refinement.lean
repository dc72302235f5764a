/-
  The cache table refines a map with last-access times.

  `AccessMap` says what the table is FOR: a partial map from keys to entries, each with the value
  last stored in it and the time of its last access, and the time of the last cleanup.  Times are
  natural numbers and the arithmetic is exact.  Its operations are the specification:

  * `cleanup` runs when at least the cleanup period has passed since the previous cleanup, never
    when there is no period, and drops exactly the entries not accessed for more than the expiry
    period;
  * `find` and `get` return the key's entry and record the access; `get` creates a missing one;
  * `store` changes the value of the entry it is given, wherever that is.

  `Refines` relates a table to its map; `cacheStep_refines` is the simulation of one operation and
  `sigarCache_refines_accessMap` that of every run with nondecreasing clock readings.  No bound on
  the number of entries is needed: a wrapped counter costs speed, never an entry.
-/
import Sigar.Cache.Invariant
import Mathlib.Data.List.Induction

namespace Sigar.Cache

open Runs List

variable {clock now : UInt64}

variable {V : Type}

/-! ## The abstract map -/

/-- An entry of the abstract map: which one it is, its value and its last access. -/
structure MapEntry (V : Type) where
  addr : Nat
  value : Option V
  lastAccess : Nat

/-- A map with last-access times, for a cleanup period (`none`: no cleanup) and an expiry period. -/
structure AccessMap (V : Type) where
  lookup : UInt64 → Option (MapEntry V)
  lastCleanup : Nat
  created : Nat
  cleanupPeriod : Option Nat
  expirePeriod : Nat

namespace AccessMap

def empty (V : Type) (cleanupPeriod : Option Nat) (expirePeriod now : Nat) : AccessMap V :=
  { lookup := fun _ => none, lastCleanup := now, created := 0, cleanupPeriod, expirePeriod }

/-- At least the cleanup period has passed since the previous cleanup. -/
def Due (m : AccessMap V) (now : Nat) : Prop :=
  ∃ period, m.cleanupPeriod = some period ∧ m.lastCleanup + period ≤ now

instance (m : AccessMap V) (now : Nat) : Decidable (m.Due now) :=
  match h : m.cleanupPeriod with
  | none => isFalse (by rintro ⟨p, hp, -⟩; rw [h] at hp; nomatch hp)
  | some p => decidable_of_iff (m.lastCleanup + p ≤ now)
      ⟨fun hle => ⟨p, h, hle⟩, fun ⟨q, hq, hle⟩ => by
        rw [h] at hq; obtain rfl := Option.some.inj hq; exact hle⟩

/-- The entry has not been accessed for more than the expiry period. -/
def expired (m : AccessMap V) (now : Nat) (e : MapEntry V) : Bool :=
  decide (m.expirePeriod < now - e.lastAccess)

def cleanup (m : AccessMap V) (now : Nat) : AccessMap V :=
  if m.Due now then
    { m with lookup := fun key => (m.lookup key).filter (fun e => !m.expired now e)
             lastCleanup := now }
  else m

/-- Give `key` the entry `e`. -/
def put (m : AccessMap V) (key : UInt64) (e : MapEntry V) : AccessMap V :=
  { m with lookup := fun k => if k = key then some e else m.lookup k }

def find (m : AccessMap V) (key : UInt64) (cleanupTime accessTime : Nat) :
    AccessMap V × Option (UInt64 × MapEntry V) :=
  let m := m.cleanup cleanupTime
  match m.lookup key with
  | some e =>
    let e := { e with lastAccess := accessTime }
    (m.put key e, some (key, e))
  | none => (m, none)

def get (m : AccessMap V) (key : UInt64) (cleanupTime accessTime : Nat) :
    AccessMap V × Option (UInt64 × MapEntry V) :=
  let m := m.cleanup cleanupTime
  match m.lookup key with
  | some e =>
    let e := { e with lastAccess := accessTime }
    (m.put key e, some (key, e))
  | none =>
    let e := { addr := m.created, value := none, lastAccess := accessTime }
    ({ m.put key e with created := m.created + 1 }, some (key, e))

section Lookup

variable {m : AccessMap V} {key : UInt64} {cleanupTime : Nat} {e : MapEntry V}

theorem find_hit (h : (m.cleanup cleanupTime).lookup key = some e) (accessTime : Nat) :
    m.find key cleanupTime accessTime
      = ((m.cleanup cleanupTime).put key { e with lastAccess := accessTime },
         some (key, { e with lastAccess := accessTime })) := by
  unfold find
  dsimp only
  rw [h]

theorem find_miss (h : (m.cleanup cleanupTime).lookup key = none) (accessTime : Nat) :
    m.find key cleanupTime accessTime = (m.cleanup cleanupTime, none) := by
  unfold find
  dsimp only
  rw [h]

theorem get_hit (h : (m.cleanup cleanupTime).lookup key = some e) (accessTime : Nat) :
    m.get key cleanupTime accessTime
      = ((m.cleanup cleanupTime).put key { e with lastAccess := accessTime },
         some (key, { e with lastAccess := accessTime })) := by
  unfold get
  dsimp only
  rw [h]

theorem get_miss (h : (m.cleanup cleanupTime).lookup key = none) (accessTime : Nat) :
    m.get key cleanupTime accessTime
      = ({ (m.cleanup cleanupTime).put key ⟨(m.cleanup cleanupTime).created, none, accessTime⟩ with
           created := (m.cleanup cleanupTime).created + 1 },
         some (key, ⟨(m.cleanup cleanupTime).created, none, accessTime⟩)) := by
  unfold get
  dsimp only
  rw [h]

end Lookup

def store (m : AccessMap V) (addr : Nat) (value : Option V) : AccessMap V :=
  { m with lookup := fun key =>
      (m.lookup key).map fun e => if e.addr = addr then { e with value := value } else e }

/-- The abstract operation that a table operation stands for. -/
def step (m : AccessMap V) : CacheOp V → AccessMap V × Option (UInt64 × MapEntry V)
  | .get key clock => m.get key clock.cleanup.toNat clock.access.toNat
  | .find key clock => m.find key clock.cleanup.toNat clock.access.toNat
  | .store addr value => (m.store addr value, none)

/-! ### What the map remembers of a run -/

/-- The operation creates the key if it is missing. -/
def Creates (key : UInt64) : CacheOp V → Prop
  | .get k _ => k = key
  | _ => False

/-- The time of the cleanup that an operation starts with. -/
def cleanupTime : CacheOp V → Option Nat
  | .get _ clock => some clock.cleanup.toNat
  | .find _ clock => some clock.cleanup.toNat
  | .store _ _ => none

/-- The cleanup of the operation drops the key: it is due, and the key's entry has expired. -/
def Drops (m : AccessMap V) (op : CacheOp V) (key : UInt64) : Prop :=
  ∃ now e, cleanupTime op = some now ∧ m.Due now ∧ m.lookup key = some e ∧
    m.expirePeriod < now - e.lastAccess

theorem cleanup_lookup_none_iff (m : AccessMap V) (now : Nat) (key : UInt64) :
    (m.cleanup now).lookup key = none ↔ m.lookup key = none ∨
      (m.Due now ∧ ∃ e, m.lookup key = some e ∧ m.expirePeriod < now - e.lastAccess) := by
  unfold cleanup
  by_cases hdue : m.Due now
  · rw [if_pos hdue]
    dsimp only
    cases hl : m.lookup key with
    | none => simp
    | some e => simp [hdue, expired]; omega
  · rw [if_neg hdue]
    simp [hdue]

theorem put_lookup_none_iff (m : AccessMap V) (k key : UInt64) (e : MapEntry V) :
    (m.put k e).lookup key = none ↔ key ≠ k ∧ m.lookup key = none := by
  show (if key = k then some e else m.lookup key) = none ↔ _
  by_cases hk : key = k
  · rw [if_pos hk]; simp [hk]
  · rw [if_neg hk]; simp [hk]

/-- After the cleanup of an operation a key is absent if it was before, or the cleanup drops it. -/
theorem cleanup_lookup_none_iff_drops (m : AccessMap V) (op : CacheOp V) {now : Nat}
    (hop : cleanupTime op = some now) (key : UInt64) :
    (m.cleanup now).lookup key = none ↔ m.lookup key = none ∨ Drops m op key := by
  rw [cleanup_lookup_none_iff]
  simp [Drops, hop]

/-- A key is absent after an operation that does not create it, if it was absent before or the
    operation's cleanup dropped it. -/
theorem step_lookup_none_iff (m : AccessMap V) (op : CacheOp V) (key : UInt64) :
    (m.step op).1.lookup key = none ↔
      ¬ Creates key op ∧ (m.lookup key = none ∨ Drops m op key) := by
  cases op with
  | get k clock =>
    show (m.get k clock.cleanup.toNat clock.access.toNat).1.lookup key = none ↔ _
    have hput : (m.get k clock.cleanup.toNat clock.access.toNat).1.lookup key = none ↔
        key ≠ k ∧ (m.cleanup clock.cleanup.toNat).lookup key = none := by
      cases hl : (m.cleanup clock.cleanup.toNat).lookup k with
      | none => rw [get_miss hl]; exact put_lookup_none_iff ..
      | some e => rw [get_hit hl]; exact put_lookup_none_iff ..
    rw [hput, cleanup_lookup_none_iff_drops m (.get k clock) rfl]
    exact and_congr_left fun _ => not_congr eq_comm
  | find k clock =>
    show (m.find k clock.cleanup.toNat clock.access.toNat).1.lookup key = none ↔ _
    have hput : (m.find k clock.cleanup.toNat clock.access.toNat).1.lookup key = none ↔
        (m.cleanup clock.cleanup.toNat).lookup key = none := by
      cases hl : (m.cleanup clock.cleanup.toNat).lookup k with
      | none => rw [find_miss hl]
      | some e =>
        rw [find_hit hl]
        -- the key found is still there, so recording the access hides nothing
        refine (put_lookup_none_iff ..).trans ⟨fun h => h.2, fun h => ⟨?_, h⟩⟩
        rintro rfl
        rw [hl] at h
        nomatch h
    rw [hput, cleanup_lookup_none_iff_drops m (.find k clock) rfl]
    simp [Creates]
  | store addr value =>
    show (m.lookup key).map _ = none ↔ _
    simp [Drops, cleanupTime, Creates]

/-- **What a run forgets**: a key is absent at the end exactly when it was never created, or the
    cleanup of some operation dropped it and no operation from there on created it again. -/
theorem exec_lookup_none_iff (m : AccessMap V) (key : UInt64) (ops : List (CacheOp V)) :
    (exec step m ops).1.lookup key = none ↔
      (m.lookup key = none ∧ ∀ op ∈ ops, ¬ Creates key op) ∨
      ∃ pre op post, ops = pre ++ op :: post ∧ Drops (exec step m pre).1 op key ∧
        ∀ o ∈ op :: post, ¬ Creates key o := by
  -- from the end: the last operation decides, unless it leaves the key as it was
  induction ops using reverseRecOn with
  | nil => simp
  | append_singleton ops last ih =>
    have hlast : (exec step m (ops ++ [last])).1 = (step (exec step m ops).1 last).1 :=
      exec_append step ops [last] m
    rw [hlast, step_lookup_none_iff, ih]
    constructor
    · grind
    · rintro (⟨hm, hall⟩ | ⟨pre, op, post, heq, hd, hall⟩)
      · exact ⟨hall last (by simp), Or.inl (Or.inl ⟨hm, fun op hop => hall op (by simp [hop])⟩)⟩
      · -- the dropping operation is the last one or an earlier one
        rcases eq_nil_or_concat post with rfl | ⟨post', last', rfl⟩
        · obtain ⟨rfl, hop⟩ := append_inj' heq rfl
          obtain rfl : last = op := by simpa using hop
          exact ⟨hall last (by simp), Or.inr hd⟩
        · have heq' : ops ++ [last] = (pre ++ op :: post') ++ [last'] := by simpa using heq
          obtain ⟨rfl, hop⟩ := append_inj' heq' rfl
          obtain rfl : last = last' := by simpa using hop
          exact ⟨hall last (by simp),
            Or.inl (Or.inr ⟨pre, op, post', rfl, hd, fun o ho => hall o (by
              rcases mem_cons.mp ho with rfl | ho
              · exact mem_cons_self ..
              · simp [ho])⟩)⟩

end AccessMap

/-! ## The refinement relation -/

/-- An entry of the table as the abstract map has it. -/
def observe (entry : SigarCacheEntry V) : UInt64 × MapEntry V :=
  (entry.id, { addr := entry.addr, value := entry.value, lastAccess := entry.lastAccessTime.toNat })

/-- The periods of a table as the abstract map has them. -/
def absPeriod (period : UInt64) : Option Nat :=
  if period = sigarFieldNotImpl then none else some period.toNat

/-- `table` stores exactly the map `m`, and no time in it is later than `clock`. -/
structure Refines (clock : UInt64) (table : SigarCache V) (m : AccessMap V) : Prop where
  wellFormed : WellFormed table
  lookup : ∀ key e, m.lookup key = some e ↔ ∃ entry ∈ table.cells, observe entry = (key, e)
  lastCleanup : m.lastCleanup = table.lastCleanupTime.toNat
  created : m.created = table.mallocs
  period : m.cleanupPeriod = absPeriod table.cleanupPeriodMillis
  expire : m.expirePeriod = table.entryExpirePeriod.toNat
  cleanup_le : table.lastCleanupTime ≤ clock
  access_le : ∀ entry ∈ table.cells, entry.lastAccessTime ≤ clock

variable {table table' : SigarCache V} {m : AccessMap V}

theorem Refines.mono {clock' : UInt64} (h : Refines clock table m) (hle : clock ≤ clock') :
    Refines clock' table m :=
  { h with
    cleanup_le := UInt64.le_trans h.cleanup_le hle
    access_le := fun entry he => UInt64.le_trans (h.access_le entry he) hle }

theorem Refines.lookup_none_iff (h : Refines clock table m)
    (key : UInt64) : m.lookup key = none ↔ ∀ entry ∈ table.cells, entry.id ≠ key := by
  constructor
  · intro hnone entry he hid
    have hsome := (h.lookup key (observe entry).2).mpr ⟨entry, he, by rw [← hid]; rfl⟩
    rw [hnone] at hsome
    nomatch hsome
  · intro hall
    cases hl : m.lookup key with
    | none => rfl
    | some e =>
      obtain ⟨entry, he, hobs⟩ := (h.lookup key e).mp hl
      exact absurd (congrArg Prod.fst hobs) (hall entry he)

/-- The elapsed time that the code computes is the real one when the clock has not gone back. -/
theorem elapsed_toNat {earlier : UInt64} (hle : earlier ≤ now) :
    (now - earlier).toNat = now.toNat - earlier.toNat :=
  UInt64.toNat_sub_of_le now earlier hle

theorem cleanupDue_iff (h : Refines clock table m) (hnow : clock ≤ now) :
    CleanupDue table now ↔ m.Due now.toNat := by
  have hel := elapsed_toNat (UInt64.le_trans h.cleanup_le hnow)
  have hle : table.lastCleanupTime.toNat ≤ now.toNat :=
    UInt64.le_iff_toNat_le.mp (UInt64.le_trans h.cleanup_le hnow)
  unfold CleanupDue AccessMap.Due
  rw [h.period, h.lastCleanup, UInt64.lt_iff_toNat_lt, hel]
  unfold absPeriod
  by_cases hnone : table.cleanupPeriodMillis = sigarFieldNotImpl
  · simp [hnone]
  · simp only [hnone, if_false, Option.some.injEq, exists_eq_left', ne_eq, not_false_eq_true,
      true_and]
    omega

theorem survives_iff (h : Refines clock table m) (hnow : clock ≤ now)
    {entry : SigarCacheEntry V} (he : entry ∈ table.cells) :
    survives table.entryExpirePeriod now entry = !m.expired now.toNat (observe entry).2 := by
  have hel := elapsed_toNat (UInt64.le_trans (h.access_le entry he) hnow)
  have hiff : table.entryExpirePeriod < now - entry.lastAccessTime ↔
      m.expirePeriod < now.toNat - (observe entry).2.lastAccess := by
    rw [h.expire, UInt64.lt_iff_toNat_lt, hel]
    exact Iff.rfl
  unfold survives AccessMap.expired
  rw [decide_eq_decide.mpr hiff]

/-! ## One operation -/

/-- What `Refines` needs after a change of the contents: the new contents, up to order. -/
theorem Refines.of_perm (h : Refines clock table m)
    (hwf : WellFormed table') (hperm : table'.cells.Perm table.cells)
    (hcleanup : table'.lastCleanupTime = table.lastCleanupTime)
    (hperiod : table'.cleanupPeriodMillis = table.cleanupPeriodMillis)
    (hexpire : table'.entryExpirePeriod = table.entryExpirePeriod)
    (hmallocs : table'.mallocs = table.mallocs) : Refines clock table' m where
  wellFormed := hwf
  lookup := by
    intro key e
    rw [h.lookup key e]
    exact exists_congr fun entry => and_congr_left' hperm.mem_iff.symm
  lastCleanup := by rw [hcleanup]; exact h.lastCleanup
  created := by rw [hmallocs]; exact h.created
  period := by rw [hperiod]; exact h.period
  expire := by rw [hexpire]; exact h.expire
  cleanup_le := by rw [hcleanup]; exact h.cleanup_le
  access_le := fun entry he => h.access_le entry (hperm.mem_iff.mp he)

/-- Sweeping the chains drops exactly the expired entries of the map. -/
theorem sweep_refines (h : Refines clock table m) (hnow : clock ≤ now) (hdue : m.Due now.toNat) :
    Refines now (sweep table now) (m.cleanup now.toNat) := by
  have hclean : m.cleanup now.toNat =
      { m with lookup := fun key => (m.lookup key).filter (fun e => !m.expired now.toNat e)
               lastCleanup := now.toNat } := if_pos hdue
  rw [hclean]
  refine {
    wellFormed := sweep_wellFormed h.wellFormed now
    lookup := ?_
    lastCleanup := rfl
    created := h.created
    period := h.period
    expire := h.expire
    cleanup_le := UInt64.le_refl now
    access_le := ?_ }
  · intro key e
    rw [sweep_cells]
    constructor
    · intro hl
      obtain ⟨hl, hsurv⟩ := Option.filter_eq_some_iff.mp hl
      obtain ⟨entry, he, hobs⟩ := (h.lookup key e).mp hl
      refine ⟨entry, mem_filter.mpr ⟨he, ?_⟩, hobs⟩
      rw [survives_iff h hnow he, hobs]
      exact hsurv
    · rintro ⟨entry, he, hobs⟩
      obtain ⟨he, hsurv⟩ := mem_filter.mp he
      rw [survives_iff h hnow he, hobs] at hsurv
      exact Option.filter_eq_some_iff.mpr ⟨(h.lookup key e).mpr ⟨entry, he, hobs⟩, hsurv⟩
  · intro entry he
    rw [sweep_cells] at he
    exact UInt64.le_trans (h.access_le entry (mem_filter.mp he).1) hnow

/-- The cleanup that an operation starts with, shrinking rehash included. -/
theorem cleanup_refines (h : Refines clock table m) (hnow : clock ≤ now) :
    Refines now (sigarPerformCleanupIfNecessary table now) (m.cleanup now.toNat) := by
  rcases sigarPerformCleanupIfNecessary_cases table now with ⟨hnot, heq⟩ | ⟨hdue, heq⟩
  · have hnot' : ¬ m.Due now.toNat := fun hd => hnot ((cleanupDue_iff h hnow).mpr hd)
    have hid : m.cleanup now.toNat = m := if_neg hnot'
    rw [heq, hid]
    exact h.mono hnow
  · have hs := sweep_refines h hnow ((cleanupDue_iff h hnow).mp hdue)
    -- the shrinking rehash only permutes what the sweep left
    rw [heq]
    split
    · exact hs.of_perm (sigarCacheRehash_wellFormed hs.wellFormed.nodup hs.wellFormed.count_mod)
        (sigarCacheRehash_spec _).2.2 rfl rfl rfl rfl
    · exact hs

/-- Touching the entry of a key is giving the key its entry with the new access time. -/
theorem touch_refines (h : Refines clock table m) (hnow : clock ≤ now)
    {entry : SigarCacheEntry V} (he : entry ∈ table.cells) :
    m.lookup entry.id = some (observe entry).2 ∧
    Refines now { table with entries := table.entries.map (List.map (touch entry.id now)) }
      (m.put entry.id { (observe entry).2 with lastAccess := now.toNat }) := by
  have hcells : (table.entries.map (List.map (touch entry.id now))).flatten
      = table.cells.map (touch entry.id now) := map_flatten.symm
  refine ⟨(h.lookup _ _).mpr ⟨entry, he, rfl⟩, ?_⟩
  refine {
    wellFormed := h.wellFormed.map_entries (touch_id _ _)
    lookup := ?_
    lastCleanup := h.lastCleanup
    created := h.created
    period := h.period
    expire := h.expire
    cleanup_le := UInt64.le_trans h.cleanup_le hnow
    access_le := ?_ }
  · intro key e
    show (if key = entry.id then some _ else m.lookup key) = some e ↔
      ∃ x ∈ (table.entries.map (List.map (touch entry.id now))).flatten, observe x = (key, e)
    rw [hcells]
    by_cases hkey : key = entry.id
    · -- the touched key: its only entry is `entry`
      rw [if_pos hkey]
      constructor
      · intro hsome
        refine ⟨touch entry.id now entry, mem_map_of_mem he, ?_⟩
        rw [touch_of_id rfl, hkey, ← Option.some.inj hsome]
        rfl
      · rintro ⟨x, hx, hobs⟩
        obtain ⟨y, hy, rfl⟩ := mem_map.mp hx
        have hyid : y.id = entry.id := by
          have hfst : (touch entry.id now y).id = key := congrArg Prod.fst hobs
          rw [← hkey, ← hfst, touch_id]
        obtain rfl : y = entry := h.wellFormed.eq_of_id hy he hyid
        rw [touch_of_id rfl] at hobs
        exact congrArg some (congrArg Prod.snd hobs)
    · -- any other key keeps its entry
      rw [if_neg hkey, h.lookup key e]
      constructor
      · rintro ⟨x, hx, hobs⟩
        have hne : x.id ≠ entry.id := fun hid => hkey ((congrArg Prod.fst hobs).symm.trans hid)
        exact ⟨touch entry.id now x, mem_map_of_mem hx, by rw [touch_of_ne hne]; exact hobs⟩
      · rintro ⟨x, hx, hobs⟩
        obtain ⟨y, hy, rfl⟩ := mem_map.mp hx
        have hne : y.id ≠ entry.id := by
          intro hid
          have hfst := congrArg Prod.fst hobs
          exact hkey (hfst.symm.trans ((touch_id _ _ _).trans hid))
        rw [touch_of_ne hne] at hobs
        exact ⟨y, hy, hobs⟩
  · intro x hx
    have hx' : x ∈ (table.entries.map (List.map (touch entry.id now))).flatten := hx
    rw [hcells] at hx'
    obtain ⟨y, hy, rfl⟩ := mem_map.mp hx'
    unfold touch
    split
    · exact UInt64.le_refl now
    · exact UInt64.le_trans (h.access_le y hy) hnow

/-- Inserting an entry under a new key is giving the key a fresh entry. -/
theorem insert_refines {key : UInt64}
    (h : Refines clock table m) (hnow : clock ≤ now)
    (hfresh : ∀ entry ∈ table.cells, entry.id ≠ key)
    (hins : Inserted table table' (newEntry table key now)) :
    Refines now table'
      { m.put key (observe (newEntry table key now)).2 with created := m.created + 1 } where
  wellFormed := hins.wellFormed
  lookup := by
    intro k e
    show (if k = key then some (observe (newEntry table key now)).2 else m.lookup k) = some e ↔ _
    have hmem : (∃ x ∈ table'.cells, observe x = (k, e)) ↔
        observe (newEntry table key now) = (k, e) ∨ ∃ x ∈ table.cells, observe x = (k, e) := by
      constructor
      · rintro ⟨x, hx, hobs⟩
        rcases mem_cons.mp (hins.cells.mem_iff.mp hx) with rfl | hx
        · exact Or.inl hobs
        · exact Or.inr ⟨x, hx, hobs⟩
      · rintro (hobs | ⟨x, hx, hobs⟩)
        · exact ⟨_, hins.cells.mem_iff.mpr (mem_cons_self ..), hobs⟩
        · exact ⟨x, hins.cells.mem_iff.mpr (mem_cons_of_mem _ hx), hobs⟩
    rw [hmem]
    by_cases hk : k = key
    · rw [if_pos hk]
      constructor
      · intro hsome
        exact Or.inl (Prod.ext hk.symm (Option.some.inj hsome))
      · rintro (hobs | ⟨x, hx, hobs⟩)
        · exact congrArg some (congrArg Prod.snd hobs)
        · exact absurd ((congrArg Prod.fst hobs).trans hk) (hfresh x hx)
    · rw [if_neg hk, h.lookup k e]
      constructor
      · exact Or.inr
      · rintro (hobs | hex)
        · exact absurd (congrArg Prod.fst hobs).symm hk
        · exact hex
  lastCleanup := by rw [hins.lastCleanup]; exact h.lastCleanup
  created := by rw [hins.mallocs]; exact congrArg (· + 1) h.created
  period := by rw [hins.period]; exact h.period
  expire := by rw [hins.expire]; exact h.expire
  cleanup_le := by rw [hins.lastCleanup]; exact UInt64.le_trans h.cleanup_le hnow
  access_le := by
    intro x hx
    rcases mem_cons.mp (hins.cells.mem_iff.mp hx) with rfl | hx
    · exact UInt64.le_refl now
    · exact UInt64.le_trans (h.access_le x hx) hnow

/-- Storing through a pointer changes the value of that entry, under whatever key it is. -/
theorem store_refines (h : Refines clock table m)
    (addr : Nat) (value : Option V) :
    Refines clock (storeValue table addr value) (m.store addr value) := by
  let g : SigarCacheEntry V → SigarCacheEntry V :=
    fun entry => if entry.addr = addr then { entry with value := value } else entry
  let ga : MapEntry V → MapEntry V :=
    fun e => if e.addr = addr then { e with value := value } else e
  have hg : ∀ entry, observe (g entry) = ((observe entry).1, ga (observe entry).2) := by
    intro entry
    show observe (if entry.addr = addr then _ else _) = (_, if entry.addr = addr then _ else _)
    split <;> rfl
  have hcells : (storeValue table addr value).cells = table.cells.map g := map_flatten.symm
  refine {
    wellFormed := cacheStep_wellFormed h.wellFormed (.store addr value)
    lookup := ?_
    lastCleanup := h.lastCleanup
    created := h.created
    period := h.period
    expire := h.expire
    cleanup_le := h.cleanup_le
    access_le := ?_ }
  · intro key e
    show (m.lookup key).map ga = some e ↔ _
    rw [hcells, Option.map_eq_some_iff]
    constructor
    · rintro ⟨e', hl, rfl⟩
      obtain ⟨entry, he, hobs⟩ := (h.lookup key e').mp hl
      exact ⟨g entry, mem_map_of_mem he, by rw [hg, hobs]⟩
    · rintro ⟨x, hx, hobs⟩
      obtain ⟨entry, he, rfl⟩ := mem_map.mp hx
      rw [hg] at hobs
      obtain ⟨hk, hv⟩ := Prod.mk.inj hobs
      exact ⟨(observe entry).2, (h.lookup key _).mpr ⟨entry, he, by rw [← hk]⟩, hv⟩
  · grind [h.access_le]

/-! ## Runs -/

/-- The operation reads the clock no earlier than `clock`, and its readings do not decrease. -/
def ClockOk (clock : UInt64) : CacheOp V → Prop
  | .get _ c => clock ≤ c.cleanup ∧ c.cleanup ≤ c.access
  | .find _ c => clock ≤ c.cleanup ∧ c.cleanup ≤ c.access
  | .store _ _ => True

/-- The last reading of the clock after an operation. -/
def clockAfter (clock : UInt64) : CacheOp V → UInt64
  | .get _ c => c.access
  | .find _ c => c.access
  | .store _ _ => clock

/-- The clock readings of the operations never decrease, from `clock` on. -/
def ClockMonotone (clock : UInt64) (ops : List (CacheOp V)) : Prop :=
  Admissible ClockOk clockAfter clock ops

/-- **One operation of the table is one operation of the map**, with the same answer. -/
theorem cacheStep_refines (op : CacheOp V)
    (hok : ClockOk clock op) (h : Refines clock table m) :
    Refines (clockAfter clock op) (cacheStep table op).1 (m.step op).1 ∧
    (cacheStep table op).2.map observe = (m.step op).2 := by
  cases op with
  | get key c =>
    have hswept := cleanup_refines h hok.1
    rcases sigarCacheGet_cases h.wellFormed key c with ⟨entry, he, rfl, heq⟩ | ⟨hfresh, hnew, hins⟩
    · obtain ⟨hl, href⟩ := touch_refines hswept hok.2 he
      show Refines c.access (sigarCacheGet table entry.id c).1 (m.get entry.id _ _).1 ∧
        some (observe (sigarCacheGet table entry.id c).2) = (m.get entry.id _ _).2
      rw [heq, AccessMap.get_hit hl]
      exact ⟨href, rfl⟩
    · have hl := (hswept.lookup_none_iff key).mpr hfresh
      have hnewEntry : observe (newEntry (sigarPerformCleanupIfNecessary table c.cleanup) key c.access)
          = (key, ⟨(m.cleanup c.cleanup.toNat).created, none, c.access.toNat⟩) := by
        rw [hswept.created]
        rfl
      have href := insert_refines hswept hok.2 hfresh hins
      rw [hnewEntry] at href
      show Refines c.access (sigarCacheGet table key c).1 (m.get key _ _).1 ∧
        some (observe (sigarCacheGet table key c).2) = (m.get key _ _).2
      rw [hnew, hnewEntry, AccessMap.get_miss hl]
      exact ⟨href, rfl⟩
  | find key c =>
    have hswept := cleanup_refines h hok.1
    rcases sigarCacheFind_cases h.wellFormed key c with ⟨entry, he, rfl, heq⟩ | ⟨hfresh, heq⟩
    · obtain ⟨hl, href⟩ := touch_refines hswept hok.2 he
      show Refines c.access (sigarCacheFind table entry.id c).1 (m.find entry.id _ _).1 ∧
        (sigarCacheFind table entry.id c).2.map observe = (m.find entry.id _ _).2
      rw [heq, AccessMap.find_hit hl]
      exact ⟨href, rfl⟩
    · have hl := (hswept.lookup_none_iff key).mpr hfresh
      show Refines c.access (sigarCacheFind table key c).1 (m.find key _ _).1 ∧
        (sigarCacheFind table key c).2.map observe = (m.find key _ _).2
      rw [heq, AccessMap.find_miss hl]
      exact ⟨hswept.mono hok.2, rfl⟩
  | store addr value => exact ⟨store_refines h addr value, rfl⟩

theorem sigarExpiredCacheNew_refines (V : Type) {size : Nat} (hsize : 1 ≤ size)
    (cleanup expire now : UInt64) :
    Refines now (sigarExpiredCacheNew V size cleanup expire now)
      (AccessMap.empty V (absPeriod cleanup) expire.toNat now.toNat) where
  wellFormed := sigarExpiredCacheNew_wellFormed V hsize cleanup expire now
  lookup := by
    intro key e
    rw [sigarExpiredCacheNew_cells]
    constructor
    · intro hl; nomatch hl
    · rintro ⟨entry, he, -⟩; exact absurd he not_mem_nil
  lastCleanup := rfl
  created := rfl
  period := rfl
  expire := rfl
  cleanup_le := UInt64.le_refl now
  access_le entry he := absurd he (not_mem_new V size cleanup expire now entry)

/-- **The table refines the map with last-access times**, over every run with nondecreasing clock
    readings: every `find` and `get` answers as the map does (the entry, its value and whether
    there is one), at the end the table holds exactly the map's entries, each of them once, and a
    key is missing only if it was never created or a cleanup dropped it. -/
theorem sigarCache_refines_accessMap {size : Nat} (hsize : 1 ≤ size)
    (cleanup expire now : UInt64) (ops : List (CacheOp V)) (hclock : ClockMonotone now ops) :
    let table := exec cacheStep (sigarExpiredCacheNew V size cleanup expire now) ops
    let m₀ := AccessMap.empty V (absPeriod cleanup) expire.toNat now.toNat
    let m := exec AccessMap.step m₀ ops
    table.2.map (Option.map observe) = m.2 ∧
    (∀ key e, m.1.lookup key = some e ↔ ∃ entry ∈ table.1.cells, observe entry = (key, e)) ∧
    (table.1.cells.map (·.id)).Nodup ∧
    (∀ key, m.1.lookup key = none ↔
      (∀ op ∈ ops, ¬ AccessMap.Creates key op) ∨
      ∃ pre op post, ops = pre ++ op :: post ∧
        AccessMap.Drops (exec AccessMap.step m₀ pre).1 op key ∧
        ∀ o ∈ op :: post, ¬ AccessMap.Creates key o) := by
  intro table m₀ m
  obtain ⟨href, hout⟩ := exec_sim cacheStep AccessMap.step (Option.map observe) Refines
    (fun _ _ _ op hok hR => cacheStep_refines op hok hR) ops now _ _ hclock
    (sigarExpiredCacheNew_refines V hsize cleanup expire now)
  refine ⟨hout, href.lookup, href.wellFormed.nodup, fun key => ?_⟩
  have hempty : m₀.lookup key = none := rfl
  rw [AccessMap.exec_lookup_none_iff m₀ key ops, and_iff_right hempty]

/-- Two keys, a value stored in the first entry, and a cleanup that drops only the second. -/
theorem sigarCache_refines_accessMap_example :
    (exec cacheStep (sigarExpiredCacheNew Nat 1 1000 500 7)
      [.get 5 ⟨8, 8⟩, .store 0 (some 3), .get 6 ⟨9, 9⟩, .find 5 ⟨900, 900⟩,
        .find 6 ⟨1100, 1100⟩]).2.map (Option.map observe)
      = [some (5, ⟨0, none, 8⟩), none, some (6, ⟨1, none, 9⟩), some (5, ⟨0, some 3, 900⟩), none] := by
  refine (sigarCache_refines_accessMap (V := Nat) (by decide) 1000 500 7
    [.get 5 ⟨8, 8⟩, .store 0 (some 3), .get 6 ⟨9, 9⟩, .find 5 ⟨900, 900⟩,
      .find 6 ⟨1100, 1100⟩] ?_).1.trans rfl
  exact ⟨⟨by decide, by decide⟩, trivial, ⟨by decide, by decide⟩, ⟨by decide, by decide⟩,
    ⟨by decide, by decide⟩, trivial⟩

end Sigar.Cache
