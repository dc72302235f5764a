/-
  A cache of ONE entry, refilled on a miss.

  The entry has a key, the time of its refill and a payload.  An access with the same key less
  than `expire` after the refill is a HIT and reads nothing; any other access is a miss and tries
  to refill the slot.  A refill can fail EARLY, before the key is written, or LATE, when the key
  and the time are already those of the new access and the payload is not.

  A late failure is what the cache cannot see afterwards: the next access is a hit on a payload
  that was never read for its key.  `Traced` runs the cache next to what it does not record
  itself, the reads that succeeded (`reads`) and whether the last write of the key was followed by
  its payload (`whole`).  `access_fresh` is the rule for it: if every hit is on a whole slot, then
  an access that succeeds leaves in the slot what a recent read of the SAME key returned.

  A program has such a cache when it fits a `CachedReader`: its own state has a slot in it, and
  its function does to the slot what `access` does.  `step_fresh` is the rule for programs.
-/
import Sigar.Lib.Runs

namespace SlotCache

variable {K P E : Type}

structure Slot (K P : Type) where
  key : K
  mtime : Int
  payload : P

/-- What a miss comes to. -/
inductive Refill (P E : Type) where
  | early (error : E)            -- the key is still the old one
  | late (error : E) (left : P)  -- the key is the new one, over the payload `left`
  | filled (payload : P)

/-- The slot answers an access from what it holds. -/
def Slot.Hit (expire : Int) (slot : Slot K P) (key : K) (now : Int) : Prop :=
  slot.key = key ∧ now - slot.mtime < expire

instance [DecidableEq K] (expire : Int) (slot : Slot K P) (key : K) (now : Int) :
    Decidable (slot.Hit expire key now) :=
  inferInstanceAs (Decidable (_ ∧ _))

/-- One access: the slot after it, and the error if it failed. -/
def Slot.access [DecidableEq K] (expire : Int) (slot : Slot K P) (key : K) (now : Int)
    (refill : Refill P E) : Slot K P × Option E :=
  if slot.Hit expire key now then (slot, none)
  else match refill with
    | .early error => (slot, some error)
    | .late error left => (⟨key, now, left⟩, some error)
    | .filled payload => (⟨key, now, payload⟩, none)

/-! ## The cache and what it does not record -/

/-- A read that succeeded. -/
structure Read (K P : Type) where
  key : K
  time : Int
  payload : P

structure Traced (K P : Type) where
  slot : Slot K P
  whole : Bool
  reads : List (Read K P)

def Traced.access [DecidableEq K] (expire : Int) (t : Traced K P) (key : K) (now : Int)
    (refill : Refill P E) : Traced K P × Option E :=
  let after := t.slot.access expire key now refill
  if t.slot.Hit expire key now then (t, none)
  else match refill with
    | .early _ => (⟨after.1, t.whole, t.reads⟩, after.2)
    | .late _ _ => (⟨after.1, false, t.reads⟩, after.2)
    | .filled payload => (⟨after.1, true, ⟨key, now, payload⟩ :: t.reads⟩, after.2)

/-- The trace does not disturb the cache. -/
theorem Traced.access_slot [DecidableEq K] (expire : Int) (t : Traced K P) (key : K) (now : Int)
    (refill : Refill P E) :
    (t.access expire key now refill).1.slot = (t.slot.access expire key now refill).1 ∧
    (t.access expire key now refill).2 = (t.slot.access expire key now refill).2 := by
  by_cases hhit : t.slot.Hit expire key now
  · simp [Traced.access, Slot.access, hhit]
  · cases refill <;> simp [Traced.access, Slot.access, hhit]

/-- A whole slot holds a read that was made, and no later than `clock`. -/
def Traced.Backed (t : Traced K P) (clock : Int) : Prop :=
  t.whole = true →
    (⟨t.slot.key, t.slot.mtime, t.slot.payload⟩ : Read K P) ∈ t.reads ∧ t.slot.mtime ≤ clock

section Step

variable [DecidableEq K] {expire : Int} {t : Traced K P} {key : K} {clock now : Int}

/-- The step lemma: every access keeps the slot backed, whatever its refill comes to. -/
theorem Traced.access_backed (refill : Refill P E) (hback : t.Backed clock) (hclock : clock ≤ now) :
    (t.access expire key now refill).1.Backed now := by
  have hlater : t.Backed now := fun hwhole =>
    ⟨(hback hwhole).1, Int.le_trans (hback hwhole).2 hclock⟩
  by_cases hhit : t.slot.Hit expire key now
  · simpa [Traced.access, hhit] using hlater
  · cases refill with
    | early error => simpa [Traced.access, Slot.access, hhit] using hlater
    | late error left =>
      intro hwhole
      simp [Traced.access, hhit] at hwhole
    | filled payload =>
      intro _
      simp [Traced.access, Slot.access, hhit]

/-- **Freshness**: if a hit is on a whole slot, an access that succeeds leaves in the slot what a
    read of its own key returned less than `expire` ago. -/
theorem Traced.access_fresh (hexpire : 0 < expire) (refill : Refill P E) (hback : t.Backed clock)
    (hclock : clock ≤ now) (hwhole : t.slot.Hit expire key now → t.whole = true)
    (hok : (t.access expire key now refill).2 = none) :
    ∃ read ∈ (t.access expire key now refill).1.reads,
      read.key = key ∧ read.time ≤ now ∧ now - read.time < expire ∧
      read.payload = (t.access expire key now refill).1.slot.payload := by
  by_cases hhit : t.slot.Hit expire key now
  · obtain ⟨hmem, hle⟩ := hback (hwhole hhit)
    have hsame : t.access expire key now refill = (t, none) := by
      simp [Traced.access, hhit]
    rw [hsame]
    exact ⟨_, hmem, hhit.1, Int.le_trans hle hclock, hhit.2, rfl⟩
  · -- a miss that succeeds is one that filled the slot just now
    cases refill with
    | early error => simp [Traced.access, Slot.access, hhit] at hok
    | late error left => simp [Traced.access, Slot.access, hhit] at hok
    | filled payload =>
      simp [Traced.access, hhit, Slot.access]
      omega

end Step

/-! ## Programs with such a cache -/

/-- The error of a refill. -/
def Refill.error? : Refill P E → Option E
  | .early error => some error
  | .late error _ => some error
  | .filled _ => none

/-- A function of a program that keeps its last result in one slot: `S` is the state of the
    program, `I` what its environment gives to one call, and `ok` the status of a success. -/
structure CachedReader (S K P I E : Type) [DecidableEq K] where
  expire : Int
  ok : E
  read : S → K → Int → I → S × E
  slot : S → Slot K P
  refill : S → K → I → Refill P E
  expire_pos : 0 < expire
  slot_read : ∀ s key now i,
    slot (read s key now i).1 = ((slot s).access expire key now (refill s key i)).1
  status_read : ∀ s key now i,
    (read s key now i).2 = ((slot s).access expire key now (refill s key i)).2.getD ok

/-- The state of the program, with the trace of its slot and the time of its last call. -/
structure Run (S K P : Type) where
  code : S
  whole : Bool
  reads : List (Read K P)
  clock : Int

namespace CachedReader

variable {S I : Type} [DecidableEq K] (reader : CachedReader S K P I E)

def traced (run : Run S K P) : Traced K P := ⟨reader.slot run.code, run.whole, run.reads⟩

/-- Before its first call the program has read nothing. -/
def start (s : S) (clock : Int) : Run S K P := ⟨s, false, [], clock⟩

def step (run : Run S K P) (key : K) (now : Int) (i : I) : Run S K P × E :=
  let after := reader.read run.code key now i
  let trace := ((reader.traced run).access reader.expire key now (reader.refill run.code key i)).1
  (⟨after.1, trace.whole, trace.reads, now⟩, after.2)

/-- No hit on a slot whose last read failed, and no failure that returns the status of a
    success. -/
def Whole (run : Run S K P) (key : K) (now : Int) (i : I) : Prop :=
  ((reader.slot run.code).Hit reader.expire key now → run.whole = true) ∧
  (reader.refill run.code key i).error? ≠ some reader.ok

def Backed (run : Run S K P) : Prop := (reader.traced run).Backed run.clock

theorem start_backed (s : S) (clock : Int) : reader.Backed (start s clock) := by
  intro h
  exact absurd h Bool.false_ne_true

variable {reader} {run : Run S K P} {key : K} {now : Int} {i : I}

theorem step_traced :
    reader.traced (reader.step run key now i).1
      = ((reader.traced run).access reader.expire key now (reader.refill run.code key i)).1 := by
  have hslot := (reader.traced run).access_slot reader.expire key now
    (reader.refill run.code key i)
  show (⟨reader.slot (reader.read run.code key now i).1, _, _⟩ : Traced K P) = _
  rw [reader.slot_read]
  exact congrArg (fun slot => (⟨slot, _, _⟩ : Traced K P)) hslot.1.symm

theorem step_backed (hback : reader.Backed run) (hclock : run.clock ≤ now) :
    reader.Backed (reader.step run key now i).1 := by
  show (reader.traced (reader.step run key now i).1).Backed now
  rw [step_traced]
  exact Traced.access_backed _ hback hclock

/-- A success of the program is a success of its slot, unless a failure returned its status. -/
theorem access_ok (herror : (reader.refill run.code key i).error? ≠ some reader.ok)
    (hok : (reader.step run key now i).2 = reader.ok) :
    ((reader.slot run.code).access reader.expire key now (reader.refill run.code key i)).2
      = none := by
  have hstatus : ((reader.slot run.code).access reader.expire key now
      (reader.refill run.code key i)).2.getD reader.ok = reader.ok := by
    rw [← reader.status_read]; exact hok
  by_cases hhit : (reader.slot run.code).Hit reader.expire key now
  · simp [Slot.access, hhit]
  · cases hrefill : reader.refill run.code key i with
    | filled payload => simp [Slot.access, hhit]
    | early error =>
      rw [hrefill] at hstatus herror
      simp only [Slot.access, hhit, if_false, Option.getD_some] at hstatus
      exact absurd (congrArg some hstatus) herror
    | late error left =>
      rw [hrefill] at hstatus herror
      simp only [Slot.access, hhit, if_false, Option.getD_some] at hstatus
      exact absurd (congrArg some hstatus) herror

/-- **Freshness of a program's slot.** -/
theorem step_fresh (hback : reader.Backed run) (hclock : run.clock ≤ now)
    (hwhole : reader.Whole run key now i) (hok : (reader.step run key now i).2 = reader.ok) :
    ∃ read ∈ (reader.step run key now i).1.reads,
      read.key = key ∧ read.time ≤ now ∧ now - read.time < reader.expire ∧
      read.payload = (reader.slot (reader.step run key now i).1.code).payload := by
  have hnone : ((reader.traced run).access reader.expire key now
      (reader.refill run.code key i)).2 = none := by
    rw [(Traced.access_slot _ _ _ _ _).2]
    exact access_ok hwhole.2 hok
  obtain ⟨read, hmem, hkey, htime, hexpire, hpayload⟩ :=
    Traced.access_fresh reader.expire_pos _ hback hclock hwhole.1 hnone
  refine ⟨read, hmem, hkey, htime, hexpire, ?_⟩
  rw [hpayload, ← step_traced]
  rfl

/-! ## Runs of such a program -/

/-- One call: its key, the time it reads and what its environment gives it. -/
structure Call (K I : Type) where
  key : K
  now : Int
  input : I

variable (reader)

def callStep (run : Run S K P) (call : Call K I) : Run S K P × E :=
  reader.step run call.key call.now call.input

/-- The clock does not go back. -/
def ClockForward (run : Run S K P) (call : Call K I) : Prop := run.clock ≤ call.now

def CallWhole (run : Run S K P) (call : Call K I) : Prop :=
  reader.Whole run call.key call.now call.input

/-- If the call succeeds, the slot holds what a read of the call's own key returned less than
    `expire` ago. -/
def CallFresh (run : Run S K P) (call : Call K I) : Prop :=
  (reader.callStep run call).2 = reader.ok →
    ∃ read ∈ (reader.callStep run call).1.reads,
      read.key = call.key ∧ read.time ≤ call.now ∧ call.now - read.time < reader.expire ∧
      read.payload = (reader.slot (reader.callStep run call).1.code).payload

/-- **Freshness over a run.** -/
theorem run_fresh (s : S) (clock : Int) (calls : List (Call K I))
    (hclock : Runs.Along reader.callStep ClockForward (start s clock) calls)
    (hwhole : Runs.Along reader.callStep reader.CallWhole (start s clock) calls) :
    Runs.Along reader.callStep reader.CallFresh (start s clock) calls := by
  refine Runs.along_of_invariant ?_ calls _ (reader.start_backed s clock) (hclock.and hwhole)
  intro run call hback hcall
  obtain ⟨hle, hcallWhole⟩ := hcall
  exact ⟨step_backed hback hle, step_fresh hback hle hcallWhole⟩

end CachedReader

end SlotCache
