/-
  Looking up a variable of a process's environment, for PTQL's `Env.<key>`.

  Source: `sigar_proc_env_get` of `os/linux/linux_sigar.c` with the macro
  `SIGAR_PROC_ENV_KEY_LOOKUP`, and `sigar_proc_env_get_key` of `sigar_ptql.c`.

  1. **Two programs** — for the own pid, `getenv`; for another pid, a scan of /proc/<pid>/environ
     that hands every `key=value` to a callback.
  2. **Specification** — `firstValue`: the value of the first entry `key=value`.
  3. **Correctness** — `envLookup_iff`.  The scan ENDS at the first entry without a `=`, it copies
     keys into an array of 128 bytes, and it finds an entry with an empty key, which `getenv` does
     not: the lookups agree exactly when none of this matters.
-/
import Sigar.Util
import Sigar.Lib.NulStrings

namespace Sigar.Proc.Env

open CString NulStrings List

/-- A string: its characters, without the NUL that ends it. -/
abbrev CStr := Text

/-! ## The program -/

/-- `ARG_MAX`. -/
def argMax : Nat := 131072

/-- `sizeof(key)` in the scan. -/
def keySize : Nat := 128

/-- Where `sigar_proc_env_get` writes outside of its arrays. -/
inductive EnvFault where
  | keyBuffer   -- `key[klen] = '\0'`
  | readLength  -- `buffer[len] = '\0'`
  | noEnd       -- the scan does not end
  deriving DecidableEq

section Get

variable {σ : Type} (envGetter : σ → CStr → Nat → CStr → Nat → σ × Status)

/-- The loop over the buffer, for at most `fuel` rounds; `ptr` is what is left of it. -/
def envScan : Nat → Text → σ → Except EnvFault σ
  | 0, _, _ => .error .noEnd
  | fuel + 1, ptr, data =>
    if ptr = [] then .ok data
    else match strchr ptr '=' with
      | none => .ok data  -- not key=val format
      | some val =>
        let klen := ptr.length - val.length
        if keySize ≤ klen then .error .keyBuffer
        else
          let key := ptr.take klen
          let val := val.tail
          let vlen := strlen val
          let (data, status) := envGetter data key klen (val.take vlen) vlen
          if status ≠ sigarOk then .ok data  -- not an error; just stop iterating
          else envScan fuel (ptr.drop (klen + 1 + vlen + 1)) data

/-- What `open` and `read` do to /proc/<pid>/environ. -/
inductive EnvironRead where
  | openError (errno : Status)
  | readError
  | content (bytes : Text)

/-- `SIGAR_PROC_ENV_ALL` and `SIGAR_PROC_ENV_KEY`. -/
inductive EnvType where
  | all | key
  deriving DecidableEq

/-- `sigar_proc_env_get`: the status, and the callback's data. -/
def sigarProcEnvGet (sigarPid pid : SigarPid) (getenv : CStr → Option CStr) (environ : EnvironRead)
    (type : EnvType) (key : CStr) (data : σ) : Except EnvFault (Status × σ) :=
  if type = .key ∧ pid = sigarPid then
    match getenv key with
    | some value => .ok (sigarOk, (envGetter data key key.length value value.length).1)
    | none => .ok (sigarOk, data)
  else match environ with
    | .openError errno => .ok (if errno = enoent then esrch else errno, data)
    | .readError => .error .readLength  -- `len` is (size_t)-1
    | .content bytes =>
      let buffer := bytes.take argMax
      if argMax ≤ buffer.length then .error .readLength
      else (envScan envGetter (buffer.length + 1) buffer data).map fun data => (sigarOk, data)

end Get

/-- `sigar_proc_env_entry_t`. -/
structure EnvEntry where
  key : CStr
  klen : Nat
  val : Option CStr
  vlen : Nat
  deriving DecidableEq

/-- `sigar_proc_env_get_key`. -/
def sigarProcEnvGetKey (entry : EnvEntry) (key : CStr) (klen : Nat) (val : CStr) (vlen : Nat) :
    EnvEntry × Status :=
  if entry.klen = klen ∧ strcmp entry.key key = .eq then
    ({ entry with val := some val, vlen := vlen }, 1)  -- foundit; stop iterating
  else (entry, sigarOk)

/-- The part of `ptql_env_match` before the comparison: `entry.val`, or the status of a failure. -/
def envLookup (sigarPid pid : SigarPid) (getenv : CStr → Option CStr) (environ : EnvironRead)
    (key : CStr) : Except EnvFault (Except Status (Option CStr)) := do
  let (status, entry) ← sigarProcEnvGet sigarProcEnvGetKey sigarPid pid getenv environ .key key
    ⟨key, key.length, none, 0⟩
  if status ≠ sigarOk then pure (.error status) else pure (.ok entry.val)

/-! ## The environment -/

/-- The key and the value of an entry; `none` if it has no `=`. -/
def splitEntry (entry : CStr) : Option (CStr × CStr) := cut '=' entry

/-- `getenv` in a program with these entries: as in glibc, an empty name is not looked for. -/
def getenv (entries : List CStr) (name : CStr) : Option CStr :=
  if name = [] then none
  else entries.findSome? fun entry =>
    if (name ++ ['=']).isPrefixOf entry then some (entry.drop (name.length + 1)) else none

/-- The environment block as the file shows it. -/
def block (entries : List CStr) : Text := entries.flatMap (· ++ [nul])

/-- The value of the first entry `key=value`. -/
def firstValue (key : CStr) : List CStr → Option CStr
  | [] => none
  | entry :: rest =>
    match splitEntry entry with
    | none => firstValue key rest
    | some (k, v) => if k = key then some v else firstValue key rest

/-- The scan gets to the first entry of the key, if there is one: it meets no entry without a `=`
    before it, and no key that is too long. -/
def ScanFits (key : CStr) : List CStr → Prop
  | [] => True
  | entry :: rest =>
    match splitEntry entry with
    | none => firstValue key rest = none
    | some (k, _) => k.length < keySize ∧ (k ≠ key → ScanFits key rest)

/-! ## `getenv` -/

/-- An entry has no `=`, or its first one splits it. -/
theorem entry_cases (entry : CStr) :
    ('=' ∉ entry ∧ splitEntry entry = none) ∨
    ∃ k v, entry = k ++ '=' :: v ∧ '=' ∉ k ∧ splitEntry entry = some (k, v) := by
  by_cases h : '=' ∈ entry
  · obtain ⟨k, v, rfl, hk⟩ := eq_append_cons_of_mem h
    exact Or.inr ⟨k, v, rfl, hk, cut_append v hk⟩
  · exact Or.inl ⟨h, cut_eq_none h⟩

theorem getenv_eq_firstValue {name : CStr} (hname : '=' ∉ name) (hne : name ≠ []) :
    ∀ entries : List CStr, getenv entries name = firstValue name entries := by
  intro entries
  unfold getenv
  rw [if_neg hne]
  induction entries with
  | nil => rfl
  | cons entry rest ih =>
    rw [findSome?_cons, firstValue, ih]
    by_cases hpre : (name ++ ['=']).isPrefixOf entry = true
    · -- `name=` in front: that is the first `=`
      obtain ⟨v, rfl⟩ := isPrefixOf_iff_prefix.mp hpre
      have hsplit : splitEntry (name ++ ['='] ++ v) = some (name, v) := by
        rw [append_assoc]
        exact cut_append v hname
      have hdrop : (name ++ ['='] ++ v).drop (name.length + 1) = v := by simp
      rw [if_pos hpre, hsplit, hdrop]
      show some v = if name = name then some v else _
      rw [if_pos rfl]
    · rw [if_neg hpre]
      rcases entry_cases entry with ⟨_, hsplit⟩ | ⟨k, v, rfl, _, hsplit⟩
      · rw [hsplit]
      · have hk : k ≠ name := by
          rintro rfl
          have hstart : k ++ ['='] <+: k ++ '=' :: v := ⟨v, by simp⟩
          exact absurd hstart (mt isPrefixOf_iff_prefix.mpr hpre)
        rw [hsplit]
        exact (if_neg hk).symm

/-! ## The scan -/

/-- What the scan for a key comes to, entry by entry. -/
def scanEntries (key : CStr) : List CStr → Except EnvFault (Option CStr)
  | [] => .ok none
  | entry :: rest =>
    match splitEntry entry with
    | none => .ok none
    | some (k, v) =>
      if keySize ≤ k.length then .error .keyBuffer
      else if k = key then .ok (some v)
      else scanEntries key rest

theorem sigarProcEnvGetKey_hit (key val : CStr) (vlen : Nat) :
    sigarProcEnvGetKey ⟨key, key.length, none, 0⟩ key key.length val vlen
      = (⟨key, key.length, some val, vlen⟩, 1) :=
  if_pos ⟨rfl, strcmp_eq_iff.mpr rfl⟩

theorem sigarProcEnvGetKey_miss {key k : CStr} (hne : k ≠ key) (klen : Nat) (val : CStr)
    (vlen : Nat) :
    sigarProcEnvGetKey ⟨key, key.length, none, 0⟩ k klen val vlen
      = (⟨key, key.length, none, 0⟩, sigarOk) :=
  if_neg fun h => hne (strcmp_eq_iff.mp h.2).symm

section Scan

variable {σ : Type} (envGetter : σ → CStr → Nat → CStr → Nat → σ × Status)

/-- **One round of the scan**: an entry `k=v` is handed to the callback. -/
theorem envScan_entry (fuel : Nat) {k v after : Text} (hk : '=' ∉ k) (hknul : nul ∉ k)
    (hvnul : nul ∉ v) (hafter : deref after = nul) (data : σ) :
    envScan envGetter (fuel + 1) (k ++ '=' :: (v ++ after)) data
      = if keySize ≤ k.length then .error .keyBuffer
        else if (envGetter data k k.length v v.length).2 ≠ sigarOk then
          .ok (envGetter data k k.length v v.length).1
        else envScan envGetter fuel after.tail (envGetter data k k.length v v.length).1 := by
  have hval : strchr (k ++ '=' :: (v ++ after)) '=' = some ('=' :: (v ++ after)) :=
    strchr_first _ hk hknul
  have hklen : (k ++ '=' :: (v ++ after)).length - ('=' :: (v ++ after)).length = k.length := by
    rw [length_append]
    omega
  have hdrop : (k ++ '=' :: (v ++ after)).drop (k.length + 1 + v.length + 1) = after.tail := by
    grind [length_append, length_cons, drop_past]
  rw [envScan, if_neg (by simp), hval]
  dsimp only
  rw [hklen, tail_cons, strlen_append hvnul hafter, take_left' rfl, take_left' rfl, hdrop]

/-- What the scan comes to, entry by entry. -/
def scanAll : List CStr → σ → Except EnvFault σ
  | [], data => .ok data
  | entry :: rest, data =>
    match splitEntry entry with
    | none => .ok data
    | some (k, v) =>
      if keySize ≤ k.length then .error .keyBuffer
      else if (envGetter data k k.length v v.length).2 ≠ sigarOk then
        .ok (envGetter data k k.length v v.length).1
      else scanAll rest (envGetter data k k.length v v.length).1

/-- **The scan of any bytes** is the one over the strings in them, with fuel for every byte. -/
theorem envScan_strings : ∀ (bytes : Text) (fuel : Nat), bytes.length < fuel → ∀ data : σ,
    envScan envGetter fuel bytes data = scanAll envGetter (strings bytes) data := by
  intro bytes
  induction bytes using strings_induction with
  | nil =>
    intro fuel hfuel data
    obtain ⟨fuel, rfl⟩ : ∃ n, fuel = n + 1 := ⟨fuel - 1, by omega⟩
    rfl
  | step entry after h ih =>
    intro fuel hfuel data
    obtain ⟨fuel, rfl⟩ : ∃ n, fuel = n + 1 := ⟨fuel - 1, by omega⟩
    rw [strings_append h, scanAll]
    rcases entry_cases entry with ⟨hno, hsplit⟩ | ⟨k, v, rfl, hk, hsplit⟩
    · -- no `=` before the NUL: the scan ends
      have hnone : strchr (entry ++ after) '=' = none := by
        rw [strchr_append _ hno h.no_nul]
        rcases h.cases with rfl | ⟨rest, rfl⟩ <;> rfl
      rw [envScan, if_neg h.ne_nil, hsplit, hnone]
    · have hknul : nul ∉ k := fun hmem => h.no_nul (mem_append_left _ hmem)
      have hvnul : nul ∉ v := fun hmem =>
        h.no_nul (mem_append_right _ (mem_cons_of_mem _ hmem))
      have hrest : after.tail.length < fuel := by grind
      rw [append_assoc, cons_append, hsplit, envScan_entry envGetter fuel hk hknul hvnul h.ends]
      dsimp only
      rw [ih fuel hrest]

end Scan

/-- The scan for a key. -/
theorem scanAll_key (key : CStr) : ∀ entries : List CStr,
    (scanAll sigarProcEnvGetKey entries ⟨key, key.length, none, 0⟩).map (fun entry => entry.val)
      = scanEntries key entries := by
  intro entries
  induction entries with
  | nil => rfl
  | cons entry rest ih =>
    rw [scanAll, scanEntries]
    cases hsplit : splitEntry entry with
    | none => rfl
    | some pair =>
      obtain ⟨k, v⟩ := pair
      dsimp only
      by_cases hlong : keySize ≤ k.length
      · rw [if_pos hlong, if_pos hlong]
        rfl
      · rw [if_neg hlong, if_neg hlong]
        by_cases hkey : k = key
        · subst hkey
          rw [sigarProcEnvGetKey_hit, if_pos rfl]
          rfl
        · simp [sigarProcEnvGetKey_miss, hkey, ih]

/-- The scan's answer is the first entry's value exactly when nothing stops it before. -/
theorem scanEntries_eq_iff (key : CStr) : ∀ entries : List CStr,
    scanEntries key entries = .ok (firstValue key entries) ↔ ScanFits key entries := by
  intro entries
  induction entries with
  | nil => exact iff_of_true rfl trivial
  | cons entry rest ih =>
    rw [scanEntries, firstValue, ScanFits]
    cases hsplit : splitEntry entry with
    | none =>
      dsimp only
      rw [Except.ok.injEq, eq_comm]
    | some pair => grind

/-! ## The two lookups -/

/-- For the own pid. -/
theorem envLookup_own (sigarPid : SigarPid) (getenv : CStr → Option CStr) (environ : EnvironRead)
    (key : CStr) : envLookup sigarPid sigarPid getenv environ key = .ok (.ok (getenv key)) := by
  unfold envLookup sigarProcEnvGet
  rw [if_pos ⟨rfl, rfl⟩]
  cases getenv key with
  | none => rfl
  | some value =>
    dsimp only
    rw [sigarProcEnvGetKey_hit]
    rfl

/-- For another pid, whose block is below `ARG_MAX`. -/
theorem envLookup_other {sigarPid other : SigarPid} (hother : other ≠ sigarPid)
    (getenv : CStr → Option CStr) {entries : List CStr} (hentries : ∀ e ∈ entries, nul ∉ e)
    (hsize : (block entries).length < argMax) (key : CStr) :
    envLookup sigarPid other getenv (.content (block entries)) key
      = (scanEntries key entries).map .ok := by
  unfold envLookup sigarProcEnvGet
  rw [if_neg fun h => hother h.2]
  dsimp only
  have hstrings : strings (block entries) = entries := by
    have h := strings_terminated hentries []
    rwa [append_nil, strings, append_nil] at h
  rw [take_of_length_le (Nat.le_of_lt hsize), if_neg (Nat.not_le.mpr hsize),
    envScan_strings _ _ _ (Nat.lt_succ_self _), hstrings, ← scanAll_key]
  cases scanAll sigarProcEnvGetKey entries ⟨key, key.length, none, 0⟩ with
  | error fault => rfl
  | ok entry => rfl

theorem getenv_eq_iff {key : CStr} (hkey : '=' ∉ key) (entries : List CStr) :
    getenv entries key = firstValue key entries ↔ (key = [] → firstValue [] entries = none) := by
  by_cases hempty : key = []
  · subst hempty
    have hnone : getenv entries [] = none := if_pos rfl
    rw [hnone]
    exact ⟨fun h _ => h.symm, fun h => (h rfl).symm⟩
  · exact iff_of_true (getenv_eq_firstValue hkey hempty entries) fun h => absurd h hempty

theorem map_ok_eq_iff {result : Except EnvFault (Option CStr)} {value : Option CStr} :
    result.map (@Except.ok Status (Option CStr)) = .ok (.ok value) ↔ result = .ok value := by
  cases result with
  | error fault => exact ⟨fun h => (by cases h), fun h => (by cases h)⟩
  | ok found =>
    constructor
    · intro h
      rw [Except.ok.inj (Except.ok.inj h)]
    · intro h
      rw [h]
      rfl

/-- **`Env.<key>` of the own pid and of another pid.**  Both give the value of the first entry
    `key=value` exactly when no entry has an empty key that is looked for, and the scan meets no
    entry without a `=` and no key of 128 bytes or more before the first entry of the key. -/
theorem envLookup_iff {sigarPid other : SigarPid} (hother : other ≠ sigarPid)
    {entries : List CStr} (hentries : ∀ e ∈ entries, nul ∉ e)
    (hsize : (block entries).length < argMax) {key : CStr} (hkey : '=' ∉ key) :
    (envLookup sigarPid sigarPid (getenv entries) (.content (block entries)) key
        = .ok (.ok (firstValue key entries)) ∧
      envLookup sigarPid other (getenv entries) (.content (block entries)) key
        = .ok (.ok (firstValue key entries))) ↔
    (key = [] → firstValue [] entries = none) ∧ ScanFits key entries := by
  rw [envLookup_own, envLookup_other hother (getenv entries) hentries hsize]
  refine and_congr ?_ ?_
  · rw [Except.ok.injEq, Except.ok.injEq]
    exact getenv_eq_iff hkey entries
  · rw [map_ok_eq_iff]
    exact scanEntries_eq_iff key entries

/-- `A=1` and `B=2`, and the key `B`. -/
theorem envLookup_iff_example :
    envLookup 1 1 (getenv [['A', '=', '1'], ['B', '=', '2']])
        (.content (block [['A', '=', '1'], ['B', '=', '2']])) ['B'] = .ok (.ok (some ['2'])) ∧
    envLookup 1 2 (getenv [['A', '=', '1'], ['B', '=', '2']])
        (.content (block [['A', '=', '1'], ['B', '=', '2']])) ['B'] = .ok (.ok (some ['2'])) :=
  (envLookup_iff (by decide) (by decide) (by decide) (by decide)).mpr
    ⟨by decide, by decide, fun _ => ⟨by decide, fun h => absurd rfl h⟩⟩

/-- `A` without a `=` in front: `getenv` finds `B=2`, the scan does not. -/
theorem bareEntry_differs :
    envLookup 1 1 (getenv [['A'], ['B', '=', '2']])
        (.content (block [['A'], ['B', '=', '2']])) ['B'] = .ok (.ok (some ['2'])) ∧
    envLookup 1 2 (getenv [['A'], ['B', '=', '2']])
        (.content (block [['A'], ['B', '=', '2']])) ['B'] = .ok (.ok none) := by
  decide +kernel

end Sigar.Proc.Env
