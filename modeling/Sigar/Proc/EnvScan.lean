/-
  Walking over a process's environment with any callback.

  Source: `sigar_proc_env_get` of `os/linux/linux_sigar.c`, whose model is in `Sigar.Proc.Env`.

  1. **Specification** — `walk`: the callback gets every `key=value` of the bytes that were read, in
     order, until it says stop.
  2. **When the scan does this** — `EnvFits`.  The array has no place for the NUL behind a read that
     fills it, and a read that fails leaves the length -1; a key of 128 bytes is written behind the
     end of `key`; an entry without a `=` ends the scan.
  3. **Correctness** — `sigarProcEnvGet_right_iff`, for everything that `read` can return.
-/
import Sigar.Proc.Env

namespace Sigar.Proc.Env

open CString NulStrings List

/-! ## The specification -/

/-- The entries of the form `key=value`. -/
def keyValues (entries : List CStr) : List (CStr × CStr) := entries.filterMap splitEntry

section Walk

variable {σ : Type} (envGetter : σ → CStr → Nat → CStr → Nat → σ × Status)

/-- The callback gets one pair after the other, with their lengths, until it stops. -/
def walk : List (CStr × CStr) → σ → σ
  | [], data => data
  | (k, v) :: rest, data =>
    if (envGetter data k k.length v v.length).2 ≠ sigarOk then
      (envGetter data k k.length v v.length).1
    else walk rest (envGetter data k k.length v v.length).1

/-- What a call must come to: an error, with the callback's data as they were, or the walk. -/
def Right (environ : EnvironRead) (data : σ) (result : Except EnvFault (Status × σ)) : Prop :=
  match environ with
  | .content bytes => result = .ok (sigarOk, walk envGetter (keyValues (strings bytes)) data)
  | _ => ∃ status, status ≠ sigarOk ∧ result = .ok (status, data)

end Walk

/-- The bytes for which the scan is the walk. -/
structure EnvFits (bytes : Text) : Prop where
  /-- There is place for a NUL behind them. -/
  short : bytes.length < argMax
  /-- The keys fit their array. -/
  keys : ∀ entry ∈ strings bytes, ∀ k v, splitEntry entry = some (k, v) → k.length < keySize
  /-- Nothing of the form `key=value` stands behind an entry that has no `=`. -/
  bare : (strings bytes).Pairwise fun a b => splitEntry a = none → splitEntry b = none

/-! ## The scan over entries -/

/-- The entries for which the scan is the walk, one after the other. -/
def EntriesFit : List CStr → Prop
  | [] => True
  | entry :: rest =>
    match splitEntry entry with
    | none => keyValues rest = []
    | some (k, _) => k.length < keySize ∧ EntriesFit rest

theorem keyValues_eq_nil_iff {entries : List CStr} :
    keyValues entries = [] ↔ ∀ entry ∈ entries, splitEntry entry = none :=
  filterMap_eq_nil_iff

theorem entriesFit_iff : ∀ {entries : List CStr},
    EntriesFit entries ↔
      (∀ entry ∈ entries, ∀ k v, splitEntry entry = some (k, v) → k.length < keySize) ∧
      entries.Pairwise fun a b => splitEntry a = none → splitEntry b = none := by
  intro entries
  induction entries with
  | nil => simp [EntriesFit]
  | cons entry rest ih =>
    rw [EntriesFit, forall_mem_cons, pairwise_cons]
    cases hsplit : splitEntry entry with
    | none => grind [keyValues_eq_nil_iff, pairwise_of_forall_mem_list]
    | some pair => grind

/-- **The scan is the walk** for such entries, with every callback. -/
theorem scanAll_eq_walk {σ : Type} (envGetter : σ → CStr → Nat → CStr → Nat → σ × Status) :
    ∀ {entries : List CStr}, EntriesFit entries → ∀ data : σ,
      scanAll envGetter entries data = .ok (walk envGetter (keyValues entries) data) := by
  intro entries
  induction entries with
  | nil => intro _ data; rfl
  | cons entry rest ih =>
    intro hfits data
    rw [EntriesFit] at hfits
    rw [scanAll, keyValues]
    cases hsplit : splitEntry entry with
    | none =>
      rw [hsplit] at hfits
      rw [filterMap_cons_none hsplit]
      show Except.ok data = .ok (walk envGetter (keyValues rest) data)
      rw [hfits]
      rfl
    | some pair =>
      obtain ⟨k, v⟩ := pair
      rw [hsplit] at hfits
      rw [filterMap_cons_some hsplit, walk]
      dsimp only
      rw [if_neg (Nat.not_le.mpr hfits.1), ih hfits.2]
      split
      · rfl
      · rfl

/-- A callback that writes down what it gets. -/
def record (seen : List (CStr × CStr)) (key : CStr) (_ : Nat) (val : CStr) (_ : Nat) :
    List (CStr × CStr) × Status := (seen ++ [(key, val)], sigarOk)

theorem record_eq (seen : List (CStr × CStr)) (k v : CStr) (klen vlen : Nat) :
    record seen k klen v vlen = (seen ++ [(k, v)], sigarOk) := rfl

theorem walk_record : ∀ (pairs seen : List (CStr × CStr)), walk record pairs seen = seen ++ pairs := by
  intro pairs
  induction pairs with
  | nil => intro seen; exact (append_nil seen).symm
  | cons pair rest ih => simp [walk, record_eq, ih, append_assoc]

/-- Only for such entries: the record shows it. -/
theorem entriesFit_of_record : ∀ {entries : List CStr} {seen : List (CStr × CStr)},
    scanAll record entries seen = .ok (seen ++ keyValues entries) → EntriesFit entries := by
  intro entries
  induction entries with
  | nil => intro _ _; exact trivial
  | cons entry rest ih =>
    intro seen h
    rw [scanAll, keyValues] at h
    rw [EntriesFit]
    cases hsplit : splitEntry entry with
    | none =>
      rw [hsplit, filterMap_cons_none hsplit] at h
      exact self_eq_append_right.mp (Except.ok.inj h)
    | some pair =>
      obtain ⟨k, v⟩ := pair
      rw [hsplit, filterMap_cons_some hsplit] at h
      dsimp only at h ⊢
      by_cases hlong : keySize ≤ k.length
      · rw [if_pos hlong] at h
        cases h
      · have hseen : seen ++ [(k, v)] ++ keyValues rest = seen ++ (k, v) :: keyValues rest :=
          append_assoc ..
        rw [if_neg hlong, record_eq, if_neg (not_not_intro rfl)] at h
        exact ⟨Nat.not_le.mp hlong, ih (h.trans (congrArg Except.ok hseen.symm))⟩

/-! ## The call -/

section Call

variable {sigarPid pid : SigarPid} {type : EnvType} (getenv : CStr → Option CStr) (key : CStr)

/-- A call that does not look a key of the own process up, for bytes that leave place for a NUL. -/
theorem sigarProcEnvGet_content {σ : Type} (envGetter : σ → CStr → Nat → CStr → Nat → σ × Status)
    (hscan : ¬ (type = .key ∧ pid = sigarPid)) {bytes : Text} (hshort : bytes.length < argMax)
    (data : σ) :
    sigarProcEnvGet envGetter sigarPid pid getenv (.content bytes) type key data
      = (scanAll envGetter (strings bytes) data).map fun data => (sigarOk, data) := by
  grind [sigarProcEnvGet, take_of_length_le, envScan_strings]

/-- **`sigar_proc_env_get` is right for every callback** exactly when the read did not fail, and what
    it returned does not fill the array, has no key of 128 bytes or more, and no `key=value` behind
    an entry without a `=`. -/
theorem sigarProcEnvGet_right_iff (hscan : ¬ (type = .key ∧ pid = sigarPid)) {environ : EnvironRead}
    (hread : ∀ bytes, environ = .content bytes → bytes.length ≤ argMax)
    (hopen : ∀ errno, environ = .openError errno → errno ≠ sigarOk) :
    (∀ (σ : Type) (envGetter : σ → CStr → Nat → CStr → Nat → σ × Status) (data : σ),
        Right envGetter environ data
          (sigarProcEnvGet envGetter sigarPid pid getenv environ type key data)) ↔
      environ ≠ .readError ∧ ∀ bytes, environ = .content bytes → EnvFits bytes := by
  cases environ with
  | openError errno =>
    refine iff_of_true (fun σ envGetter data => ?_) ⟨fun h => (by cases h), fun _ h => (by cases h)⟩
    refine ⟨if errno = enoent then esrch else errno, ?_, ?_⟩
    · split
      · decide
      · exact hopen errno rfl
    · rw [sigarProcEnvGet, if_neg hscan]
  | readError =>
    refine iff_of_false (fun h => ?_) fun h => h.1 rfl
    obtain ⟨status, -, hresult⟩ := h Unit (fun _ _ _ _ _ => ((), sigarOk)) ()
    rw [sigarProcEnvGet, if_neg hscan] at hresult
    cases hresult
  | content bytes =>
    constructor
    · intro h
      refine ⟨fun h => (by cases h), fun b hb => ?_⟩
      obtain rfl := EnvironRead.content.inj hb
      have hrecord := h _ record []
      have hshort : bytes.length < argMax := by
        by_contra hfull
        have hlen := hread bytes rfl
        rw [sigarProcEnvGet, if_neg hscan] at hrecord
        dsimp only [Right] at hrecord
        rw [take_of_length_le hlen, if_pos (Nat.not_lt.mp hfull)] at hrecord
        cases hrecord
      rw [sigarProcEnvGet_content getenv key record hscan hshort, Right, walk_record] at hrecord
      have hfits : EntriesFit (strings bytes) := by
        cases hall : scanAll record (strings bytes) [] with
        | error fault =>
          rw [hall] at hrecord
          cases hrecord
        | ok seen =>
          rw [hall] at hrecord
          rw [(Prod.mk.inj (Except.ok.inj hrecord)).2] at hall
          exact entriesFit_of_record hall
      obtain ⟨hkeys, hbare⟩ := entriesFit_iff.mp hfits
      exact ⟨hshort, hkeys, hbare⟩
    · rintro ⟨-, hfits⟩ σ envGetter data
      obtain ⟨hshort, hkeys, hbare⟩ := hfits bytes rfl
      rw [sigarProcEnvGet_content getenv key envGetter hscan hshort,
        scanAll_eq_walk envGetter (entriesFit_iff.mpr ⟨hkeys, hbare⟩)]
      rfl

end Call

/-- Two variables and a bare word behind them, without a NUL at the end, read for another process. -/
theorem sigarProcEnvGet_right_iff_example :
    Right record (.content "A=1\x00B=\x00C".toList) []
      (sigarProcEnvGet record 1 2 (fun _ => none) (.content "A=1\x00B=\x00C".toList) .all [] []) := by
  refine (sigarProcEnvGet_right_iff (fun _ => none) [] (fun h => absurd h.1 (by decide))
    (fun bytes h => ?_) fun errno h => (by cases h)).mpr ⟨fun h => (by cases h), fun bytes h => ?_⟩
    _ record []
  · obtain rfl := EnvironRead.content.inj h
    decide
  · obtain rfl := EnvironRead.content.inj h
    have hkeys : ∀ entry ∈ strings "A=1\x00B=\x00C".toList,
        (splitEntry entry).all (·.1.length < keySize) = true := by decide
    refine ⟨by decide, fun entry he k v hsplit => ?_, by decide⟩
    have hkey := hkeys entry he
    rw [hsplit] at hkey
    exact of_decide_eq_true hkey

/-- A read that fails, a key of 128 bytes, and a string without a `=` in front of `B=2`. -/
theorem environ_mishandled :
    sigarProcEnvGet record 1 2 (fun _ => none) .readError .all [] [] = .error .readLength ∧
    sigarProcEnvGet record 1 2 (fun _ => none)
      (.content (replicate 128 'K' ++ "=1".toList)) .all [] [] = .error .keyBuffer ∧
    sigarProcEnvGet record 1 2 (fun _ => none) (.content "A\x00B=2\x00".toList) .all [] []
      = .ok (sigarOk, []) := by
  refine ⟨rfl, ?_, rfl⟩
  decide +kernel

end Sigar.Proc.Env
