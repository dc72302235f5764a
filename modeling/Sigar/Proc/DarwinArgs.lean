/-
  The arguments and the environment of a process on Darwin.

  Source: `sigar_kern_proc_args_get`, `kern_proc_args_skip_argv`, `sigar_os_proc_args_get` and
  `sigar_proc_env_get` of `os/darwin/darwin_sigar.c`.

  The kernel gives one block of bytes (KERN_PROCARGS2): the number of arguments, the path of the
  program, NULs that fill up, and then the arguments and the environment as strings, one after the
  other.  Where the first argument starts is not said: it is looked for behind ALL the NULs.

  1. **Program** — the arguments are as many strings as the number says, the environment is the rest.
  2. **Strings** (`sigarKernProcArgsGet_strings`) — so the empty strings at the start are lost, while
     the number still counts them.
  3. **Result** — the arguments and the environment are those of the process exactly when the first
     argument is not empty (`darwin_delivered_iff`).
-/
import Sigar.Proc.Args
import Sigar.Proc.EnvScan
import Mathlib.Data.List.DropRight
import Mathlib.Data.List.GetD

namespace Sigar.Proc.Darwin

open CString NulStrings Args List

/-! ## The program -/

/-- `memcpy` into an `int`. -/
def intOf (bytes : Text) : Int32 :=
  (UInt32.ofNat (bytes.foldr (fun c n => c.toNat + 256 * n) 0)).toInt32

/-- `sigar_kern_proc_args_t`: the bytes from `ptr` to `end`, none where `ptr` is past the end, and the
    count.  The byte in front of `ptr` is a NUL. -/
structure Kargs where
  ptr : Text
  count : Int32

inductive DarwinFault where
  | length     -- a length below zero is copied
  | array (fault : ArgsFault)
  | keyBuffer  -- `key[klen] = '\0'` is outside of `key`
  | noEnd      -- the loop does not end
  deriving DecidableEq

section Get

/- What `sysctl` gives, and what lies in memory behind it. -/
variable (sysctl : Except Status Text) (behind : Text)

/-- `sigar_kern_proc_args_get`, for a caller that does not ask for the path. -/
def sigarKernProcArgsGet : Except Status Kargs :=
  match sysctl with
  | .error errno => .error errno
  | .ok buf =>
    let count := intOf (buf.take 4)
    let ptr := buf.drop 4
    let len := strlen (ptr ++ behind)
    if len + 1 = ptr.length then .error enoent
    else if ptr.length < len + 1 then .ok ⟨[], count⟩  -- past the end, which `==` does not see
    else
      let ptr := (ptr.drop (len + 1)).dropWhile (· = nul)  -- start of argv[0]
      if ptr = [] then .error enoent else .ok ⟨ptr, count⟩

/-- The loop of `kern_proc_args_skip_argv`. -/
def skipArgv : Nat → Text → Text
  | 0, ptr => ptr
  | count + 1, ptr =>
    if ptr = [] then ptr
    else skipArgv count (ptr.drop (strlen (ptr ++ behind) + 1))

/-- `kern_proc_args_skip_argv`: what is left, if anything. -/
def kernProcArgsSkipArgv (kargs : Kargs) : Except Status Text :=
  let ptr := skipArgv behind kargs.count.toInt.toNat kargs.ptr
  if ptr = [] then .error enoent else .ok ptr

/-- The loop that takes trailing blanks off, from `slen` on; `front` is the byte in front of the
    string, which is looked at where the string is empty. -/
def trimLoop (front : Char) (ptr : Text) : Nat → Int
  | 0 => if front = ' ' then -1 else 0
  | slen + 1 =>
    if ptr.getD slen nul = ' ' then
      if slen = 0 then 0 else trimLoop front ptr slen
    else slen + 1

/-- The loop of `sigar_os_proc_args_get`; `front` is the byte in front of `ptr`. -/
def argsLoop : Nat → Char → Text → ProcArgs → Except DarwinFault ProcArgs
  | 0, _, _, procargs => .ok procargs
  | count + 1, front, ptr, procargs =>
    if ptr = [] then .ok procargs
    else
      let bytes := ptr ++ behind
      let alen := strlen bytes + 1
      let slen := trimLoop front bytes (strlen bytes)
      if slen < 0 then .error .length
      else match appendArg procargs (bytes.take slen.toNat) with
        | .error fault => .error (.array fault)
        | .ok procargs => argsLoop count (bytes.getD (alen - 1) nul) (ptr.drop alen) procargs

/-- `sigar_os_proc_args_get`: the status, and the arguments. -/
def sigarOsProcArgsGet (procargs : ProcArgs) : Except DarwinFault (Status × ProcArgs) :=
  match sigarKernProcArgsGet sysctl behind with
  | .error status => .ok (status, procargs)
  | .ok kargs =>
    (argsLoop behind kargs.count.toInt.toNat nul kargs.ptr procargs).map fun procargs =>
      (sigarOk, procargs)

/-- `sizeof(key)`. -/
def keySize : Nat := 256

variable {σ : Type} (envGetter : σ → CStr → Nat → CStr → Nat → σ × Status)

/-- The loop of `sigar_proc_env_get`, for at most `fuel` rounds. -/
def envLoop : Nat → Text → σ → Except DarwinFault σ
  | 0, _, _ => .error .noEnd
  | fuel + 1, ptr, data =>
    if ptr = [] then .ok data
    else match strchr (ptr ++ behind) '=' with
      | none => .ok data  -- not key=val format
      | some val =>
        let bytes := ptr ++ behind
        let klen := bytes.length - val.length
        if keySize ≤ klen then .error .keyBuffer
        else
          let key := bytes.take klen
          let val := val.tail
          let vlen := strlen val
          let (data, status) := envGetter data key klen (val.take vlen) vlen
          if status ≠ sigarOk then .ok data  -- not an error; just stop iterating
          else
            let next := klen + 1 + vlen + 1
            if deref (bytes.drop next) = nul then .ok data
            else envLoop fuel (ptr.drop next) data

/-- `sigar_proc_env_get`: the status, and the callback's data. -/
def sigarProcEnvGet (data : σ) : Except DarwinFault (Status × σ) :=
  match sigarKernProcArgsGet sysctl behind with
  | .error status => .ok (status, data)
  | .ok kargs =>
    match kernProcArgsSkipArgv behind kargs with
    | .error status => .ok (status, data)
    | .ok ptr =>
      (envLoop behind envGetter (ptr.length + 1) ptr data).map fun data => (sigarOk, data)

end Get

/-! ## What the kernel gives -/

/-- The bytes of an `int`, the lowest one first. -/
def intBytes (n : Nat) : Text :=
  [Char.ofNat (n % 256), Char.ofNat (n / 256 % 256), Char.ofNat (n / 65536 % 256),
    Char.ofNat (n / 16777216 % 256)]

/-- A variable: its key and its value. -/
structure Variable where
  key : CStr
  value : CStr
  key_ne_nil : key ≠ []
  key_short : key.length < keySize
  key_plain : '=' ∉ key
  key_string : nul ∉ key
  value_string : nul ∉ value

def Variable.entry (v : Variable) : CStr := v.key ++ '=' :: v.value

/-- A process as the kernel shows it. -/
structure ProcRecord where
  path : CStr
  padding : Nat
  args : List CStr
  env : List Variable
  path_string : nul ∉ path
  args_strings : ∀ arg ∈ args, nul ∉ arg
  count_fits : args.length < 2147483648

namespace ProcRecord

/-- The strings behind the padding. -/
def strings (r : ProcRecord) : List CStr := r.args ++ r.env.map Variable.entry

/-- KERN_PROCARGS2. -/
def bytes (r : ProcRecord) : Text :=
  intBytes r.args.length ++ (r.path ++ nul :: (replicate r.padding nul ++ terminated r.strings))

end ProcRecord

/-- An argument without the blanks at its end. -/
def trimmed (arg : CStr) : CStr := arg.rdropWhile (· = ' ')

/-- **What is promised for a process**: exactly the arguments and exactly the variables are delivered, and
    the status is an error only where there is nothing to deliver. -/
structure Delivered (r : ProcRecord) (behind : Text) : Prop where
  args : ∃ status procargs,
    sigarOsProcArgsGet (.ok r.bytes) behind sigarProcArgsCreate = .ok (status, procargs) ∧
    procargs.data = r.args.map trimmed ∧ (status = sigarOk ∨ r.args = [])
  env : ∀ (σ : Type) (envGetter : σ → CStr → Nat → CStr → Nat → σ × Status) (data : σ), ∃ status,
    sigarProcEnvGet (.ok r.bytes) behind envGetter data
        = .ok (status, Env.walk envGetter (r.env.map fun v => (v.key, v.value)) data) ∧
      (status = sigarOk ∨ r.env = [])

/-! ## The count and the start -/

theorem toNat_ofNat_byte : ∀ n < 256, (Char.ofNat n).toNat = n := by decide +kernel

/-- The count is read as it was written. -/
theorem intOf_intBytes {n : Nat} (hn : n < 2147483648) : (intOf (intBytes n)).toInt.toNat = n := by
  have hsum : (intBytes n).foldr (fun c n => c.toNat + 256 * n) 0 = n := by
    show (Char.ofNat (n % 256)).toNat + 256 * ((Char.ofNat (n / 256 % 256)).toNat
      + 256 * ((Char.ofNat (n / 65536 % 256)).toNat
      + 256 * ((Char.ofNat (n / 16777216 % 256)).toNat + 256 * 0))) = n
    rw [toNat_ofNat_byte _ (by omega), toNat_ofNat_byte _ (by omega), toNat_ofNat_byte _ (by omega),
      toNat_ofNat_byte _ (by omega)]
    omega
  rw [intOf, hsum, UInt32.toInt32_ofNat', Int32.toInt_ofNat_of_lt (by omega)]
  exact Int.toNat_natCast n

theorem terminated_cons (s : CStr) (ss : List CStr) :
    terminated (s :: ss) = s ++ nul :: terminated ss := by
  rw [terminated, flatMap_cons, append_assoc]
  rfl

theorem terminated_eq_nil_iff {ss : List CStr} : terminated ss = [] ↔ ss = [] := by
  cases ss with
  | nil => exact iff_of_true rfl rfl
  | cons s ss =>
    rw [terminated_cons]
    exact iff_of_false (by simp) (cons_ne_nil _ _)

theorem length_le_terminated (ss : List CStr) : ss.length ≤ (terminated ss).length := by
  induction ss with
  | nil => exact Nat.le_refl 0
  | cons s ss ih =>
    rw [terminated_cons, length_append, length_cons, length_cons]
    omega

/-- The string at the start ends at its NUL, and the others follow. -/
theorem strlen_terminated {s : CStr} (hs : nul ∉ s) (ss : List CStr) (behind : Text) :
    strlen (terminated (s :: ss) ++ behind) = s.length := by
  rw [terminated_cons, append_assoc]
  exact strlen_append hs rfl

theorem drop_terminated (s : CStr) (ss : List CStr) :
    (terminated (s :: ss)).drop (s.length + 1) = terminated ss := by
  rw [terminated_cons, drop_past, tail_cons]

/-- **Skipping NULs skips empty strings.** -/
theorem dropWhile_terminated : ∀ {ss : List CStr}, (∀ s ∈ ss, nul ∉ s) →
    (terminated ss).dropWhile (· = nul) = terminated (ss.dropWhile (· = [])) := by
  intro ss
  induction ss with
  | nil => intro _; rfl
  | cons s ss ih =>
    intro hss
    rw [terminated_cons]
    cases s with
    | nil =>
      rw [nil_append, dropWhile_cons_of_pos (by simp), dropWhile_cons_of_pos (by simp)]
      exact ih fun s hs => hss s (mem_cons_of_mem [] hs)
    | cons c s =>
      have hc : c ≠ nul := fun h => hss (c :: s) mem_cons_self (h ▸ mem_cons_self)
      rw [cons_append, dropWhile_cons_of_neg (by simpa using hc), dropWhile_cons_of_neg (by simp),
        terminated_cons, cons_append]

theorem ProcRecord.strings_strings (r : ProcRecord) : ∀ s ∈ r.strings, nul ∉ s := by
  intro s hs
  rcases mem_append.mp hs with hs | hs
  · exact r.args_strings s hs
  · obtain ⟨v, -, rfl⟩ := mem_map.mp hs
    intro hnul
    rcases mem_append.mp hnul with hnul | hnul
    · exact v.key_string hnul
    · rcases mem_cons.mp hnul with hnul | hnul
      · exact absurd hnul (by decide)
      · exact v.value_string hnul

/-- The strings that are left behind the NULs. -/
def ProcRecord.left (r : ProcRecord) : List CStr := r.strings.dropWhile (· = [])

/-- **Where the arguments are taken to start**: at the first string that is not empty. -/
theorem sigarKernProcArgsGet_strings (r : ProcRecord) (behind : Text) :
    sigarKernProcArgsGet (.ok r.bytes) behind
      = if r.left = [] then .error enoent
        else .ok ⟨terminated r.left, intOf (intBytes r.args.length)⟩ := by
  have htake : r.bytes.take 4 = intBytes r.args.length := rfl
  have hdrop : r.bytes.drop 4
      = r.path ++ nul :: (replicate r.padding nul ++ terminated r.strings) := rfl
  have hpath : strlen (r.path ++ nul :: (replicate r.padding nul ++ terminated r.strings)
      ++ behind) = r.path.length := by
    rw [append_assoc]
    exact strlen_append r.path_string rfl
  have hskip : (replicate r.padding nul ++ terminated r.strings).dropWhile (· = nul)
      = terminated r.left := by
    rw [dropWhile_append_of_pos fun c hc => by simp [eq_of_mem_replicate hc],
      dropWhile_terminated r.strings_strings]
    rfl
  have hlength : (r.path ++ nul :: (replicate r.padding nul ++ terminated r.strings)).length
      = r.path.length + 1 + (replicate r.padding nul ++ terminated r.strings).length := by
    rw [length_append, length_cons]
    omega
  rw [sigarKernProcArgsGet, htake, hdrop, hpath, hlength, drop_past, tail_cons]
  dsimp only
  rw [hskip]
  by_cases hleft : r.left = []
  · rw [hleft, if_pos rfl]
    split
    · rfl
    · rw [if_neg (by omega)]
      rfl
  · have hne : replicate r.padding nul ++ terminated r.strings ≠ [] := by
      intro hnil
      rw [hnil] at hskip
      exact hleft (terminated_eq_nil_iff.mp hskip.symm)
    have hpos := length_pos_of_ne_nil hne
    rw [if_neg (by omega), if_neg (by omega), if_neg (mt terminated_eq_nil_iff.mp hleft),
      if_neg hleft]

/-! ## The loops over strings -/

/-- **The blanks are counted off** from the end of a string. -/
theorem trimLoop_string (arg : CStr) : ∀ rest, trimLoop nul (arg ++ rest) arg.length
    = (trimmed arg).length := by
  induction arg using reverseRecOn with
  | nil => intro rest; rfl
  | append_singleton arg c ih =>
    intro rest
    have hat : (arg ++ [c] ++ rest).getD arg.length nul = c := by simp
    rw [length_append, length_singleton, trimLoop, hat, trimmed]
    by_cases hc : c = ' '
    · rw [if_pos hc, rdropWhile_concat_pos _ _ _ (by simpa using hc), ← trimmed]
      split
      case isTrue hzero =>
        rw [length_eq_zero_iff.mp hzero]
        rfl
      case isFalse =>
        rw [append_assoc]
        exact ih ([c] ++ rest)
    · rw [if_neg hc, rdropWhile_concat_neg _ _ _ (by simpa using hc), length_append]
      rfl

theorem take_trimmed (arg rest : Text) :
    (arg ++ rest).take (trimmed arg).length = trimmed arg := by
  have hfront := rdropWhile_prefix (fun c => decide (c = ' ')) arg
  exact (prefix_iff_eq_take.mp (hfront.trans (prefix_append arg rest))).symm

section Loops

variable (behind : Text)

/-- **The arguments are the next strings**, as many as the count says. -/
theorem argsLoop_strings : ∀ (count : Nat) {ss : List CStr} {procargs : ProcArgs},
    (∀ s ∈ ss, nul ∉ s) → procargs.data.length ≤ procargs.size →
      ∃ out, argsLoop behind count nul (terminated ss) procargs = .ok out ∧
        out.data = procargs.data ++ (ss.take count).map trimmed := by
  intro count
  induction count with
  | zero =>
    intro ss procargs _ _
    exact ⟨procargs, rfl, (append_nil _).symm⟩
  | succ count ih =>
    intro ss procargs hss hsize
    rw [argsLoop]
    cases ss with
    | nil => exact ⟨procargs, if_pos rfl, (append_nil _).symm⟩
    | cons s ss =>
      have hne : terminated (s :: ss) ≠ [] := mt terminated_eq_nil_iff.mp (cons_ne_nil s ss)
      have hbytes : terminated (s :: ss) ++ behind = s ++ nul :: (terminated ss ++ behind) := by
        rw [terminated_cons, append_assoc]
        rfl
      have hend : (s ++ nul :: (terminated ss ++ behind)).getD s.length nul = nul := by simp
      obtain ⟨next, happend, hdata, hnext⟩ := appendArg_ok hsize (trimmed s)
      obtain ⟨out, hout, houtData⟩ := ih (fun s' hs' => hss s' (mem_cons_of_mem s hs')) hnext
      refine ⟨out, ?_, ?_⟩
      · grind [strlen_terminated, trimLoop_string, Int.toNat_natCast, take_trimmed,
          Nat.add_sub_cancel, drop_terminated]
      · rw [houtData, hdata, append_assoc, take_succ_cons, map_cons]
        rfl

theorem skipArgv_strings : ∀ (count : Nat) {ss : List CStr}, (∀ s ∈ ss, nul ∉ s) →
    skipArgv behind count (terminated ss) = terminated (ss.drop count) := by
  intro count
  induction count with
  | zero => intro ss _; rfl
  | succ count ih =>
    intro ss hss
    rw [skipArgv]
    cases ss with
    | nil => exact if_pos rfl
    | cons s ss =>
      rw [if_neg (mt terminated_eq_nil_iff.mp (cons_ne_nil s ss)),
        strlen_terminated (hss s mem_cons_self), drop_terminated, drop_succ_cons]
      exact ih fun s' hs' => hss s' (mem_cons_of_mem s hs')

/-- A variable starts with a character of its key. -/
theorem deref_variable (v : Variable) (rest : Text) : deref (v.entry ++ rest) ≠ nul := by
  obtain ⟨c, key, hkey⟩ := exists_cons_of_ne_nil v.key_ne_nil
  have hhead : deref (v.entry ++ rest) = c := by
    rw [Variable.entry, hkey]
    rfl
  rw [hhead]
  intro hc
  refine v.key_string ?_
  rw [hkey, hc]
  exact mem_cons_self

/-- **The environment is the rest of the strings**, whatever lies behind them. -/
theorem envLoop_variables {σ : Type} (envGetter : σ → CStr → Nat → CStr → Nat → σ × Status) :
    ∀ (vars : List Variable) (fuel : Nat) (data : σ), vars.length < fuel →
      envLoop behind envGetter fuel (terminated (vars.map Variable.entry)) data
        = .ok (Env.walk envGetter (vars.map fun v => (v.key, v.value)) data) := by
  intro vars
  induction vars with
  | nil =>
    intro fuel data hfuel
    obtain ⟨fuel, rfl⟩ : ∃ n, fuel = n + 1 := ⟨fuel - 1, by omega⟩
    rfl
  | cons v vars ih =>
    intro fuel data hfuel
    rw [length_cons] at hfuel
    obtain ⟨fuel, rfl⟩ : ∃ n, fuel = n + 1 := ⟨fuel - 1, by omega⟩
    let more := terminated (vars.map Variable.entry)
    have hne : terminated ((v :: vars).map Variable.entry) ≠ [] :=
      mt terminated_eq_nil_iff.mp (cons_ne_nil _ _)
    have hptr : terminated ((v :: vars).map Variable.entry) = v.entry ++ nul :: more :=
      terminated_cons _ _
    have hbytes : v.entry ++ nul :: more ++ behind
        = v.key ++ '=' :: (v.value ++ nul :: (more ++ behind)) := by
      rw [Variable.entry, append_assoc, append_assoc]
      rfl
    have hvlen : strlen (v.value ++ nul :: (more ++ behind)) = v.value.length :=
      strlen_append v.value_string rfl
    have hklen : (v.key ++ '=' :: (v.value ++ nul :: (more ++ behind))).length
        - ('=' :: (v.value ++ nul :: (more ++ behind))).length = v.key.length := by
      rw [length_append, Nat.add_sub_cancel]
    have hnext : v.key.length + 1 + v.value.length + 1 = v.entry.length + 1 := by
      rw [Variable.entry, length_append, length_cons]
      omega
    rw [envLoop, if_neg hne, hptr, hbytes, strchr_first _ v.key_plain v.key_string]
    dsimp only
    rw [hklen, if_neg (Nat.not_le.mpr v.key_short), take_left' rfl, tail_cons, hvlen,
      take_left' rfl, map_cons, Env.walk, hnext, ← hbytes]
    split
    · rfl
    · rw [append_assoc, drop_past, drop_past]
      show (if deref (more ++ behind) = nul then _ else envLoop behind envGetter fuel more _) = _
      cases vars with
      | nil =>
        -- the byte behind the block is looked at, and does not matter
        have hlast := ih fuel (envGetter data v.key v.key.length v.value v.value.length).1
          (by rw [length_nil]; omega)
        split
        · rfl
        · exact hlast
      | cons w vars =>
        have hmore : deref (more ++ behind) ≠ nul := by
          grind [terminated_cons, append_assoc, deref_variable]
        rw [if_neg hmore]
        exact ih fuel _ (by omega)

end Loops

/-! ## The empty strings at the start -/

section Record

variable {r : ProcRecord} {behind : Text}

/-- The number of strings that are lost. -/
def ProcRecord.lost (r : ProcRecord) : Nat :=
  r.args.length - (r.args.dropWhile (· = [])).length

theorem length_dropWhile_args (r : ProcRecord) :
    (r.args.dropWhile (· = [])).length + r.lost = r.args.length :=
  Nat.add_sub_cancel' (dropWhile_suffix _).length_le

theorem lost_eq_zero_iff : r.lost = 0 ↔ r.args.head? ≠ some [] := by
  rw [ProcRecord.lost]
  cases r.args with
  | nil => exact iff_of_true rfl (fun h => nomatch h)
  | cons arg args =>
    cases arg with
    | nil =>
      rw [dropWhile_cons_of_pos (by simp), length_cons]
      have hle : (args.dropWhile (· = [])).length ≤ args.length :=
        (dropWhile_suffix _).length_le
      exact iff_of_false (by omega) (by simp)
    | cons c arg => simp

/-- The environment moves up by as many. -/
theorem left_eq (r : ProcRecord) :
    r.left = r.args.dropWhile (· = []) ++ r.env.map Variable.entry := by
  have henv : (r.env.map Variable.entry).dropWhile (· = []) = r.env.map Variable.entry := by
    simp [Variable.entry]
  rw [ProcRecord.left, ProcRecord.strings, dropWhile_append]
  split
  case isTrue hnone => rw [List.isEmpty_iff.mp hnone, henv, nil_append]
  case isFalse => rfl

theorem left_strings : ∀ s ∈ r.left, nul ∉ s := fun s hs =>
  r.strings_strings s ((dropWhile_suffix _).subset hs)

theorem take_left (r : ProcRecord) : r.left.take r.args.length
    = r.args.dropWhile (· = []) ++ (r.env.take r.lost).map Variable.entry := by
  rw [left_eq, ← length_dropWhile_args, take_length_add_append, map_take]

theorem drop_left (r : ProcRecord) :
    r.left.drop r.args.length = (r.env.drop r.lost).map Variable.entry := by
  rw [left_eq, ← length_dropWhile_args, drop_length_add_append, map_drop]

/-- **What the arguments come to**, whatever the first one is. -/
theorem sigarOsProcArgsGet_eq (r : ProcRecord) (behind : Text) :
    ∃ status procargs,
      sigarOsProcArgsGet (.ok r.bytes) behind sigarProcArgsCreate = .ok (status, procargs) ∧
      procargs.data = (r.left.take r.args.length).map trimmed ∧
      (status = sigarOk ∨ r.left = []) := by
  rw [sigarOsProcArgsGet, sigarKernProcArgsGet_strings]
  by_cases hleft : r.left = []
  · rw [if_pos hleft]
    refine ⟨enoent, sigarProcArgsCreate, rfl, ?_, .inr hleft⟩
    rw [hleft, take_nil]
    rfl
  · rw [if_neg hleft]
    dsimp only
    rw [intOf_intBytes r.count_fits]
    obtain ⟨out, hout, hdata⟩ := @argsLoop_strings behind r.args.length r.left sigarProcArgsCreate
      left_strings (Nat.zero_le _)
    refine ⟨sigarOk, out, ?_, hdata, .inl rfl⟩
    rw [hout]
    rfl

/-- **What the environment comes to.** -/
theorem sigarProcEnvGet_eq (r : ProcRecord) (behind : Text) {σ : Type}
    (envGetter : σ → CStr → Nat → CStr → Nat → σ × Status) (data : σ) : ∃ status,
    sigarProcEnvGet (.ok r.bytes) behind envGetter data
        = .ok (status, Env.walk envGetter ((r.env.drop r.lost).map fun v => (v.key, v.value)) data) ∧
      (status = sigarOk ∨ r.env.drop r.lost = []) := by
  have hskip := skipArgv_strings behind r.args.length (@left_strings r)
  have hdrop := drop_left r
  rw [sigarProcEnvGet, sigarKernProcArgsGet_strings]
  generalize r.env.drop r.lost = vars at hdrop ⊢
  rw [hdrop] at hskip
  by_cases hleft : r.left = []
  · have hnone : vars = [] := by
      rw [hleft, drop_nil] at hdrop
      exact map_eq_nil_iff.mp hdrop.symm
    rw [if_pos hleft, hnone]
    exact ⟨enoent, rfl, .inr rfl⟩
  · rw [if_neg hleft]
    dsimp only
    rw [kernProcArgsSkipArgv]
    dsimp only
    rw [intOf_intBytes r.count_fits, hskip]
    by_cases henv : vars = []
    · rw [henv]
      exact ⟨enoent, rfl, .inr rfl⟩
    · have hne : terminated (vars.map Variable.entry) ≠ [] := by
        rw [ne_eq, terminated_eq_nil_iff, map_eq_nil_iff]
        exact henv
      have hfuel : vars.length < (terminated (vars.map Variable.entry)).length + 1 := by
        have hle := length_le_terminated (vars.map Variable.entry)
        rw [length_map] at hle
        omega
      rw [if_neg hne]
      dsimp only
      rw [envLoop_variables behind envGetter vars _ data hfuel]
      exact ⟨sigarOk, rfl, .inl rfl⟩

theorem delivered_of_lost (hlost : r.lost = 0) : Delivered r behind := by
  have hargs := take_left r
  have hkept : r.args.dropWhile (· = []) = r.args :=
    (dropWhile_suffix _).eq_of_length (by have := length_dropWhile_args r; omega)
  rw [hlost, hkept, take_zero, map_nil, append_nil] at hargs
  constructor
  · obtain ⟨status, procargs, hget, hdata, hstatus⟩ := sigarOsProcArgsGet_eq r behind
    refine ⟨status, procargs, hget, by rw [hdata, hargs], hstatus.imp_right fun hnone => ?_⟩
    rw [← hargs, hnone, take_nil]
  · intro σ envGetter data
    have henv := sigarProcEnvGet_eq r behind envGetter data
    rwa [hlost, drop_zero] at henv

/-- **Too many are taken**, or too few are there: the numbers of arguments and of variables tell. -/
theorem lost_of_delivered (h : Delivered r behind) : r.lost = 0 := by
  obtain ⟨status, procargs, hget, hdata, -⟩ := h.args
  obtain ⟨status', procargs', hget', hdata', -⟩ := sigarOsProcArgsGet_eq r behind
  rw [hget, Except.ok.injEq, Prod.mk.injEq] at hget'
  rw [← hget'.2, hdata, take_left] at hdata'
  obtain ⟨status, henv, -⟩ := h.env _ Env.record []
  obtain ⟨status', henv', -⟩ := sigarProcEnvGet_eq r behind Env.record []
  rw [henv, Except.ok.injEq, Prod.mk.injEq, Env.walk_record, Env.walk_record] at henv'
  have hargs := congrArg List.length hdata'
  have hvars := congrArg List.length henv'.2
  have hkept := length_dropWhile_args r
  simp only [length_map, length_append, length_take, length_drop, nil_append] at hargs hvars
  omega

end Record

/-- **The arguments and the environment are those of the process exactly when its first argument is
    not empty.** -/
theorem darwin_delivered_iff (r : ProcRecord) (behind : Text) :
    Delivered r behind ↔ r.args.head? ≠ some [] := by
  rw [← lost_eq_zero_iff]
  exact ⟨lost_of_delivered, delivered_of_lost⟩

/-- A program that is called with two arguments, an empty one and `-l`, and has one variable. -/
def emptyFirst : ProcRecord where
  path := "/bin/ls".toList
  padding := 3
  args := [[], "-l".toList]
  env := [⟨"A".toList, "b".toList, by decide, by decide, by decide, by decide, by decide⟩]
  path_string := by decide
  args_strings := by decide
  count_fits := by decide

/-- **A variable is returned as an argument**, and the environment is empty. -/
theorem emptyFirst_shifts :
    (sigarOsProcArgsGet (.ok emptyFirst.bytes) [] sigarProcArgsCreate).map (fun out => out.2.data)
      = .ok ["-l".toList, "A=b".toList] ∧
    sigarProcEnvGet (.ok emptyFirst.bytes) []
        (fun seen key _ val _ => (seen ++ [(key, val)], sigarOk)) ([] : List (CStr × CStr))
      = .ok (enoent, []) ∧
    ¬ Delivered emptyFirst [] := by
  have hargs : (sigarOsProcArgsGet (.ok emptyFirst.bytes) [] sigarProcArgsCreate).map
      (fun out => out.2.data) = .ok ["-l".toList, "A=b".toList] := by
    decide +kernel
  refine ⟨hargs, by decide +kernel, fun hdelivered => ?_⟩
  obtain ⟨status, procargs, hget, hdata, -⟩ := hdelivered.args
  rw [hget] at hargs
  have hsame : procargs.data = ["-l".toList, "A=b".toList] := Except.ok.inj hargs
  rw [hdata] at hsame
  exact absurd hsame (by decide +kernel)

end Sigar.Proc.Darwin
