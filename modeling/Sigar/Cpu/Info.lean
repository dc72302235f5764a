/-
  The entry of a processor in /proc/cpuinfo.

  Source: `get_cpu_info` with `cpu_info_strval` and `cpu_info_strcpy` of `os/linux/linux_sigar.c`,
  `sigar_cpu_model_adjust` of `sigar_util.c`, and `sigar_cpu_info_t` of `sigar.h`.

  `vendor` and `model` are arrays of 128 bytes, one behind the other, and `mhz` follows.  A copy is
  given the SIZE of its array and writes the NUL behind that many bytes: the first byte of the next
  member.  The model keeps the bytes as they lie in memory, so that such a write changes what it
  changes on the machine, and notes the accesses outside of a member in `strays`.

  1. **Program** — bytes, the copy, the model name, and the loop over the lines.
  2. **Specification** — `LineRight`: what the bytes are to be after a line.
  3. **When a line is right** — `getCpuInfo_right_iff`.  EVERY copy of a value leaves its array.
-/
import Sigar.Util
import Mathlib.Data.List.DropRight

namespace Sigar.Cpu

open CString List

/-! ## The bytes -/

/-- The members that are strings. -/
inductive Field where
  | vendor | model
  deriving DecidableEq

/-- `sizeof(info->vendor)` and `sizeof(info->model)`. -/
def fieldSize : Nat := 128

/-- Where a member starts. -/
def Field.offset : Field → Nat
  | .vendor => 0
  | .model => fieldSize

/-- The part of a `sigar_cpu_info_t` that is filled in: the bytes of `vendor` and `model`, `mhz` and
    `cache_size`; and the accesses so far that were outside of their array. -/
structure InfoState where
  chars : Text
  mhz : Int32
  cacheSize : UInt64
  strays : List (Field × Int)
  deriving DecidableEq

variable {s : InfoState} {field : Field}

/-- `memset(info, 0, sizeof(*info))`. -/
def InfoState.zero : InfoState := ⟨replicate (2 * fieldSize) nul, 0, 0, []⟩

/-- The bytes of a member. -/
def InfoState.bytes (s : InfoState) (field : Field) : Text :=
  (s.chars.drop field.offset).take fieldSize

/-- A member as a string.  Without a NUL of its own it goes on in the next member. -/
def InfoState.string (s : InfoState) (field : Field) : Text :=
  (s.chars.drop field.offset).takeWhile (· ≠ nul)

/-- Bytes that are written to the start of a member. -/
def InfoState.store (s : InfoState) (field : Field) (text : Text) : InfoState :=
  { s with chars := s.chars.take field.offset ++ text ++ s.chars.drop (field.offset + text.length) }

/-- An access to a byte outside of the member, noted. -/
def InfoState.access (s : InfoState) (field : Field) (i : Int) : InfoState :=
  if 0 ≤ i ∧ i < fieldSize then s else { s with strays := s.strays ++ [(field, i)] }

/-- `field[i] = '\0'`.  Behind `model` there is the low byte of `mhz` (the lowest bits come first); in
    front of `vendor` there is no member. -/
def InfoState.clear (s : InfoState) (field : Field) (i : Int) : InfoState :=
  let s := s.access field i
  let place := field.offset + i
  if place < 0 then s
  else if place < 2 * fieldSize then { s with chars := s.chars.set place.toNat nul }
  else { s with mhz := (s.mhz.toUInt32 &&& 0xFFFFFF00).toInt32 }

/-! ## Copies -/

/-- `cpu_info_strval`. -/
def cpuInfoStrval (ptr : Text) : Option Text :=
  (strchr ptr ':').map fun ptr => ptr.tail.dropWhile isSpace

/-- What `strncpy` writes to an array: a string, and NULs. -/
def strncpyBytes (src : Text) (n : Nat) : Text :=
  let text := (src.takeWhile (· ≠ nul)).take n
  text ++ replicate (n - text.length) nul

/-- `cpu_info_strcpy(ptr, field, sizeof(field))`. -/
def cpuInfoStrcpy (s : InfoState) (field : Field) (ptr : Text) : InfoState :=
  match cpuInfoStrval ptr with
  | none => s
  | some ptr =>
    let slen := strlen ptr
    let s := s.store field (strncpyBytes ptr fieldSize)
    let s := s.clear field fieldSize
    if slen < fieldSize then s.clear field ((slen : Int) - 1)  -- "rid \n"
    else s

/-- Where the values that are read are not known. -/
inductive InfoFault where
  | unterminated  -- `strlen(model)` leaves the array
  | beforeStart   -- `*end` is in front of the array
  | nullValue     -- `atoi(NULL)`
  deriving DecidableEq

/-- `cpu_models`: what a name starts with, and what is put in its place. -/
def cpuModels : List (Text × Text) := [
  ("Xeon".toList, "Xeon".toList), ("XEON".toList, "Xeon".toList),
  ("Pentium III".toList, "Pentium III".toList), ("Pentium II".toList, "Pentium II".toList),
  ("Pentium(R) III".toList, "Pentium III".toList), ("Pentium(R) 4".toList, "Pentium 4".toList),
  ("Pentium(R) M".toList, "Pentium M".toList), ("Pentium Pro".toList, "Pentium Pro".toList),
  ("Celeron".toList, "Celeron".toList), ("Opteron".toList, "Opteron".toList),
  ("Athlon".toList, "Athlon".toList), ("Duron".toList, "Duron".toList),
  ("K6(tm)-III".toList, "K6 III".toList), ("K6(tm) 3D+".toList, "K6 3D+".toList)]

/-- The blanks that both loops of the trimming skip. -/
def isBlank (c : Char) : Bool := c == ' '

/-- `ptr` behind the vendor, `(R)` and blanks. -/
def skipVendor (vendor ptr : Text) : Text :=
  if strnEq ptr vendor vendor.length then
    let ptr := ptr.drop vendor.length
    let ptr := if strnEq ptr "(R)".toList 3 then ptr.drop 3 else ptr
    ptr.dropWhile isBlank
  else ptr

/-- `sigar_cpu_model_adjust`. -/
def sigarCpuModelAdjust (s : InfoState) : Except InfoFault InfoState :=
  let copy := s.bytes .model  -- the array `model`
  if nul ∉ copy then .error .unterminated
  else
    let text := copy.takeWhile (· ≠ nul)
    if text.all isBlank then .error .beforeStart  -- `end` runs over the start
    else
      let ptr := (text.rdropWhile isBlank).dropWhile isBlank
      let s := if nul ∈ s.bytes .vendor then s else s.access .vendor fieldSize
      let ptr := skipVendor (s.string .vendor) ptr
      let ptr := if deref ptr = '-' then ptr.tail else ptr
      match cpuModels.find? fun model => strnEq ptr model.1 model.1.length with
      | some model => .ok (s.store .model (model.2 ++ [nul]))
      | none => .ok (s.store .model (ptr ++ [nul]))

/-! ## The loop -/

/-- The cases `v`: a vendor is copied, and two of them get a shorter name. -/
def vendorLine (s : InfoState) (line : Text) : InfoState :=
  let s := cpuInfoStrcpy s .vendor line
  if strcmp (s.string .vendor) "GenuineIntel".toList = .eq then
    s.store .vendor (strncpyBytes "Intel".toList fieldSize)
  else if strcmp (s.string .vendor) "AuthenticAMD".toList = .eq then
    s.store .vendor (strncpyBytes "AMD".toList fieldSize)
  else s

/-- What a line is about. -/
inductive LineKind where
  | processor | vendor | model | mhz | cacheSize | other
  deriving DecidableEq

/-- The tests of the switch: the first character, and the start of the line. -/
def lineKind (line : Text) : LineKind :=
  if strnEq line "processor".toList 9 then .processor
  else if strnEq line "vendor".toList 6 then .vendor
  else if strnEq line "family".toList 6 then .model
  else if strnEq line "model name".toList 10 then .model
  else if strnEq line "cpu MHz".toList 7 then .mhz
  else if strnEq line "cache size".toList 10 then .cacheSize
  else .other

/-- One line that is not empty. -/
def cpuInfoLine (s : InfoState) (line : Text) : Except InfoFault InfoState :=
  match lineKind line with
  | .vendor => .ok (vendorLine s line)
  | .model => sigarCpuModelAdjust (cpuInfoStrcpy s .model line)
  | .mhz =>
    match cpuInfoStrval line with
    | none => .error .nullValue
    | some ptr => .ok { s with mhz := atoi ptr }
  | .cacheSize =>
    match cpuInfoStrval line with
    | none => .error .nullValue
    | some ptr => .ok { s with cacheSize := (strtoull ptr).value }
  | .processor | .other => .ok s

/-- `get_cpu_info` over the lines that `fgets` returns: the structure, and `found`. -/
def getCpuInfo (s : InfoState) (found : Bool) : List Text →
    Except InfoFault (InfoState × Bool)
  | [] => .ok (s, found)
  | line :: lines =>
    if deref line = '\n' then .ok (s, found)
    else do
      let s ← cpuInfoLine s line
      getCpuInfo s (found || lineKind line == .processor) lines

/-! ## What a line is to do -/

/-- A text without a given start. -/
def withoutPrefix (start text : Text) : Text :=
  if start.isPrefixOf text then text.drop start.length else text

/-- The name of a model: without the blanks around it and without the vendor, the `(R)` behind that
    and the `-` that joined them; or the short name of the family. -/
def modelName (vendor model : Text) : Text :=
  let name := (model.rdropWhile isBlank).dropWhile isBlank
  let name :=
    if vendor.isPrefixOf name then
      (withoutPrefix "(R)".toList (name.drop vendor.length)).dropWhile isBlank
    else name
  let name := withoutPrefix "-".toList name
  ((cpuModels.find? fun model => model.1.isPrefixOf name).map Prod.snd).getD name

example : modelName "Intel".toList " Intel(R) Xeon(R) CPU ".toList = "Xeon".toList := by decide

/-- What a member can hold of a value: the line to its end, and as much as fits. -/
def copied (value : Text) : Text :=
  (value.takeWhile fun c => c ≠ nul ∧ c ≠ '\n').take (fieldSize - 1)

/-- A line is handled as it is to be: no access is outside of its member, the strings end inside of
    their arrays, a copy changes its own member only, and the name of the model is the one that is
    meant. -/
structure LineRight (s : InfoState) (line : Text) (s' : InfoState) : Prop where
  inside : s'.strays = s.strays
  vendor_ends : nul ∈ s'.bytes .vendor
  model_ends : nul ∈ s'.bytes .model
  vendor_only : lineKind line = .vendor →
    s'.bytes .model = s.bytes .model ∧ s'.mhz = s.mhz ∧ s'.cacheSize = s.cacheSize
  model_only : lineKind line = .model →
    s'.bytes .vendor = s.bytes .vendor ∧ s'.mhz = s.mhz ∧ s'.cacheSize = s.cacheSize
  model_name : lineKind line = .model → ∀ value, cpuInfoStrval line = some value →
    s'.string .model = modelName (s.string .vendor) (copied value)

/-- All lines of an entry are, one after the other. -/
def EntryRight : InfoState → List Text → Prop
  | _, [] => True
  | s, line :: lines =>
    deref line = '\n' ∨
      ∃ s', cpuInfoLine s line = .ok s' ∧ LineRight s line s' ∧ EntryRight s' lines

/-- The first entry of a text is read as it is to be. -/
def TextRight (text : Text) : Prop :=
  (∃ result, getCpuInfo .zero false (fgetsLines bufsiz text []) = .ok result) ∧
    EntryRight .zero (fgetsLines bufsiz text [])

/-! ## Bytes that are written -/

theorem InfoState.strays_access (s : InfoState) (field : Field) (i : Int) :
    ∃ more, (s.access field i).strays = s.strays ++ more := by
  rw [access]
  split
  · exact ⟨[], (append_nil _).symm⟩
  · exact ⟨_, rfl⟩

theorem InfoState.strays_clear (s : InfoState) (field : Field) (i : Int) :
    (s.clear field i).strays = (s.access field i).strays := by
  rw [clear]
  split
  · rfl
  · split <;> rfl

/-- **Every copy of a value is a stray access**: the NUL is written behind the array. -/
theorem cpuInfoStrcpy_strays {line value : Text} (hvalue : cpuInfoStrval line = some value) :
    ∃ more, (cpuInfoStrcpy s field line).strays = s.strays ++ (field, (fieldSize : Int)) :: more := by
  have hend : (((s.store field (strncpyBytes value fieldSize)).clear field fieldSize)).strays
      = s.strays ++ [(field, (fieldSize : Int))] := by
    rw [InfoState.strays_clear, InfoState.access, if_neg (by decide)]
    rfl
  rw [cpuInfoStrcpy, hvalue]
  dsimp only
  split
  · obtain ⟨more, hmore⟩ := InfoState.strays_access
      ((s.store field (strncpyBytes value fieldSize)).clear field fieldSize) field
      ((strlen value : Int) - 1)
    refine ⟨more, ?_⟩
    rw [InfoState.strays_clear, hmore, hend, append_assoc]
    rfl
  · exact ⟨[], hend⟩

/-- What the adjustment adds to the accesses. -/
theorem sigarCpuModelAdjust_strays {s' : InfoState} (h : sigarCpuModelAdjust s = .ok s') :
    ∃ more, s'.strays = s.strays ++ more := by
  have hread : ∃ more, (if nul ∈ s.bytes .vendor then s else s.access .vendor fieldSize).strays
      = s.strays ++ more := by
    split
    · exact ⟨[], (append_nil _).symm⟩
    · exact s.strays_access .vendor fieldSize
  rw [sigarCpuModelAdjust] at h
  dsimp only at h
  split at h
  · cases h
  · split at h
    · cases h
    · split at h
      all_goals
        cases h
        exact hread

theorem vendorLine_strays {line : Text} :
    (vendorLine s line).strays = (cpuInfoStrcpy s .vendor line).strays := by
  rw [vendorLine]
  split
  · rfl
  · split <;> rfl

/-! ## When a line is right -/

/-- What a line has to be like: nothing is copied, and a number that is read is there. -/
def LineFits (line : Text) : Prop :=
  match lineKind line with
  | .vendor => cpuInfoStrval line = none
  | .model => False
  | .mhz | .cacheSize => (cpuInfoStrval line).isSome
  | .processor | .other => True

/-- Nothing has been copied so far. -/
def InfoState.Blank (s : InfoState) : Prop := s.chars = replicate (2 * fieldSize) nul

theorem InfoState.Blank.bytes (h : s.Blank) (field : Field) :
    s.bytes field = replicate fieldSize nul := by
  rw [InfoState.bytes, h, drop_replicate, take_replicate]
  cases field <;> rfl

theorem InfoState.Blank.string (h : s.Blank) (field : Field) : s.string field = [] := by
  rw [InfoState.string, h, drop_replicate]
  cases field <;> rfl

/-- A model that was never copied is empty: its last character is looked for in front of it. -/
theorem sigarCpuModelAdjust_blank (h : s.Blank) : sigarCpuModelAdjust s = .error .beforeStart := by
  rw [sigarCpuModelAdjust, h.bytes .model]
  rfl

theorem InfoState.Blank.ends (h : s.Blank) (field : Field) : nul ∈ s.bytes field := by
  rw [h.bytes]
  exact mem_replicate.mpr ⟨by decide, rfl⟩

/-- A line that copies nothing is handled as it is to be. -/
theorem LineRight.of_blank {s' : InfoState} {line : Text} (hblank : s'.Blank)
    (hstrays : s'.strays = s.strays) (hmodel : lineKind line ≠ .model)
    (hvendor : lineKind line = .vendor → s' = s) : LineRight s line s' where
  inside := hstrays
  vendor_ends := hblank.ends .vendor
  model_ends := hblank.ends .model
  vendor_only := by
    intro h
    rw [hvendor h]
    exact ⟨rfl, rfl, rfl⟩
  model_only h := absurd h hmodel
  model_name h := absurd h hmodel

/-- **A line that fits** is right, and copies nothing. -/
theorem cpuInfoLine_fits {line : Text} (hblank : s.Blank) (hfits : LineFits line) :
    ∃ s', cpuInfoLine s line = .ok s' ∧ s'.Blank ∧ LineRight s line s' := by
  rw [LineFits] at hfits
  rw [cpuInfoLine]
  cases hkind : lineKind line with
  | vendor =>
    rw [hkind] at hfits
    have hcopy : cpuInfoStrcpy s .vendor line = s := by
      rw [cpuInfoStrcpy, show cpuInfoStrval line = none from hfits]
    have hsame : vendorLine s line = s := by
      rw [vendorLine, hcopy, hblank.string]
      rfl
    exact ⟨s, by rw [hsame], hblank, .of_blank hblank rfl (by rw [hkind]; decide) fun _ => rfl⟩
  | model =>
    rw [hkind] at hfits
    exact absurd hfits id
  | mhz =>
    rw [hkind] at hfits
    obtain ⟨ptr, hptr⟩ := Option.isSome_iff_exists.mp hfits
    rw [hptr]
    exact ⟨_, rfl, hblank, .of_blank hblank rfl (by rw [hkind]; decide)
      fun h => absurd (hkind.symm.trans h) (by decide)⟩
  | cacheSize =>
    rw [hkind] at hfits
    obtain ⟨ptr, hptr⟩ := Option.isSome_iff_exists.mp hfits
    rw [hptr]
    exact ⟨_, rfl, hblank, .of_blank hblank rfl (by rw [hkind]; decide)
      fun h => absurd (hkind.symm.trans h) (by decide)⟩
  | processor =>
    exact ⟨s, rfl, hblank, .of_blank hblank rfl (by rw [hkind]; decide) fun _ => rfl⟩
  | other => exact ⟨s, rfl, hblank, .of_blank hblank rfl (by rw [hkind]; decide) fun _ => rfl⟩

theorem append_cons_ne {α : Type} (xs : List α) (x : α) (ys : List α) : xs ++ x :: ys ≠ xs := by
  simp

/-- **A line that is right fits.** -/
theorem lineFits_of_right {s' : InfoState} {line : Text} (hblank : s.Blank)
    (hline : cpuInfoLine s line = .ok s') (hright : LineRight s line s') : LineFits line := by
  rw [LineFits]
  rw [cpuInfoLine] at hline
  cases hkind : lineKind line with
  | vendor =>
    rw [hkind] at hline
    cases hvalue : cpuInfoStrval line with
    | none => rfl
    | some value =>
      obtain ⟨more, hmore⟩ := @cpuInfoStrcpy_strays s .vendor line value hvalue
      have hinside := hright.inside
      rw [← Except.ok.inj hline, vendorLine_strays, hmore] at hinside
      exact absurd hinside (append_cons_ne _ _ _)
  | model =>
    rw [hkind] at hline
    dsimp only at hline
    cases hvalue : cpuInfoStrval line with
    | none =>
      have hcopy : cpuInfoStrcpy s .model line = s := by rw [cpuInfoStrcpy, hvalue]
      rw [hcopy, sigarCpuModelAdjust_blank hblank] at hline
      cases hline
    | some value =>
      obtain ⟨more, hmore⟩ := @cpuInfoStrcpy_strays s .model line value hvalue
      obtain ⟨later, hlater⟩ := sigarCpuModelAdjust_strays hline
      have hinside := hright.inside
      rw [hlater, hmore, append_assoc, cons_append] at hinside
      exact absurd hinside (append_cons_ne _ _ _)
  | mhz =>
    rw [hkind] at hline
    cases hvalue : cpuInfoStrval line with
    | none =>
      rw [hvalue] at hline
      cases hline
    | some value => rfl
  | cacheSize =>
    rw [hkind] at hline
    cases hvalue : cpuInfoStrval line with
    | none =>
      rw [hvalue] at hline
      cases hline
    | some value => rfl
  | processor => trivial
  | other => trivial

/-- The lines of an entry: those before the empty one. -/
def entryLines (lines : List Text) : List Text :=
  lines.takeWhile fun line => deref line ≠ '\n'

/-- **From line to line**: as long as the lines fit, nothing is copied. -/
theorem entryRight_iff : ∀ (lines : List Text) {s : InfoState}, s.Blank →
    (EntryRight s lines ↔ ∀ line ∈ entryLines lines, LineFits line) := by
  intro lines
  induction lines with
  | nil => intro s _; exact iff_of_true trivial (forall_mem_nil _)
  | cons line lines ih =>
    intro s hblank
    rw [EntryRight, entryLines]
    by_cases hempty : deref line = '\n'
    · rw [takeWhile_cons_of_neg (by simpa using hempty)]
      exact iff_of_true (.inl hempty) (forall_mem_nil _)
    · rw [takeWhile_cons_of_pos (by simpa using hempty), forall_mem_cons, or_iff_right hempty]
      constructor
      · rintro ⟨s', hline, hright, hrest⟩
        have hfits := lineFits_of_right hblank hline hright
        obtain ⟨s'', hline', hblank', -⟩ := cpuInfoLine_fits hblank hfits
        rw [hline] at hline'
        obtain rfl := Except.ok.inj hline'
        exact ⟨hfits, (ih hblank').mp hrest⟩
      · rintro ⟨hfits, hrest⟩
        obtain ⟨s', hline, hblank', hright⟩ := cpuInfoLine_fits hblank hfits
        exact ⟨s', hline, hright, (ih hblank').mpr hrest⟩

/-- An entry whose lines are all right is read to its end. -/
theorem getCpuInfo_of_right : ∀ (lines : List Text) {s : InfoState} (found : Bool),
    EntryRight s lines → ∃ result, getCpuInfo s found lines = .ok result := by
  intro lines
  induction lines with
  | nil => intro s found _; exact ⟨_, rfl⟩
  | cons line lines ih =>
    intro s found hright
    rw [getCpuInfo]
    by_cases hempty : deref line = '\n'
    · exact ⟨_, if_pos hempty⟩
    · obtain ⟨s', hline, -, hrest⟩ := hright.resolve_left hempty
      rw [if_neg hempty, hline]
      exact ih _ hrest

/-- **An entry is read without leaving a member** exactly if no vendor and no model is copied from
    it, and its numbers are there. -/
theorem getCpuInfo_right_iff (text : Text) :
    TextRight text ↔ ∀ line ∈ entryLines (fgetsLines bufsiz text []), LineFits line := by
  have hiff := entryRight_iff (fgetsLines bufsiz text []) (rfl : InfoState.zero.Blank)
  constructor
  · intro h
    exact hiff.mp h.2
  · intro hfits
    have hright := hiff.mpr hfits
    exact ⟨getCpuInfo_of_right _ false hright, hright⟩

/-- The lines of an x86 host: each copy leaves its array, and the one of the model clears the low byte
    of a clock that was read before.  An empty model is looked for in front of its array. -/
theorem cpuinfo_strays :
    (getCpuInfo .zero false (fgetsLines bufsiz
        ("vendor_id\t: GenuineIntel\n".toList ++ "cpu MHz\t\t: 2401.000\n".toList ++
          "model name\t: Intel(R) Xeon(R) CPU\n\n".toList) [])).map
          (fun r => (r.1.string .vendor, r.1.string .model, r.1.mhz, r.1.strays))
      = .ok ("Intel".toList, "Xeon".toList, 2304, [(.vendor, 128), (.model, 128)]) ∧
    (getCpuInfo .zero false (fgetsLines bufsiz "model name\t: \n".toList [])).map (fun r => r.1.strays)
      = .error .beforeStart := by
  constructor <;> decide +kernel

end Sigar.Cpu
