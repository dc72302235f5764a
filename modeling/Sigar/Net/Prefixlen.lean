/-
  The length of an IPv6 prefix, from its netmask.

  Source: `sigar_in6_prefixlen` of `os/darwin/darwin_sigar.c`.

  1. **Program** — three loops: over the bytes that are all ones, over the ones at the start of the
     next byte, and over what must be zero behind them.  The last one looks at the bits 7 to 1 of the
     byte and at all bytes behind it.
  2. **Specification** — `prefixLength`, over the 128 bits: the ones at the start are counted, if
     only zeros follow.
  3. **The bit that is not looked at** — bit 0 of the byte in which the ones end.  A one there is
     taken for a zero, so the answer is wrong exactly for the masks with ones, zeros up to that bit,
     and nothing else behind it (`prefixlen_right_iff`); without any one in front the answer is 0 and
     right all the same.
-/
import Mathlib.Data.List.TakeWhile

namespace Sigar.Net.Prefixlen

open List

/-! ## The program -/

/-- `u_char`. -/
abbrev Byte := BitVec 8

/-- The first loop, over the bytes that are `0xff`: what is left, and `plen`. -/
def fullBytes : List Byte → Nat → List Byte × Nat
  | [], plen => ([], plen)
  | byte :: name, plen =>
    if byte ≠ 0xff then (byte :: name, plen) else fullBytes name (plen + 8)

/-- The second loop, from `bit` down: the bit it ends at, and `plen`.  It ends at bit 0. -/
def leadingBits (byte : Byte) : Nat → Nat → Nat × Nat
  | 0, plen => (0, plen)
  | bit + 1, plen =>
    if ¬ byte.getLsbD (bit + 1) then (bit + 1, plen) else leadingBits byte bit (plen + 1)

/-- The third loop, from `bit` down: a bit is set.  It ends at bit 0 too. -/
def laterBit (byte : Byte) : Nat → Bool
  | 0 => false
  | bit + 1 => byte.getLsbD (bit + 1) || laterBit byte bit

/-- `sigar_in6_prefixlen`. -/
def sigarIn6Prefixlen (name : List Byte) : Nat :=
  match fullBytes name 0 with
  | ([], plen) => plen
  | (byte :: name, plen) =>
    let (bit, plen) := leadingBits byte 7 plen
    if laterBit byte bit then 0
    else if name.any (· ≠ 0) then 0
    else plen

/-! ## What it is for -/

/-- The bits of a byte, from the left. -/
def byteBits (byte : Byte) : List Bool := (range 8).map fun i => byte.getLsbD (7 - i)

/-- The bits of a mask, from the left. -/
def bits (name : List Byte) : List Bool := name.flatMap byteBits

/-- The ones at the start. -/
def ones (bs : List Bool) : Nat := (bs.takeWhile id).length

/-- What follows them. -/
def behind (bs : List Bool) : List Bool := bs.dropWhile id

/-- The length of the prefix, 0 if there is a one behind a zero. -/
def prefixLength (bs : List Bool) : Nat := if (behind bs).any id then 0 else ones bs

/-- `n` ones, and zeros up to the length. -/
def mask (n length : Nat) : List Bool := replicate n true ++ replicate (length - n) false

/-- **What is promised for a mask**: the number of ones if only zeros follow them, and 0 otherwise. -/
structure Right (name : List Byte) : Prop where
  contiguous : ∀ n ≤ 128, bits name = mask n 128 → sigarIn6Prefixlen name = n
  otherwise : (∀ n ≤ 128, bits name ≠ mask n 128) → sigarIn6Prefixlen name = 0

/-- A byte of ones, perhaps none, at least one zero behind them, and a one as its last bit. -/
def StrayByte (byte : Byte) : Prop :=
  ∃ zeros < 8, 0 < zeros ∧ behind (byteBits byte) = replicate zeros false ++ [true]

instance (byte : Byte) : Decidable (StrayByte byte) :=
  inferInstanceAs (Decidable (∃ zeros < 8, _))

/-- Full bytes, a stray byte, and zeros, with a one in front of the stray bit. -/
def StrayBit (name : List Byte) : Prop :=
  ∃ full byte more, name = replicate full 0xff ++ byte :: more ∧ StrayByte byte ∧
    0 < 8 * full + ones (byteBits byte) ∧ more.any (· ≠ 0) = false

/-! ## Bits -/

theorem ones_replicate_append (n : Nat) (bs : List Bool) :
    ones (replicate n true ++ bs) = n + ones bs := by
  simp [ones, takeWhile_append_of_pos, length_append, length_replicate]

theorem behind_replicate_append (n : Nat) (bs : List Bool) :
    behind (replicate n true ++ bs) = behind bs :=
  dropWhile_append_of_pos fun _ hb => eq_of_mem_replicate hb

/-- Ones that end before the end of the bits are not changed by what follows. -/
theorem ones_append : ∀ {bs : List Bool}, ones bs < bs.length → ∀ cs,
    ones (bs ++ cs) = ones bs ∧ behind (bs ++ cs) = behind bs ++ cs := by
  intro bs
  induction bs with
  | nil => intro h; exact absurd h (Nat.lt_irrefl 0)
  | cons b bs ih =>
    intro h cs
    cases b with
    | false => exact ⟨rfl, rfl⟩
    | true =>
      obtain ⟨hones, hbehind⟩ := ih (Nat.lt_of_succ_lt_succ h) cs
      exact ⟨congrArg (· + 1) hones, hbehind⟩

theorem any_id_eq_false_iff {bs : List Bool} :
    bs.any id = false ↔ bs = replicate bs.length false := by
  simp [eq_replicate_iff]

/-- **A mask has only zeros behind its ones**, and nothing else is one. -/
theorem eq_mask_iff {bs : List Bool} {n : Nat} (hn : n ≤ bs.length) :
    bs = mask n bs.length ↔ ones bs = n ∧ (behind bs).any id = false := by
  have hones : bs.takeWhile id = replicate (ones bs) true :=
    eq_replicate_iff.mpr ⟨rfl, fun b hb => mem_takeWhile_imp hb⟩
  have hsplit : replicate (ones bs) true ++ behind bs = bs := by
    rw [← hones]
    exact takeWhile_append_dropWhile
  have hsum : ones bs + (behind bs).length = bs.length := by
    rw [← congrArg List.length hsplit, length_append, length_replicate]
  rw [any_id_eq_false_iff]
  constructor
  · intro hmask
    have hzeros : ∀ m, ones (replicate m false) = 0 ∧
        behind (replicate m false) = replicate m false := by
      intro m
      cases m <;> exact ⟨rfl, rfl⟩
    rw [mask] at hmask
    have hn' := congrArg ones hmask
    have hbehind := congrArg behind hmask
    rw [ones_replicate_append, (hzeros _).1] at hn'
    rw [behind_replicate_append, (hzeros _).2] at hbehind
    exact ⟨hn', by rw [hbehind, length_replicate]⟩
  · grind [mask]

/-- What is promised is the `prefixLength`. -/
theorem right_iff {name : List Byte} (hlength : (bits name).length = 128) :
    Right name ↔ sigarIn6Prefixlen name = prefixLength (bits name) := by
  have hmask : ∀ n ≤ 128, (bits name = mask n 128 ↔
      ones (bits name) = n ∧ (behind (bits name)).any id = false) := by
    rw [← hlength]
    exact fun n hn => eq_mask_iff hn
  have hle : ones (bits name) ≤ 128 := by
    rw [← hlength]
    exact (takeWhile_sublist _).length_le
  unfold prefixLength
  cases hany : (behind (bits name)).any id with
  | true =>
    rw [hany] at hmask
    refine ⟨fun h => h.otherwise fun n hn heq => ?_, fun h => ⟨fun n hn heq => ?_, fun _ => h⟩⟩
    · exact Bool.noConfusion ((hmask n hn).mp heq).2
    · exact Bool.noConfusion ((hmask n hn).mp heq).2
  | false =>
    refine ⟨fun h => h.contiguous _ hle ((hmask _ hle).mpr ⟨rfl, hany⟩), fun h => ⟨?_, ?_⟩⟩
    · exact fun n hn heq => h.trans ((hmask n hn).mp heq).1
    · exact fun hnone => absurd ((hmask _ hle).mpr ⟨rfl, hany⟩) (hnone _ hle)

/-! ## Bytes -/

theorem length_byteBits (byte : Byte) : (byteBits byte).length = 8 := by
  rw [byteBits, length_map, length_range]

theorem byteBits_any (byte : Byte) : (byteBits byte).any id = decide (byte ≠ 0) := by
  revert byte
  decide +kernel

theorem bits_cons (byte : Byte) (name : List Byte) :
    bits (byte :: name) = byteBits byte ++ bits name := flatMap_cons

theorem bits_any (name : List Byte) : (bits name).any id = name.any (· ≠ 0) := by
  induction name with
  | nil => rfl
  | cons byte name ih => rw [bits_cons, any_append, any_cons, byteBits_any, ih]

theorem length_bits (name : List Byte) : (bits name).length = 8 * name.length := by
  induction name with
  | nil => rfl
  | cons byte name ih =>
    rw [bits_cons, length_append, length_byteBits, length_cons, ih]
    omega

theorem leadingBits_add (byte : Byte) : ∀ bit plen,
    leadingBits byte bit plen
      = ((leadingBits byte bit 0).1, plen + (leadingBits byte bit 0).2) := by
  intro bit
  induction bit with
  | zero => intro plen; rfl
  | succ bit ih =>
    intro plen
    rw [leadingBits, leadingBits]
    split
    · rfl
    · rw [ih (plen + 1), ih (0 + 1)]
      simp only [Nat.zero_add, Nat.add_assoc]

/-- **The two inner loops**, in a byte that is not full: the ones are counted, and of what follows
    them all is looked at but the LAST bit. -/
theorem inner_loops : ∀ byte : Byte, byte ≠ 0xff →
    (leadingBits byte 7 0).2 = ones (byteBits byte) ∧
    laterBit byte (leadingBits byte 7 0).1 = (behind (byteBits byte)).dropLast.any id ∧
    ones (byteBits byte) < 8 := by
  decide +kernel

/-- That bit decides in a stray byte only. -/
theorem strayByte_iff : ∀ byte : Byte, byte ≠ 0xff →
    (StrayByte byte ↔ (behind (byteBits byte)).dropLast.any id = false ∧
      (behind (byteBits byte)).any id = true) := by
  decide +kernel

theorem dropLast_any : ∀ byte : Byte, (behind (byteBits byte)).dropLast.any id = true →
    (behind (byteBits byte)).any id = true := by
  decide +kernel

theorem StrayByte.not_full : ∀ {byte : Byte}, StrayByte byte → byte ≠ 0xff := by
  decide +kernel

/-- A mask starts with full bytes. -/
theorem exists_full (name : List Byte) :
    ∃ full rest, name = replicate full 0xff ++ rest ∧ ∀ byte ∈ rest.head?, byte ≠ 0xff := by
  induction name with
  | nil => exact ⟨0, [], rfl, by simp⟩
  | cons byte name ih =>
    by_cases hbyte : byte = 0xff
    · obtain ⟨full, rest, rfl, hrest⟩ := ih
      exact ⟨full + 1, rest, by rw [hbyte, replicate_succ, cons_append], hrest⟩
    · exact ⟨0, byte :: name, rfl, by simpa using hbyte⟩

/-- The first loop takes them. -/
theorem fullBytes_append {rest : List Byte} (hrest : ∀ byte ∈ rest.head?, byte ≠ 0xff) :
    ∀ (full plen : Nat),
      fullBytes (replicate full 0xff ++ rest) plen = (rest, plen + 8 * full) := by
  intro full
  induction full with
  | zero =>
    intro plen
    cases rest with
    | nil => rfl
    | cons byte rest => exact if_pos (hrest byte rfl)
  | succ full ih =>
    intro plen
    rw [replicate_succ, cons_append, fullBytes, if_neg (not_not_intro rfl), ih]
    congr 1
    omega

theorem bits_full_append (full : Nat) (rest : List Byte) :
    bits (replicate full 0xff ++ rest) = replicate (8 * full) true ++ bits rest := by
  induction full with
  | zero => rfl
  | succ full ih =>
    have hfull : byteBits 0xff = replicate 8 true := by decide
    rw [replicate_succ, cons_append, bits_cons, hfull, ih, ← append_assoc,
      replicate_append_replicate, Nat.mul_succ, Nat.add_comm 8]

/-! ## The answer -/

section Answer

variable {full : Nat} {byte : Byte} {more : List Byte}

/-- **What is returned** for a mask whose ones end in a byte. -/
theorem sigarIn6Prefixlen_byte (hbyte : byte ≠ 0xff) :
    sigarIn6Prefixlen (replicate full 0xff ++ byte :: more)
      = if (behind (byteBits byte)).dropLast.any id || more.any (· ≠ 0) then 0
        else 8 * full + ones (byteBits byte) := by
  have hrest : ∀ b ∈ (byte :: more).head?, b ≠ 0xff := by simpa using hbyte
  obtain ⟨hones, hlater, -⟩ := inner_loops byte hbyte
  rw [sigarIn6Prefixlen, fullBytes_append hrest]
  dsimp only
  rw [leadingBits_add, hones, hlater, Nat.zero_add]
  cases (behind (byteBits byte)).dropLast.any id <;> rfl

/-- **What is asked for**: the last bit of the byte counts too. -/
theorem prefixLength_byte (hbyte : byte ≠ 0xff) :
    prefixLength (bits (replicate full 0xff ++ byte :: more))
      = if (behind (byteBits byte)).any id || more.any (· ≠ 0) then 0
        else 8 * full + ones (byteBits byte) := by
  obtain ⟨-, -, hlt⟩ := inner_loops byte hbyte
  rw [← length_byteBits byte] at hlt
  obtain ⟨hones, hbehind⟩ := ones_append hlt (bits more)
  rw [prefixLength, bits_full_append, ones_replicate_append, behind_replicate_append, bits_cons,
    hones, hbehind, any_append, bits_any]

/-- The full bytes of a mask and the byte behind them are what they are. -/
theorem strayBit_byte (hbyte : byte ≠ 0xff) :
    StrayBit (replicate full 0xff ++ byte :: more) ↔
      StrayByte byte ∧ 0 < 8 * full + ones (byteBits byte) ∧ more.any (· ≠ 0) = false := by
  refine ⟨?_, fun h => ⟨full, byte, more, rfl, h⟩⟩
  rintro ⟨full', byte', more', hname, hstray⟩
  have hbyte' := hstray.1.not_full
  have hloop := congrArg (fullBytes · 0) hname
  rw [fullBytes_append (by simpa using hbyte), fullBytes_append (by simpa using hbyte')] at hloop
  obtain ⟨hrest, hcount⟩ := Prod.mk.inj hloop
  obtain ⟨rfl, rfl⟩ := cons.inj hrest
  obtain rfl : full = full' := by omega
  exact hstray

/-- The byte in which the ones end. -/
theorem right_byte (hbyte : byte ≠ 0xff) :
    sigarIn6Prefixlen (replicate full 0xff ++ byte :: more)
        = prefixLength (bits (replicate full 0xff ++ byte :: more)) ↔
      ¬ StrayBit (replicate full 0xff ++ byte :: more) := by
  rw [sigarIn6Prefixlen_byte hbyte, prefixLength_byte hbyte, strayBit_byte hbyte]
  by_cases hstray : StrayByte byte
  · -- only the last bit is left, which is not looked at
    obtain ⟨hfront, hall⟩ := (strayByte_iff byte hbyte).mp hstray
    rw [hfront, hall, and_iff_right hstray]
    cases more.any (· ≠ 0) with
    | true => simp
    | false => simp
  · refine iff_of_true ?_ fun h => hstray h.1
    have hsame : (behind (byteBits byte)).dropLast.any id = (behind (byteBits byte)).any id := by
      rw [Bool.eq_iff_iff]
      refine ⟨dropLast_any byte, fun hall => ?_⟩
      by_contra hfront
      exact hstray ((strayByte_iff byte hbyte).mpr ⟨Bool.eq_false_iff.mpr hfront, hall⟩)
    rw [hsame]

end Answer

/-- `struct in6_addr`. -/
structure In6Addr where
  name : List Byte
  size : name.length = 16

/-- **The length is right exactly when the byte in which the ones end has no stray bit**, which is
    not looked at. -/
theorem prefixlen_right_iff (addr : In6Addr) : Right addr.name ↔ ¬ StrayBit addr.name := by
  obtain ⟨name, hsize⟩ := addr
  rw [right_iff (by rw [length_bits, hsize])]
  obtain ⟨full, rest, rfl, hrest⟩ := exists_full name
  cases rest with
  | cons byte more => exact right_byte (hrest byte rfl)
  | nil =>
    -- ones only
    have hloop := fullBytes_append hrest full 0
    refine iff_of_true ?_ ?_
    · rw [sigarIn6Prefixlen, hloop, prefixLength, bits_full_append, ones_replicate_append,
        behind_replicate_append]
      show 0 + 8 * full = 8 * full + 0
      omega
    · rintro ⟨full', byte, more, hname, hstray, -⟩
      have hbyte := hstray.not_full
      dsimp only at hname
      rw [hname, fullBytes_append (by simpa using hbyte)] at hloop
      cases (Prod.mk.inj hloop).1

/-- 8100:: is no prefix, and its length is 1. -/
def strayMask : In6Addr := ⟨0x81 :: replicate 15 0, rfl⟩

/-- **A mask with the bits 0 and 7**: the second one is not seen. -/
theorem strayMask_one :
    sigarIn6Prefixlen strayMask.name = 1 ∧
      (∀ n ≤ 128, bits strayMask.name ≠ mask n 128) ∧ ¬ Right strayMask.name := by
  have hone : sigarIn6Prefixlen strayMask.name = 1 := by decide
  have hnone : ∀ n ≤ 128, bits strayMask.name ≠ mask n 128 := by
    decide +kernel
  refine ⟨hone, hnone, fun hright => ?_⟩
  have hzero := hright.otherwise hnone
  rw [hone] at hzero
  exact absurd hzero (by decide)

end Sigar.Net.Prefixlen
