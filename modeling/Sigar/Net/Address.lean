/-
  Addresses as bytes.

  Source: `sigar_net_address_equals`, `sigar_net_address_to_string`, `sigar_net_address_hash`,
  `sigar_inet_ntoa` and `sigar_ether_ntoa` of `sigar_format.c`, and `sigar_net_address_mac_set` of
  `sigar_private.h`.

  The members of the union lie over each other: `in` is the first four bytes, `in6` all sixteen,
  `mac` the first eight.  Of a hardware address SIX bytes are set and printed, and EIGHT are
  compared and hashed: the last two are whatever was there before.  An address without a family is
  hashed and printed, and not equal to itself.

  The machine is little endian, and `int` arithmetic that is shifted out of its range wraps.
-/
import Sigar.Util
import Sigar.Net.Connection

namespace Sigar.Net.Bytes

open CString

/-! ## The data -/

/-- `SIGAR_AF_*`. -/
inductive Family where
  | unspec | inet | inet6 | link
  deriving DecidableEq

/-- `sigar_net_address_t`. -/
structure SigarNetAddress where
  family : Family
  addr : Fin 16 → UInt8

variable {a b : SigarNetAddress}

/-- The first bytes of the union. -/
def SigarNetAddress.first (a : SigarNetAddress) (n : Nat) : List UInt8 := (List.ofFn a.addr).take n

/-- Four bytes as a `sigar_uint32_t`. -/
def word (b0 b1 b2 b3 : UInt8) : UInt32 :=
  UInt32.ofNat (b0.toNat + 256 * b1.toNat + 65536 * b2.toNat + 16777216 * b3.toNat)

/-- `addr.in`. -/
def SigarNetAddress.inWord (a : SigarNetAddress) : UInt32 :=
  word (a.addr 0) (a.addr 1) (a.addr 2) (a.addr 3)

/-- `sigar_net_address_mac_set(a, m, SIGAR_IFHWADDRLEN)`. -/
def sigarNetAddressMacSet (a : SigarNetAddress) (m : Fin 6 → UInt8) : SigarNetAddress where
  family := .link
  addr := fun i => if h : i.1 < 6 then m ⟨i.1, h⟩ else a.addr i

/-! ## The functions -/

/-- `memcmp` of as many bytes as both have. -/
def memcmp : List UInt8 → List UInt8 → Int
  | a :: as, b :: bs => if a = b then memcmp as bs else if a < b then -1 else 1
  | _, _ => 0

/-- `sigar_net_address_equals`. -/
def sigarNetAddressEquals (addr1 addr2 : SigarNetAddress) : Status :=
  if addr1.family ≠ addr2.family then einval
  else match addr1.family with
    | .inet => memcmp (addr1.first 4) (addr2.first 4)
    | .inet6 => memcmp (addr1.first 16) (addr2.first 16)
    | .link => memcmp (addr1.first 8) (addr2.first 8)
    | .unspec => einval

/-- A digit. -/
def digit (n : Nat) : Char := Char.ofNat ('0'.toNat + n)

/-- One byte of `sigar_inet_ntoa`. -/
def byteDigits (u : Nat) : Text :=
  if 99 < u then [digit (u / 100), digit (u % 100 / 10), digit (u % 100 % 10)]
  else if 9 < u then [digit (u / 10), digit (u % 10)]
  else [digit u]

/-- `sigar_inet_ntoa`: the dot after the last byte is overwritten. -/
def sigarInetNtoa (bytes : List UInt8) : Text :=
  (bytes.flatMap fun u => byteDigits u.toNat ++ ['.']).dropLast

/-- `%02X`. -/
def hexByte (u : UInt8) : Text :=
  let hex (n : Nat) : Char := if n < 10 then digit n else Char.ofNat ('A'.toNat + (n - 10))
  [hex (u.toNat / 16), hex (u.toNat % 16)]

/-- `sigar_ether_ntoa`. -/
def sigarEtherNtoa (bytes : List UInt8) : Text :=
  (bytes.flatMap fun u => hexByte u ++ [':']).dropLast

example : sigarEtherNtoa [0, 26, 255, 0, 1, 171] = "00:1A:FF:00:01:AB".toList := by decide

/-- `sigar_net_address_to_string`; `inetNtop` is that of the C library for `AF_INET6`. -/
def sigarNetAddressToString (inetNtop : List UInt8 → Except Status Text)
    (address : SigarNetAddress) : Status × Text :=
  match address.family with
  | .inet6 =>
    match inetNtop (address.first 16) with
    | .ok text => (sigarOk, text)
    | .error errno => (errno, [])
  | .inet => (sigarOk, sigarInetNtoa (address.first 4))
  | .unspec => (sigarOk, sigarInetNtoa [0, 0, 0, 0])
  | .link => (sigarOk, sigarEtherNtoa (address.first 6))

/-- The two loops of `sigar_net_address_hash`: `j` bytes of the component are read, and a component
    has `elts` of them. -/
def hashLoop (elts : Nat) : Nat → UInt32 → UInt32 → List UInt8 → UInt32
  | _, component, hash, [] => hash + component
  | j, component, hash, byte :: data =>
    let component := component <<< 8 + byte.toUInt32
    if j + 1 = elts then hashLoop elts 0 0 (hash + component) data
    else hashLoop elts (j + 1) component hash data

/-- `sigar_net_address_hash`. -/
def sigarNetAddressHash (address : SigarNetAddress) : UInt32 :=
  match address.family with
  | .unspec | .inet => address.inWord
  | .inet6 => hashLoop 4 0 0 0 (address.first 16)
  | .link => hashLoop 2 0 0 0 (address.first 8)

/-! ## What an address denotes -/

/-- The bytes that belong to an address of the family. -/
def Family.significant : Family → Nat
  | .unspec => 0
  | .inet => 4
  | .inet6 => 16
  | .link => 6

/-- The bytes that are compared. -/
def Family.compared : Family → Nat
  | .unspec => 0
  | .inet => 4
  | .inet6 => 16
  | .link => 8

/-- Both have the same family and denote the same address. -/
def SameAddress (a b : SigarNetAddress) : Prop :=
  a.family = b.family ∧ a.first a.family.significant = b.first a.family.significant

/-- Equal is the same, and what is equal has one hash and one text. -/
structure Coherent (inetNtop : List UInt8 → Except Status Text) (a b : SigarNetAddress) :
    Prop where
  equals : sigarNetAddressEquals a b = sigarOk ↔ SameAddress a b
  hash : sigarNetAddressEquals a b = sigarOk → sigarNetAddressHash a = sigarNetAddressHash b
  text : sigarNetAddressEquals a b = sigarOk →
    sigarNetAddressToString inetNtop a = sigarNetAddressToString inetNtop b

/-- Two structures that are set to one hardware address are equal and have one hash. -/
def MacCoherent (a b : SigarNetAddress) (m : Fin 6 → UInt8) : Prop :=
  sigarNetAddressEquals (sigarNetAddressMacSet a m) (sigarNetAddressMacSet b m) = sigarOk ∧
  sigarNetAddressHash (sigarNetAddressMacSet a m) = sigarNetAddressHash (sigarNetAddressMacSet b m)

/-! ## Bytes -/

theorem memcmp_eq_zero_iff : ∀ {as bs : List UInt8}, as.length = bs.length →
    (memcmp as bs = 0 ↔ as = bs) := by
  intro as
  induction as with
  | nil =>
    intro bs hlen
    rw [List.eq_nil_of_length_eq_zero hlen.symm]
    exact ⟨fun _ => rfl, fun _ => rfl⟩
  | cons a as ih =>
    intro bs hlen
    cases bs with
    | nil => cases hlen
    | cons b bs =>
      rw [memcmp, List.cons.injEq]
      by_cases hab : a = b
      · rw [if_pos hab, ih (Nat.succ.inj hlen), and_iff_right hab]
      · simp [hab]
        omega

theorem length_first (a b : SigarNetAddress) (n : Nat) : (a.first n).length = (b.first n).length := by
  simp [SigarNetAddress.first]

theorem first_eq_iff {n : Nat} :
    a.first n = b.first n ↔ ∀ i : Fin 16, i.1 < n → a.addr i = b.addr i := by
  constructor
  · intro h i hi
    have hget : ∀ c : SigarNetAddress, (c.first n)[i.1]? = some (c.addr i) := by
      intro c
      rw [SigarNetAddress.first, List.getElem?_take_of_lt hi, List.getElem?_ofFn, dif_pos i.2]
    have hi' := hget a
    rw [h, hget b] at hi'
    exact (Option.some.inj hi').symm
  · intro h
    apply List.ext_getElem
    · exact length_first a b n
    · grind [SigarNetAddress.first, List.length_take]

theorem first_of_le {m n : Nat} (h : a.first n = b.first n) (hle : m ≤ n) : a.first m = b.first m :=
  first_eq_iff.mpr fun i hi => first_eq_iff.mp h i (Nat.lt_of_lt_of_le hi hle)

theorem word_inj {b0 b1 b2 b3 c0 c1 c2 c3 : UInt8} :
    word b0 b1 b2 b3 = word c0 c1 c2 c3 ↔ b0 = c0 ∧ b1 = c1 ∧ b2 = c2 ∧ b3 = c3 := by
  have hb0 := b0.toNat_lt
  have hb1 := b1.toNat_lt
  have hb2 := b2.toNat_lt
  have hb3 := b3.toNat_lt
  have hc0 := c0.toNat_lt
  have hc1 := c1.toNat_lt
  have hc2 := c2.toNat_lt
  have hc3 := c3.toNat_lt
  rw [← UInt32.toNat_inj, word, word, UInt32.toNat_ofNat', UInt32.toNat_ofNat',
    Nat.mod_eq_of_lt (by omega), Nat.mod_eq_of_lt (by omega), ← UInt8.toNat_inj, ← UInt8.toNat_inj,
    ← UInt8.toNat_inj, ← UInt8.toNat_inj]
  omega

/-- The first four bytes are the word. -/
theorem inWord_eq_iff : a.inWord = b.inWord ↔ a.first 4 = b.first 4 := by
  grind [SigarNetAddress.inWord, word_inj, first_eq_iff]

/-- The word is zero where its bytes are. -/
theorem inWord_eq_zero_iff : a.inWord = 0 ↔ ∀ i : Fin 16, i.1 < 4 → a.addr i = 0 :=
  (@inWord_eq_iff a ⟨a.family, fun _ => 0⟩).trans first_eq_iff

/-! ## Equality -/

/-- **What `sigar_net_address_equals` compares.** -/
theorem equals_iff :
    sigarNetAddressEquals a b = sigarOk ↔
      a.family = b.family ∧ a.family ≠ .unspec ∧ a.first a.family.compared = b.first a.family.compared
    := by
  rw [sigarNetAddressEquals]
  by_cases hfamily : a.family = b.family
  · rw [if_neg (not_not_intro hfamily), and_iff_right hfamily]
    cases hkind : a.family with
    | unspec =>
      constructor
      · intro h
        cases h
      · rintro ⟨h, -⟩
        exact absurd rfl h
    | inet => exact (memcmp_eq_zero_iff (length_first a b 4)).trans (and_iff_right (by decide)).symm
    | inet6 => exact (memcmp_eq_zero_iff (length_first a b 16)).trans (and_iff_right (by decide)).symm
    | link => exact (memcmp_eq_zero_iff (length_first a b 8)).trans (and_iff_right (by decide)).symm
  · rw [if_pos hfamily]
    constructor
    · intro h
      cases h
    · rintro ⟨h, -⟩
      exact absurd h hfamily

theorem hash_of_equals (h : sigarNetAddressEquals a b = sigarOk) :
    sigarNetAddressHash a = sigarNetAddressHash b := by
  obtain ⟨hfamily, hspec, hbytes⟩ := equals_iff.mp h
  rw [sigarNetAddressHash, sigarNetAddressHash, ← hfamily]
  cases hkind : a.family with
  | unspec => exact absurd hkind hspec
  | inet =>
    rw [hkind] at hbytes
    exact inWord_eq_iff.mpr hbytes
  | inet6 =>
    rw [hkind] at hbytes
    exact congrArg (hashLoop 4 0 0 0) hbytes
  | link =>
    rw [hkind] at hbytes
    exact congrArg (hashLoop 2 0 0 0) hbytes

theorem toString_of_equals (inetNtop : List UInt8 → Except Status Text)
    (h : sigarNetAddressEquals a b = sigarOk) :
    sigarNetAddressToString inetNtop a = sigarNetAddressToString inetNtop b := by
  obtain ⟨hfamily, hspec, hbytes⟩ := equals_iff.mp h
  rw [sigarNetAddressToString, sigarNetAddressToString, ← hfamily]
  cases hkind : a.family with
  | unspec => exact absurd hkind hspec
  | inet =>
    rw [hkind] at hbytes
    show (sigarOk, sigarInetNtoa (a.first 4)) = (sigarOk, sigarInetNtoa (b.first 4))
    rw [show a.first 4 = b.first 4 from hbytes]
  | inet6 =>
    rw [hkind] at hbytes
    show (match inetNtop (a.first 16) with | .ok text => _ | .error errno => _) = _
    rw [show a.first 16 = b.first 16 from hbytes]
  | link =>
    rw [hkind] at hbytes
    show (sigarOk, sigarEtherNtoa (a.first 6)) = (sigarOk, sigarEtherNtoa (b.first 6))
    rw [first_of_le (show a.first 8 = b.first 8 from hbytes) (by decide)]

/-! ## The laws -/

/-- Two hardware addresses that are the same in six bytes are so in eight. -/
def SameTail (a b : SigarNetAddress) : Prop := a.addr 6 = b.addr 6 ∧ a.addr 7 = b.addr 7

/-- The addresses that the functions agree on: not both without a family, and not one hardware
    address with different bytes behind it. -/
def Agreeing (a b : SigarNetAddress) : Prop :=
  ¬ (a.family = .unspec ∧ b.family = .unspec) ∧
  (a.family = .link → b.family = .link → a.first 6 = b.first 6 → SameTail a b)

theorem first_eight_iff : a.first 8 = b.first 8 ↔ a.first 6 = b.first 6 ∧ SameTail a b := by
  constructor
  · intro h
    exact ⟨first_of_le h (by decide), first_eq_iff.mp h 6 (by decide), first_eq_iff.mp h 7 (by decide)⟩
  · rintro ⟨h, h6, h7⟩
    rw [first_eq_iff] at h ⊢
    intro i hi
    by_cases hsix : i.1 < 6
    · exact h i hsix
    · grind

/-- **The three functions are coherent** exactly on addresses that agree. -/
theorem coherent_iff (inetNtop : List UInt8 → Except Status Text) (a b : SigarNetAddress) :
    Coherent inetNtop a b ↔ Agreeing a b := by
  have hlaws : Coherent inetNtop a b ↔ (sigarNetAddressEquals a b = sigarOk ↔ SameAddress a b) :=
    ⟨fun h => h.equals, fun h => ⟨h, hash_of_equals, toString_of_equals inetNtop⟩⟩
  rw [hlaws, equals_iff, SameAddress, Agreeing]
  by_cases hfamily : a.family = b.family
  · rw [and_iff_right hfamily, and_iff_right hfamily, ← hfamily]
    cases a.family with
    | unspec =>
      -- nothing of an address without a family is compared
      exact ⟨fun h => absurd rfl (h.mpr rfl).1, fun h => absurd ⟨rfl, rfl⟩ h.1⟩
    | inet => simp [Family.compared, Family.significant]
    | inet6 => simp [Family.compared, Family.significant]
    | link =>
      show (_ ∧ a.first 8 = b.first 8 ↔ a.first 6 = b.first 6) ↔ _
      rw [first_eight_iff]
      constructor
      · simp
      · simp
  · grind

/-- **Setting a hardware address** leaves the two bytes behind it. -/
theorem macCoherent_iff (a b : SigarNetAddress) (m : Fin 6 → UInt8) :
    MacCoherent a b m ↔ SameTail a b := by
  have hset : ∀ (c : SigarNetAddress) (i : Fin 16) (hi : i.1 < 6),
      (sigarNetAddressMacSet c m).addr i = m ⟨i.1, hi⟩ := fun c i hi => dif_pos hi
  have hsix : (sigarNetAddressMacSet a m).first 6 = (sigarNetAddressMacSet b m).first 6 := by
    grind [first_eq_iff]
  have hequals : sigarNetAddressEquals (sigarNetAddressMacSet a m) (sigarNetAddressMacSet b m)
      = sigarOk ↔ SameTail a b := by
    rw [equals_iff]
    show (_ ∧ _ ∧ (sigarNetAddressMacSet a m).first 8 = (sigarNetAddressMacSet b m).first 8) ↔ _
    rw [first_eight_iff]
    exact ⟨fun h => h.2.2.2, fun h => ⟨rfl, show Family.link ≠ .unspec by decide, hsix, h⟩⟩
  exact ⟨fun h => hequals.mp h.1, fun h => ⟨hequals.mpr h, hash_of_equals (hequals.mpr h)⟩⟩

/-- **The laws of addresses** hold of `a` and `b`, and of `c` and `d` once they are set to one
    hardware address, exactly where `a` and `b` agree and `c` and `d` have the same bytes behind
    it. -/
theorem address_laws_iff (inetNtop : List UInt8 → Except Status Text)
    (a b c d : SigarNetAddress) (m : Fin 6 → UInt8) :
    Coherent inetNtop a b ∧ MacCoherent c d m ↔ Agreeing a b ∧ SameTail c d :=
  and_congr (coherent_iff inetNtop a b) (macCoherent_iff c d m)

/-- A structure that was cleared, and one that was not. -/
def cleared (family : Family) : SigarNetAddress := ⟨family, fun _ => 0⟩
@[inherit_doc cleared] def uncleared : SigarNetAddress := ⟨.unspec, fun _ => 255⟩

/-- An address without a family is not equal to itself, and a hardware address that was set in two
    places can be different. -/
theorem address_laws_fail :
    ¬ Coherent (fun _ => .ok []) (cleared .unspec) (cleared .unspec) ∧
    ¬ MacCoherent (cleared .unspec) uncleared fun _ => 1 := by
  rw [coherent_iff, macCoherent_iff]
  exact ⟨fun h => h.1 ⟨rfl, rfl⟩, fun h => absurd h.1 (by decide)⟩

/-! ## The addresses of connections -/

/-- The members of the union that the family says are in use. -/
def SigarNetAddress.view (a : SigarNetAddress) : Net.SigarNetAddress :=
  match a.family with
  | .unspec => .unspec
  | .inet => .inet a.inWord
  | .inet6 => .inet6 a.inWord (word (a.addr 4) (a.addr 5) (a.addr 6) (a.addr 7))
      (word (a.addr 8) (a.addr 9) (a.addr 10) (a.addr 11))
      (word (a.addr 12) (a.addr 13) (a.addr 14) (a.addr 15))
  | .link => .link (a.first 8)

theorem first_sixteen_iff : a.first 16 = b.first 16 ↔
    a.inWord = b.inWord ∧
    word (a.addr 4) (a.addr 5) (a.addr 6) (a.addr 7) = word (b.addr 4) (b.addr 5) (b.addr 6) (b.addr 7) ∧
    word (a.addr 8) (a.addr 9) (a.addr 10) (a.addr 11)
      = word (b.addr 8) (b.addr 9) (b.addr 10) (b.addr 11) ∧
    word (a.addr 12) (a.addr 13) (a.addr 14) (a.addr 15)
      = word (b.addr 12) (b.addr 13) (b.addr 14) (b.addr 15) := by
  simp [first_eq_iff, SigarNetAddress.inWord, word_inj, Fin.forall_fin_succ, and_assoc]

/-- **Equality looks at the members in use**, and of a hardware address at all of `mac`. -/
theorem equals_view_iff (a b : SigarNetAddress) :
    sigarNetAddressEquals a b = sigarOk ↔ Net.sigarNetAddressEquals a.view b.view = true := by
  rw [equals_iff, Net.sigarNetAddressEquals, decide_eq_true_iff]
  rw [SigarNetAddress.view, SigarNetAddress.view]
  cases ha : a.family <;> cases hb : b.family <;>
    simp [Family.compared, inWord_eq_iff, first_sixteen_iff]

end Sigar.Net.Bytes
