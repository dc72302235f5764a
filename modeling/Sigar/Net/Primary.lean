/-
  The primary network interface.

  Source: `sigar_net_interface_config_primary_get` of `sigar.c`.

  The first interface that is up to it is returned, and otherwise the first CANDIDATE, which is put
  by on the way.  Two of the tests are made on something else than they mean: that there is a
  hardware address on `hwaddr.addr.in`, which is the first four of its six bytes, and that a
  candidate was put by on ITS flags.  The selection is right exactly when the interface that should
  be chosen passes these two tests.
-/
import Sigar.Net.Address

namespace Sigar.Net

open CString List

variable {ρ : Type}

/-! ## The program -/

/-- What is read of a `sigar_net_interface_config_t`, and the rest of it. -/
structure SigarNetInterfaceConfig (ρ : Type) where
  flags : UInt64
  hwaddr : Bytes.SigarNetAddress
  address : Bytes.SigarNetAddress
  rest : ρ

/-- An interface of the list, and what `sigar_net_interface_config_get` does with its name. -/
structure Probe (ρ : Type) where
  name : Text
  outcome : Except Status (SigarNetInterfaceConfig ρ)

/-- `SIGAR_IFF_LOOPBACK`. -/
def sigarIffLoopback : UInt64 := 8
/-- `SIGAR_ENXIO`, that is `ENXIO` of Linux. -/
def sigarEnxio : Status := 6

/-- `possible_config.flags`; the other fields are not set before a candidate is put by. -/
def possibleFlags (possible : Option (SigarNetInterfaceConfig ρ)) : UInt64 :=
  (possible.map (·.flags)).getD 0

/-- The loop over the interfaces, and what follows it. -/
def primaryLoop (possible : Option (SigarNetInterfaceConfig ρ)) :
    List (Probe ρ) → Except Status (SigarNetInterfaceConfig ρ)
  | [] =>
    match possible with
    | some config => if config.flags ≠ 0 then .ok config else .error sigarEnxio
    | none => .error sigarEnxio
  | probe :: probes =>
    match probe.outcome with
    | .error _ => primaryLoop possible probes
    | .ok config =>
      if config.flags &&& sigarIffLoopback ≠ 0 ∨ config.hwaddr.inWord = 0 then  -- no mac address
        primaryLoop possible probes
      else
        let possible := if possibleFlags possible = 0 then some config else possible
        if config.address.inWord = 0 then primaryLoop possible probes  -- no ip address
        else if (strchr probe.name ':').isSome then primaryLoop possible probes -- alias
        else .ok config

/-- `sigar_net_interface_config_primary_get`. -/
def sigarNetInterfaceConfigPrimaryGet (iflist : Except Status (List (Probe ρ))) :
    Except Status (SigarNetInterfaceConfig ρ) :=
  iflist.bind (primaryLoop none)

/-! ## The selection -/

/-- A name and a configuration that was read. -/
abbrev Candidate (ρ : Type) := Text × SigarNetInterfaceConfig ρ

/-- The hardware address is not zero. -/
def SigarNetInterfaceConfig.hasMac (config : SigarNetInterfaceConfig ρ) : Bool :=
  (config.hwaddr.first 6).any (· ≠ 0)

/-- The readable interfaces that are not for loopback and have a hardware address, in the order of
    the list. -/
def candidates (probes : List (Probe ρ)) : List (Candidate ρ) :=
  probes.filterMap fun probe =>
    match probe.outcome with
    | .error _ => none
    | .ok config =>
      if config.flags &&& sigarIffLoopback = 0 ∧ config.hasMac then some (probe.name, config) else none

/-- A candidate with an address, whose name is not that of an alias. -/
def connected (candidate : Candidate ρ) : Bool :=
  candidate.2.address.inWord ≠ 0 ∧ ':' ∉ candidate.1.takeWhile (· ≠ nul)

/-- **The primary interface**: the first candidate that is connected, or else the first one. -/
def primary (probes : List (Probe ρ)) : Option (SigarNetInterfaceConfig ρ) :=
  (((candidates probes).find? connected).or (candidates probes).head?).map (·.2)

/-- A candidate that the test of the source finds. -/
def seen (candidate : Candidate ρ) : Bool := candidate.2.hwaddr.inWord ≠ 0

/-- A candidate that is remembered once it was put by. -/
def flagged (candidate : Candidate ρ) : Bool := candidate.2.flags ≠ 0

/-- The candidate that should be chosen is seen, and it is remembered if it has to be. -/
def Chosen (probes : List (Probe ρ)) : Prop :=
  match (candidates probes).find? connected with
  | some candidate => seen candidate = true
  | none => ∀ candidate, (candidates probes).head? = some candidate →
      seen candidate = true ∧ flagged candidate = true

/-! ## What the loop computes -/

/-- A hardware address that is seen is one. -/
theorem hasMac_of_inWord {config : SigarNetInterfaceConfig ρ} (h : config.hwaddr.inWord ≠ 0) :
    config.hasMac = true := by
  by_contra hnone
  apply h
  rw [Bytes.inWord_eq_zero_iff]
  have hzero : config.hwaddr.first 6 = (Bytes.cleared .link).first 6 := by
    rw [SigarNetInterfaceConfig.hasMac, any_eq_true] at hnone
    have hall : ∀ u ∈ config.hwaddr.first 6, u = 0 := by grind
    rw [eq_replicate_of_mem hall, Bytes.length_first config.hwaddr (Bytes.cleared .link) 6]
    rfl
  exact fun i hi => Bytes.first_eq_iff.mp hzero i (by omega)

/-- The candidates that are seen, of one interface more. -/
theorem seen_cons (probe : Probe ρ) (probes : List (Probe ρ)) :
    (candidates (probe :: probes)).filter seen =
      match probe.outcome with
      | .error _ => (candidates probes).filter seen
      | .ok config =>
        if config.flags &&& sigarIffLoopback ≠ 0 ∨ config.hwaddr.inWord = 0 then
          (candidates probes).filter seen
        else (probe.name, config) :: (candidates probes).filter seen := by
  cases houtcome : probe.outcome with
  | error errno => rw [candidates, filterMap_cons, houtcome, ← candidates]
  | ok config =>
    dsimp only
    by_cases hword : config.hwaddr.inWord = 0
    · rw [if_pos (.inr hword), candidates, filterMap_cons, houtcome]
      dsimp only
      by_cases hcand : config.flags &&& sigarIffLoopback = 0 ∧ config.hasMac = true
      · rw [if_pos hcand]
        exact filter_cons_of_neg (by simp [seen, hword])
      · rw [if_neg hcand]
        rfl
    · have hmac := hasMac_of_inWord hword
      by_cases hloop : config.flags &&& sigarIffLoopback = 0
      · rw [if_neg (by rintro (h | h); exacts [h hloop, hword h]), candidates, filterMap_cons,
          houtcome]
        dsimp only
        rw [if_pos ⟨hloop, hmac⟩]
        exact filter_cons_of_pos (by simp [seen, hword])
      · rw [if_pos (.inl hloop), candidates, filterMap_cons, houtcome]
        dsimp only
        rw [if_neg fun h => hloop h.1]
        rfl

/-- What the loop returns, of the candidates it sees. -/
def loopChoice (possible : Option (SigarNetInterfaceConfig ρ)) (cands : List (Candidate ρ)) :
    Option (SigarNetInterfaceConfig ρ) :=
  ((cands.find? connected).map (·.2)).or
    ((possible.filter (·.flags ≠ 0)).or ((cands.find? flagged).map (·.2)))

theorem loopChoice_connected (possible : Option (SigarNetInterfaceConfig ρ)) {c : Candidate ρ}
    (cands : List (Candidate ρ)) (h : connected c = true) :
    loopChoice possible (c :: cands) = some c.2 := by
  rw [loopChoice, find?_cons_of_pos h]
  rfl

/-- A candidate that is not connected is put by, if none was that is remembered. -/
theorem loopChoice_next (possible : Option (SigarNetInterfaceConfig ρ)) {c : Candidate ρ}
    (cands : List (Candidate ρ)) (h : ¬ connected c = true) :
    loopChoice possible (c :: cands)
      = loopChoice (if possibleFlags possible = 0 then some c.2 else possible) cands := by
  rw [loopChoice, loopChoice, find?_cons_of_neg h]
  congr 1
  by_cases hflags : possibleFlags possible = 0
  · have hnone : possible.filter (·.flags ≠ 0) = none := by
      cases possible with
      | none => rfl
      | some config => exact if_neg (by simpa [possibleFlags] using hflags)
    rw [if_pos hflags, hnone, Option.none_or]
    by_cases hc : flagged c = true
    · have hkeep : (some c.2).filter (·.flags ≠ 0) = some c.2 := if_pos hc
      rw [find?_cons_of_pos hc, hkeep]
      rfl
    · have hdrop : (some c.2).filter (·.flags ≠ 0) = none := if_neg hc
      rw [find?_cons_of_neg hc, hdrop, Option.none_or]
  · rw [if_neg hflags]
    cases possible with
    | none => exact absurd rfl hflags
    | some config => grind [possibleFlags]

/-- **The loop**, by induction on the interfaces that are left. -/
theorem primaryLoop_eq : ∀ (probes : List (Probe ρ)) (possible : Option (SigarNetInterfaceConfig ρ)),
    (primaryLoop possible probes).toOption
      = loopChoice possible ((candidates probes).filter seen) := by
  intro probes
  induction probes with
  | nil =>
    intro possible
    cases possible with
    | none => rfl
    | some config =>
      rw [primaryLoop]
      by_cases hflags : config.flags ≠ 0
      · have hkeep : (some config).filter (·.flags ≠ 0) = some config := if_pos (by simpa using hflags)
        rw [if_pos hflags, loopChoice, hkeep]
        rfl
      · have hdrop : (some config).filter (·.flags ≠ 0) = none := if_neg (by simpa using hflags)
        rw [if_neg hflags, loopChoice, hdrop]
        rfl
  | cons probe probes ih =>
    intro possible
    rw [seen_cons, primaryLoop]
    cases houtcome : probe.outcome with
    | error errno => exact ih possible
    | ok config =>
      dsimp only
      split
      case isTrue => exact ih possible
      case isFalse hseen =>
        by_cases haddress : config.address.inWord = 0
        · have hno : ¬ connected (probe.name, config) = true := by simp [connected, haddress]
          rw [if_pos haddress, ih, loopChoice_next possible _ hno]
        · rw [if_neg haddress]
          by_cases halias : (strchr probe.name ':').isSome = true
          · have hno : ¬ connected (probe.name, config) = true := by
              rw [strchr_isSome_iff (by decide)] at halias
              rw [connected, decide_eq_true_iff]
              exact fun h => h.2 halias
            rw [if_pos halias, ih, loopChoice_next possible _ hno]
          · have hyes : connected (probe.name, config) = true := by
              rw [strchr_isSome_iff (by decide)] at halias
              rw [connected, decide_eq_true_iff]
              exact ⟨haddress, halias⟩
            rw [if_neg halias, loopChoice_connected possible _ hyes]
            rfl

/-! ## When the selection is right -/

/-- The first match that also passes a filter is the first one behind it. -/
theorem find?_filter_of_find? {α : Type} {p q : α → Bool} : ∀ {l : List α} {a : α},
    l.find? q = some a → p a = true → (l.filter p).find? q = some a := by
  intro l
  induction l with
  | nil => intro a h _; cases h
  | cons x l ih => grind

/-- What the loop chooses is seen, and remembered if it was put by. -/
theorem loopChoice_seen {cands : List (Candidate ρ)} {config : SigarNetInterfaceConfig ρ}
    (h : loopChoice none (cands.filter seen) = some config) :
    ∃ c ∈ cands, c.2 = config ∧ seen c = true ∧ (connected c = true ∨ flagged c = true) := by
  rw [loopChoice, Option.or_eq_some_iff] at h
  rcases h with h | ⟨-, h⟩
  · obtain ⟨c, hfind, rfl⟩ := Option.map_eq_some_iff.mp h
    obtain ⟨hmem, hseen⟩ := mem_filter.mp (mem_of_find?_eq_some hfind)
    exact ⟨c, hmem, rfl, hseen, .inl (find?_some hfind)⟩
  · obtain ⟨c, hfind, rfl⟩ := Option.map_eq_some_iff.mp h
    obtain ⟨hmem, hseen⟩ := mem_filter.mp (mem_of_find?_eq_some hfind)
    exact ⟨c, hmem, rfl, hseen, .inr (find?_some hfind)⟩

/-- **The primary interface is selected** exactly when the interface to be chosen has a byte that is
    not zero among the first four of its hardware address and, if it has to be put by, a flag. -/
theorem primary_selected_iff (probes : List (Probe ρ)) :
    (sigarNetInterfaceConfigPrimaryGet (.ok probes)).toOption = primary probes ↔ Chosen probes := by
  have hloop : (sigarNetInterfaceConfigPrimaryGet (.ok probes)).toOption
      = loopChoice none ((candidates probes).filter seen) := primaryLoop_eq probes none
  rw [hloop, primary, Chosen]
  cases hconn : (candidates probes).find? connected with
  | some c =>
    constructor
    · intro h
      obtain ⟨c', -, hconfig, hseen, -⟩ := loopChoice_seen h
      rw [seen, hconfig] at hseen
      exact hseen
    · intro hseen
      rw [loopChoice, find?_filter_of_find? hconn hseen]
      rfl
  | none =>
    have hnone : ((candidates probes).filter seen).find? connected = none := by
      rw [find?_eq_none] at hconn ⊢
      exact fun c hc => hconn c (mem_of_mem_filter hc)
    cases hcands : candidates probes with
    | nil =>
      exact ⟨fun _ c hc => (by cases hc), fun _ => rfl⟩
    | cons c rest =>
      rw [hcands] at hnone hconn
      constructor
      · intro h c' hc'
        obtain rfl : c = c' := Option.some.inj hc'
        obtain ⟨d, hd, hconfig, hseen, hmark⟩ := loopChoice_seen h
        have hflag := hmark.resolve_left (find?_eq_none.mp hconn d hd)
        rw [seen, hconfig] at hseen
        rw [flagged, hconfig] at hflag
        exact ⟨hseen, hflag⟩
      · intro h
        obtain ⟨hseen, hflag⟩ := h c rfl
        rw [loopChoice, hnone, filter_cons_of_pos hseen, find?_cons_of_pos hflag]
        rfl

/-- An interface with the hardware address 00:00:00:00:00:01, as software switches give them. -/
def switchPort : Probe Unit :=
  ⟨"eth0".toList, .ok ⟨0x43, ⟨.link, fun i => if i.val = 5 then 1 else 0⟩, ⟨.inet, fun _ => 10⟩, ()⟩⟩

/-- It is not found, and it is the only one. -/
theorem switchPort_lost :
    ¬ (sigarNetInterfaceConfigPrimaryGet (.ok [switchPort])).toOption = primary [switchPort] := by
  intro h
  have hfound : (primary [switchPort]).isSome = true := by decide
  rw [← h] at hfound
  exact absurd hfound (by decide)

end Sigar.Net
