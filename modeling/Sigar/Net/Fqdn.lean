/-
  The fully qualified name of the host.

  Source: `sigar_fqdn_get`, `IS_FQDN`, `IS_FQDN_MATCH`, `FQDN_SET`, `sigar_gethostbyname` and
  `sigar_gethostbyaddr` of `sigar.c`, on Linux.

  A name that the resolver knows is taken if it has a dot and the host name as a START; so `web` is
  found in `web2.example.com`.

  The forward and the reverse answers are put into the SAME structure, and the address that a reverse
  lookup is asked for is a pointer INTO the buffer that the lookup fills.  So neither what it answers
  nor what is left in the structure is settled by the address: both are inputs of the model, round by
  round, for a lookup that fails as well.  The loop goes on with the list that is left, while its index
  goes on from where it was; an entry behind the end of a list is a fault.

  1. **Program** — `reverseRound`, and `sigarFqdnGet` around it.
  2. **The loop** — `Passes`: the rounds that find no name.  A loop that ends does so in the round
     behind them (`ends_cases`).
  3. **Result** — `fqdn_takesFirst_iff`.
-/
import Sigar.Util
import Sigar.Lib.Loop

namespace Sigar.Net.Fqdn

open CString Loop Fallible List

variable {A : Type}

/-! ## The program -/

/-- `h_name` and `h_aliases`. -/
structure HostNames where
  hName : Text
  hAliases : List Text

/-- In the order in which they are looked at. -/
def HostNames.all (names : HostNames) : List Text := names.hName :: names.hAliases

/-- `struct hostent`. -/
structure Hostent (A : Type) extends HostNames where
  hAddrList : List A

/-- What a call of `gethostbyaddr_r` does: its answer, and what `h_addr_list` then has. -/
structure ReverseCall (A : Type) where
  answer : Option HostNames
  left : List A

/-- The names of the answer. -/
def ReverseCall.all (call : ReverseCall A) : List Text :=
  (call.answer.map HostNames.all).getD []

/-- The world of one call. -/
structure FqdnHost (A : Type) where
  hostname : Text                -- `gethostname`
  isString : nul ∉ hostname
  byName : Option (Hostent A)    -- `gethostbyname_r` of it
  reverse : Nat → ReverseCall A  -- `gethostbyaddr_r` of the address with this index
  domainname : Option Text       -- `getdomainname`, if it succeeds
  address : Option Text          -- the text of `fqdn_ip_get`, if it succeeds

/-- How the call leaves the defined behaviour of C, or does not come to an end. -/
inductive FqdnFault where
  | outside  -- `h_addr_list[i]` behind its `NULL`
  | rounds   -- more rounds than the loop was given
  deriving DecidableEq

/-- Where the result is from. -/
inductive FqdnFrom where
  | resolver (lookup : Text)
  | hostname | domain | address

/-- `IS_FQDN`. -/
def isFqdn (name : Text) : Bool := (strchr name '.').isSome

/-- `IS_FQDN_MATCH`. -/
def isFqdnMatch (name lookup : Text) : Bool := isFqdn lookup && strnEq lookup name (strlen name)

/-- The first name that matches. -/
def firstMatch (name : Text) (lookups : List Text) : Option Text :=
  lookups.find? (isFqdnMatch name)

/-- The variables of the loop over the addresses; `ended` has the name that was taken. -/
structure ReverseLoop (A : Type) where
  hAddrList : List A  -- `p->h_addr_list`
  i : Nat
  ended : Option (Option Text)

def ReverseLoop.live (s : ReverseLoop A) : Bool := s.ended.isNone

/-- One round. -/
def reverseRound (host : FqdnHost A) (s : ReverseLoop A) : Except FqdnFault (ReverseLoop A) :=
  if s.hAddrList.length < s.i then .error .outside
  else match s.hAddrList[s.i]? with
    | none => .ok { s with ended := some none }
    | some _ =>
      match firstMatch host.hostname (host.reverse s.i).all with
      | some lookup => .ok { s with ended := some (some lookup) }
      | none => .ok ⟨(host.reverse s.i).left, s.i + 1, none⟩  -- `p` and `q` are one structure

/-- `ENAMETOOLONG`. -/
def enametoolong : Status := 36

/-- `fqdn_ip_get`, for a name that has no dot. -/
def ipUnlessFqdn (host : FqdnHost A) (source : FqdnFrom) (name : Text) : FqdnFrom × Text :=
  if isFqdn name then (source, name)
  else match host.address with
    | some text => (.address, text)
    | none => (source, name)

/-- The end of the call, where no name of the resolver was taken. -/
def fqdnDomain (host : FqdnHost A) (namelen : Nat) : FqdnFrom × Text :=
  let name := host.hostname
  match host.domainname with
  | some domain =>
    if ¬ isFqdn name ∧ deref domain ≠ nul ∧ deref domain ≠ '(' then
      ipUnlessFqdn host .domain (name ++ '.' :: domain.take (namelen - (name.length + 1) - 1))
    else ipUnlessFqdn host .hostname name
  | none => ipUnlessFqdn host .hostname name

/-- `FQDN_SET`. -/
def fqdnSet (namelen : Nat) (lookup : Text) : FqdnFrom × Text :=
  (.resolver lookup, lookup.take (namelen - 1))

/-- What follows the loop over the addresses. -/
def afterReverse (host : FqdnHost A) (namelen : Nat) (s : ReverseLoop A) : FqdnFrom × Text :=
  match s.ended with
  | some (some lookup) => fqdnSet namelen lookup
  | _ => fqdnDomain host namelen

/-- `sigar_fqdn_get`, with a bound on the rounds of the loop over the addresses. -/
def sigarFqdnGet (rounds : Nat) (host : FqdnHost A) (namelen : Nat) :
    Except FqdnFault (Except Status (FqdnFrom × Text)) :=
  if namelen - 1 < host.hostname.length + 1 then .ok (.error enametoolong)
  else match host.byName with
    | none => .ok (.ok (ipUnlessFqdn host .hostname host.hostname))
    | some p =>
      match firstMatch host.hostname p.all with
      | some lookup => .ok (.ok (fqdnSet namelen lookup))
      | none =>
        (iterate ReverseLoop.live (reverseRound host) .rounds rounds ⟨p.hAddrList, 0, none⟩).map
          fun s => .ok (afterReverse host namelen s)

/-! ## The order of the names -/

/-- The names that the reverse lookups of the first addresses give. -/
def reverseNames (host : FqdnHost A) (n : Nat) : List Text :=
  (range n).flatMap fun i => (host.reverse i).all

/-- The forward name, the forward aliases, and per address the reverse name and aliases. -/
def allNames (host : FqdnHost A) : List Text :=
  match host.byName with
  | none => []
  | some p => p.all ++ reverseNames host p.hAddrList.length

/-- The name is `h`, a dot and a suffix. -/
def qualifies (h name : Text) : Bool := (h ++ ['.']).isPrefixOf name

/-- The call comes to an end, and a name of the resolver that it takes is the first one that
    qualifies. -/
def TakesFirst (host : FqdnHost A) (namelen : Nat) : Prop :=
  ∃ least result, (∀ rounds, least ≤ rounds → sigarFqdnGet rounds host namelen = .ok result) ∧
    ∀ lookup text, result = .ok (.resolver lookup, text) →
      (allNames host).find? (qualifies host.hostname) = some lookup

section Loop

variable (host : FqdnHost A) (p : Hostent A)

/-- The list that a round of the loop looks at. -/
def listAt : Nat → List A
  | 0 => p.hAddrList
  | i + 1 => (host.reverse i).left

/-- The rounds in front of one: each has an address, and finds no name. -/
def Passes (k : Nat) : Prop :=
  ∀ i < k, i < (listAt host p i).length ∧ firstMatch host.hostname (host.reverse i).all = none

/-- The round finds the end of its list, or a name that qualifies for an address of the forward
    answer. -/
def EndsRight (k : Nat) : Prop :=
  (listAt host p k).length = k ∨
    k < (listAt host p k).length ∧ k < p.hAddrList.length ∧
      ∃ lookup, firstMatch host.hostname (host.reverse k).all = some lookup ∧
        qualifies host.hostname lookup = true

/-- What makes it so: the first forward name that matches qualifies; and if none matches, a round of
    the loop ends it in a right way. -/
def TakesRight : Prop :=
  match firstMatch host.hostname p.all with
  | some lookup => qualifies host.hostname lookup = true
  | none => ∃ k, Passes host p k ∧ EndsRight host p k

end Loop

/-! ## Matching -/

theorem isFqdnMatch_iff {host : FqdnHost A} {lookup : Text} :
    isFqdnMatch host.hostname lookup = true ↔
      '.' ∈ lookup.takeWhile (· ≠ nul) ∧ host.hostname <+: lookup := by
  have hlen : strlen host.hostname = host.hostname.length := by
    have h := strlen_append host.isString (rfl : deref [] = nul)
    rw [append_nil] at h
    exact h
  rw [isFqdnMatch, Bool.and_eq_true, isFqdn, strchr_isSome_iff (by decide), hlen, strnEq_length,
    isPrefixOf_iff_prefix]

/-- A name that qualifies matches. -/
theorem isFqdnMatch_of_qualifies {host : FqdnHost A} {lookup : Text}
    (h : qualifies host.hostname lookup = true) : isFqdnMatch host.hostname lookup = true := by
  obtain ⟨suffix, rfl⟩ := isPrefixOf_iff_prefix.mp h
  rw [isFqdnMatch_iff, append_assoc]
  refine ⟨?_, prefix_append _ _⟩
  have hstring : ∀ c ∈ host.hostname, (c ≠ nul : Bool) = true := by
    intro c hc
    exact decide_eq_true fun heq => host.isString (heq ▸ hc)
  rw [takeWhile_append_of_pos hstring]
  exact mem_append_right _ (by rw [cons_append, takeWhile_cons_of_pos rfl]; simp)

/-- Of the names that qualify, the first one is the first that matches, if that one does. -/
theorem find?_qualifies {host : FqdnHost A} {lookups : List Text} {lookup : Text}
    (h : firstMatch host.hostname lookups = some lookup) (more : List Text) :
    (lookups ++ more).find? (qualifies host.hostname) = some lookup ↔
      qualifies host.hostname lookup = true := by
  constructor
  · exact find?_some
  · intro hqual
    obtain ⟨-, before, after, rfl, hbefore⟩ := find?_eq_some_iff_append.mp h
    rw [append_assoc, find?_append, find?_eq_none.mpr]
    · exact find?_cons_of_pos hqual
    · grind [isFqdnMatch_of_qualifies]

/-! ## The loop over the addresses -/

section Loop

variable {host : FqdnHost A} {p : Hostent A} {k : Nat}

/-- The state at the start of a round. -/
def atRound (host : FqdnHost A) (p : Hostent A) (k : Nat) : ReverseLoop A :=
  ⟨listAt host p k, k, none⟩

/-- A round at an address. -/
theorem reverseRound_addr (h : k < (listAt host p k).length) :
    reverseRound host (atRound host p k) =
      match firstMatch host.hostname (host.reverse k).all with
      | some lookup => .ok ⟨listAt host p k, k, some (some lookup)⟩
      | none => .ok (atRound host p (k + 1)) := by
  rw [reverseRound, atRound, if_neg (Nat.lt_asymm h), getElem?_eq_getElem h]
  rfl

/-- The round at the end of the list. -/
theorem reverseRound_end (h : (listAt host p k).length = k) :
    reverseRound host (atRound host p k) = .ok ⟨listAt host p k, k, some none⟩ := by
  rw [reverseRound, atRound, if_neg (Nat.not_lt.mpr (Nat.le_of_eq h.symm)),
    getElem?_eq_none (Nat.le_of_eq h)]

/-- The rounds that find no name lead to the next one. -/
theorem Passes.ends {out : ReverseLoop A} : ∀ {k : Nat}, Passes host p k →
    Ends ReverseLoop.live (reverseRound host) (atRound host p k) out →
    Ends ReverseLoop.live (reverseRound host) (atRound host p 0) out := by
  intro k
  induction k with
  | zero => intro _ h; exact h
  | succ k ih =>
    intro hpasses h
    obtain ⟨hlist, hnone⟩ := hpasses k (Nat.lt_succ_self k)
    refine ih (fun i hi => hpasses i (Nat.lt_succ_of_lt hi)) (.step rfl ?_ h)
    rw [reverseRound_addr hlist, hnone]

/-- **How the loop ends**: behind the rounds that find no name, at the end of the list or with a
    name.  By induction on the run of the loop. -/
theorem ends_cases {s out : ReverseLoop A} (h : Ends ReverseLoop.live (reverseRound host) s out) :
    ∀ {k : Nat}, s = atRound host p k → Passes host p k →
      ∃ k, Passes host p k ∧
        ((listAt host p k).length = k ∧ out.ended = some none ∨
          k < (listAt host p k).length ∧ ∃ lookup,
            firstMatch host.hostname (host.reverse k).all = some lookup ∧
              out.ended = some (some lookup)) := by
  induction h with
  | done hlive =>
    intro k hs
    rw [hs] at hlive
    cases hlive
  | @step s s' out hlive hround hrest ih =>
    intro k hs hpasses
    rw [hs] at hround
    -- a loop that has a result stays as it is
    have hended : ∀ {taken}, s'.ended = some taken → out = s' := by
      intro taken htaken
      refine hrest.unique (.done ?_)
      rw [ReverseLoop.live, htaken]
      rfl
    rcases Nat.lt_trichotomy (listAt host p k).length k with hshort | hend | hlist
    · rw [reverseRound, atRound, if_pos hshort] at hround
      cases hround
    · rw [reverseRound_end hend] at hround
      obtain rfl := Except.ok.inj hround
      exact ⟨k, hpasses, .inl ⟨hend, by rw [hended rfl]⟩⟩
    · rw [reverseRound_addr hlist] at hround
      cases hmatch : firstMatch host.hostname (host.reverse k).all with
      | some lookup =>
        rw [hmatch] at hround
        obtain rfl := Except.ok.inj hround
        exact ⟨k, hpasses, .inr ⟨hlist, lookup, hmatch, by rw [hended rfl]⟩⟩
      | none =>
        rw [hmatch] at hround
        refine ih (Except.ok.inj hround).symm fun i hi => ?_
        rcases Nat.lt_succ_iff_lt_or_eq.mp hi with hi | rfl
        · exact hpasses i hi
        · exact ⟨hlist, hmatch⟩

/-- The rounds that find no name have no name that matches. -/
theorem Passes.firstMatch_eq_none (h : Passes host p k) :
    firstMatch host.hostname (reverseNames host k) = none := by
  rw [firstMatch, find?_eq_none]
  intro lookup hlookup
  obtain ⟨i, hi, hmem⟩ := mem_flatMap.mp hlookup
  exact find?_eq_none.mp (h i (mem_range.mp hi)).2 lookup hmem

/-- The names up to a round, and those behind it. -/
theorem reverseNames_split {n : Nat} (h : k < n) :
    ∃ more, reverseNames host n = reverseNames host k ++ (host.reverse k).all ++ more := by
  obtain ⟨m, rfl⟩ := Nat.exists_eq_add_of_lt h
  refine ⟨((range m).map (k + 1 + ·)).flatMap fun i => (host.reverse i).all, ?_⟩
  rw [reverseNames, show k + m + 1 = k + 1 + m by omega, range_add, flatMap_append, range_succ,
    flatMap_append, flatMap_singleton]
  rfl

end Loop

/-! ## The name that is taken -/

/-- The result is not a name of the resolver. -/
def NotResolver (result : FqdnFrom × Text) : Prop := ∀ lookup text, result ≠ (.resolver lookup, text)

theorem ipUnlessFqdn_notResolver (host : FqdnHost A) {source : FqdnFrom} {name : Text}
    (h : ∀ lookup, source ≠ .resolver lookup) : NotResolver (ipUnlessFqdn host source name) := by
  intro lookup text heq
  rw [ipUnlessFqdn] at heq
  split at heq
  · exact h lookup (Prod.mk.inj heq).1
  · grind

theorem fqdnDomain_notResolver (host : FqdnHost A) (namelen : Nat) :
    NotResolver (fqdnDomain host namelen) := by grind [fqdnDomain, ipUnlessFqdn_notResolver]

/-- A call whose result is not from the resolver. -/
theorem takesFirst_of_notResolver {host : FqdnHost A} {namelen least : Nat}
    {result : FqdnFrom × Text} (hresult : NotResolver result)
    (h : ∀ rounds, least ≤ rounds → sigarFqdnGet rounds host namelen = .ok (.ok result)) :
    TakesFirst host namelen :=
  ⟨least, _, h, fun lookup text heq => absurd (Except.ok.inj heq) (hresult lookup text)⟩

/-- A call that takes a name of the resolver. -/
theorem takesFirst_of_resolver {host : FqdnHost A} {namelen least : Nat} {lookup : Text}
    (h : ∀ rounds, least ≤ rounds →
      sigarFqdnGet rounds host namelen = .ok (.ok (fqdnSet namelen lookup))) :
    TakesFirst host namelen ↔ (allNames host).find? (qualifies host.hostname) = some lookup := by
  constructor
  · rintro ⟨least', result, hresult, htakes⟩
    have h' := hresult (max least least') (Nat.le_max_right _ _)
    rw [h _ (Nat.le_max_left _ _)] at h'
    exact htakes lookup _ (Except.ok.inj h').symm
  · intro hfirst
    refine ⟨least, _, h, fun lookup' text heq => ?_⟩
    have hsame : FqdnFrom.resolver lookup = .resolver lookup' := (Prod.mk.inj (Except.ok.inj heq)).1
    rw [← FqdnFrom.resolver.inj hsame]
    exact hfirst

section Resolved

variable {host : FqdnHost A} {namelen : Nat} {p : Hostent A}
  (hfits : ¬ namelen - 1 < host.hostname.length + 1) (hp : host.byName = some p)

include hp hfits

/-- A forward name is taken. -/
theorem sigarFqdnGet_forward {lookup : Text} (h : firstMatch host.hostname p.all = some lookup)
    (rounds : Nat) : sigarFqdnGet rounds host namelen = .ok (.ok (fqdnSet namelen lookup)) := by
  rw [sigarFqdnGet, if_neg hfits, hp]
  dsimp only
  rw [h]

/-- The loop over the addresses decides. -/
theorem sigarFqdnGet_reverse (h : firstMatch host.hostname p.all = none) (rounds : Nat) :
    sigarFqdnGet rounds host namelen =
      (iterate ReverseLoop.live (reverseRound host) .rounds rounds ⟨p.hAddrList, 0, none⟩).map
        fun s => .ok (afterReverse host namelen s) := by
  rw [sigarFqdnGet, if_neg hfits, hp]
  dsimp only
  rw [h]

theorem sigarFqdnGet_ends (h : firstMatch host.hostname p.all = none) {out : ReverseLoop A}
    (hends : Ends ReverseLoop.live (reverseRound host) (atRound host p 0) out) :
    ∃ least, ∀ rounds, least ≤ rounds →
      sigarFqdnGet rounds host namelen = .ok (.ok (afterReverse host namelen out)) := by
  obtain ⟨least, hleast⟩ := hends.eventually
  refine ⟨least, fun rounds hrounds => ?_⟩
  have hloop : iterate ReverseLoop.live (reverseRound host) .rounds rounds ⟨p.hAddrList, 0, none⟩
      = .ok out := hleast rounds hrounds
  rw [sigarFqdnGet_reverse hfits hp h, hloop]
  rfl

/-- A call that comes to an end, where the loop decides. -/
theorem TakesFirst.ends (h : firstMatch host.hostname p.all = none) (htakes : TakesFirst host namelen) :
    ∃ out, Ends ReverseLoop.live (reverseRound host) (atRound host p 0) out := by
  obtain ⟨least, result, hresult, -⟩ := htakes
  have hcall := hresult least (Nat.le_refl least)
  rw [sigarFqdnGet_reverse hfits hp h] at hcall
  obtain ⟨out, hloop, -⟩ := map_eq_ok_iff.mp hcall
  exact ⟨out, exists_iterate_iff.mp ⟨least, hloop⟩⟩

omit hfits in
/-- The first name that qualifies, where a round of the loop takes one. -/
theorem find?_reverse (h : firstMatch host.hostname p.all = none) {k : Nat}
    (hpasses : Passes host p k) {lookup : Text}
    (hmatch : firstMatch host.hostname (host.reverse k).all = some lookup) :
    (allNames host).find? (qualifies host.hostname) = some lookup ↔
      k < p.hAddrList.length ∧ qualifies host.hostname lookup = true := by
  have hnone := hpasses.firstMatch_eq_none
  rw [firstMatch] at h hmatch hnone
  have hnames : allNames host = p.all ++ reverseNames host p.hAddrList.length := by
    rw [allNames, hp]
  constructor
  · intro hfirst
    have hqual : qualifies host.hostname lookup = true := find?_some hfirst
    refine ⟨?_, hqual⟩
    have hmem := mem_of_find?_eq_some hfirst
    have hmatches := isFqdnMatch_of_qualifies hqual
    rw [hnames, mem_append] at hmem
    rcases hmem with hmem | hmem
    · exact absurd hmatches (find?_eq_none.mp h lookup hmem)
    · obtain ⟨i, hi, hname⟩ := mem_flatMap.mp hmem
      have hi := mem_range.mp hi
      by_contra hlate
      exact find?_eq_none.mp (hpasses i (by omega)).2 lookup hname hmatches
  · rintro ⟨hk, hqual⟩
    obtain ⟨more, hmore⟩ := @reverseNames_split A host k _ hk
    have hfirst : firstMatch host.hostname
        (p.all ++ (reverseNames host k ++ (host.reverse k).all)) = some lookup := by
      rw [firstMatch, find?_append, h, Option.none_or, find?_append, hnone, Option.none_or, hmatch]
    rw [hnames, hmore, ← append_assoc]
    exact (find?_qualifies hfirst more).mpr hqual

/-- **A host name that is resolved.** -/
theorem takesFirst_resolved : TakesFirst host namelen ↔ TakesRight host p := by
  rw [TakesRight]
  cases hforward : firstMatch host.hostname p.all with
  | some lookup =>
    have hnames : allNames host = p.all ++ reverseNames host p.hAddrList.length := by
      rw [allNames, hp]
    rw [takesFirst_of_resolver fun rounds (_ : 0 ≤ rounds) =>
      sigarFqdnGet_forward hfits hp hforward rounds, hnames]
    exact find?_qualifies hforward _
  | none =>
    dsimp only
    constructor
    · intro htakes
      obtain ⟨out, hends⟩ := htakes.ends hfits hp hforward
      obtain ⟨k, hpasses, hcases⟩ := @ends_cases A host p _ _ hends 0 rfl fun i hi => by omega
      refine ⟨k, hpasses, ?_⟩
      rcases hcases with ⟨hend, -⟩ | ⟨hlist, lookup, hmatch, hout⟩
      · exact .inl hend
      · obtain ⟨least, hleast⟩ := sigarFqdnGet_ends hfits hp hforward hends
        rw [afterReverse, hout] at hleast
        rw [takesFirst_of_resolver hleast, find?_reverse hp hforward hpasses hmatch] at htakes
        exact .inr ⟨hlist, htakes.1, lookup, hmatch, htakes.2⟩
    · rintro ⟨k, hpasses, hend | ⟨hlist, hk, lookup, hmatch, hqual⟩⟩
      · have hends := hpasses.ends (.step rfl (reverseRound_end hend) (.done rfl))
        obtain ⟨least, hleast⟩ := sigarFqdnGet_ends hfits hp hforward hends
        exact takesFirst_of_notResolver (fqdnDomain_notResolver host namelen) hleast
      · have hround := reverseRound_addr hlist
        rw [hmatch] at hround
        have hends := hpasses.ends (.step rfl hround (.done rfl))
        obtain ⟨least, hleast⟩ := sigarFqdnGet_ends hfits hp hforward hends
        rw [takesFirst_of_resolver hleast, find?_reverse hp hforward hpasses hmatch]
        exact ⟨hk, hqual⟩

end Resolved

/-- **The name that is taken** is the first one that qualifies, exactly when the host name does not
    fit into the buffer or is not resolved, or the name that is found first qualifies. -/
theorem fqdn_takesFirst_iff (host : FqdnHost A) (namelen : Nat) :
    TakesFirst host namelen ↔
      (host.hostname.length + 1 ≤ namelen - 1 → ∀ p, host.byName = some p → TakesRight host p) := by
  by_cases hfits : namelen - 1 < host.hostname.length + 1
  · refine ⟨fun _ h => absurd h (by omega), fun _ => ⟨0, .error enametoolong, fun rounds _ => ?_, ?_⟩⟩
    · rw [sigarFqdnGet, if_pos hfits]
    · intro lookup text heq
      cases heq
  · have hroom : host.hostname.length + 1 ≤ namelen - 1 := by omega
    cases hp : host.byName with
    | none =>
      have hip : NotResolver (ipUnlessFqdn host .hostname host.hostname) :=
        ipUnlessFqdn_notResolver host fun _ h => (by cases h)
      have hcall : ∀ rounds, 0 ≤ rounds → sigarFqdnGet rounds host namelen
          = .ok (.ok (ipUnlessFqdn host .hostname host.hostname)) := by
        intro rounds _
        rw [sigarFqdnGet, if_neg hfits, hp]
      refine ⟨fun _ _ p h => ?_, fun _ => takesFirst_of_notResolver hip hcall⟩
      cases h
    | some p =>
      rw [takesFirst_resolved hfits hp]
      exact ⟨fun h _ p' heq => Option.some.inj heq ▸ h, fun h => h hroom p rfl⟩

/-- A host `web` whose address is known as `web2.example.com` first. -/
def webHost : FqdnHost Unit where
  hostname := "web".toList
  isString := by decide
  byName := some ⟨⟨"web2.example.com".toList, ["web.example.com".toList]⟩, []⟩
  reverse := fun _ => ⟨none, []⟩
  domainname := none
  address := none

/-- The name of another host is taken. -/
theorem webHost_takesOther : ¬ TakesFirst webHost 512 := by
  intro h
  have hcall := @sigarFqdnGet_forward Unit webHost 512 _ (by decide) rfl "web2.example.com".toList
    (by decide)
  rw [takesFirst_of_resolver fun rounds (_ : 0 ≤ rounds) => hcall rounds] at h
  exact absurd h (by decide)

end Sigar.Net.Fqdn
