/-
  Release files of the form `KEY=value`.

  Source: `kv_parse`, `lsb_parse` and `xen_parse` of `os/linux/linux_sigar.c`.

  1. **Program** — `kv_parse` walks over the text in the buffer that it is in.  In every round it
     looks for the next `=`, in the REST OF THE TEXT and not only in the line, copies what is before
     it to `key[256]`, writes a NUL over the line feed and over a closing quote, and goes on behind
     them.  Without a `=` the round is repeated as it is.
  2. **Texts** — `kvText`: entries, one to a line.  `kvRound_entry` is what one round does with one.
  3. **Termination** — `kvParse_ends_iff`: the loop ends, inside of its array, exactly for the texts
     that consist of entries whose keys are short.
  4. **Round trip** — `kvParse_pairs_iff`: the pairs that a text shows are those that the callback
     gets, where the length of the text is an `int`; so they are for every text that fits the buffer
     of the callers (`kvParse_pairs`).
-/
import Sigar.Util
import Sigar.Lib.Loop
import Mathlib.Data.List.GetD

namespace Sigar.SysInfo

open CString Loop
open List hiding iterate

variable {after : Text} {final : Bool}

/-- A string: its characters, without the NUL that ends it. -/
abbrev CStr := Text

/-! ## The program -/

/-- `sizeof(key)`. -/
def keySize : Nat := 256

/-- Where the language does not say what `kv_parse` does.  A length that is no `int` is one of them:
    what the conversion gives is left to the compiler. -/
inductive KvFault where
  | textLength  -- `strlen(data)` is no `int`
  | keyBuffer   -- `key[klen] = '\0'` is outside of the array
  | advance     -- `klen + 1 + vlen + 1` is no `int`
  | noEnd       -- the loop does not end
  deriving DecidableEq

/-- `is_quote`. -/
def isQuote (c : Char) : Bool := c == '\'' || c == '"'

/-- `*ix = '\0'` for the first line feed, if there is one. -/
def endLine (val : Text) : Text :=
  match strchr val '\n' with
  | some ix => val.set (val.length - ix.length) nul
  | none => val

/-- The string that the callback gets: from the character after an opening quote on, and up to a
    quote at the end, over which a NUL is written. -/
def valueOf (val : Text) (vlen : Nat) : CStr :=
  let val :=
    if isQuote (deref val) then
      (if isQuote (val.getD (vlen - 1) nul) then val.set (vlen - 1) nul else val).tail
    else val
  val.takeWhile (· ≠ nul)

section Parse

variable {σ : Type} (func : σ → CStr → CStr → σ)

/-- One round of the loop; the state is the text from `ptr` to `end`, and what `func` fills in.
    What the round writes is before the `ptr` of the next one. -/
def kvRound : Text × σ → Except KvFault (Text × σ)
  | (ptr, info) =>
    match strchr ptr '=' with
    | none => .ok (ptr, info)  -- `continue`
    | some val =>
      let klen := ptr.length - val.length
      if keySize ≤ klen then .error .keyBuffer
      else
        let key := ptr.take klen
        let val := endLine val.tail
        let vlen := strlen val
        let info := func info key (valueOf val vlen)
        if intMax < klen + 1 + vlen + 1 then .error .advance
        else .ok (ptr.drop (klen + 1 + vlen + 1), info)

/-- `ptr < end`. -/
def kvLive (s : Text × σ) : Bool := !s.1.isEmpty

/-- `kv_parse`, with a bound on the rounds of its loop. -/
def kvParse (fuel : Nat) (data : Text) (info : σ) : Except KvFault σ :=
  if intMax < data.length then .error .textLength
  else (iterate kvLive (kvRound func) .noEnd fuel (data, info)).map (·.2)

end Parse

/-- `SIGAR_SYS_INFO_LEN`. -/
def sigarSysInfoLen : Nat := 256

/-- The fields of `sigar_sys_info_t` that the callbacks fill in. -/
structure SigarSysInfo where
  version : CStr
  vendor : CStr
  vendorVersion : CStr
  vendorCodeName : CStr
  deriving DecidableEq

/-- `SIGAR_SSTRCPY` to a field. -/
def sstrcpy (val : CStr) : CStr := val.take (sigarSysInfoLen - 1)

def lsbParse (info : SigarSysInfo) (key val : CStr) : SigarSysInfo :=
  if strcmp key "DISTRIB_ID".toList = .eq then { info with vendor := sstrcpy val }
  else if strcmp key "DISTRIB_RELEASE".toList = .eq then { info with vendorVersion := sstrcpy val }
  else if strcmp key "DISTRIB_CODENAME".toList = .eq then
    { info with vendorCodeName := sstrcpy val }
  else info

def xenParse (info : SigarSysInfo) (key val : CStr) : SigarSysInfo :=
  if strcmp key "PRODUCT_VERSION".toList = .eq then { info with vendorVersion := sstrcpy val }
  else if strcmp key "KERNEL_VERSION".toList = .eq then { info with version := sstrcpy val }
  else info

/-! ## Texts -/

/-- An entry: what is before its `=`, and what is after it in the line. -/
abbrev Entry := CStr × CStr

variable {e : Entry}

def entryText (e : Entry) : Text := e.1 ++ '=' :: e.2

/-- The entries, one to a line; `final` says whether there is a line feed after the last. -/
def kvText : List Entry → Bool → Text
  | [], _ => []
  | e :: rest, final =>
    entryText e ++ (if rest = [] ∧ final = false then [] else '\n' :: kvText rest final)

/-- A round finds the entry: the key may go over several lines, the value does not. -/
structure IsEntry (e : Entry) : Prop where
  key_eq : '=' ∉ e.1
  key_nul : nul ∉ e.1
  value_line : '\n' ∉ e.2
  value_nul : nul ∉ e.2

/-- What stands in quotes, if the value starts with one. -/
def unquote (v : CStr) : CStr :=
  if isQuote (deref v) then (if isQuote (v.getD (v.length - 1) nul) then v.dropLast else v).tail
  else v

/-! ## One round -/

/-- The value ends where the text does, or at the line feed. -/
def EndsLine (after : Text) : Prop := after = [] ∨ ∃ rest, after = '\n' :: rest

theorem endLine_append {v : Text} (hline : '\n' ∉ v) (hnul : nul ∉ v)
    (hafter : EndsLine after) :
    ∃ tl, endLine (v ++ after) = v ++ tl ∧ deref tl = nul := by
  rcases hafter with rfl | ⟨rest, rfl⟩
  · refine ⟨[], ?_, rfl⟩
    rw [append_nil, endLine, strchr_eq_none hline hnul]
  · refine ⟨nul :: rest, ?_, rfl⟩
    have hix : (v ++ '\n' :: rest).length - ('\n' :: rest).length = v.length := by
      rw [length_append]
      omega
    rw [endLine, strchr_first rest hline hnul]
    dsimp only
    rw [hix, set_append_right _ _ (Nat.le_refl _), Nat.sub_self]
    rfl

theorem takeWhile_tail {s tl : Text} (hs : nul ∉ s) (htl : deref tl = nul) :
    (s ++ nul :: tl).tail.takeWhile (· ≠ nul) = s.tail := by
  cases s with
  | nil => exact takeWhile_nul not_mem_nil htl
  | cons c s => exact takeWhile_nul (fun h => hs (mem_cons_of_mem c h)) rfl

theorem isQuote_nul : isQuote nul = false := by decide

/-- **The value without its quotes.** -/
theorem valueOf_eq {v tl : Text} (hnul : nul ∉ v) (htl : deref tl = nul) :
    valueOf (v ++ tl) v.length = unquote v := by
  by_cases hempty : v = []
  · subst hempty
    rw [valueOf, nil_append, htl, isQuote_nul]
    exact takeWhile_nul not_mem_nil htl
  · -- the last character is the one that is looked at, and cut off if it is a quote
    obtain ⟨init, z, rfl⟩ : ∃ init z, v = init ++ [z] :=
      ⟨v.dropLast, v.getLast hempty, (dropLast_concat_getLast hempty).symm⟩
    have hfirst : deref (init ++ [z] ++ tl) = deref (init ++ [z]) := by
      cases init with
      | nil => rfl
      | cons c init => rfl
    have hinit : nul ∉ init := fun h => hnul (mem_append_left _ h)
    have hlast : (init ++ [z] ++ tl).getD ((init ++ [z]).length - 1) nul = z := by simp
    have hlast' : (init ++ [z]).getD ((init ++ [z]).length - 1) nul = z := by simp
    have hset : (init ++ [z] ++ tl).set ((init ++ [z]).length - 1) nul = init ++ nul :: tl := by simp
    rw [valueOf, unquote, hfirst, hlast, hlast', hset, dropLast_concat]
    by_cases hopen : isQuote (deref (init ++ [z])) = true
    · rw [if_pos hopen, if_pos hopen]
      by_cases hclose : isQuote z = true
      · grind [takeWhile_tail]
      · rw [if_neg hclose, if_neg hclose]
        obtain ⟨c, v, hv⟩ := exists_cons_of_ne_nil hempty
        rw [hv] at hnul ⊢
        exact takeWhile_nul (fun h => hnul (mem_cons_of_mem c h)) htl
    · grind [takeWhile_nul]

variable {σ : Type} (func : σ → CStr → CStr → σ)

/-- **One round with an entry**: its key fits the array, and the callback gets it. -/
theorem kvRound_entry (he : IsEntry e) (hafter : EndsLine after) (info : σ) :
    kvRound func (entryText e ++ after, info)
      = if keySize ≤ e.1.length then .error .keyBuffer
        else if intMax < e.1.length + 1 + e.2.length + 1 then .error .advance
        else .ok (after.tail, func info e.1 (unquote e.2)) := by
  obtain ⟨k, v⟩ := e
  obtain ⟨hkeq, hknul, hvline, hvnul⟩ := he
  have htext : entryText (k, v) ++ after = k ++ '=' :: (v ++ after) := by
    simp [entryText]
  have hklen : (k ++ '=' :: (v ++ after)).length - ('=' :: (v ++ after)).length = k.length := by
    rw [length_append]
    omega
  have hdrop : (k ++ '=' :: (v ++ after)).drop (k.length + 1 + v.length + 1) = after.tail := by
    grind [length_append, length_cons, drop_past]
  obtain ⟨tl, hend, htl⟩ := endLine_append hvline hvnul hafter
  rw [htext, kvRound, strchr_first _ hkeq hknul]
  dsimp only
  rw [hklen, tail_cons, hend, strlen_append hvnul htl, valueOf_eq hvnul htl, take_left' rfl, hdrop]

/-! ## Whole texts -/

/-- The entry does not overflow the array for its key, or an `int`. -/
def EntryFits (e : Entry) : Prop :=
  e.1.length < keySize ∧ e.1.length + 1 + e.2.length + 1 ≤ intMax

theorem kvRound_fits (he : IsEntry e) (hfits : EntryFits e) (hafter : EndsLine after) (info : σ) :
    kvRound func (entryText e ++ after, info)
      = .ok (after.tail, func info e.1 (unquote e.2)) := by
  rw [kvRound_entry func he hafter, if_neg (Nat.not_le.mpr hfits.1), if_neg (Nat.not_lt.mpr hfits.2)]

/-- What follows the first entry of a text. -/
def afterEntry (rest : List Entry) (final : Bool) : Text :=
  if rest = [] ∧ final = false then [] else '\n' :: kvText rest final

theorem kvText_cons (e : Entry) (rest : List Entry) (final : Bool) :
    kvText (e :: rest) final = entryText e ++ afterEntry rest final := rfl

theorem endsLine_afterEntry (rest : List Entry) (final : Bool) :
    EndsLine (afterEntry rest final) := by
  unfold afterEntry
  split
  · exact .inl rfl
  · exact .inr ⟨_, rfl⟩

theorem tail_afterEntry (rest : List Entry) (final : Bool) :
    (afterEntry rest final).tail = kvText rest final := by
  unfold afterEntry
  split
  · next h =>
    rw [h.1]
    rfl
  · rfl

theorem entryText_append_ne_nil (e : Entry) (after : Text) : entryText e ++ after ≠ [] := by
  simp [entryText]

theorem kvLive_entry (e : Entry) (after : Text) (info : σ) :
    kvLive (entryText e ++ after, info) = true := by
  rw [kvLive, Bool.not_eq_true', isEmpty_eq_false_iff]
  exact entryText_append_ne_nil e after

/-- What the callback makes of the entries. -/
def foldEntries (entries : List Entry) (info : σ) : σ :=
  entries.foldl (fun info e => func info e.1 (unquote e.2)) info

/-- **The loop over entries**: it hands every one of them to the callback, and every round gets
    nearer to the end. -/
theorem descends_entries (final : Bool) : ∀ {entries : List Entry},
    (∀ e ∈ entries, IsEntry e ∧ EntryFits e) → ∀ info : σ,
      Descends kvLive (kvRound func) (fun s => s.1.length) (kvText entries final, info)
        ([], foldEntries func entries info) := by
  intro entries
  induction entries with
  | nil => intro _ info; exact .done rfl
  | cons e rest ih =>
    intro hentries info
    obtain ⟨he, hfits⟩ := hentries e mem_cons_self
    have hround := kvRound_fits func he hfits (endsLine_afterEntry rest final) info
    rw [tail_afterEntry] at hround
    rw [kvText_cons]
    refine .step (kvLive_entry e _ info) hround ?_
      (ih (fun e' he' => hentries e' (mem_cons_of_mem e he')) _)
    have htail : (kvText rest final).length ≤ (afterEntry rest final).length := by
      rw [← tail_afterEntry, length_tail]
      omega
    show (kvText rest final).length < (entryText e ++ afterEntry rest final).length
    rw [length_append, entryText, length_append, length_cons]
    omega

/-- **The text of entries is parsed**, in no more rounds than it has bytes. -/
theorem kvParse_entries (final : Bool) {entries : List Entry}
    (hlen : (kvText entries final).length ≤ intMax)
    (hentries : ∀ e ∈ entries, IsEntry e ∧ EntryFits e) (info : σ) :
    kvParse func ((kvText entries final).length + 1) (kvText entries final) info
      = .ok (foldEntries func entries info) := by
  have hrun := descends_entries func final hentries info
  rw [kvParse, if_neg (Nat.not_lt.mpr hlen), hrun.iterate_eq (Nat.lt_succ_self _)]
  rfl

/-! ## Termination -/

/-- The loop ends: all that it writes is inside of its array, and every round goes on by at least
    one byte. -/
def KvEnds (data : Text) (info : σ) : Prop :=
  ∃ out, Descends kvLive (kvRound func) (fun s => s.1.length) (data, info) out ∧
    kvParse func (data.length + 1) data info = .ok out.2

/-- The text is made of entries with short keys. -/
def KvFits (data : Text) : Prop :=
  data.length ≤ intMax ∧
    ∃ entries final, data = kvText entries final ∧ ∀ e ∈ entries, IsEntry e ∧ EntryFits e

/-- A text with a `=` starts with an entry. -/
theorem exists_entry {ptr : Text} (hnul : nul ∉ ptr) (heq : '=' ∈ ptr) :
    ∃ e after, ptr = entryText e ++ after ∧ IsEntry e ∧ EndsLine after := by
  obtain ⟨k, w, rfl, hk⟩ := eq_append_cons_of_mem heq
  have hknul : nul ∉ k := fun h => hnul (mem_append_left _ h)
  have hwnul : nul ∉ w := fun h => hnul (mem_append_right _ (mem_cons_of_mem _ h))
  by_cases hline : '\n' ∈ w
  · obtain ⟨v, rest, rfl, hv⟩ := eq_append_cons_of_mem hline
    refine ⟨(k, v), '\n' :: rest, by simp [entryText], ⟨hk, hknul, hv, ?_⟩, .inr ⟨rest, rfl⟩⟩
    exact fun h => hwnul (mem_append_left _ h)
  · exact ⟨(k, w), [], by simp [entryText], ⟨hk, hknul, hline, hwnul⟩, .inl rfl⟩

/-- A text behind an entry is that of a longer list. -/
theorem exists_kvText_cons (e : Entry) (hafter : EndsLine after) {rest : List Entry}
    (hrest : after.tail = kvText rest final) :
    ∃ final', entryText e ++ after = kvText (e :: rest) final' := by
  rcases hafter with rfl | ⟨tail, rfl⟩
  · refine ⟨false, ?_⟩
    have hnone : rest = [] := by
      cases rest with
      | nil => rfl
      | cons e' rest => exact absurd hrest.symm (entryText_append_ne_nil e' _)
    rw [hnone]
    rfl
  · obtain rfl : tail = kvText rest final := hrest
    by_cases hnone : rest = []
    · refine ⟨true, ?_⟩
      rw [hnone]
      rfl
    · refine ⟨final, ?_⟩
      rw [kvText_cons, afterEntry, if_neg fun h => hnone h.1]

/-- **Only such texts**: every round has found an entry. -/
theorem fits_of_descends {s out : Text × σ}
    (h : Descends kvLive (kvRound func) (fun s => s.1.length) s out) (hnul : nul ∉ s.1) :
    ∃ entries final, s.1 = kvText entries final ∧ ∀ e ∈ entries, IsEntry e ∧ EntryFits e := by
  induction h with
  | @done s hlive =>
    rw [kvLive, Bool.not_eq_false', List.isEmpty_iff] at hlive
    exact ⟨[], false, hlive, fun e he => absurd he not_mem_nil⟩
  | @step s s' _ _ hround hless _ ih =>
    obtain ⟨ptr, info⟩ := s
    by_cases heq : '=' ∈ ptr
    · obtain ⟨e, after, rfl, he, hafter⟩ := exists_entry hnul heq
      rw [kvRound_entry func he hafter] at hround
      split at hround
      · cases hround
      · next hkey =>
        split at hround
        · cases hround
        · next hadvance =>
          obtain rfl := Except.ok.inj hround
          have htail : nul ∉ after.tail := fun h =>
            hnul (mem_append_right _ (mem_of_mem_tail h))
          obtain ⟨rest, final, hrest, hfits⟩ := ih htail
          obtain ⟨final', htext⟩ := exists_kvText_cons e hafter hrest
          refine ⟨e :: rest, final', htext, ?_⟩
          exact forall_mem_cons.mpr ⟨⟨he, by omega, by omega⟩, hfits⟩
    · grind [kvRound, strchr_eq_none]

/-- **`kv_parse` ends, inside of its array**, exactly for the texts that are made of entries: every
    line without a `=` is followed by one that has it, which makes it a part of the key, and no key
    has 256 bytes. -/
theorem kvParse_ends_iff {data : Text} (hnul : nul ∉ data)
    (info : σ) : KvEnds func data info ↔ KvFits data := by
  constructor
  · rintro ⟨out, hrun, hparse⟩
    refine ⟨?_, fits_of_descends func hrun hnul⟩
    by_contra hlong
    rw [kvParse, if_pos (Nat.not_le.mp hlong)] at hparse
    cases hparse
  · rintro ⟨hlen, entries, final, rfl, hentries⟩
    exact ⟨_, descends_entries func final hentries info,
      kvParse_entries func final hlen hentries info⟩

/-- A comment that a line with a `=` follows is a part of its key. -/
theorem kvParse_ends_iff_example :
    KvEnds lsbParse "# Id:\nDISTRIB_ID=x\n".toList ⟨[], [], [], []⟩ := by
  refine (kvParse_ends_iff lsbParse (by decide) _).mpr
    ⟨by decide, [("# Id:\nDISTRIB_ID".toList, "x".toList)], true, by decide, ?_⟩
  exact forall_mem_singleton.mpr
    ⟨⟨by decide, by decide, by decide, by decide⟩, by decide, by decide⟩

/-- No number of rounds is enough. -/
def NeverEnds (data : Text) (info : σ) : Prop :=
  ∀ fuel, kvParse func fuel data info = .error .noEnd

/-- An empty line at the end: the loop goes round for ever. -/
theorem emptyLine_noEnd : NeverEnds lsbParse "DISTRIB_ID=x\n\n".toList ⟨[], [], [], []⟩ := by
  intro fuel
  cases fuel with
  | zero => rfl
  | succ fuel =>
    have hround : kvRound lsbParse ("\n".toList, ⟨[], "x".toList, [], []⟩)
        = .ok ("\n".toList, ⟨[], "x".toList, [], []⟩) := rfl
    have hstuck := @iterate_stuck _ _ kvLive _ KvFault.noEnd _ rfl hround fuel
    show (iterate kvLive (kvRound lsbParse) .noEnd fuel
      ("\n".toList, ⟨[], "x".toList, [], []⟩)).map (·.2) = _
    rw [hstuck]
    rfl

/-! ## The round trip -/

/-- What `get_linux_vendor_info` reads of a release file into `buffer[8192]`. -/
def releaseRead : Nat := 8190

/-- A key and a value, and the quotes around it, if there are any. -/
structure Pair where
  key : CStr
  value : CStr
  quote : Option Char
  key_ne_nil : key ≠ []
  key_length : key.length ≤ 255
  key_eq : '=' ∉ key
  key_line : '\n' ∉ key
  key_nul : nul ∉ key
  value_line : '\n' ∉ value
  value_nul : nul ∉ value
  bare : quote = none → isQuote (deref value) = false
  quoted : ∀ q, quote = some q → isQuote q = true

/-- The pair as it is written. -/
def Pair.entry (p : Pair) : Entry :=
  (p.key, match p.quote with
    | none => p.value
    | some q => q :: (p.value ++ [q]))

theorem Pair.unquote_entry (p : Pair) : unquote p.entry.2 = p.value := by
  unfold Pair.entry unquote
  cases hquote : p.quote with
  | none => rw [p.bare hquote]; rfl
  | some q =>
    have hq := p.quoted q hquote
    have hlast : (q :: (p.value ++ [q])).getD ((q :: (p.value ++ [q])).length - 1) nul = q := by
      simp
    have hdrop : (q :: (p.value ++ [q])).dropLast = q :: p.value := by
      rw [← cons_append, dropLast_concat]
    dsimp only
    rw [if_pos (show isQuote (deref (q :: (p.value ++ [q]))) = true from hq), hlast, if_pos hq, hdrop]
    rfl

theorem Pair.isEntry (p : Pair) : IsEntry p.entry := by
  have hvalue : ∀ c, c ∉ p.value → isQuote c = false → c ∉ p.entry.2 := by
    intro c hc hplain
    unfold Pair.entry
    cases hquote : p.quote with
    | none => exact hc
    | some q =>
      have hne : c ≠ q := by
        rintro rfl
        exact absurd (p.quoted c hquote) (by simp [hplain])
      intro hmem
      rcases mem_cons.mp hmem with heq | hmem
      · exact hne heq
      · grind
  exact ⟨p.key_eq, p.key_nul, hvalue _ p.value_line (by decide), hvalue _ p.value_nul isQuote_nul⟩

/-- The text of the pairs. -/
def pairsText (pairs : List Pair) (final : Bool) : Text := kvText (pairs.map Pair.entry) final

/-- The callback gets every pair, in order: its key, and its value without the quotes. -/
def PairsParsed (pairs : List Pair) (final : Bool) (info : σ) : Prop :=
  kvParse func ((pairsText pairs final).length + 1) (pairsText pairs final) info
    = .ok (pairs.foldl (fun info p => func info p.key p.value) info)

theorem foldEntries_pairs : ∀ (pairs : List Pair) (info : σ),
    foldEntries func (pairs.map Pair.entry) info
      = pairs.foldl (fun info p => func info p.key p.value) info := by
  intro pairs info
  rw [foldEntries, foldl_map]
  simp only [Pair.unquote_entry]
  rfl

/-- A loop that succeeds has met no entry that does not fit. -/
theorem entryFits_of_iterate {out : Text × σ} : ∀ {entries : List Entry},
    (∀ e ∈ entries, IsEntry e) → ∀ {fuel : Nat} {info : σ},
      iterate kvLive (kvRound func) .noEnd fuel (kvText entries final, info) = .ok out →
        ∀ e ∈ entries, EntryFits e := by
  intro entries
  induction entries with
  | nil => intro _ _ _ _ e he; exact absurd he not_mem_nil
  | cons e rest ih =>
    intro hentries fuel info hrun
    cases fuel with
    | zero => cases hrun
    | succ fuel =>
      rw [kvText_cons, iterate, if_pos (kvLive_entry e _ info),
        kvRound_entry func (hentries e mem_cons_self) (endsLine_afterEntry rest final)] at hrun
      split at hrun
      · cases hrun
      · next hkey =>
        split at hrun
        · cases hrun
        · next hadvance =>
          have hmore : iterate kvLive (kvRound func) .noEnd fuel
              ((afterEntry rest final).tail, func info e.1 (unquote e.2)) = .ok out := hrun
          rw [tail_afterEntry] at hmore
          exact forall_mem_cons.mpr ⟨⟨by omega, by omega⟩,
            ih (fun e' he' => hentries e' (mem_cons_of_mem e he')) hmore⟩

/-- **The pairs of a text are those that it was made of**, exactly when its length is an `int`, and
    so is the way over each of its lines. -/
theorem kvParse_pairs_iff (pairs : List Pair) (final : Bool) (info : σ) :
    PairsParsed func pairs final info ↔
      (pairsText pairs final).length ≤ intMax ∧
        ∀ p ∈ pairs, p.key.length + 1 + p.entry.2.length + 1 ≤ intMax := by
  have hentries : ∀ e ∈ pairs.map Pair.entry, IsEntry e := by
    intro e he
    obtain ⟨p, -, rfl⟩ := mem_map.mp he
    exact p.isEntry
  constructor
  · intro hparse
    unfold PairsParsed kvParse at hparse
    split at hparse
    · cases hparse
    · next hlen =>
      refine ⟨Nat.not_lt.mp hlen, fun p hp => ?_⟩
      cases hrun : iterate kvLive (kvRound func) .noEnd ((pairsText pairs final).length + 1)
          (pairsText pairs final, info) with
      | error fault =>
        rw [hrun] at hparse
        cases hparse
      | ok out =>
        exact (entryFits_of_iterate func hentries hrun p.entry (mem_map_of_mem hp)).2
  · rintro ⟨hlen, hpairs⟩
    have hfits : ∀ e ∈ pairs.map Pair.entry, IsEntry e ∧ EntryFits e := by
      intro e he
      obtain ⟨p, hp, rfl⟩ := mem_map.mp he
      exact ⟨p.isEntry, Nat.lt_succ_of_le p.key_length, hpairs p hp⟩
    rw [PairsParsed, ← foldEntries_pairs]
    exact kvParse_entries func final hlen hfits info

theorem length_entryText_le {e : Entry} : ∀ {entries : List Entry}, e ∈ entries →
    (entryText e).length ≤ (kvText entries final).length := by
  intro entries
  induction entries with
  | nil => intro he; cases he
  | cons e' rest ih =>
    intro he
    rw [kvText_cons, length_append]
    rcases mem_cons.mp he with rfl | he
    · omega
    · have hrest := ih he
      rw [← tail_afterEntry, length_tail] at hrest
      omega

/-- **Every pair of a release file reaches the callback**, once and in order.  `kv_parse` is static:
    its text is always the one that `get_linux_vendor_info` has read into its buffer, and the way
    over a text of that size is an `int`. -/
theorem kvParse_pairs {pairs : List Pair} {final : Bool}
    (hread : (pairsText pairs final).length ≤ releaseRead) (info : σ) :
    PairsParsed func pairs final info := by
  have hint : releaseRead + 1 ≤ intMax := by decide
  refine (kvParse_pairs_iff func pairs final info).mpr ⟨by omega, fun p hp => ?_⟩
  have hentry : (entryText p.entry).length ≤ (pairsText pairs final).length :=
    length_entryText_le (mem_map_of_mem hp)
  have hlength : (entryText p.entry).length = p.key.length + 1 + p.entry.2.length := by
    have hkey : p.entry.1 = p.key := rfl
    rw [entryText, length_append, length_cons, hkey]
    omega
  omega

/-- A pair whose key and value are checked. -/
def Pair.of (key value : CStr) (quote : Option Char)
    (h : (key ≠ [] ∧ key.length ≤ 255 ∧ '=' ∉ key ∧ '\n' ∉ key ∧ nul ∉ key) ∧
      ('\n' ∉ value ∧ nul ∉ value) ∧
      (match quote with
        | none => isQuote (deref value) = false
        | some q => isQuote q = true)) : Pair where
  key := key
  value := value
  quote := quote
  key_ne_nil := h.1.1
  key_length := h.1.2.1
  key_eq := h.1.2.2.1
  key_line := h.1.2.2.2.1
  key_nul := h.1.2.2.2.2
  value_line := h.2.1.1
  value_nul := h.2.1.2
  bare := by rintro rfl; exact h.2.2
  quoted := by rintro q rfl; exact h.2.2

/-- A value with a `=`, one in quotes with a quote inside, and an empty one. -/
def lsbPairs : List Pair :=
  [.of "DISTRIB_ID".toList "a=b".toList none (by decide),
    .of "DISTRIB_CODENAME".toList "it's".toList (some '"') (by decide),
    .of "DISTRIB_RELEASE".toList [] (some '\'') (by decide)]

theorem kvParse_pairs_lsb :
    PairsParsed lsbParse lsbPairs false ⟨[], [], "9".toList, []⟩ ∧
      lsbPairs.foldl (fun info p => lsbParse info p.key p.value) ⟨[], [], "9".toList, []⟩
        = ⟨[], "a=b".toList, [], "it's".toList⟩ :=
  ⟨kvParse_pairs lsbParse (by decide) _, by decide⟩

end Sigar.SysInfo
