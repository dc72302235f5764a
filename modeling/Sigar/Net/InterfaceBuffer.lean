/-
  Who owns the buffer of the interface list.

  After a call the handle should have no buffer, or one that is there and as long as it says
  (`OwnsBuffer`).  A call keeps that exactly when its rounds come to a COMPLETE answer (`Completes`):
  an answer shorter than the buffer, or one as long as that of the round before, and until then
  only answers after which the loop goes on.  Every other way out frees the buffer and leaves its
  address in the handle, and without a way out the loop goes on until the length overflows.
-/
import Sigar.Net.Interfaces

namespace Sigar.Net

open CString Blocks Loop Fallible List

variable {st : IfState} {list : IfList} {host : IfHost} {r : Except Status IfList}

/-! ## The lengths of the rounds -/

/-- The length of the buffer in a round. -/
def IfBuffer.lenAt (buf : IfBuffer) : Nat → Nat
  | 0 => if buf.ifconfBuf.isNone then grownLen buf.ifconfLen else buf.ifconfLen
  | k + 1 => grownLen (buf.lenAt k)

/-- `ifc_len` after `ioctl`, which does not change it if it fails. -/
def IfconfAnswer.ifcLen (len : Nat) : IfconfAnswer → Nat
  | .filled ifcLen _ => ifcLen
  | .failed _ => len

/-- The answer of a round. -/
def answerAt (ioctl : Nat → Nat → IfconfAnswer) (buf : IfBuffer) (k : Nat) : IfconfAnswer :=
  ioctl k (buf.lenAt k)

/-- `lastlen` in a round. -/
def lastAt (ioctl : Nat → Nat → IfconfAnswer) (buf : IfBuffer) : Nat → Nat
  | 0 => 0
  | k + 1 => (answerAt ioctl buf k).ifcLen (buf.lenAt k)

/-- After such an answer the loop goes on. -/
def GoesOn (answer : IfconfAnswer) (len last : Nat) : Prop :=
  match answer with
  | .filled ifcLen _ => len ≤ ifcLen ∧ ifcLen ≠ last
  | .failed errno => errno = einval ∧ last ≠ len

/-- Such an answer is taken for complete. -/
def Finishes (answer : IfconfAnswer) (len last : Nat) : Prop :=
  match answer with
  | .filled ifcLen _ => ifcLen < len ∨ ifcLen = last
  | .failed _ => False

/-- The rounds from the `k`-th on come to a complete answer, in a buffer whose length is an
    `int`. -/
def CompletesFrom (ioctl : Nat → Nat → IfconfAnswer) (buf : IfBuffer) (k : Nat) : Prop :=
  ∃ j, k ≤ j ∧ buf.lenAt j ≤ intMax ∧
    (∀ i, k ≤ i → i < j → GoesOn (answerAt ioctl buf i) (buf.lenAt i) (lastAt ioctl buf i)) ∧
    Finishes (answerAt ioctl buf j) (buf.lenAt j) (lastAt ioctl buf j)

/-- The call opens its socket and comes to a complete answer, or has no socket. -/
def Completes (host : IfHost) (buf : IfBuffer) : Prop :=
  host.socket = none → CompletesFrom host.ioctl buf 0

theorem IfBuffer.lenAt_mono (buf : IfBuffer) {i j : Nat} (h : i ≤ j) : buf.lenAt i ≤ buf.lenAt j := by
  induction h with
  | refl => exact Nat.le_refl _
  | step _ ih => exact Nat.le_trans ih (Nat.le_add_right _ _)

/-! ## One round -/

/-- There is no buffer, or it is there and as long as the handle says. -/
def OwnsBuffer (st : IfState) : Prop :=
  ∀ addr, st.buf.ifconfBuf = some addr → st.heap.size addr = some st.buf.ifconfLen

theorem OwnsBuffer.live (h : OwnsBuffer st) {addr : Nat} (hbuf : st.buf.ifconfBuf = some addr) :
    st.heap.Live addr :=
  live_of_size (h addr hbuf)

theorem opened_owned : OwnsBuffer .opened := fun _ h => by cases h

theorem sigarClose_owned (h : OwnsBuffer st) : ∃ st', sigarClose st = .ok st' := by
  rw [sigarClose, freeBuffer]
  split
  case h_1 => exact ⟨st, rfl⟩
  case h_2 addr hbuf =>
    obtain ⟨heap, hfree, -⟩ := @free_live _ IfFault.freed _ _ (h.live hbuf)
    rw [hfree]
    exact ⟨_, rfl⟩

theorem growBuffer_owned (h : OwnsBuffer st) (hfits : grownLen st.buf.ifconfLen ≤ intMax) :
    ∃ st', growBuffer st = .ok st' ∧ OwnsBuffer st' ∧ st'.buf.ifconfBuf.isSome ∧
      st'.buf.ifconfLen = grownLen st.buf.ifconfLen := by
  obtain ⟨heap, addr, hrealloc, hsize⟩ := @realloc_live _ IfFault.freed _ st.buf.ifconfBuf
    (grownLen st.buf.ifconfLen) fun _ => h.live
  refine ⟨⟨heap, some addr, grownLen st.buf.ifconfLen, hfits⟩, ?_, ?_, rfl, rfl⟩
  · rw [growBuffer, dif_pos hfits, hrealloc]
    rfl
  · intro a ha
    rw [← Option.some.inj ha]
    exact hsize

/-- The loop is about to make the `k`-th round. -/
structure AtRound (ioctl : Nat → Nat → IfconfAnswer) (buf : IfBuffer) (k : Nat) (s : IfLoop) : Prop where
  owned : OwnsBuffer s.st
  goesOn : s.ended = none
  asked : s.asked = k
  last : s.lastlen = lastAt ioctl buf k
  len : buf.lenAt k = if s.st.buf.ifconfBuf.isNone ∨ s.lastlen ≠ 0 then grownLen s.st.buf.ifconfLen
    else s.st.buf.ifconfLen

theorem atRound_start (ioctl : Nat → Nat → IfconfAnswer) (h : OwnsBuffer st) :
    AtRound ioctl st.buf 0 (.start st) where
  owned := h
  goesOn := rfl
  asked := rfl
  last := rfl
  len := by
    rw [IfBuffer.lenAt]
    refine if_congr ⟨.inl, ?_⟩ rfl rfl
    rintro (hnone | hlast)
    · exact hnone
    · exact absurd rfl hlast

/-- What a round works with once the buffer has its length. -/
structure Sized (buf : IfBuffer) (k : Nat) (st : IfState) : Prop where
  owned : OwnsBuffer st
  some : st.buf.ifconfBuf.isSome
  len : st.buf.ifconfLen = buf.lenAt k

section Rounds

variable {ioctl : Nat → Nat → IfconfAnswer} {buf : IfBuffer} {k : Nat} {s : IfLoop}

/-- The buffer is made ready if its length fits. -/
theorem readyBuffer_sized (hs : AtRound ioctl buf k s) (hfits : buf.lenAt k ≤ intMax) :
    ∃ st, readyBuffer s = .ok st ∧ Sized buf k st := by
  have hlen := hs.len
  rw [readyBuffer]
  split at hlen
  case isTrue hgrow =>
    rw [hlen] at hfits
    obtain ⟨st, hst, howned, hsome, hst'⟩ := growBuffer_owned hs.owned hfits
    exact ⟨st, by rw [if_pos hgrow, hst], howned, hsome, hst'.trans hlen.symm⟩
  case isFalse hkeep =>
    refine ⟨s.st, if_neg hkeep, hs.owned, ?_, hlen.symm⟩
    cases hbuf : s.st.buf.ifconfBuf with
    | none => exact absurd (.inl (by rw [hbuf]; rfl)) hkeep
    | some addr => rfl

/-- A round with a buffer that fits comes to its answer. -/
theorem ifconfRound_eq (hs : AtRound ioctl buf k s) (hfits : buf.lenAt k ≤ intMax) :
    ∃ st, Sized buf k st ∧ ifconfRound ioctl s = ifconfAnswer s st (answerAt ioctl buf k) := by
  obtain ⟨st, hready, hst⟩ := readyBuffer_sized hs hfits
  obtain ⟨addr, haddr⟩ := Option.isSome_iff_exists.mp hst.some
  have huse : useBuffer st = .ok () := by
    rw [useBuffer, haddr]
    exact use_live (hst.owned.live haddr)
  refine ⟨st, hst, ?_⟩
  rw [ifconfRound, hready]
  show (useBuffer st >>= fun _ => ifconfAnswer s st (ioctl s.asked st.buf.ifconfLen)) = _
  rw [huse, hs.asked, hst.len]
  rfl

/-- A round that needs a longer buffer than there can be. -/
theorem ifconfRound_overflow (hs : AtRound ioctl buf k s) (hlong : intMax < buf.lenAt k) :
    ifconfRound ioctl s = .error .overflow := by
  have hlen := hs.len
  split at hlen
  case isTrue hgrow =>
    have hover : ¬ grownLen s.st.buf.ifconfLen ≤ intMax := by omega
    rw [ifconfRound, readyBuffer, if_pos hgrow, growBuffer, dif_neg hover]
    rfl
  case isFalse hkeep =>
    have hfits := s.st.buf.fits
    omega

/-- After an answer with which the loop goes on it is at the next round. -/
theorem ifconfAnswer_goesOn (hs : AtRound ioctl buf k s) {st : IfState} (hst : Sized buf k st)
    (h : GoesOn (answerAt ioctl buf k) (buf.lenAt k) (lastAt ioctl buf k)) :
    ∃ s', ifconfAnswer s st (answerAt ioctl buf k) = .ok s' ∧ AtRound ioctl buf (k + 1) s' := by
  have hnext : ∀ len, (answerAt ioctl buf k).ifcLen (buf.lenAt k) = len → len ≠ 0 →
      AtRound ioctl buf (k + 1) ⟨st, len, s.asked + 1, none⟩ := by
    intro len hlen hne
    refine ⟨hst.owned, rfl, congrArg (· + 1) hs.asked, hlen.symm, ?_⟩
    rw [if_pos (.inr hne), hst.len]
    rfl
  -- `lastlen` is zero in the first round only, and then the buffer is not empty
  have hpos : lastAt ioctl buf k ≠ 0 → 0 < buf.lenAt k := by
    intro hlast
    cases k with
    | zero => exact absurd rfl hlast
    | succ k => exact Nat.lt_of_lt_of_le (by decide) (Nat.le_add_left _ (buf.lenAt k))
  cases hanswer : answerAt ioctl buf k with
  | filled ifcLen ifrName =>
    rw [hanswer] at h hnext
    obtain ⟨hfull, hother⟩ : buf.lenAt k ≤ ifcLen ∧ ifcLen ≠ lastAt ioctl buf k := h
    refine ⟨_, ?_, hnext ifcLen rfl ?_⟩
    · rw [ifconfAnswer, if_neg (by rw [hst.len]; omega), if_pos (by rw [hs.last]; exact hother)]
    · omega
  | failed errno =>
    rw [hanswer] at h hnext
    obtain ⟨rfl, hother⟩ : errno = einval ∧ lastAt ioctl buf k ≠ buf.lenAt k := h
    refine ⟨_, ?_, hnext _ rfl ?_⟩
    · have hretry : ¬ (einval ≠ einval ∨ s.lastlen = st.buf.ifconfLen) := by
        grind [hs.last, hst.len]
      rw [ifconfAnswer, if_neg hretry, hst.len]
      rfl
    · intro hzero
      have hlen : buf.lenAt k = 0 := hzero
      have h0 := hpos (by rw [← hlen]; exact hother)
      omega

/-- After a complete answer the loop ends, and the buffer is kept. -/
theorem ifconfAnswer_finishes (hs : AtRound ioctl buf k s) {st : IfState} (hst : Sized buf k st)
    {ifcLen : Nat} {ifrName : Nat → Text} (hanswer : answerAt ioctl buf k = .filled ifcLen ifrName)
    (h : ifcLen < buf.lenAt k ∨ ifcLen = lastAt ioctl buf k) :
    ifconfAnswer s st (answerAt ioctl buf k)
      = .ok ⟨st, s.lastlen, s.asked + 1, some (.got ifcLen ifrName)⟩ := by
  simp [hanswer, ifconfAnswer, hst.len, hs.last]
  omega

/-- After any other answer the buffer is freed, and the handle has its address. -/
theorem ifconfAnswer_fails (hs : AtRound ioctl buf k s) {st : IfState} (hst : Sized buf k st)
    (hgo : ¬ GoesOn (answerAt ioctl buf k) (buf.lenAt k) (lastAt ioctl buf k))
    (hfin : ¬ Finishes (answerAt ioctl buf k) (buf.lenAt k) (lastAt ioctl buf k)) :
    ∃ s' errno, ifconfAnswer s st (answerAt ioctl buf k) = .ok s' ∧ s'.ended = some (.status errno) ∧
      ¬ OwnsBuffer s'.st := by
  cases hanswer : answerAt ioctl buf k with
  | filled ifcLen ifrName =>
    rw [hanswer] at hgo hfin
    -- one of the two is always so
    exfalso
    by_cases hfull : buf.lenAt k ≤ ifcLen
    · exact hgo ⟨hfull, fun heq => hfin (.inr heq)⟩
    · exact hfin (.inl (by omega))
  | failed errno =>
    rw [hanswer] at hgo
    have hfail : errno ≠ einval ∨ s.lastlen = st.buf.ifconfLen := by
      rw [hs.last, hst.len]
      by_cases hinval : errno = einval
      · exact .inr (by_contra fun hother => hgo ⟨hinval, hother⟩)
      · exact .inl hinval
    obtain ⟨addr, haddr⟩ := Option.isSome_iff_exists.mp hst.some
    obtain ⟨heap, hfree, hdead⟩ := @free_live _ IfFault.freed _ _ (hst.owned.live haddr)
    refine ⟨⟨⟨heap, st.buf⟩, s.lastlen, s.asked + 1, some (.status errno)⟩, errno, ?_, rfl, ?_⟩
    · rw [ifconfAnswer, if_pos hfail, freeBuffer, haddr]
      show Except.map _ (Except.map _ (free IfFault.freed st.heap addr)) = _
      rw [hfree]
      rfl
    · intro howned
      exact hdead (live_of_size (howned addr haddr))

end Rounds

/-! ## All rounds -/

section Loop

variable {ioctl : Nat → Nat → IfconfAnswer} {buf : IfBuffer}

/-- **Rounds that come to a complete answer** leave the buffer to the handle.  By induction on the
    rounds up to that answer. -/
theorem ends_of_completes {j : Nat} (hfits : buf.lenAt j ≤ intMax) {ifcLen : Nat}
    {ifrName : Nat → Text} (hanswer : answerAt ioctl buf j = .filled ifcLen ifrName)
    (hfin : ifcLen < buf.lenAt j ∨ ifcLen = lastAt ioctl buf j) :
    ∀ (more : Nat) {k : Nat} {s : IfLoop}, k + more = j →
      (∀ i, k ≤ i → i < j → GoesOn (answerAt ioctl buf i) (buf.lenAt i) (lastAt ioctl buf i)) →
      AtRound ioctl buf k s →
      ∃ out, Ends IfLoop.live (ifconfRound ioctl) s out ∧ Sized buf j out.st ∧
        out.ended = some (.got ifcLen ifrName) := by
  intro more
  induction more with
  | zero =>
    rintro k s rfl _ hs
    obtain ⟨st, hst, hround⟩ := ifconfRound_eq hs hfits
    rw [ifconfAnswer_finishes hs hst hanswer hfin] at hround
    exact ⟨_, .step (by rw [IfLoop.live, hs.goesOn]; rfl) hround (.done rfl), hst, rfl⟩
  | succ more ih =>
    intro k s hj hgo hs
    obtain ⟨st, hst, hround⟩ :=
      ifconfRound_eq hs (Nat.le_trans (buf.lenAt_mono (by omega)) hfits)
    obtain ⟨s', hs', hat⟩ := ifconfAnswer_goesOn hs hst (hgo k (Nat.le_refl k) (by omega))
    obtain ⟨out, hends, hout⟩ := ih (by omega) (fun i hi => hgo i (by omega)) hat
    exact ⟨out, .step (by rw [IfLoop.live, hs.goesOn]; rfl) (hround.trans hs') hends, hout⟩

/-- **Rounds that end with an owned buffer** came to a complete answer. -/
theorem completes_of_ends {s out : IfLoop} (hends : Ends IfLoop.live (ifconfRound ioctl) s out)
    (hout : OwnsBuffer out.st) : ∀ {k : Nat}, AtRound ioctl buf k s → CompletesFrom ioctl buf k := by
  induction hends with
  | done hlive =>
    intro k hs
    rw [IfLoop.live, hs.goesOn] at hlive
    cases hlive
  | step hlive hround hrest ih =>
    intro k hs
    by_cases hfits : buf.lenAt k ≤ intMax
    · obtain ⟨st, hst, heq⟩ := ifconfRound_eq hs hfits
      by_cases hfin : Finishes (answerAt ioctl buf k) (buf.lenAt k) (lastAt ioctl buf k)
      · exact ⟨k, Nat.le_refl k, hfits, fun i hi hi' => absurd hi' (Nat.not_lt.mpr hi), hfin⟩
      · by_cases hgo : GoesOn (answerAt ioctl buf k) (buf.lenAt k) (lastAt ioctl buf k)
        · obtain ⟨s', hs', hat⟩ := ifconfAnswer_goesOn hs hst hgo
          rw [hround, hs'] at heq
          rw [← Except.ok.inj heq] at hat
          obtain ⟨j, hj, hfits', hgo', hfin'⟩ := ih hout hat
          refine ⟨j, by omega, hfits', fun i hi hi' => ?_, hfin'⟩
          rcases Nat.eq_or_lt_of_le hi with rfl | hlt
          · exact hgo
          · exact hgo' i hlt hi'
        · obtain ⟨s', errno, hs', hended, hlost⟩ := ifconfAnswer_fails hs hst hgo hfin
          rw [hround, hs'] at heq
          rw [Except.ok.inj heq] at hrest
          cases hrest with
          | done => exact absurd hout hlost
          | step hlive' => grind [IfLoop.live]
    · rw [ifconfRound_overflow hs (by omega)] at hround
      cases hround

end Loop

/-! ## The list that follows -/

theorem push_ok (name : Text) (h : list.data.length < list.size) :
    list.push name = .ok { list with data := list.data ++ [name] } :=
  if_pos h

/-- The entries go into the list, which has a place for every byte of them. -/
theorem copyEntries_ok (ifcLen : Nat) (ifrName : Nat → Text) :
    copyEntries ifcLen ifrName = .ok ⟨ifcLen,
      (range ((ifcLen + (sizeofIfreq - 1)) / sizeofIfreq)).map ifrName⟩ := by
  have hfold : ∀ n, n ≤ ifcLen →
      (range n).foldlM (fun list i => IfList.push list (ifrName i)) ⟨ifcLen, []⟩
        = .ok ⟨ifcLen, (range n).map ifrName⟩ := by
    intro n
    induction n with
    | zero => intro _; rfl
    | succ n ih =>
      intro hn
      have hroom : ((range n).map ifrName).length < ifcLen := by
        rw [length_map, length_range]
        exact hn
      rw [range_succ, foldlM_append, ih (by omega), map_append]
      show (IfList.push _ (ifrName n) >>= pure) = _
      rw [push_ok _ hroom]
      rfl
  apply hfold
  show (ifcLen + 39) / 40 ≤ ifcLen
  omega

/-- The names that are in a list after a device. -/
def withDevice (names : List Text) (line : Text) : List Text :=
  match deviceOf line with
  | none => names
  | some dev => if dev ∈ names then names else names ++ [dev]

theorem addDevice_ok (h : list.data.length ≤ list.size) (line : Text) :
    ∃ list', addDevice list line = .ok list' ∧ list'.data = withDevice list.data line ∧
      list'.data.length ≤ list'.size := by
  rw [addDevice, withDevice]
  cases deviceOf line with
  | none => exact ⟨list, rfl, rfl, h⟩
  | some dev =>
    by_cases hknown : dev ∈ list.data
    · refine ⟨list, ?_, (if_pos hknown).symm, h⟩
      exact if_pos (contains_iff_mem.mpr hknown)
    · have hnew : ¬ hasInterface list dev = true := by
        rw [hasInterface, contains_iff_mem]
        exact hknown
      have hdata : list.grow.data = list.data := by
        rw [IfList.grow]
        split <;> rfl
      have hroom : list.grow.data.length < list.grow.size := by
        rw [hdata, IfList.grow]
        split
        case isTrue =>
          show _ < list.size + 20
          omega
        case isFalse hless => exact Nat.lt_of_not_le hless
      refine ⟨_, (if_neg hnew).trans (push_ok dev hroom), ?_, ?_⟩
      · exact (congrArg (· ++ [dev]) hdata).trans (if_neg hknown).symm
      · rw [length_append]
        exact hroom

theorem addDevices_ok : ∀ (lines : List Text) {list : IfList},
    list.data.length ≤ list.size →
    ∃ list', lines.foldlM addDevice list = .ok list' ∧ list'.data = lines.foldl withDevice list.data
    := by
  intro lines
  induction lines with
  | nil => intro list _; exact ⟨list, rfl, rfl⟩
  | cons line lines ih =>
    intro list h
    obtain ⟨list', hline, hdata, hsize⟩ := addDevice_ok h line
    rw [foldlM_cons, hline, foldl_cons, ← hdata]
    exact ih hsize

/-- The lines that are read behind the header. -/
def devLines : Option Text → List Text
  | none => []
  | some text => (fgetsLines bufsiz text []).drop 2

theorem procNetInterfaceListGet_ok (h : list.data.length ≤ list.size) (netDev : Option
    Text) :
    ∃ list', procNetInterfaceListGet list netDev = .ok list' ∧
      list'.data = (devLines netDev).foldl withDevice list.data := by
  cases netDev with
  | none => exact ⟨list, rfl, rfl⟩
  | some text =>
    rw [procNetInterfaceListGet, devLines]
    by_cases hshort : (fgetsLines bufsiz text []).length < 2
    · grind [drop_eq_nil_of_le]
    · rw [if_neg hshort]
      exact addDevices_ok _ h

/-- The names in the entries of an answer. -/
def entryNames (ifcLen : Nat) (ifrName : Nat → Text) : List Text :=
  (range ((ifcLen + (sizeofIfreq - 1)) / sizeofIfreq)).map ifrName

/-- **What follows the rounds has no fault**: the names of the table, and the devices behind them. -/
theorem ifListOf_got (host : IfHost) (ifcLen : Nat) (ifrName : Nat → Text) :
    ∃ list, ifListOf host (some (.got ifcLen ifrName)) = .ok (.ok list) ∧
      list.data = (devLines host.netDev).foldl withDevice (entryNames ifcLen ifrName) := by
  have hroom : (entryNames ifcLen ifrName).length ≤ ifcLen := by
    rw [entryNames, length_map, length_range]
    show (ifcLen + 39) / 40 ≤ ifcLen
    omega
  obtain ⟨list, hproc, hdata⟩ :=
    @procNetInterfaceListGet_ok ⟨ifcLen, entryNames ifcLen ifrName⟩ hroom host.netDev
  have hcopy : copyEntries ifcLen ifrName = .ok ⟨ifcLen, entryNames ifcLen ifrName⟩ :=
    copyEntries_ok ifcLen ifrName
  refine ⟨list, ?_, hdata⟩
  exact bind_eq_ok_iff.mpr ⟨_, hcopy, bind_eq_ok_iff.mpr ⟨_, hproc, rfl⟩⟩

/-! ## Calls -/

/-- A call returns where its rounds end. -/
theorem returns_iff (hsocket : host.socket = none) {st' : IfState} :
    Returns host st st' r ↔ ∃ out, Ends IfLoop.live (ifconfRound host.ioctl) (.start st) out ∧
      ifListOf host out.ended = .ok r ∧ out.st = st' := by
  have hcall : ∀ rounds, sigarNetInterfaceListGet rounds host st = (do
      let s ← iterate IfLoop.live (ifconfRound host.ioctl) .rounds rounds (.start st)
      let list ← ifListOf host s.ended
      .ok (s.st, list)) := by
    intro rounds
    rw [sigarNetInterfaceListGet, hsocket]
  constructor
  · rintro ⟨rounds, h⟩
    rw [hcall] at h
    obtain ⟨out, hloop, h⟩ := bind_eq_ok_iff.mp h
    obtain ⟨list, hlist, h⟩ := bind_eq_ok_iff.mp h
    obtain ⟨hst, hr⟩ := Prod.mk.inj (Except.ok.inj h)
    exact ⟨out, exists_iterate_iff.mp ⟨rounds, hloop⟩, hr ▸ hlist, hst⟩
  · rintro ⟨out, hends, hlist, hst⟩
    obtain ⟨rounds, hloop⟩ := exists_iterate_iff.mpr hends
    refine ⟨rounds, ?_⟩
    rw [hcall]
    exact bind_eq_ok_iff.mpr ⟨out, hloop, bind_eq_ok_iff.mpr ⟨r, hlist, by rw [hst]⟩⟩

theorem returns_noSocket {errno : Status} (hsocket : host.socket = some errno) {st' : IfState} :
    Returns host st st' r ↔ st' = st ∧ r = .error errno := by
  have hcall : ∀ rounds, sigarNetInterfaceListGet rounds host st = .ok (st, .error errno) := by
    intro rounds
    rw [sigarNetInterfaceListGet, hsocket]
  constructor
  · rintro ⟨rounds, h⟩
    rw [hcall] at h
    obtain ⟨hst, hr⟩ := Prod.mk.inj (Except.ok.inj h)
    exact ⟨hst.symm, hr.symm⟩
  · rintro ⟨rfl, rfl⟩
    exact ⟨0, hcall 0⟩

/-- A call ends, and leaves the handle a buffer that `sigar_close` can free. -/
def KeepsBuffer (host : IfHost) (st st' : IfState) : Prop :=
  (∃ r, Returns host st st' r) ∧ OwnsBuffer st' ∧ ∃ closed, sigarClose st' = .ok closed

/-- **One call keeps the buffer exactly when it completes.** -/
theorem keepsBuffer_iff (hst : OwnsBuffer st) (host : IfHost) :
    (∃ st', KeepsBuffer host st st') ↔ Completes host st.buf := by
  cases hsocket : host.socket with
  | some errno =>
    constructor
    · intro _ hnone
      rw [hsocket] at hnone
      cases hnone
    · intro _
      exact ⟨st, ⟨_, (returns_noSocket hsocket).mpr ⟨rfl, rfl⟩⟩, hst, sigarClose_owned hst⟩
  | none =>
    constructor
    · rintro ⟨st', ⟨r, hreturns⟩, howned, -⟩ -
      obtain ⟨out, hends, -, rfl⟩ := (returns_iff hsocket).mp hreturns
      exact completes_of_ends hends howned (atRound_start host.ioctl hst)
    · intro hcomplete
      obtain ⟨j, -, hfits, hgo, hfin⟩ := hcomplete hsocket
      cases hanswer : answerAt host.ioctl st.buf j with
      | failed errno =>
        rw [hanswer] at hfin
        exact absurd hfin id
      | filled ifcLen ifrName =>
        rw [hanswer] at hfin
        obtain ⟨out, hends, hout, hended⟩ := ends_of_completes hfits hanswer hfin j
          (Nat.zero_add j) hgo (atRound_start host.ioctl hst)
        obtain ⟨list, hlist, -⟩ := ifListOf_got host ifcLen ifrName
        rw [← hended] at hlist
        exact ⟨out.st, ⟨_, (returns_iff hsocket).mpr ⟨out, hends, hlist, rfl⟩⟩, hout.owned,
          sigarClose_owned hout.owned⟩

/-! ## Sequences of calls -/

/-- Every call of a sequence keeps the buffer. -/
def AllKeep : IfState → List IfHost → Prop
  | _, [] => True
  | st, host :: hosts => ∃ st', KeepsBuffer host st st' ∧ AllKeep st' hosts

/-- Every call of a sequence completes, from the state that the calls before it leave. -/
def AllComplete : IfState → List IfHost → Prop
  | _, [] => True
  | st, host :: hosts =>
    Completes host st.buf ∧ ∀ st' r, Returns host st st' r → AllComplete st' hosts

theorem Returns.unique {st' st'' : IfState} {r' : Except Status IfList} (h : Returns host st st' r)
    (h' : Returns host st st'' r') : st'' = st' ∧ r' = r := by
  cases hsocket : host.socket with
  | some errno =>
    obtain ⟨rfl, rfl⟩ := (returns_noSocket hsocket).mp h
    exact (returns_noSocket hsocket).mp h'
  | none =>
    obtain ⟨out, hends, hlist, rfl⟩ := (returns_iff hsocket).mp h
    obtain ⟨out', hends', hlist', rfl⟩ := (returns_iff hsocket).mp h'
    rw [hends.unique hends'] at hlist ⊢
    rw [hlist] at hlist'
    exact ⟨rfl, (Except.ok.inj hlist').symm⟩

/-- **The buffer belongs to the handle** after every call of a sequence exactly when every call
    completes.  By induction on the calls. -/
theorem allKeep_iff : ∀ (hosts : List IfHost) {st : IfState}, OwnsBuffer st →
    (AllKeep st hosts ↔ AllComplete st hosts) := by
  intro hosts
  induction hosts with
  | nil => intro st _; exact Iff.rfl
  | cons host hosts ih =>
    intro st hst
    constructor
    · rintro ⟨st', hkeeps, hrest⟩
      refine ⟨(keepsBuffer_iff hst host).mp ⟨st', hkeeps⟩, fun st'' r hreturns => ?_⟩
      obtain ⟨⟨r', hreturns'⟩, howned, -⟩ := hkeeps
      rw [(hreturns'.unique hreturns).1]
      exact (ih howned).mp hrest
    · rintro ⟨hcomplete, hrest⟩
      obtain ⟨st', hkeeps⟩ := (keepsBuffer_iff hst host).mpr hcomplete
      have ⟨⟨r, hreturns⟩, howned, _⟩ := hkeeps
      exact ⟨st', hkeeps, (ih howned).mpr (hrest st' r hreturns)⟩

/-- **The calls on a new handle.** -/
theorem interfaceLists_keep_iff (hosts : List IfHost) :
    AllKeep .opened hosts ↔ AllComplete .opened hosts :=
  allKeep_iff hosts opened_owned

/-- The kernel refuses the table: `EPERM`. -/
def refused : IfHost := ⟨none, fun _ _ => .failed 1, none⟩

/-- A call that is refused leaves the address of a buffer that is gone. -/
theorem refused_leaves_freed : ¬ AllKeep .opened [refused] := by
  rintro ⟨st', hkeeps, -⟩
  obtain ⟨j, -, -, -, hfin⟩ := (keepsBuffer_iff opened_owned refused).mp ⟨st', hkeeps⟩ rfl
  exact hfin

/-- The loop goes on for as long as the kernel answers `EINVAL`, until the length overflows. -/
theorem einval_goes_on (hst : OwnsBuffer st) (hsocket : host.socket = none)
    (heinval : ∀ k len, host.ioctl k len = .failed einval) : ¬ ∃ st', KeepsBuffer host st st' := by
  rw [keepsBuffer_iff hst]
  intro hcompletes
  obtain ⟨j, -, -, -, hfin⟩ := hcompletes hsocket
  rw [answerAt, heinval] at hfin
  exact hfin

end Sigar.Net
