/-
  What is in the list of the network interfaces.

  The kernel answers with as many whole entries of its table as fit.  The buffer of a handle is a
  multiple of twenty entries (`Grown`), so an answer that is shorter than the buffer has the whole
  table, and one that fills it makes the loop go on with twenty entries more.  That ends unless the
  length of the buffer stops being an `int`, with 53687080 interfaces.

  The devices of /proc/net/dev are merged behind the table.  They are read in PIECES of 8191 bytes:
  a longer line is taken for several.
-/
import Sigar.Net.InterfaceBuffer

namespace Sigar.Net

open CString Blocks Loop Fallible List

variable {st : IfState} {buf : IfBuffer} {table : List Text}

/-! ## The kernel's table -/

/-- `SIOCGIFCONF` with as many whole entries as fit. -/
def kernelAnswer (table : List Text) (len : Nat) : IfconfAnswer :=
  .filled (sizeofIfreq * min table.length (len / sizeofIfreq)) fun i => table.getD i []

/-- A host with a table that does not change, and with /proc/net/dev. -/
def kernelHost (table : List Text) (text : Text) : IfHost :=
  ⟨none, fun _ => kernelAnswer table, some text⟩

/-- The handle as calls leave it: without a buffer, or with one of a multiple of twenty entries. -/
structure Grown (st : IfState) : Prop where
  owned : OwnsBuffer st
  none : st.buf.ifconfBuf = none → st.buf.ifconfLen = 0
  some : ∀ addr, st.buf.ifconfBuf = some addr → ∃ n, st.buf.ifconfLen = 800 * (n + 1)

/-- The buffers of the rounds: the first one, and twenty entries more in each. -/
theorem Grown.lenAt (h : Grown st) : ∃ first, ∀ k, st.buf.lenAt k = 800 * (first + 1 + k) := by
  have hfirst : ∃ first, st.buf.lenAt 0 = 800 * (first + 1) := by
    rw [IfBuffer.lenAt]
    cases hbuf : st.buf.ifconfBuf with
    | none =>
      refine ⟨0, ?_⟩
      rw [h.none hbuf]
      rfl
    | some addr => exact h.some addr hbuf
  obtain ⟨first, hfirst⟩ := hfirst
  refine ⟨first, fun k => ?_⟩
  induction k with
  | zero => exact hfirst
  | succ k ih =>
    rw [IfBuffer.lenAt, ih]
    show _ + 800 = _
    omega

/-- The first round needs no longer buffer than there can be. -/
theorem Grown.lenAt_zero_le (h : Grown st) : st.buf.lenAt 0 ≤ intMax := by
  rw [IfBuffer.lenAt]
  split
  case isTrue hnone =>
    rw [h.none (Option.isNone_iff_eq_none.mp hnone)]
    decide
  case isFalse => exact st.buf.fits

theorem grown_opened : Grown .opened := ⟨opened_owned, fun _ => rfl, fun _ h => by cases h⟩

theorem Sized.grown {j first : Nat} (h : Sized buf j st)
    (hlen : buf.lenAt j = 800 * (first + 1 + j)) : Grown st where
  owned := h.owned
  none := by
    intro hnone
    have hsome := h.some
    rw [hnone] at hsome
    cases hsome
  some := fun _ _ => ⟨first + j, by rw [h.len, hlen]; omega⟩

section Table

variable {st : IfState} {first : Nat} (hlen : ∀ k, st.buf.lenAt k = 800 * (first + 1 + k))
  (table : List Text) (k : Nat)

include hlen

/-- `lastlen` is less than the length of the buffer. -/
theorem kernel_lastAt_lt : lastAt (fun _ => kernelAnswer table) st.buf k < st.buf.lenAt k := by
  cases k with
  | zero =>
    rw [hlen]
    show 0 < _
    omega
  | succ k =>
    show 40 * min table.length (st.buf.lenAt k / 40) < _
    rw [hlen, hlen]
    omega

/-- The loop goes on while the table has as many entries as the buffer. -/
theorem kernel_goesOn (h : 20 * (first + 1 + k) ≤ table.length) :
    GoesOn (answerAt (fun _ => kernelAnswer table) st.buf k) (st.buf.lenAt k)
      (lastAt (fun _ => kernelAnswer table) st.buf k) := by
  have hlast := kernel_lastAt_lt hlen table k
  show st.buf.lenAt k ≤ 40 * min table.length (st.buf.lenAt k / 40) ∧
    40 * min table.length (st.buf.lenAt k / 40) ≠ _
  rw [hlen] at hlast ⊢
  omega

/-- The answer is complete when the buffer has more. -/
theorem kernel_answer (h : table.length < 20 * (first + 1 + k)) :
    answerAt (fun _ => kernelAnswer table) st.buf k
      = .filled (40 * table.length) (fun i => table.getD i []) ∧
    40 * table.length < st.buf.lenAt k := by
  rw [answerAt, kernelAnswer, hlen]
  have hmin : min table.length (800 * (first + 1 + k) / sizeofIfreq) = table.length := by
    show min table.length (800 * (first + 1 + k) / 40) = _
    omega
  rw [hmin]
  exact ⟨rfl, by omega⟩

end Table

/-- A loop whose rounds all go on does not end. -/
theorem not_ends_of_goesOn {ioctl : Nat → Nat → IfconfAnswer}
    (hgo : ∀ k, buf.lenAt k ≤ intMax → GoesOn (answerAt ioctl buf k) (buf.lenAt k) (lastAt ioctl buf k))
    {s out : IfLoop} (hends : Ends IfLoop.live (ifconfRound ioctl) s out) :
    ∀ {k : Nat}, ¬ AtRound ioctl buf k s := by
  induction hends with
  | done hlive =>
    intro k hs
    rw [IfLoop.live, hs.goesOn] at hlive
    cases hlive
  | step hlive hround _ ih =>
    intro k hs
    by_cases hfits : buf.lenAt k ≤ intMax
    · obtain ⟨st, hst, heq⟩ := ifconfRound_eq hs hfits
      obtain ⟨s', hs', hat⟩ := ifconfAnswer_goesOn hs hst (hgo k hfits)
      rw [hround, hs'] at heq
      rw [← Except.ok.inj heq] at hat
      exact ih hat
    · rw [ifconfRound_overflow hs (by omega)] at hround
      cases hround

/-! ## The merge -/

/-- A line adds nothing that is known, or a device that is not. -/
theorem withDevice_cases (names : List Text) (line : Text) :
    (withDevice names line = names ∧ ∀ x, deviceOf line = some x → x ∈ names) ∨
    ∃ dev, deviceOf line = some dev ∧ dev ∉ names ∧ withDevice names line = names ++ [dev] := by
  grind [withDevice]

theorem mem_withDevice {names : List Text} {line x : Text} :
    x ∈ withDevice names line ↔ x ∈ names ∨ deviceOf line = some x := by
  rcases withDevice_cases names line with ⟨heq, hknown⟩ | ⟨dev, hdev, -, heq⟩
  · grind
  · rw [heq, hdev, mem_append, mem_singleton, Option.some.injEq, @eq_comm _ x dev]

theorem nodup_withDevice {names : List Text} (h : names.Nodup) (line : Text) :
    (withDevice names line).Nodup := by
  rcases withDevice_cases names line with ⟨heq, -⟩ | ⟨dev, -, hnew, heq⟩
  · rw [heq]
    exact h
  · grind

theorem prefix_withDevice (names : List Text) (line : Text) :
    names <+: withDevice names line := by
  rcases withDevice_cases names line with ⟨heq, -⟩ | ⟨dev, -, -, heq⟩
  · exact ⟨[], (append_nil names).trans heq.symm⟩
  · exact ⟨[dev], heq.symm⟩

/-- A device that one of the lines names. -/
def Names (lines : List Text) (x : Text) : Prop := ∃ line ∈ lines, deviceOf line = some x

theorem names_cons {line : Text} {lines : List Text} {x : Text} :
    Names (line :: lines) x ↔ deviceOf line = some x ∨ Names lines x := by
  simp [Names]

/-- **The merge**: the names that were there stay in front, and every device is there once. -/
theorem withDevices_spec : ∀ (lines : List Text) {names : List Text}, names.Nodup →
    names <+: lines.foldl withDevice names ∧ (lines.foldl withDevice names).Nodup ∧
    ∀ x, x ∈ lines.foldl withDevice names ↔ x ∈ names ∨ Names lines x := by
  intro lines
  induction lines with
  | nil => simp [Names]
  | cons line lines ih =>
    intro names h
    obtain ⟨hfront, hnodup, hmem⟩ := ih (nodup_withDevice h line)
    refine ⟨(prefix_withDevice names line).trans hfront, hnodup, fun x => ?_⟩
    rw [foldl_cons, hmem, mem_withDevice, names_cons, or_assoc]

/-! ## The list -/

/-- Every interface of the table and every device of /proc/net/dev once, the table first. -/
structure ListsAll (table : List Text) (text : Text) (data : List Text) : Prop where
  front : table <+: data
  nodup : data.Nodup
  mem : ∀ x, x ∈ data ↔ x ∈ table ∨ Names ((textLines text []).drop 2) x

/-- The pieces that are read of /proc/net/dev name the devices that its lines name, up to those of
    the table. -/
def SameDevices (table : List Text) (text : Text) : Prop :=
  ∀ x, x ∉ table →
    (Names ((fgetsLines bufsiz text []).drop 2) x ↔ Names ((textLines text []).drop 2) x)

theorem sameDevices_of_short (table : List Text) {text : Text}
    (h : ∀ line ∈ textLines text [], line.length < bufsiz) : SameDevices table text := by
  intro x _
  rw [fgetsLines_eq_textLines h]

theorem entryNames_table (table : List Text) :
    entryNames (40 * table.length) (fun i => table.getD i []) = table := by
  have hcount : (40 * table.length + (sizeofIfreq - 1)) / sizeofIfreq = table.length := by
    show (40 * table.length + 39) / 40 = _
    omega
  rw [entryNames, hcount]
  apply ext_getElem
  · rw [length_map, length_range]
  · grind

/-- **The rounds end exactly when the buffer can hold the table**, and then the list is the merge. -/
theorem kernel_returns (hst : Grown st) (text : Text) (hfew : table.length < 53687080) :
    ∃ st' list, Returns (kernelHost table text) st st' (.ok list) ∧ Grown st' ∧
      list.data = ((fgetsLines bufsiz text []).drop 2).foldl withDevice table := by
  obtain ⟨first, hlen⟩ := hst.lenAt
  -- the first round whose buffer is larger than the table
  let j := table.length / 20 + 1 - (first + 1)
  have hmore : table.length < 20 * (first + 1 + j) := by omega
  have hfits : st.buf.lenAt j ≤ intMax := by
    by_cases hj : j = 0
    · rw [hj]
      exact hst.lenAt_zero_le
    · rw [hlen]
      show _ ≤ 2147483647
      omega
  obtain ⟨hanswer, hless⟩ := kernel_answer hlen table j hmore
  have hgo : ∀ i, 0 ≤ i → i < j → GoesOn (answerAt (fun _ => kernelAnswer table) st.buf i)
      (st.buf.lenAt i) (lastAt (fun _ => kernelAnswer table) st.buf i) :=
    fun i _ hi => kernel_goesOn hlen table i (by omega)
  obtain ⟨out, hends, hout, hended⟩ := ends_of_completes hfits hanswer (.inl hless) j
    (Nat.zero_add j) hgo (atRound_start _ hst.owned)
  obtain ⟨list, hlist, hdata⟩ := ifListOf_got (kernelHost table text) (40 * table.length)
    (fun i => table.getD i [])
  rw [entryNames_table] at hdata
  rw [← hended] at hlist
  exact ⟨out.st, list, (returns_iff rfl).mpr ⟨out, hends, hlist, rfl⟩, hout.grown (hlen j), hdata⟩

theorem kernel_not_returns (hst : Grown st) {text : Text} (hmany : 53687080 ≤ table.length)
    (st' : IfState) (r : Except Status IfList) : ¬ Returns (kernelHost table text) st st' r := by
  intro hreturns
  obtain ⟨first, hlen⟩ := hst.lenAt
  obtain ⟨out, hends, -, -⟩ := (returns_iff rfl).mp hreturns
  refine not_ends_of_goesOn (fun k hfits => kernel_goesOn hlen table k ?_) hends
    (atRound_start _ hst.owned)
  rw [hlen] at hfits
  have hint : 800 * (first + 1 + k) ≤ 2147483647 := hfits
  omega

/-- What a call that returns has put into the list. -/
theorem kernel_data {st' : IfState} (hst : Grown st) {text : Text}
    (hfew : table.length < 53687080) {list : IfList}
    (hreturns : Returns (kernelHost table text) st st' (.ok list)) :
    list.data = ((fgetsLines bufsiz text []).drop 2).foldl withDevice table := by
  obtain ⟨st'', list', hreturns', -, hdata⟩ := kernel_returns hst text hfew
  rw [← hdata, Except.ok.inj (hreturns'.unique hreturns).2]

/-- **The list of the interfaces** is complete exactly when the buffer can hold the table and no
    device is lost or made up in the lines of /proc/net/dev that are read in pieces. -/
theorem interfaceList_lists_iff {st : IfState} (hst : Grown st) {table : List Text}
    (hnodup : table.Nodup) (text : Text) :
    (∃ st' list, Returns (kernelHost table text) st st' (.ok list) ∧ ListsAll table text list.data) ↔
      table.length < 53687080 ∧ SameDevices table text := by
  constructor
  · rintro ⟨st', list, hreturns, hlists⟩
    have hfew : table.length < 53687080 := by
      by_contra hmany
      exact kernel_not_returns hst (by omega) st' _ hreturns
    refine ⟨hfew, fun x hx => ?_⟩
    have hmem := hlists.mem x
    rw [kernel_data hst hfew hreturns, (withDevices_spec _ hnodup).2.2 x] at hmem
    exact ⟨fun h => (hmem.mp (.inr h)).resolve_left hx, fun h => (hmem.mpr (.inr h)).resolve_left hx⟩
  · rintro ⟨hfew, hsame⟩
    obtain ⟨st', list, hreturns, -, hdata⟩ := kernel_returns hst text hfew
    obtain ⟨hfront, hdistinct, hmem⟩ := withDevices_spec ((fgetsLines bufsiz text []).drop 2) hnodup
    refine ⟨st', list, hreturns, ?_⟩
    rw [hdata]
    refine ⟨hfront, hdistinct, fun x => (hmem x).trans ?_⟩
    by_cases hx : x ∈ table
    · exact ⟨fun _ => .inl hx, fun _ => .inl hx⟩
    · rw [hsame x hx]

/-- A small table, a device that is not in it, and one that is. -/
def smallDev : Text := "Inter-|\n face |\n    lo: 1\n  tun0: 2\n".toList

theorem interfaceList_lists_iff_example :
    Grown .opened ∧ ["lo".toList].Nodup ∧
    ∃ st' list, Returns (kernelHost ["lo".toList] smallDev) .opened st' (.ok list) ∧
      ListsAll ["lo".toList] smallDev list.data :=
  ⟨grown_opened, by decide, (interfaceList_lists_iff grown_opened (by decide) smallDev).mpr
    ⟨by decide, sameDevices_of_short _ (by decide)⟩⟩

/-- The name before the first colon. -/
theorem deviceOf_name {name : Text} (rest : Text) (hname : IsToken name)
    (hcolon : ':' ∉ name) : deviceOf (name ++ ':' :: rest) = some name := by
  have hstart : (name ++ ':' :: rest).dropWhile isSpace = name ++ ':' :: rest := by
    cases name with
    | nil => rfl
    | cons c name =>
      rw [cons_append, dropWhile_cons_of_neg]
      rw [(hname c mem_cons_self).2]
      exact Bool.false_ne_true
  have hnul : nul ∉ name := fun h => (hname nul h).1 rfl
  rw [deviceOf, hstart, strchr_first rest hcolon hnul]
  show some ((name ++ ':' :: rest).take ((name ++ ':' :: rest).length - (':' :: rest).length)) = _
  rw [length_append, Nat.add_sub_cancel, take_left']
  rfl

/-- Two lines of header, and one of a device whose counters end with `x:`. -/
def devWith (counters : Text) : Text :=
  ['a'] ++ '\n' :: (['b'] ++ '\n' :: (counters ++ ['x', ':'] ++ '\n' :: []))

section Long

variable {counters : Text} (hline : '\n' ∉ counters)

include hline

theorem textLines_devWith :
    (textLines (devWith counters) []).drop 2 = [counters ++ ['x', ':'] ++ ['\n']] := by
  have hall : '\n' ∉ counters ++ ['x', ':'] := by simp [mem_append, hline]
  rw [devWith, textLines_line (by decide), textLines_line (by decide), textLines_line hall]
  rfl

/-- What does not fit into the array is read as a line of its own. -/
theorem fgetsLines_devWith (hlen : counters.length = 8191) :
    (fgetsLines bufsiz (devWith counters) []).drop 2 = [counters, ['x', ':', '\n']] := by
  have hne : counters ≠ [] := by
    rintro rfl
    cases hlen
  have hfull := @fgetsLines_full bufsiz (['x', ':'] ++ '\n' :: []) counters [] hne hline
    (by rw [hlen]; rfl)
  rw [devWith, fgetsLines_line (by decide) (by decide), fgetsLines_line (by decide) (by decide),
    append_assoc counters, hfull]
  rfl

end Long

/-- So many blanks that the array is full. -/
def fullPiece : Text := "eth0:".toList ++ replicate 8186 ' '

theorem length_fullPiece : fullPiece.length = 8191 := by
  rw [fullPiece, length_append, length_replicate]
  rfl

theorem newline_notMem_fullPiece : '\n' ∉ fullPiece := by
  intro h
  rcases mem_append.mp h with h | h
  · exact absurd h (by decide)
  · exact newline_notMem_blanks 8186 h

theorem deviceOf_fullPiece (rest : Text) :
    deviceOf (fullPiece ++ rest) = some "eth0".toList := by
  rw [fullPiece, append_assoc]
  exact @deviceOf_name "eth0".toList _ (by decide) (by decide)

/-- A device is listed that /proc/net/dev does not name: the rest of a long line. -/
theorem longLine_lists_rest :
    ¬ ∃ st' list, Returns (kernelHost [] (devWith fullPiece)) .opened st' (.ok list) ∧
      ListsAll [] (devWith fullPiece) list.data := by
  rintro ⟨st', list, hreturns, hlists⟩
  have hmem := hlists.mem ['x']
  rw [kernel_data grown_opened (by decide) hreturns,
    fgetsLines_devWith newline_notMem_fullPiece length_fullPiece,
    (withDevices_spec _ nodup_nil).2.2, textLines_devWith newline_notMem_fullPiece] at hmem
  -- the second piece names `x`, and the line does not
  have hpiece : Names [fullPiece, ['x', ':', '\n']] ['x'] :=
    ⟨_, mem_cons_of_mem _ (mem_singleton_self _), by decide⟩
  rcases hmem.mp (.inr hpiece) with h | ⟨line, hline, hdev⟩
  · cases h
  · rw [mem_singleton.mp hline, append_assoc, deviceOf_fullPiece] at hdev
    exact absurd hdev (by decide)

end Sigar.Net
