/-
  The part of the C library that parses text.

  A `char *` is the list of the bytes from where it points to the end of its buffer; past the end
  the buffer reads as NUL.  A byte is the `Char` of its code.  Functions that search a string stop
  at the first NUL, as the C ones do, so a buffer with a NUL inside it is a shorter string.
  The locale is "C" and `unsigned long` has 64 bits.
-/
import Mathlib.Data.List.Basic

namespace CString

open List

/-- Bytes of memory or of a file, as characters.  A string ends in front of the first NUL. -/
abbrev Text := List Char

/-- The byte NUL. -/
def nul : Char := '\x00'

/-- `*p`. -/
def deref (p : Text) : Char := p.headD nul

/-- `isspace`. -/
def isSpace (c : Char) : Bool := c == ' ' || (9 ≤ c.toNat && c.toNat ≤ 13)

/-- `strchr`: the string from the first `c` on. -/
def strchr : Text → Char → Option Text
  | [], _ => none
  | x :: xs, c =>
    if x = c then some (x :: xs)
    else if x = nul then none
    else strchr xs c

/-- `strrchr`: the string from the last `c` on. -/
def strrchr : Text → Char → Option Text
  | [], _ => none
  | x :: xs, c =>
    if x = nul then none
    else match strrchr xs c with
      | some q => some q
      | none => if x = c then some (x :: xs) else none

/-- `strstr`: the string from the first occurrence of `needle` on. -/
def strstr : Text → Text → Option Text
  | [], needle => if needle = [] then some [] else none
  | x :: xs, needle =>
    if needle.isPrefixOf (x :: xs) then some (x :: xs)
    else if x = nul then none
    else strstr xs needle

/-- `strlen`. -/
def strlen (p : Text) : Nat := (p.takeWhile (· ≠ nul)).length

/-! ## Numbers -/

/-- What `strtoull` gives back: the number, `*endptr`, and whether it set `errno` to `ERANGE`. -/
structure Strto where
  value : UInt64
  rest : Text
  erange : Bool
  deriving DecidableEq

/-- The number that a string of decimal digits denotes. -/
def digitsValue (digits : Text) : Nat :=
  digits.foldl (fun n c => 10 * n + (c.toNat - '0'.toNat)) 0

/-- The optional sign of a number: whether it is a minus, and what follows. -/
def takeSign : Text → Bool × Text
  | '-' :: rest => (true, rest)
  | '+' :: rest => (false, rest)
  | p => (false, p)

/-- `strtoull(p, &rest, 10)`, and `strtoul` where `long` has 64 bits.  A minus sign negates the
    number modulo `2^64`; with no digits nothing is consumed. -/
def strtoull (p : Text) : Strto :=
  let signed := takeSign (p.dropWhile isSpace)
  let digits := signed.2.takeWhile Char.isDigit
  let rest := signed.2.dropWhile Char.isDigit
  let n := digitsValue digits
  if digits = [] then ⟨0, p, false⟩
  else if 18446744073709551616 ≤ n then ⟨18446744073709551615, rest, true⟩
  else ⟨if signed.1 then - UInt64.ofNat n else UInt64.ofNat n, rest, false⟩

example : strtoull "-1".toList = ⟨18446744073709551615, [], false⟩ := by decide

/-- The value of a hexadecimal digit. -/
def hexDigit (c : Char) : Option Nat :=
  if c.isDigit then some (c.toNat - '0'.toNat)
  else if 'a' ≤ c ∧ c ≤ 'f' then some (c.toNat - 'a'.toNat + 10)
  else if 'A' ≤ c ∧ c ≤ 'F' then some (c.toNat - 'A'.toNat + 10)
  else none

/-- The number that a string of hexadecimal digits denotes. -/
def hexDigitsValue (digits : Text) : Nat :=
  digits.foldl (fun n c => 16 * n + (hexDigit c).getD 0) 0

/-- The `0x` before a hexadecimal digit, skipped. -/
def skipHexMark : Text → Text
  | '0' :: x :: d :: rest =>
    if (x = 'x' ∨ x = 'X') ∧ (hexDigit d).isSome then d :: rest else '0' :: x :: d :: rest
  | p => p

/-- `strtoul(p, &rest, 16)`. -/
def strtoulHex (p : Text) : Strto :=
  let signed := takeSign (p.dropWhile isSpace)
  let body := skipHexMark signed.2
  let digits := body.takeWhile fun c => (hexDigit c).isSome
  let rest := body.dropWhile fun c => (hexDigit c).isSome
  let n := hexDigitsValue digits
  if digits = [] then ⟨0, p, false⟩
  else if 18446744073709551616 ≤ n then ⟨18446744073709551615, rest, true⟩
  else ⟨if signed.1 then - UInt64.ofNat n else UInt64.ofNat n, rest, false⟩

/-- The value of a run of octal digits. -/
def octDigitsValue (digits : Text) : Nat :=
  digits.foldl (fun n c => 8 * n + (c.toNat - '0'.toNat)) 0

/-- `strtoull(p, &rest, 0)`: a `0x` before a hexadecimal digit or a leading `0` choose the base. -/
def strtoull0 (p : Text) : Strto :=
  let signed := takeSign (p.dropWhile isSpace)
  if skipHexMark signed.2 ≠ signed.2 then strtoulHex p
  else if deref signed.2 = '0' then
    let digits := signed.2.takeWhile fun c => c.isDigit && c.toNat < '8'.toNat
    let rest := signed.2.dropWhile fun c => c.isDigit && c.toNat < '8'.toNat
    let n := octDigitsValue digits
    if 18446744073709551616 ≤ n then ⟨18446744073709551615, rest, true⟩
    else ⟨if signed.1 then - UInt64.ofNat n else UInt64.ofNat n, rest, false⟩
  else strtoull p

example : strtoull0 " 0x1F kB".toList = ⟨31, " kB".toList, false⟩ := by decide

/-- What `strtol` gives back. -/
structure Strtol where
  value : Int
  rest : Text
  erange : Bool
  deriving DecidableEq

/-- `strtol(p, &rest, 10)`: out of range the value is the nearest `long`. -/
def strtol (p : Text) : Strtol :=
  let signed := takeSign (p.dropWhile isSpace)
  let digits := signed.2.takeWhile Char.isDigit
  let rest := signed.2.dropWhile Char.isDigit
  let n : Int := if signed.1 then - (digitsValue digits : Int) else digitsValue digits
  if digits = [] then ⟨0, p, false⟩
  else if 9223372036854775807 < n then ⟨9223372036854775807, rest, true⟩
  else if n < -9223372036854775808 then ⟨-9223372036854775808, rest, true⟩
  else ⟨n, rest, false⟩

/-- `atoi`: what `strtol` returns, as an `int`. -/
def atoi (p : Text) : Int32 := Int32.ofInt (strtol p).value

/-! ## Lines of a file -/

/-- What successive calls of `fgets` put into an array of `size` bytes; `taken` is the part of the
    current line that is already read, last byte first. -/
def fgetsLines (size : Nat) : Text → Text → List Text
  | [], [] => []
  | [], taken => [taken.reverse]
  | c :: rest, taken =>
    if c = '\n' ∨ size ≤ taken.length + 2 then (c :: taken).reverse :: fgetsLines size rest []
    else fgetsLines size rest (c :: taken)

example : fgetsLines 4 "ab\ncdef".toList [] = ["ab\n".toList, "cde".toList, "f".toList] := by decide

/-- An array after `fgets` has written a line and its NUL at the start. -/
def overwrite (buffer line : Text) : Text := line ++ nul :: buffer.drop (line.length + 1)

/-! ## Strings

  From here on a string is the list of its characters, without the NUL that ends it. -/

/-- `tolower`. -/
def tolower (c : Char) : Char := c.toLower

/-- `strcmp`: how two strings compare as sequences of unsigned bytes. -/
def strcmp : Text → Text → Ordering
  | [], [] => .eq
  | [], _ :: _ => .lt
  | _ :: _, [] => .gt
  | a :: as, b :: bs => if a = b then strcmp as bs else compare a.toNat b.toNat

/-- `strcasecmp`. -/
def strcasecmp (s1 s2 : Text) : Ordering := strcmp (s1.map tolower) (s2.map tolower)

/-- `strncmp(s1, s2, n) == 0`. -/
def strnEq (s1 s2 : Text) (n : Nat) : Bool := s1.take n == s2.take n

/-- `hash = 31 * hash + *s++` in an `int`, which wraps around; a `char` has a sign. -/
def hash31 (s : Text) : Int32 :=
  s.foldl (fun hash c => 31 * hash + (UInt8.ofNat c.toNat).toInt8.toInt32) 0

example : hash31 "Aa".toList = hash31 "BB".toList := by decide

/-- Cutting a string in two by writing a NUL over its first `c`. -/
def cut (c : Char) : Text → Option (Text × Text)
  | [] => none
  | x :: xs =>
    if x = c then some ([], xs)
    else match cut c xs with
      | none => none
      | some (before, after) => some (x :: before, after)

theorem cut_append {c : Char} : ∀ {before : Text} (after : Text), c ∉ before →
    cut c (before ++ c :: after) = some (before, after) := by
  intro before
  induction before with
  | nil =>
    intro after _
    show (if c = c then _ else _) = _
    rw [if_pos rfl]
  | cons x xs ih =>
    intro after hc
    have hx : x ≠ c := fun h => hc (h ▸ mem_cons_self)
    have hxs : c ∉ xs := fun h => hc (mem_cons_of_mem x h)
    rw [cons_append, cut, if_neg hx, ih after hxs]

theorem cut_eq_none {c : Char} : ∀ {s : Text}, c ∉ s → cut c s = none := by
  intro s
  induction s with
  | nil => intro _; rfl
  | cons x xs ih =>
    intro hc
    have hx : x ≠ c := fun h => hc (h ▸ mem_cons_self)
    have hxs : c ∉ xs := fun h => hc (mem_cons_of_mem x h)
    rw [cut, if_neg hx, ih hxs]

/-! ## Scanning -/

theorem isSpace_of_le {c : Char} (h : 33 ≤ c.toNat) : isSpace c = false := by
  have hblank : c ≠ ' ' := by
    rintro rfl
    exact absurd h (by decide)
  simp only [isSpace, beq_eq_false_iff_ne.mpr hblank, Bool.false_or, Bool.and_eq_false_iff,
    decide_eq_false_iff_not]
  omega

/-- Neither blanks nor NULs. -/
def IsToken (token : Text) : Prop := ∀ c ∈ token, c ≠ nul ∧ isSpace c = false

instance (token : Text) : Decidable (IsToken token) :=
  List.decidableBAll (fun c => c ≠ nul ∧ isSpace c = false) token

theorem isToken_of_le {token : Text} (h : ∀ c ∈ token, 33 ≤ c.toNat) : IsToken token := by
  intro c hc
  refine ⟨?_, isSpace_of_le (h c hc)⟩
  rintro rfl
  exact absurd (h _ hc) (by decide)

/-- A scan ends where the text goes on with something else. -/
theorem takeWhile_stop {p : Char → Bool} {run rest : Text} (hrun : ∀ c ∈ run, p c = true)
    (hstop : p (deref rest) = false) : (run ++ rest).takeWhile p = run := by
  rw [takeWhile_append_of_pos hrun]
  cases rest with
  | nil => exact append_nil run
  | cons c rest =>
    rw [takeWhile_cons_of_neg (by simp [show p c = false from hstop]), append_nil]

@[inherit_doc takeWhile_stop] theorem dropWhile_stop {p : Char → Bool} {run rest : Text}
    (hrun : ∀ c ∈ run, p c = true) (hstop : p (deref rest) = false) :
    (run ++ rest).dropWhile p = rest := by
  rw [dropWhile_append_of_pos hrun]
  cases rest with
  | nil => rfl
  | cons c rest => exact dropWhile_cons_of_neg (by simp [show p c = false from hstop])

/-- A string ends where the first NUL is. -/
theorem takeWhile_nul {s rest : Text} (hs : nul ∉ s) (hrest : deref rest = nul) :
    (s ++ rest).takeWhile (· ≠ nul) = s := by
  apply takeWhile_stop
  · grind
  · rw [hrest]
    rfl

@[inherit_doc takeWhile_nul] theorem strlen_append {s rest : Text} (hs : nul ∉ s)
    (hrest : deref rest = nul) : strlen (s ++ rest) = s.length := by
  rw [strlen, takeWhile_nul hs hrest]

theorem deref_append {s : Text} (hs : s ≠ []) (rest : Text) :
    deref (s ++ rest) = deref s := by
  cases s with
  | nil => exact absurd rfl hs
  | cons c s => rfl

/-- Behind a string and the byte after it. -/
theorem drop_past (s after : Text) : (s ++ after).drop (s.length + 1) = after.tail := by
  rw [drop_append, drop_of_length_le (Nat.le_succ _), Nat.add_sub_cancel_left, nil_append, drop_one]

theorem takeSign_cons {c : Char} {p : Text} (hminus : c ≠ '-') (hplus : c ≠ '+') :
    takeSign (c :: p) = (false, c :: p) := by
  unfold takeSign
  split
  · next heq => exact absurd (cons.inj heq).1 hminus
  · next heq => exact absurd (cons.inj heq).1 hplus
  · rfl

/-- **A line is read whole** where the array is long enough for it. -/
theorem fgetsLines_line {size : Nat} {rest : Text} : ∀ {body taken : Text},
    '\n' ∉ body → taken.length + body.length + 1 < size →
      fgetsLines size (body ++ '\n' :: rest) taken
        = (taken.reverse ++ body ++ ['\n']) :: fgetsLines size rest [] := by
  intro body
  induction body with
  | nil =>
    intro taken _ _
    rw [nil_append, fgetsLines, if_pos (.inl rfl), reverse_cons, append_nil]
  | cons c body ih => grind [length_cons, fgetsLines, reverse_cons, append_assoc]

/-- What follows a newline is read as if the file started there. -/
theorem fgetsLines_append {size : Nat} (rest : Text) : ∀ (body taken : Text),
    fgetsLines size (body ++ '\n' :: rest) taken
      = fgetsLines size (body ++ ['\n']) taken ++ fgetsLines size rest [] := by
  intro body
  induction body with
  | nil => simp [nil_append, fgetsLines]
  | cons c body ih =>
    intro taken
    rw [cons_append, cons_append, fgetsLines, fgetsLines]
    split
    · rw [ih []]
      rfl
    · exact ih (c :: taken)

/-- **A line that is too long is cut** where the array is full. -/
theorem fgetsLines_full {size : Nat} {rest : Text} : ∀ {body taken : Text}, body ≠ [] →
    '\n' ∉ body → taken.length + body.length + 1 = size →
      fgetsLines size (body ++ rest) taken = (taken.reverse ++ body) :: fgetsLines size rest [] := by
  intro body
  induction body with
  | nil => intro taken hne; exact absurd rfl hne
  | cons c body ih =>
    intro taken _ hline hsize
    have hc : c ≠ '\n' := fun h => hline (h ▸ mem_cons_self)
    rw [length_cons] at hsize
    rw [cons_append, fgetsLines]
    cases body with
    | nil => grind
    | cons d body => grind

/-- A line: the newline is at its end and nowhere else. -/
def IsLine (line : Text) : Prop := ∃ body, line = body ++ ['\n'] ∧ '\n' ∉ body

/-- **A file of lines** is read line by line where the array is long enough for each. -/
theorem fgetsLines_flatMap {α : Type} {size : Nat} {text : α → Text} (rest : Text) :
    ∀ {items : List α}, (∀ x ∈ items, IsLine (text x) ∧ (text x).length < size) →
      fgetsLines size (items.flatMap text ++ rest) [] =
        items.map text ++ fgetsLines size rest [] := by
  intro items
  induction items with
  | nil => intro _; rfl
  | cons x items ih =>
    intro hlines
    obtain ⟨⟨body, hbody, hline⟩, hfits⟩ := hlines x mem_cons_self
    rw [hbody, length_append, length_singleton] at hfits
    have hread := @fgetsLines_line size (items.flatMap text ++ rest) body [] hline (by
      rw [length_nil]
      omega)
    rw [flatMap_cons, hbody, append_assoc, append_assoc]
    refine hread.trans ?_
    rw [ih fun y hy => hlines y (mem_cons_of_mem x hy), map_cons, hbody]
    rfl

theorem fgetsLines_file {α : Type} {size : Nat} {text : α → Text} {items : List α}
    (h : ∀ x ∈ items, IsLine (text x) ∧ (text x).length < size) :
    fgetsLines size (items.flatMap text) [] = items.map text := by
  have hread := fgetsLines_flatMap [] h
  rw [append_nil] at hread
  exact hread.trans (append_nil _)

/-- The lines of a text, each with its newline; `taken` is the start of the first one, backwards. -/
def textLines : Text → Text → List Text
  | [], taken => if taken = [] then [] else [taken.reverse]
  | c :: rest, taken =>
    if c = '\n' then (c :: taken).reverse :: textLines rest [] else textLines rest (c :: taken)

theorem textLines_append {rest : Text} : ∀ {body taken : Text}, '\n' ∉ body →
    textLines (body ++ rest) taken = textLines rest (body.reverse ++ taken) := by
  intro body
  induction body with
  | nil => intro taken _; rfl
  | cons c body ih =>
    intro taken hbody
    have hc : c ≠ '\n' := fun h => hbody (h ▸ mem_cons_self)
    rw [cons_append, textLines, if_neg hc, ih fun h => hbody (mem_cons_of_mem c h), reverse_cons,
      append_assoc, singleton_append]

theorem textLines_line {rest body taken : Text} (h : '\n' ∉ body) :
    textLines (body ++ '\n' :: rest) taken
      = (taken.reverse ++ body ++ ['\n']) :: textLines rest [] := by
  rw [textLines_append h, textLines, if_pos rfl, reverse_cons, reverse_append, reverse_reverse]

/-- The newline of a line, or nothing where the file ends without one. -/
def lineEnd (newline : Bool) : Text := if newline then ['\n'] else []

/-- The first line goes on with what was taken. -/
theorem textLines_first : ∀ {s taken : Text}, taken ≠ [] →
    ∃ line ∈ textLines s taken, taken.length ≤ line.length ∧ (s ≠ [] → taken.length < line.length)
    := by
  intro s
  induction s with
  | nil => grind [textLines, mem_singleton_self]
  | cons c s ih =>
    intro taken hne
    rw [textLines]
    split
    · simp
    · obtain ⟨line, hline, hlen, -⟩ := @ih (c :: taken) (cons_ne_nil c taken)
      exact ⟨line, hline, Nat.le_of_succ_le hlen, fun _ => hlen⟩

/-- **Lines that fit into the array are read whole.** -/
theorem fgetsLines_eq_textLines {size : Nat} : ∀ {s taken : Text},
    (∀ line ∈ textLines s taken, line.length < size) → fgetsLines size s taken = textLines s taken
    := by
  intro s
  induction s with
  | nil => intro taken _; cases taken <;> rfl
  | cons c s ih =>
    intro taken hfit
    rw [fgetsLines, textLines]
    rw [textLines] at hfit
    by_cases hc : c = '\n'
    · grind
    · rw [if_neg hc] at hfit
      rw [if_neg hc]
      by_cases hfull : size ≤ taken.length + 2
      · -- the array is full at the end of the text, or the line would not fit
        rw [if_pos (.inr hfull)]
        cases s with
        | nil => grind [textLines]
        | cons d s =>
          obtain ⟨line, hline, -, hlonger⟩ := @textLines_first (d :: s) (c :: taken)
            (cons_ne_nil c taken)
          have hlen := hfit line hline
          have hmore := hlonger (cons_ne_nil d s)
          rw [length_cons] at hmore
          omega
      · rw [if_neg (by rintro (h | h); exacts [hc h, hfull h]), ih hfit]

theorem newline_notMem_token {token : Text} (h : IsToken token) : '\n' ∉ token :=
  fun hmem => absurd (h _ hmem).2 (by decide)

/-- A blank inside a line. -/
def IsBlank (c : Char) : Prop := c = ' ' ∨ c = '\t'

theorem IsBlank.isSpace {c : Char} (h : IsBlank c) : CString.isSpace c = true := by
  rcases h with rfl | rfl <;> rfl

theorem newline_notMem_isBlank {blanks : Text} (h : ∀ c ∈ blanks, IsBlank c) :
    '\n' ∉ blanks := by
  intro hmem
  rcases h _ hmem with hspace | htab
  · exact absurd hspace (by decide)
  · exact absurd htab (by decide)

theorem newline_notMem_blanks (count : Nat) : '\n' ∉ replicate count ' ' :=
  fun hmem => absurd (eq_of_mem_replicate hmem) (by decide)

/-- What is read first stands first in the file. -/
theorem fgetsLines_prefix {size : Nat} {line : Text} {lines : List Text} :
    ∀ {s taken : Text}, fgetsLines size s taken = line :: lines →
      line <+: taken.reverse ++ s := by
  intro s
  induction s with
  | nil =>
    intro taken h
    cases taken with
    | nil => cases h
    | cons c taken =>
      rw [← (cons.inj h).1]
      exact prefix_append _ _
  | cons c s ih =>
    intro taken h
    rw [fgetsLines] at h
    have hsplit : taken.reverse ++ c :: s = (c :: taken).reverse ++ s := by
      rw [reverse_cons, append_assoc]
      rfl
    rw [hsplit]
    split at h
    · grind
    · exact ih h

/-! ## Searching and comparing -/

/-- The search passes over other characters. -/
theorem strchr_append {c : Char} : ∀ {before : Text} (after : Text), c ∉ before →
    nul ∉ before → strchr (before ++ after) c = strchr after c := by
  intro before
  induction before with
  | nil => intro after _ _; rfl
  | cons x xs ih =>
    intro after hc hnul
    have hx : x ≠ c := fun h => hc (h ▸ mem_cons_self)
    have hx0 : x ≠ nul := fun h => hnul (h ▸ mem_cons_self)
    rw [cons_append, strchr, if_neg hx, if_neg hx0]
    exact ih after (fun h => hc (mem_cons_of_mem x h)) fun h => hnul (mem_cons_of_mem x h)

theorem strchr_eq_none {c : Char} {s : Text} (hc : c ∉ s) (hs : nul ∉ s) :
    strchr s c = none := by
  have h := strchr_append [] hc hs
  rwa [append_nil] at h

/-- The search finds what stands in the string. -/
theorem strchr_isSome_iff {c : Char} (hc : c ≠ nul) : ∀ {s : Text},
    (strchr s c).isSome = true ↔ c ∈ s.takeWhile (· ≠ nul) := by
  intro s
  induction s with
  | nil => simp [strchr]
  | cons x xs ih =>
    rw [strchr]
    by_cases hx : x = c
    · grind [takeWhile_cons_of_pos]
    · rw [if_neg hx]
      by_cases hnul : x = nul
      · rw [if_pos hnul, hnul, takeWhile_cons_of_neg (by simp)]
        simp
      · rw [if_neg hnul, ih, takeWhile_cons_of_pos (by simpa using hnul), mem_cons]
        exact ⟨.inr, fun h => h.resolve_left fun heq => hx heq.symm⟩

/-- The search stops at the first one. -/
theorem strchr_first {c : Char} {before : Text} (after : Text) (hc : c ∉ before)
    (hnul : nul ∉ before) : strchr (before ++ c :: after) c = some (c :: after) := by
  rw [strchr_append _ hc hnul, strchr, if_pos rfl]

theorem strrchr_eq_none {c : Char} : ∀ {s : Text}, c ∉ s → strrchr s c = none := by
  intro s
  induction s with
  | nil => intro _; rfl
  | cons x xs ih =>
    intro hc
    have hx : x ≠ c := fun h => hc (h ▸ mem_cons_self)
    have hxs : strrchr xs c = none := ih fun h => hc (mem_cons_of_mem x h)
    simp only [strrchr, hxs, if_neg hx, ite_self]

/-- The search from the end stops at a character that does not come again. -/
theorem strrchr_append {c : Char} (hnul : c ≠ nul) {after : Text} (hafter : c ∉ after) :
    ∀ {before : Text}, nul ∉ before →
      strrchr (before ++ c :: after) c = some (c :: after) := by
  intro before
  induction before with
  | nil => grind [strrchr, strrchr_eq_none]
  | cons x xs ih =>
    intro hbefore
    have hx : x ≠ nul := fun h => hbefore (h ▸ mem_cons_self)
    rw [cons_append, strrchr, if_neg hx, ih fun h => hbefore (mem_cons_of_mem x h)]

/-- The search passes over places at which the string does not start. -/
theorem strstr_append {needle after : Text} : ∀ {before : Text}, nul ∉ before →
    (∀ t, t ≠ [] → t <:+ before → ¬ needle <+: t ++ after) →
    strstr (before ++ after) needle = strstr after needle := by
  intro before
  induction before with
  | nil => intro _ _; rfl
  | cons x xs ih => grind [strstr, isPrefixOf_iff_prefix]

theorem strstr_here {needle s : Text} (h : needle <+: s) : strstr s needle = some s := by
  cases s with
  | nil =>
    rw [prefix_nil.mp h]
    rfl
  | cons x xs =>
    have hhere := isPrefixOf_iff_prefix.mpr h
    rw [strstr, if_pos hhere]

/-- A string with a character that does not occur is not found. -/
theorem strstr_eq_none {c : Char} {needle s : Text} (hc : c ∈ needle) (hs : c ∉ s)
    (hnul : nul ∉ s) : strstr s needle = none := by
  have hpass : strstr (s ++ []) needle = strstr [] needle := by
    apply strstr_append hnul
    intro t _ hsuffix hstart
    rw [append_nil] at hstart
    exact hs (hsuffix.subset (hstart.subset hc))
  rw [← append_nil s, hpass, strstr, if_neg (ne_nil_of_mem hc)]

/-- A start without the character `c` ends before it. -/
theorem prefix_before {c : Char} {w t rest : Text} (hc : c ∉ w)
    (hstart : w <+: t ++ c :: rest) : w <+: t := by
  rcases prefix_or_prefix_of_prefix hstart (prefix_append t (c :: rest)) with h | h
  · exact h
  · obtain ⟨more, rfl⟩ := h
    rw [prefix_append_right_inj] at hstart
    cases more with
    | nil => exact ⟨[], by rw [append_nil, append_nil]⟩
    | cons x xs => grind

/-- A word up to its mark stands where the text up to its first mark is the word. -/
theorem eq_of_prefix_mark {mark : Char} {word t rest : Text} (hword : mark ∉ word)
    (ht : mark ∉ t) (hstart : word ++ [mark] <+: t ++ mark :: rest) : word = t := by
  obtain ⟨more, hmore⟩ := hstart
  have hcut : cut mark (word ++ mark :: more) = some (t, rest) := by
    rw [append_cons word mark more, hmore, cut_append rest ht]
  rw [cut_append more hword] at hcut
  exact congrArg Prod.fst (Option.some.inj hcut)

/-- Comparing as many characters as a string has. -/
theorem strnEq_length (s t : Text) : strnEq s t t.length = t.isPrefixOf s := by
  have htake : t.take t.length = t := take_length
  rw [strnEq, htake, Bool.eq_iff_iff, beq_iff_eq, isPrefixOf_iff_prefix, prefix_iff_eq_take]
  exact eq_comm

theorem strcmp_eq_iff : ∀ {s1 s2 : Text}, strcmp s1 s2 = .eq ↔ s1 = s2 := by
  intro s1
  induction s1 with
  | nil =>
    intro s2
    cases s2 with
    | nil => exact ⟨fun _ => rfl, fun _ => rfl⟩
    | cons b bs => simp [strcmp]
  | cons a as ih =>
    intro s2
    cases s2 with
    | nil => simp [strcmp]
    | cons b bs =>
      rw [strcmp]
      by_cases hab : a = b
      · simp [ih, hab, List.cons.injEq]
      · rw [if_neg hab]
        constructor
        · intro h
          exact absurd (Char.toNat_inj.mp (Nat.compare_eq_eq.mp h)) hab
        · grind

end CString
