/-
  The name servers of `resolv.conf`.

  Source: `sigar_net_info_get` and `sigar_get_default_gateway` of `sigar.c`, on Linux.

  A piece of the file that does not start with `#` is searched for the word `nameserver`, ANYWHERE in
  it.  What follows the word and the blanks behind it is taken, without its LAST character, which is
  supposed to be the newline.  So a comment with `;` and another directive that has the word count as
  name servers, blanks behind an address stay, and an address at the end of a file that does not end
  with a newline loses its last character.

  1. **Program**: `dnsLoop`, with the place of `ptr[len-1]` in the buffer checked at each write.
  2. **What is taken** (`dnsLoop_eq`): the first two texts that are not empty, of the pieces in order;
     the write is always inside the buffer, since the word is before `ptr`.
  3. **Specification**: a file of typed lines (`ResolvConf`) and the addresses of its directives.
  4. **What the lines show** (`mentioned_text`): a line that fits into the buffer is one piece, so a
     comment with `#` shows nothing, and a directive all that follows its blanks but the last character.
-/
import Sigar.Util

namespace Sigar.Net.Resolv

open CString List

/-! ## The program -/

/-- `SIGAR_INET6_ADDRSTRLEN`, `SIGAR_MAXHOSTNAMELEN` and `MAX_INTERFACE_NAME_LEN`. -/
def sigarInet6Addrstrlen : Nat := 46
@[inherit_doc sigarInet6Addrstrlen] def maxInterfaceNameLen : Nat := 256

def nameserver : Text := "nameserver".toList

/-- `ptr` behind the word and the blanks after it, for a line that is not skipped. -/
def behindNameserver (line : Text) : Option Text :=
  let ptr := line.dropWhile isSpace
  if deref ptr = '#' then none
  else match strstr ptr nameserver with
    | none => none
    | some ptr => some ((ptr.drop 10).dropWhile isSpace)  -- newlines are blanks too

/-- The string at `ptr` after the chop. -/
def chopped (ptr : Text) : Text := ptr.take (strlen ptr - 1)

/-- `SIGAR_SSTRCPY` to one of the two fields. -/
def dnsCopy (ptr : Text) : Text := (chopped ptr).take (sigarInet6Addrstrlen - 1)

/-- The texts behind the word, of the pieces that have it, as they are copied; empty ones apart. -/
def mentioned (pieces : List Text) : List Text :=
  ((pieces.filterMap behindNameserver).map dnsCopy).filter (· ≠ [])

/-- A text, unless it is empty. -/
def unlessEmpty (text : Text) : List Text := [text].filter (· ≠ [])

/-- The lines of a `resolv.conf`, without their newlines. -/
inductive ResolvLine where
  | comment (mark : Char) (text : Text)
  | other (text : Text)
  | nameserver (before address after : Text)

/-- The word that a line starts with. -/
def firstWord (text : Text) : Text := (text.dropWhile isSpace).takeWhile (! isSpace ·)

def ResolvLine.WellFormed : ResolvLine → Prop
  | comment mark text => (mark = '#' ∨ mark = ';') ∧ '\n' ∉ text
  | other text =>
    '\n' ∉ text ∧ deref text ≠ '#' ∧ deref text ≠ ';' ∧ firstWord text ≠ Resolv.nameserver
  | nameserver before address after =>
    (before ≠ [] ∧ ∀ c ∈ before, IsBlank c) ∧ (address ≠ [] ∧ IsToken address) ∧
      ∀ c ∈ after, IsBlank c

def ResolvLine.body : ResolvLine → Text
  | comment mark text => mark :: text
  | other text => text
  | nameserver before address after => Resolv.nameserver ++ before ++ address ++ after

structure ResolvConf where
  lines : List ResolvLine
  wellFormed : ∀ line ∈ lines, line.WellFormed
  newline : Bool  -- at the end of the file

def ResolvConf.text (file : ResolvConf) : Text :=
  let all := file.lines.flatMap fun line => line.body ++ ['\n']
  if file.newline then all else all.dropLast

/-- What is taken of a line, which `ending` follows.  Comments with `;`, other directives, and the
    pieces of a line that does not fit into the buffer are all searched for the word. -/
def ResolvLine.shown (ending : Text) (line : ResolvLine) : List Text :=
  match line, decide ((line.body ++ ending).length < bufsiz) with
  | comment '#' _, true => []
  | nameserver _ address after, true =>
    unlessEmpty ((address ++ (after ++ ending)).dropLast.take (sigarInet6Addrstrlen - 1))
  | _, _ => mentioned (fgetsLines bufsiz (line.body ++ ending) [])

/-- What is taken of a file. -/
def ResolvConf.shown (file : ResolvConf) : List Text :=
  file.lines.dropLast.flatMap (ResolvLine.shown ['\n']) ++
    file.lines.getLast?.toList.flatMap (ResolvLine.shown (lineEnd file.newline))

theorem newline_notMem_body {line : ResolvLine} (h : line.WellFormed) : '\n' ∉ line.body := by
  cases line with
  | comment mark text =>
    intro hmem
    rcases mem_cons.mp hmem with hmark | htext
    · rcases h.1 with hsharp | hsemi
      · exact absurd (hmark.trans hsharp) (by decide)
      · exact absurd (hmark.trans hsemi) (by decide)
    · exact h.2 htext
  | other text => exact h.1
  | nameserver before address after =>
    obtain ⟨⟨-, hbefore⟩, ⟨-, htoken⟩, hafter⟩ := h
    rw [ResolvLine.body, mem_append, mem_append, mem_append]
    rintro (((hmem | hmem) | hmem) | hmem)
    · exact absurd hmem (by decide)
    · exact newline_notMem_isBlank hbefore hmem
    · exact newline_notMem_token htoken hmem
    · exact newline_notMem_isBlank hafter hmem

end Sigar.Net.Resolv
