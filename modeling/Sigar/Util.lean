/-
  Helpers of `sigar_util.c` that read and walk the text files of /proc.

  A file is outside the library: `FileRead` is what opening and reading it comes to.  The buffer
  that receives it is cleared first, so it is the bytes read and NULs after them.
-/
import Sigar.Base
import Sigar.Lib.CString

namespace Sigar

open CString List

/-- `ENOENT`, `ESRCH` and `EINVAL` of Linux. -/
def enoent : Status := 2
@[inherit_doc enoent] def esrch : Status := 3
@[inherit_doc enoent] def einval : Status := 22

/-- `BUFSIZ` of glibc. -/
def bufsiz : Nat := 8192

/-- What `open` and `read` do with a file. -/
inductive FileRead where
  | noFile                      -- `open` fails
  | readError (errno : Status)  -- `read` fails
  | content (bytes : Text)

/-- `sigar_file2str`: the status and the buffer. -/
def sigarFile2str (buflen : Nat) : FileRead → Status × Text
  | .noFile => (enoent, [])
  | .readError errno => (errno, [])
  | .content bytes => (sigarOk, bytes.take (buflen - 1))

/-- `sigar_proc_file2str`: a missing file means that there is no such process. -/
def sigarProcFile2str (buflen : Nat) (file : FileRead) : Status × Text :=
  let (retval, buffer) := sigarFile2str buflen file
  (if retval = enoent then esrch else retval, buffer)

/-- `sigar_skip_token`. -/
def sigarSkipToken (p : Text) : Text :=
  (p.dropWhile isSpace).dropWhile fun c => c ≠ nul && !isSpace c

/-- `sigar_skip_multiple_token`. -/
def sigarSkipMultipleToken : Text → Nat → Text
  | p, 0 => p
  | p, count + 1 => sigarSkipMultipleToken (sigarSkipToken p) count

/-- A token does not go on here: there is the end of the string, or a blank. -/
def EndsToken (rest : Text) : Prop := deref rest = nul ∨ isSpace (deref rest) = true

/-- **One token is skipped**, and the blanks before it. -/
theorem sigarSkipToken_token {blanks token rest : Text}
    (hblanks : ∀ c ∈ blanks, isSpace c = true) (htoken : IsToken token) (hne : token ≠ [])
    (hend : EndsToken rest) : sigarSkipToken (blanks ++ (token ++ rest)) = rest := by
  have hstart : (token ++ rest).dropWhile isSpace = token ++ rest := by
    cases token with
    | nil => exact absurd rfl hne
    | cons c token =>
      have hc : isSpace c = false := (htoken c mem_cons_self).2
      rw [cons_append, dropWhile_cons_of_neg (by simp [hc])]
  rw [sigarSkipToken, dropWhile_append_of_pos hblanks, hstart,
    dropWhile_append_of_pos fun c hc => by simp [htoken c hc]]
  cases rest with
  | nil => rfl
  | cons c rest =>
    rcases hend with hnul | hspace
    · exact dropWhile_cons_of_neg (by simp [show c = nul from hnul])
    · exact dropWhile_cons_of_neg (by simp [show isSpace c = true from hspace])

/-! ## `sigar_strcasestr` -/

/-- The inner loop: whether `p2` ends before it differs from `p1`. -/
def restMatches : Text → Text → Bool
  | [], p2 => deref p2 = nul
  | x :: p1, p2 =>
    if tolower x = tolower (deref p2) then
      if x = nul then true  -- both strings ended together
      else restMatches p1 p2.tail
    else deref p2 = nul     -- second string ended, a match

/-- The outer loop.  It goes on at the next character both where the first character of `s2` is
    looked for and after the rest did not match. -/
def strcasestrLoop (s2 : Text) : Text → Option Text
  | [] => none
  | x :: s1 =>
    if x = nul then none
    else if tolower x ≠ tolower (deref s2) then strcasestrLoop s2 s1
    else if restMatches s1 s2.tail then some (x :: s1)
    else strcasestrLoop s2 s1

/-- `sigar_strcasestr`. -/
def sigarStrcasestr (s1 s2 : Text) : Option Text :=
  if deref s2 = nul then some s1  -- an empty s2
  else strcasestrLoop s2 s1

example : sigarStrcasestr "aaAb".toList "AAB".toList = some "aAb".toList := by decide

end Sigar
