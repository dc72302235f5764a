/-
  The words of a shell command.

  A POSIX shell cuts a text into tokens, and the quotes, blanks and comments in it do not reach the
  command.  `simpleCommand` gives the words of a text that is ONE simple command and nothing else;
  it has none for a text with an operator, a second command, an expansion (`$`, a backquote, a
  tilde, a pattern of file names) or a quote that does not end: then the words are not fixed by the
  text, or are not all of it.

  1. **Lexer** — a state machine, one character at a time.
  2. **Weight** — no step adds more to the words than the one character that it has read
     (`weight_step_le`), and a step outside of quotes that adds one has read an ORDINARY character
     (`ordinary_of_gain`).
  3. **An argument that is appended to a text** comes out as it is exactly if it is a plain word
     (`simpleCommand_argument_iff`).
-/
import Mathlib.Data.List.Basic
import Mathlib.Algebra.GroupWithZero.Nat

namespace Shell

open List

variable {inWord : Bool} {c : Char} {out : List (List Char)}

/-! ## The lexer -/

/-- A character of a word, and whether it was quoted. -/
abbrev Glyph := Char × Bool

abbrev Word := List Glyph

variable {words : List Word}

def apostrophe : Char := '\x27'
def quotationMark : Char := '\x22'
def backquote : Char := '\x60'
def backslash : Char := '\x5c'

/-- Where the lexer stands: outside of quotes, behind a backslash there, in single quotes, in
    double quotes, behind a backslash in them, or in a comment. -/
inductive Mode where
  | plain | escape | single | double | doubleEscape | comment
  deriving DecidableEq

/-- The word that is being read, the words before it, and whether the line of the command is
    over. -/
structure Lexer where
  mode : Mode
  word : Option Word
  words : List Word
  ended : Bool

def Lexer.start : Lexer := ⟨.plain, none, [], false⟩

def isBlank (c : Char) : Bool := c = ' ' || c = '\t'

/-- A character that begins an operator. -/
def isOperator (c : Char) : Bool :=
  c = '|' || c = '&' || c = ';' || c = '<' || c = '>' || c = '(' || c = ')'

/-- A character that begins an expansion, in double quotes too. -/
def isExpansion (c : Char) : Bool := c = '$' || c = backquote

/-- What a character does: it is only passed over, it ends the word or the line, or it adds
    something to the word. -/
inductive Action where
  | pass (mode : Mode)
  | endWord
  | endLine
  | put (w : Word) (mode : Mode)

variable {a : Action}

/-- The table of the lexer; `inWord` says whether a word has begun. -/
def action (mode : Mode) (inWord : Bool) (c : Char) : Option Action :=
  match mode with
  | .plain =>
    if isBlank c then some .endWord
    else if c = '\n' then some .endLine
    else if isOperator c || isExpansion c then none
    else if c = backslash then some (.pass .escape)
    else if c = apostrophe then some (.put [] .single)
    else if c = quotationMark then some (.put [] .double)
    else if !inWord && c = '#' then some (.pass .comment)
    else if !inWord && c = '~' then none
    else some (.put [(c, false)] .plain)
  | .escape =>
    if c = '\n' then some (.pass .plain)  -- the line goes on
    else some (.put [(c, true)] .plain)
  | .single => if c = apostrophe then some (.pass .plain) else some (.put [(c, true)] .single)
  | .double =>
    if c = quotationMark then some (.pass .plain)
    else if c = backslash then some (.pass .doubleEscape)
    else if isExpansion c then none
    else some (.put [(c, true)] .double)
  | .doubleEscape =>
    if c = '\n' then some (.pass .double)
    else if isExpansion c || c = quotationMark || c = backslash then
      some (.put [(c, true)] .double)
    else some (.put [(backslash, true), (c, true)] .double)
  | .comment => if c = '\n' then some .endLine else some (.pass .comment)

namespace Lexer

variable (s : Lexer)

def endWord : Lexer :=
  match s.word with
  | none => s
  | some w => { s with word := none, words := s.words ++ [w] }

/-- A newline ends the command, if there is one; characters of a word behind its end would be
    another command. -/
def act : Action → Option Lexer
  | .pass mode => some { s with mode := mode }
  | .endWord => some s.endWord
  | .endLine =>
    some { s.endWord with mode := .plain, ended := s.ended || !s.endWord.words.isEmpty }
  | .put w mode =>
    if s.ended then none else some { s with mode := mode, word := some (s.word.getD [] ++ w) }

/-- One character. -/
def step (c : Char) : Option Lexer := do
  let a ← action s.mode s.word.isSome c
  s.act a

end Lexer

/-! ## The command -/

/-- A bracket is closed, by no quoted character and before the next slash. -/
def closes : Word → Bool
  | [] => false
  | (c, quoted) :: rest => c ≠ '/' && ((c = ']' && !quoted) || closes rest)

/-- What follows a `[` makes it a bracket expression: its first character, behind the `!`, does not
    close it. -/
def opensBracket (rest : Word) : Bool :=
  match (if rest.head? = some ('!', false) then rest.tail else rest) with
  | [] => false
  | (c, _) :: more => c ≠ '/' && closes more

/-- The word is a pattern of file names. -/
def isPattern : Word → Bool
  | [] => false
  | (c, quoted) :: rest =>
    (!quoted && (c = '*' || c = '?' || (c = '[' && opensBracket rest))) || isPattern rest

/-- The words that are not the name of a command, unless they are quoted. -/
def reservedWords : List (List Char) :=
  ["!".toList, "\x7b".toList, "\x7d".toList, "case".toList, "do".toList, "done".toList,
    "elif".toList, "else".toList, "esac".toList, "fi".toList, "for".toList, "if".toList,
    "in".toList, "then".toList, "until".toList, "while".toList]

def isReserved (w : Word) : Bool :=
  w.all (fun g => !g.2) && reservedWords.contains (w.map Prod.fst)

/-- `name=value`, which is no word of the command if it is at its start. -/
def isAssignment (w : Word) : Bool :=
  let name := w.takeWhile fun g => !g.2 && (g.1.isAlphanum || g.1 = '_')
  name.head?.any (fun g => !g.1.isDigit) && (w.drop name.length).head? = some ('=', false)

/-- The words of a command, without their quotes. -/
def command (words : List Word) : Option (List (List Char)) :=
  match words with
  | [] => none
  | name :: _ =>
    if isReserved name || isAssignment name || words.any isPattern then none
    else some (words.map (·.map Prod.fst))

/-- The end of the text, which is not in a quote. -/
def Lexer.finish (s : Lexer) : Option (List (List Char)) :=
  match s.mode with
  | .plain | .comment => command s.endWord.words
  | _ => none

/-- **The words of a text that is one simple command.** -/
def simpleCommand (text : List Char) : Option (List (List Char)) := do
  let s ← text.foldlM Lexer.step .start
  s.finish

example : simpleCommand "cat  a\\ b # c".toList = some ["cat".toList, "a b".toList] := by decide

/-! ## The weight of a lexer -/

/-- In double quotes a backslash may stay. -/
def Mode.pending (mode : Mode) : Nat := if mode = .doubleEscape then 1 else 0

/-- What an action adds, and how it leaves a lexer of this mode. -/
def Action.gain (mode : Mode) : Action → Nat
  | .pass mode => mode.pending
  | .endWord => mode.pending
  | .endLine => 0
  | .put w mode => w.length + mode.pending

/-- **No character adds more than itself.** -/
theorem gain_action_le {mode : Mode} (h : action mode inWord c = some a) :
    a.gain mode ≤ mode.pending + 1 := by
  cases mode <;> simp only [action] at h <;> (repeat' split at h) <;> cases h <;>
    simp [Action.gain, Mode.pending]

/-- The characters that a shell does not take as they are. -/
def special : List Char :=
  [' ', '\t', '\n', '|', '&', ';', '<', '>', '(', ')', '$', backquote, backslash, apostrophe,
    quotationMark]

/-- A character at the start of a word that does more than begin it. -/
def isMark (c : Char) : Bool := c = '#' || c = '~'

theorem action_ordinary (hc : c ∉ special) (hmark : inWord = false → isMark c = false) :
    action .plain inWord c = some (.put [(c, false)] .plain) := by
  simp only [special, mem_cons, not_mem_nil, or_false, not_or] at hc
  cases inWord with
  | true => simp [action, isBlank, isOperator, isExpansion, hc]
  | false => grind [isMark, Bool.or_eq_false_iff, action, isBlank, isOperator, isExpansion]

/-- **A character that adds itself outside of quotes is an ordinary one.** -/
theorem ordinary_of_gain (h : action .plain inWord c = some a) (hgain : a.gain .plain = 1) :
    c ∉ special ∧ (inWord = false → isMark c = false) ∧ a = .put [(c, false)] .plain := by
  simp only [action] at h
  split at h
  case isTrue => cases h; exact absurd hgain (by decide)
  split at h
  case isTrue => cases h; exact absurd hgain (by decide)
  split at h
  case isTrue => cases h
  split at h
  case isTrue => cases h; exact absurd hgain (by decide)
  split at h
  case isTrue => cases h; exact absurd hgain (by decide)
  split at h
  case isTrue => cases h; exact absurd hgain (by decide)
  split at h
  case isTrue => cases h; exact absurd hgain (by decide)
  split at h
  case isTrue => cases h
  case isFalse hblank hline hsymbol hslash hsingle hdouble hcomment htilde =>
    simp only [isBlank, isOperator, isExpansion, Bool.or_eq_true, decide_eq_true_eq, not_or]
      at hblank hsymbol
    refine ⟨?_, ?_, (Option.some.inj h).symm⟩
    · simp [special, hblank, hline, hsymbol, hslash, hsingle, hdouble]
    · grind [isMark]

namespace Lexer

/-- The characters that are in its words, or will be. -/
def weight (s : Lexer) : Nat :=
  (s.words.map List.length).sum + (s.word.getD []).length + s.mode.pending

variable {s s' : Lexer} {c : Char}

theorem weight_endWord (s : Lexer) : s.endWord.weight = s.weight := by
  obtain ⟨mode, word, words, ended⟩ := s
  cases word with
  | none => rfl
  | some w =>
    show ((words ++ [w]).map List.length).sum + 0 + mode.pending
      = (words.map List.length).sum + w.length + mode.pending
    rw [map_append, sum_append, map_singleton, sum_singleton]
    rfl

theorem weight_act {a : Action} (h : s.act a = some s') :
    s'.weight + s.mode.pending = s.weight + a.gain s.mode := by
  cases a with
  | pass mode =>
    obtain rfl := Option.some.inj h
    simp only [weight, Action.gain]
    omega
  | endWord =>
    obtain rfl := Option.some.inj h
    rw [weight_endWord]
    rfl
  | endLine =>
    obtain rfl := Option.some.inj h
    have hword := weight_endWord s
    have hmode : s.endWord.mode = s.mode := by
      rw [endWord]
      split <;> rfl
    simp only [weight, hmode, Action.gain] at hword ⊢
    rw [show Mode.plain.pending = 0 from rfl]
    omega
  | put w mode => grind [act, weight, Action.gain, length_append]

theorem weight_step_le (h : s.step c = some s') : s'.weight ≤ s.weight + 1 := by
  obtain ⟨a, ha, hact⟩ := Option.bind_eq_some_iff.mp h
  have hgain := gain_action_le ha
  have hweight := weight_act hact
  omega

/-- So a whole text adds no more than its length. -/
theorem weight_run_le : ∀ {text : List Char} {s s' : Lexer}, text.foldlM step s = some s' →
    s'.weight ≤ s.weight + text.length := by
  intro text
  induction text with
  | nil => simp
  | cons c text ih =>
    intro s s' h
    rw [foldlM_cons] at h
    obtain ⟨next, hstep, hrest⟩ := Option.bind_eq_some_iff.mp h
    have hfirst := weight_step_le hstep
    have hmore := ih hrest
    rw [length_cons]
    omega

/-- A text that adds all of its characters has only ordinary ones: after each of them the lexer is
    outside of quotes, and in a word. -/
theorem ordinary_of_run : ∀ {text : List Char} {s s' : Lexer}, s.mode = .plain →
    text.foldlM step s = some s' → s'.weight = s.weight + text.length →
      (∀ c ∈ text, c ∉ special) ∧ (s.word = none → ∀ c ∈ text.head?, isMark c = false) := by
  intro text
  induction text with
  | nil => simp
  | cons c text ih =>
    intro s s' hmode h hweight
    rw [foldlM_cons] at h
    obtain ⟨next, hstep, hrest⟩ := Option.bind_eq_some_iff.mp h
    obtain ⟨a, ha, hact⟩ := Option.bind_eq_some_iff.mp hstep
    have hmore := weight_run_le hrest
    have hgain := weight_act hact
    have hle := gain_action_le ha
    rw [hmode] at ha hgain hle
    rw [show Mode.plain.pending = 0 from rfl] at hgain hle
    rw [length_cons] at hweight
    obtain ⟨hc, hmark, rfl⟩ := ordinary_of_gain ha (by omega)
    have hnext : next.mode = .plain := by grind [act]
    have hlater := (ih hnext hrest (by omega)).1
    refine ⟨forall_mem_cons.mpr ⟨hc, hlater⟩, ?_⟩
    intro hnone first hfirst
    obtain rfl : c = first := Option.some.inj hfirst
    exact hmark (by rw [hnone]; rfl)

end Lexer

/-! ## Plain words -/

/-- The characters of a word without quotes. -/
def bare (w : List Char) : Word := w.map (·, false)

/-- A word that a shell takes as it is. -/
structure IsPlain (w : List Char) : Prop where
  ne_nil : w ≠ []
  ordinary : ∀ c ∈ w, c ∉ special
  mark : ∀ c ∈ w.head?, isMark c = false
  pattern : isPattern (bare w) = false

/-- The words that are taken as they are can be told by a test. -/
theorem isPlain_iff (w : List Char) :
    (!w.isEmpty && w.all (fun c => !special.contains c) && w.head?.all (fun c => !isMark c) &&
      !isPattern (bare w)) = true ↔ IsPlain w := by
  simp only [Bool.and_eq_true, all_eq_true, Option.all_eq_true, Bool.not_eq_true',
    isEmpty_eq_false_iff, contains_eq_mem, decide_eq_false_iff_not]
  constructor
  · rintro ⟨⟨⟨hne, hordinary⟩, hmark⟩, hpattern⟩
    exact ⟨hne, hordinary, hmark, hpattern⟩
  · rintro ⟨hne, hordinary, hmark, hpattern⟩
    exact ⟨⟨⟨hne, hordinary⟩, hmark⟩, hpattern⟩

instance (w : List Char) : Decidable (IsPlain w) := decidable_of_iff _ (isPlain_iff w)

theorem map_fst_bare (w : List Char) : (bare w).map Prod.fst = w := by
  rw [bare, map_map]
  exact map_id w

/-- Ordinary characters go on with a word. -/
theorem run_ordinary : ∀ {text : List Char} {w : Word},
    (∀ c ∈ text, c ∉ special) →
      text.foldlM Lexer.step ⟨.plain, some w, words, false⟩
        = some ⟨.plain, some (w ++ bare text), words, false⟩ := by
  intro text
  induction text with
  | nil =>
    intro w _
    rw [bare, map_nil, append_nil]
    rfl
  | cons c text ih =>
    intro w h
    obtain ⟨hc, htext⟩ := forall_mem_cons.mp h
    have hstep : Lexer.step ⟨.plain, some w, words, false⟩ c
        = some ⟨.plain, some (w ++ [(c, false)]), words, false⟩ := by
      have ha : action .plain true c = some (.put [(c, false)] .plain) :=
        action_ordinary hc fun hstart => nomatch hstart
      show (action .plain true c).bind _ = _
      rw [ha]
      rfl
    rw [foldlM_cons, hstep]
    show text.foldlM Lexer.step _ = _
    rw [ih htext, append_assoc]
    rfl

/-- **A plain word is read.** -/
theorem run_plain {w : List Char} (hne : w ≠ []) (hordinary : ∀ c ∈ w, c ∉ special)
    (hmark : ∀ c ∈ w.head?, isMark c = false) (words : List Word) :
    w.foldlM Lexer.step ⟨.plain, none, words, false⟩
      = some ⟨.plain, some (bare w), words, false⟩ := by
  cases w with
  | nil => exact absurd rfl hne
  | cons c text =>
    obtain ⟨hc, htext⟩ := forall_mem_cons.mp hordinary
    have hstep : Lexer.step ⟨.plain, none, words, false⟩ c
        = some ⟨.plain, some [(c, false)], words, false⟩ := by
      have ha : action .plain false c = some (.put [(c, false)] .plain) :=
        action_ordinary hc fun _ => hmark c rfl
      show (action .plain false c).bind _ = _
      rw [ha]
      rfl
    rw [foldlM_cons, hstep]
    exact run_ordinary htext

/-- Words, each with a blank behind it. -/
def spaced (ws : List (List Char)) : List Char := ws.flatMap (· ++ [' '])

theorem run_spaced : ∀ {ws : List (List Char)} {words : List Word}, (∀ w ∈ ws, IsPlain w) →
    (spaced ws).foldlM Lexer.step ⟨.plain, none, words, false⟩
      = some ⟨.plain, none, words ++ ws.map bare, false⟩ := by
  intro ws
  induction ws with
  | nil =>
    intro words _
    rw [map_nil, append_nil]
    rfl
  | cons w ws ih =>
    intro words h
    obtain ⟨hw, hws⟩ := forall_mem_cons.mp h
    rw [spaced, flatMap_cons, append_assoc, foldlM_append, run_plain hw.ne_nil hw.ordinary hw.mark]
    show (spaced ws).foldlM Lexer.step ⟨.plain, none, words ++ [bare w], false⟩ = _
    rw [ih hws, append_assoc]
    rfl

/-! ## An argument -/

/-- A word that can be the name of a command. -/
def IsName (w : List Char) : Prop := isReserved (bare w) = false ∧ isAssignment (bare w) = false

theorem command_eq_some (h : command words = some out) :
    out = words.map (·.map Prod.fst) ∧ ∀ w ∈ words, isPattern w = false := by
  cases words with
  | nil => cases h
  | cons name rest =>
    rw [command] at h
    split at h
    · cases h
    · next hbad =>
      rw [Bool.or_eq_true, not_or, any_eq_true] at hbad
      refine ⟨(Option.some.inj h).symm, ?_⟩
      intro w hw
      rw [Bool.eq_false_iff]
      exact fun hpattern => hbad.2 ⟨w, hw, hpattern⟩

/-- What comes out weighs as much as the lexer. -/
theorem finish_eq_some {s : Lexer} (h : s.finish = some out) :
    command s.endWord.words = some out ∧ (out.map List.length).sum = s.weight := by
  have hcommand : command s.endWord.words = some out ∧ s.mode.pending = 0 := by
    rw [Lexer.finish] at h
    split at h
    · next hmode => exact ⟨h, by rw [hmode]; rfl⟩
    · next hmode => exact ⟨h, by rw [hmode]; rfl⟩
    · cases h
  obtain ⟨hout, hpending⟩ := hcommand
  refine ⟨hout, ?_⟩
  obtain ⟨rfl, -⟩ := command_eq_some hout
  have hword : s.endWord.word = none ∧ s.endWord.mode = s.mode := by grind [Lexer.endWord]
  rw [← Lexer.weight_endWord, Lexer.weight, hword.1, hword.2, hpending, map_map]
  simp [Function.comp_def]

section Argument

variable {ws : List (List Char)} (hws : ∀ w ∈ ws, IsPlain w)

include hws

theorem simpleCommand_spaced (text : List Char) :
    simpleCommand (spaced ws ++ text)
      = (text.foldlM Lexer.step ⟨.plain, none, ws.map bare, false⟩).bind Lexer.finish := by
  rw [simpleCommand, foldlM_append, Lexer.start, run_spaced hws]
  rfl

/-- A plain argument comes out. -/
theorem simpleCommand_plain (hne : ws ≠ []) (hname : ∀ w ∈ ws.head?, IsName w) {f : List Char}
    (hf : IsPlain f) : simpleCommand (spaced ws ++ f) = some (ws ++ [f]) := by
  rw [simpleCommand_spaced hws, run_plain hf.ne_nil hf.ordinary hf.mark]
  show command (ws.map bare ++ [bare f]) = _
  have hpattern : (ws.map bare ++ [bare f]).any isPattern = false := by
    rw [any_eq_false]
    intro w hw
    rcases mem_append.mp hw with hold | hnew
    · obtain ⟨v, hv, rfl⟩ := mem_map.mp hold
      rw [(hws v hv).pattern]
      exact Bool.false_ne_true
    · rw [mem_singleton.mp hnew, hf.pattern]
      exact Bool.false_ne_true
  have hmap : (ws.map bare ++ [bare f]).map (·.map Prod.fst) = ws ++ [f] := by
    simp [map_append, map_map, map_fst_bare, map_congr_left]
  cases ws with
  | nil => exact absurd rfl hne
  | cons name rest =>
    obtain ⟨hreserved, hassignment⟩ := hname name rfl
    show (if _ then none else _) = _
    rw [hreserved, hassignment, hpattern]
    exact congrArg some hmap

/-- **An argument comes out as it is**, if what is handed over is its start, exactly if nothing was
    cut off and it is a plain word. -/
theorem simpleCommand_argument_iff (hne : ws ≠ []) (hname : ∀ w ∈ ws.head?, IsName w)
    {start f : List Char} (hstart : start <+: f) :
    simpleCommand (spaced ws ++ start) = some (ws ++ [f]) ↔ start = f ∧ IsPlain f := by
  constructor
  · intro h
    rw [simpleCommand_spaced hws] at h
    obtain ⟨s, hrun, hfinish⟩ := Option.bind_eq_some_iff.mp h
    obtain ⟨hcommand, hweight⟩ := finish_eq_some hfinish
    have hzero : (⟨.plain, none, ws.map bare, false⟩ : Lexer).weight = (ws.map List.length).sum := by
      show ((ws.map bare).map List.length).sum + 0 + 0 = _
      rw [map_map, Nat.add_zero]
      congr 2
      funext w
      exact length_map _
    rw [map_append, sum_append, map_singleton, sum_singleton, ← hzero] at hweight
    have hle := Lexer.weight_run_le hrun
    -- every character of `f` has to come from one of `start`
    have hlen := hstart.length_le
    obtain rfl : start = f := hstart.eq_of_length (by omega)
    obtain ⟨hordinary, hmark⟩ := Lexer.ordinary_of_run rfl hrun hweight.symm
    have hfne : start ≠ [] := by
      rintro rfl
      obtain rfl := Option.some.inj hrun
      have hout := congrArg List.length (command_eq_some hcommand).1
      simp [Lexer.endWord] at hout
    refine ⟨rfl, hfne, hordinary, hmark rfl, ?_⟩
    rw [run_plain hfne hordinary (hmark rfl)] at hrun
    obtain rfl := Option.some.inj hrun
    exact (command_eq_some hcommand).2 _ (mem_append_right _ mem_cons_self)
  · rintro ⟨rfl, hf⟩
    exact simpleCommand_plain hws hne hname hf

end Argument

end Shell
