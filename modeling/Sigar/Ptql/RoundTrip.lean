/-
  Parsing undoes rendering, but for one attribute.

  A `BranchText` is a branch as a user writes it, `render` its text.  `renderQuery_parses` says
  when a list of valid branches comes back from the parser as it was: exactly when no branch has
  the attribute `Service` in a class other than `Pid`.  The comment in the source announces the
  rewrite of `Pid.Service`; the code rewrites that attribute of EVERY class.
-/
import Sigar.Ptql.Syntax

namespace Sigar.Ptql

open CString List

variable {modifiers : CStr}

structure BranchText where
  name : CStr
  attr : CStr
  modifiers : CStr
  op : CStr
  value : CStr
  deriving DecidableEq

variable {b : BranchText}

/-- What stands before the `=`. -/
def BranchText.left (b : BranchText) : CStr :=
  b.name ++ '.' :: (b.attr ++ '.' :: (b.modifiers ++ b.op))

def BranchText.render (b : BranchText) : CStr := b.left ++ '=' :: b.value

/-- The texts joined by commas. -/
def renderQuery : List BranchText → CStr
  | [] => []
  | [b] => b.render
  | b :: rest => b.render ++ ',' :: renderQuery rest

/-- Free of `.`, `=` and `,`. -/
def Plain (s : CStr) : Prop := '.' ∉ s ∧ '=' ∉ s ∧ ',' ∉ s

instance (s : CStr) : Decidable (Plain s) := inferInstanceAs (Decidable (_ ∧ _))

def IsModifier (c : Char) : Prop := c = 'P' ∨ c = 'I'

instance (c : Char) : Decidable (IsModifier c) := inferInstanceAs (Decidable (_ ∨ _))

structure BranchText.Valid (b : BranchText) : Prop where
  name : Plain b.name
  attr : Plain b.attr
  modifiers : ∀ c ∈ b.modifiers, IsModifier c
  op_ne : b.op ≠ []
  op_eq : '=' ∉ b.op
  op_comma : ',' ∉ b.op
  op_upper : (deref b.op).isUpper = false
  value : ',' ∉ b.value

/-- The flags of a string of modifiers. -/
def modifierFlags (modifiers : CStr) : OpFlags :=
  { parent := 'P' ∈ modifiers, icase := 'I' ∈ modifiers }

/-- The components of the branch, with the documented rewrite. -/
def BranchText.components (b : BranchText) : PtqlParseBranch :=
  if b.name = "Pid".toList ∧ b.attr = "Service".toList then
    ⟨"Service".toList, "Name".toList, b.op, b.value, modifierFlags b.modifiers⟩
  else ⟨b.name, b.attr, b.op, b.value, modifierFlags b.modifiers⟩

/-! ## One branch -/

theorem parseModifiers_append : ∀ (modifiers op : CStr) (flags : OpFlags),
    (∀ c ∈ modifiers, IsModifier c) → (deref op).isUpper = false →
    parseModifiers (modifiers ++ op) flags
      = .ok ({ flags with
          parent := flags.parent || decide ('P' ∈ modifiers)
          icase := flags.icase || decide ('I' ∈ modifiers) }, op) := by
  intro modifiers
  induction modifiers with
  | nil =>
    intro op flags _ hop
    cases op with
    | nil => simp [parseModifiers]
    | cons c rest =>
      have hc : c.isUpper = false := hop
      simp [parseModifiers, hc]
  | cons c rest ih =>
    intro op flags hmod hop
    have hrest : ∀ x ∈ rest, IsModifier x := fun x hx => hmod x (mem_cons_of_mem c hx)
    rcases hmod c mem_cons_self with rfl | rfl
    · rw [cons_append, parseModifiers, if_pos (by decide), if_pos rfl, ih op _ hrest hop]
      simp
    · rw [cons_append, parseModifiers, if_pos (by decide), if_neg (by decide), if_pos rfl,
        ih op _ hrest hop]
      simp

theorem parseModifiers_unsupported : ∀ (modifiers rest : CStr) (c : Char) (flags : OpFlags),
    (∀ x ∈ modifiers, IsModifier x) → c.isUpper = true → ¬ IsModifier c →
    ∃ message, parseModifiers (modifiers ++ c :: rest) flags = .error message := by
  intro modifiers
  induction modifiers with
  | nil =>
    intro rest c flags _ hupper hc
    have hP : c ≠ 'P' := fun h => hc (Or.inl h)
    have hI : c ≠ 'I' := fun h => hc (Or.inr h)
    rw [nil_append, parseModifiers, if_pos hupper, if_neg hP, if_neg hI]
    exact ⟨_, rfl⟩
  | cons x xs ih =>
    intro rest c flags hmod hupper hc
    have hxs : ∀ y ∈ xs, IsModifier y := fun y hy => hmod y (mem_cons_of_mem x hy)
    rcases hmod x mem_cons_self with rfl | rfl
    · rw [cons_append, parseModifiers, if_pos (by decide), if_pos rfl]
      exact ih rest c _ hxs hupper hc
    · rw [cons_append, parseModifiers, if_pos (by decide), if_neg (by decide), if_pos rfl]
      exact ih rest c _ hxs hupper hc

/-- The three cuts of `ptql_branch_parse`. -/
theorem ptqlBranchParse_append {name attr query value : CStr} (hname : '.' ∉ name)
    (hattr : '.' ∉ attr) (heq : '=' ∉ name ++ '.' :: (attr ++ '.' :: query)) :
    ptqlBranchParse (name ++ '.' :: (attr ++ '.' :: query) ++ '=' :: value)
      = if query = [] then ptqlError "Missing query".toList
        else match parseModifiers query {} with
          | .error message => .error message
          | .ok (flags, op) => .ok (rewriteService ⟨name, attr, op, value, flags⟩) := by
  have houter := cut_append value heq
  have hfirst := cut_append (attr ++ '.' :: query) hname
  have hsecond := cut_append query hattr
  unfold ptqlBranchParse
  rw [houter]
  dsimp only
  rw [hfirst]
  dsimp only
  generalize cut '.' (attr ++ '.' :: query) = parts at hsecond ⊢
  subst hsecond
  rfl

theorem modifiers_no_eq (h : ∀ c ∈ modifiers, IsModifier c) : '=' ∉ modifiers := by
  intro hin
  rcases h '=' hin with h | h
  · exact absurd h (by decide)
  · exact absurd h (by decide)

theorem modifiers_no_comma (h : ∀ c ∈ modifiers, IsModifier c) : ',' ∉ modifiers := by
  intro hin
  rcases h ',' hin with h | h
  · exact absurd h (by decide)
  · exact absurd h (by decide)

theorem BranchText.Valid.left_no_eq (hb : b.Valid) : '=' ∉ b.left := by
  unfold BranchText.left
  simp only [mem_append, mem_cons, not_or]
  exact ⟨hb.name.2.1, by decide, hb.attr.2.1, by decide, modifiers_no_eq hb.modifiers, hb.op_eq⟩

theorem BranchText.Valid.render_no_comma (hb : b.Valid) : ',' ∉ b.render := by
  unfold BranchText.render BranchText.left
  simp only [mem_append, mem_cons, not_or]
  exact ⟨⟨hb.name.2.2, by decide, hb.attr.2.2, by decide, modifiers_no_comma hb.modifiers,
    hb.op_comma⟩, by decide, hb.value⟩

/-- What the parser makes of a valid branch. -/
theorem ptqlBranchParse_render (hb : b.Valid) :
    ptqlBranchParse b.render
      = .ok (rewriteService ⟨b.name, b.attr, b.op, b.value, modifierFlags b.modifiers⟩) := by
  have hquery : b.modifiers ++ b.op ≠ [] := fun h => hb.op_ne (append_eq_nil_iff.mp h).2
  unfold BranchText.render
  rw [BranchText.left, ptqlBranchParse_append hb.name.1 hb.attr.1 hb.left_no_eq, if_neg hquery,
    parseModifiers_append b.modifiers b.op {} hb.modifiers hb.op_upper]
  simp [modifierFlags]

/-- One branch comes back exactly when the rewrite is the documented one. -/
theorem ptqlBranchParse_render_iff (hb : b.Valid) :
    ptqlBranchParse b.render = .ok b.components ↔
      (b.attr = "Service".toList → b.name = "Pid".toList) := by
  rw [ptqlBranchParse_render hb]
  unfold rewriteService BranchText.components
  by_cases hattr : b.attr = "Service".toList
  · by_cases hname : b.name = "Pid".toList
    · simp [hattr, hname]
    · -- the code says `Name`, the text said `Service`
      rw [if_pos hattr, if_neg (fun h => hname h.1)]
      constructor
      · intro h
        have hsame : "Name".toList = b.attr :=
          congrArg PtqlParseBranch.attr (Except.ok.inj h)
        rw [hattr] at hsame
        exact absurd hsame (by decide)
      · intro h
        exact absurd (h hattr) hname
  · rw [if_neg hattr, if_neg (fun h => hattr h.2)]
    exact ⟨fun _ h => absurd h hattr, fun _ => rfl⟩

/-! ## A list of branches -/

theorem pieces_no_comma {text : CStr} (h : ',' ∉ text) : pieces text = [text] := by
  rw [pieces_eq, cut_eq_none h]

theorem pieces_append_comma {text : CStr} (h : ',' ∉ text) (rest : CStr) :
    pieces (text ++ ',' :: rest) = if rest = [] then [text] else text :: pieces rest := by
  rw [pieces_eq, cut_append rest h]

theorem renderQuery_ne_nil : ∀ {bs : List BranchText}, bs ≠ [] → renderQuery bs ≠ [] := by
  intro bs hbs
  match bs with
  | [] => exact absurd rfl hbs
  | [b] => simp [renderQuery, BranchText.render]
  | b :: b' :: rest => simp [renderQuery, BranchText.render]

/-- The loop of `sigar_ptql_query_create` finds the rendered branches, and a comma at the end
    changes nothing. -/
theorem pieces_renderQuery : ∀ {bs : List BranchText}, bs ≠ [] → (∀ b ∈ bs, b.Valid) →
    pieces (renderQuery bs) = bs.map (·.render) ∧
    pieces (renderQuery bs ++ [',']) = bs.map (·.render) := by
  intro bs
  induction bs with
  | nil => intro hbs; exact absurd rfl hbs
  | cons b rest ih =>
    intro _ hvalid
    have hb : ',' ∉ b.render := (hvalid b mem_cons_self).render_no_comma
    cases rest with
    | nil =>
      refine ⟨pieces_no_comma hb, ?_⟩
      show pieces (b.render ++ ',' :: []) = _
      rw [pieces_append_comma hb, if_pos rfl]
      rfl
    | cons b' more =>
      have hmore : ∀ x ∈ b' :: more, x.Valid := fun x hx => hvalid x (mem_cons_of_mem b hx)
      have hne : b' :: more ≠ [] := cons_ne_nil _ _
      obtain ⟨hplain, htrail⟩ := ih hne hmore
      constructor
      · show pieces (b.render ++ ',' :: renderQuery (b' :: more)) = _
        rw [pieces_append_comma hb, if_neg (renderQuery_ne_nil hne), hplain]
        rfl
      · show pieces (b.render ++ ',' :: renderQuery (b' :: more) ++ [',']) = _
        have hne' : renderQuery (b' :: more) ++ [','] ≠ [] := by simp
        rw [append_assoc, cons_append, pieces_append_comma hb, if_neg hne', htrail]
        rfl

/-! ## The pieces that are rejected -/

/-- No `=`, fewer than two `.` before the first `=`, nothing between the second `.` and the `=`,
    or a modifier that is neither `P` nor `I`. -/
inductive Rejectable : CStr → Prop where
  | noEq {piece : CStr} : '=' ∉ piece → Rejectable piece
  | noDot {query value : CStr} : '=' ∉ query → '.' ∉ query → Rejectable (query ++ '=' :: value)
  | oneDot {name query value : CStr} : '=' ∉ name ++ '.' :: query → '.' ∉ name → '.' ∉ query →
      Rejectable (name ++ '.' :: query ++ '=' :: value)
  | noOperator {name attr value : CStr} : Plain name → Plain attr →
      Rejectable (name ++ '.' :: (attr ++ '.' :: []) ++ '=' :: value)
  | modifier {name attr modifiers rest value : CStr} {c : Char} : Plain name → Plain attr →
      (∀ x ∈ modifiers, IsModifier x) → c.isUpper = true → ¬ IsModifier c → '=' ∉ rest →
      Rejectable (name ++ '.' :: (attr ++ '.' :: (modifiers ++ c :: rest)) ++ '=' :: value)

theorem isUpper_ne_eq {c : Char} (h : c.isUpper = true) : c ≠ '=' := by
  rintro rfl
  exact absurd h (by decide)

theorem ptqlBranchParse_rejects {piece : CStr} (h : Rejectable piece) :
    ∃ message, ptqlBranchParse piece = .error message := by
  cases h with
  | noEq heq =>
    unfold ptqlBranchParse
    rw [cut_eq_none heq]
    exact ⟨_, rfl⟩
  | noDot heq hdot =>
    unfold ptqlBranchParse
    simp only [cut_append _ heq, cut_eq_none hdot]
    exact ⟨_, rfl⟩
  | oneDot heq hname hquery =>
    unfold ptqlBranchParse
    simp only [cut_append _ heq, cut_append _ hname, cut_eq_none hquery]
    exact ⟨_, rfl⟩
  | @noOperator name attr value hname hattr =>
    have heq : '=' ∉ name ++ '.' :: (attr ++ '.' :: []) := by
      simp only [mem_append, mem_cons, not_mem_nil, not_or]
      exact ⟨hname.2.1, by decide, hattr.2.1, by decide, not_false⟩
    rw [ptqlBranchParse_append hname.1 hattr.1 heq, if_pos rfl]
    exact ⟨_, rfl⟩
  | @modifier name attr modifiers rest value c hname hattr hmod hupper hc hrest =>
    have heq : '=' ∉ name ++ '.' :: (attr ++ '.' :: (modifiers ++ c :: rest)) := by
      simp only [mem_append, mem_cons, not_or]
      exact ⟨hname.2.1, by decide, hattr.2.1, by decide, modifiers_no_eq hmod,
        (isUpper_ne_eq hupper).symm, hrest⟩
    obtain ⟨message, hmessage⟩ := parseModifiers_unsupported modifiers rest c {} hmod hupper hc
    rw [ptqlBranchParse_append hname.1 hattr.1 heq, if_neg (by simp), hmessage]
    exact ⟨message, rfl⟩

/-! ## The round trip -/

/-- The pieces of the text, with or without a comma at its end, parse to the components of the
    branches in order, and what is malformed is rejected. -/
def ParsesBack (bs : List BranchText) : Prop :=
  (pieces (renderQuery bs)).map ptqlBranchParse = bs.map (fun b => .ok b.components) ∧
  (pieces (renderQuery bs ++ [','])).map ptqlBranchParse = bs.map (fun b => .ok b.components) ∧
  ∀ piece, Rejectable piece → ∃ message, ptqlBranchParse piece = .error message

/-- **The round trip**, and the one thing that breaks it. -/
theorem renderQuery_parses (bs : List BranchText) (hbs : bs ≠ []) (hvalid : ∀ b ∈ bs, b.Valid) :
    ParsesBack bs ↔ ∀ b ∈ bs, b.attr = "Service".toList → b.name = "Pid".toList := by
  obtain ⟨hplain, htrail⟩ := pieces_renderQuery hbs hvalid
  have hmap : (bs.map (·.render)).map ptqlBranchParse = bs.map (fun b => .ok b.components) ↔
      ∀ b ∈ bs, b.attr = "Service".toList → b.name = "Pid".toList := by
    rw [map_map, map_inj_left]
    constructor
    · intro h b hb
      exact (ptqlBranchParse_render_iff (hvalid b hb)).mp (h b hb)
    · intro h b hb
      exact (ptqlBranchParse_render_iff (hvalid b hb)).mpr (h b hb)
  unfold ParsesBack
  rw [hplain, htrail, hmap]
  exact ⟨fun h => h.1, fun h => ⟨h, h, fun _ => ptqlBranchParse_rejects⟩⟩

theorem areModifiers_of_all (h : (modifiers.all fun c => decide (IsModifier c)) = true) :
    ∀ c ∈ modifiers, IsModifier c :=
  fun c hc => of_decide_eq_true (all_eq_true.mp h c hc)

def stateText : BranchText :=
  ⟨"State".toList, "Name".toList, "PI".toList, "eq".toList, "a.b=c".toList⟩

theorem stateText_valid : stateText.Valid where
  name := by decide
  attr := by decide
  modifiers := areModifiers_of_all (by decide)
  op_ne := by decide
  op_eq := by decide
  op_comma := by decide
  op_upper := by decide
  value := by decide

theorem renderQuery_parses_example : ParsesBack [stateText, stateText] := by
  refine (renderQuery_parses [stateText, stateText] (by decide) ?_).mpr ?_
  · intro b hb
    rcases mem_cons.mp hb with rfl | hb
    · exact stateText_valid
    · obtain rfl := mem_singleton.mp hb
      exact stateText_valid
  · decide

/-- The environment variable `Service`. -/
def envServiceText : BranchText :=
  ⟨"Env".toList, "Service".toList, [], "eq".toList, "x".toList⟩

/-- **`Env.Service.eq=x` is read as `Service.Name.eq=x`.** -/
theorem envService_rewritten :
    envServiceText.render = "Env.Service.eq=x".toList ∧ envServiceText.Valid ∧
    ptqlBranchParse envServiceText.render
      = .ok ⟨"Service".toList, "Name".toList, "eq".toList, "x".toList, {}⟩ ∧
    ¬ ParsesBack [envServiceText] := by
  have hparse : ptqlBranchParse envServiceText.render
      = .ok ⟨"Service".toList, "Name".toList, "eq".toList, "x".toList, {}⟩ := by rfl
  refine ⟨by decide, ?_, hparse, ?_⟩
  · exact
    { name := by decide
      attr := by decide
      modifiers := areModifiers_of_all (by decide)
      op_ne := by decide
      op_eq := by decide
      op_comma := by decide
      op_upper := by decide
      value := by decide }
  · rintro ⟨hback, _⟩
    have hhead : ptqlBranchParse envServiceText.render = .ok envServiceText.components :=
      (cons.inj hback).1
    rw [hparse] at hhead
    exact absurd (Except.ok.inj hhead) (by decide)

end Sigar.Ptql
