/-
  Computations that log events and can stop with a fault.

  A fault is where the C standard gives the program no meaning: nothing after it is said.  What
  was logged before it stays.  `All P` says that every event that is logged satisfies `P`; its
  rules go through a computation from left to right, with what each part returned.
-/
import Mathlib.Data.List.Basic

structure Logged (ω ε α : Type) where
  log : List ω
  res : Except ε α

namespace Logged

open List

variable {ω ε α β : Type}

protected def pure (a : α) : Logged ω ε α := ⟨[], .ok a⟩

protected def bind (x : Logged ω ε α) (f : α → Logged ω ε β) : Logged ω ε β :=
  match x.res with
  | .error e => ⟨x.log, .error e⟩
  | .ok a => ⟨x.log ++ (f a).log, (f a).res⟩

instance : Monad (Logged ω ε) where
  pure := Logged.pure
  bind := Logged.bind

/-- Log one event. -/
def emit (event : ω) : Logged ω ε Unit := ⟨[event], .ok ()⟩

/-- Stop. -/
def fault (e : ε) : Logged ω ε α := ⟨[], .error e⟩

@[simp] theorem res_pure (a : α) : (pure a : Logged ω ε α).res = .ok a := rfl
@[simp] theorem log_pure (a : α) : (pure a : Logged ω ε α).log = [] := rfl
@[simp] theorem res_emit (event : ω) : (emit event : Logged ω ε Unit).res = .ok () := rfl
@[simp] theorem log_emit (event : ω) : (emit event : Logged ω ε Unit).log = [event] := rfl
@[simp] theorem res_fault (e : ε) : (fault e : Logged ω ε α).res = .error e := rfl
@[simp] theorem log_fault (e : ε) : (fault e : Logged ω ε α).log = [] := rfl

@[simp] theorem res_bind (x : Logged ω ε α) (f : α → Logged ω ε β) :
    (x >>= f).res = x.res >>= fun a => (f a).res := by
  obtain ⟨log, res⟩ := x
  cases res <;> rfl

variable {x : Logged ω ε α} {f : α → Logged ω ε β} {a : α}

/-- A computation that returns has returned from its first part. -/
theorem res_bind_eq_ok {b : β} :
    (x >>= f).res = .ok b ↔ ∃ a, x.res = .ok a ∧ (f a).res = .ok b := by
  obtain ⟨log, res⟩ := x
  cases res with
  | error e =>
    constructor
    · intro h
      exact nomatch h
    · rintro ⟨_, h, _⟩
      exact nomatch h
  | ok a =>
    constructor
    · intro h
      exact ⟨a, rfl, h⟩
    · rintro ⟨a', ha, h⟩
      obtain rfl := Except.ok.inj ha
      exact h

theorem res_bind_ok (h : x.res = .ok a) (f : α → Logged ω ε β) :
    (x >>= f).res = (f a).res := by
  rw [res_bind, h]
  rfl

theorem log_bind_ok (h : x.res = .ok a) (f : α → Logged ω ε β) :
    (x >>= f).log = x.log ++ (f a).log := by
  obtain ⟨log, res⟩ := x
  obtain rfl : res = .ok a := h
  rfl

theorem log_bind_error {e : ε} (h : x.res = .error e)
    (f : α → Logged ω ε β) : (x >>= f).log = x.log := by
  obtain ⟨log, res⟩ := x
  obtain rfl : res = .error e := h
  rfl

@[simp] theorem log_bind_pure (x : Logged ω ε α) (f : α → β) :
    (x >>= fun a => (pure (f a) : Logged ω ε β)).log = x.log := by
  obtain ⟨log, res⟩ := x
  cases res with
  | error e => rfl
  | ok a => exact append_nil log

/-! ## What every event satisfies -/

def All (P : ω → Prop) (x : Logged ω ε α) : Prop := ∀ event ∈ x.log, P event

variable {P : ω → Prop}

theorem all_pure (a : α) : (pure a : Logged ω ε α).All P := by
  intro event h
  exact absurd h not_mem_nil

theorem all_fault (e : ε) : (fault e : Logged ω ε α).All P := by
  intro event h
  exact absurd h not_mem_nil

theorem all_emit {event : ω} : (emit event : Logged ω ε Unit).All P ↔ P event := by
  simp [All]

theorem all_bind (hx : x.All P)
    (hf : ∀ a, x.res = .ok a → (f a).All P) : (x >>= f).All P := by
  intro event hevent
  cases hres : x.res with
  | error e =>
    rw [log_bind_error hres] at hevent
    exact hx event hevent
  | ok a =>
    rw [log_bind_ok hres, mem_append] at hevent
    rcases hevent with h | h
    · exact hx event h
    · exact hf a hres event h

theorem mem_log_bind_left {event : ω} (h : event ∈ x.log)
    (f : α → Logged ω ε β) : event ∈ (x >>= f).log := by
  cases hres : x.res with
  | error e => rw [log_bind_error hres]; exact h
  | ok a => rw [log_bind_ok hres]; exact mem_append_left _ h

theorem mem_log_bind_right {event : ω} (hres : x.res = .ok a)
    (h : event ∈ (f a).log) : event ∈ (x >>= f).log := by
  rw [log_bind_ok hres]
  exact mem_append_right _ h

/-- What holds of a whole computation holds of its first part, and of the rest if that returned. -/
theorem all_of_bind (h : (x >>= f).All P) :
    x.All P ∧ ∀ a, x.res = .ok a → (f a).All P :=
  ⟨fun event hevent => h event (mem_log_bind_left hevent f),
    fun _ hres event hevent => h event (mem_log_bind_right hres hevent)⟩

end Logged
