/-
  Blocks of memory that are allocated and freed.

  A block is known by its address, and every block gets an address of its own.  The size of an
  address is that of the block there, and there is none once the block is freed: `free`, `realloc`
  and `use` of such an address FAIL.  Allocation does not.
-/
import Mathlib.Data.List.Basic

namespace Blocks

/-- The allocated blocks. -/
structure Heap where
  next : Nat
  size : Nat → Option Nat

/-- Nothing is allocated. -/
def Heap.empty : Heap := ⟨0, fun _ => none⟩

/-- A block is there. -/
def Heap.Live (heap : Heap) (addr : Nat) : Prop := (heap.size addr).isSome = true

instance (heap : Heap) (addr : Nat) : Decidable (heap.Live addr) :=
  inferInstanceAs (Decidable (_ = true))

variable {ε : Type} (fault : ε)

/-- `malloc`. -/
def malloc (heap : Heap) (n : Nat) : Heap × Nat :=
  (⟨heap.next + 1, fun addr => if addr = heap.next then some n else heap.size addr⟩, heap.next)

/-- A block that is read or written. -/
def use (heap : Heap) (addr : Nat) : Except ε Unit := if heap.Live addr then .ok () else .error fault

/-- `free`. -/
def free (heap : Heap) (addr : Nat) : Except ε Heap :=
  if heap.Live addr then .ok ⟨heap.next, fun a => if a = addr then none else heap.size a⟩
  else .error fault

/-- `realloc`; `NULL` is no block. -/
def realloc (heap : Heap) (addr : Option Nat) (n : Nat) : Except ε (Heap × Nat) :=
  match addr with
  | none => .ok (malloc heap n)
  | some addr => (free fault heap addr).map (malloc · n)

variable {fault} {heap : Heap}

theorem malloc_size (n : Nat) : (malloc heap n).1.size (malloc heap n).2 = some n := if_pos rfl

theorem live_of_size {addr n : Nat} (h : heap.size addr = some n) : heap.Live addr := by
  rw [Heap.Live, h]
  rfl

theorem use_live {addr : Nat} (h : heap.Live addr) : use fault heap addr = .ok () := if_pos h

theorem free_live {addr : Nat} (h : heap.Live addr) :
    ∃ heap', free fault heap addr = .ok heap' ∧ ¬ heap'.Live addr := by
  refine ⟨_, if_pos h, ?_⟩
  show ¬ (if addr = addr then none else heap.size addr).isSome = true
  rw [if_pos rfl]
  exact Bool.false_ne_true

/-- **`realloc`** gives a block of the new size, if the old one is there. -/
theorem realloc_live {addr : Option Nat} (n : Nat) (h : ∀ a, addr = some a → heap.Live a) :
    ∃ heap' a, realloc fault heap addr n = .ok (heap', a) ∧ heap'.size a = some n := by
  cases addr with
  | none => exact ⟨_, _, rfl, malloc_size n⟩
  | some a =>
    obtain ⟨heap', hfree, -⟩ := @free_live ε fault heap a (h a rfl)
    refine ⟨_, _, ?_, @malloc_size heap' n⟩
    rw [realloc, hfree]
    rfl

end Blocks
