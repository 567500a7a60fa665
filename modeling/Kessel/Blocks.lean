import Kessel.Ledger

/-!
# Kessel.Blocks

The blocks of an allocator.

An allocation that is granted answers a block that was never there before; the
account of the blocks notes as a fault what is used or freed when it is not
there.  A program `Owns` the blocks that it has not freed, in any order, each of
them once.

* `Owns.settled` — who owns nothing has freed every block it was given, once.
-/

/-- An allocator: the next block, and the account.  Block `0` is never answered:
it stands for memory that is not the allocator's. -/
structure Blocks where
  next : Nat
  ledger : Ledger Nat

namespace Blocks

variable {b : Blocks} {xs ys : List Nat} {x : Nat}

/-! ## the operations -/

def init : Blocks := ⟨1, .empty⟩

/-- `malloc`, when it is granted. -/
def malloc (b : Blocks) : Blocks × Nat := (⟨b.next + 1, b.ledger.take b.next⟩, b.next)

def free (b : Blocks) (x : Nat) : Blocks := { b with ledger := b.ledger.give x }

def freeAll (b : Blocks) (xs : List Nat) : Blocks := xs.foldl free b

/-- Read or write a block. -/
def touch (b : Blocks) (x : Nat) : Blocks := { b with ledger := b.ledger.touch x }

def touchAll (b : Blocks) (xs : List Nat) : Blocks := xs.foldl touch b

/-! ## what is owned -/

/-- These blocks have been allocated and not freed, and nothing has gone wrong. -/
structure Owns (b : Blocks) (xs : List Nat) : Prop where
  nodup : xs.Nodup
  holds : b.ledger.Holds xs.toFinset
  once : b.ledger.taken.Nodup
  lt : ∀ x ∈ b.ledger.taken, x < b.next

theorem owns_init : init.Owns [] :=
  ⟨List.nodup_nil, Ledger.holds_empty, List.nodup_nil, by simp [init, Ledger.empty]⟩

/-- The order of the blocks does not matter. -/
theorem Owns.perm (h : b.Owns xs) (hp : xs.Perm ys) : b.Owns ys :=
  ⟨hp.nodup_iff.mp h.nodup, List.toFinset_eq_of_perm _ _ hp ▸ h.holds, h.once, h.lt⟩

/-- A new block is a fresh one. -/
theorem Owns.next_notMem (h : b.Owns xs) : b.next ∉ xs := fun hmem =>
  Nat.lt_irrefl _ (h.lt _ (h.holds.taken_of_mem (by simpa using hmem)))

/-- A new block is none of those that are owned. -/
theorem Owns.malloc (h : b.Owns xs) : b.malloc.1.Owns (b.malloc.2 :: xs) := by
  have hnew : b.next ∉ xs.toFinset := by simpa using h.next_notMem
  have htaken : b.malloc.1.ledger.taken = b.ledger.taken ++ [b.next] := h.holds.take_taken hnew
  refine ⟨List.nodup_cons.mpr ⟨h.next_notMem, h.nodup⟩, ?_, ?_, ?_⟩
  · have htake := h.holds.take hnew
    rwa [← List.toFinset_cons] at htake
  · rw [htaken, ← List.concat_eq_append]
    exact h.once.concat fun hmem => Nat.lt_irrefl _ (h.lt _ hmem)
  · intro x hx
    rw [htaken, List.mem_append, List.mem_singleton] at hx
    rcases hx with hx | rfl
    · exact Nat.lt_succ_of_lt (h.lt x hx)
    · exact Nat.lt_succ_self _

/-- A block that is owned may be freed. -/
theorem Owns.free (h : b.Owns (x :: xs)) : (b.free x).Owns xs := by
  obtain ⟨hx, hnodup⟩ := List.nodup_cons.mp h.nodup
  have htaken : (b.free x).ledger.taken = b.ledger.taken := Ledger.give_taken _ _
  refine ⟨hnodup, ?_, htaken ▸ h.once, htaken ▸ h.lt⟩
  have hholds := h.holds
  rw [List.toFinset_cons] at hholds
  exact hholds.give_insert (by simpa using hx)

/-- So may a list of them. -/
theorem Owns.freeAll (h : b.Owns (ys ++ xs)) : (b.freeAll ys).Owns xs := by
  induction ys generalizing b with
  | nil => exact h
  | cons y ys ih => exact ih (Owns.free h)

/-- An owned block can be used. -/
theorem Owns.touch (h : b.Owns xs) (hx : x ∈ xs) : b.touch x = b := by
  rw [Blocks.touch, h.holds.touch (by simpa using hx)]

/-- Touching what is owned is no error. -/
theorem Owns.touchAll (h : b.Owns xs) (hys : ys ⊆ xs) : b.touchAll ys = b := by
  induction ys with
  | nil => rfl
  | cons y ys ih =>
    rw [List.cons_subset] at hys
    rw [Blocks.touchAll, List.foldl_cons, h.touch hys.1]
    exact ih hys.2

/-- **Who owns nothing has freed everything**, each block once. -/
theorem Owns.settled (h : b.Owns []) :
    b.ledger.faults = [] ∧ b.ledger.taken.Perm b.ledger.given ∧ b.ledger.given.Nodup :=
  ⟨h.holds.clean, h.holds.settled, h.holds.settled.nodup_iff.mp h.once⟩

end Blocks
