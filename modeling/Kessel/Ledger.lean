import Mathlib.Data.Finset.Basic
import Mathlib.Data.List.Perm.Basic

/-!
# Kessel.Ledger

What a program takes from its environment and gives back.

A `Ledger` is kept by the environment: it knows what is held, lists what was
taken and given back, and notes as a fault whatever is taken while it is held or
looked at or given back while it is not.  `Holds` is the state of a program
without faults; every operation has one rule for it.

* `Holds.settled` — who holds nothing has given back what was taken, each as
  often as it was taken.
-/

universe u

/-- An account of things taken and given back. -/
structure Ledger (α : Type u) where
  held : Finset α
  taken : List α
  given : List α
  faults : List α

namespace Ledger

variable {α : Type u} [DecidableEq α] {l : Ledger α} {rs : Finset α} {r : α}

/-! ## the operations -/

def empty : Ledger α := ⟨∅, [], [], []⟩

def take (l : Ledger α) (r : α) : Ledger α :=
  if r ∈ l.held then { l with faults := l.faults ++ [r] }
  else { l with held := insert r l.held, taken := l.taken ++ [r] }

def give (l : Ledger α) (r : α) : Ledger α :=
  if r ∈ l.held then { l with held := l.held.erase r, given := l.given ++ [r] }
  else { l with faults := l.faults ++ [r] }

/-- Look at what should be held. -/
def touch (l : Ledger α) (r : α) : Ledger α :=
  if r ∈ l.held then l else { l with faults := l.faults ++ [r] }

/-- Giving back takes nothing. -/
theorem give_taken (l : Ledger α) (r : α) : (l.give r).taken = l.taken := by
  unfold give
  split <;> rfl

/-! ## accounts without faults -/

/-- Nothing has gone wrong, and exactly `rs` has not been given back. -/
structure Holds (l : Ledger α) (rs : Finset α) : Prop where
  held : l.held = rs
  clean : l.faults = []
  balance : ∀ r, l.taken.count r = l.given.count r + if r ∈ rs then 1 else 0

/-- At first nothing is held. -/
theorem holds_empty : (empty : Ledger α).Holds ∅ := ⟨rfl, rfl, by simp [empty]⟩

/-- What is not held may be taken. -/
theorem Holds.take (h : l.Holds rs) (hr : r ∉ rs) : (l.take r).Holds (insert r rs) := by
  have hfree : r ∉ l.held := h.held ▸ hr
  rw [Ledger.take, if_neg hfree]
  refine ⟨by rw [h.held], h.clean, fun x => ?_⟩
  have hx := h.balance x
  by_cases heq : x = r
  · subst heq
    rw [if_neg hr] at hx
    simpa using hx
  · simpa [heq, Ne.symm heq] using hx

/-- What is held may be given back. -/
theorem Holds.give (h : l.Holds rs) (hr : r ∈ rs) : (l.give r).Holds (rs.erase r) := by
  have hheld : r ∈ l.held := h.held ▸ hr
  rw [Ledger.give, if_pos hheld]
  refine ⟨by rw [h.held], h.clean, fun x => ?_⟩
  have hx := h.balance x
  by_cases heq : x = r
  · subst heq
    rw [if_pos hr] at hx
    simpa using hx
  · simpa [heq, Ne.symm heq] using hx

/-- What was just taken is given back. -/
theorem Holds.give_insert (h : l.Holds (insert r rs)) (hr : r ∉ rs) : (l.give r).Holds rs := by
  have hgive := h.give (Finset.mem_insert_self r rs)
  rwa [Finset.erase_insert hr] at hgive

theorem Holds.take_give (h : l.Holds rs) (hr : r ∉ rs) : ((l.take r).give r).Holds rs :=
  (h.take hr).give_insert hr

/-- What is taken and not held already is noted. -/
theorem Holds.take_taken (h : l.Holds rs) (hr : r ∉ rs) : (l.take r).taken = l.taken ++ [r] := by
  rw [Ledger.take, if_neg (h.held.symm ▸ hr)]

/-- What is held has been taken. -/
theorem Holds.taken_of_mem (h : l.Holds rs) (hr : r ∈ rs) : r ∈ l.taken := by
  have hcount := h.balance r
  rw [if_pos hr] at hcount
  exact List.count_pos_iff.mp (by omega)

/-- Touching what is held is no error. -/
theorem Holds.touch (h : l.Holds rs) (hr : r ∈ rs) : l.touch r = l := by
  rw [Ledger.touch, if_pos (h.held.symm ▸ hr)]

/-- **Who holds nothing has given everything back**, each thing as often as it was
taken. -/
theorem Holds.settled (h : l.Holds ∅) : l.taken.Perm l.given :=
  List.perm_iff_count.mpr fun r => by simpa using h.balance r

end Ledger
