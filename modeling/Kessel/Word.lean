import Mathlib.Tactic

/-!
# Kessel.Word

Unsigned 64-bit arithmetic on `Nat`: a C `size_t` or `uint64_t` is a natural
number, and every operation that may wrap is written with `u64`.

Everything here is proved once so the models never redo modular arithmetic.
This module names no data structure and no program.
-/

namespace Word

/-- The largest value of a 64-bit unsigned integer (`SIZE_MAX`, `UINT64_MAX`).
Irreducible, so that no unification counts up to it. -/
@[irreducible] def sizeMax : Nat := 2 ^ 64 - 1

/-- The value a 64-bit unsigned variable holds after being assigned `n`. -/
@[irreducible] def u64 (n : Nat) : Nat := n % 2 ^ 64

/-- The value of an unsigned 64-bit `n` after `--n`. -/
def dec64 (n : Nat) : Nat := if n = 0 then sizeMax else n - 1

/-- The value of `(int64_t)n` for an unsigned 64-bit `n`. -/
def i64 (n : Nat) : Int := if n < 2 ^ 63 then (n : Int) else (n : Int) - 2 ^ 64

theorem u64_lt (n : Nat) : u64 n < 2 ^ 64 := by
  unfold u64
  exact Nat.mod_lt _ (by decide)

/-- A value in range is stored as it is. -/
theorem u64_of_lt {n : Nat} (h : n < 2 ^ 64) : u64 n = n := by
  unfold u64
  exact Nat.mod_eq_of_lt h

/-- Decrementing a positive counter does not wrap. -/
theorem dec64_of_pos {n : Nat} (hpos : 0 < n) : dec64 n = n - 1 := by
  unfold dec64
  rw [if_neg (by omega)]

/-- A quotient by 1000 keeps its value when it is read back as signed. -/
theorem i64_div_thousand {n : Nat} (h : n < 2 ^ 64) : i64 (n / 1000) = ((n / 1000 : Nat) : Int) := by
  unfold i64
  rw [if_pos (by omega)]

/-- A counter that is not full counts one more. -/
theorem toNat_add_one {a : UInt64} {n : Nat} (h : a.toNat = n) (hn : n + 1 < 2 ^ 64) :
    (a + 1).toNat = n + 1 := by
  have hone : (1 : UInt64).toNat = 1 := rfl
  rw [UInt64.toNat_add, h, hone]
  exact Nat.mod_eq_of_lt hn

/-- A counter gives back no more than it counted. -/
theorem toNat_sub_ofNat {a : UInt64} {n k : Nat} (h : a.toNat = n) (hk : k ≤ n) :
    (a - UInt64.ofNat k).toNat = n - k := by
  have hlt := a.toNat_lt
  have hofNat : (UInt64.ofNat k).toNat = k := by
    rw [UInt64.toNat_ofNat']
    exact Nat.mod_eq_of_lt (by omega)
  rw [UInt64.toNat_sub, h, hofNat]
  omega

/-- Masking with a power of two minus one is the remainder by that power. -/
theorem and_pred_two_pow (x k : Nat) : x &&& (2 ^ k - 1) = x % 2 ^ k :=
  Nat.and_two_pow_sub_one_eq_mod x k

end Word
