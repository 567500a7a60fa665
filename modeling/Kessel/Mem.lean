import Mathlib.Tactic
import Mathlib.Data.List.TakeWhile

/-!
# Kessel.Mem

Byte memory and C strings.

A block of memory is a function from offsets to bytes, so copying needs no side
condition on lengths and a write past the end of a block is visible.  Reading a
range gives a list of bytes; the lemmas relate the lists read before and after a
write.  This module names no program.
-/

/-- A fact about bytes, checked for each of them. -/
theorem forall_byte {p : UInt8 → Prop} (h : ∀ n : Fin 256, p (UInt8.ofNat n)) (c : UInt8) : p c := by
  simpa using h ⟨c.toNat, c.toNat_lt⟩

/-- The bytes of a block of memory, by offset. -/
abbrev Mem := Nat → UInt8

namespace Mem

/-- The `n` bytes from offset `i`. -/
def read (m : Mem) (i n : Nat) : List UInt8 := (List.range n).map fun k => m (i + k)

/-- One byte stored at offset `i`. -/
def set (m : Mem) (i : Nat) (b : UInt8) : Mem := fun j => if j = i then b else m j

/-- The bytes `bs` stored from offset `i`: `memcpy(m + i, bs, |bs|)`. -/
def write (m : Mem) (i : Nat) (bs : List UInt8) : Mem := fun j =>
  if i ≤ j ∧ j < i + bs.length then bs.getD (j - i) 0 else m j

/-- `memmove(m + dst, m + src, n)` -/
def move (m : Mem) (dst src n : Nat) : Mem := m.write dst (m.read src n)

/-- `memchr(m + p, c, n)`: the offset of the first `c`. -/
def memchr (m : Mem) (p n : Nat) (c : UInt8) : Option Nat :=
  ((List.range n).find? fun k => m (p + k) = c).map (p + ·)

/-! ## reading -/

@[simp] theorem length_read (m : Mem) (i n : Nat) : (m.read i n).length = n := by simp [read]

@[simp] theorem read_zero (m : Mem) (i : Nat) : m.read i 0 = [] := rfl

/-- A byte that is read. -/
theorem getElem_read (m : Mem) (i n k : Nat) (h : k < (m.read i n).length) :
    (m.read i n)[k] = m (i + k) := by simp [read]

/-- Two stretches are read one after the other. -/
theorem read_add (m : Mem) (i a b : Nat) : m.read i (a + b) = m.read i a ++ m.read (i + a) b := by
  simp [read, List.range_add, Nat.add_assoc, Function.comp_def]

/-- A range splits at any of its offsets. -/
theorem read_split (m : Mem) {i a n : Nat} (h : a ≤ n) :
    m.read i n = m.read i a ++ m.read (i + a) (n - a) := by
  rw [← read_add, Nat.add_sub_cancel' h]

/-- The first byte that is read, and the rest. -/
theorem read_succ (m : Mem) (i n : Nat) : m.read i (n + 1) = m i :: m.read (i + 1) n := by
  rw [Nat.add_comm, read_add]
  rfl

/-- Equal bytes read the same. -/
theorem read_congr {m m' : Mem} {i i' n : Nat} (h : ∀ k < n, m (i + k) = m' (i' + k)) :
    m.read i n = m'.read i' n := by
  unfold read
  refine List.map_congr_left fun k hk => h k (by simpa using hk)

/-- What is read is found in memory. -/
theorem mem_read {m : Mem} {i n : Nat} {b : UInt8} :
    b ∈ m.read i n ↔ ∃ k < n, m (i + k) = b := by simp [read]

/-- The front of what is read. -/
theorem take_read (m : Mem) {i a n : Nat} (h : a ≤ n) : (m.read i n).take a = m.read i a := by
  rw [read_split m h, List.take_left' (length_read ..)]

/-! ## writing -/

/-- A write leaves what lies in front of it. -/
theorem write_of_lt (m : Mem) {i j : Nat} (bs : List UInt8) (h : j < i) : m.write i bs j = m j := by
  unfold write
  rw [if_neg (by omega)]

/-- A write leaves what lies behind it. -/
theorem write_of_ge (m : Mem) {i j : Nat} {bs : List UInt8} (h : i + bs.length ≤ j) :
    m.write i bs j = m j := by
  unfold write
  rw [if_neg (by omega)]

/-- What was written is read back. -/
theorem read_write (m : Mem) (i : Nat) (bs : List UInt8) :
    (m.write i bs).read i bs.length = bs := by
  refine List.ext_getElem (by simp) fun k h₁ h₂ => ?_
  rw [getElem_read, write, if_pos (by omega)]
  simp [h₂]

/-- A write does not change what lies before it. -/
theorem read_write_before (m : Mem) {i j n : Nat} (bs : List UInt8) (h : j + n ≤ i) :
    (m.write i bs).read j n = m.read j n :=
  read_congr fun _ hk => write_of_lt _ _ (by omega)

/-- Appending behind `n` bytes. -/
theorem read_write_append (m : Mem) (i n : Nat) (bs : List UInt8) :
    (m.write (i + n) bs).read i (n + bs.length) = m.read i n ++ bs := by
  rw [read_add, read_write_before _ _ (le_refl _), read_write]

/-- Moving a range to the front of the block. -/
theorem read_move (m : Mem) (dst src n : Nat) : (m.move dst src n).read dst n = m.read src n := by
  have := read_write m dst (m.read src n)
  rwa [length_read] at this

theorem set_same (m : Mem) (i : Nat) (b : UInt8) : m.set i b i = b := by simp [set]

theorem set_of_ne (m : Mem) {i j : Nat} (b : UInt8) (h : j ≠ i) : m.set i b j = m j := by
  simp [set, h]

/-- A byte that is set is not seen elsewhere. -/
theorem read_set_of_notin (m : Mem) {i j n : Nat} (b : UInt8) (h : i < j ∨ j + n ≤ i) :
    (m.set i b).read j n = m.read j n :=
  read_congr fun _ hk => set_of_ne _ _ (by omega)

/-! ## searching -/

/-- `memchr` finds nothing when the byte is not there. -/
theorem memchr_eq_none {m : Mem} {p n : Nat} {c : UInt8} :
    m.memchr p n c = none ↔ c ∉ m.read p n := by
  simp [memchr, mem_read]

/-- The first `c` of a range splits it. -/
theorem memchr_eq_some {m : Mem} {p n i : Nat} {c : UInt8} (h : m.memchr p n c = some i) :
    p ≤ i ∧ i < p + n ∧ m i = c ∧ c ∉ m.read p (i - p) := by
  obtain ⟨k, hk, rfl⟩ := Option.map_eq_some_iff.mp h
  obtain ⟨hc, hlt, hfirst⟩ := List.find?_range_eq_some.mp hk
  refine ⟨by omega, by simp at hlt; omega, by simpa using hc, ?_⟩
  rw [mem_read]
  rintro ⟨j, hj, hmj⟩
  have := hfirst j (by omega)
  simp [hmj] at this

/-! ## framing -/

/-- The two memories differ only in the bytes from `a` up to `b`. -/
def AgreeOutside (a b : Nat) (m m' : Mem) : Prop := ∀ i, i < a ∨ b ≤ i → m' i = m i

namespace AgreeOutside

variable {a b c d : Nat} {m m' m'' : Mem}

theorem refl (a b : Nat) (m : Mem) : AgreeOutside a b m m := fun _ _ => rfl

/-- Memories agree outside a larger stretch. -/
theorem mono (h : AgreeOutside a b m m') (hca : c ≤ a) (hbd : b ≤ d) : AgreeOutside c d m m' :=
  fun i hi => h i (by omega)

/-- Agreement goes on. -/
theorem trans (h : AgreeOutside a b m m') (h' : AgreeOutside a b m' m'') : AgreeOutside a b m m'' :=
  fun i hi => (h' i hi).trans (h i hi)

/-- Nothing lies in an empty stretch. -/
theorem eq (h : AgreeOutside a b m m') (hle : b ≤ a) : m' = m := funext fun i => h i (by omega)

/-- A byte that is set within the stretch. -/
theorem set (h : AgreeOutside a b m m') {i : Nat} (hi : a ≤ i ∧ i < b) (v : UInt8) :
    AgreeOutside a b m (m'.set i v) := by
  intro j hj
  rw [set_of_ne m' v (by omega)]
  exact h j hj

/-- What is read outside is the same. -/
theorem read_eq (h : AgreeOutside a b m m') {i n : Nat} (hi : i + n ≤ a ∨ b ≤ i) :
    m'.read i n = m.read i n :=
  read_congr fun _ hk => h _ (by omega)

end AgreeOutside

end Mem

/-! ## C strings -/

/-- A NUL-terminated string, without its terminator. -/
structure CStr where
  bytes : List UInt8
  noNul : 0 ∉ bytes
  deriving DecidableEq, Repr

namespace CStr

/-- `strlen` -/
def length (s : CStr) : Nat := s.bytes.length

/-- Two strings are the same when their bytes are. -/
@[ext] theorem ext {s t : CStr} (h : s.bytes = t.bytes) : s = t := by
  cases s; cases t; simp_all

/-- The bytes up to the first NUL. -/
def ofBytes (bs : List UInt8) : CStr where
  bytes := bs.takeWhile (· ≠ 0)
  noNul := by
    intro h
    have := List.mem_takeWhile_imp h
    simp at this

/-- Bytes without a NUL are a string. -/
theorem bytes_ofBytes {bs : List UInt8} (h : 0 ∉ bs) : (ofBytes bs).bytes = bs :=
  List.takeWhile_eq_self_iff.mpr fun c hc => by simpa using fun hzero : c = 0 => h (hzero ▸ hc)

theorem length_ofBytes_le (bs : List UInt8) : (ofBytes bs).length ≤ bs.length :=
  (List.takeWhile_prefix _).length_le

/-- The empty string. -/
def empty : CStr := ⟨[], by simp⟩

/-- The bytes of an ASCII string literal. -/
def ascii (s : String) : List UInt8 := s.toList.map fun c => UInt8.ofNat c.toNat

end CStr

namespace Mem

/-- A string of `n` bytes stands at `p`. -/
def IsStr (m : Mem) (p n : Nat) : Prop := (∀ k < n, m (p + k) ≠ 0) ∧ m (p + n) = 0

/-- The string at `p`, which ends within `limit` bytes. -/
def cstr (m : Mem) (p limit : Nat) : CStr := .ofBytes (m.read p limit)

/-- Moving on inside a string. -/
theorem IsStr.tail {m : Mem} {p n k : Nat} (h : m.IsStr p n) (hk : k ≤ n) :
    m.IsStr (p + k) (n - k) := by
  constructor
  · intro j hj
    rw [Nat.add_assoc]
    exact h.1 (k + j) (by omega)
  · rw [Nat.add_assoc, Nat.add_sub_cancel' hk]
    exact h.2

/-- A string outside of what has changed is still there. -/
theorem IsStr.congr {m m' : Mem} {p n a b : Nat} (h : m.IsStr p n)
    (hm : AgreeOutside a b m m') (hout : p + n < a ∨ b ≤ p) : m'.IsStr p n := by
  constructor
  · intro k hk
    rw [hm _ (by omega)]
    exact h.1 k hk
  · rw [hm _ (by omega)]
    exact h.2

/-- What `cstr` reads is the string. -/
theorem cstr_bytes {m : Mem} {p n limit : Nat} (h : m.IsStr p n) (hn : n < limit) :
    (m.cstr p limit).bytes = m.read p n := by
  have hsplit : m.read p limit = m.read p n ++ 0 :: m.read (p + n + 1) (limit - n - 1) := by
    rw [read_split m (Nat.le_of_lt hn), show limit - n = limit - n - 1 + 1 by omega, read_succ, h.2]
    rfl
  have hpos : ∀ b ∈ m.read p n, (decide (b ≠ 0)) = true := by
    intro b hb
    obtain ⟨k, hk, rfl⟩ := mem_read.mp hb
    simpa using h.1 k hk
  show (m.read p limit).takeWhile _ = _
  rw [hsplit, List.takeWhile_append_of_pos hpos]
  simp

/-- What `cstr` reads ends at a NUL at the latest. -/
theorem length_cstr_le {m : Mem} {p n : Nat} (h : m (p + n) = 0) (limit : Nat) :
    (m.cstr p limit).length ≤ n := by
  by_contra hlt
  have hle : (m.cstr p limit).length ≤ limit := by
    have := CStr.length_ofBytes_le (m.read p limit)
    rwa [length_read] at this
  have hpre : (m.cstr p limit).bytes <+: m.read p limit := List.takeWhile_prefix _
  have hn : n < (m.cstr p limit).bytes.length := by rw [← CStr.length]; omega
  have hget : (m.cstr p limit).bytes[n] = 0 := by
    rw [hpre.getElem, getElem_read, h]
  exact (m.cstr p limit).noNul (hget ▸ List.getElem_mem _)

end Mem
