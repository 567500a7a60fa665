import Kessel.Word
import Kessel.Protocol.Format

/-!
# Kessel.Protocol.Bounds

The formatters at the limits of their buffers.

`AllOrNothing` says that a formatter writes the whole frame and a NUL when both
fit the `cap` bytes at `dst`, and fails otherwise, without a write past them in
either case.  `formatLine_allOrEmpty`, `ksFmtBulk_allOrEmpty` and
`ksFmtNil_allOrEmpty` are the three shapes of a formatter; the others are the
first one applied to their text.

The functions of `Kessel.Checked` are the formatters again, with every size
computation checked: they answer `none` where a `size_t` would wrap or a length
would not be an `int`.
-/

namespace Kessel

open CStr (ascii)
open Word

/-! ## all or nothing -/

/-- The frame and a NUL have been written to the `cap` bytes at `dst` if they
fit, the result is the length of the frame or 0, and no other byte has changed. -/
structure AllOrNothing (m : Mem) (dst cap : Nat) (frame : List UInt8) (result : Mem × Nat) :
    Prop where
  succeeds : result.2 ≠ 0 ↔ frame.length + 1 ≤ cap
  length : frame.length + 1 ≤ cap → result.2 = frame.length
  bytes : frame.length + 1 ≤ cap → result.1.read dst (frame.length + 1) = frame ++ [0]
  agree : m.AgreeOutside dst (dst + cap) result.1

/-- Besides, a failure leaves an empty string where there is room for one. -/
structure AllOrEmpty (m : Mem) (dst cap : Nat) (frame : List UInt8) (result : Mem × Nat) :
    Prop extends AllOrNothing m dst cap frame result where
  empty : result.2 = 0 → 0 < cap → result.1 dst = 0

/-- A failure is all that is left to show of a frame that does not fit. -/
theorem AllOrEmpty.of_short {m m' : Mem} {dst cap : Nat} {frame : List UInt8}
    (hshort : cap < frame.length + 1) (hagree : m.AgreeOutside dst (dst + cap) m')
    (hempty : 0 < cap → m' dst = 0) : AllOrEmpty m dst cap frame (m', 0) where
  succeeds := by simp; omega
  length := fun h => by omega
  bytes := fun h => by omega
  agree := hagree
  empty := fun _ => hempty

/-- A frame that is written whole is all, not nothing. -/
theorem AllOrEmpty.of_written {m m' : Mem} {dst cap : Nat} {frame : List UInt8}
    (hpos : 0 < frame.length) (hfits : frame.length + 1 ≤ cap)
    (hbytes : m'.read dst (frame.length + 1) = frame ++ [0])
    (hagree : m.AgreeOutside dst (dst + cap) m') : AllOrEmpty m dst cap frame (m', frame.length) where
  succeeds := ⟨fun _ => hfits, fun _ => by simp only; omega⟩
  length := fun _ => rfl
  bytes := fun _ => hbytes
  agree := hagree
  empty := fun h => by simp only at h; omega

/-- What was written leaves room for its NUL. -/
theorem AllOrNothing.lt_cap {m : Mem} {dst cap : Nat} {frame : List UInt8} {result : Mem × Nat}
    (h : AllOrNothing m dst cap frame result) (hwritten : result.2 ≠ 0) : result.2 < cap := by
  have hfits := h.succeeds.mp hwritten
  rw [h.length hfits]
  exact hfits

/-! ## the three shapes -/

/-- A line is written whole, or not at all. -/
theorem formatLine_allOrEmpty (m : Mem) (dst cap : Nat) {text : List UInt8}
    (hpos : 0 < text.length) : AllOrEmpty m dst cap text (formatLine m dst cap text) := by
  unfold formatLine
  by_cases hcap : cap = 0
  · rw [if_pos hcap]
    exact .of_short (by omega) (.refl _ _ m) fun h => by omega
  · have hstart : m.AgreeOutside dst (dst + cap) (m.set dst 0) :=
      (Mem.AgreeOutside.refl _ _ m).set (by omega) 0
    rw [if_neg hcap, snprintf, if_neg hcap]
    simp only
    by_cases hlong : text.length ≥ cap
    · rw [if_pos hlong]
      have hcut : (text.take (cap - 1) ++ [0]).length ≤ cap := by simp; omega
      exact .of_short (by omega) ((hstart.trans (agreeOutside_write _ hcut)).set (by omega) 0)
        fun _ => Mem.set_same _ _ _
    · rw [if_neg hlong, List.take_of_length_le (by omega)]
      have hlen : (text ++ [0]).length = text.length + 1 := by simp
      refine .of_written hpos (by omega) ?_ (hstart.trans (agreeOutside_write _ (by omega)))
      rw [← hlen, Mem.read_write]

/-- **`ks_fmt_nil`** writes its frame whole, or nothing. -/
theorem ksFmtNil_allOrEmpty (m : Mem) (dst cap : Nat) :
    AllOrEmpty m dst cap nilFrame (ksFmtNil m dst cap) := by
  unfold ksFmtNil
  by_cases hcap : cap < 6
  · rw [if_pos hcap]
    by_cases hzero : cap = 0
    · rw [if_pos hzero]
      exact .of_short (by rw [length_nilFrame]; omega) (.refl _ _ m) fun h => by omega
    · rw [if_neg hzero]
      exact .of_short (by rw [length_nilFrame]; omega)
        ((Mem.AgreeOutside.refl _ _ m).set (by omega) 0) fun _ => Mem.set_same _ _ _
  · rw [if_neg hcap]
    have hlen : (ascii "$-1" ++ crlf ++ [0]).length = nilFrame.length + 1 := by decide
    refine .of_written (by decide) (by rw [length_nilFrame]; omega) ?_
      (agreeOutside_write m (by rw [hlen, length_nilFrame]; omega))
    rw [← hlen, Mem.read_write]
    rfl

/-- **`ks_fmt_bulk`** writes its frame whole, or nothing. -/
theorem ksFmtBulk_allOrEmpty (m : Mem) (dst cap : Nat) (s : List UInt8) :
    AllOrEmpty m dst cap (bulkFrame s) (ksFmtBulk m dst cap s) := by
  have hlen : (ascii "$" ++ decimal s.length ++ crlf).length = (decimal s.length).length + 3 := by
    simp [crlf, ascii]
  have hframe := length_bulkFrame s
  have hheader := formatLine_allOrEmpty m dst cap
    (show 0 < (ascii "$" ++ decimal s.length ++ crlf).length by omega)
  unfold ksFmtBulk
  generalize formatLine m dst cap (ascii "$" ++ decimal s.length ++ crlf) = a at *
  obtain ⟨m₁, header⟩ := a
  simp only
  by_cases hzero : header = 0
  · -- not even the header fits
    rw [if_pos hzero]
    have hshort := mt hheader.succeeds.mpr (by simpa using hzero)
    exact .of_short (by omega) hheader.agree (hheader.empty hzero)
  · have hfits := hheader.succeeds.mp hzero
    have hh : header = (decimal s.length).length + 3 := by rw [← hlen]; exact hheader.length hfits
    rw [if_neg hzero]
    by_cases hroom : cap - header < 3 ∨ s.length > cap - header - 3
    · rw [if_pos hroom]
      exact .of_short (by omega) (hheader.agree.set (by omega) 0) fun _ => Mem.set_same _ _ _
    · rw [if_neg hroom]
      have hsize : header + s.length + 2 = (bulkFrame s).length := by omega
      rw [hsize]
      refine .of_written (by omega) (by omega) ?_ ?_
      · have hbytes := hheader.bytes hfits
        rw [hlen, ← hh] at hbytes
        have hread := congrArg (List.take header) hbytes
        rw [Mem.take_read _ (by omega), List.take_left' (by rw [hlen, hh])] at hread
        rw [← hsize, show header + s.length + 2 + 1 = header + (s.length + 3) by omega, Mem.read_add,
          read_payload, (agreeOutside_payload m₁ (dst + header) s).read_eq (by omega), hread]
        simp [bulkFrame]
      · exact hheader.agree.trans
          ((agreeOutside_payload m₁ (dst + header) s).mono (by omega) (by omega))

/-! ## one frame behind another -/

/-- When the first frame does not fit, neither do both. -/
theorem AllOrNothing.append_of_failed {m : Mem} {dst cap : Nat} {f : List UInt8} {a : Mem × Nat}
    (hf : AllOrNothing m dst cap f a) (hfailed : a.2 = 0) (g : List UInt8) :
    AllOrNothing m dst cap (f ++ g) (a.1, 0) := by
  have hshort := mt hf.succeeds.mpr (by simpa using hfailed)
  have hlen : (f ++ g).length = f.length + g.length := List.length_append
  exact
    { succeeds := by simp; omega
      length := fun h => by omega
      bytes := fun h => by omega
      agree := hf.agree }

/-- The second frame gets the room that the first has left. -/
theorem AllOrNothing.append {m : Mem} {dst cap : Nat} {f g : List UInt8} {a b : Mem × Nat}
    (hf : AllOrNothing m dst cap f a) (hwritten : a.2 ≠ 0)
    (hg : AllOrNothing a.1 (dst + a.2) (cap - a.2) g b) :
    AllOrNothing m dst cap (f ++ g) (b.1, if b.2 = 0 then 0 else a.2 + b.2) := by
  have hfits := hf.succeeds.mp hwritten
  have ha := hf.length hfits
  have hlen : (f ++ g).length = f.length + g.length := List.length_append
  have hboth : g.length + 1 ≤ cap - a.2 ↔ (f ++ g).length + 1 ≤ cap := by omega
  exact
    { succeeds := by
        simp only
        rw [← hboth, ← hg.succeeds]
        split <;> omega
      length := fun h => by
        have hfits' := hboth.mpr h
        simp only
        rw [if_neg (hg.succeeds.mpr hfits'), ha, hg.length hfits', hlen]
      bytes := fun h => by
        have hfirst := congrArg (List.take f.length) (hf.bytes hfits)
        rw [Mem.take_read _ (by omega), List.take_left' rfl] at hfirst
        have hsecond := hg.bytes (hboth.mpr h)
        rw [ha] at hsecond
        rw [hlen, Nat.add_assoc, Mem.read_add, hg.agree.read_eq (by omega), hfirst, hsecond,
          List.append_assoc]
      agree := hf.agree.trans (hg.agree.mono (by omega) (by omega)) }

/-! ## checked size computations -/

namespace Checked

/-- A sum of two `size_t`. -/
def sizeAdd (a b : Nat) : Option Nat := if a + b ≤ sizeMax then some (a + b) else none

/-- A difference of two `size_t`. -/
def sizeSub (a b : Nat) : Option Nat := if b ≤ a then some (a - b) else none

/-- A length that `snprintf` returns as an `int`. -/
def intLength (n : Nat) : Option Nat := if n < 2 ^ 31 then some n else none

/-- An addition that does not overflow. -/
theorem sizeAdd_of_le {a b : Nat} (h : a + b ≤ sizeMax) : sizeAdd a b = some (a + b) := if_pos h

/-- A subtraction that does not wrap around. -/
theorem sizeSub_of_le {a b : Nat} (h : b ≤ a) : sizeSub a b = some (a - b) := if_pos h

def formatLine (m : Mem) (dst cap : Nat) (text : List UInt8) : Option (Mem × Nat) :=
  if cap = 0 then some (m, 0)
  else
    let (m, length) := snprintf (m.set dst 0) dst cap text
    (intLength length).bind fun written =>
      if written ≥ cap then some (m.set dst 0, 0) else some (m, written)

def formatText (m : Mem) (dst cap : Nat) (lead text : List UInt8) : Option (Mem × Nat) :=
  formatLine m dst cap (lead ++ text ++ crlf)

def ksFmtSimple (m : Mem) (dst cap : Nat) (s : List UInt8) : Option (Mem × Nat) :=
  formatText m dst cap (ascii "+") s

def ksFmtError (m : Mem) (dst cap : Nat) (msg : List UInt8) : Option (Mem × Nat) :=
  formatText m dst cap (ascii "-ERR ") msg

def ksFmtInt (m : Mem) (dst cap : Nat) (v : Int) : Option (Mem × Nat) :=
  formatLine m dst cap (ascii ":" ++ decimalInt v ++ crlf)

def ksFmtBulk (m : Mem) (dst cap : Nat) (s : List UInt8) : Option (Mem × Nat) :=
  (formatLine m dst cap (ascii "$" ++ decimal s.length ++ crlf)).bind fun (m, header) =>
    if header = 0 then some (m, 0)
    else
      (sizeSub cap header).bind fun room =>
        if room < 3 then some (m.set dst 0, 0)
        else
          (sizeSub room 3).bind fun payload =>
            if s.length > payload then some (m.set dst 0, 0)
            else
              (sizeAdd header s.length).bind fun cr =>
                (sizeAdd cr 1).bind fun lf =>
                  (sizeAdd cr 2).bind fun nul =>
                    let m := m.write (dst + header) s
                    let m := m.set (dst + cr) 13
                    let m := m.set (dst + lf) 10
                    some (m.set (dst + nul) 0, nul)

def ksFmtArrayHeader (m : Mem) (dst cap count : Nat) : Option (Mem × Nat) :=
  formatLine m dst cap (ascii "*" ++ decimal count ++ crlf)

/-! ### nothing wraps -/

/-- The sizes of a line are computed without overflow. -/
theorem formatLine_eq (m : Mem) (dst cap : Nat) {text : List UInt8} (h : text.length < 2 ^ 31) :
    formatLine m dst cap text = some (Kessel.formatLine m dst cap text) := by
  unfold formatLine Kessel.formatLine
  by_cases hcap : cap = 0
  · rw [if_pos hcap, if_pos hcap]
  · have hlen : (snprintf (m.set dst 0) dst cap text).2 = text.length := by
      rw [snprintf, if_neg hcap]
    have hint : intLength (snprintf (m.set dst 0) dst cap text).2 =
        some (snprintf (m.set dst 0) dst cap text).2 := if_pos (by rw [hlen]; exact h)
    rw [if_neg hcap, if_neg hcap]
    simp only [hint, Option.bind_some]
    split <;> rfl

/-- So are those of a bulk frame. -/
theorem ksFmtBulk_eq (m : Mem) (dst : Nat) {cap : Nat} {s : List UInt8} (hcap : cap ≤ sizeMax)
    (hs : s.length ≤ sizeMax) : ksFmtBulk m dst cap s = some (Kessel.ksFmtBulk m dst cap s) := by
  have hdigits : (decimal s.length).length ≤ 20 :=
    length_decimal_le (by decide) (by unfold sizeMax at hs; omega)
  have hlen : (ascii "$" ++ decimal s.length ++ crlf).length = (decimal s.length).length + 3 := by
    simp [crlf, ascii]
  have hheader := formatLine_allOrEmpty m dst cap
    (show 0 < (ascii "$" ++ decimal s.length ++ crlf).length by omega)
  unfold ksFmtBulk Kessel.ksFmtBulk
  rw [formatLine_eq m dst cap (by omega), Option.bind_some]
  generalize Kessel.formatLine m dst cap (ascii "$" ++ decimal s.length ++ crlf) = a at *
  obtain ⟨m₁, header⟩ := a
  simp only
  by_cases hzero : header = 0
  · rw [if_pos hzero, if_pos hzero]
  · have hfits := hheader.succeeds.mp hzero
    have hh : header = (decimal s.length).length + 3 := by rw [← hlen]; exact hheader.length hfits
    rw [if_neg hzero, if_neg hzero, sizeSub_of_le (by omega), Option.bind_some]
    by_cases hroom : cap - header < 3
    · rw [if_pos hroom, if_pos (.inl hroom)]
    rw [if_neg hroom, sizeSub_of_le (by omega), Option.bind_some]
    by_cases hlong : s.length > cap - header - 3
    · rw [if_pos hlong, if_pos (.inr hlong)]
    · rw [if_neg hlong, if_neg (not_or.mpr ⟨hroom, hlong⟩), sizeAdd_of_le (by omega), Option.bind_some,
        sizeAdd_of_le (by omega), Option.bind_some, sizeAdd_of_le (by omega), Option.bind_some]
      simp only [Nat.add_assoc]

end Checked

end Kessel
