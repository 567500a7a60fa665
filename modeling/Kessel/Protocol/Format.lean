import Kessel.Mem

/-!
# Kessel.Protocol.Format

The response formatters of `ks_protocol.c`.

Each `ks_fmt_*` writes one frame and a NUL into the `cap` bytes at `dst` and
returns the length of the frame, or 0.  `dst` is an offset of a block of memory,
so that a frame can be written behind another one.  The `*Frame` functions are
the frames with no buffer in sight; `Formatted` says that a formatter has
written one, and every formatter has a lemma that says when it does.
-/

namespace Kessel

open CStr (ascii)

/-! ## numbers -/

/-- `%zu`, `%llu` -/
def decimal (n : Nat) : List UInt8 :=
  if n = 0 then ascii "0" else (Nat.digits 10 n).reverse.map fun d => UInt8.ofNat (48 + d)

/-- `%lld` -/
def decimalInt (v : Int) : List UInt8 :=
  if v < 0 then ascii "-" ++ decimal v.natAbs else decimal v.natAbs

/-- A number below a power of ten has few digits. -/
theorem length_decimal_le {n k : Nat} (hk : 0 < k) (h : n < 10 ^ k) : (decimal n).length ≤ k := by
  unfold decimal
  split
  · simp [ascii]
    omega
  · simpa [Nat.digits_length_le_iff] using h

/-- Every number has a digit. -/
theorem length_decimal_pos (n : Nat) : 0 < (decimal n).length := by
  unfold decimal
  split
  · simp [ascii]
  · next h => simp [List.length_pos_iff, Nat.digits_ne_nil_iff_ne_zero, h]

/-- A signed number may have a sign as well. -/
theorem length_decimalInt_le {v : Int} {k : Nat} (hk : 0 < k) (h : v.natAbs < 10 ^ k) :
    (decimalInt v).length ≤ k + 1 := by
  have hlen := length_decimal_le hk h
  unfold decimalInt
  split
  · simp [ascii]
    omega
  · omega

/-! ## frames -/

def crlf : List UInt8 := [13, 10]

/-- `+s` -/
def simpleFrame (s : List UInt8) : List UInt8 := ascii "+" ++ s ++ crlf

/-- `-ERR s` -/
def errorFrame (s : List UInt8) : List UInt8 := ascii "-ERR " ++ s ++ crlf

/-- `:v` -/
def intFrame (v : Int) : List UInt8 := ascii ":" ++ decimalInt v ++ crlf

/-- `$n` and `n` bytes -/
def bulkFrame (s : List UInt8) : List UInt8 := ascii "$" ++ decimal s.length ++ crlf ++ s ++ crlf

/-- `$-1` -/
def nilFrame : List UInt8 := ascii "$-1" ++ crlf

/-- `*count` -/
def arrayHeader (count : Nat) : List UInt8 := ascii "*" ++ decimal count ++ crlf

/-- One reply of the protocol; the text of a simple reply or of an error is one
line. -/
inductive IsReply : List UInt8 → Prop where
  | simple {s : List UInt8} (h : 10 ∉ s) : IsReply (simpleFrame s)
  | error {s : List UInt8} (h : 10 ∉ s) : IsReply (errorFrame s)
  | int (v : Int) : IsReply (intFrame v)
  | bulk (s : List UInt8) : IsReply (bulkFrame s)
  | nil : IsReply nilFrame

/-! ## the formatters -/

/-- `snprintf(dst, cap, ...)` of `text`: as many of its bytes as fit with a NUL,
and its length. -/
def snprintf (m : Mem) (dst cap : Nat) (text : List UInt8) : Mem × Nat :=
  if cap = 0 then (m, text.length) else (m.write dst (text.take (cap - 1) ++ [0]), text.length)

/-- `dst[0] = '\0'`, `snprintf`, and `dst[0] = '\0'` again when it was cut. -/
def formatLine (m : Mem) (dst cap : Nat) (text : List UInt8) : Mem × Nat :=
  if cap = 0 then (m, 0)
  else
    let (m, written) := snprintf (m.set dst 0) dst cap text
    if written ≥ cap then (m.set dst 0, 0) else (m, written)

/-- `format_text` -/
def formatText (m : Mem) (dst cap : Nat) (lead text : List UInt8) : Mem × Nat :=
  formatLine m dst cap (lead ++ text ++ crlf)

/-- `ks_fmt_simple` -/
def ksFmtSimple (m : Mem) (dst cap : Nat) (s : List UInt8) : Mem × Nat :=
  formatText m dst cap (ascii "+") s

/-- `ks_fmt_error` -/
def ksFmtError (m : Mem) (dst cap : Nat) (msg : List UInt8) : Mem × Nat :=
  formatText m dst cap (ascii "-ERR ") msg

/-- `ks_fmt_int` -/
def ksFmtInt (m : Mem) (dst cap : Nat) (v : Int) : Mem × Nat :=
  formatLine m dst cap (ascii ":" ++ decimalInt v ++ crlf)

/-- `ks_fmt_bulk`; `n` is the length of `s`. -/
def ksFmtBulk (m : Mem) (dst cap : Nat) (s : List UInt8) : Mem × Nat :=
  let (m, header) := formatLine m dst cap (ascii "$" ++ decimal s.length ++ crlf)
  if header = 0 then (m, 0)
  else if cap - header < 3 ∨ s.length > cap - header - 3 then (m.set dst 0, 0)
  else
    let m := m.write (dst + header) s
    let m := m.set (dst + header + s.length) 13
    let m := m.set (dst + header + s.length + 1) 10
    (m.set (dst + header + s.length + 2) 0, header + s.length + 2)

/-- `ks_fmt_nil` -/
def ksFmtNil (m : Mem) (dst cap : Nat) : Mem × Nat :=
  if cap < 6 then (if cap = 0 then m else m.set dst 0, 0)
  else (m.write dst (ascii "$-1" ++ crlf ++ [0]), 5)

/-- `ks_fmt_array_header` -/
def ksFmtArrayHeader (m : Mem) (dst cap count : Nat) : Mem × Nat :=
  formatLine m dst cap (ascii "*" ++ decimal count ++ crlf)

/-! ## what they write -/

/-- The frame and a NUL have been written at `dst`, and nothing else. -/
structure Formatted (m : Mem) (dst : Nat) (frame : List UInt8) (result : Mem × Nat) : Prop where
  length : result.2 = frame.length
  bytes : result.1.read dst frame.length = frame
  agree : m.AgreeOutside dst (dst + frame.length + 1) result.1

theorem length_simpleFrame (s : List UInt8) : (simpleFrame s).length = s.length + 3 := by
  simp [simpleFrame, crlf, ascii]

theorem length_errorFrame (s : List UInt8) : (errorFrame s).length = s.length + 7 := by
  simp [errorFrame, crlf, ascii]

theorem length_intFrame (v : Int) : (intFrame v).length = (decimalInt v).length + 3 := by
  simp [intFrame, crlf, ascii]

theorem length_arrayHeader (count : Nat) :
    (arrayHeader count).length = (decimal count).length + 3 := by
  simp [arrayHeader, crlf, ascii]

theorem length_bulkFrame (s : List UInt8) :
    (bulkFrame s).length = (decimal s.length).length + s.length + 5 := by
  simp [bulkFrame, crlf, ascii]
  omega

theorem length_nilFrame : nilFrame.length = 5 := by decide

/-- A write changes its own bytes only. -/
theorem agreeOutside_write (m : Mem) {dst n : Nat} {bs : List UInt8} (h : bs.length ≤ n) :
    m.AgreeOutside dst (dst + n) (m.write dst bs) := by
  intro i hi
  rcases hi with hi | hi
  · exact m.write_of_lt bs hi
  · exact m.write_of_ge (by omega)

/-- A line that fits is written, with its NUL. -/
theorem formatLine_formatted (m : Mem) (dst : Nat) {cap : Nat} (text : List UInt8)
    (h : text.length < cap) : Formatted m dst text (formatLine m dst cap text) := by
  have htake : text.take (cap - 1) = text := List.take_of_length_le (by omega)
  have hresult : formatLine m dst cap text = ((m.set dst 0).write dst (text ++ [0]), text.length) := by
    rw [formatLine, if_neg (by omega), snprintf, if_neg (by omega), htake]
    simp only
    rw [if_neg (by omega)]
  rw [hresult]
  refine ⟨rfl, ?_, ?_⟩
  · have hread := Mem.read_write (m.set dst 0) dst (text ++ [0])
    have htext := congrArg (List.take text.length) hread
    rwa [Mem.take_read _ (by simp), List.take_left' rfl] at htext
  · rw [Nat.add_assoc]
    exact ((Mem.AgreeOutside.refl _ _ m).set (by omega) 0).trans (agreeOutside_write _ (by simp))

/-- **`ks_fmt_simple`** writes its frame. -/
theorem ksFmtSimple_formatted (m : Mem) (dst : Nat) {cap : Nat} (s : List UInt8)
    (h : s.length + 3 < cap) : Formatted m dst (simpleFrame s) (ksFmtSimple m dst cap s) :=
  formatLine_formatted m dst (simpleFrame s) (by rw [length_simpleFrame]; exact h)

/-- **`ks_fmt_error`** writes its frame. -/
theorem ksFmtError_formatted (m : Mem) (dst : Nat) {cap : Nat} (s : List UInt8)
    (h : s.length + 7 < cap) : Formatted m dst (errorFrame s) (ksFmtError m dst cap s) :=
  formatLine_formatted m dst (errorFrame s) (by rw [length_errorFrame]; exact h)

/-- **`ks_fmt_int`** writes its frame. -/
theorem ksFmtInt_formatted (m : Mem) (dst : Nat) {cap : Nat} (v : Int)
    (h : (decimalInt v).length + 3 < cap) : Formatted m dst (intFrame v) (ksFmtInt m dst cap v) :=
  formatLine_formatted m dst (intFrame v) (by rw [length_intFrame]; exact h)

/-- **`ks_fmt_array_header`** writes its frame. -/
theorem ksFmtArrayHeader_formatted (m : Mem) (dst : Nat) {cap : Nat} (count : Nat)
    (h : (decimal count).length + 3 < cap) :
    Formatted m dst (arrayHeader count) (ksFmtArrayHeader m dst cap count) :=
  formatLine_formatted m dst (arrayHeader count) (by rw [length_arrayHeader]; exact h)

/-- **`ks_fmt_nil`** writes its frame. -/
theorem ksFmtNil_formatted (m : Mem) (dst : Nat) {cap : Nat} (h : 6 ≤ cap) :
    Formatted m dst nilFrame (ksFmtNil m dst cap) := by
  rw [ksFmtNil, if_neg (by omega)]
  refine ⟨rfl, ?_, by rw [length_nilFrame]; exact agreeOutside_write m (n := 6) (by decide)⟩
  have hread := Mem.read_write m dst (ascii "$-1" ++ crlf ++ [0])
  have htext := congrArg (List.take 5) hread
  rwa [Mem.take_read _ (by decide)] at htext

/-- Two writes one behind the other. -/
theorem Formatted.append {m : Mem} {dst : Nat} {f g : List UInt8} {a b : Mem × Nat}
    (hf : Formatted m dst f a) (hg : Formatted a.1 (dst + f.length) g b) :
    Formatted m dst (f ++ g) (b.1, a.2 + b.2) := by
  refine ⟨by simp [hf.length, hg.length], ?_, ?_⟩
  · rw [List.length_append, Mem.read_add, hg.agree.read_eq (by omega), hf.bytes, hg.bytes]
  · rw [List.length_append]
    exact (hf.agree.mono (le_refl _) (by omega)).trans (hg.agree.mono (by omega) (by omega))

/-! ### the payload of a bulk frame -/

/-- The payload and its end, written behind a header. -/
theorem read_payload (m : Mem) (p : Nat) (s : List UInt8) :
    ((((m.write p s).set (p + s.length) 13).set (p + s.length + 1) 10).set (p + s.length + 2) 0).read
      p (s.length + 3) = s ++ crlf ++ [0] := by
  rw [Mem.read_add, List.append_assoc]
  congr 1
  · rw [Mem.read_set_of_notin _ _ (by omega), Mem.read_set_of_notin _ _ (by omega),
      Mem.read_set_of_notin _ _ (by omega), Mem.read_write]
  · simp [crlf, Mem.read_succ, Mem.set]

/-- The payload of a bulk frame, its line end and its NUL. -/
theorem agreeOutside_payload (m : Mem) (p : Nat) (s : List UInt8) :
    m.AgreeOutside p (p + (s.length + 3))
      ((((m.write p s).set (p + s.length) 13).set (p + s.length + 1) 10).set (p + s.length + 2) 0) := by
  have hwrite : m.AgreeOutside p (p + (s.length + 3)) (m.write p s) :=
    agreeOutside_write m (by omega)
  exact ((hwrite.set (by omega) 13).set (by omega) 10).set (by omega) 0

/-- **`ks_fmt_bulk`** writes its frame. -/
theorem ksFmtBulk_formatted (m : Mem) (dst : Nat) {cap : Nat} (s : List UInt8)
    (h : (decimal s.length).length + s.length + 5 < cap) :
    Formatted m dst (bulkFrame s) (ksFmtBulk m dst cap s) := by
  have hlen : (ascii "$" ++ decimal s.length ++ crlf).length = (decimal s.length).length + 3 := by
    simp [crlf, ascii]
  have hfits : (ascii "$" ++ decimal s.length ++ crlf).length < cap := by omega
  have hheader := formatLine_formatted m dst _ hfits
  rw [ksFmtBulk]
  generalize formatLine m dst cap (ascii "$" ++ decimal s.length ++ crlf) = a at *
  obtain ⟨m₁, header⟩ := a
  have hh : header = (decimal s.length).length + 3 := by rw [← hlen]; exact hheader.length
  simp only
  rw [if_neg (by omega), if_neg (by omega)]
  -- the payload and its end, written behind the header
  have hrest : Formatted m₁ (dst + header) (s ++ crlf)
      ((((m₁.write (dst + header) s).set (dst + header + s.length) 13).set
        (dst + header + s.length + 1) 10).set (dst + header + s.length + 2) 0, s.length + 2) := by
    have hcrlf : (s ++ crlf).length = s.length + 2 := by simp [crlf]
    refine ⟨hcrlf.symm, ?_, ?_⟩
    · have hread := congrArg (List.take (s.length + 2)) (read_payload m₁ (dst + header) s)
      rwa [Mem.take_read _ (by omega), List.take_left' hcrlf, ← hcrlf] at hread
    · rw [hcrlf]
      exact agreeOutside_payload m₁ (dst + header) s
  have hboth := hheader.append (f := ascii "$" ++ decimal s.length ++ crlf)
    (by rw [hlen, ← hh]; exact hrest)
  rw [bulkFrame, List.append_assoc (ascii "$" ++ decimal s.length ++ crlf)]
  exact hboth

/-- A reply is never empty. -/
theorem IsReply.length_pos {f : List UInt8} (h : IsReply f) : 0 < f.length := by
  cases h <;> simp [simpleFrame, errorFrame, intFrame, bulkFrame, nilFrame, crlf]

end Kessel
