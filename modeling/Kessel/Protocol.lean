import Kessel.Mem

/-!
# Kessel.Protocol

The request parser of `ks_protocol.c`, in place.

A `char*` into the line is an offset, and beside every read pointer stands
`left`, the number of bytes before the terminating NUL, so that `*read == '\0'`
is `left = 0` and the loops are structural.  Parsing writes into the line: a
NUL behind each token, the decoded bytes of a quoted token over the quoted ones,
and the command in upper case.  The functions return the memory also when they
fail.
-/

namespace Kessel

/-- `KS_MAX_ARGS` -/
def ksMaxArgs : Nat := 16

/-- `KS_MAX_REQUEST` -/
def ksMaxRequest : Nat := 65536

/-- `ks_cmd_t`: pointers into the line; `argc` is the number of arguments. -/
structure KsCmd where
  cmd : Nat
  argv : List Nat
  deriving DecidableEq, Repr

/-- `bounded_length` -/
def boundedLength (text : Mem) (p : Nat) : Nat → Nat
  | 0 => 0
  | limit + 1 => if text p = 0 then 0 else boundedLength text (p + 1) limit + 1

/-- `trim_crlf`: the line and its new length. -/
def trimCrlf (m : Mem) (line : Nat) : Nat → Mem × Nat
  | 0 => (m, 0)
  | length + 1 =>
    if m (line + length) = 10 ∨ m (line + length) = 13 then
      trimCrlf (m.set (line + length) 0) line length
    else (m, length + 1)

/-- `is_separator` -/
def isSeparator (c : UInt8) : Bool := c = 32 || c = 9

/-- `while (is_separator(*read)) ++read` -/
def skipSeparators (m : Mem) (read : Nat) : Nat → Nat × Nat
  | 0 => (read, 0)
  | left + 1 => if isSeparator (m read) then skipSeparators m (read + 1) left else (read, left + 1)

/-- The loop over an unquoted token: up to a separator or the end, never a quote. -/
def scanWord (m : Mem) (read : Nat) : Nat → Option (Nat × Nat)
  | 0 => some (read, 0)
  | left + 1 =>
    if isSeparator (m read) then some (read, left + 1)
    else if m read = 34 then none
    else scanWord m (read + 1) left

/-- The loop over a quoted token: where it read the closing quote and where it
stopped writing. -/
def unquote (m : Mem) (read write : Nat) : Nat → Mem × Option (Nat × Nat × Nat)
  | 0 => (m, none)
  | left + 1 =>
    if m read = 34 then (m, some (read, left + 1, write))
    else if m read = 92 then
      match left with
      | 0 => (m, none)
      | left + 1 =>
        if m (read + 1) ≠ 34 ∧ m (read + 1) ≠ 92 then (m, none)
        else unquote (m.set write (m (read + 1))) (read + 2) (write + 1) left
    else unquote (m.set write (m read)) (read + 1) (write + 1) left

/-- `parse_token`: the token, the new cursor and the bytes left behind it. -/
def parseToken (m : Mem) (cursor left : Nat) : Mem × Option (Nat × Nat × Nat) :=
  if left ≠ 0 ∧ m cursor = 34 then
    match unquote m (cursor + 1) (cursor + 1) (left - 1) with
    | (m, none) => (m, none)
    | (m, some (read, left, write)) =>
      -- `++read` steps over the closing quote
      if left - 1 ≠ 0 ∧ ¬ isSeparator (m (read + 1)) then (m, none)
      else
        let m := m.set write 0
        (m, some (cursor + 1, skipSeparators m (read + 1) (left - 1)))
  else
    match scanWord m cursor left with
    | none => (m, none)
    | some (read, 0) => (m, some (cursor, read, 0))
    | some (read, left + 1) =>
      let m := m.set read 0
      (m, some (cursor, skipSeparators m (read + 1) left))

/-- The loop over the arguments, with room for `room` more of them. -/
def parseArgs (m : Mem) (cursor left : Nat) (argv : List Nat) : Nat → Mem × Option (List Nat)
  | 0 => if left = 0 then (m, some argv) else (m, none)
  | room + 1 =>
    if left = 0 then (m, some argv)
    else
      match parseToken m cursor left with
      | (m, none) => (m, none)
      | (m, some (token, cursor, left)) => parseArgs m cursor left (argv ++ [token]) room

/-- `toupper` in the C locale. -/
def toupper (c : UInt8) : UInt8 := if 97 ≤ c ∧ c ≤ 122 then c - 32 else c

/-- `for (char* p = out->cmd; *p != '\0'; ++p) *p = toupper(*p)` -/
def upcase (m : Mem) (p : Nat) : Nat → Mem
  | 0 => m
  | left + 1 => if m p = 0 then m else upcase (m.set p (toupper (m p))) (p + 1) left

/-- `ks_parse_line` -/
def ksParseLine (m : Mem) (line : Nat) : Mem × Option KsCmd :=
  let length := boundedLength m line (ksMaxRequest + 3)
  if length > ksMaxRequest + 2 then (m, none)
  else
    let (m, length) := trimCrlf m line length
    if length > ksMaxRequest then (m, none)
    else
      let (cursor, left) := skipSeparators m line length
      if left = 0 then (m, none)
      else
        match parseToken m cursor left with
        | (m, none) => (m, none)
        | (m, some (cmd, cursor, left)) =>
          if m cmd = 0 then (m, none)
          else
            match parseArgs m cursor left [] ksMaxArgs with
            | (m, none) => (m, none)
            | (m, some argv) => (upcase m cmd length, some ⟨cmd, argv⟩)

/-! ## the caller's record -/

/-- The caller's `ks_cmd_t`, with every pointer of its array. -/
structure KsCmdOut where
  cmd : Option Nat
  argc : Nat
  argv : Vector (Option Nat) ksMaxArgs

/-- `clear_command` -/
def clearCommand (out : KsCmdOut) : KsCmdOut where
  cmd := none
  argc := 0
  argv := out.argv.map fun _ => none

/-- `out->argv[out->argc]` is written, then `++out->argc`. -/
def KsCmdOut.push (out : KsCmdOut) (token : Nat) : KsCmdOut :=
  { out with argv := out.argv.setIfInBounds out.argc (some token), argc := out.argc + 1 }

/-- The loop over the arguments, as it fills the record. -/
def parseArgsInto (m : Mem) (cursor left : Nat) (out : KsCmdOut) : Nat → Mem × KsCmdOut × Bool
  | 0 => if left = 0 then (m, out, true) else (m, clearCommand out, false)
  | room + 1 =>
    if left = 0 then (m, out, true)
    else
      match parseToken m cursor left with
      | (m, none) => (m, clearCommand out, false)
      | (m, some (token, cursor, left)) => parseArgsInto m cursor left (out.push token) room

/-- `ks_parse_line`, with the record it fills and the value it returns. -/
def ksParseLineInto (m : Mem) (line : Nat) (out : KsCmdOut) : Mem × KsCmdOut × Bool :=
  let out := clearCommand out
  let length := boundedLength m line (ksMaxRequest + 3)
  if length > ksMaxRequest + 2 then (m, out, false)
  else
    let (m, length) := trimCrlf m line length
    if length > ksMaxRequest then (m, out, false)
    else
      let (cursor, left) := skipSeparators m line length
      if left = 0 then (m, out, false)
      else
        match parseToken m cursor left with
        | (m, none) => (m, clearCommand out, false)
        | (m, some (cmd, cursor, left)) =>
          let out := { out with cmd := some cmd }
          if m cmd = 0 then (m, clearCommand out, false)
          else
            match parseArgsInto m cursor left out ksMaxArgs with
            | (m, out, false) => (m, out, false)
            | (m, out, true) => (upcase m cmd length, out, true)

end Kessel
