import Kessel.Config

/-!
# Kessel.Config.Numbers

What the numeric settings accept.

`Denotes s z` says that `s` in full spells the integer `z`; `strtol_of_denotes`
and `strtoul_of_denotes` say what the conversions make of such a text, and every
other text has something left at `*end`.  `parse_port` accepts exactly the
integers from 1 to 65535; `parse_max_clients` and `valid_port` accept besides
the spellings of a few integers near -2⁶⁴, which `strtoul` takes for positive
ones: `numericSettings_denote_iff`.
-/

namespace Kessel

open CStr (ascii)

/-! ## spellings -/

/-- The text is white space, at most one sign and decimal digits, and `z` is the
integer that sign and digits denote. -/
inductive Denotes : List UInt8 → Int → Prop where
  | unsigned {blanks ds : List UInt8} (hblanks : ∀ c ∈ blanks, isSpace c = true)
      (hds : ∀ c ∈ ds, isDigit c = true) (hne : ds ≠ []) : Denotes (blanks ++ ds) (digitsValue ds)
  | plus {blanks ds : List UInt8} (hblanks : ∀ c ∈ blanks, isSpace c = true)
      (hds : ∀ c ∈ ds, isDigit c = true) (hne : ds ≠ []) :
      Denotes (blanks ++ 43 :: ds) (digitsValue ds)
  | minus {blanks ds : List UInt8} (hblanks : ∀ c ∈ blanks, isSpace c = true)
      (hds : ∀ c ∈ ds, isDigit c = true) (hne : ds ≠ []) :
      Denotes (blanks ++ 45 :: ds) (-(digitsValue ds : Int))

/-- Blanks in front are skipped. -/
theorem dropWhile_isSpace {blanks : List UInt8} (hblanks : ∀ c ∈ blanks, isSpace c = true)
    {c : UInt8} (hc : isSpace c = false) (rest : List UInt8) :
    (blanks ++ c :: rest).dropWhile isSpace = c :: rest := by
  rw [List.dropWhile_append_of_pos hblanks, List.dropWhile_cons_of_neg (by simp [hc])]

/-- The sign of a number, and what follows it. -/
theorem splitSign_cases {text rest : List UInt8} {negative : Bool}
    (h : splitSign text = (negative, rest)) :
    (negative = true ∧ text = 45 :: rest) ∨ (negative = false ∧ text = 43 :: rest) ∨
      (negative = false ∧ text = rest) := by
  unfold splitSign at h
  split at h
  · cases h
    exact .inl ⟨rfl, rfl⟩
  · cases h
    exact .inr (.inl ⟨rfl, rfl⟩)
  · cases h
    exact .inr (.inr ⟨rfl, rfl⟩)

/-- A digit is no sign. -/
theorem splitSign_digit {c : UInt8} (hc : isDigit c = true) (rest : List UInt8) :
    splitSign (c :: rest) = (false, c :: rest) := by
  obtain ⟨-, hplus, hminus, -⟩ := isDigit_plain hc
  unfold splitSign
  split
  · next heq => exact absurd (List.cons.inj heq).1 hminus
  · next heq => exact absurd (List.cons.inj heq).1 hplus
  · rfl

/-- A conversion reads the whole of a spelling. -/
theorem subjectSequence_of_denotes {s : List UInt8} {z : Int} (h : Denotes s z) :
    ∃ negative ds, subjectSequence s = some (negative, ds, []) ∧ z = signedValue negative ds := by
  cases h with
  | @unsigned blanks ds hblanks hds hne =>
    obtain ⟨c, rest, rfl⟩ := List.exists_cons_of_ne_nil hne
    have hc := hds c List.mem_cons_self
    obtain ⟨htake, hdrop⟩ := takeWhile_isDigit hds
    refine ⟨false, c :: rest, ?_, rfl⟩
    rw [subjectSequence, dropWhile_isSpace hblanks (isDigit_plain hc).1, splitSign_digit hc]
    simp only [htake, hdrop, if_neg hne]
  | @plus blanks ds hblanks hds hne =>
    obtain ⟨htake, hdrop⟩ := takeWhile_isDigit hds
    refine ⟨false, ds, ?_, rfl⟩
    rw [subjectSequence, dropWhile_isSpace hblanks (by decide)]
    simp only [splitSign, htake, hdrop, if_neg hne]
  | @minus blanks ds hblanks hds hne =>
    obtain ⟨htake, hdrop⟩ := takeWhile_isDigit hds
    refine ⟨true, ds, ?_, rfl⟩
    rw [subjectSequence, dropWhile_isSpace hblanks (by decide)]
    simp only [splitSign, htake, hdrop, if_neg hne]

/-- A text that a conversion reads whole is a spelling. -/
theorem denotes_of_subjectSequence {s ds : List UInt8} {negative : Bool}
    (h : subjectSequence s = some (negative, ds, [])) : Denotes s (signedValue negative ds) := by
  have hblanks : ∀ c ∈ s.takeWhile isSpace, isSpace c = true := fun c hc =>
    List.mem_takeWhile_imp hc
  have hs := List.takeWhile_append_dropWhile (p := isSpace) (l := s)
  unfold subjectSequence at h
  generalize hsign : splitSign (s.dropWhile isSpace) = split at h
  obtain ⟨minus, text⟩ := split
  simp only at h
  by_cases hne : text.takeWhile isDigit = []
  · rw [if_pos hne] at h
    cases h
  rw [if_neg hne, Option.some.injEq, Prod.mk.injEq, Prod.mk.injEq] at h
  obtain ⟨rfl, rfl, hdrop⟩ := h
  -- the digits are all that stands behind the sign
  have htext := List.takeWhile_append_dropWhile (p := isDigit) (l := text)
  rw [hdrop, List.append_nil] at htext
  have hds : ∀ c ∈ text.takeWhile isDigit, isDigit c = true := fun c hc =>
    List.mem_takeWhile_imp hc
  rw [htext] at hds hne ⊢
  rw [← hs]
  rcases splitSign_cases hsign with ⟨rfl, hrest⟩ | ⟨rfl, hrest⟩ | ⟨rfl, hrest⟩
  · rw [hrest]
    exact .minus hblanks hds hne
  · rw [hrest]
    exact .plus hblanks hds hne
  · rw [hrest]
    exact .unsigned hblanks hds hne

/-! ## the conversions -/

/-- A text spells one integer only. -/
theorem Denotes.unique {s : List UInt8} {y z : Int} (hy : Denotes s y) (hz : Denotes s z) :
    y = z := by
  obtain ⟨_, _, hs, rfl⟩ := subjectSequence_of_denotes hy
  obtain ⟨_, _, hs', rfl⟩ := subjectSequence_of_denotes hz
  rw [hs] at hs'
  cases hs'
  rfl

/-- A text that denotes a number is not empty. -/
theorem Denotes.ne_nil {s : List UInt8} {z : Int} (h : Denotes s z) : s ≠ [] := by
  cases h <;> simp_all

/-- `strtol` of a spelling is its integer, if that is a `long`. -/
theorem strtol_of_denotes {s : List UInt8} {z : Int} (h : Denotes s z) :
    (strtol s).rest = [] ∧ ((strtol s).outOfRange = false ↔ -2 ^ 63 ≤ z ∧ z < 2 ^ 63) ∧
      ((strtol s).outOfRange = false → (strtol s).value = z) := by
  obtain ⟨negative, ds, hs, rfl⟩ := subjectSequence_of_denotes h
  simp only [strtol, hs]
  by_cases hlow : signedValue negative ds < -2 ^ 63
  · rw [if_pos hlow]
    exact ⟨rfl, ⟨fun hr => (by cases hr), fun hz => by omega⟩, fun hr => (by cases hr)⟩
  · rw [if_neg hlow]
    by_cases hhigh : 2 ^ 63 ≤ signedValue negative ds
    · rw [if_pos hhigh]
      exact ⟨rfl, ⟨fun hr => (by cases hr), fun hz => by omega⟩, fun hr => (by cases hr)⟩
    · rw [if_neg hhigh]
      exact ⟨rfl, ⟨fun _ => by omega, fun _ => rfl⟩, fun _ => rfl⟩

/-- `strtoul` of a spelling is its integer modulo 2⁶⁴, if the digits are an
`unsigned long`. -/
theorem strtoul_of_denotes {s : List UInt8} {z : Int} (h : Denotes s z) :
    (strtoul s).rest = [] ∧ ((strtoul s).outOfRange = false ↔ z.natAbs < 2 ^ 64) ∧
      ((strtoul s).outOfRange = false → ((strtoul s).value : Int) = z % 2 ^ 64) := by
  obtain ⟨negative, ds, hs, rfl⟩ := subjectSequence_of_denotes h
  have habs : (signedValue negative ds).natAbs = digitsValue ds := by
    cases negative <;> simp [signedValue]
  simp only [strtoul, hs, habs]
  by_cases hbig : 2 ^ 64 ≤ digitsValue ds
  · rw [if_pos hbig]
    exact ⟨rfl, ⟨fun hr => (by cases hr), fun hz => by omega⟩, fun hr => (by cases hr)⟩
  · rw [if_neg hbig]
    refine ⟨rfl, ⟨fun _ => by omega, fun _ => rfl⟩, fun _ => ?_⟩
    cases negative with
    | false => simp only [signedValue, Bool.false_eq_true, if_false]; omega
    | true => simp only [signedValue, if_true]; omega

/-- What spells no integer leaves something at `*end`, or is not read at all. -/
theorem rest_of_not_denotes {s : List UInt8} (h : ¬ ∃ z, Denotes s z) :
    ((strtol s).rest = s ∨ (strtol s).rest ≠ []) ∧
      ((strtoul s).rest = s ∨ (strtoul s).rest ≠ []) := by
  cases hs : subjectSequence s with
  | none => exact ⟨.inl (by simp [strtol, hs]), .inl (by simp [strtoul, hs])⟩
  | some r =>
    obtain ⟨negative, ds, rest⟩ := r
    have hrest : rest ≠ [] := by
      rintro rfl
      exact h ⟨_, denotes_of_subjectSequence hs⟩
    constructor
    · right
      simp only [strtol, hs]
      split_ifs <;> exact hrest
    · right
      simp only [strtoul, hs]
      split_ifs <;> exact hrest

/-! ## the checks -/

/-- A text denotes one number at most. -/
theorem Denotes.iff_eq {s : List UInt8} {y z : Int} (hz : Denotes s z) : Denotes s y ↔ y = z :=
  ⟨fun hy => hy.unique hz, fun heq => heq ▸ hz⟩

/-- The check accepts the text exactly if it spells an integer from 1 to `limit`,
and stores that integer. -/
def ChecksInteger (parse : CStr → Option Nat) (limit : Nat) (s : CStr) : Prop :=
  ∀ n : Nat, parse s = some n ↔ Denotes s.bytes n ∧ 1 ≤ n ∧ n ≤ limit

/-- What `parse_port` answers for a spelling. -/
theorem parsePort_of_denotes {s : CStr} {z : Int} (hz : Denotes s.bytes z) :
    (parsePort s).map UInt16.toNat = if 1 ≤ z ∧ z ≤ 65535 then some z.toNat else none := by
  obtain ⟨hrest, hrange, hvalue⟩ := strtol_of_denotes hz
  have hne := hz.ne_nil
  simp only [parsePort, hrest, hne.symm, false_or, ne_eq, not_true_eq_false]
  by_cases hout : (strtol s.bytes).outOfRange = true
  · have hfar : ¬ (-2 ^ 63 ≤ z ∧ z < 2 ^ 63) := by
      rw [← hrange, hout]
      decide
    rw [if_pos (.inl hout), if_neg (by omega), Option.map_none]
  · rw [hvalue (by simpa using hout)]
    by_cases hin : 1 ≤ z ∧ z ≤ 65535
    · rw [if_neg (by rintro (h | h | h); exact hout h; all_goals omega), if_pos hin, Option.map_some,
        UInt16.toNat_ofNat', Nat.mod_eq_of_lt (by omega)]
    · rw [if_pos (.inr (by omega)), if_neg hin, Option.map_none]

/-- What `parse_max_clients` answers for a spelling. -/
theorem parseMaxClients_of_denotes {s : CStr} {z : Int} (hz : Denotes s.bytes z) :
    parseMaxClients s =
      if z.natAbs < 2 ^ 64 ∧ 1 ≤ z % 2 ^ 64 ∧ z % 2 ^ 64 ≤ 1023 then some (z % 2 ^ 64).toNat
      else none := by
  obtain ⟨hrest, hrange, hvalue⟩ := strtoul_of_denotes hz
  have hne := hz.ne_nil
  simp only [parseMaxClients, hrest, hne.symm, false_or, ne_eq, not_true_eq_false]
  by_cases hout : (strtoul s.bytes).outOfRange = true
  · have hfar : ¬ z.natAbs < 2 ^ 64 := by
      rw [← hrange, hout]
      decide
    rw [if_pos (.inl hout), if_neg (by omega)]
  · have hnear := hrange.mp (by simpa using hout)
    have hval := hvalue (by simpa using hout)
    by_cases hin : 1 ≤ z % 2 ^ 64 ∧ z % 2 ^ 64 ≤ 1023
    · rw [if_neg (by rintro (h | h | h); exact hout h; all_goals omega), if_pos ⟨hnear, hin⟩, ← hval,
        Int.toNat_natCast]
    · rw [if_pos (.inr (by omega)), if_neg fun h => hin h.2]

/-- What `valid_port` answers for a spelling. -/
theorem validPort_of_denotes {s : CStr} {z : Int} (hz : Denotes s.bytes z) :
    validPort s = true ↔ z.natAbs < 2 ^ 64 ∧ 1 ≤ z % 2 ^ 64 ∧ z % 2 ^ 64 ≤ 65535 := by
  obtain ⟨hrest, hrange, hvalue⟩ := strtoul_of_denotes hz
  have hne := hz.ne_nil
  simp only [validPort, if_neg hne, hrest, decide_true, Bool.and_true, Bool.and_eq_true,
    decide_eq_true_eq, Bool.not_eq_true', hrange]
  constructor
  · rintro ⟨⟨hnear, hlow⟩, hhigh⟩
    have hval := hvalue (hrange.mpr hnear)
    omega
  · rintro ⟨hnear, hlow, hhigh⟩
    have hval := hvalue (hrange.mpr hnear)
    omega

/-- What spells no integer is accepted by none of the three. -/
theorem rejected_of_not_denotes {s : CStr} (h : ¬ ∃ z, Denotes s.bytes z) :
    parsePort s = none ∧ parseMaxClients s = none ∧ validPort s = false := by
  obtain ⟨hlong, hulong⟩ := rest_of_not_denotes h
  refine ⟨?_, ?_, ?_⟩
  · rw [parsePort]
    exact if_pos (.inr (or_assoc.mp (.inl hlong)))
  · rw [parseMaxClients]
    exact if_pos (.inr (or_assoc.mp (.inl hulong)))
  · rw [validPort]
    by_cases hempty : s.bytes = []
    · rw [if_pos hempty]
    · -- nothing was read, or something is left: `*end` is no NUL
      have hend : (strtoul s.bytes).rest ≠ [] := by
        rcases hulong with hsame | hleft
        · rw [hsame]
          exact hempty
        · exact hleft
      rw [if_neg hempty]
      simp [hend]

/-- **`parse_port`** accepts the integers from 1 to 65535. -/
theorem parsePort_checksInteger (s : CStr) :
    ChecksInteger (fun s => (parsePort s).map UInt16.toNat) 65535 s := by
  intro n
  beta_reduce
  by_cases hz : ∃ z, Denotes s.bytes z
  · obtain ⟨z, hz⟩ := hz
    rw [parsePort_of_denotes hz, hz.iff_eq]
    by_cases hin : 1 ≤ z ∧ z ≤ 65535
    · rw [if_pos hin, Option.some.injEq]
      omega
    · rw [if_neg hin]
      simp only [reduceCtorEq, false_iff]
      omega
  · rw [(rejected_of_not_denotes hz).1]
    simp only [Option.map_none, reduceCtorEq, false_iff]
    exact fun h => hz ⟨n, h.1⟩

/-! ## the three together -/

/-- The numeric settings accept only the integers they denote. -/
structure SettingsDenote (s : CStr) : Prop where
  port : ChecksInteger (fun s => (parsePort s).map UInt16.toNat) 65535 s
  maxClients : ChecksInteger parseMaxClients 1023 s
  validPort : validPort s = true ↔ (parsePort s).isSome = true

/-- The text spells one of the integers that `strtoul` takes for 1 to 65535. -/
def WrapsAround (s : CStr) : Prop :=
  ∃ z : Int, Denotes s.bytes z ∧ -(2 ^ 64 - 1) ≤ z ∧ z ≤ -(2 ^ 64 - 65535)

/-- **The numeric settings**: every text is treated as it should be, unless it
spells an integer from -(2⁶⁴ - 1) to -(2⁶⁴ - 65535). -/
theorem numericSettings_denote_iff (s : CStr) : SettingsDenote s ↔ ¬ WrapsAround s := by
  have hport := parsePort_checksInteger s
  constructor
  · rintro ⟨-, -, hvalid⟩ ⟨z, hz, hlow, hhigh⟩
    -- the client accepts it, the server does not
    have haccepted := hvalid.mp ((validPort_of_denotes hz).mpr (by omega))
    have hrejected := parsePort_of_denotes hz
    rw [if_neg (by omega), Option.map_eq_none_iff] at hrejected
    rw [hrejected] at haccepted
    cases haccepted
  · intro hwraps
    by_cases hz : ∃ z, Denotes s.bytes z
    · obtain ⟨z, hz⟩ := hz
      have hfar : ¬ (-(2 ^ 64 - 1) ≤ z ∧ z ≤ -(2 ^ 64 - 65535)) := fun h => hwraps ⟨z, hz, h⟩
      refine ⟨hport, fun n => ?_, ?_⟩
      · rw [parseMaxClients_of_denotes hz, hz.iff_eq]
        by_cases hin : z.natAbs < 2 ^ 64 ∧ 1 ≤ z % 2 ^ 64 ∧ z % 2 ^ 64 ≤ 1023
        · rw [if_pos hin, Option.some.injEq]
          omega
        · rw [if_neg hin]
          simp only [reduceCtorEq, false_iff]
          omega
      · rw [validPort_of_denotes hz, ← Option.isSome_map (f := UInt16.toNat), parsePort_of_denotes hz]
        by_cases hin : 1 ≤ z ∧ z ≤ 65535
        · rw [if_pos hin]
          simp only [Option.isSome_some, iff_true]
          omega
        · rw [if_neg hin]
          simp only [Option.isSome_none, Bool.false_eq_true, iff_false]
          omega
    · obtain ⟨hnone, hclients, hclient⟩ := rejected_of_not_denotes hz
      refine ⟨hport, fun n => ?_, by rw [hnone, hclient]; simp⟩
      rw [hclients]
      simp only [reduceCtorEq, false_iff]
      exact fun h => hz ⟨n, h.1⟩

/-- `strtoul` takes this text for 1. -/
def wrappedOne : CStr := .ofBytes (ascii "-18446744073709551615")

theorem numericSettings_wrappedOne :
    parseMaxClients wrappedOne = some 1 ∧ validPort wrappedOne = true ∧
      parsePort wrappedOne = none ∧ ¬ SettingsDenote wrappedOne := by
  refine ⟨by decide, by decide, by decide, fun h => ?_⟩
  have hsome := h.validPort.mp (by decide)
  rw [show parsePort wrappedOne = none by decide] at hsome
  cases hsome

end Kessel
