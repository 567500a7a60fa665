import Kessel.Protocol

/-!
# Kessel.Protocol.Parse

What the request parser can do to memory, and how long its arguments are.

* `ksParseLine_agree` — parsing writes into the line only, whether it succeeds
  or not;
* `ksParseLine_args` — the arguments are strings that lie one behind the other
  in the line, so their lengths add up to at most `KS_MAX_REQUEST`.
-/

namespace Kessel

open Mem

/-! ## finding the end of the line -/

/-- A bounded length is bounded. -/
theorem boundedLength_le (m : Mem) (p limit : Nat) : boundedLength m p limit ≤ limit := by
  induction limit generalizing p with
  | zero => simp [boundedLength]
  | succ limit ih =>
    have := ih (p + 1)
    rw [boundedLength]
    split <;> omega

/-- A length below the limit is the length of a string. -/
theorem isStr_boundedLength {m : Mem} {p limit : Nat} (h : boundedLength m p limit < limit) :
    m.IsStr p (boundedLength m p limit) := by
  induction limit generalizing p with
  | zero => omega
  | succ limit ih =>
    rw [boundedLength] at h ⊢
    by_cases h0 : m p = 0
    · rw [if_pos h0]
      exact ⟨by omega, h0⟩
    · rw [if_neg h0] at h ⊢
      obtain ⟨hpos, hend⟩ := ih (p := p + 1) (by omega)
      constructor
      · intro k hk
        cases k with
        | zero => exact h0
        | succ k =>
          rw [show p + (k + 1) = p + 1 + k by omega]
          exact hpos k (by omega)
      · rw [show p + (boundedLength m (p + 1) limit + 1) =
          p + 1 + boundedLength m (p + 1) limit by omega]
        exact hend

/-- The length of a string is found when the limit allows. -/
theorem boundedLength_eq {m : Mem} {p n limit : Nat} (h : m.IsStr p n) (hn : n < limit) :
    boundedLength m p limit = n := by
  induction limit generalizing p n with
  | zero => omega
  | succ limit ih =>
    rw [boundedLength]
    cases n with
    | zero => rw [if_pos (show m p = 0 from h.2)]
    | succ n =>
      have hhead : m p ≠ 0 := h.1 0 (by omega)
      have htail := h.tail (k := 1) (by omega)
      rw [Nat.add_sub_cancel] at htail
      rw [if_neg hhead, ih htail (by omega)]

/-- Trimming cuts the string and touches nothing else. -/
theorem trimCrlf_spec {m : Mem} {line length : Nat} (h : m.IsStr line length) :
    (trimCrlf m line length).2 ≤ length ∧
      (trimCrlf m line length).1.IsStr line (trimCrlf m line length).2 ∧
      AgreeOutside line (line + length) m (trimCrlf m line length).1 := by
  induction length generalizing m with
  | zero => exact ⟨le_refl _, h, .refl _ _ _⟩
  | succ length ih =>
    rw [trimCrlf]
    split
    · have hcut : (m.set (line + length) 0).IsStr line length := by
        constructor
        · intro k hk
          rw [set_of_ne _ _ (by omega)]
          exact h.1 k (by omega)
        · exact set_same _ _ _
      obtain ⟨hle, hstr, hagree⟩ := ih hcut
      refine ⟨by omega, hstr, ?_⟩
      exact ((AgreeOutside.refl _ _ m).set (by omega) 0).trans
        (hagree.mono (le_refl _) (by omega))
    · exact ⟨le_refl _, h, .refl _ _ _⟩

/-! ## scanning -/

/-- `skipSeparators` moves forward within the line. -/
theorem skipSeparators_spec (m : Mem) (read left : Nat) :
    read ≤ (skipSeparators m read left).1 ∧
      (skipSeparators m read left).1 + (skipSeparators m read left).2 = read + left := by
  induction left generalizing read with
  | zero => exact ⟨le_refl _, rfl⟩
  | succ left ih =>
    have := ih (read + 1)
    rw [skipSeparators]
    split <;> omega

/-- So does the scan of a word. -/
theorem scanWord_spec {m : Mem} {read left r l : Nat} (h : scanWord m read left = some (r, l)) :
    read ≤ r ∧ r + l = read + left := by
  induction left generalizing read with
  | zero =>
    simp only [scanWord, Option.some.injEq, Prod.mk.injEq] at h
    omega
  | succ left ih =>
    rw [scanWord] at h
    split at h
    · simp only [Option.some.injEq, Prod.mk.injEq] at h
      omega
    · split at h
      · cases h
      · have := ih h
        omega

/-- The bytes from `start` up to `w` are decoded bytes, none of them a NUL. -/
def Decoded (m : Mem) (start w : Nat) : Prop := ∀ k, start ≤ k → k < w → m k ≠ 0

/-- A NUL behind the decoded bytes makes them a string. -/
theorem Decoded.close {m : Mem} {start w : Nat} (hdec : Decoded m start w) (hle : start ≤ w) :
    (m.set w 0).IsStr start (w - start) := by
  constructor
  · intro k hk
    rw [set_of_ne _ _ (by omega)]
    exact hdec _ (by omega) (by omega)
  · rw [Nat.add_sub_cancel' hle]
    exact set_same _ _ _

/-- Storing the next decoded byte behind the read pointer. -/
theorem Decoded.store {m : Mem} {start read write left d : Nat} (hdec : Decoded m start write)
    (h : m.IsStr read left) (hw : write ≤ read) (hd : 1 ≤ d ∧ d ≤ left) {c : UInt8} (hc : c ≠ 0) :
    (m.set write c).IsStr (read + d) (left - d) ∧ Decoded (m.set write c) start (write + 1) := by
  constructor
  · exact (h.tail hd.2).congr ((AgreeOutside.refl write (write + 1) m).set (by omega) c) (by omega)
  · intro k hk hkw
    by_cases heq : k = write
    · rw [heq, set_same]
      exact hc
    · rw [set_of_ne _ _ heq]
      exact hdec k hk (by omega)

/-- What the loop over a quoted token leaves behind when it meets its quote. -/
structure Unquoted (m m' : Mem) (start read write left r l w : Nat) : Prop where
  agree : AgreeOutside write r m m'
  quote : 0 < l
  ends : r + l = read + left
  le_write : write ≤ w
  le : w ≤ r
  decoded : Decoded m' start w

/-- The quoted token is written over what has been read already, without a NUL. -/
theorem unquote_spec {m : Mem} {start read write left : Nat} (h : m.IsStr read left)
    (hstart : start ≤ write) (hw : write ≤ read) (hdec : Decoded m start write) :
    AgreeOutside write (read + left) m (unquote m read write left).1 ∧
      ∀ r l w, (unquote m read write left).2 = some (r, l, w) →
        Unquoted m (unquote m read write left).1 start read write left r l w := by
  -- one byte stored at `write`, then the rest of the token
  have after {m m' : Mem} {write b : Nat} {c : UInt8} (hb : write < b)
      (hm : AgreeOutside (write + 1) b (m.set write c) m') : AgreeOutside write b m m' :=
    ((AgreeOutside.refl write b m).set ⟨le_refl _, hb⟩ c).trans (hm.mono (by omega) (le_refl _))
  fun_induction unquote m read write left with
  | case1 => simp [AgreeOutside.refl]
  | case2 m read write left hquote =>
    refine ⟨.refl _ _ _, ?_⟩
    intro r l w heq
    simp only [Option.some.injEq, Prod.mk.injEq] at heq
    obtain ⟨rfl, rfl, rfl⟩ := heq
    exact ⟨.refl _ _ _, by omega, rfl, le_refl _, hw, hdec⟩
  | case3 => simp [AgreeOutside.refl]
  | case4 => simp [AgreeOutside.refl]
  | case5 m read write hquote hescape left hvalid ih =>
    have hpos : m (read + 1) ≠ 0 := h.1 1 (by omega)
    obtain ⟨hstr, hdec'⟩ := hdec.store h hw (d := 2) (by omega) hpos
    obtain ⟨hagree, hsome⟩ := ih hstr (by omega) (by omega) hdec'
    constructor
    · rw [show read + left.succ.succ = read + 2 + left by omega]
      exact after (by omega) hagree
    · intro r l w heq
      obtain ⟨ha, hl, hends, hle, hwr, hd⟩ := hsome r l w heq
      exact ⟨after (by omega) ha, hl, by omega, by omega, hwr, hd⟩
  | case6 m read write left hquote hescape ih =>
    have hpos : m read ≠ 0 := h.1 0 (by omega)
    obtain ⟨hstr, hdec'⟩ := hdec.store h hw (d := 1) (by omega) hpos
    obtain ⟨hagree, hsome⟩ := ih hstr (by omega) (by omega) hdec'
    constructor
    · rw [show read + (left + 1) = read + 1 + left by omega]
      exact after (by omega) hagree
    · intro r l w heq
      obtain ⟨ha, hl, hends, hle, hwr, hd⟩ := hsome r l w heq
      exact ⟨after (by omega) ha, hl, by omega, by omega, hwr, hd⟩

/-! ## tokens -/

/-- What `parse_token` leaves behind: a string between the old and the new
cursor, and an untouched rest. -/
structure Parsed (m m' : Mem) (cursor left token c l : Nat) : Prop where
  agree : AgreeOutside cursor c m m'
  ends : c + l = cursor + left
  rest : m'.IsStr c l
  le : cursor ≤ token
  str : ∃ n, m'.IsStr token n ∧ token + n ≤ c ∧ (l ≠ 0 → token + n < c)

/-- **`parse_token`** writes into the line only, and its token is a string
of it. -/
theorem parseToken_spec {m : Mem} {cursor left : Nat} (h : m.IsStr cursor left) :
    AgreeOutside cursor (cursor + left) m (parseToken m cursor left).1 ∧
      ∀ token c l, (parseToken m cursor left).2 = some (token, c, l) →
        Parsed m (parseToken m cursor left).1 cursor left token c l := by
  unfold parseToken
  by_cases hquoted : left ≠ 0 ∧ m cursor = 34
  · rw [if_pos hquoted]
    obtain ⟨hleft, -⟩ := hquoted
    obtain ⟨hagree, hsome⟩ := unquote_spec (h.tail (k := 1) (by omega)) (le_refl _) (le_refl _)
      (fun k hk hlt => by omega)
    rw [show cursor + 1 + (left - 1) = cursor + left by omega] at hagree
    have hagree' := hagree.mono (Nat.le_succ cursor) (le_refl _)
    match hu : unquote m (cursor + 1) (cursor + 1) (left - 1) with
    | (m', none) =>
      rw [hu] at hagree'
      exact ⟨hagree', by simp⟩
    | (m', some (stop, l, write)) =>
      rw [hu] at hagree' hsome
      obtain ⟨ha, hl, hends, hle, hwr, hdec⟩ := hsome stop l write rfl
      simp only
      split
      · exact ⟨hagree', by simp⟩
      · -- the token is closed with a NUL behind the decoded bytes
        obtain ⟨hskip, hskipends⟩ := skipSeparators_spec (m'.set write 0) (stop + 1) (l - 1)
        have hset : AgreeOutside cursor (stop + 1) m (m'.set write 0) :=
          (ha.mono (Nat.le_succ cursor) (Nat.le_succ stop)).set (by omega) 0
        refine ⟨hset.mono (le_refl _) (by omega), ?_⟩
        intro token c l' heq
        simp only [Option.some.injEq, Prod.mk.injEq] at heq
        obtain ⟨rfl, heq⟩ := heq
        rw [heq] at hskip hskipends
        refine ⟨hset.mono (le_refl _) hskip, by omega, ?_, by omega, write - (cursor + 1), ?_, by omega,
          by omega⟩
        · have htail := (h.tail (k := c - cursor) (by omega)).congr hset (.inr (by omega))
          rw [show cursor + (c - cursor) = c by omega, show left - (c - cursor) = l' by omega] at htail
          exact htail
        · exact hdec.close hle
  · rw [if_neg hquoted]
    match hs : scanWord m cursor left with
    | none => exact ⟨.refl _ _ _, by simp⟩
    | some (stop, 0) =>
      obtain ⟨hstop, hends⟩ := scanWord_spec hs
      refine ⟨.refl _ _ _, ?_⟩
      intro token c l heq
      simp only [Option.some.injEq, Prod.mk.injEq] at heq
      obtain ⟨rfl, rfl, rfl⟩ := heq
      have htail := h.tail (k := left) (le_refl _)
      rw [Nat.sub_self, show cursor + left = stop by omega] at htail
      exact ⟨.refl _ _ _, hends, htail, le_refl _, left, h, by omega, by omega⟩
    | some (stop, l + 1) =>
      obtain ⟨hstop, hends⟩ := scanWord_spec hs
      obtain ⟨hskip, hskipends⟩ := skipSeparators_spec (m.set stop 0) (stop + 1) l
      have hset : AgreeOutside cursor (stop + 1) m (m.set stop 0) :=
        (AgreeOutside.refl _ _ m).set (by omega) 0
      refine ⟨hset.mono (le_refl _) (by omega), ?_⟩
      intro token c l' heq
      simp only [Option.some.injEq, Prod.mk.injEq] at heq
      obtain ⟨rfl, heq⟩ := heq
      rw [heq] at hskip hskipends
      refine ⟨hset.mono (le_refl _) hskip, by omega, ?_, le_refl _, stop - cursor, ?_, by omega, by omega⟩
      · have htail := (h.tail (k := c - cursor) (by omega)).congr hset (.inr (by omega))
        rw [show cursor + (c - cursor) = c by omega, show left - (c - cursor) = l' by omega] at htail
        exact htail
      · have hword : Decoded m cursor stop := by
          intro k hk hlt
          rw [← Nat.add_sub_cancel' hk]
          exact h.1 _ (by omega)
        exact hword.close hstop

/-! ## arguments -/

/-- The tokens are strings in the memory from `a` on, of these lengths. -/
def Args (m : Mem) (a : Nat) : List Nat → List Nat → Prop :=
  List.Forall₂ fun token n => a ≤ token ∧ m.IsStr token n

/-- Arguments lie behind an earlier place as well. -/
theorem Args.mono {m : Mem} {a b : Nat} {tokens ns : List Nat} (h : Args m a tokens ns)
    (hb : b ≤ a) : Args m b tokens ns :=
  h.imp fun _ _ ⟨hle, hstr⟩ => ⟨by omega, hstr⟩

/-- Each argument lies behind the one before it. -/
theorem parseArgs_spec {m : Mem} {cursor left : Nat} (argv : List Nat) (room : Nat)
    (h : m.IsStr cursor left) :
    AgreeOutside cursor (cursor + left) m (parseArgs m cursor left argv room).1 ∧
      ∀ argv', (parseArgs m cursor left argv room).2 = some argv' →
        ∃ new ns, argv' = argv ++ new ∧ Args (parseArgs m cursor left argv room).1 cursor new ns ∧
          ns.sum ≤ left := by
  induction room generalizing m cursor left argv with
  | zero =>
    rw [parseArgs]
    split
    · refine ⟨.refl _ _ _, ?_⟩
      intro argv' heq
      exact ⟨[], [], by simpa using (Option.some.inj heq).symm, .nil, by simp⟩
    · exact ⟨.refl _ _ _, by simp⟩
  | succ room ih =>
    rw [parseArgs]
    split
    · refine ⟨.refl _ _ _, ?_⟩
      intro argv' heq
      exact ⟨[], [], by simpa using (Option.some.inj heq).symm, .nil, by simp⟩
    · obtain ⟨hagree, hsome⟩ := parseToken_spec h
      match hp : parseToken m cursor left with
      | (m₁, none) =>
        rw [hp] at hagree
        exact ⟨hagree, by simp⟩
      | (m₁, some (token, c, l)) =>
        rw [hp] at hagree hsome
        obtain ⟨ha, hends, hrest, hle, n, hstr, hn, hlt⟩ := hsome token c l rfl
        obtain ⟨hagree', hsome'⟩ := ih (argv ++ [token]) hrest
        refine ⟨hagree.trans (hagree'.mono (by omega) (by omega)), ?_⟩
        intro argv' heq
        obtain ⟨new, ns, rfl, hargs, hsum⟩ := hsome' argv' heq
        -- the later tokens are written behind this one
        have hkeep : (parseArgs m₁ c l (argv ++ [token]) room).1.IsStr token n := by
          by_cases hl : l = 0
          · rw [hagree'.eq (by omega)]
            exact hstr
          · exact hstr.congr hagree' (.inl (hlt hl))
        have hargs' := hargs.mono (show cursor ≤ c by omega)
        refine ⟨token :: new, n :: ns, by simp, .cons ⟨hle, hkeep⟩ hargs', ?_⟩
        rw [List.sum_cons]
        omega

/-! ## the line -/

/-- Changing a word to upper case writes into the word only. -/
theorem upcase_agree {m : Mem} {p n : Nat} (h : m.IsStr p n) (left : Nat) :
    AgreeOutside p (p + n) m (upcase m p left) := by
  induction left generalizing m p n with
  | zero => exact .refl _ _ _
  | succ left ih =>
    rw [upcase]
    split
    · exact .refl _ _ _
    · next hp =>
      have hn : n ≠ 0 := by
        rintro rfl
        exact hp h.2
      have hset : AgreeOutside p (p + 1) m (m.set p (toupper (m p))) :=
        (AgreeOutside.refl _ _ m).set (by omega) _
      have htail := (h.tail (k := 1) (by omega)).congr hset (.inr (le_refl _))
      have hrest := ih htail
      rw [show p + 1 + (n - 1) = p + n by omega] at hrest
      exact (hset.mono (le_refl _) (by omega)).trans (hrest.mono (by omega) (le_refl _))

/-- What a parsed line looks like: the command and the arguments are strings of
the line, one behind the other. -/
theorem ksParseLine_spec (m : Mem) (line : Nat) :
    AgreeOutside line (line + boundedLength m line (ksMaxRequest + 3)) m (ksParseLine m line).1 ∧
      ∀ c, (ksParseLine m line).2 = some c →
        ∃ a ns, Args (ksParseLine m line).1 a c.argv ns ∧ ns.sum ≤ ksMaxRequest := by
  unfold ksParseLine
  by_cases hlong : boundedLength m line (ksMaxRequest + 3) > ksMaxRequest + 2
  · simp [hlong, AgreeOutside.refl]
  have hshort : boundedLength m line (ksMaxRequest + 3) < ksMaxRequest + 3 := by omega
  have hstr := isStr_boundedLength hshort
  obtain ⟨hcut, hstr₁, hagree₁⟩ := trimCrlf_spec hstr
  simp only [hlong, if_false]
  generalize boundedLength m line (ksMaxRequest + 3) = length at *
  generalize trimCrlf m line length = trimmed at *
  obtain ⟨m₁, length₁⟩ := trimmed
  split
  · exact ⟨hagree₁, by simp⟩
  next hlong₁ =>
  obtain ⟨hskip, hskipends⟩ := skipSeparators_spec m₁ line length₁
  have hrest := hstr₁.tail (k := (skipSeparators m₁ line length₁).1 - line) (by omega)
  generalize skipSeparators m₁ line length₁ = skipped at *
  obtain ⟨cursor, left⟩ := skipped
  simp only at hskip hskipends hrest hlong₁ hcut ⊢
  rw [show line + (cursor - line) = cursor by omega,
    show length₁ - (cursor - line) = left by omega] at hrest
  split
  · exact ⟨hagree₁, by simp⟩
  obtain ⟨hagree₂, hsome₂⟩ := parseToken_spec hrest
  have hin (m₂ : Mem) (h : AgreeOutside cursor (cursor + left) m₁ m₂) :
      AgreeOutside line (line + length) m m₂ := hagree₁.trans (h.mono hskip (by omega))
  match hp : parseToken m₁ cursor left with
  | (m₂, none) =>
    rw [hp] at hagree₂
    exact ⟨hin _ hagree₂, by simp⟩
  | (m₂, some (cmd, c, l)) =>
    rw [hp] at hagree₂ hsome₂
    obtain ⟨ha, hends, hrest₂, hle, n, hcmd, hn, hlt⟩ := hsome₂ cmd c l rfl
    obtain ⟨hagree₃, hsome₃⟩ := parseArgs_spec [] ksMaxArgs hrest₂
    simp only
    split
    · exact ⟨hin _ hagree₂, by simp⟩
    have hin₃ := hin _ (hagree₂.trans (hagree₃.mono (by omega) (by omega)))
    match ha : parseArgs m₂ c l [] ksMaxArgs with
    | (m₃, none) =>
      rw [ha] at hin₃
      exact ⟨hin₃, by simp⟩
    | (m₃, some argv) =>
      rw [ha] at hin₃ hagree₃ hsome₃
      obtain ⟨new, ns, rfl, hargs, hsum⟩ := hsome₃ argv rfl
      -- the command ends before the first argument, so its letters are not theirs
      have hcmd₃ : m₃.IsStr cmd n := by
        by_cases hl : l = 0
        · have heq : m₃ = m₂ := hagree₃.eq (by omega)
          rw [heq]
          exact hcmd
        · exact hcmd.congr hagree₃ (.inl (hlt hl))
      have hup := upcase_agree hcmd₃ length₁
      refine ⟨hin₃.trans (hup.mono (by omega) (by omega)), ?_⟩
      rintro _ ⟨⟩
      refine ⟨c, ns, ?_, by omega⟩
      exact hargs.imp fun token n' ⟨htoken, hstr'⟩ => ⟨htoken, hstr'.congr hup (.inr (by omega))⟩

/-- **The arguments of a request are together no longer than the request.** -/
theorem ksParseLine_args {m : Mem} {line : Nat} {c : KsCmd}
    (h : (ksParseLine m line).2 = some c) (limit : Nat) :
    ((c.argv.map fun p => ((ksParseLine m line).1.cstr p limit).length).sum) ≤ ksMaxRequest := by
  obtain ⟨a, ns, hargs, hsum⟩ := (ksParseLine_spec m line).2 c h
  refine le_trans ?_ hsum
  clear hsum h
  generalize c.argv = argv at hargs
  induction hargs with
  | nil => simp
  | cons hhead _ ih =>
    have := length_cstr_le hhead.2.2 limit
    simp only [List.map_cons, List.sum_cons]
    omega

/-- **Parsing writes into the line only.** -/
theorem ksParseLine_agree {m : Mem} {line n : Nat} (h : m.IsStr line n) :
    AgreeOutside line (line + n) m (ksParseLine m line).1 := by
  by_cases hn : n < ksMaxRequest + 3
  · have := (ksParseLine_spec m line).1
    rwa [boundedLength_eq h hn] at this
  · exact (ksParseLine_spec m line).1.mono (le_refl _)
      (by have := boundedLength_le m line (ksMaxRequest + 3); omega)

end Kessel
