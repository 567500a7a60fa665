import Mathlib.Data.List.DropRight
import Kessel.Protocol.Grammar
import Kessel.Protocol.Parse

/-!
# Kessel.Protocol.Decode

The parser reads the grammar, in place.

`StrAt m p text` says which string stands at a pointer.  Each function of the
parser has a lemma that relates it to the reader of `Kessel.Protocol.Grammar` on
the string at its cursor; a decoded token lies between the old and the new
cursor, so later tokens never touch it (`Parsed`).

* `ksParseLineInto_grammar` — `ks_parse_line` accepts exactly the grammar, and
  leaves the decoded tokens in the line and the pointers to them in its record;
* `ksParseLineInto_quoted` — every list of arguments can be sent.
-/

namespace Kessel

open Mem CStr

/-! ## strings in memory -/

/-- The string at `p` is `text`. -/
structure StrAt (m : Mem) (p : Nat) (text : List UInt8) : Prop where
  isStr : m.IsStr p text.length
  bytes : m.read p text.length = text

namespace StrAt

variable {m m' : Mem} {p a b : Nat} {c : UInt8} {text front : List UInt8}

/-- A string in memory, as a text. -/
theorem of_isStr {n : Nat} (h : m.IsStr p n) : StrAt m p (m.read p n) :=
  ⟨by simpa using h, by simp⟩

/-- A text outside of what has changed is still there. -/
theorem congr (h : StrAt m p text) (hm : AgreeOutside a b m m') (hout : p + text.length < a ∨ b ≤ p) :
    StrAt m' p text :=
  ⟨h.isStr.congr hm hout, by rw [hm.read_eq (by omega)]; exact h.bytes⟩

/-- Moving on inside a string. -/
theorem drop (h : StrAt m p (front ++ text)) : StrAt m (p + front.length) text := by
  have hbytes := h.bytes
  rw [List.length_append, read_add] at hbytes
  have htail := h.isStr.tail (k := front.length) (by simp)
  rw [List.length_append, Nat.add_sub_cancel_left] at htail
  exact ⟨htail, (List.append_inj hbytes (by simp)).2⟩

/-- The text behind its first byte. -/
theorem tail (h : StrAt m p (c :: text)) : StrAt m (p + 1) text :=
  @drop m p text [c] h

theorem head (h : StrAt m p (c :: text)) : m p = c := by
  have hbytes := h.bytes
  rw [List.length_cons, read_succ] at hbytes
  exact (List.cons.inj hbytes).1

theorem head_ne (h : StrAt m p (c :: text)) : c ≠ 0 := by
  rw [← h.head]
  exact h.isStr.1 0 (by simp)

/-- A text has no NUL. -/
theorem noNul (h : StrAt m p text) : 0 ∉ text := by
  rw [← h.bytes, mem_read]
  rintro ⟨k, hk, hzero⟩
  exact h.isStr.1 k hk hzero

/-- One string only stands at a pointer. -/
theorem isStr_unique {n k : Nat} (h : m.IsStr p n) (h' : m.IsStr p k) : n = k := by
  rcases Nat.lt_trichotomy n k with hlt | heq | hgt
  · exact absurd h.2 (h'.1 n hlt)
  · exact heq
  · exact absurd h'.2 (h.1 k hgt)

/-- A place in memory holds one text. -/
theorem unique {text' : List UInt8} (h : StrAt m p text) (h' : StrAt m p text') : text = text' := by
  have hlen := isStr_unique h.isStr h'.isStr
  rw [← h.bytes, ← h'.bytes, hlen]

/-- A NUL cuts the string. -/
theorem cut (h : StrAt m p (front ++ c :: text)) : StrAt (m.set (p + front.length) 0) p front := by
  refine ⟨⟨fun k hk => ?_, set_same _ _ _⟩, ?_⟩
  · rw [set_of_ne _ _ (by omega)]
    exact h.isStr.1 k (by simp; omega)
  · have hbytes := h.bytes
    rw [List.length_append, read_add] at hbytes
    rw [read_set_of_notin _ _ (by omega)]
    exact (List.append_inj hbytes (by simp)).1

end StrAt

/-! ## the line -/

/-- A byte that `trim_crlf` takes off the end. -/
def isCrlf (c : UInt8) : Bool := c = 10 || c = 13

/-- The line without the CR and LF bytes at its end. -/
def trimmed (text : List UInt8) : List UInt8 := text.rdropWhile isCrlf

/-- `trim_crlf` leaves the trimmed text. -/
theorem trimCrlf_strAt {m : Mem} {line : Nat} {text : List UInt8} (h : StrAt m line text) :
    (trimCrlf m line text.length).2 = (trimmed text).length ∧
      StrAt (trimCrlf m line text.length).1 line (trimmed text) := by
  induction text using List.reverseRecOn generalizing m with
  | nil => exact ⟨rfl, h⟩
  | append_singleton front c ih =>
    have hlast : m (line + front.length) = c := h.drop.head
    rw [List.length_append, List.length_singleton, trimCrlf, hlast]
    by_cases hc : c = 10 ∨ c = 13
    · have hcrlf : isCrlf c = true := by simpa [isCrlf] using hc
      rw [if_pos hc, trimmed, List.rdropWhile_concat_pos _ _ _ hcrlf, ← trimmed]
      exact ih h.cut
    · have hcrlf : ¬ isCrlf c = true := by simpa [isCrlf] using hc
      rw [if_neg hc, trimmed, List.rdropWhile_concat_neg _ _ _ hcrlf]
      exact ⟨by simp, h⟩

/-- `skipSeparators` skips the separators of the text. -/
theorem skipSeparators_strAt {m : Mem} {p : Nat} {text : List UInt8} (h : StrAt m p text) :
    skipSeparators m p text.length =
      (p + (text.takeWhile isSeparator).length, (text.dropWhile isSeparator).length) := by
  induction text generalizing p with
  | nil => rfl
  | cons c text ih =>
    rw [List.length_cons, skipSeparators, h.head]
    by_cases hc : isSeparator c = true
    · rw [if_pos hc, ih h.tail, List.takeWhile_cons_of_pos hc, List.dropWhile_cons_of_pos hc,
        List.length_cons, Nat.add_assoc, Nat.add_comm 1]
    · rw [if_neg hc, List.takeWhile_cons_of_neg hc, List.dropWhile_cons_of_neg hc]
      rfl

/-- Where the separators have been skipped. -/
theorem StrAt.skip {m : Mem} {p : Nat} {text : List UInt8} (h : StrAt m p text) :
    StrAt m (p + (text.takeWhile isSeparator).length) (text.dropWhile isSeparator) := by
  rw [← List.takeWhile_append_dropWhile (p := isSeparator) (l := text)] at h
  exact h.drop

/-! ## tokens -/

/-- The scan of a word reads the text up to a separator, if no quote stands before
it. -/
theorem scanWord_strAt {m : Mem} {p : Nat} {text : List UInt8} (h : StrAt m p text) :
    scanWord m p text.length =
      if 34 ∈ text.takeWhile (fun c => !isSeparator c) then none
      else some (p + (text.takeWhile fun c => !isSeparator c).length,
        (text.dropWhile fun c => !isSeparator c).length) := by
  induction text generalizing p with
  | nil => rfl
  | cons c text ih =>
    rw [List.length_cons, scanWord, h.head, ih h.tail]
    by_cases hc : isSeparator c = true
    · simp [hc]
    · by_cases hquote : c = 34
      · simp [hquote, isSeparator]
      · rw [if_neg hc, if_neg hquote, List.takeWhile_cons_of_pos (by simpa using hc),
          List.dropWhile_cons_of_pos (by simpa using hc)]
        simp only [List.mem_cons, Ne.symm hquote, false_or, List.length_cons, Nat.add_assoc,
          Nat.add_comm 1]

section

variable {m : Mem} {read write : Nat}

/-- A quote ends a quoted token. -/
theorem unquote_quote (h : m read = 34) (left : Nat) :
    unquote m read write (left + 1) = (m, some (read, left + 1, write)) := by
  cases left <;> simp [unquote, h]

/-- A plain byte is copied. -/
theorem unquote_plain (hquote : m read ≠ 34) (hescape : m read ≠ 92) (left : Nat) :
    unquote m read write (left + 1) =
      unquote (m.set write (m read)) (read + 1) (write + 1) left := by
  cases left <;> simp [unquote, hquote, hescape]

/-- An escaped quote or backslash is copied without the backslash, and nothing
else may be escaped. -/
theorem unquote_escape (h : m read = 92) (left : Nat) :
    unquote m read write (left + 1 + 1) =
      if m (read + 1) ≠ 34 ∧ m (read + 1) ≠ 92 then (m, none)
      else unquote (m.set write (m (read + 1))) (read + 2) (write + 1) left := by
  simp [unquote, h]

end

/-- What the loop over a quoted token finds: `done` is what it has decoded before. -/
theorem unquote_strAt {text : List UInt8} {m : Mem} {start read write : Nat} {done : List UInt8}
    (h : StrAt m read text) (hle : start ≤ write) (hw : write ≤ read)
    (hdone : m.read start (write - start) = done) :
    match readQuoted text with
    | none => (unquote m read write text.length).2 = none
    | some (token, rest) =>
      ∃ m' r w, unquote m read write text.length = (m', some (r, rest.length + 1, w)) ∧
        StrAt m' (r + 1) rest ∧ r + 1 + rest.length = read + text.length ∧
        start ≤ w ∧ w ≤ r ∧ m'.read start (w - start) = done ++ token := by
  -- one decoded byte more, behind the ones before it
  have hstore {m : Mem} {write : Nat} {done : List UInt8} (c : UInt8) (hle : start ≤ write)
      (hdone : m.read start (write - start) = done) :
      (m.set write c).read start (write + 1 - start) = done ++ [c] := by
    rw [show write + 1 - start = write - start + 1 by omega, read_add,
      read_set_of_notin _ _ (by omega), hdone, Nat.add_sub_cancel' hle]
    simp [Mem.read, Mem.set]
  have hset {m : Mem} {read : Nat} {text : List UInt8} (c : UInt8) (write : Nat)
      (h : StrAt m read text) (hw : write < read) : StrAt (m.set write c) read text :=
    h.congr ((AgreeOutside.refl write (write + 1) m).set (by omega) c) (.inr hw)
  fun_induction readQuoted text generalizing m read write done with
  | case1 => rfl
  | case2 text =>
    refine ⟨m, read, write, ?_, h.tail, by simp; omega, hle, hw, by simpa using hdone⟩
    rw [List.length_cons, unquote_quote h.head]
  | case3 =>
    have h92 : m read = 92 := h.head
    simp [unquote, h92]
  | case4 c text hc _ ih =>
    have hhead : m (read + 1) = c := h.tail.head
    have htail := hset c write h.tail.tail (by omega)
    have hrest := ih htail (by omega) (by omega) (hstore c hle hdone)
    rw [List.length_cons, List.length_cons, unquote_escape h.head, hhead, if_neg (by tauto)]
    cases hread : readQuoted text with
    | none =>
      rw [hread] at hrest
      exact hrest
    | some r =>
      obtain ⟨token, rest⟩ := r
      rw [hread] at hrest
      obtain ⟨m', r, w, heq, hat, hends, hsw, hwr, hbytes⟩ := hrest
      exact ⟨m', r, w, heq, hat, by simp only; omega, hsw, hwr, by simpa using hbytes⟩
  | case5 c text hc =>
    have hhead : m (read + 1) = c := h.tail.head
    rw [List.length_cons, List.length_cons, unquote_escape h.head, hhead, if_pos (by tauto)]
  | case6 c text hquote hescape ih =>
    have htail := hset c write h.tail (by omega)
    have hrest := ih htail (by omega) (by omega) (hstore c hle hdone)
    rw [List.length_cons, unquote_plain (by rwa [h.head]) (by rwa [h.head]), h.head]
    cases hread : readQuoted text with
    | none =>
      rw [hread] at hrest
      exact hrest
    | some r =>
      obtain ⟨token, rest⟩ := r
      rw [hread] at hrest
      obtain ⟨m', r, w, heq, hat, hends, hsw, hwr, hbytes⟩ := hrest
      exact ⟨m', r, w, heq, hat, by simp only; omega, hsw, hwr, by simpa using hbytes⟩

/-- A text without a NUL that is followed by one. -/
theorem StrAt.of_read {m : Mem} {p n : Nat} {text : List UInt8} (h : m.read p n = text)
    (hnul : 0 ∉ text) (hend : m (p + n) = 0) : StrAt m p text := by
  have hlen : n = text.length := by rw [← h, length_read]
  rw [hlen] at h hend
  refine ⟨⟨fun k hk hzero => hnul ?_, hend⟩, h⟩
  rw [← h, mem_read]
  exact ⟨k, hk, hzero⟩

/-- `parse_token` reads the token at the cursor. -/
theorem parseToken_strAt {m : Mem} {cursor : Nat} {text : List UInt8} (h : StrAt m cursor text) :
    match readToken text with
    | none => (parseToken m cursor text.length).2 = none
    | some (token, rest) => text ≠ [] → ∃ m' p c,
      parseToken m cursor text.length = (m', some (p, c, rest.length)) ∧ StrAt m' p token ∧
        StrAt m' c rest := by
  cases text with
  | nil => exact fun hne => absurd rfl hne
  | cons b text =>
    rw [readToken]
    by_cases hquote : b = 34
    · have hquoted := unquote_strAt h.tail (le_refl (cursor + 1)) (le_refl _)
        (show m.read (cursor + 1) (cursor + 1 - (cursor + 1)) = [] by simp)
      rw [if_pos hquote, parseToken, if_pos ⟨by simp, h.head.trans hquote⟩, List.length_cons,
        Nat.add_sub_cancel]
      cases hread : readQuoted text with
      | none =>
        rw [hread] at hquoted
        generalize unquote m (cursor + 1) (cursor + 1) text.length = u at *
        obtain ⟨m', found⟩ := u
        subst hquoted
        rfl
      | some q =>
        obtain ⟨token, rest⟩ := q
        rw [hread] at hquoted
        obtain ⟨m', r, w, heq, hrest, hends, hw, hwr, hbytes⟩ := hquoted
        have hnul : 0 ∉ token := by
          obtain ⟨raw, hraw, rfl⟩ := readQuoted_eq_some.mp hread
          exact fun hmem => h.tail.noNul (List.mem_append_left _ (hraw.mem hmem))
        have hend : (rest.length + 1 - 1 ≠ 0 ∧ ¬ isSeparator (m' (r + 1)) = true) ↔
            ¬ rest.head?.all isSeparator = true := by
          cases rest with
          | nil => simp
          | cons d rest => simp [hrest.head]
        simp only [heq, hend]
        by_cases hsep : rest.head?.all isSeparator = true
        · rw [if_pos hsep, if_neg (not_not.mpr hsep), Nat.add_sub_cancel]
          intro _
          have hrest' : StrAt (m'.set w 0) (r + 1) rest :=
            hrest.congr ((AgreeOutside.refl w (w + 1) m').set (by omega) 0) (.inr (by omega))
          refine ⟨m'.set w 0, cursor + 1, _, by rw [skipSeparators_strAt hrest'], ?_, hrest'.skip⟩
          refine .of_read (n := w - (cursor + 1)) ?_ hnul ?_
          · rw [read_set_of_notin _ _ (by omega)]
            exact hbytes
          · rw [Nat.add_sub_cancel' hw, set_same]
        · rw [if_neg hsep, if_pos hsep]
    · have hhead : m cursor = b := h.head
      have hscan := scanWord_strAt h
      have hend := head?_dropWhile_word (b :: text)
      rw [if_neg hquote]
      dsimp only
      have hsplit : b :: text = (b :: text).takeWhile (fun c => !isSeparator c) ++
          (b :: text).dropWhile fun c => !isSeparator c := List.takeWhile_append_dropWhile.symm
      generalize (b :: text).takeWhile (fun c => !isSeparator c) = word at *
      generalize (b :: text).dropWhile (fun c => !isSeparator c) = tail at *
      rw [hsplit] at h hscan ⊢
      have hplain : ¬ ((word ++ tail).length ≠ 0 ∧ m cursor = 34) := fun hand =>
        hquote (hhead.symm.trans hand.2)
      rw [parseToken, if_neg hplain, hscan]
      by_cases hmem : 34 ∈ word
      · rw [if_pos hmem, if_pos hmem]
      · rw [if_neg hmem, if_neg hmem]
        intro _
        cases tail with
        | nil =>
          have hdone : StrAt m (cursor + word.length) [] := h.drop
          rw [List.append_nil] at h
          exact ⟨m, cursor, _, rfl, h, hdone⟩
        | cons d tail =>
          have hsep : isSeparator d = true := by simpa using hend
          have hset : AgreeOutside (cursor + word.length) (cursor + word.length + 1) m
              (m.set (cursor + word.length) 0) := (AgreeOutside.refl _ _ m).set (by omega) 0
          have hrest := h.drop.tail.congr hset (.inr (le_refl _))
          rw [List.dropWhile_cons_of_pos hsep]
          refine ⟨_, cursor, _, ?_, h.cut, hrest.skip⟩
          simp only [List.length_cons, skipSeparators_strAt hrest]

/-! ## the line as a whole -/

/-- The new cursor is behind the token. -/
theorem Parsed.token_le {m m' : Mem} {cursor left token c l : Nat} {text : List UInt8}
    (h : Parsed m m' cursor left token c l) (hat : StrAt m' token text) : token + text.length ≤ c := by
  obtain ⟨n, hstr, hn, -⟩ := h.str
  rwa [StrAt.isStr_unique hstr hat.isStr] at hn

/-- What is parsed behind a token leaves it as it is. -/
theorem Parsed.keeps {m m' m'' : Mem} {cursor left token c l : Nat} {text : List UInt8}
    (h : Parsed m m' cursor left token c l) (hat : StrAt m' token text)
    (hagree : m'.AgreeOutside c (c + l) m'') : StrAt m'' token text := by
  obtain ⟨n, hstr, -, hlt⟩ := h.str
  rw [StrAt.isStr_unique hstr hat.isStr] at hlt
  by_cases hl : l = 0
  · have hsame : m'' = m' := hagree.eq (by omega)
    exact hsame ▸ hat
  · exact hat.congr hagree (.inl (hlt hl))

/-- The loop over the arguments reads the tokens at the cursor. -/
theorem parseArgs_strAt {m : Mem} {cursor : Nat} {text : List UInt8} (argv : List Nat) (room : Nat)
    (h : StrAt m cursor text) :
    match readArgs room text with
    | none => (parseArgs m cursor text.length argv room).2 = none
    | some args => ∃ m' new,
      parseArgs m cursor text.length argv room = (m', some (argv ++ new)) ∧
        List.Forall₂ (fun p arg => cursor ≤ p ∧ StrAt m' p arg) new args := by
  induction room generalizing m cursor text argv with
  | zero =>
    rw [readArgs, parseArgs]
    cases text with
    | nil => exact ⟨m, [], by simp, .nil⟩
    | cons c text => rfl
  | succ room ih =>
    rw [readArgs, parseArgs]
    by_cases hnil : text = []
    · rw [if_pos hnil, if_pos (by simp [hnil])]
      exact ⟨m, [], by simp, .nil⟩
    rw [if_neg hnil, if_neg (by simpa using hnil)]
    have htoken := parseToken_strAt h
    obtain ⟨-, hspec⟩ := parseToken_spec h.isStr
    cases hread : readToken text with
    | none =>
      rw [hread] at htoken
      generalize parseToken m cursor text.length = r at *
      obtain ⟨m', found⟩ := r
      subst htoken
      rfl
    | some q =>
      obtain ⟨token, rest⟩ := q
      rw [hread] at htoken
      obtain ⟨m', p, c, heq, hat, hrest⟩ := htoken hnil
      have hparsed := hspec p c rest.length (by rw [heq])
      rw [heq] at hparsed
      have hargs := ih (argv ++ [p]) hrest
      obtain ⟨hagree, -⟩ := parseArgs_spec (argv ++ [p]) room hrest.isStr
      simp only [heq]
      cases hreads : readArgs room rest with
      | none =>
        rw [hreads] at hargs
        exact hargs
      | some args =>
        rw [hreads] at hargs
        obtain ⟨m'', new, heq', hall⟩ := hargs
        rw [heq'] at hagree
        -- the later tokens are written behind this one
        have hkeep : StrAt m'' p token := hparsed.keeps hat hagree
        have hbehind := hparsed.token_le hat
        have hle := hparsed.le
        refine ⟨m'', p :: new, by rw [heq']; simp, .cons ⟨hparsed.le, hkeep⟩ ?_⟩
        refine hall.imp ?_
        rintro p' arg ⟨hc, hat'⟩
        exact ⟨by omega, hat'⟩

/-- Upper case makes no NUL. -/
theorem toupper_ne_zero {c : UInt8} (h : c ≠ 0) : toupper c ≠ 0 := by
  unfold toupper
  split
  · next hlow =>
    intro heq
    have hspace : c = 0 + 32 := UInt8.sub_eq_iff_eq_add.mp heq
    exact absurd (hspace ▸ hlow.1) (by decide)
  · exact h

/-- A byte in front of a text. -/
theorem StrAt.cons {m : Mem} {p : Nat} {c : UInt8} {text : List UInt8} (hc : m p = c) (hne : c ≠ 0)
    (h : StrAt m (p + 1) text) : StrAt m p (c :: text) := by
  refine .of_read (n := text.length + 1) ?_ ?_ ?_
  · rw [read_succ, hc, h.bytes]
  · rw [List.mem_cons, not_or]
    exact ⟨hne.symm, h.noNul⟩
  · rw [Nat.add_comm text.length 1, ← Nat.add_assoc]
    exact h.isStr.2

/-- The command name in upper case. -/
theorem upcase_strAt {m : Mem} {p left : Nat} {text : List UInt8} (h : StrAt m p text)
    (hleft : text.length ≤ left) : StrAt (upcase m p left) p (text.map toupper) := by
  induction text generalizing m p left with
  | nil =>
    cases left with
    | zero => exact h
    | succ left =>
      have hzero : m p = 0 := h.isStr.2
      rw [upcase, if_pos hzero]
      exact h
  | cons c text ih =>
    obtain ⟨left, rfl⟩ := Nat.exists_eq_add_of_le' (show 1 ≤ left by simp at hleft; omega)
    have hhead : m p ≠ 0 := h.head ▸ h.head_ne
    have hset : AgreeOutside p (p + 1) m (m.set p (toupper (m p))) :=
      (AgreeOutside.refl _ _ m).set (by omega) _
    have htail := h.tail.congr hset (.inr (le_refl _))
    have hrest := ih htail (by simpa using hleft)
    have hfirst := upcase_agree htail.isStr left p (.inl (by omega))
    rw [upcase, if_neg hhead, List.map_cons]
    refine .cons ?_ (toupper_ne_zero h.head_ne) hrest
    rw [hfirst, set_same, h.head]

/-- The command and the arguments that a line stands for. -/
def readLine (text : List UInt8) : Option (List UInt8 × List (List UInt8)) :=
  if text.length ≤ ksMaxRequest + 2 ∧ (trimmed text).length ≤ ksMaxRequest then
    (readRequest (trimmed text)).map fun r => (r.1.map toupper, r.2)
  else none

/-- **`ks_parse_line` reads the line.** -/
theorem ksParseLine_strAt {m : Mem} {line : Nat} {text : List UInt8} (h : StrAt m line text) :
    match readLine text with
    | none => (ksParseLine m line).2 = none
    | some (name, args) => ∃ m' cmd argv, ksParseLine m line = (m', some ⟨cmd, argv⟩) ∧
      StrAt m' cmd name ∧ List.Forall₂ (StrAt m') argv args := by
  unfold ksParseLine readLine
  by_cases hlong : boundedLength m line (ksMaxRequest + 3) > ksMaxRequest + 2
  · have : ¬ text.length ≤ ksMaxRequest + 2 := fun hle => by
      rw [boundedLength_eq h.isStr (by omega)] at hlong
      omega
    rw [if_neg fun hand => this hand.1]
    simp only [hlong, if_true]
  have hlen : boundedLength m line (ksMaxRequest + 3) = text.length :=
    StrAt.isStr_unique (isStr_boundedLength (by omega)) h.isStr
  obtain ⟨hcut, hat⟩ := trimCrlf_strAt h
  rw [hlen] at hlong ⊢
  simp only [hlong, if_false]
  generalize trimmed text = body at *
  generalize trimCrlf m line text.length = cut at *
  obtain ⟨m₁, length₁⟩ := cut
  obtain rfl : length₁ = body.length := hcut
  by_cases hbody : body.length > ksMaxRequest
  · rw [if_neg fun hand => by omega]
    simp only [hbody, if_true]
  rw [if_pos (by omega)]
  simp only [hbody, if_false, skipSeparators_strAt hat, readRequest]
  have hskip := hat.skip
  have hwidth : (body.takeWhile isSeparator).length + (body.dropWhile isSeparator).length =
      body.length := by
    rw [← List.length_append, List.takeWhile_append_dropWhile]
  generalize body.takeWhile isSeparator = seps at *
  generalize body.dropWhile isSeparator = rest at *
  by_cases hnil : rest = []
  · simp only [hnil, if_true, List.length_nil, Option.map_none]
  simp only [hnil, if_false, List.length_eq_zero_iff]
  have htoken := parseToken_strAt hskip
  obtain ⟨-, hspec⟩ := parseToken_spec hskip.isStr
  cases hread : readToken rest with
  | none =>
    rw [hread] at htoken
    generalize parseToken m₁ (line + seps.length) rest.length = r at *
    obtain ⟨m₂, found⟩ := r
    subst htoken
    rfl
  | some q =>
    obtain ⟨name, after⟩ := q
    rw [hread] at htoken
    obtain ⟨m₂, cmd, c, heq, hname, hafter⟩ := htoken hnil
    have hparsed := hspec cmd c after.length (by rw [heq])
    rw [heq] at hparsed
    simp only [heq]
    cases name with
    | nil =>
      have hzero : m₂ cmd = 0 := hname.isStr.2
      simp only [hzero, if_true, Option.map_none]
    | cons b name =>
      have hne : m₂ cmd ≠ 0 := hname.head ▸ hname.head_ne
      simp only [hne, if_false, List.cons_ne_nil]
      have hargs := parseArgs_strAt [] ksMaxArgs hafter
      obtain ⟨hagree, -⟩ := parseArgs_spec [] ksMaxArgs hafter.isStr
      cases hreads : readArgs ksMaxArgs after with
      | none =>
        rw [hreads] at hargs
        generalize parseArgs m₂ c after.length [] ksMaxArgs = r at *
        obtain ⟨m₃, found⟩ := r
        subst hargs
        rfl
      | some args =>
        rw [hreads] at hargs
        obtain ⟨m₃, argv, heq', hall⟩ := hargs
        rw [heq'] at hagree
        -- the arguments are written behind the name
        have hkeep : StrAt m₃ cmd (b :: name) := hparsed.keeps hname hagree
        have hbehind := hparsed.token_le hname
        have hends := hparsed.ends
        have hle := hparsed.le
        have hup := upcase_agree hkeep.isStr body.length
        simp only [heq', List.nil_append, Option.map_some]
        refine ⟨_, cmd, argv, rfl, upcase_strAt hkeep (by omega), ?_⟩
        refine hall.imp ?_
        rintro p arg ⟨hc, harg⟩
        exact harg.congr hup (.inr (by omega))

/-! ## the caller's record -/

/-- The record points to the command and the arguments, and nowhere else. -/
structure KsCmdOut.Holds (out : KsCmdOut) (cmd : Option Nat) (argv : List Nat) : Prop where
  cmd : out.cmd = cmd
  argc : out.argc = argv.length
  argv : ∀ (i : Nat) (h : i < ksMaxArgs), out.argv[i] = argv[i]?

/-- A cleared record holds no command. -/
theorem clearCommand_holds (out : KsCmdOut) : (clearCommand out).Holds none [] :=
  ⟨rfl, rfl, fun _ _ => by simp [clearCommand]⟩

/-- The record takes one more token. -/
theorem KsCmdOut.Holds.push {out : KsCmdOut} {cmd : Option Nat} {argv : List Nat}
    (h : out.Holds cmd argv) (token : Nat) : (out.push token).Holds cmd (argv ++ [token]) := by
  refine ⟨h.cmd, by simp [KsCmdOut.push, h.argc], ?_⟩
  intro i hi
  have hget : (out.push token).argv[i] = if out.argc = i then some token else out.argv[i] := by
    simp [KsCmdOut.push, Vector.getElem_setIfInBounds]
  rw [hget, h.argc, h.argv i hi, List.getElem?_append]
  split
  · next heq => simp [heq]
  · next hne =>
    split
    · rfl
    · rw [List.getElem?_eq_none (by omega), List.getElem?_eq_none (by simp; omega)]

/-- **`parseArgsInto`** reads the arguments one after the other, while there is
room. -/
theorem parseArgsInto_eq {out : KsCmdOut} {cmd : Nat} {argv : List Nat} (m : Mem)
    (cursor left room : Nat) (h : out.Holds (some cmd) argv) :
    let r := parseArgsInto m cursor left out room
    let s := parseArgs m cursor left argv room
    r.1 = s.1 ∧ r.2.2 = s.2.isSome ∧ r.2.1.Holds (s.2.map fun _ => cmd) (s.2.getD []) := by
  induction room generalizing m cursor left out argv with
  | zero =>
    rw [parseArgsInto, parseArgs]
    split
    · exact ⟨rfl, rfl, h⟩
    · exact ⟨rfl, rfl, clearCommand_holds out⟩
  | succ room ih =>
    rw [parseArgsInto, parseArgs]
    split
    · exact ⟨rfl, rfl, h⟩
    · obtain ⟨m', found⟩ := parseToken m cursor left
      cases found with
      | none => exact ⟨rfl, rfl, clearCommand_holds out⟩
      | some found => exact ih m' found.2.1 found.2.2 (h.push found.1)

/-- The record says what `ksParseLine` says. -/
theorem ksParseLineInto_eq (m : Mem) (line : Nat) (out : KsCmdOut) :
    let r := ksParseLineInto m line out
    let s := ksParseLine m line
    r.1 = s.1 ∧ r.2.2 = s.2.isSome ∧ r.2.1.Holds (s.2.map KsCmd.cmd) (s.2.elim [] KsCmd.argv) := by
  have hclear := clearCommand_holds out
  unfold ksParseLineInto ksParseLine
  generalize clearCommand out = out₀ at *
  dsimp only
  split
  · exact ⟨rfl, rfl, hclear⟩
  split
  · exact ⟨rfl, rfl, hclear⟩
  split
  · exact ⟨rfl, rfl, hclear⟩
  match parseToken _ _ _ with
  | (m₂, none) => exact ⟨rfl, rfl, clearCommand_holds _⟩
  | (m₂, some (cmd, cursor, left)) =>
    dsimp only
    split
    · exact ⟨rfl, rfl, clearCommand_holds _⟩
    · have hcmd : KsCmdOut.Holds { out₀ with cmd := some cmd } (some cmd) [] :=
        ⟨rfl, hclear.argc, hclear.argv⟩
      obtain ⟨hmem, hsome, hholds⟩ := parseArgsInto_eq m₂ cursor left ksMaxArgs hcmd
      generalize parseArgsInto m₂ cursor left _ ksMaxArgs = r at *
      generalize parseArgs m₂ cursor left [] ksMaxArgs = s at *
      obtain ⟨m₃, out₃, ok⟩ := r
      obtain ⟨m₃', found⟩ := s
      obtain rfl : m₃ = m₃' := hmem
      cases found with
      | none =>
        obtain rfl : ok = false := hsome
        exact ⟨rfl, rfl, hholds⟩
      | some argv =>
        obtain rfl : ok = true := hsome
        exact ⟨rfl, rfl, hholds⟩

/-- The strings that the record points to. -/
structure KsCmdOut.Reads (out : KsCmdOut) (m : Mem) (name : List UInt8) (args : List (List UInt8)) :
    Prop where
  cmd : ∃ p, out.cmd = some p ∧ StrAt m p name
  argc : out.argc = args.length
  argv : ∀ (i : Nat) (h : i < ksMaxArgs),
    match args[i]? with
    | none => out.argv[i] = none
    | some arg => ∃ p, out.argv[i] = some p ∧ StrAt m p arg

/-- The tokens that the record points to are read back. -/
theorem KsCmdOut.Holds.reads {out : KsCmdOut} {m : Mem} {cmd : Nat} {argv : List Nat}
    {name : List UInt8} {args : List (List UInt8)} (h : out.Holds (some cmd) argv)
    (hcmd : StrAt m cmd name) (hargs : List.Forall₂ (StrAt m) argv args) : out.Reads m name args := by
  refine ⟨⟨cmd, h.cmd, hcmd⟩, h.argc.trans hargs.length_eq, ?_⟩
  intro i hi
  rw [h.argv i hi]
  clear h hi
  induction hargs generalizing i with
  | nil => rfl
  | cons hhead _ ih =>
    cases i with
    | zero => exact ⟨_, rfl, hhead⟩
    | succ i => simpa using ih i

/-- What `ks_parse_line` makes of a line. -/
theorem ksParseLineInto_strAt {m : Mem} {line : Nat} {text : List UInt8} (h : StrAt m line text)
    (out : KsCmdOut) :
    match ksParseLineInto m line out with
    | (m', out', ok) =>
      match readLine text with
      | none => ok = false ∧ out'.Holds none []
      | some (name, args) => ok = true ∧ out'.Reads m' name args := by
  obtain ⟨hmem, hsome, hholds⟩ := ksParseLineInto_eq m line out
  have hparse := ksParseLine_strAt h
  generalize ksParseLineInto m line out = r at *
  obtain ⟨m', out', ok⟩ := r
  cases hread : readLine text with
  | none =>
    rw [hread] at hparse
    rw [hparse] at hsome hholds
    exact ⟨hsome, hholds⟩
  | some q =>
    obtain ⟨name, args⟩ := q
    rw [hread] at hparse
    obtain ⟨m'', cmd, argv, heq, hname, hargs⟩ := hparse
    rw [heq] at hmem hsome hholds
    obtain rfl : m' = m'' := hmem
    exact ⟨hsome, hholds.reads hname hargs⟩

/-- A line is read when it is short enough and follows the grammar. -/
theorem readLine_eq_some {text name : List UInt8} {args : List (List UInt8)} :
    readLine text = some (name, args) ↔
      text.length ≤ ksMaxRequest + 2 ∧ (trimmed text).length ≤ ksMaxRequest ∧
        ∃ written, IsRequest (trimmed text) written args ∧ written.map toupper = name := by
  unfold readLine
  split
  · next hlen =>
    rw [Option.map_eq_some_iff]
    constructor
    · rintro ⟨⟨written, args'⟩, hread, heq⟩
      cases heq
      exact ⟨hlen.1, hlen.2, written, readRequest_eq_some.mp hread, rfl⟩
    · rintro ⟨-, -, written, hreq, rfl⟩
      exact ⟨(written, args), readRequest_eq_some.mpr hreq, rfl⟩
  · next hlen => exact ⟨fun h => (by cases h), fun h => absurd ⟨h.1, h.2.1⟩ hlen⟩

/-- A line as it stands in a buffer, with its NUL. -/
theorem strAt_write {text : List UInt8} (hnul : 0 ∉ text) (m : Mem) (line : Nat) :
    StrAt (m.write line (text ++ [0])) line text := by
  have hread := read_write m line (text ++ [0])
  rw [List.length_append, read_add] at hread
  obtain ⟨htext, hend⟩ := List.append_inj hread (by simp)
  refine .of_read htext hnul ?_
  rw [List.length_singleton, read_succ] at hend
  exact (List.cons.inj hend).1

/-- **`ks_parse_line` accepts exactly its grammar, in place.** -/
theorem ksParseLineInto_grammar {m : Mem} {line : Nat} {text : List UInt8} (h : StrAt m line text)
    (out : KsCmdOut) :
    match ksParseLineInto m line out with
    | (m', out', ok) =>
      (ok = true ↔ text.length ≤ ksMaxRequest + 2 ∧ (trimmed text).length ≤ ksMaxRequest ∧
        ∃ name args, IsRequest (trimmed text) name args) ∧
      (ok = true → ∀ name args, IsRequest (trimmed text) name args →
        out'.Reads m' (name.map toupper) args) ∧
      (ok = false → out'.cmd = none ∧ out'.argc = 0 ∧
        ∀ (i : Nat) (h : i < ksMaxArgs), out'.argv[i] = none) ∧
      AgreeOutside line (line + text.length) m m' := by
  have hmem := (ksParseLineInto_eq m line out).1
  have hagree := ksParseLine_agree h.isStr
  have hresult := ksParseLineInto_strAt h out
  rw [← hmem] at hagree
  generalize ksParseLineInto m line out = r at *
  obtain ⟨m', out', ok⟩ := r
  dsimp only at hresult hagree ⊢
  cases hread : readLine text with
  | none =>
    rw [hread] at hresult
    obtain ⟨rfl, hcleared⟩ := hresult
    refine ⟨⟨fun hok => (by cases hok), ?_⟩, fun hok => (by cases hok), fun _ => ?_, hagree⟩
    · rintro ⟨hlen, hbody, name, args, hreq⟩
      have hsome := readLine_eq_some.mpr ⟨hlen, hbody, name, hreq, rfl⟩
      rw [hread] at hsome
      cases hsome
    · exact ⟨hcleared.cmd, hcleared.argc, fun i hi => by simpa using hcleared.argv i hi⟩
  | some q =>
    obtain ⟨name, args⟩ := q
    rw [hread] at hresult
    obtain ⟨rfl, hreads⟩ := hresult
    obtain ⟨hlen, hbody, written, hreq, -⟩ := readLine_eq_some.mp hread
    refine ⟨⟨fun _ => ⟨hlen, hbody, written, args, hreq⟩, fun _ => rfl⟩, fun _ => ?_,
      fun hok => (by cases hok), hagree⟩
    intro name' args' hreq'
    have hsame := readLine_eq_some.mpr ⟨hlen, hbody, name', hreq', rfl⟩
    rw [hread] at hsame
    cases hsame
    exact hreads

/-- The line `set "a b" ""` in a zeroed buffer. -/
def setLine : Mem := Mem.write (fun _ => 0) 0 (ascii "set \"a b\" \"\"\r\n" ++ [0])

theorem ksParseLineInto_grammar_set :
    let r := ksParseLineInto setLine 0 ⟨none, 0, .replicate _ none⟩
    r.2.1.Reads r.1 (ascii "SET") [ascii "a b", []] ∧ AgreeOutside 0 14 setLine r.1 := by
  have hline : StrAt setLine 0 (ascii "set \"a b\" \"\"\r\n") := strAt_write (by decide) _ 0
  have hreq : IsRequest (trimmed (ascii "set \"a b\" \"\"\r\n")) (ascii "set") [ascii "a b", []] :=
    readRequest_eq_some.mp (by decide +kernel)
  obtain ⟨haccepts, hreads, -, hagree⟩ :=
    ksParseLineInto_grammar hline ⟨none, 0, .replicate _ none⟩
  exact ⟨hreads (haccepts.mpr ⟨by decide +kernel, by decide +kernel, _, _, hreq⟩) _ _ hreq, hagree⟩

/-! ## writing a line -/

/-- A tail that is dropped as a whole. -/
theorem rdropWhile_append_of_pos {p : UInt8 → Bool} (body : List UInt8) {tail : List UInt8}
    (htail : ∀ c ∈ tail, p c = true) : (body ++ tail).rdropWhile p = body.rdropWhile p := by
  rw [List.rdropWhile, List.reverse_append,
    List.dropWhile_append_of_pos fun c hc => htail c (List.mem_reverse.mp hc), List.rdropWhile]

/-- A terminator is trimmed. -/
theorem trimmed_append (body : List UInt8) {terminator : List UInt8}
    (hterm : ∀ c ∈ terminator, isCrlf c = true) : trimmed (body ++ terminator) = trimmed body :=
  rdropWhile_append_of_pos body hterm

/-- Quoting makes no NUL. -/
theorem noNul_quote {text : List UInt8} (h : 0 ∉ text) : 0 ∉ quote text := by
  have hescape : 0 ∉ escape text := by
    rw [escape, List.mem_flatMap]
    rintro ⟨c, hc, hmem⟩
    split at hmem
    · simp only [List.mem_cons, List.not_mem_nil, or_false] at hmem
      rcases hmem with hmem | rfl
      · cases hmem
      · exact h hc
    · exact h (List.mem_singleton.mp hmem ▸ hc)
  simpa [quote] using hescape

/-- A quoted request has no NUL when its parts have none. -/
theorem noNul_quotedRequest {name : List UInt8} (hname : 0 ∉ name)
    {args : List (List UInt8 × List UInt8)} (hargs : ∀ a ∈ args, Separators a.1 ∧ 0 ∉ a.2) :
    0 ∉ quotedRequest name args := by
  rw [quotedRequest, List.mem_append, not_or, List.mem_flatMap]
  refine ⟨noNul_quote hname, ?_⟩
  rintro ⟨a, ha, hmem⟩
  obtain ⟨hseps, harg⟩ := hargs a ha
  rcases List.mem_append.mp hmem with hmem | hmem
  · exact absurd (hseps 0 hmem) (by decide)
  · exact noNul_quote harg hmem

/-- **Every list of arguments is expressible**: quoted, joined by any separators
and followed by `\r\n`. -/
theorem ksParseLineInto_quoted (m : Mem) (line : Nat) (out : KsCmdOut) {name : List UInt8}
    {args : List (List UInt8 × List UInt8)} (hname : name ≠ []) (hnul : 0 ∉ name)
    (hargs : ∀ a ∈ args, 0 ∉ a.2) (hseps : ∀ a ∈ args, a.1 ≠ [] ∧ Separators a.1)
    (hcount : args.length ≤ ksMaxArgs) (hlen : (quotedRequest name args).length ≤ ksMaxRequest) :
    match ksParseLineInto (m.write line (quotedRequest name args ++ [13, 10] ++ [0])) line out with
    | (m', out', ok) => ok = true ∧ out'.Reads m' (name.map toupper) (args.map Prod.snd) := by
  have hbody := noNul_quotedRequest hnul fun a ha => ⟨(hseps a ha).2, hargs a ha⟩
  have hline : 0 ∉ quotedRequest name args ++ [13, 10] := by simpa using hbody
  have hresult := ksParseLineInto_strAt (strAt_write hline m line) out
  obtain ⟨front, hfront⟩ := quotedRequest_eq_snoc name args
  have htrim : trimmed (quotedRequest name args ++ [13, 10]) = quotedRequest name args := by
    rw [trimmed_append _ (by simp [isCrlf]), hfront]
    exact List.rdropWhile_concat_neg _ _ _ (by decide)
  have hread : readLine (quotedRequest name args ++ [13, 10]) =
      some (name.map toupper, args.map Prod.snd) :=
    readLine_eq_some.mpr ⟨by simp; omega, by rwa [htrim], name,
      by rw [htrim]; exact isRequest_quoted hname hcount hseps, rfl⟩
  rw [hread] at hresult
  exact hresult

theorem ksParseLineInto_quoted_echo :
    let line := ascii "\"echo\" \t\"a\\\\ \\\"\"\r\n"
    let r := ksParseLineInto (Mem.write (fun _ => 0) 0 (line ++ [0])) 0 ⟨none, 0, .replicate _ none⟩
    r.2.2 = true ∧ r.2.1.Reads r.1 (ascii "ECHO") [ascii "a\\ \""] :=
  @ksParseLineInto_quoted (fun _ => 0) 0 ⟨none, 0, .replicate _ none⟩ (ascii "echo")
    [(ascii " \t", ascii "a\\ \"")] (by decide) (by decide) (by decide)
    (by simp [Separators, ascii, isSeparator]) (by decide +kernel) (by decide +kernel)

end Kessel
