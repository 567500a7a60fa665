import Kessel.Protocol.Decode
import Kessel.Server.Requests

/-!
# Kessel.Server.Dispatch

What a dispatched line asks for.

`process_requests` takes one `\r` off the end of a line to measure it, and
`trim_crlf` takes off all of them.  The two agree on the length of a body, and
`dispatched_body_agrees` says when they agree on its command.
-/

namespace Kessel

open Mem CStr

/-! ## carriage returns behind a request -/

/-- An empty text has no tokens. -/
theorem Tokens.eq_nil {tokens : List (List UInt8)} (h : Tokens [] tokens) : tokens = [] := by
  generalize htext : ([] : List UInt8) = text at h
  cases h with
  | nil => rfl
  | cons htoken => exact absurd (List.append_eq_nil_iff.mp htext.symm).1 (htoken.atToken []).2

/-- A text without tokens is empty. -/
theorem Tokens.nil_eq {text : List UInt8} (h : Tokens text []) : text = [] := by
  cases h
  rfl

/-- The bytes that the tokens stand for. -/
def tokenBytes (tokens : List (List UInt8)) : Nat := (tokens.map List.length).sum

/-- A carriage return at the end belongs to the last token, which is a word. -/
theorem Tokens.dropCr {text : List UInt8} {tokens : List (List UInt8)}
    (h : Tokens (text ++ [13]) tokens) :
    ∃ tokens', Tokens text tokens' ∧ tokenBytes tokens = tokenBytes tokens' + 1 ∧
      tokens'.length ≤ tokens.length ∧ (tokens.head? ≠ some [] → tokens'.head? ≠ some []) := by
  generalize hwhole : text ++ [13] = whole at h
  induction h generalizing text with
  | nil => simp at hwhole
  | @cons raw seps rest token tokens htoken hseps hend hrest ih =>
    rcases List.eq_nil_or_concat' rest with rfl | ⟨rest', c, rfl⟩
    · obtain rfl := hrest.eq_nil
      have hnone : seps = [] := by
        rcases List.eq_nil_or_concat' seps with rfl | ⟨seps', c, rfl⟩
        · rfl
        · rw [List.append_nil, ← List.append_assoc] at hwhole
          obtain rfl : 13 = c := by simpa using (List.append_inj' hwhole rfl).2
          exact absurd (hseps 13 (by simp)) (by decide)
      rw [hnone, List.append_nil, List.append_nil] at hwhole
      cases htoken with
      | word hne hw =>
        subst hwhole
        by_cases hnil : text = []
        · subst hnil
          exact ⟨[], .nil, rfl, by simp, by simp⟩
        · have hlast := Tokens.cons (.word hnil fun c hc => hw c (by simp [hc]))
            (show Separators [] by simp [Separators]) (.inr rfl) .nil
          rw [List.append_nil, List.append_nil] at hlast
          exact ⟨[text], hlast, by simp [tokenBytes], by simp, by simp [hnil]⟩
      | quoted hraw =>
        rw [← List.cons_append] at hwhole
        exact absurd (List.append_inj' hwhole rfl).2 (by decide)
    · rw [← List.append_assoc, ← List.append_assoc] at hwhole
      obtain ⟨rfl, hc⟩ := List.append_inj' hwhole rfl
      obtain ⟨tokens', htokens', hbytes, hlen, -⟩ := ih (show rest' ++ [13] = rest' ++ [c] by rw [hc])
      have hseps' : seps ≠ [] := hend.resolve_right (by simp)
      have hcons := Tokens.cons htoken hseps (.inl hseps') htokens'
      refine ⟨token :: tokens', by simpa using hcons, ?_, by simpa using hlen, by simp⟩
      simp only [tokenBytes, List.map_cons, List.sum_cons] at hbytes ⊢
      omega

/-- A request that ends in carriage returns, and what is left without them. -/
theorem IsRequest.dropCrs {text name : List UInt8} {args : List (List UInt8)} {k : Nat}
    (h : IsRequest (text ++ List.replicate k 13) name args) :
    Separators text ∨ ∃ name' args', IsRequest text name' args' ∧
      tokenBytes (name :: args) = tokenBytes (name' :: args') + k := by
  induction k generalizing name args with
  | zero => exact .inr ⟨name, args, by simpa using h, rfl⟩
  | succ k ih =>
    rw [List.replicate_succ', ← List.append_assoc] at h
    obtain ⟨seps, rest, hsplit, hseps, htokens, hname, hcount⟩ := h
    rcases List.eq_nil_or_concat' rest with rfl | ⟨rest', c, rfl⟩
    · exact absurd htokens.eq_nil (by simp)
    rw [← List.append_assoc] at hsplit
    obtain ⟨hfront, hc⟩ := List.append_inj' hsplit rfl
    obtain rfl : 13 = c := by simpa using hc
    obtain ⟨tokens', htokens', hbytes, hlen, hfirst⟩ := htokens.dropCr
    cases tokens' with
    | nil =>
      rw [htokens'.nil_eq, List.append_nil] at hfront
      exact .inl fun c hc => hseps c (hfront ▸ List.mem_append_left _ hc)
    | cons name' args' =>
      have hreq : IsRequest (text ++ List.replicate k 13) name' args' := by
        refine ⟨seps, rest', hfront, hseps, htokens', ?_, ?_⟩
        · simpa using hfirst (by simpa using hname)
        · simp at hlen
          omega
      rcases ih hreq with hblank | ⟨name'', args'', hreq'', hbytes''⟩
      · exact .inl hblank
      · exact .inr ⟨name'', args'', hreq'', by omega⟩

/-- Carriage returns alone are a command name. -/
theorem isRequest_crs {text : List UInt8} (h : Separators text) (k : Nat) :
    IsRequest (text ++ List.replicate (k + 1) 13) (List.replicate (k + 1) 13) [] := by
  have hword : ∀ c ∈ List.replicate (k + 1) (13 : UInt8), isSeparator c = false ∧ c ≠ 34 := by
    intro c hc
    rw [List.eq_of_mem_replicate hc]
    decide
  have hlast := Tokens.cons (.word (by simp) hword) (show Separators [] by simp [Separators])
    (.inr rfl) .nil
  rw [List.append_nil, List.append_nil] at hlast
  exact ⟨text, _, rfl, h, hlast, by simp, Nat.zero_le _⟩

/-! ## the body of a line -/

/-- What is cut off a line without a newline is carriage returns. -/
theorem exists_crs {text : List UInt8} (h : 10 ∉ text) :
    ∃ k, text = trimmed text ++ List.replicate k 13 ∧ (k = 0 ↔ text.getLast? ≠ some 13) := by
  have hsplit : text = trimmed text ++ text.rtakeWhile isCrlf :=
    List.rdropWhile_append_rtakeWhile.symm
  have hcrs : text.rtakeWhile isCrlf = List.replicate (text.rtakeWhile isCrlf).length 13 := by
    refine List.eq_replicate_of_mem fun c hc => ?_
    have hten : c ≠ 10 := fun heq => h (heq ▸ (List.rtakeWhile_suffix isCrlf text).mem hc)
    simpa [isCrlf, hten] using List.mem_rtakeWhile_imp hc
  refine ⟨_, by rwa [← hcrs], ?_⟩
  rw [List.length_eq_zero_iff]
  rcases List.eq_nil_or_concat' text with rfl | ⟨front, c, rfl⟩
  · simp
  · by_cases hc : c = 13
    · simp [isCrlf, hc]
    · have hten : c ≠ 10 := fun heq => h (by simp [heq])
      simp [isCrlf, hc, hten]

/-- What is not read is no request. -/
theorem readRequest_eq_none {text : List UInt8} :
    readRequest text = none ↔ ¬ ∃ name args, IsRequest text name args := by
  rw [Option.eq_none_iff_forall_ne_some]
  constructor
  · rintro h ⟨name, args, hreq⟩
    exact h _ (readRequest_eq_some.mpr hreq)
  · rintro h ⟨name, args⟩ hread
    exact h ⟨name, args, readRequest_eq_some.mp hread⟩

/-- The command that the grammar reads, its name in upper case. -/
def readCommand (text : List UInt8) : Option (List UInt8 × List (List UInt8)) :=
  (readRequest text).map fun r => (r.1.map toupper, r.2)

/-- The name of a request is read in upper case. -/
theorem readCommand_eq_some {text name : List UInt8} {args : List (List UInt8)}
    (h : IsRequest text name args) : readCommand text = some (name.map toupper, args) := by
  rw [readCommand, readRequest_eq_some.mpr h]
  rfl

/-- Blanks are no request. -/
theorem separators_not_request {text name : List UInt8} {args : List (List UInt8)}
    (hblank : Separators text) : ¬ IsRequest text name args := by
  rintro ⟨seps, rest, rfl, -, htokens, -⟩
  cases rest with
  | nil => exact absurd htokens.eq_nil (by simp)
  | cons c rest =>
    have hsep := hblank c (by simp)
    rw [htokens.atToken c rfl] at hsep
    cases hsep

/-- A body and what is left without its carriage returns are the same command
when there are none, or when neither is a request. -/
theorem readCommand_trimmed {body : List UInt8} (h : 10 ∉ body) :
    readCommand (trimmed body) = readCommand body ↔
      body.getLast? ≠ some 13 ∨
        ¬ Separators (trimmed body) ∧ ¬ ∃ name args, IsRequest (trimmed body) name args := by
  obtain ⟨k, hbody, hk⟩ := exists_crs h
  rw [← hk]
  generalize trimmed body = text at *
  subst hbody
  constructor
  · intro heq
    by_contra hnot
    push Not at hnot
    obtain ⟨hpos, hreq⟩ := hnot
    obtain ⟨k, rfl⟩ := Nat.exists_eq_succ_of_ne_zero hpos
    by_cases hblank : Separators text
    · rw [readCommand_eq_some (isRequest_crs hblank k), readCommand, readRequest_eq_none.mpr] at heq
      · cases heq
      · rintro ⟨name, args, hreq⟩
        exact separators_not_request hblank hreq
    · obtain ⟨name, args, hreq⟩ := hreq hblank
      rw [readCommand_eq_some hreq] at heq
      obtain ⟨⟨name', args'⟩, hread, hsame⟩ := Option.map_eq_some_iff.mp heq.symm
      obtain ⟨hname, rfl⟩ := Prod.mk.inj hsame
      rcases (readRequest_eq_some.mp hread).dropCrs with hblank' | ⟨name'', args'', hreq'', hbytes⟩
      · exact hblank hblank'
      · -- the name and the arguments of a text are determined, and these are shorter
        have hdet := readRequest_eq_some.mpr hreq''
        rw [readRequest_eq_some.mpr hreq] at hdet
        cases hdet
        have hlen := congrArg List.length hname
        simp only [tokenBytes, List.map_cons, List.sum_cons, List.length_map] at hbytes hlen
        omega
  · rintro (rfl | ⟨hblank, hnone⟩)
    · rw [List.replicate_zero, List.append_nil]
    · rw [readCommand, readCommand, readRequest_eq_none.mpr hnone, readRequest_eq_none.mpr]
      rintro ⟨name, args, hreq⟩
      rcases hreq.dropCrs with hblank' | ⟨name', args', hreq', -⟩
      · exact hblank hblank'
      · exact hnone ⟨name', args', hreq'⟩

/-! ## the line that is dispatched -/

/-- The decoded tokens are no longer than the text. -/
theorem Escapes.length_le {raw text : List UInt8} (h : Escapes raw text) :
    text.length ≤ raw.length := by
  induction h with
  | nil => exact le_refl _
  | plain _ _ _ ih => simpa using ih
  | escape _ _ ih =>
    simp only [List.length_cons]
    omega

/-- Tokens are no longer than their text. -/
theorem Tokens.bytes_le {text : List UInt8} {tokens : List (List UInt8)} (h : Tokens text tokens) :
    tokenBytes tokens ≤ text.length := by
  induction h with
  | nil => exact le_refl _
  | @cons raw seps rest token tokens htoken _ _ _ ih =>
    have htoken' : token.length ≤ raw.length := by
      cases htoken with
      | word => exact le_refl _
      | quoted hraw =>
        have := hraw.length_le
        simp only [List.length_cons, List.length_append]
        omega
    simp only [tokenBytes, List.map_cons, List.sum_cons, List.length_append] at ih ⊢
    omega

/-- The bytes of a command and of its arguments. -/
def commandBytes (c : CStr × List CStr) : List UInt8 × List (List UInt8) :=
  (c.1.bytes, c.2.map CStr.bytes)

/-- `handle_command` gets what the line says. -/
theorem parsedCommand_strAt {m : Mem} {line : Nat} {text : List UInt8} (h : StrAt m line text) :
    (parsedCommand m line).map commandBytes = readLine text := by
  have hparse := ksParseLine_strAt h
  cases hread : readLine text with
  | none =>
    rw [hread] at hparse
    rw [parsedCommand, hparse]
    rfl
  | some q =>
    obtain ⟨name, args⟩ := q
    rw [hread] at hparse
    obtain ⟨m', cmd, argv, heq, hname, hargs⟩ := hparse
    obtain ⟨-, hfits, written, ⟨seps, rest, hsplit, -, htokens, -⟩, rfl⟩ := readLine_eq_some.mp hread
    have hbytes := htokens.bytes_le
    rw [hsplit, List.length_append] at hfits
    simp only [tokenBytes, List.map_cons, List.sum_cons] at hbytes
    have hread' {p : Nat} {arg : List UInt8} (hat : StrAt m' p arg) (hlen : arg.length ≤ ksMaxRequest) :
        (m'.cstr p (ksMaxRequest + 1)).bytes = arg := by
      rw [Mem.cstr_bytes hat.isStr (by omega), hat.bytes]
    have hall : (argv.map fun p => m'.cstr p (ksMaxRequest + 1)).map CStr.bytes = args := by
      have hsum : (args.map List.length).sum ≤ ksMaxRequest := by omega
      clear hread hsplit htokens hbytes heq
      induction hargs with
      | nil => rfl
      | @cons p arg argv args hhead _ ih =>
        rw [List.map_cons, List.sum_cons] at hsum
        rw [List.map_cons, List.map_cons, ih (by omega), hread' hhead (by omega)]
    rw [parsedCommand, heq, Option.map_some, Option.map_some, commandBytes, hall,
      hread' hname (by rw [List.length_map]; omega)]

/-- A command is known by its bytes. -/
theorem commandBytes_injective : Function.Injective commandBytes := by
  rintro ⟨name, args⟩ ⟨name', args'⟩ h
  obtain ⟨hname, hargs⟩ := Prod.mk.inj h
  have hbytes : Function.Injective CStr.bytes := fun _ _ => CStr.ext
  exact congrArg₂ Prod.mk (CStr.ext hname) (List.map_injective_iff.mpr hbytes hargs)

/-- What the grammar reads is what the parser leaves behind. -/
theorem parsedCommand_eq_some {m : Mem} {line : Nat} {text : List UInt8} {command : CStr × List CStr}
    (h : StrAt m line text) (hread : readLine text = some (commandBytes command)) :
    parsedCommand m line = some command := by
  have hparsed := parsedCommand_strAt h
  rw [hread, Option.map_eq_some_iff] at hparsed
  obtain ⟨command', hcommand, hbytes⟩ := hparsed
  rw [hcommand, commandBytes_injective hbytes]

/-- A line alone in a buffer. -/
theorem strAt_blank {text : List UInt8} (hnul : 0 ∉ text) (line : Nat) :
    StrAt (blank.write line text) line text :=
  .of_read (read_write blank line text) hnul (write_of_ge blank (le_refl _))

/-- The length that `process_requests` measures. -/
def contentLen (input : Mem) (line newline : Nat) : Nat :=
  let stop := newline + 1
  let lineLen := stop - line
  if lineLen - 1 > 0 ∧ input (stop - 2) = 13 then lineLen - 2 else lineLen - 1

/-- The line from `line` on is passed to `handle_command`. -/
structure Dispatched (c : KsClient) (line newline : Nat) : Prop where
  more : line < c.inputLen
  memchr : c.input.memchr line (c.inputLen - line) 10 = some newline
  fits : contentLen c.input line newline ≤ ksMaxRequest
  noNul : c.input.memchr line (newline + 1 - line) 0 = none

/-- These lines are what `process_requests` dispatches. -/
theorem processLoop_dispatched {cfg : KsConfig} {i : Fin cfg.maxClients} {s : KsServer cfg}
    {line newline : Nat} (h : Dispatched (s.clients i) line newline)
    (hp : (s.clients i).pendingLen < ksOutputHighWater) (env : Nat → KsCommandEnv) (fuel : Nat) :
    processLoop i env (fuel + 1) s line =
      let r := handleCommand (markLine s i (newline + 1)) i line (env line)
      let s' :=
        if newline + 1 < (s.clients i).inputLen then
          r.1.setClient i { r.1.clients i with
            input := (r.1.clients i).input.set (newline + 1) ((s.clients i).input (newline + 1)) }
        else r.1
      if r.2 ≠ 0 then (s', line, -1) else processLoop i env fuel s' (newline + 1) := by
  have hfits := h.fits
  rw [contentLen] at hfits
  simp only [processLoop, h.memchr, h.noNul, if_neg (not_not_intro h.more), if_neg (not_le.mpr hp),
    if_neg (not_lt.mpr hfits), Option.isSome_none, Bool.false_eq_true, if_false, markLine]
  rfl

/-- The framer and the parser agree on the body of a line: it is not too long for
the parser, which reads the command that the body is. -/
structure BodyAgrees (input : Mem) (line newline : Nat) : Prop where
  bounded : boundedLength (input.set (newline + 1) 0) line (ksMaxRequest + 3) ≤ ksMaxRequest + 2
  fits : (trimCrlf (input.set (newline + 1) 0) line
    (boundedLength (input.set (newline + 1) 0) line (ksMaxRequest + 3))).2 ≤ ksMaxRequest
  command : (parsedCommand (input.set (newline + 1) 0) line).map commandBytes =
    readCommand (input.read line (contentLen input line newline))

/-- The line in front of its NUL: its body, at most one carriage return and the
newline. -/
theorem Dispatched.strAt {c : KsClient} {line newline : Nat} (h : Dispatched c line newline) :
    let body := c.input.read line (contentLen c.input line newline)
    10 ∉ body ∧ ∃ cr, (cr = [] ∨ cr = [13]) ∧
      StrAt (c.input.set (newline + 1) 0) line (body ++ (cr ++ [10])) := by
  obtain ⟨hle, -, hten, hfirst⟩ := Mem.memchr_eq_some h.memchr
  have hnul (k : Nat) (hk : line ≤ k) (hk' : k ≤ newline) : c.input k ≠ 0 := fun hzero =>
    Mem.memchr_eq_none.mp h.noNul
      (Mem.mem_read.mpr ⟨k - line, by omega, by rw [Nat.add_sub_cancel' hk, hzero]⟩)
  have hstr := StrAt.of_isStr (isStr_line hle hnul)
  rw [read_line hle hten] at hstr
  have hlen : newline + 1 - line - 1 = newline - line := by omega
  dsimp only
  rw [contentLen]
  split
  · next hcr =>
    obtain ⟨hpos, hlast⟩ := hcr
    -- the byte in front of the newline is the carriage return
    have hsplit : c.input.read line (newline - line) =
        c.input.read line (newline + 1 - line - 2) ++ [13] := by
      rw [show newline - line = newline + 1 - line - 2 + 1 by omega, read_add, read_succ, read_zero,
        show line + (newline + 1 - line - 2) = newline + 1 - 2 by omega, hlast]
    rw [hsplit, List.append_assoc] at hstr
    exact ⟨fun hmem => hfirst (hsplit ▸ List.mem_append_left _ hmem), [13], .inr rfl, hstr⟩
  · rw [hlen]
    exact ⟨hfirst, [], .inl rfl, hstr⟩

/-- **The framer and the parser agree on the body of a dispatched line** when it
ends in no carriage return, or when it is not blank and not a request without
its carriage returns. -/
theorem dispatched_body_agrees {c : KsClient} {line newline : Nat}
    (h : Dispatched c line newline) :
    let body := c.input.read line (contentLen c.input line newline)
    BodyAgrees c.input line newline ↔
      body.getLast? ≠ some 13 ∨
        ¬ Separators (trimmed body) ∧ ¬ ∃ name args, IsRequest (trimmed body) name args := by
  obtain ⟨hten, cr, hcr, hstr⟩ := h.strAt
  have hfits := h.fits
  dsimp only
  generalize hread : c.input.read line (contentLen c.input line newline) = body at *
  have hlen : body.length = contentLen c.input line newline := by rw [← hread, length_read]
  have hshort : (trimmed body).length ≤ body.length := (List.rdropWhile_prefix _ body).length_le
  have htext : (body ++ (cr ++ [10])).length ≤ ksMaxRequest + 2 := by
    rcases hcr with rfl | rfl <;> simp <;> omega
  have htrim : trimmed (body ++ (cr ++ [10])) = trimmed body :=
    trimmed_append body (by rcases hcr with rfl | rfl <;> simp [isCrlf])
  have hbounded := boundedLength_eq hstr.isStr (Nat.lt_succ_of_le htext)
  have hcut := (trimCrlf_strAt hstr).1
  have hline : readLine (body ++ (cr ++ [10])) = readCommand (trimmed body) := by
    rw [readLine, if_pos ⟨htext, by rw [htrim]; omega⟩, htrim, readCommand]
  rw [← readCommand_trimmed hten]
  constructor
  · intro hagrees
    rw [← hline, ← parsedCommand_strAt hstr, hagrees.command, hread]
  · intro heq
    refine ⟨hbounded.trans_le htext, ?_, ?_⟩
    · rw [hbounded, hcut, htrim]
      omega
    · rw [parsedCommand_strAt hstr, hline, heq, hread]

/-- A client that has sent a line. -/
def lineClient (line : List UInt8) : KsClient :=
  { KsClient.free with input := blank.write 0 line, inputLen := line.length }

theorem dispatched_body_agrees_ping : BodyAgrees (lineClient (ascii "PING\r\n")).input 0 5 :=
  (@dispatched_body_agrees (lineClient (ascii "PING\r\n")) 0 5
    ⟨by decide, by decide, by decide, by decide⟩).mpr
    (.inl (by decide))

/-- The body of `ECHO a\r\r\n` ends in a carriage return, which is lost. -/
theorem dispatched_body_cr :
    Dispatched (lineClient (ascii "ECHO a\r\r\n")) 0 8 ∧
      ¬ BodyAgrees (lineClient (ascii "ECHO a\r\r\n")).input 0 8 := by
  have hd : Dispatched (lineClient (ascii "ECHO a\r\r\n")) 0 8 :=
    ⟨by decide, by decide, by decide, by decide⟩
  refine ⟨hd, fun h => ?_⟩
  have hbody : (lineClient (ascii "ECHO a\r\r\n")).input.read 0
      (contentLen (lineClient (ascii "ECHO a\r\r\n")).input 0 8) = ascii "ECHO a\r" := by
    decide
  obtain ⟨-, cr, hcr, hstr⟩ := hd.strAt
  have hlost := h.command
  rw [hbody] at hstr hlost
  rw [parsedCommand_strAt hstr] at hlost
  -- the parser trims the carriage return, the framer does not
  rcases hcr with rfl | rfl <;> revert hlost <;> decide

end Kessel
