import Kessel.Protocol

/-!
# Kessel.Protocol.Grammar

The grammar of requests, with no buffer in sight.

`IsRequest text name args` says that a line body is a command name and its
arguments; it is built from `Escapes` (what stands between two quotes),
`IsToken` and `Tokens`.  `readRequest` is the reader of the grammar, a function
on lists of bytes:

* `readRequest_eq_some` — the reader accepts exactly the grammar, so a line body
  is at most one request;
* `isRequest_quoted` — every list of arguments can be written.
-/

namespace Kessel

/-! ## the grammar -/

/-- The bytes between two quotes and what they stand for: a backslash stands
before a quote or a backslash only. -/
inductive Escapes : List UInt8 → List UInt8 → Prop where
  | nil : Escapes [] []
  | plain {c : UInt8} {raw text : List UInt8} : c ≠ 34 → c ≠ 92 → Escapes raw text →
      Escapes (c :: raw) (c :: text)
  | escape {c : UInt8} {raw text : List UInt8} : c = 34 ∨ c = 92 → Escapes raw text →
      Escapes (92 :: c :: raw) (c :: text)

/-- A token as it is written and what it stands for: a word without separators
and quotes, or a quoted text. -/
inductive IsToken : List UInt8 → List UInt8 → Prop where
  | word {w : List UInt8} : w ≠ [] → (∀ c ∈ w, isSeparator c = false ∧ c ≠ 34) → IsToken w w
  | quoted {raw text : List UInt8} : Escapes raw text → IsToken (34 :: (raw ++ [34])) text

/-- A run of separators. -/
def Separators (seps : List UInt8) : Prop := ∀ c ∈ seps, isSeparator c = true

/-- Tokens, each followed by separators or the end. -/
inductive Tokens : List UInt8 → List (List UInt8) → Prop where
  | nil : Tokens [] []
  | cons {raw seps rest token : List UInt8} {tokens : List (List UInt8)} : IsToken raw token →
      Separators seps → (seps ≠ [] ∨ rest = []) → Tokens rest tokens →
      Tokens (raw ++ (seps ++ rest)) (token :: tokens)

/-- A line body that is a request: separators, a name that is not empty and at
most `KS_MAX_ARGS` arguments. -/
def IsRequest (text name : List UInt8) (args : List (List UInt8)) : Prop :=
  ∃ seps rest, text = seps ++ rest ∧ Separators seps ∧ Tokens rest (name :: args) ∧ name ≠ [] ∧
    args.length ≤ ksMaxArgs

/-! ## the reader -/

/-- A quoted text up to its closing quote: what it stands for and what is left. -/
def readQuoted : List UInt8 → Option (List UInt8 × List UInt8)
  | [] => none
  | c :: text =>
    if c = 34 then some ([], text)
    else if c = 92 then
      match text with
      | [] => none
      | c :: text => if c = 34 ∨ c = 92 then (readQuoted text).map fun r => (c :: r.1, r.2) else none
    else (readQuoted text).map fun r => (c :: r.1, r.2)

/-- A token and the separators behind it. -/
def readToken : List UInt8 → Option (List UInt8 × List UInt8)
  | [] => some ([], [])
  | c :: text =>
    if c = 34 then
      match readQuoted text with
      | none => none
      | some (token, rest) =>
        if rest.head?.all isSeparator then some (token, rest.dropWhile isSeparator) else none
    else
      let word := (c :: text).takeWhile fun c => !isSeparator c
      if 34 ∈ word then none
      else some (word, ((c :: text).dropWhile fun c => !isSeparator c).dropWhile isSeparator)

/-- Arguments, with room for `room` of them. -/
def readArgs : Nat → List UInt8 → Option (List (List UInt8))
  | 0, text => if text = [] then some [] else none
  | room + 1, text =>
    if text = [] then some []
    else
      match readToken text with
      | none => none
      | some (token, rest) => (readArgs room rest).map (token :: ·)

/-- A command name and its arguments. -/
def readRequest (text : List UInt8) : Option (List UInt8 × List (List UInt8)) :=
  let text := text.dropWhile isSeparator
  if text = [] then none
  else
    match readToken text with
    | none => none
    | some (name, rest) =>
      if name = [] then none else (readArgs ksMaxArgs rest).map (name, ·)

/-! ## quoted texts -/

/-- A quote ends the token. -/
theorem readQuoted_quote (text : List UInt8) : readQuoted (34 :: text) = some ([], text) := by
  cases text <;> simp [readQuoted]

/-- A plain byte stands for itself. -/
theorem readQuoted_plain {c : UInt8} (hquote : c ≠ 34) (hescape : c ≠ 92) (text : List UInt8) :
    readQuoted (c :: text) = (readQuoted text).map fun r => (c :: r.1, r.2) := by
  cases text <;> simp [readQuoted, hquote, hescape]

/-- An escaped byte stands for what is escaped. -/
theorem readQuoted_escape {c : UInt8} (hc : c = 34 ∨ c = 92) (text : List UInt8) :
    readQuoted (92 :: c :: text) = (readQuoted text).map fun r => (c :: r.1, r.2) := by
  simp [readQuoted, hc]

/-- What is read up to the quote is what was escaped. -/
theorem readQuoted_eq_some {text token rest : List UInt8} :
    readQuoted text = some (token, rest) ↔ ∃ raw, Escapes raw token ∧ text = raw ++ 34 :: rest := by
  constructor
  · intro h
    fun_induction readQuoted text generalizing token rest with
    | case1 => cases h
    | case2 text =>
      cases h
      exact ⟨[], .nil, rfl⟩
    | case3 => cases h
    | case4 c text hc _ ih =>
      obtain ⟨⟨token', rest'⟩, hread, heq⟩ := Option.map_eq_some_iff.mp h
      cases heq
      obtain ⟨raw, hraw, rfl⟩ := ih hread
      exact ⟨92 :: c :: raw, .escape hc hraw, rfl⟩
    | case5 => cases h
    | case6 c text hquote hescape ih =>
      obtain ⟨⟨token', rest'⟩, hread, heq⟩ := Option.map_eq_some_iff.mp h
      cases heq
      obtain ⟨raw, hraw, rfl⟩ := ih hread
      exact ⟨c :: raw, .plain hquote hescape hraw, rfl⟩
  · rintro ⟨raw, hraw, rfl⟩
    induction hraw with
    | nil => rw [List.nil_append, readQuoted_quote]
    | plain hquote hescape _ ih =>
      rw [List.cons_append, readQuoted_plain hquote hescape, ih]
      rfl
    | escape hc _ ih =>
      rw [List.cons_append, List.cons_append, readQuoted_escape hc, ih]
      rfl

/-- Decoding invents no byte. -/
theorem Escapes.mem {raw text : List UInt8} (h : Escapes raw text) {c : UInt8} (hc : c ∈ text) :
    c ∈ raw := by
  induction h with
  | nil => exact hc
  | plain _ _ _ ih =>
    rcases List.mem_cons.mp hc with rfl | hc
    · exact List.mem_cons_self
    · exact List.mem_cons_of_mem _ (ih hc)
  | escape _ _ ih =>
    rcases List.mem_cons.mp hc with rfl | hc
    · exact List.mem_cons_of_mem _ List.mem_cons_self
    · exact List.mem_cons_of_mem _ (List.mem_cons_of_mem _ (ih hc))

/-! ## tokens -/

/-- The text does not begin with a separator. -/
def AtToken (text : List UInt8) : Prop := ∀ c ∈ text.head?, isSeparator c = false

/-- Behind the separators there is a token. -/
theorem atToken_dropWhile (text : List UInt8) : AtToken (text.dropWhile isSeparator) := by
  intro c hc
  have hnot := List.head?_dropWhile_not isSeparator text
  rw [hc] at hnot
  simpa using hnot

/-- Separators in front of a token are skipped. -/
theorem dropWhile_separators {seps rest : List UInt8} (hseps : Separators seps)
    (hrest : AtToken rest) : (seps ++ rest).dropWhile isSeparator = rest := by
  rw [List.dropWhile_append_of_pos hseps]
  cases rest with
  | nil => rfl
  | cons c rest => rw [List.dropWhile_cons_of_neg (by simpa using hrest c rfl)]

/-- What is skipped are separators. -/
theorem separators_takeWhile (text : List UInt8) : Separators (text.takeWhile isSeparator) :=
  fun _ hc => List.mem_takeWhile_imp hc

/-- A token begins with no separator, and is not nothing. -/
theorem IsToken.atToken {raw token : List UInt8} (h : IsToken raw token) (rest : List UInt8) :
    AtToken (raw ++ rest) ∧ raw ≠ [] := by
  cases h with
  | word hne hw =>
    cases raw with
    | nil => exact absurd rfl hne
    | cons c w => exact ⟨fun d hd => by cases hd; exact (hw c List.mem_cons_self).1, by simp⟩
  | quoted hraw => exact ⟨fun d hd => by cases hd; decide, by simp⟩

/-- Tokens begin with a token. -/
theorem Tokens.atToken {text : List UInt8} {tokens : List (List UInt8)} (h : Tokens text tokens) :
    AtToken text := by
  cases h with
  | nil => exact fun _ hc => by cases hc
  | cons htoken => exact (htoken.atToken _).1

/-- Behind a token stand separators, or nothing. -/
theorem head?_separators {seps rest : List UInt8} (hseps : Separators seps)
    (hend : seps ≠ [] ∨ rest = []) : (seps ++ rest).head?.all isSeparator = true := by
  cases seps with
  | nil => simp [hend.resolve_left (by simp)]
  | cons c seps => simpa using hseps c List.mem_cons_self

theorem separators_of_head? {text : List UInt8} (h : text.head?.all isSeparator = true) :
    text.takeWhile isSeparator ≠ [] ∨ text.dropWhile isSeparator = [] := by
  cases text with
  | nil => exact .inr rfl
  | cons c text => exact .inl (by simpa using h)

/-- A word ends where the first separator stands. -/
theorem takeWhile_word {w tail : List UInt8} (hw : ∀ c ∈ w, isSeparator c = false)
    (htail : tail.head?.all isSeparator = true) :
    (w ++ tail).takeWhile (fun c => !isSeparator c) = w ∧
      (w ++ tail).dropWhile (fun c => !isSeparator c) = tail := by
  have hall : ∀ c ∈ w, (!isSeparator c) = true := by simpa using hw
  rw [List.takeWhile_append_of_pos hall, List.dropWhile_append_of_pos hall]
  cases tail with
  | nil => simp
  | cons c tail => simp_all

/-- Behind a word there is a separator, or nothing. -/
theorem head?_dropWhile_word (text : List UInt8) :
    (text.dropWhile fun c => !isSeparator c).head?.all isSeparator = true := by
  have hnot := List.head?_dropWhile_not (fun c => !isSeparator c) text
  cases hhead : (text.dropWhile fun c => !isSeparator c).head? with
  | none => rfl
  | some c =>
    rw [hhead] at hnot
    simpa using hnot

/-- **The token reader** reads a token and the separators behind it. -/
theorem readToken_eq_some {text token rest : List UInt8} (hne : text ≠ []) (hat : AtToken text) :
    readToken text = some (token, rest) ↔
      ∃ raw seps, IsToken raw token ∧ Separators seps ∧ (seps ≠ [] ∨ rest = []) ∧ AtToken rest ∧
        text = raw ++ (seps ++ rest) := by
  constructor
  · intro h
    cases text with
    | nil => exact absurd rfl hne
    | cons c text =>
      have hc : isSeparator c = false := hat c rfl
      rw [readToken] at h
      by_cases hquote : c = 34
      · rw [if_pos hquote] at h
        cases hread : readQuoted text with
        | none =>
          rw [hread] at h
          cases h
        | some r =>
          obtain ⟨token', tail⟩ := r
          rw [hread] at h
          dsimp only at h
          split at h
          · next hend =>
            cases h
            obtain ⟨raw, hraw, rfl⟩ := readQuoted_eq_some.mp hread
            refine ⟨34 :: (raw ++ [34]), tail.takeWhile isSeparator, .quoted hraw,
              separators_takeWhile tail, separators_of_head? hend, atToken_dropWhile tail, ?_⟩
            rw [List.takeWhile_append_dropWhile]
            simp [hquote]
          · cases h
      · rw [if_neg hquote] at h
        dsimp only at h
        split at h
        · cases h
        · next hword =>
          cases h
          have hend := head?_dropWhile_word (c :: text)
          refine ⟨_, _, .word ?_ ?_, separators_takeWhile _, separators_of_head? hend,
            atToken_dropWhile _, ?_⟩
          · simp [hc]
          · intro d hd
            exact ⟨by simpa using List.mem_takeWhile_imp hd, fun heq => hword (heq ▸ hd)⟩
          · rw [List.takeWhile_append_dropWhile, List.takeWhile_append_dropWhile]
  · rintro ⟨raw, seps, htoken, hseps, hend, hrest, rfl⟩
    have hhead := head?_separators hseps hend
    cases htoken with
    | word hnil hw =>
      obtain ⟨hword, htail⟩ := takeWhile_word (fun c hc => (hw c hc).1) hhead
      cases token with
      | nil => exact absurd rfl hnil
      | cons c w =>
        have hquote : c ≠ 34 := (hw c List.mem_cons_self).2
        have hnone : 34 ∉ c :: w := fun hmem => (hw 34 hmem).2 rfl
        rw [List.cons_append] at hword htail ⊢
        rw [readToken, if_neg hquote]
        simp only [hword, htail, if_neg hnone, dropWhile_separators hseps hrest]
    | @quoted raw _ hraw =>
      have hread : readQuoted (raw ++ 34 :: (seps ++ rest)) = some (token, seps ++ rest) :=
        readQuoted_eq_some.mpr ⟨raw, hraw, rfl⟩
      rw [List.cons_append, List.append_assoc, List.singleton_append, readToken, if_pos rfl, hread]
      simp only [if_pos hhead, dropWhile_separators hseps hrest]

/-! ## requests -/

/-- **The reader reads what the grammar says**, as long as there is room. -/
theorem readArgs_eq_some {room : Nat} {text : List UInt8} {tokens : List (List UInt8)}
    (hat : AtToken text) :
    readArgs room text = some tokens ↔ Tokens text tokens ∧ tokens.length ≤ room := by
  induction room generalizing text tokens with
  | zero =>
    rw [readArgs]
    constructor
    · intro h
      split at h
      · next hnil =>
        cases h
        exact ⟨hnil ▸ .nil, le_refl _⟩
      · cases h
    · rintro ⟨htokens, hlen⟩
      cases htokens with
      | nil => rfl
      | cons => simp at hlen
  | succ room ih =>
    rw [readArgs]
    constructor
    · intro h
      split at h
      · next hnil =>
        cases h
        exact ⟨hnil ▸ .nil, Nat.zero_le _⟩
      · next hne =>
        cases hread : readToken text with
        | none =>
          rw [hread] at h
          cases h
        | some r =>
          obtain ⟨token, rest⟩ := r
          rw [hread] at h
          obtain ⟨tokens', hargs, rfl⟩ := Option.map_eq_some_iff.mp h
          obtain ⟨raw, seps, htoken, hseps, hend, hrest, rfl⟩ := (readToken_eq_some hne hat).mp hread
          obtain ⟨htokens, hlen⟩ := (ih hrest).mp hargs
          exact ⟨.cons htoken hseps hend htokens, Nat.succ_le_succ hlen⟩
    · rintro ⟨htokens, hlen⟩
      cases htokens with
      | nil => rfl
      | @cons raw seps rest token tokens htoken hseps hend hrest =>
        have hne : raw ++ (seps ++ rest) ≠ [] := by simp [(htoken.atToken []).2]
        have hread : readToken (raw ++ (seps ++ rest)) = some (token, rest) :=
          (readToken_eq_some hne hat).mpr ⟨raw, seps, htoken, hseps, hend, hrest.atToken, rfl⟩
        rw [if_neg hne, hread]
        dsimp only
        rw [(ih hrest.atToken).mpr ⟨hrest, Nat.le_of_succ_le_succ hlen⟩]
        rfl

/-- **The reader accepts exactly the grammar.** -/
theorem readRequest_eq_some {text name : List UInt8} {args : List (List UInt8)} :
    readRequest text = some (name, args) ↔ IsRequest text name args := by
  rw [readRequest]
  constructor
  · intro h
    split at h
    · cases h
    next hne =>
    have hat := atToken_dropWhile text
    have hsplit : text = text.takeWhile isSeparator ++ text.dropWhile isSeparator :=
      List.takeWhile_append_dropWhile.symm
    generalize text.dropWhile isSeparator = body at *
    cases hread : readToken body with
    | none =>
      rw [hread] at h
      cases h
    | some r =>
      obtain ⟨name', rest⟩ := r
      rw [hread] at h
      dsimp only at h
      split at h
      · cases h
      next hname =>
      obtain ⟨args', hargs, heq⟩ := Option.map_eq_some_iff.mp h
      cases heq
      obtain ⟨raw, seps, htoken, hseps, hend, hrest, rfl⟩ := (readToken_eq_some hne hat).mp hread
      obtain ⟨htokens, hlen⟩ := (readArgs_eq_some hrest).mp hargs
      exact ⟨_, _, hsplit, separators_takeWhile text, .cons htoken hseps hend htokens, hname, hlen⟩
  · rintro ⟨front, body, rfl, hfront, htokens, hname, hlen⟩
    rw [dropWhile_separators hfront htokens.atToken]
    cases htokens with
    | @cons raw seps rest _ _ htoken hseps hend hrest =>
      have hat := (Tokens.cons htoken hseps hend hrest).atToken
      have hne : raw ++ (seps ++ rest) ≠ [] := by simp [(htoken.atToken []).2]
      have hread : readToken (raw ++ (seps ++ rest)) = some (name, rest) :=
        (readToken_eq_some hne hat).mpr ⟨raw, seps, htoken, hseps, hend, hrest.atToken, rfl⟩
      rw [if_neg hne, hread]
      dsimp only
      rw [if_neg hname, (readArgs_eq_some hrest.atToken).mpr ⟨hrest, hlen⟩]
      rfl

/-! ## writing requests -/

/-- A backslash before each quote and each backslash. -/
def escape (text : List UInt8) : List UInt8 :=
  text.flatMap fun c => if c = 34 ∨ c = 92 then [92, c] else [c]

/-- A text between quotes. -/
def quote (text : List UInt8) : List UInt8 := 34 :: (escape text ++ [34])

/-- A quoted name and quoted arguments, each with the separators before it. -/
def quotedRequest (name : List UInt8) (args : List (List UInt8 × List UInt8)) : List UInt8 :=
  quote name ++ args.flatMap fun a => a.1 ++ quote a.2

/-- Escaping can be undone. -/
theorem escapes_escape (text : List UInt8) : Escapes (escape text) text := by
  induction text with
  | nil => exact .nil
  | cons c text ih =>
    rw [escape, List.flatMap_cons, ← escape]
    by_cases hc : c = 34 ∨ c = 92
    · rw [if_pos hc]
      exact .escape hc ih
    · rw [if_neg hc]
      rw [not_or] at hc
      exact .plain hc.1 hc.2 ih

/-- A quoted text is a token. -/
theorem isToken_quote (text : List UInt8) : IsToken (quote text) text := .quoted (escapes_escape text)

/-- A quoted request is read back, token by token. -/
theorem tokens_quoted (name : List UInt8) {args : List (List UInt8 × List UInt8)}
    (hargs : ∀ a ∈ args, a.1 ≠ [] ∧ Separators a.1) :
    Tokens (quotedRequest name args) (name :: args.map Prod.snd) := by
  induction args generalizing name with
  | nil =>
    have hlast := Tokens.cons (isToken_quote name) (show Separators [] by simp [Separators])
      (.inr rfl) .nil
    simpa [quotedRequest] using hlast
  | cons a args ih =>
    rw [List.forall_mem_cons] at hargs
    have hrest := ih a.2 hargs.2
    have hfirst := Tokens.cons (isToken_quote name) hargs.1.2 (.inl hargs.1.1) hrest
    simpa [quotedRequest] using hfirst

/-- **Every name and every list of arguments can be written.** -/
theorem isRequest_quoted {name : List UInt8} (hname : name ≠ [])
    {args : List (List UInt8 × List UInt8)} (hlen : args.length ≤ ksMaxArgs)
    (hargs : ∀ a ∈ args, a.1 ≠ [] ∧ Separators a.1) :
    IsRequest (quotedRequest name args) name (args.map Prod.snd) :=
  ⟨[], _, rfl, by simp [Separators], tokens_quoted name hargs, hname, by simpa using hlen⟩

/-- A quoted request ends in a quote. -/
theorem quotedRequest_eq_snoc (name : List UInt8) (args : List (List UInt8 × List UInt8)) :
    ∃ front, quotedRequest name args = front ++ [34] := by
  induction args generalizing name with
  | nil => exact ⟨34 :: escape name, by simp [quotedRequest, quote]⟩
  | cons a args ih =>
    obtain ⟨front, hfront⟩ := ih a.2
    refine ⟨quote name ++ a.1 ++ front, ?_⟩
    rw [quotedRequest] at hfront
    simp [quotedRequest, ← hfront]

end Kessel
