import Kessel.Server.Dispatch

/-!
# Kessel.Cli.Line

The command lines of `kessel_cli.c`, and what the server reads in them.

The client looks at a line itself to know that it subscribes, and builds the
request that undoes the subscription.  `copySubscribeArgument_server` says for
which lines it sees what the server sees, and `unsubscribeCommand_server` for
which of them the second request undoes the first.
-/

namespace Kessel

open CStr

/-! ## `kessel_cli.c` -/

/-- `KESSEL_CLI_MAX_LINE` -/
def kesselCliMaxLine : Nat := 65536

/-- `tolower` in the C locale. -/
def tolower (c : UInt8) : UInt8 := if 65 ≤ c ∧ c ≤ 90 then c + 32 else c

/-- `strncasecmp(line, word, |word|) == 0`, for a word without a NUL. -/
def sameWord (line word : List UInt8) : Bool :=
  (line.take word.length).map tolower = word.map tolower

/-- `is_exit_command` -/
def isExitCommand (line : List UInt8) : Bool :=
  let line := (line.rdropWhile fun c => isCrlf c || isSeparator c).dropWhile isSeparator
  line.length = 4 && sameWord line (ascii "EXIT")

/-- `command_length` -/
def commandLength (line : List UInt8) : Nat := (line.rdropWhile isCrlf).length

/-- The bytes of `send_command`. -/
def commandSent (line : List UInt8) : List UInt8 := line.take (commandLength line) ++ crlf

/-- `subscribe_status_t` -/
inductive SubscribeStatus where
  | notCommand
  | command
  | noMemory
  deriving DecidableEq, Repr

/-- `copy_subscribe_argument`: the status and the argument; `memory` says that
`malloc` succeeds. -/
def copySubscribeArgument (line : List UInt8) (memory : Bool) :
    SubscribeStatus × Option (List UInt8) :=
  let line := (line.take (commandLength line)).dropWhile isSeparator
  let command := ascii "SUBSCRIBE"
  if line.length ≤ command.length ∨ ¬ sameWord line command ∨
      ¬ (line.drop command.length).head?.any isSeparator then
    (.notCommand, none)
  else
    let line := (line.drop command.length).dropWhile isSeparator
    let line := line.rdropWhile isSeparator
    if line = [] then (.notCommand, none)
    else if memory then (.command, some line)
    else (.noMemory, none)

/-- The text of `UNSUBSCRIBE %s\r\n`. -/
def unsubscribeCommand (argument : List UInt8) : List UInt8 :=
  ascii "UNSUBSCRIBE " ++ (CStr.ofBytes argument).bytes ++ crlf

/-! ## what the server reads -/

/-- What the server makes of bytes that are one request: the command and the
arguments that `handle_command` reads. -/
def serverCommand (sent : List UInt8) : Option (List UInt8 × List (List UInt8)) :=
  match requestStream sent with
  | [.command text] => (parsedCommand (blank.write 0 (text ++ [0])) 0).map commandBytes
  | _ => none

/-- A body and `\r\n` are one request, which is read without carriage returns at
its end. -/
theorem serverCommand_line {body : List UInt8} (hten : 10 ∉ body) (hnul : 0 ∉ body) :
    serverCommand (body ++ crlf) =
      if body.length ≤ ksMaxRequest then readCommand (trimmed body) else none := by
  have hsplit : body ++ crlf = (body ++ [13]) ++ 10 :: [] := by simp [crlf]
  have hlen : contentLength (body ++ [13]) = body.length := by simp [contentLength]
  have hseg : 10 ∉ body ++ [13] := by simp [hten]
  have hseg' : 0 ∉ body ++ [13] := by simpa using hnul
  rw [serverCommand, hsplit, requestStream_line hseg]
  by_cases hlarge : body.length > ksMaxRequest
  · have hrequest : lineRequest (body ++ [13]) = .tooLarge := by
      rw [lineRequest, hlen, if_pos hlarge]
    rw [hrequest, if_pos rfl, if_neg (by omega)]
  · have hrequest : lineRequest (body ++ [13]) = .command (body ++ [13] ++ [10]) := by
      rw [lineRequest, hlen, if_neg hlarge, if_neg hseg']
    have hline : 0 ∉ body ++ [13] ++ [10] := by simpa using hnul
    have htrim : trimmed (body ++ [13] ++ [10]) = trimmed body := by
      rw [List.append_assoc]
      exact trimmed_append body (by simp [isCrlf])
    have hshort : (trimmed body).length ≤ body.length := (List.rdropWhile_prefix _ body).length_le
    rw [hrequest, if_neg (by simp), requestStream_nil, if_pos (by omega)]
    dsimp only
    rw [parsedCommand_strAt (strAt_write hline blank 0), readLine,
      if_pos ⟨by simp; omega, by rw [htrim]; omega⟩, htrim, readCommand]

/-- The command of a line is the line, trimmed. -/
theorem take_commandLength (line : List UInt8) : line.take (commandLength line) = trimmed line :=
  (List.prefix_iff_eq_take.mp (List.rdropWhile_prefix isCrlf line)).symm

/-- A line is sent trimmed, with a line end. -/
theorem commandSent_eq (line : List UInt8) : commandSent line = trimmed line ++ crlf := by
  rw [commandSent, take_commandLength]

/-- What the server makes of a line. -/
theorem serverCommand_sent {line : List UInt8} (hten : 10 ∉ trimmed line) (hnul : 0 ∉ trimmed line) :
    serverCommand (commandSent line) =
      if (trimmed line).length ≤ ksMaxRequest then readCommand (trimmed line) else none := by
  have htrim : trimmed (trimmed line) = trimmed line := List.rdropWhile_idempotent isCrlf line
  rw [commandSent_eq, serverCommand_line hten hnul, htrim]

/-! ## the words of a request -/

/-- A request with one argument. -/
theorem IsRequest.one {text name arg : List UInt8} (h : IsRequest text name [arg]) :
    ∃ rawName seps rawArg tail, text.dropWhile isSeparator = rawName ++ (seps ++ (rawArg ++ tail)) ∧
      IsToken rawName name ∧ Separators seps ∧ seps ≠ [] ∧ IsToken rawArg arg ∧ Separators tail := by
  obtain ⟨front, rest, rfl, hfront, htokens, -, -⟩ := h
  rw [dropWhile_separators hfront htokens.atToken]
  cases htokens with
  | @cons rawName seps rest _ _ hname hseps hend hrest =>
    cases hrest with
    | @cons rawArg tail rest _ _ harg htail _ hnone =>
      obtain rfl := hnone.nil_eq
      refine ⟨rawName, seps, rawArg, tail, by simp, hname, hseps, ?_, harg, htail⟩
      exact hend.resolve_right (by simp [(harg.atToken []).2])

/-- A word and one argument are a request. -/
theorem isRequest_word {name rawArg arg : List UInt8} (hname : IsToken name name) (hne : name ≠ [])
    (harg : IsToken rawArg arg) : IsRequest (name ++ ([32] ++ rawArg)) name [arg] := by
  have hnone : Separators [] := by simp [Separators]
  have hlast := Tokens.cons harg hnone (.inr rfl) .nil
  have hboth := Tokens.cons hname (show Separators [32] by simp [Separators]; rfl) (.inl (by simp)) hlast
  rw [List.append_nil, List.append_nil] at hboth
  exact ⟨[], _, rfl, hnone, hboth, hne, by simp [ksMaxArgs]⟩

/-- A token does not end in a separator. -/
theorem IsToken.getLast? {raw token : List UInt8} (h : IsToken raw token) :
    ∀ c ∈ raw.getLast?, isSeparator c = false := by
  cases h with
  | word _ hw => exact fun c hc => (hw c (List.mem_of_getLast? hc)).1
  | quoted =>
    intro c hc
    rw [← List.cons_append, List.getLast?_concat] at hc
    cases hc
    decide

/-- Separators behind a word are trimmed. -/
theorem rdropWhile_tail {raw tail : List UInt8} (htail : Separators tail)
    (hraw : ∀ c ∈ raw.getLast?, isSeparator c = false) :
    (raw ++ tail).rdropWhile isSeparator = raw := by
  rw [rdropWhile_append_of_pos raw htail, List.rdropWhile_eq_self_iff]
  intro hne
  simpa using hraw _ (List.getLast?_eq_some_getLast hne)

/-- Upper case does not matter to lower case. -/
theorem tolower_toupper (c : UInt8) : tolower (toupper c) = tolower c :=
  @forall_byte (fun c => tolower (toupper c) = tolower c) (by decide +kernel) c

/-- The name is spelled in upper or lower case. -/
theorem sameWord_of_toupper {name : List UInt8} {word : List UInt8} (h : name.map toupper = word)
    (rest : List UInt8) : sameWord (name ++ rest) word = true := by
  have hlen : word.length = name.length := by rw [← h, List.length_map]
  have htake : (name ++ rest).take name.length = name := List.take_left' rfl
  rw [sameWord, hlen, htake, decide_eq_true_iff, ← h, List.map_map]
  exact List.map_congr_left fun c _ => (tolower_toupper c).symm

/-! ## the subscription that the client sees -/

section

variable {line name seps rawArg tail arg : List UInt8}

/-- An unquoted name: the client copies the argument as it is written. -/
theorem copySubscribeArgument_word (memory : Bool)
    (hline : (trimmed line).dropWhile isSeparator = name ++ (seps ++ (rawArg ++ tail)))
    (hname : name.map toupper = ascii "SUBSCRIBE") (hseps : Separators seps) (hne : seps ≠ [])
    (harg : IsToken rawArg arg) (htail : Separators tail) :
    copySubscribeArgument line memory =
      if memory then (.command, some rawArg) else (.noMemory, none) := by
  have hlen : name.length = (ascii "SUBSCRIBE").length := by rw [← hname, List.length_map]
  have hdrop : (name ++ (seps ++ (rawArg ++ tail))).drop (ascii "SUBSCRIBE").length =
      seps ++ (rawArg ++ tail) := List.drop_left' hlen
  have hsep : (seps ++ (rawArg ++ tail)).head?.any isSeparator = true := by
    cases seps with
    | nil => exact absurd rfl hne
    | cons c seps => simpa using hseps c List.mem_cons_self
  have hcopy : ((seps ++ (rawArg ++ tail)).dropWhile isSeparator).rdropWhile isSeparator = rawArg := by
    rw [dropWhile_separators hseps (harg.atToken tail).1, rdropWhile_tail htail harg.getLast?]
  have hpos := List.length_pos_iff.mpr hne
  rw [copySubscribeArgument, take_commandLength, hline]
  dsimp only
  rw [hdrop, hcopy, if_neg, if_neg (harg.atToken tail).2]
  simp only [sameWord_of_toupper hname, hsep, not_true_eq_false, or_false, List.length_append, not_le]
  omega

/-- A quoted name is no command to the client. -/
theorem copySubscribeArgument_quote (memory : Bool) {rest : List UInt8}
    (hline : (trimmed line).dropWhile isSeparator = 34 :: rest) :
    copySubscribeArgument line memory = (.notCommand, none) := by
  have hword : ¬ sameWord (34 :: rest) (ascii "SUBSCRIBE") = true := by
    simp [sameWord, ascii, tolower]
  rw [copySubscribeArgument, take_commandLength, hline]
  dsimp only
  rw [if_pos (.inr (.inl hword))]

/-- A line without newlines and NULs that the server reads as a subscription. -/
structure SubscribeLine (line arg : List UInt8) : Prop where
  noNewline : 10 ∉ trimmed line
  noNul : 0 ∉ trimmed line
  length_le : commandLength line ≤ kesselCliMaxLine
  server : serverCommand (commandSent line) = some (ascii "SUBSCRIBE", [arg])

/-- A line is judged by its body. -/
theorem SubscribeLine.of_readCommand (hten : 10 ∉ trimmed line) (hnul : 0 ∉ trimmed line)
    (hlen : commandLength line ≤ kesselCliMaxLine) (hfits : (trimmed line).length ≤ ksMaxRequest)
    (hread : readCommand (trimmed line) = some (ascii "SUBSCRIBE", [arg])) :
    SubscribeLine line arg where
  noNewline := hten
  noNul := hnul
  length_le := hlen
  server := by rw [serverCommand_sent hten hnul, if_pos hfits, hread]

/-- How such a line is written. -/
theorem SubscribeLine.words (h : SubscribeLine line arg) :
    ∃ name rawName seps rawArg tail, (trimmed line).dropWhile isSeparator =
        rawName ++ (seps ++ (rawArg ++ tail)) ∧ IsToken rawName name ∧
      name.map toupper = ascii "SUBSCRIBE" ∧ Separators seps ∧ seps ≠ [] ∧ IsToken rawArg arg ∧
      Separators tail := by
  have hserver := h.server
  rw [serverCommand_sent h.noNewline h.noNul] at hserver
  split at hserver
  · obtain ⟨⟨name, args⟩, hread, heq⟩ := Option.map_eq_some_iff.mp hserver
    obtain ⟨hname, rfl⟩ := Prod.mk.inj heq
    obtain ⟨rawName, seps, rawArg, tail, hsplit, hword, hseps, hne, harg, htail⟩ :=
      (readRequest_eq_some.mp hread).one
    exact ⟨name, rawName, seps, rawArg, tail, hsplit, hword, hname, hseps, hne, harg, htail⟩
  · cases hserver

/-- **The client sees a subscription** that the server reads when its name is not
quoted. -/
theorem copySubscribeArgument_server (h : SubscribeLine line arg) :
    (copySubscribeArgument line true).1 = .command ↔
      ((trimmed line).dropWhile isSeparator).head? ≠ some 34 := by
  obtain ⟨name, rawName, seps, rawArg, tail, hsplit, htoken, hname, hseps, hne, harg, htail⟩ := h.words
  cases htoken with
  | word hnil hw =>
    rw [copySubscribeArgument_word true hsplit hname hseps hne harg htail, hsplit]
    cases name with
    | nil => exact absurd rfl hnil
    | cons c name => simpa using (hw c List.mem_cons_self).2
  | quoted =>
    rw [List.cons_append] at hsplit
    rw [copySubscribeArgument_quote true hsplit, hsplit]
    simp

/-- **The second request undoes the first** when it is not too long and its
argument does not end in a carriage return. -/
theorem unsubscribeCommand_server (h : SubscribeLine line arg) {memory : Bool}
    {argument : List UInt8} (hcopy : copySubscribeArgument line memory = (.command, some argument)) :
    serverCommand (unsubscribeCommand argument) = some (ascii "UNSUBSCRIBE", [arg]) ↔
      (ascii "UNSUBSCRIBE ").length + argument.length ≤ ksMaxRequest ∧
        argument.getLast? ≠ some 13 := by
  obtain ⟨name, rawName, seps, rawArg, tail, hsplit, htoken, hname, hseps, hne, harg, htail⟩ := h.words
  -- the copied argument is the argument as it is written
  have hcopied : argument = rawArg := by
    cases htoken with
    | word =>
      rw [copySubscribeArgument_word memory hsplit hname hseps hne harg htail] at hcopy
      cases memory <;> simp_all
    | quoted =>
      rw [List.cons_append] at hsplit
      rw [copySubscribeArgument_quote memory hsplit] at hcopy
      cases hcopy
  subst hcopied
  have hmem {c : UInt8} (hc : c ∈ argument) : c ∈ trimmed line := by
    refine (List.dropWhile_suffix isSeparator).mem ?_
    rw [hsplit]
    simp [hc]
  have hten : 10 ∉ ascii "UNSUBSCRIBE " ++ argument := by
    rw [List.mem_append, not_or]
    exact ⟨by decide, fun hc => h.noNewline (hmem hc)⟩
  have hnul : 0 ∉ ascii "UNSUBSCRIBE " ++ argument := by
    rw [List.mem_append, not_or]
    exact ⟨by decide, fun hc => h.noNul (hmem hc)⟩
  have hbytes : (CStr.ofBytes argument).bytes = argument :=
    bytes_ofBytes fun hc => h.noNul (hmem hc)
  have hunsub : IsToken (ascii "UNSUBSCRIBE") (ascii "UNSUBSCRIBE") :=
    .word (by decide) (by simp [ascii, isSeparator])
  have hreq : IsRequest (ascii "UNSUBSCRIBE " ++ argument) (ascii "UNSUBSCRIBE") [arg] := by
    have hone := isRequest_word hunsub (by decide) harg
    rwa [← List.append_assoc] at hone
  have hread : readCommand (ascii "UNSUBSCRIBE " ++ argument) =
      some (ascii "UNSUBSCRIBE", [arg]) := readCommand_eq_some hreq
  have hlast : (ascii "UNSUBSCRIBE " ++ argument).getLast? = argument.getLast? :=
    List.getLast?_append_of_ne_nil _ (harg.atToken []).2
  have hagree := readCommand_trimmed hten
  rw [hread, hlast] at hagree
  rw [unsubscribeCommand, hbytes, serverCommand_line hten hnul, List.length_append]
  constructor
  · intro hserver
    split at hserver
    · next hlen =>
      refine ⟨hlen, (hagree.mp hserver).resolve_right ?_⟩
      rintro ⟨-, hnone⟩
      rw [readCommand, readRequest_eq_none.mpr hnone] at hserver
      cases hserver
    · cases hserver
  · rintro ⟨hlen, hcr⟩
    rw [if_pos hlen]
    exact hagree.mpr (.inl hcr)

theorem copySubscribeArgument_server_room :
    (copySubscribeArgument (ascii "subscribe room\n") true).1 = .command := by
  have hline : SubscribeLine (ascii "subscribe room\n") (ascii "room") :=
    .of_readCommand (by decide +kernel) (by decide +kernel) (by decide +kernel) (by decide +kernel)
      (by decide +kernel)
  exact (copySubscribeArgument_server hline).mpr (by decide +kernel)

/-- The server reads a quoted name. -/
theorem copySubscribeArgument_server_quoted :
    SubscribeLine (ascii "\"SUBSCRIBE\" room\n") (ascii "room") ∧
      (copySubscribeArgument (ascii "\"SUBSCRIBE\" room\n") true).1 ≠ .command := by
  refine ⟨?_, by decide +kernel⟩
  exact .of_readCommand (by decide +kernel) (by decide +kernel) (by decide +kernel) (by decide +kernel)
      (by decide +kernel)

theorem unsubscribeCommand_server_room :
    serverCommand (unsubscribeCommand (ascii "\"a room\"")) =
      some (ascii "UNSUBSCRIBE", [ascii "a room"]) := by
  have hline : SubscribeLine (ascii "SUBSCRIBE \"a room\"\r\n") (ascii "a room") :=
    .of_readCommand (by decide +kernel) (by decide +kernel) (by decide +kernel) (by decide +kernel)
      (by decide +kernel)
  have hcopy : copySubscribeArgument (ascii "SUBSCRIBE \"a room\"\r\n") true =
      (.command, some (ascii "\"a room\"")) := by decide +kernel
  exact (unsubscribeCommand_server hline hcopy).mpr (by decide +kernel)

/-- A carriage return that is not at the end of the line is at the end of the
second request. -/
theorem unsubscribeCommand_server_cr :
    SubscribeLine (ascii "SUBSCRIBE a\r \n") (ascii "a\r") ∧
      copySubscribeArgument (ascii "SUBSCRIBE a\r \n") true = (.command, some (ascii "a\r")) ∧
      serverCommand (unsubscribeCommand (ascii "a\r")) ≠ some (ascii "UNSUBSCRIBE", [ascii "a\r"]) := by
  refine ⟨?_, by decide +kernel, ?_⟩
  · exact .of_readCommand (by decide +kernel) (by decide +kernel) (by decide +kernel) (by decide +kernel)
      (by decide +kernel)
  · have hsent : unsubscribeCommand (ascii "a\r") = ascii "UNSUBSCRIBE a\r" ++ crlf := by decide +kernel
    rw [hsent, serverCommand_line (by decide +kernel) (by decide +kernel)]
    decide +kernel

end

end Kessel
