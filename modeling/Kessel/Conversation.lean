import Kessel.Cli.Main
import Kessel.Server.Printed

/-!
# Kessel.Conversation

The client and the server, end to end.

A client types lines to a connection of the server, and the network delivers a
front of what either side has sent.  Lines that are no subscriptions are requests
with one reply each (`Typed`, `typedRequest`).

* `ReachableAt.converses` — the requests of the connection are the lines, its
  replies are what the client prints.
-/

namespace Kessel

open Broker CStr

variable {cfg : KsConfig} {l : KsLoop cfg} {t : UInt64} {refused : Nat → Prop}

/-! ## lines -/

/-- What the server reads when a line is sent. -/
def typedRequest (line : List UInt8) : KsRequest := lineRequest (trimmed line ++ [13])

/-- One line of the input, which ends where its newline is, and no subscription,
neither to the client nor to the server. -/
structure Typed (line : List UInt8) : Prop where
  newline : 10 ∉ line.dropLast
  plain : Plain line
  notSubscribe : ∀ channel, requestMeaning (typedRequest line) ≠ .inr (.subscribe channel)

/-- Without its line end a line that was typed has no line feed. -/
theorem Typed.newline_notMem {line : List UInt8} (h : Typed line) : 10 ∉ trimmed line := by
  have hline := h.newline
  clear h
  cases line using List.reverseRecOn with
  | nil => exact List.not_mem_nil
  | append_singleton line c =>
    rw [List.dropLast_concat] at hline
    rw [trimmed, List.rdropWhile_concat]
    split_ifs with hc
    · exact fun hmem => hline ((List.rdropWhile_prefix isCrlf line).subset hmem)
    · have hne : c ≠ 10 := by
        rintro rfl
        exact hc (by decide)
      simpa [hline] using hne.symm

/-- A line that is sent is not too large for the server. -/
theorem typedRequest_ne_tooLarge {line : List UInt8} (h : Sendable line = true) :
    typedRequest line ≠ .tooLarge := by
  have hlength : contentLength (trimmed line ++ [13]) = commandLength line := by
    simp [contentLength, commandLength, trimmed]
  have hle : commandLength line ≤ ksMaxRequest := by
    simp only [Sendable, Bool.and_eq_true, decide_eq_true_eq] at h
    exact h.2
  rw [typedRequest, lineRequest, hlength, if_neg (Nat.not_lt.mpr hle)]
  split_ifs <;> simp

/-- What the lines are to the server. -/
theorem requestStream_sent {lines : List (List UInt8)} (hten : ∀ line ∈ lines, 10 ∉ trimmed line)
    (hsendable : ∀ line ∈ lines, Sendable line = true) :
    requestStream (lines.flatMap commandSent) = lines.map typedRequest := by
  induction lines with
  | nil => rfl
  | cons line lines ih =>
    rw [List.forall_mem_cons] at hten hsendable
    have hsplit : (line :: lines).flatMap commandSent =
        (trimmed line ++ [13]) ++ 10 :: lines.flatMap commandSent := by
      simp [commandSent_eq, crlf]
    rw [hsplit, requestStream_line (by simp [hten.1]), ← typedRequest,
      if_neg (typedRequest_ne_tooLarge hsendable.1), ih hten.2 hsendable.2, List.map_cons]

/-- A line that is sent was typed, and is worth sending. -/
theorem sendable_of_mem_sentLines {lines : List (List UInt8)} {line : List UInt8}
    (h : line ∈ sentLines lines) : line ∈ lines ∧ Sendable line = true :=
  (List.mem_filter.mp h).imp_left fun hmem => (List.takeWhile_sublist _).subset hmem

/-! ## a log of exchanges -/

/-- Requests are seen. -/
theorem requestsOf_filter (history : List KsEvent) :
    Kessel.requestsOf (history.filter KsEvent.seen) = Kessel.requestsOf history := by
  induction history with
  | nil => rfl
  | cons e history ih =>
    unfold Kessel.requestsOf at ih ⊢
    cases e <;> simp [List.filter_cons, KsEvent.seen, ih]

/-- Requests are items of the log. -/
theorem requestsOf_items (log : List KsItem) :
    Kessel.requestsOf ((log.filter Item.isExchange).map itemEvent) =
      Kessel.requestsOf (log.map itemEvent) := by
  induction log with
  | nil => rfl
  | cons item log ih =>
    unfold Kessel.requestsOf at ih ⊢
    cases item <;> simp [List.filter_cons, itemEvent, ih]

/-- The requests of a history are those of its exchanges. -/
theorem LogShows.requestsOf {history : List KsEvent} {log : List KsItem} (h : LogShows history log)
    {xs : List (KsRequest × CliFrame)} (hxs : log.filter Item.isExchange = xs.flatMap spoken) :
    Kessel.requestsOf history = xs.map Prod.fst := by
  rw [← requestsOf_filter, h.events, ← requestsOf_items, hxs]
  clear hxs
  induction xs with
  | nil => rfl
  | cons x xs ih =>
    rw [List.flatMap_cons, List.map_append, requestsOf_append, ih]
    rfl

theorem logFrames_append (log log' : List KsItem) :
    logFrames (log ++ log') = logFrames log ++ logFrames log' :=
  List.filterMap_append

/-- Without messages the frames of a log are its replies. -/
theorem logFrames_eq_replies {log : List KsItem} {xs : List (KsRequest × CliFrame)}
    (hxs : log.filter Item.isExchange = xs.flatMap spoken) (hmessages : messages log = []) :
    logFrames log = xs.map Prod.snd := by
  have hfilter : logFrames (log.filter Item.isExchange) = logFrames log := by
    clear hxs
    induction log with
    | nil => rfl
    | cons item log ih =>
      unfold logFrames at ih ⊢
      cases item with
      | message channel m => cases hmessages
      | _ => simp [List.filter_cons, List.filterMap_cons, itemFrame, ih hmessages]
  rw [← hfilter, hxs]
  clear hxs hfilter
  induction xs with
  | nil => rfl
  | cons x xs ih =>
    rw [List.flatMap_cons, logFrames_append, ih]
    rfl

/-! ## a conversation -/

/-- The lines that the client sends. -/
def CliMainEnv.sent (env : CliMainEnv) : List (List UInt8) := sentLines (env.lines.map Prod.fst)

/-- A client that is told `frames`, and no more, sends its lines one after the other
and prints the frames; it returns when each line has its response, and waits for
the next response otherwise. -/
def TalksTo (argv : List CStr) (env : CliMainEnv) (frames : List CliFrame) : Prop :=
  ∀ (left : Nat) (c : Cli),
    Answering [] ((env.sent.flatMap commandSent).length + left) c →
    c.ahead = frames.flatMap CliFrame.encode →
    Ends
      (fun code c' => frames.length = env.sent.length ∧
        code = endCode env.error (env.lines.map Prod.fst) ∧
        bytesSent c'.log = env.sent.flatMap commandSent ∧
        c'.stdout = c.stdout ++ frames.flatMap CliFrame.rendered)
      (fun _ _ => False)
      (fun c' => frames.length < env.sent.length ∧
        bytesSent c'.log =
          (env.sent.take (frames.length + 1)).flatMap commandSent ∧
        c'.stdout = c.stdout ++ frames.flatMap CliFrame.rendered)
      (cliMain argv env c)

/-- **What the client prints** when it has got a front of the replies. -/
theorem talksTo {argv : List CStr} {config : CliConfig} (hargs : cliParseArgs argv = .run config)
    {env : CliMainEnv} (hconnected : env.connected = true) (hinput : env.input = true)
    (htyped : ∀ line ∈ env.lines.map Prod.fst, Typed line) {frames : List CliFrame}
    (hvalid : ∀ f ∈ frames, f.Valid) (hle : frames.length ≤ env.sent.length) :
    TalksTo argv env frames := by
  intro left c hc hahead
  have hplain : ∀ l ∈ env.lines, Plain l.1 := fun l hl => (htyped l.1 (List.mem_map_of_mem hl)).plain
  have hmain : cliMain argv env = mainLoop env.error env.lines := by
    unfold cliMain
    rw [hargs]
    simp [hconnected, hinput]
  rw [hmain]
  rcases Nat.lt_or_eq_of_le hle with hlt | heq
  · refine (mainLoop_waits hplain hlt hvalid hc hahead).mono (fun _ _ h => h.elim) (fun _ _ h => h) ?_
    rintro c' ⟨hsent, hstdout⟩
    exact ⟨hlt, hsent, hstdout⟩
  · refine (mainLoop_spec hplain heq hvalid hc (hahead.trans (List.append_nil _).symm)).mono ?_
      (fun _ _ h => h) fun _ h => h.elim
    rintro code c' ⟨hcode, hreads⟩
    exact ⟨heq, hcode, hreads.inv.sent, hreads.stdout⟩

/-- The requests of a connection that has received a front of the lines. -/
theorem requests_typed {c : KsClient} (h : c.Framed) {env : CliMainEnv}
    (htyped : ∀ line ∈ env.lines.map Prod.fst, Typed line)
    (hreceived : receivedBytes c.history <+: env.sent.flatMap commandSent)
    (heof : .eof ∈ c.history → receivedBytes c.history = env.sent.flatMap commandSent) :
    requestsOf c.history <+: env.sent.map typedRequest := by
  obtain ⟨rest, hrest⟩ := hreceived
  have hserved := h.served rest fun hmem =>
    List.append_right_eq_self.mp (hrest.trans (heof hmem).symm)
  rwa [hrest, CliMainEnv.sent, requestStream_sent
    (fun line hline => (htyped line (sendable_of_mem_sentLines hline).1).newline_notMem)
    fun line hline => (sendable_of_mem_sentLines hline).2] at hserved

/-- Exchanges whose requests are a front of a list. -/
theorem eq_zip_of_prefix {xs : List (KsRequest × CliFrame)} {requests : List KsRequest}
    (h : xs.map Prod.fst <+: requests) : xs = requests.zip (xs.map Prod.snd) := by
  obtain ⟨rest, rfl⟩ := h
  rw [← List.append_nil (xs.map Prod.snd), List.zip_append (by simp), List.zip_nil_right,
    List.append_nil]
  exact List.zip_of_prod rfl rfl

/-- **Client and server understand each other.**  While the server has received a
front of what the client sends, its requests are the first lines of the client,
each answered once, in order; what it sends is these replies; and a client that
has got a front of them prints them, and sends the next line when it has printed
the reply to the one before. -/
theorem KsLoop.ReachableAt.converses (h : l.ReachableAt refused t)
    (hlt : l.server.accepted < 2 ^ 64 - 1) {i : Fin cfg.maxClients}
    (hused : (l.server.clients i).used = true) {argv : List CStr} {config : CliConfig}
    (hargs : cliParseArgs argv = .run config) {env : CliMainEnv}
    (hconnected : env.connected = true) (hinput : env.input = true)
    (htyped : ∀ line ∈ env.lines.map Prod.fst, Typed line)
    (hreceived : receivedBytes (l.server.clients i).history <+: env.sent.flatMap commandSent)
    (heof : .eof ∈ (l.server.clients i).history →
      receivedBytes (l.server.clients i).history = env.sent.flatMap commandSent) :
    ∃ trace b replies, Run ksScale (ksShort refused) ksProtocol trace b ∧ ServerShows t l.server b ∧
      exchanges (l.server.clients i).id trace = (env.sent.map typedRequest).zip replies ∧
      replies.length ≤ env.sent.length ∧
      sentBytes (l.server.clients i).history ++ (l.server.clients i).pending =
        replies.flatMap CliFrame.encode ∧
      ∀ frames, frames <+: replies → TalksTo argv env frames := by
  obtain ⟨trace, b, hrun, hshows⟩ := h.shows hlt
  have hlog := hshows.logs i hused
  have hexchanges := hrun.exchanges (l.server.clients i).id
  have hstream := requests_typed (h.reachable.flow i).framed htyped hreceived heof
  rw [hlog.requestsOf hexchanges] at hstream
  have hinbox : inbox (l.server.clients i).id trace = ⟨∅, []⟩ := by
    refine hrun.inbox_eq_empty fun exchange hmem => ?_
    obtain ⟨line, hline, hrequest⟩ :=
      List.mem_map.mp (hstream.subset (List.mem_map_of_mem hmem))
    rw [← hrequest]
    exact (htyped line (sendable_of_mem_sentLines hline).1).notSubscribe
  have hmessages : messages (b.log (l.server.clients i).id) = [] := by
    simpa [hinbox] using (hrun.inbox (l.server.clients i).id).seen
  have hframes := logFrames_eq_replies hexchanges hmessages
  have hle : ((exchanges (l.server.clients i).id trace).map Prod.snd).length ≤ env.sent.length := by
    simpa using hstream.length_le
  refine ⟨trace, b, (exchanges (l.server.clients i).id trace).map Prod.snd, hrun, hshows, ?_, hle, ?_,
    fun frames hpre => ?_⟩
  · exact eq_zip_of_prefix hstream
  · rw [← hframes, ← hlog.queuedBytes]
    exact h.reachable.conserved hused
  · exact talksTo hargs hconnected hinput htyped
      (fun f hf => hlog.valid f (hframes ▸ hpre.subset hf)) (hpre.length_le.trans hle)

/-- The server when it has been sent a `PING`. -/
def pingedServer : KsServer pairConfig :=
  iteration acceptedServer (fun fd => fd = 5) (fun _ => false) []
    { idle with recvs := [.ok (ascii "PING\r\n") idle.env] } idle

/-- The run up to that state. -/
theorem reachableAt_pingedServer (refused : Nat → Prop) :
    KsLoop.ReachableAt refused 0 ⟨pingedServer, .top⟩ :=
  (reachableAt_acceptedServer refused).path (path_received refused (ascii "PING\r\n"))

/-- The client that sends it, and leaves. -/
def pingEnv : CliMainEnv :=
  ⟨true, true, [(ascii "PING\n", ⟨true, true, true⟩), (ascii "exit\n", ⟨true, true, true⟩)], false⟩

/-- The server has received everything that is sent. -/
theorem pingedServer_received :
    pingedServer.accepted < 2 ^ 64 - 1 ∧ (pingedServer.clients firstSlot).used = true ∧
      receivedBytes (pingedServer.clients firstSlot).history = ascii "PING\r\n" ∧
      pingEnv.sent.flatMap commandSent = ascii "PING\r\n" := by
  decide +kernel

/-- The line is typed. -/
theorem typed_pingEnv : ∀ line ∈ pingEnv.lines.map Prod.fst, Typed line := by
  have hping : requestMeaning (typedRequest (ascii "PING\n")) = .inl (.simple (ascii "PONG")) := by
    decide +kernel
  have hexit : requestMeaning (typedRequest (ascii "exit\n")) =
      .inl (.error (ascii "unknown command")) := by
    decide +kernel
  simp only [pingEnv, List.map_cons, List.map_nil, List.forall_mem_cons]
  refine ⟨⟨by decide, ?_, fun channel => by simp [hping]⟩,
    ⟨by decide, ?_, fun channel => by simp [hexit]⟩, by simp⟩
  · intro memory
    cases memory <;> decide
  · intro memory
    cases memory <;> decide

/-- Without arguments the client runs. -/
def plainArgv : List CStr := [.ofBytes (ascii "kessel-cli")]

theorem cliParseArgs_plainArgv : cliParseArgs plainArgv = .run .default := by
  decide

/-- The server has got everything, and the client prints what it is answered. -/
theorem converses_pingedServer :
    ∃ trace b replies, Run ksScale (ksShort fun _ => False) ksProtocol trace b ∧
      ServerShows 0 pingedServer b ∧
      exchanges (pingedServer.clients firstSlot).id trace =
        (pingEnv.sent.map typedRequest).zip replies ∧
      replies.length ≤ pingEnv.sent.length ∧
      sentBytes (pingedServer.clients firstSlot).history ++ (pingedServer.clients firstSlot).pending =
        replies.flatMap CliFrame.encode ∧
      ∀ frames, frames <+: replies → TalksTo plainArgv pingEnv frames := by
  have hreached := reachableAt_pingedServer fun _ => False
  obtain ⟨hlt, hused, hreceived, hsent⟩ := pingedServer_received
  generalize pingedServer = s at *
  have hall := hreceived.trans hsent.symm
  exact KsLoop.ReachableAt.converses (i := firstSlot) hreached hlt hused cliParseArgs_plainArgv
    (show pingEnv.connected = true from rfl) rfl typed_pingEnv
    ⟨[], (List.append_nil _).trans hall⟩ fun _ => hall

end Kessel
