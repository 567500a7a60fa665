import Kessel.Server.Command

/-!
# Kessel.Server.Handle

One request.

* `KsServer.Ok` — what holds of a server at all times;
* `queueError_fits`, `sendReply_fits` — a reply finds room below the high-water
  mark;
* `handleCommand_spec` — a command of a client below the high-water mark
  returns 0 and queues one reply, with its own message before it when it
  publishes to itself.
-/

namespace Kessel

open CStr (ascii)

variable {cfg : KsConfig}

/-! ## the server -/

/-- The invariant of the server. -/
structure KsServer.Ok (s : KsServer cfg) : Prop where
  clients : ∀ i, (s.clients i).Ok
  closed : ∀ h ∈ s.closed, Quiet h
  store : s.store.Bounded
  pubsub : s.pubsub.Wf

section

variable (s : KsServer cfg) (i : Fin cfg.maxClients) (c : KsClient)

@[simp] theorem setClient_clients : (s.setClient i c).clients = Function.update s.clients i c := rfl
@[simp] theorem setClient_store : (s.setClient i c).store = s.store := rfl
@[simp] theorem setClient_pubsub : (s.setClient i c).pubsub = s.pubsub := rfl
@[simp] theorem setClient_metrics : (s.setClient i c).metrics = s.metrics := rfl
@[simp] theorem setClient_listenFd : (s.setClient i c).listenFd = s.listenFd := rfl
@[simp] theorem setClient_nextClientId : (s.setClient i c).nextClientId = s.nextClientId := rfl
@[simp] theorem setClient_backoff :
    (s.setClient i c).acceptBackoffTicks = s.acceptBackoffTicks := rfl
@[simp] theorem setClient_accepted : (s.setClient i c).accepted = s.accepted := rfl
@[simp] theorem setClient_closed : (s.setClient i c).closed = s.closed := rfl

@[simp] theorem setClient_setClient (c' : KsClient) :
    (s.setClient i c).setClient i c' = s.setClient i c' := by
  simp [KsServer.setClient]

end

/-- A slot gets another client that is in order. -/
theorem KsServer.Ok.setClient {s : KsServer cfg} (h : s.Ok) {i : Fin cfg.maxClients} {c : KsClient}
    (hc : c.Ok) : (s.setClient i c).Ok where
  clients := by
    intro j
    by_cases hj : j = i
    · rw [hj]
      simpa using hc
    · simpa [hj] using h.clients j
  closed := h.closed
  store := h.store
  pubsub := h.pubsub

/-! ## a reply that fits -/

/-- The buffer has been appended to the queue of the client, whole. -/
structure KsClient.Queued (data : List UInt8) (c c' : KsClient) : Prop where
  queueOk : c'.QueueOk
  same : c.SameConn c'
  pending : c'.pending = c.pending ++ data
  history : c'.history = c.history ++ [.queued data]

/-- What fits is queued. -/
theorem clientQueue_fits {c : KsClient} (h : c.QueueOk) {data : List UInt8}
    (hfits : c.pendingLen + data.length ≤ ksOutputCap) :
    ∃ c', clientQueue c data = (c', 0) ∧ c.Queued data c' := by
  obtain ⟨c', hq, hsame, hcase⟩ := clientQueue_spec h data
  rcases hcase with ⟨-, heq, hpending, hhist⟩ | ⟨hfull, -⟩
  · exact ⟨c', heq, hq, hsame, hpending, hhist⟩
  · omega

/-- A client whose queue has grown is in order. -/
theorem KsClient.Queued.ok {c c' : KsClient} {data : List UInt8} (hq : c.Queued data c') (h : c.Ok)
    (hd : c.dropConnection = false) : c'.Ok :=
  h.step hq.queueOk (by rw [hq.same.inputLen]; exact h.inputLen_le) hq.same.dropConnection hq.history
    (by simp) (.inr hd) (by simp [hd])

/-- The queue has grown by what was queued. -/
theorem KsClient.Queued.pendingLen {c c' : KsClient} {data : List UInt8} (hq : c.Queued data c') :
    c'.pendingLen = c.pendingLen + data.length := by
  simpa using congrArg List.length hq.pending

/-- A short message becomes an error frame. -/
theorem queueError_eq (c : KsClient) {message : List UInt8} (h : (errorFrame message).length < 256) :
    queueError c message = clientQueue c (errorFrame message) := by
  have hlen := length_errorFrame message
  have hformat := ksFmtError_formatted blank 0 message (show message.length + 7 < 256 by omega)
  unfold queueError
  generalize ksFmtError blank 0 256 message = r at *
  obtain ⟨response, length⟩ := r
  have hlength : length = (errorFrame message).length := hformat.length
  have hbytes : response.read 0 (errorFrame message).length = errorFrame message := hformat.bytes
  simp only [hlength, hbytes]
  rw [if_neg (by omega)]

/-- Below the high-water mark an error fits. -/
theorem queueError_fits {c : KsClient} (h : c.QueueOk) (hp : c.pendingLen < ksOutputHighWater)
    {message : List UInt8} (hm : (errorFrame message).length < 256) :
    ∃ c', queueError c message = (c', 0) ∧ c.Queued (errorFrame message) c' := by
  rw [queueError_eq c hm]
  refine clientQueue_fits h ?_
  simp only [ksOutputHighWater, ksOutputCap, ksMaxRequest] at hp ⊢
  omega

/-- The end of a branch queues the frame of its reply. -/
theorem sendReply_eq (s : KsServer cfg) (i : Fin cfg.maxClients) {reply : KsReply}
    {frame : List UInt8} (hpos : 0 < frame.length) (h : reply.Sends frame) :
    sendReply s i reply =
      (s.setClient i (clientQueue (s.clients i) frame).1, (clientQueue (s.clients i) frame).2) := by
  unfold sendReply
  cases reply with
  | error message =>
    obtain ⟨rfl, hlen⟩ := h
    simp only [queueError_eq _ hlen]
  | response m length =>
    obtain ⟨hlength, hbytes⟩ := h
    simp only [hlength, hbytes]
    rw [if_neg (by omega)]

/-- A good reply fits, as one frame. -/
theorem sendReply_fits {s : KsServer cfg} {i : Fin cfg.maxClients} (h : (s.clients i).QueueOk)
    {limit : Nat} {reply : KsReply} (hreply : reply.Good limit)
    (hfits : (s.clients i).pendingLen + limit ≤ ksOutputCap) :
    ∃ frame c', IsReply frame ∧ reply.Sends frame ∧ sendReply s i reply = (s.setClient i c', 0) ∧
      (s.clients i).Queued frame c' := by
  obtain ⟨frame, hframe, hlen, hsends⟩ := hreply
  obtain ⟨c', hqueue, hqueued⟩ := clientQueue_fits h (show _ + frame.length ≤ _ by omega)
  refine ⟨frame, c', hframe, hsends, ?_, hqueued⟩
  rw [sendReply_eq s i hframe.length_pos hsends, hqueue]

/-! ## `handle_command` -/

/-- The command and the arguments that `handle_command` reads; a line that is
none has an empty name. -/
def parsedCommand (input : Mem) (line : Nat) : Option (CStr × List CStr) :=
  (ksParseLine input line).2.map fun command =>
    ((ksParseLine input line).1.cstr command.cmd (ksMaxRequest + 1),
      command.argv.map fun p => (ksParseLine input line).1.cstr p (ksMaxRequest + 1))

/-- The line that is recorded when it is dispatched. -/
def requestText (input : Mem) (line : Nat) : List UInt8 := (input.cstr line (ksInputCap + 1)).bytes

/-- The client when a line has been parsed. -/
def KsClient.parse (c : KsClient) (line : Nat) : KsClient :=
  { c with input := (ksParseLine c.input line).1 }.log
    (.request (.command (requestText c.input line)))

/-- The server when a line has been parsed and counted. -/
def beginCommand (s : KsServer cfg) (i : Fin cfg.maxClients) (line : Nat) : KsServer cfg :=
  { s with metrics := { s.metrics with totalCommands := s.metrics.totalCommands + 1 } }.setClient i
    ((s.clients i).parse line)

/-- **`handle_command`** parses the line, runs the command and sends its reply. -/
theorem handleCommand_eq (s : KsServer cfg) (i : Fin cfg.maxClients) (line : Nat)
    (env : KsCommandEnv) :
    handleCommand s i line env =
      match parsedCommand (s.clients i).input line with
      | none => sendReply (beginCommand s i line) i (.error (ascii "invalid command"))
      | some (name, args) =>
        let r := runCommand (beginCommand s i line) i name args env
        sendReply r.1 i r.2 := by
  unfold handleCommand parsedCommand beginCommand KsClient.parse requestText
  simp only
  generalize ksParseLine (s.clients i).input line = r
  obtain ⟨input, parsed⟩ := r
  cases parsed <;> rfl

/-- What a request of a client does: it delivers the frame `f` to the clients of
`ids` and queues one reply. -/
structure Handled (s : KsServer cfg) (i : Fin cfg.maxClients) (line : Nat) (ids : List UInt64)
    (f : List UInt8) (r : KsServer cfg × Int) : Prop where
  result : r.2 = 0
  ok : r.1.Ok
  others : ∀ j, j ≠ i → r.1.clients j = offerAll s.clients ids f j
  same : ((s.clients i).parse line).SameConn (r.1.clients i)
  reply : ∃ frame, IsReply frame ∧
    (r.1.clients i).pending =
      (s.clients i).pending ++ (if foundFor s.clients ids i then f else []) ++ frame ∧
    (r.1.clients i).history = ((s.clients i).parse line).history ++
      (if foundFor s.clients ids i then [.queued f] else []) ++ [.queued frame]
  subscribers : ∀ channel x, x ∈ r.1.pubsub.subscribersOf channel →
    x ∈ s.pubsub.subscribersOf channel ∨ x = (s.clients i).id
  rest : r.1 = { s with
    clients := r.1.clients
    store := r.1.store
    pubsub := r.1.pubsub
    metrics := { s.metrics with totalCommands := s.metrics.totalCommands + 1 } }

/-- A request adds itself and what is queued for it to the history. -/
theorem Handled.history {s : KsServer cfg} {i : Fin cfg.maxClients} {line : Nat} {ids : List UInt64}
    {f : List UInt8} {r : KsServer cfg × Int} (h : Handled s i line ids f r) :
    ∃ events, (r.1.clients i).history = (s.clients i).history ++
        .request (.command (requestText (s.clients i).input line)) :: events ∧
      ∀ e ∈ events, ∃ data, e = .queued data := by
  obtain ⟨frame, -, -, hhist⟩ := h.reply
  refine ⟨(if foundFor s.clients ids i then [.queued f] else []) ++ [.queued frame], ?_, ?_⟩
  · rw [hhist, KsClient.parse, KsClient.log_history]
    simp
  · intro e he
    rcases List.mem_append.mp he with he | he
    · split at he
      · exact ⟨f, List.mem_singleton.mp he⟩
      · cases he
    · exact ⟨frame, List.mem_singleton.mp he⟩

section

variable {s : KsServer cfg} {i : Fin cfg.maxClients}

/-- The client whose command begins. -/
theorem clients_beginCommand (line : Nat) :
    (beginCommand s i line).clients = Function.update s.clients i ((s.clients i).parse line) := rfl

/-- A command begins in order. -/
theorem KsServer.Ok.beginCommand (h : s.Ok) (hd : (s.clients i).dropConnection = false) (line : Nat) :
    (beginCommand s i line).Ok := by
  have hcounted : KsServer.Ok
      { s with metrics := { s.metrics with totalCommands := s.metrics.totalCommands + 1 } } :=
    ⟨h.clients, h.closed, h.store, h.pubsub⟩
  have hinput := (h.clients i).setInput (ksParseLine (s.clients i).input line).1
    (h.clients i).inputLen_le (s.clients i).closeAfterWrite
  exact hcounted.setClient (hinput.log (by simp) (.inr hd))

/-- Recording a request changes nothing that delivery looks at. -/
theorem foundFor_beginCommand (line : Nat) (ids : List UInt64) (j : Fin cfg.maxClients) :
    foundFor (beginCommand s i line).clients ids j ↔ foundFor s.clients ids j := by
  refine foundFor_congr (fun k => ?_) ids j
  rw [clients_beginCommand]
  by_cases hk : k = i
  · rw [hk]
    simp [KsClient.parse, KsClient.log]
  · simp [hk]

/-- A client below the high-water mark has room for a message of its own. -/
theorem takes_parse {c : KsClient} (hd : c.dropConnection = false)
    (hp : c.pendingLen < ksOutputHighWater) (line : Nat) {f : List UInt8}
    (hf : f.length ≤ ksMaxRequest + 37) : (c.parse line).takes f = true := by
  have hlen : (c.parse line).pendingLen = c.pendingLen := rfl
  have hdrop : (c.parse line).dropConnection = false := hd
  rw [KsClient.takes, hdrop, hlen, Bool.not_false, Bool.true_and, decide_eq_true_eq]
  simp only [ksOutputHighWater, ksOutputCap, ksMaxRequest] at hp hf ⊢
  omega

/-- What a command leaves of its issuer before the reply. -/
theorem offerAll_self (h : s.Ok) (hp : (s.clients i).pendingLen < ksOutputHighWater) (line : Nat)
    (ids : List UInt64) {f : List UInt8} (hf : f.length ≤ ksMaxRequest + 37) :
    let c := offerAll (beginCommand s i line).clients ids f i
    ((s.clients i).parse line).SameConn c ∧
      c.pending = (s.clients i).pending ++ (if foundFor s.clients ids i then f else []) ∧
      c.history = ((s.clients i).parse line).history ++
        (if foundFor s.clients ids i then [.queued f] else []) := by
  have hd := (h.clients i).alive hp
  have hc : (beginCommand s i line).clients i = (s.clients i).parse line := by
    simp [clients_beginCommand]
  have hq := ((h.beginCommand hd line).clients i).toQueueOk
  rw [hc] at hq
  simp only [offerAll, foundFor_beginCommand, hc]
  by_cases hfound : foundFor s.clients ids i
  · simp only [if_pos hfound]
    obtain ⟨-, hsame, hpending, hhist⟩ := KsClient.offer_takes hq (takes_parse hd hp line hf)
    exact ⟨hsame, hpending, hhist⟩
  · simp only [if_neg hfound, List.append_nil]
    exact ⟨.refl _, rfl, trivial⟩

/-- A command that has run leaves the server in order. -/
theorem Ran.ok (h : s.Ok) {name : CStr} {args : List CStr}
    (hargs : (args.map CStr.length).sum ≤ ksMaxRequest) {r : KsServer cfg × KsReply}
    (hran : Ran s i name args r) : r.1.Ok := by
  refine ⟨fun j => ?_, ?_, hran.store, hran.wf⟩
  · rw [hran.clients]
    exact ok_offerAll h.clients _ (length_publishFrame_le hargs) j
  · rw [hran.others]
    exact h.closed

/-- A client that was below the high-water mark, and has got at most a message
since, has room for the reply. -/
theorem exists_room {reply : KsReply} {before own after : Nat} (hp : before < ksOutputHighWater)
    (hlen : after = before + own) (hgood : reply.Good ksResponseCap)
    (hshort : own = 0 ∨ own ≤ ksMaxRequest + 37 ∧ reply.Good 24) :
    ∃ limit, reply.Good limit ∧ after + limit ≤ ksOutputCap := by
  simp only [ksOutputHighWater, ksOutputCap, ksMaxRequest] at hp hshort ⊢
  rcases hshort with hown | ⟨hown, hshort⟩
  · refine ⟨ksResponseCap, hgood, ?_⟩
    simp only [ksResponseCap, ksMaxRequest]
    omega
  · exact ⟨24, hshort, by omega⟩

/-- A command that has run, and its reply. -/
theorem Ran.handled (h : s.Ok) (hp : (s.clients i).pendingLen < ksOutputHighWater) {line : Nat}
    {name : CStr} {args : List CStr} (hargs : (args.map CStr.length).sum ≤ ksMaxRequest)
    {r : KsServer cfg × KsReply} (hran : Ran (beginCommand s i line) i name args r) :
    Handled s i line (commandTargets s.pubsub name args) (publishFrame args)
      (sendReply r.1 i r.2) := by
  have hd := (h.clients i).alive hp
  have hframe := length_publishFrame_le hargs
  have hok₁ := hran.ok (h.beginCommand hd line) hargs
  obtain ⟨s₁, reply⟩ := r
  have hclients : s₁.clients = offerAll (beginCommand s i line).clients
    (commandTargets s.pubsub name args) (publishFrame args) := hran.clients
  have hshort : commandTargets s.pubsub name args = [] ∨ reply.Good 24 := hran.short
  obtain ⟨hsame, hpending, hhist⟩ := offerAll_self h hp line (commandTargets s.pubsub name args) hframe
  rw [← hclients] at hsame hpending hhist
  generalize commandTargets s.pubsub name args = ids at *
  generalize publishFrame args = f at *
  have hlen := congrArg List.length hpending
  simp only [List.length_append, KsClient.length_pending] at hlen
  obtain ⟨limit, hgood, hfits⟩ := exists_room hp hlen hran.reply (hshort.imp
    (fun hnone => by simp [foundFor, hnone])
    fun hshort => ⟨by split <;> simp [hframe], hshort⟩)
  obtain ⟨frame, c', hreply, -, hsend, hqueued⟩ :=
    sendReply_fits (hok₁.clients i).toQueueOk hgood hfits
  rw [hsend]
  exact
    { result := rfl
      ok := hok₁.setClient (hqueued.ok (hok₁.clients i) (hsame.dropConnection.trans hd))
      others := by
        intro j hj
        have hj' : (beginCommand s i line).clients j = s.clients j := by
          simp [clients_beginCommand, hj]
        simp only [setClient_clients, Function.update_of_ne hj, hclients, offerAll,
          foundFor_beginCommand, hj']
      same := by simpa using hsame.trans hqueued.same
      reply := by
        refine ⟨frame, hreply, ?_, ?_⟩
        · simp only [setClient_clients, Function.update_self, hqueued.pending, hpending]
        · simp only [setClient_clients, Function.update_self, hqueued.history, hhist]
      subscribers := by
        intro channel x hx
        have hid : ((beginCommand s i line).clients i).id = (s.clients i).id := by
          simp [clients_beginCommand, KsClient.parse, KsClient.log]
        rw [← hid]
        exact hran.subscribers channel x hx
      rest := by
        have hothers : s₁ = { beginCommand s i line with
            store := s₁.store, pubsub := s₁.pubsub, clients := s₁.clients } := hran.others
        rw [hothers]
        rfl }

/-- The ids that the line of a client is delivered to. -/
def lineTargets (s : KsServer cfg) (i : Fin cfg.maxClients) (line : Nat) : List UInt64 :=
  (parsedCommand (s.clients i).input line).elim [] fun c => commandTargets s.pubsub c.1 c.2

/-- The frame that the line of a client delivers. -/
def lineFrame (s : KsServer cfg) (i : Fin cfg.maxClients) (line : Nat) : List UInt8 :=
  (parsedCommand (s.clients i).input line).elim [] fun c => publishFrame c.2

/-- The arguments of a line are no longer than a request. -/
theorem parsedCommand_args {input : Mem} {line : Nat} {name : CStr} {args : List CStr}
    (h : parsedCommand input line = some (name, args)) :
    (args.map CStr.length).sum ≤ ksMaxRequest := by
  obtain ⟨command, hparse, heq⟩ := Option.map_eq_some_iff.mp h
  rw [Prod.mk.injEq] at heq
  have hsum := ksParseLine_args hparse (ksMaxRequest + 1)
  rw [← heq.2, List.map_map, Function.comp_def]
  generalize ksMaxRequest + 1 = limit at hsum ⊢
  exact hsum

/-- **`handle_command`** of a client below the high-water mark. -/
theorem handleCommand_spec (h : s.Ok) (hp : (s.clients i).pendingLen < ksOutputHighWater)
    (line : Nat) (env : KsCommandEnv) :
    Handled s i line (lineTargets s i line) (lineFrame s i line) (handleCommand s i line env) := by
  have hbegin := h.beginCommand ((h.clients i).alive hp) line
  rw [handleCommand_eq, lineTargets, lineFrame]
  cases hparsed : parsedCommand (s.clients i).input line with
  | none =>
    have hgood : (KsReply.error (ascii "invalid command")).Good ksResponseCap :=
      (good_error (by decide)).mono ksResponseCap_ge
    have hname : CStr.empty.bytes ≠ ascii "PUBLISH" := by decide
    have hran : Ran (beginCommand s i line) i .empty [] (beginCommand s i line, _) :=
      ran_reply hbegin.store hbegin.pubsub hname hgood
    have hhandled := hran.handled h hp (by simp)
    rw [commandTargets, if_neg hname] at hhandled
    exact hhandled
  | some c =>
    obtain ⟨name, args⟩ := c
    have hargs := parsedCommand_args hparsed
    exact Ran.handled h hp hargs (runCommand_spec hbegin.store hbegin.pubsub
      (fun j => (hbegin.clients j).toQueueOk) hargs i env)

end

end Kessel
