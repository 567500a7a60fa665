import Kessel.Server.Handle
import Kessel.Server.Loop

/-!
# Kessel.Server.Step

The server as a transition system.

`KsAct i` are the things that are done for the client of slot `i` in its turn: a
command, an answer to a request that is not dispatched, a write, and passive
changes of its input.  `KsServerStep` adds what happens between turns.
`Reached` are the states of any sequence of these steps, in any order; they
include every state that the event loop passes through, also inside a turn.

* `acted_of_acts` — what the acts of one slot may change;
* `Reached.ok` — the invariant holds in every state reached.
-/

namespace Kessel

open CStr (ascii)
open Relation (ReflTransGen)

variable {cfg : KsConfig}

/-! ## the acts of a slot -/

/-- A change of a client that sends and queues nothing. -/
structure KsClient.Passive (c c' : KsClient) : Prop where
  used : c'.used = c.used
  fd : c'.fd = c.fd
  id : c'.id = c.id
  dropConnection : c'.dropConnection = c.dropConnection
  output : c'.output = c.output
  outputOffset : c'.outputOffset = c.outputOffset
  outputLen : c'.outputLen = c.outputLen
  inputLen_le : c'.inputLen ≤ ksInputCap
  history : ∃ events, c'.history = c.history ++ events ∧
    ∀ e ∈ events, e.active = false ∧ e ≠ .dropped

/-- What a request is answered that is not dispatched. -/
def KsRequest.message : KsRequest → List UInt8
  | .command _ => []
  | .rejected => ascii "invalid command"
  | .tooLarge => ascii "request too large"
  | .incomplete => ascii "incomplete command"

/-- The frame of every error that the server makes up itself is short. -/
theorem length_message (request : KsRequest) : (errorFrame request.message).length < 256 := by
  cases request with
  | command line => rw [KsRequest.message, length_errorFrame]; decide
  | rejected => decide
  | tooLarge => decide
  | incomplete => decide

/-- What is done for the client of a slot. -/
inductive KsAct (i : Fin cfg.maxClients) : KsServer cfg → KsServer cfg → Prop where
  | command (s : KsServer cfg) (line : Nat) (env : KsCommandEnv) :
      (s.clients i).used = true → (s.clients i).pendingLen < ksOutputHighWater →
      KsAct i s (handleCommand s i line env).1
  | answer (s : KsServer cfg) (request : KsRequest) (message : List UInt8) :
      (s.clients i).used = true → (s.clients i).pendingLen < ksOutputHighWater →
      message = request.message →
      KsAct i s (s.setClient i (queueError ((s.clients i).log (.request request)) message).1)
  | write (s : KsServer cfg) (sends : List KsSend) :
      (s.clients i).used = true → (s.clients i).dropConnection = false →
      KsAct i s (s.setClient i (writeClient (s.clients i) sends).1)
  | passive (s : KsServer cfg) (c : KsClient) :
      (s.clients i).used = true → (s.clients i).Passive c → KsAct i s (s.setClient i c)

/-- What the acts of slot `i` may change. -/
structure Acted (i : Fin cfg.maxClients) (s s' : KsServer cfg) : Prop where
  ok : s'.Ok
  others : ∀ j, j ≠ i → (s.clients j).Offered (s'.clients j)
  used : (s'.clients i).used = (s.clients i).used
  fd : (s'.clients i).fd = (s.clients i).fd
  id : (s'.clients i).id = (s.clients i).id
  dropConnection : (s'.clients i).dropConnection = (s.clients i).dropConnection
  subscribers : ∀ channel x, x ∈ s'.pubsub.subscribersOf channel →
    x ∈ s.pubsub.subscribersOf channel ∨ x = (s.clients i).id
  connectedClients : s'.metrics.connectedClients = s.metrics.connectedClients
  totalConnections : s'.metrics.totalConnections = s.metrics.totalConnections
  listenFd : s'.listenFd = s.listenFd
  nextClientId : s'.nextClientId = s.nextClientId
  acceptBackoffTicks : s'.acceptBackoffTicks = s.acceptBackoffTicks
  accepted : s'.accepted = s.accepted
  closed : s'.closed = s.closed

section

variable {i : Fin cfg.maxClients} {s s' s'' : KsServer cfg}

/-- Nothing is done. -/
theorem Acted.refl (h : s.Ok) : Acted i s s :=
  ⟨h, fun _ _ => .refl _, rfl, rfl, rfl, rfl, fun _ _ => .inl, rfl, rfl, rfl, rfl, rfl, rfl, rfl⟩

/-- One sequence of acts behind another. -/
theorem Acted.trans (h : Acted i s s') (h' : Acted i s' s'') : Acted i s s'' where
  ok := h'.ok
  others := fun j hj => (h.others j hj).trans (h'.others j hj)
  used := h'.used.trans h.used
  fd := h'.fd.trans h.fd
  id := h'.id.trans h.id
  dropConnection := h'.dropConnection.trans h.dropConnection
  subscribers := by
    intro channel x hx
    rcases h'.subscribers channel x hx with hx | hx
    · exact h.subscribers channel x hx
    · rw [h.id] at hx
      exact .inr hx
  connectedClients := h'.connectedClients.trans h.connectedClients
  totalConnections := h'.totalConnections.trans h.totalConnections
  listenFd := h'.listenFd.trans h.listenFd
  nextClientId := h'.nextClientId.trans h.nextClientId
  acceptBackoffTicks := h'.acceptBackoffTicks.trans h.acceptBackoffTicks
  accepted := h'.accepted.trans h.accepted
  closed := h'.closed.trans h.closed

/-- No act takes a slot, its descriptor or its id away. -/
theorem Acted.slots (h : Acted i s s') (j : Fin cfg.maxClients) :
    (s'.clients j).used = (s.clients j).used ∧ (s'.clients j).fd = (s.clients j).fd ∧
      (s'.clients j).id = (s.clients j).id := by
  by_cases hj : j = i
  · rw [hj]
    exact ⟨h.used, h.fd, h.id⟩
  · have hoffered := h.others j hj
    exact ⟨hoffered.used, hoffered.fd, hoffered.id⟩

/-- Acts are done for a slot in use. -/
theorem KsAct.used (h : KsAct i s s') : (s.clients i).used = true := by
  cases h <;> assumption

/-- A change of the client of the slot alone. -/
theorem acted_setClient (h : s.Ok) {c : KsClient} (hok : c.Ok) (hused : c.used = (s.clients i).used)
    (hfd : c.fd = (s.clients i).fd) (hid : c.id = (s.clients i).id)
    (hdrop : c.dropConnection = (s.clients i).dropConnection) : Acted i s (s.setClient i c) where
  ok := h.setClient hok
  others := by
    intro j hj
    rw [setClient_clients, Function.update_of_ne hj]
    exact .refl _
  used := by simpa using hused
  fd := by simpa using hfd
  id := by simpa using hid
  dropConnection := by simpa using hdrop
  subscribers := fun _ _ => .inl
  connectedClients := rfl
  totalConnections := rfl
  listenFd := rfl
  nextClientId := rfl
  acceptBackoffTicks := rfl
  accepted := rfl
  closed := rfl

/-- A passive change keeps the client in order. -/
theorem KsClient.Ok.passive {c c' : KsClient} (h : c.Ok) (hp : c.Passive c') : c'.Ok := by
  obtain ⟨events, hhist, hevents⟩ := hp.history
  have hlen : c'.pendingLen = c.pendingLen := by
    rw [pendingLen, hp.outputLen, hp.outputOffset, ← pendingLen]
  have hnot : .dropped ∉ events := fun hmem => (hevents _ hmem).2 rfl
  exact
    { offset_le := by rw [hp.outputLen, hp.outputOffset]; exact h.offset_le
      len_le := by rw [hp.outputLen]; exact h.len_le
      inputLen_le := hp.inputLen_le
      dead := by rw [hp.dropConnection, hlen]; exact h.dead
      dropped := by rw [hhist, List.mem_append, hp.dropConnection, ← h.dropped]; simp [hnot]
      quiet := by
        rw [hhist]
        exact h.quiet.append fun e he => (hevents e he).1 }

/-- A command offers its message to the other clients. -/
theorem Handled.acted {line : Nat} {ids : List UInt64} {f : List UInt8} {r : KsServer cfg × Int}
    (hr : Handled s i line ids f r) (h : s.Ok) : Acted i s r.1 := by
  have hrest := hr.rest
  exact
    { ok := hr.ok
      others := by
        intro j hj
        rw [hr.others j hj]
        exact offered_offerAll (fun k => (h.clients k).toQueueOk) ids f j
      used := hr.same.used
      fd := hr.same.fd
      id := hr.same.id
      dropConnection := hr.same.dropConnection
      subscribers := hr.subscribers
      connectedClients := by rw [hrest]
      totalConnections := by rw [hrest]
      listenFd := by rw [hrest]
      nextClientId := by rw [hrest]
      acceptBackoffTicks := by rw [hrest]
      accepted := by rw [hrest]
      closed := by rw [hrest] }

/-- An answer that is not a command's. -/
theorem answer_spec {c : KsClient} (h : c.Ok) (hp : c.pendingLen < ksOutputHighWater)
    {request : KsRequest} {message : List UInt8} (hm : message = request.message) :
    ∃ c', queueError (c.log (.request request)) message = (c', 0) ∧ c'.Ok ∧
      (c.log (.request request)).Queued (errorFrame message) c' := by
  have hd := h.alive hp
  have hlog := h.log (e := .request request) (by simp) (.inr hd)
  obtain ⟨c', hqueue, hqueued⟩ := queueError_fits hlog.toQueueOk hp (hm ▸ length_message request)
  exact ⟨c', hqueue, hqueued.ok hlog hd, hqueued⟩

/-- **What an act of a slot does** to the server. -/
theorem acted_of_act (h : s.Ok) (hact : KsAct i s s') : Acted i s s' := by
  cases hact with
  | command line env hused hp => exact (handleCommand_spec h hp line env).acted h
  | answer request message hused hp hm =>
    obtain ⟨c', hqueue, hok, hqueued⟩ := answer_spec (h.clients i) hp hm
    rw [hqueue]
    exact acted_setClient h hok hqueued.same.used hqueued.same.fd hqueued.same.id
      hqueued.same.dropConnection
  | write sends hused hd =>
    obtain ⟨-, hsame, -⟩ := writeClient_spec (h.clients i).toQueueOk sends
    exact acted_setClient h ((h.clients i).write hd sends) hsame.used hsame.fd hsame.id
      hsame.dropConnection
  | passive c hused hp =>
    exact acted_setClient h ((h.clients i).passive hp) hp.used hp.fd hp.id hp.dropConnection

/-- **What a sequence of acts does.** -/
theorem acted_of_acts (h : s.Ok) (hacts : ReflTransGen (KsAct i) s s') : Acted i s s' := by
  induction hacts with
  | refl => exact .refl h
  | tail _ hact ih => exact ih.trans (acted_of_act ih.ok hact)

end

/-! ## accepting a connection -/

/-- `client_init` with both buffers. -/
def newClient (fd : Nat) (id : UInt64) : KsClient :=
  { KsClient.free with
    used := true
    fd := fd
    id := id }

/-- The server with a new connection. -/
def KsServer.admitClient (s : KsServer cfg) (slot : Fin cfg.maxClients) (fd : Nat) : KsServer cfg :=
  { s.takeClientId.setClient slot (newClient fd s.nextClientId) with
    metrics := { s.metrics with
      connectedClients := s.metrics.connectedClients + 1
      totalConnections := s.metrics.totalConnections + 1 } }

/-- **An accepted descriptor** is rejected, before or behind its id, or it fills
a free slot. -/
theorem acceptClient_cases (s : KsServer cfg) (fd : Nat) (heap : KsHeap) :
    acceptClient s fd heap = s.reject ∨ acceptClient s fd heap = s.takeClientId.reject ∨
      ∃ slot, (s.clients slot).used = false ∧ fd < fdSetSize ∧
        acceptClient s fd heap = s.admitClient slot fd := by
  unfold acceptClient
  cases hslot : (List.finRange cfg.maxClients).find? fun i => !(s.clients i).used with
  | none => exact .inl rfl
  | some slot =>
    have hfree : (s.clients slot).used = false := by simpa using List.find?_some hslot
    simp only
    by_cases hfd : fd ≥ fdSetSize
    · exact .inl (if_pos hfd)
    rw [if_neg hfd]
    unfold clientInit
    by_cases hheap : heap .clientInput = false ∨ heap .clientOutput = false
    · rw [if_pos hheap]
      exact .inr (.inl rfl)
    · rw [if_neg hheap]
      exact .inr (.inr ⟨slot, hfree, by omega, rfl⟩)

/-! ## the start of an iteration -/

theorem accepted_startIteration (s : KsServer cfg) (now : UInt64) :
    (startIteration s now).accepted = s.accepted := by
  unfold startIteration
  generalize ksKvReap s.store ksReaperBudget now = r
  rfl

theorem clients_startIteration (s : KsServer cfg) (now : UInt64) :
    (startIteration s now).clients = s.clients := by
  unfold startIteration
  generalize ksKvReap s.store ksReaperBudget now = r
  rfl

theorem closed_startIteration (s : KsServer cfg) (now : UInt64) :
    (startIteration s now).closed = s.closed := by
  unfold startIteration
  generalize ksKvReap s.store ksReaperBudget now = r
  rfl

theorem listenFd_startIteration (s : KsServer cfg) (now : UInt64) :
    (startIteration s now).listenFd = s.listenFd := by
  unfold startIteration
  generalize ksKvReap s.store ksReaperBudget now = r
  rfl

/-! ## the steps of the server -/

/-- What the server does, piece by piece. -/
inductive KsServerStep : KsServer cfg → KsServer cfg → Prop where
  | act {s s' : KsServer cfg} {i : Fin cfg.maxClients} : KsAct i s s' → KsServerStep s s'
  | close (s : KsServer cfg) (i : Fin cfg.maxClients) :
      (s.clients i).used = true → KsServerStep s (closeClient s i)
  | accept (s : KsServer cfg) (fd : Nat) (heap : KsHeap) : KsServerStep s (acceptClient s fd heap)
  | iterate (s : KsServer cfg) (now : UInt64) : KsServerStep s (startIteration s now)
  | backoff (s : KsServer cfg) (ticks : Nat) :
      KsServerStep s { s with acceptBackoffTicks := ticks }

/-- The states of the server. -/
inductive KsServer.Reached : KsServer cfg → Prop where
  | init (listenFd : Nat) (startedAt : Int64) : Reached (ksServerInit cfg listenFd startedAt)
  | step {s s' : KsServer cfg} : Reached s → KsServerStep s s' → Reached s'

section

variable {s s' : KsServer cfg}

/-- Reachable states lead to reachable states. -/
theorem KsServer.Reached.steps (h : s.Reached) (hsteps : ReflTransGen KsServerStep s s') :
    s'.Reached := by
  induction hsteps with
  | refl => exact h
  | tail _ hstep ih => exact .step ih hstep

/-- So do the acts of a slot. -/
theorem KsServer.Reached.acts {i : Fin cfg.maxClients} (h : s.Reached)
    (hacts : ReflTransGen (KsAct i) s s') : s'.Reached :=
  h.steps (ReflTransGen.mono (fun _ _ => .act) _ _ hacts)

/-- The server starts in order. -/
theorem ok_ksServerInit (listenFd : Nat) (startedAt : Int64) :
    (ksServerInit cfg listenFd startedAt).Ok where
  clients := fun _ => KsClient.ok_free
  closed := by simp [ksServerInit]
  store := keeps_ksKvInit
  pubsub := KsPubsub.wf_create

/-- Closing a connection frees its slot, and keeps the rest in order. -/
theorem KsServer.Ok.close (h : s.Ok) (i : Fin cfg.maxClients) : (closeClient s i).Ok where
  clients := by
    intro j
    by_cases hj : j = i
    · rw [hj]
      simpa [closeClient, KsServer.resetClient] using KsClient.ok_free
    · simpa [closeClient, KsServer.resetClient, hj] using h.clients j
  closed := by
    intro history hmem
    rcases List.mem_append.mp hmem with hmem | hmem
    · exact h.closed history hmem
    · rw [List.mem_singleton.mp hmem]
      exact (h.clients i).quiet
  store := h.store
  pubsub := (KsPubsub.subscribersOf_removeClient h.pubsub (s.clients i).id).1

/-- A new client is in order. -/
theorem ok_clientInit {fd : Nat} {id : UInt64} {heap : KsHeap} {c : KsClient}
    (hc : clientInit fd id heap = some c) : c.Ok := by
  unfold clientInit at hc
  split at hc
  · cases hc
  · rw [← Option.some.inj hc]
    exact
      { offset_le := le_refl _
        len_le := Nat.zero_le _
        inputLen_le := Nat.zero_le _
        dead := by simp [KsClient.free]
        dropped := by simp [KsClient.free]
        quiet := quiet_nil }

/-- Accepting a connection keeps the server in order. -/
theorem KsServer.Ok.accept (h : s.Ok) (fd : Nat) (heap : KsHeap) : (acceptClient s fd heap).Ok := by
  unfold acceptClient
  split
  · exact ⟨h.clients, h.closed, h.store, h.pubsub⟩
  · next slot hslot =>
    split
    · exact ⟨h.clients, h.closed, h.store, h.pubsub⟩
    · split
      · exact ⟨h.clients, h.closed, h.store, h.pubsub⟩
      · next c hc =>
        have htake : s.takeClientId.Ok := ⟨h.clients, h.closed, h.store, h.pubsub⟩
        have hset := htake.setClient (i := slot) (ok_clientInit hc)
        exact ⟨hset.clients, hset.closed, hset.store, hset.pubsub⟩

/-- So does the beginning of an iteration. -/
theorem KsServer.Ok.iterate (h : s.Ok) (now : UInt64) : (startIteration s now).Ok := by
  have hstore := h.store.reap ksReaperBudget now
  unfold startIteration
  generalize ksKvReap s.store ksReaperBudget now = r at hstore ⊢
  exact ⟨h.clients, h.closed, hstore, h.pubsub⟩

/-- **Every step keeps the server in order.** -/
theorem KsServerStep.ok (h : s.Ok) (hstep : KsServerStep s s') : s'.Ok := by
  cases hstep with
  | act hact => exact (acted_of_act h hact).ok
  | close i hused => exact h.close i
  | accept fd heap => exact h.accept fd heap
  | iterate now => exact h.iterate now
  | backoff ticks => exact ⟨h.clients, h.closed, h.store, h.pubsub⟩

/-- **The invariant holds in every state of the server.** -/
theorem KsServer.Reached.ok (h : s.Reached) : s.Ok := by
  induction h with
  | init listenFd startedAt => exact ok_ksServerInit listenFd startedAt
  | step _ hstep ih => exact hstep.ok ih

end

end Kessel
