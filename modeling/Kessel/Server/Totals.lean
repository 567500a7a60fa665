import Kessel.Server.Answers

/-!
# Kessel.Server.Totals

The bytes of the connections, added up.

`KsClient.Grows` is what a step may do to a connection: whatever is queued ends
up behind what is pending, and whatever is sent comes from its front.  It also
says how many commands the step dispatches, which `INFO` counts.

* `KsAct.progress` — an act makes its own connection grow, and the others by
  what is queued for them;
* `Reached.conserved` — what was sent and what is pending is what was queued.
-/

namespace Kessel

variable {cfg : KsConfig} {s s' : KsServer cfg} {i : Fin cfg.maxClients}

/-! ## sums over a history -/

/-- The bytes that entered the output queue. -/
def queuedBytes (history : List KsEvent) : List UInt8 :=
  history.flatMap fun
    | .queued data => data
    | _ => []

/-- Is it a command that has been dispatched? -/
def KsEvent.isCommand : KsEvent → Bool
  | .request (.command _) => true
  | _ => false

/-- What was queued in two stretches. -/
theorem queuedBytes_append (h h' : List KsEvent) :
    queuedBytes (h ++ h') = queuedBytes h ++ queuedBytes h' :=
  List.flatMap_append ..

/-- Nothing was sent. -/
theorem sentBytes_eq_nil {history : List KsEvent} (h : ∀ e ∈ history, ∀ data, e ≠ .sent data) :
    sentBytes history = [] := by
  refine List.flatMap_eq_nil_iff.mpr fun e he => ?_
  cases e with
  | sent data => exact absurd rfl (h _ he data)
  | _ => rfl

/-- Nothing was queued. -/
theorem queuedBytes_eq_nil {history : List KsEvent} (h : ∀ e ∈ history, ∀ data, e ≠ .queued data) :
    queuedBytes history = [] := by
  refine List.flatMap_eq_nil_iff.mpr fun e he => ?_
  cases e with
  | queued data => exact absurd rfl (h _ he data)
  | _ => rfl

/-! ## one connection -/

/-- The connection goes on, with `n` more commands. -/
def KsClient.Grows (n : Nat) (c c' : KsClient) : Prop :=
  ∃ events, c'.history = c.history ++ events ∧
    sentBytes events ++ c'.pending = c.pending ++ queuedBytes events ∧
    events.countP KsEvent.isCommand = n

namespace KsClient.Grows

variable {c c' c'' : KsClient} {n : Nat}

theorem refl (c : KsClient) : c.Grows 0 c := ⟨[], by simp, by simp [sentBytes, queuedBytes], rfl⟩

/-- A frame is queued behind what is pending. -/
theorem queued {data : List UInt8} (hpending : c'.pending = c.pending ++ data)
    (hhistory : c'.history = c.history ++ [.queued data]) : c.Grows 0 c' :=
  ⟨_, hhistory, by simp [hpending, sentBytes, queuedBytes], rfl⟩

theorem trans {m : Nat} (h : c.Grows n c') (h' : c'.Grows m c'') : c.Grows (n + m) c'' := by
  obtain ⟨events, hhist, hbytes, rfl⟩ := h
  obtain ⟨events', hhist', hbytes', rfl⟩ := h'
  refine ⟨events ++ events', by rw [hhist', hhist, List.append_assoc], ?_, List.countP_append⟩
  rw [sentBytes_append, queuedBytes_append, List.append_assoc, hbytes', ← List.append_assoc, hbytes,
    List.append_assoc]

/-- A request is taken up. -/
theorem log {request : KsRequest} :
    c.Grows (if (KsEvent.request request).isCommand then 1 else 0) (c.log (.request request)) :=
  ⟨[.request request], rfl, by simp [sentBytes, queuedBytes], by simp [List.countP_cons]⟩

/-- A passive change queues nothing. -/
theorem passive (h : c.Passive c') (hpending : c'.pending = c.pending) : c.Grows 0 c' := by
  obtain ⟨events, hhist, hevents⟩ := h.history
  have hnot (e : KsEvent) (he : e ∈ events) : e.active = false := (hevents e he).1
  refine ⟨events, hhist, ?_, List.countP_eq_zero.mpr fun e he => ?_⟩
  · rw [sentBytes_eq_nil, queuedBytes_eq_nil, hpending, List.nil_append, List.append_nil]
    all_goals
      rintro e he data rfl
      cases hnot _ he
  · have := hnot e he
    cases e <;> simp_all [KsEvent.active, KsEvent.isCommand]

/-- What is written was pending. -/
theorem write (h : c.QueueOk) (sends : List KsSend) : c.Grows 0 (writeClient c sends).1 := by
  obtain ⟨-, -, events, hhist, hevents, hbytes⟩ := writeClient_spec h sends
  refine ⟨events, hhist, ?_, List.countP_eq_zero.mpr fun e he => ?_⟩
  · rw [hbytes, queuedBytes_eq_nil, List.append_nil]
    rintro e he data rfl
    rcases hevents _ he with ⟨data, heq⟩ | heq <;> cases heq
  · rcases hevents e he with ⟨data, rfl⟩ | rfl <;> simp [KsEvent.isCommand]

/-- An offer queues a frame, or nothing. -/
theorem offer (h : c.QueueOk) (f : List UInt8) : c.Grows 0 (c.offer f) := by
  rcases c.offer_cases f with hd | htakes | ⟨hd, hfull⟩
  · rw [c.offer_dead hd]
    exact refl c
  · obtain ⟨-, -, hpending, hhist⟩ := c.offer_takes h htakes
    exact queued hpending hhist
  · obtain ⟨-, -, -, hpending, hhist⟩ := c.offer_full h hd hfull
    exact ⟨_, hhist, by simp [hpending, sentBytes, queuedBytes], rfl⟩

end KsClient.Grows

/-! ## the acts of a slot -/

/-- What an act with `n` commands does to the connections. -/
structure Progress (i : Fin cfg.maxClients) (n : Nat) (s s' : KsServer cfg) : Prop where
  self : (s.clients i).Grows n (s'.clients i)
  others : ∀ j, j ≠ i → (s.clients j).Grows 0 (s'.clients j)
  unused : ∀ j, (s.clients j).used = false → s'.clients j = s.clients j

/-- A slot in use is not an unused one. -/
theorem ne_of_unused (hused : (s.clients i).used = true) {j : Fin cfg.maxClients}
    (hj : (s.clients j).used = false) : j ≠ i := by
  rintro rfl
  rw [hused] at hj
  cases hj

/-- A change of the client of the slot alone. -/
theorem progress_setClient {c : KsClient} {n : Nat} (hused : (s.clients i).used = true)
    (h : (s.clients i).Grows n c) : Progress i n s (s.setClient i c) where
  self := by simpa using h
  others := fun j hj => by simpa [hj] using KsClient.Grows.refl (s.clients j)
  unused := fun j hj => by simp [ne_of_unused hused hj]

/-- **A command** is one command of its own connection, and queues for the others. -/
theorem Handled.progress {line : Nat} {ids : List UInt64} {f : List UInt8} {r : KsServer cfg × Int}
    (h : Handled s i line ids f r) (hok : s.Ok) (hused : (s.clients i).used = true) :
    Progress i 1 s r.1 where
  self := by
    obtain ⟨frame, -, hpending, hhist⟩ := h.reply
    refine ⟨.request (.command (requestText (s.clients i).input line)) ::
      ((if foundFor s.clients ids i then [.queued f] else []) ++ [.queued frame]), ?_, ?_, ?_⟩
    · rw [hhist]
      simp [KsClient.parse]
    · rw [hpending]
      split <;> simp [sentBytes, queuedBytes]
    · split <;> rfl
  others := by
    intro j hj
    rw [h.others j hj, offerAll]
    split
    · exact .offer (hok.clients j).toQueueOk f
    · exact .refl _
  unused := by
    intro j hj
    rw [h.others j (ne_of_unused hused hj), offerAll, if_neg]
    rintro ⟨-, hslot⟩
    rw [(slotOf_eq_some hslot).1] at hj
    cases hj

/-- A request that is not dispatched, and its answer. -/
theorem progress_answer (h : s.Ok) (hused : (s.clients i).used = true)
    (hp : (s.clients i).pendingLen < ksOutputHighWater) {request : KsRequest} {message : List UInt8}
    (hm : message = request.message) :
    Progress i (if (KsEvent.request request).isCommand then 1 else 0) s
      (s.setClient i (queueError ((s.clients i).log (.request request)) message).1) := by
  obtain ⟨c, hqueue, -, hqueued⟩ := answer_spec (h.clients i) hp hm
  rw [hqueue]
  refine progress_setClient hused ?_
  have hgrows := KsClient.Grows.log.trans (.queued hqueued.pending hqueued.history)
  exact hgrows

/-- A passive change dispatches no command. -/
theorem progress_passive {c : KsClient} (hused : (s.clients i).used = true)
    (h : (s.clients i).Passive c) : Progress i 0 s (s.setClient i c) := by
  refine progress_setClient hused (.passive h ?_)
  rw [KsClient.pending, KsClient.pending, KsClient.pendingLen, KsClient.pendingLen, h.output,
    h.outputOffset, h.outputLen]

/-- **An act** queues behind what is pending and sends from its front. -/
theorem KsAct.progress (h : s.Ok) (hact : KsAct i s s') : ∃ n, Progress i n s s' := by
  cases hact with
  | command line env hused hp => exact ⟨1, (handleCommand_spec h hp line env).progress h hused⟩
  | answer request message hused hp hm => exact ⟨_, progress_answer h hused hp hm⟩
  | write sends hused hd =>
    exact ⟨0, progress_setClient hused (.write (h.clients i).toQueueOk sends)⟩
  | passive c hused hp => exact ⟨0, progress_passive hused hp⟩

/-! ## the bytes of the connections -/

/-- What was sent and what is pending is what was queued. -/
def KsClient.Conserved (c : KsClient) : Prop :=
  sentBytes c.history ++ c.pending = queuedBytes c.history

/-- A new client has queued nothing. -/
theorem conserved_new {c : KsClient} (hhist : c.history = []) (hlen : c.outputLen = 0) :
    c.Conserved := by
  simp [KsClient.Conserved, KsClient.pending, KsClient.pendingLen, hhist, hlen, sentBytes,
    queuedBytes, Mem.read]

/-- What is queued is sent or pending. -/
theorem KsClient.Grows.conserved {c c' : KsClient} {n : Nat} (h : c.Grows n c')
    (hc : c.Conserved) : c'.Conserved := by
  obtain ⟨events, hhist, hbytes, -⟩ := h
  rw [Conserved, hhist, sentBytes_append, queuedBytes_append, List.append_assoc, hbytes,
    ← List.append_assoc, hc]

/-- Progress keeps the bytes. -/
theorem Progress.conserved {n : Nat} (h : Progress i n s s')
    (hs : ∀ j, (s.clients j).Conserved) (j : Fin cfg.maxClients) : (s'.clients j).Conserved := by
  by_cases hj : j = i
  · subst hj
    exact h.self.conserved (hs j)
  · exact (h.others j hj).conserved (hs j)

/-- Every connection has been sent a front of what was queued for it. -/
structure KsServer.Conserved (s : KsServer cfg) : Prop where
  clients : ∀ j, (s.clients j).Conserved
  closed : ∀ history ∈ s.closed, sentBytes history <+: queuedBytes history

/-- **Every step keeps the bytes.** -/
theorem KsServerStep.conserved (hok : s.Ok) (h : s.Conserved) (hstep : KsServerStep s s') :
    s'.Conserved := by
  cases hstep with
  | act hact =>
    obtain ⟨n, hprogress⟩ := hact.progress hok
    exact ⟨hprogress.conserved h.clients, (acted_of_act hok hact).closed ▸ h.closed⟩
  | close i hused =>
    refine ⟨fun j => ?_, fun history hmem => ?_⟩
    · by_cases hj : j = i
      · simpa [closeClient, KsServer.resetClient, hj] using conserved_new rfl rfl
      · simpa [closeClient, KsServer.resetClient, hj] using h.clients j
    · rcases List.mem_append.mp hmem with hmem | hmem
      · exact h.closed history hmem
      · rw [List.mem_singleton.mp hmem]
        exact ⟨_, h.clients i⟩
  | accept fd heap =>
    rcases acceptClient_cases s fd heap with heq | heq | ⟨slot, -, -, heq⟩ <;> rw [heq]
    · exact ⟨h.clients, h.closed⟩
    · exact ⟨h.clients, h.closed⟩
    · refine ⟨fun j => ?_, h.closed⟩
      by_cases hj : j = slot
      · simpa [KsServer.admitClient, KsServer.setClient, hj] using conserved_new rfl rfl
      · simpa [KsServer.admitClient, KsServer.setClient, KsServer.takeClientId, hj] using h.clients j
  | iterate now =>
    refine ⟨?_, ?_⟩
    · rw [clients_startIteration]
      exact h.clients
    · rw [closed_startIteration]
      exact h.closed
  | backoff ticks => exact ⟨h.clients, h.closed⟩

/-- **No byte is lost, doubled or out of order** on any connection. -/
theorem KsServer.Reached.conserved (h : s.Reached) : s.Conserved := by
  induction h with
  | init listenFd startedAt => exact ⟨fun j => conserved_new rfl rfl, by simp [ksServerInit]⟩
  | step hreached hstep ih => exact hstep.conserved hreached.ok ih

end Kessel
