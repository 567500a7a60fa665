import Kessel.Server.Step

/-!
# Kessel.Server.Answers

What a connection is answered when a request is not dispatched.

`Answered history`: behind each such request stands its error frame, with
nothing in between.  `Reached.answered` has it for every history of every state
of the server.
-/

namespace Kessel

variable {cfg : KsConfig} {s s' : KsServer cfg} {i : Fin cfg.maxClients}

/-- The histories of the connections, open and closed. -/
def KsServer.History (s : KsServer cfg) (history : List KsEvent) : Prop :=
  (∃ i, (s.clients i).history = history) ∨ history ∈ s.closed

/-- The frame that a request is answered with when it is not dispatched. -/
def KsRequest.refusal : KsRequest → Option (List UInt8)
  | .command _ => none
  | request => some (errorFrame request.message)

/-- Every request that is not dispatched is answered at once. -/
def Answered : List KsEvent → Prop
  | [] => True
  | .request request :: rest =>
    (∀ frame, request.refusal = some frame → rest.head? = some (.queued frame)) ∧ Answered rest
  | _ :: rest => Answered rest

/-- Nothing needs an answer at first. -/
theorem answered_nil : Answered [] := trivial

/-- Histories that are answered are answered one behind the other. -/
theorem Answered.append {a b : List KsEvent} (ha : Answered a) (hb : Answered b) : Answered (a ++ b) := by
  induction a with
  | nil => exact hb
  | cons e a ih =>
    cases e with
    | request request =>
      obtain ⟨hanswer, hrest⟩ := ha
      refine ⟨fun frame hframe => ?_, ih hrest⟩
      have hhead := hanswer frame hframe
      cases a with
      | nil => cases hhead
      | cons e a => exact hhead
    | _ => exact ih ha

/-- Events without a request need no answer. -/
theorem answered_of_forall {events : List KsEvent}
    (h : ∀ e ∈ events, ∀ request, e ≠ .request request) : Answered events := by
  induction events with
  | nil => exact trivial
  | cons e events ih =>
    obtain ⟨hhead, htail⟩ := List.forall_mem_cons.mp h
    cases e with
    | request request => exact absurd rfl (hhead request)
    | _ => exact ih htail

/-- What is no request and no reply needs no answer. -/
theorem answered_of_inactive {events : List KsEvent} (h : ∀ e ∈ events, e.active = false) :
    Answered events := by
  refine answered_of_forall ?_
  rintro e he request rfl
  cases h _ he

/-- A command and what it queues. -/
theorem answered_command (line : List UInt8) {events : List KsEvent}
    (h : ∀ e ∈ events, ∃ data, e = .queued data) : Answered (.request (.command line) :: events) := by
  refine ⟨fun frame hframe => (by cases hframe), answered_of_forall ?_⟩
  rintro e he request rfl
  obtain ⟨data, heq⟩ := h _ he
  cases heq

/-- A request that is not dispatched, and its error frame. -/
theorem answered_refusal (request : KsRequest) :
    Answered [.request request, .queued (errorFrame request.message)] := by
  refine ⟨fun frame hframe => ?_, trivial⟩
  cases request <;> cases hframe <;> rfl

/-- A message between a request and its reply is no answer. -/
theorem KsClient.Offered.answered {c c' : KsClient} (h : c.Offered c') (ha : Answered c.history) :
    Answered c'.history := by
  obtain ⟨events, hhist, hevents⟩ := h.history
  rw [hhist]
  refine ha.append (answered_of_forall ?_)
  rintro e he request rfl
  rcases hevents _ he with ⟨data, heq⟩ | heq <;> cases heq

/-- Every act of a slot answers what it takes up. -/
theorem KsAct.answered (h : s.Ok) (hact : KsAct i s s') (ha : ∀ j, Answered (s.clients j).history)
    (j : Fin cfg.maxClients) : Answered (s'.clients j).history := by
  by_cases hj : j = i
  · subst hj
    cases hact with
    | command line env hused hp =>
      obtain ⟨events, hhist, hevents⟩ := (handleCommand_spec h hp line env).history
      rw [hhist]
      exact (ha j).append (answered_command _ hevents)
    | answer request message hused hp hm =>
      obtain ⟨c, hqueue, -, hqueued⟩ := answer_spec (h.clients j) hp hm
      have hhist := hqueued.history
      rw [KsClient.log_history, List.append_assoc, hm] at hhist
      rw [hqueue, setClient_clients, Function.update_self, hhist]
      exact (ha j).append (answered_refusal request)
    | write sends hused hd =>
      obtain ⟨-, -, events, hhist, hevents, -⟩ := writeClient_spec (h.clients j).toQueueOk sends
      rw [setClient_clients, Function.update_self, hhist]
      refine (ha j).append (answered_of_forall ?_)
      rintro e he request rfl
      rcases hevents _ he with ⟨data, heq⟩ | heq <;> cases heq
    | passive c hused hp =>
      obtain ⟨events, hhist, hevents⟩ := hp.history
      rw [setClient_clients, Function.update_self, hhist]
      exact (ha j).append (answered_of_inactive fun e he => (hevents e he).1)
  · exact ((acted_of_act h hact).others j hj).answered (ha j)

/-- **Every step answers what it asks.** -/
theorem KsServerStep.answered (h : s.Ok) (hstep : KsServerStep s s')
    (ha : ∀ history, s.History history → Answered history) {history : List KsEvent}
    (hmem : s'.History history) : Answered history := by
  have hslot (j : Fin cfg.maxClients) : Answered (s.clients j).history := ha _ (.inl ⟨j, rfl⟩)
  cases hstep with
  | act hact =>
    rcases hmem with ⟨j, rfl⟩ | hmem
    · exact hact.answered h hslot j
    · rw [(acted_of_act h hact).closed] at hmem
      exact ha _ (.inr hmem)
  | close i hused =>
    rcases hmem with ⟨j, rfl⟩ | hmem
    · by_cases hj : j = i
      · rw [hj]
        simpa [closeClient, KsServer.resetClient, KsClient.free] using answered_nil
      · simpa [closeClient, KsServer.resetClient, hj] using hslot j
    · rcases List.mem_append.mp hmem with hmem | hmem
      · exact ha _ (.inr hmem)
      · rw [List.mem_singleton.mp hmem]
        exact hslot i
  | accept fd heap =>
    rcases acceptClient_cases s fd heap with heq | heq | ⟨slot, -, -, heq⟩ <;> rw [heq] at hmem
    · exact ha _ hmem
    · exact ha _ hmem
    · rcases hmem with ⟨j, rfl⟩ | hmem
      · by_cases hj : j = slot
        · rw [hj]
          simpa [KsServer.admitClient, KsServer.setClient, newClient, KsClient.free] using answered_nil
        · simpa [KsServer.admitClient, KsServer.setClient, KsServer.takeClientId, hj] using hslot j
      · exact ha _ (.inr hmem)
  | iterate now =>
    rw [KsServer.History, clients_startIteration, closed_startIteration] at hmem
    exact ha _ hmem
  | backoff ticks => exact ha _ hmem

/-- **Every request that is not dispatched is answered at once**, on every
connection there is or was. -/
theorem KsServer.Reached.answered (h : s.Reached) {history : List KsEvent}
    (hmem : s.History history) : Answered history := by
  induction h generalizing history with
  | init listenFd startedAt =>
    rcases hmem with ⟨j, rfl⟩ | hmem
    · exact answered_nil
    · cases hmem
  | step hreached hstep ih => exact hstep.answered hreached.ok (fun _ hmem => ih hmem) hmem

end Kessel
