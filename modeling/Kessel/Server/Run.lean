import Kessel.Server.Agreement
import Kessel.Server.Turn

/-!
# Kessel.Server.Run

Runs of the event loop.

`KsServer.Connected` is what holds between two steps of the loop: the state is a
state of the server, every connection is in order and every closed one had a
reason.  `KsLoopStep.inv` is the step, `Reachable.inv` the run.

* `shutdown_spec` — the end of `ks_server_run` resets every client;
* `Reachable.top`, `Reachable.stopped` — a state of the loop is a state of the
  server, or one that was shut down.
-/

namespace Kessel

open Relation (ReflTransGen)

variable {cfg : KsConfig} {s s' : KsServer cfg} {i : Fin cfg.maxClients}

/-! ## the invariant of the loop -/

/-- A history whose requests are a front of those of its stream, and that has
thrown no line away. -/
structure Served (history : List KsEvent) : Prop where
  requests : ∀ rest, (.eof ∈ history → rest = []) →
    requestsOf history <+: requestStream (receivedBytes history ++ rest)
  discarded : ∀ data, .discarded data ∈ history → 10 ∉ data

/-- Why a connection was closed: it was dropped, its socket failed, or its whole
stream has been served. -/
def Ended (history : List KsEvent) : Prop :=
  .dropped ∈ history ∨ .failed ∈ history ∨ Finished history

/-- What is framed has been served. -/
theorem KsClient.Framed.toServed {c : KsClient} (h : c.Framed) : Served c.history :=
  ⟨h.served, h.discarded⟩

/-- What holds of the connections between two steps of the loop. -/
structure KsServer.Connected (s : KsServer cfg) : Prop where
  reached : s.Reached
  flow : ∀ j, (s.clients j).Flow
  closed : ∀ history ∈ s.closed, Served history ∧ Ended history
  distinct : ∀ j k, (s.clients j).used = true → (s.clients k).used = true →
    (s.clients j).fd = (s.clients k).fd → j = k
  listen : ∀ j, (s.clients j).used = true → (s.clients j).fd ≠ s.listenFd

/-- The slots from `k` on are read from only while their input is open. -/
def KsServer.ReadsOpen (s : KsServer cfg) (k : Nat) (readFds : Nat → Bool) : Prop :=
  ∀ j : Fin cfg.maxClients, k ≤ j → (s.clients j).used = true →
    readFds (s.clients j).fd = true → (s.clients j).closeAfterWrite = false

/-- The invariant of the event loop. -/
def KsLoop.Inv (l : KsLoop cfg) : Prop :=
  match l.phase with
  | .top => l.server.Connected
  | .selected readFds _ => l.server.Connected ∧ l.server.ReadsOpen 0 readFds
  | .turns slot readFds _ => l.server.Connected ∧ l.server.ReadsOpen slot readFds
  | .stopped => ∃ s, s.Connected ∧ l.server = shutdown s

/-! ## the start of an iteration -/

/-- An iteration begins with the connections as they are. -/
theorem KsServer.Connected.startIteration (h : s.Connected) (now : UInt64) :
    (startIteration s now).Connected := by
  have hreached : (Kessel.startIteration s now).Reached := .step h.reached (.iterate s now)
  have hclients := clients_startIteration s now
  have hclosed := closed_startIteration s now
  have hlisten := listenFd_startIteration s now
  generalize Kessel.startIteration s now = s' at *
  exact
    { reached := hreached
      flow := by rw [hclients]; exact h.flow
      closed := by rw [hclosed]; exact h.closed
      distinct := by rw [hclients]; exact h.distinct
      listen := by rw [hclients, hlisten]; exact h.listen }

/-- `select` is asked to read only from connections whose input is open. -/
theorem KsServer.Connected.readsOpen (h : s.Connected) {readFds : Nat → Bool}
    (hread : ∀ fd, readFds fd = true → s.WatchedForReading fd) : s.ReadsOpen 0 readFds := by
  intro j _ hused hset
  rcases hread _ hset with ⟨-, hlisten⟩ | ⟨k, hk, -, hopen, -, hfd⟩
  · exact absurd hlisten (h.listen j hused)
  · rw [← h.distinct k j hk hused hfd]
    exact hopen

/-! ## accepting -/

/-- What is kept by every accepted descriptor that is not open yet is kept by
`accept_clients`. -/
theorem acceptClients_keeps {P : KsServer cfg → Prop}
    (hstep : ∀ s fd heap, P s → fd ≠ s.listenFd →
      (∀ j, (s.clients j).used = true → (s.clients j).fd ≠ fd) → P (acceptClient s fd heap))
    {accepts : List KsAccept} (h : P s) (hfresh : FreshFds s accepts) (budget : Nat) :
    P (acceptClients s budget accepts).1 := by
  induction budget generalizing s accepts with
  | zero => exact h
  | succ budget ih =>
    cases accepts with
    | nil => exact h
    | cons accept accepts =>
      cases accept with
      | wouldBlock => exact h
      | error => exact h
      | ok fd heap =>
        obtain ⟨⟨hlisten, hfds⟩, hfresh⟩ := hfresh
        exact ih (hstep s fd heap h hlisten hfds) hfresh

/-- A new connection is one of the connections. -/
theorem KsServer.Connected.admitClient (h : s.Connected) {slot : Fin cfg.maxClients} {fd : Nat}
    (hreached : (s.admitClient slot fd).Reached) (hlisten : fd ≠ s.listenFd)
    (hfds : ∀ j, (s.clients j).used = true → (s.clients j).fd ≠ fd) :
    (s.admitClient slot fd).Connected := by
  have hself : (s.admitClient slot fd).clients slot = newClient fd s.nextClientId := by
    simp [KsServer.admitClient, KsServer.setClient]
  have hother {j : Fin cfg.maxClients} (hj : j ≠ slot) :
      (s.admitClient slot fd).clients j = s.clients j := by
    simp [KsServer.admitClient, KsServer.setClient, KsServer.takeClientId, hj]
  have hfd : (newClient fd s.nextClientId).fd = fd := rfl
  exact
    { reached := hreached
      flow := by
        intro j
        by_cases hj : j = slot
        · rw [hj, hself]
          exact ⟨⟨flow_free.framed.reading, flow_free.framed.closing, flow_free.framed.discarded⟩,
            flow_free.drained, flow_free.room⟩
        · rw [hother hj]
          exact h.flow j
      closed := h.closed
      distinct := by
        intro j k hj hk heq
        by_cases hjs : j = slot <;> by_cases hks : k = slot
        · rw [hjs, hks]
        · rw [hjs, hself, hother hks] at heq
          rw [hother hks] at hk
          exact absurd heq.symm (hfds k hk)
        · rw [hks, hself, hother hjs] at heq
          rw [hother hjs] at hj
          exact absurd heq (hfds j hj)
        · rw [hother hjs, hother hks] at heq
          rw [hother hjs] at hj
          rw [hother hks] at hk
          exact h.distinct j k hj hk heq
      listen := by
        intro j hj
        by_cases hjs : j = slot
        · rw [hjs, hself, hfd]
          exact hlisten
        · rw [hother hjs] at hj ⊢
          exact h.listen j hj }

/-- A new connection is not read before it is watched. -/
theorem KsServer.ReadsOpen.admitClient {k : Nat} {readFds : Nat → Bool} (h : s.ReadsOpen k readFds)
    (slot : Fin cfg.maxClients) (fd : Nat) : (s.admitClient slot fd).ReadsOpen k readFds := by
  intro j hk hused hset
  by_cases hj : j = slot
  · rw [hj]
    simp [KsServer.admitClient, KsServer.setClient, newClient, KsClient.free]
  · have hother : (s.admitClient slot fd).clients j = s.clients j := by
      simp [KsServer.admitClient, KsServer.setClient, KsServer.takeClientId, hj]
    rw [hother] at hused hset ⊢
    exact h j hk hused hset

/-- A state that differs in nothing that the connections depend on. -/
theorem KsServer.Connected.of_eq (h : s.Connected) (hreached : s'.Reached)
    (hclients : s'.clients = s.clients) (hclosed : s'.closed = s.closed)
    (hlisten : s'.listenFd = s.listenFd) : s'.Connected where
  reached := hreached
  flow := by rw [hclients]; exact h.flow
  closed := by rw [hclosed]; exact h.closed
  distinct := by rw [hclients]; exact h.distinct
  listen := by rw [hclients, hlisten]; exact h.listen

/-- **Accepting keeps the connections apart.** -/
theorem KsServer.Connected.accept {k : Nat} {readFds : Nat → Bool} (h : s.Connected)
    (hreads : s.ReadsOpen k readFds) {fd : Nat} (heap : KsHeap) (hlisten : fd ≠ s.listenFd)
    (hfds : ∀ j, (s.clients j).used = true → (s.clients j).fd ≠ fd) :
    (acceptClient s fd heap).Connected ∧ (acceptClient s fd heap).ReadsOpen k readFds := by
  have hreached : (acceptClient s fd heap).Reached := .step h.reached (.accept s fd heap)
  rcases acceptClient_cases s fd heap with heq | heq | ⟨slot, -, -, heq⟩ <;>
    rw [heq] at hreached ⊢
  · exact ⟨h.of_eq hreached rfl rfl rfl, hreads⟩
  · exact ⟨h.of_eq hreached rfl rfl rfl, hreads⟩
  · exact ⟨h.admitClient hreached hlisten hfds, hreads.admitClient slot fd⟩

/-- So does the phase that accepts. -/
theorem KsServer.Connected.acceptPhase {k : Nat} {readFds : Nat → Bool} (h : s.Connected)
    (hreads : s.ReadsOpen k readFds) {accepts : List KsAccept} (hfresh : FreshFds s accepts) :
    (acceptPhase s readFds accepts).Connected ∧
      (acceptPhase s readFds accepts).ReadsOpen k readFds := by
  have hkeeps := acceptClients_keeps (P := fun s => s.Connected ∧ s.ReadsOpen k readFds)
    (fun s fd heap h hlisten hfds => h.1.accept h.2 heap hlisten hfds) ⟨h, hreads⟩ hfresh
    ksAcceptBudget
  unfold Kessel.acceptPhase
  split
  · generalize acceptClients s ksAcceptBudget accepts = r at *
    obtain ⟨s', result⟩ := r
    simp only at hkeeps ⊢
    split
    · exact ⟨hkeeps.1.of_eq (.step hkeeps.1.reached (.backoff s' 10)) rfl rfl rfl, hkeeps.2⟩
    · exact hkeeps
  · exact ⟨h, hreads⟩

/-! ## the turn of a slot -/

/-- A closed connection had a reason. -/
theorem KsServer.Connected.close (hreached : s.Reached) (hused : (s.clients i).used = true)
    (hframed : (s.clients i).Framed) (hreason : CloseReason (s.clients i))
    (hflow : ∀ j, j ≠ i → (s.clients j).Flow)
    (hclosed : ∀ history ∈ s.closed, Served history ∧ Ended history)
    (hdistinct : ∀ j k, (s.clients j).used = true → (s.clients k).used = true →
      (s.clients j).fd = (s.clients k).fd → j = k)
    (hlisten : ∀ j, (s.clients j).used = true → (s.clients j).fd ≠ s.listenFd) :
    (closeClient s i).Connected := by
  have hother {j : Fin cfg.maxClients} (hj : ((closeClient s i).clients j).used = true) :
      j ≠ i ∧ (s.clients j).used = true ∧ (closeClient s i).clients j = s.clients j := by
    have hne : j ≠ i := by
      rintro rfl
      simp [closeClient, KsServer.resetClient, KsClient.free] at hj
    rw [show (closeClient s i).clients j = s.clients j by
      simp [closeClient, KsServer.resetClient, hne]] at hj ⊢
    exact ⟨hne, hj, rfl⟩
  exact
    { reached := .step hreached (.close s i hused)
      flow := by
        intro j
        by_cases hj : j = i
        · rw [hj]
          simpa [closeClient, KsServer.resetClient] using flow_free
        · simpa [closeClient, KsServer.resetClient, hj] using hflow j hj
      closed := by
        intro history hmem
        rcases List.mem_append.mp hmem with hmem | hmem
        · exact hclosed history hmem
        · rw [List.mem_singleton.mp hmem]
          refine ⟨hframed.toServed, ?_⟩
          rcases hreason with hdrop | hfailed | hclosing
          · exact .inl (((hreached.ok).clients i).dropped.mpr hdrop)
          · exact .inr (.inl hfailed)
          · exact .inr (.inr (hframed.closing hclosing).2)
      distinct := by
        intro j k hj hk
        obtain ⟨-, hj, heqj⟩ := hother hj
        obtain ⟨-, hk, heqk⟩ := hother hk
        rw [heqj, heqk]
        exact hdistinct j k hj hk
      listen := by
        intro j hj
        obtain ⟨-, hj, heqj⟩ := hother hj
        rw [heqj]
        exact hlisten j hj }

/-- **The turn of a slot** keeps the connections in order. -/
theorem KsServer.Connected.turn (h : s.Connected) {readFds : Nat → Bool} (hreads : s.ReadsOpen i readFds)
    (writeFds : Nat → Bool) (t : KsTurn) :
    (clientTurn s i readFds writeFds t).Connected ∧
      (clientTurn s i readFds writeFds t).ReadsOpen (i + 1) readFds := by
  by_cases hused : (s.clients i).used = true
  · obtain ⟨s₁, hacts, hframed, houtcome, -⟩ :=
      clientTurn_spec h.reached.ok hused (hreads i (le_refl _) hused) writeFds t
    have hacted := acted_of_acts h.reached.ok hacts
    have hreached := h.reached.acts hacts
    have hflow (j : Fin cfg.maxClients) (hj : j ≠ i) : (s₁.clients j).Flow :=
      (hacted.others j hj).flow (h.flow j)
    have hclosed : ∀ history ∈ s₁.closed, Served history ∧ Ended history := by
      rw [hacted.closed]
      exact h.closed
    have hdistinct (j k : Fin cfg.maxClients) (hj : (s₁.clients j).used = true)
        (hk : (s₁.clients k).used = true) (heq : (s₁.clients j).fd = (s₁.clients k).fd) : j = k := by
      obtain ⟨hj', hfdj, -⟩ := hacted.slots j
      obtain ⟨hk', hfdk, -⟩ := hacted.slots k
      exact h.distinct j k (hj' ▸ hj) (hk' ▸ hk) (by rw [← hfdj, ← hfdk, heq])
    have hlisten (j : Fin cfg.maxClients) (hj : (s₁.clients j).used = true) :
        (s₁.clients j).fd ≠ s₁.listenFd := by
      obtain ⟨hj', hfdj, -⟩ := hacted.slots j
      rw [hfdj, hacted.listenFd]
      exact h.listen j (hj' ▸ hj)
    have hreads₁ (j : Fin cfg.maxClients) (hj : i.val + 1 ≤ j) (hused' : (s₁.clients j).used = true)
        (hset : readFds (s₁.clients j).fd = true) : (s₁.clients j).closeAfterWrite = false := by
      have hoffered := hacted.others j (by rintro rfl; omega)
      rw [hoffered.closeAfterWrite]
      rw [hoffered.fd] at hset
      rw [hoffered.used] at hused'
      exact hreads j (by omega) hused' hset
    rcases houtcome with ⟨heq, hreason⟩ | ⟨heq, hflow'⟩
    · rw [heq]
      refine ⟨.close hreached (hacted.used.trans hused) (hframed (h.flow i)) hreason hflow hclosed
        hdistinct hlisten, ?_⟩
      intro j hj
      have hother : (closeClient s₁ i).clients j = s₁.clients j := by
        have hne : j ≠ i := by rintro rfl; omega
        simp [closeClient, KsServer.resetClient, hne]
      rw [hother]
      exact hreads₁ j hj
    · rw [heq]
      refine ⟨⟨hreached, fun j => ?_, hclosed, hdistinct, hlisten⟩, hreads₁⟩
      by_cases hj : j = i
      · rw [hj]
        exact hflow' (h.flow i)
      · exact hflow j hj
  · have hsame : clientTurn s i readFds writeFds t = s := by
      unfold clientTurn
      exact if_pos hused
    rw [hsame]
    exact ⟨h, fun j hj => hreads j (by omega)⟩

/-! ## the end of the loop -/

/-- One slot at the end of `ks_server_run`. -/
def shutdownSlot (s : KsServer cfg) (i : Fin cfg.maxClients) : KsServer cfg :=
  if (s.clients i).used then
    KsServer.resetClient { s with pubsub := (ksPubsubRemoveClient s.pubsub (s.clients i).id).1 } i
  else s

/-- What the reset of the slots of a list leaves. -/
structure ShutDown (slots : List (Fin cfg.maxClients)) (s s' : KsServer cfg) : Prop where
  ok : s'.Ok
  reset : ∀ j ∈ slots, (s.clients j).used = true →
    s'.clients j = KsClient.free ∧ (s.clients j).history ∈ s'.closed
  rest : ∀ j, j ∉ slots ∨ (s.clients j).used = false → s'.clients j = s.clients j
  closed : ∀ history ∈ s'.closed, history ∈ s.closed ∨
    ∃ j, (s.clients j).used = true ∧ history = (s.clients j).history
  subset : s.closed ⊆ s'.closed
  subscribers : ∀ channel x, x ∈ s'.pubsub.subscribersOf channel →
    x ∈ s.pubsub.subscribersOf channel ∧ ∀ j ∈ slots, (s.clients j).used = true → (s.clients j).id ≠ x
  accepted : s'.accepted = s.accepted

/-- Nothing is shut down. -/
theorem shutDown_nil (h : s.Ok) : ShutDown [] s s where
  ok := h
  reset := by simp
  rest := fun _ _ => rfl
  closed := fun _ => .inl
  subset := fun _ hmem => hmem
  subscribers := fun _ _ hx => ⟨hx, by simp⟩
  accepted := rfl

/-- The shutdown of a slot keeps the server in order. -/
theorem KsServer.Ok.shutdownSlot (h : s.Ok) (i : Fin cfg.maxClients) : (shutdownSlot s i).Ok := by
  unfold Kessel.shutdownSlot
  split
  · have hclose := h.close i
    exact ⟨hclose.clients, hclose.closed, hclose.store, hclose.pubsub⟩
  · exact h

/-- One more slot, in front of the others, that is in use. -/
theorem ShutDown.cons_used {slots : List (Fin cfg.maxClients)} (h : s.Ok)
    (hused : (s.clients i).used = true) (hrest : ShutDown slots (shutdownSlot s i) s') :
    ShutDown (i :: slots) s s' := by
  have hslot : shutdownSlot s i = KsServer.resetClient
      { s with pubsub := (ksPubsubRemoveClient s.pubsub (s.clients i).id).1 } i := if_pos hused
  have hself : ((shutdownSlot s i).clients i) = KsClient.free := by
    simp [hslot, KsServer.resetClient]
  have hother {j : Fin cfg.maxClients} (hj : j ≠ i) : (shutdownSlot s i).clients j = s.clients j := by
    simp [hslot, KsServer.resetClient, hj]
  have hclosed : (shutdownSlot s i).closed = s.closed ++ [(s.clients i).history] := by
    rw [hslot]
    rfl
  have hfree : s'.clients i = KsClient.free := by
    rw [hrest.rest i (.inr (by rw [hself]; rfl)), hself]
  refine ⟨hrest.ok, fun j hj hjused => ?_, fun j hj => ?_, fun history hmem => ?_, ?_, ?_, ?_⟩
  · by_cases hji : j = i
    · subst hji
      exact ⟨hfree, hrest.subset (by rw [hclosed]; simp)⟩
    · have hmem : j ∈ slots := (List.mem_cons.mp hj).resolve_left hji
      have hreset := hrest.reset j hmem (by rw [hother hji]; exact hjused)
      rwa [hother hji] at hreset
  · have hji : j ≠ i := by
      rintro rfl
      rcases hj with hj | hj
      · simp at hj
      · rw [hused] at hj
        cases hj
    rw [← hother hji]
    refine hrest.rest j (hj.imp (fun hj => ?_) fun hj => by rw [hother hji]; exact hj)
    exact fun hmem => hj (List.mem_cons_of_mem _ hmem)
  · rcases hrest.closed history hmem with hmem | ⟨j, hjused, heq⟩
    · rw [hclosed, List.mem_append, List.mem_singleton] at hmem
      exact hmem.imp_right fun heq => ⟨i, hused, heq⟩
    · by_cases hji : j = i
      · rw [hji, hself] at hjused
        cases hjused
      · rw [hother hji] at heq hjused
        exact .inr ⟨j, hjused, heq⟩
  · intro history hmem
    exact hrest.subset (by rw [hclosed]; exact List.mem_append_left _ hmem)
  · intro channel x hx
    obtain ⟨hmem, hids⟩ := hrest.subscribers channel x hx
    have herase := (KsPubsub.subscribersOf_removeClient h.pubsub (s.clients i).id).2 channel
    rw [show (shutdownSlot s i).pubsub = (ksPubsubRemoveClient s.pubsub (s.clients i).id).1 by
      rw [hslot]; rfl, herase, (h.pubsub.nodup_subscribersOf channel).mem_erase_iff] at hmem
    refine ⟨hmem.2, fun j hj hjused => ?_⟩
    by_cases hji : j = i
    · rw [hji]
      exact hmem.1.symm
    · rw [← hother hji] at hjused ⊢
      exact hids j ((List.mem_cons.mp hj).resolve_left hji) hjused
  · rw [hrest.accepted, hslot]
    rfl

/-- One more slot that is free. -/
theorem ShutDown.cons_free {slots : List (Fin cfg.maxClients)} (hused : ¬ (s.clients i).used = true)
    (hrest : ShutDown slots (shutdownSlot s i) s') : ShutDown (i :: slots) s s' := by
  have hslot : shutdownSlot s i = s := if_neg hused
  rw [hslot] at hrest
  refine ⟨hrest.ok, fun j hj hjused => ?_, fun j hj => ?_, hrest.closed, hrest.subset,
    fun channel x hx => ⟨(hrest.subscribers channel x hx).1, fun j hj hjused => ?_⟩, hrest.accepted⟩
  · rcases List.mem_cons.mp hj with rfl | hj
    · exact absurd hjused hused
    · exact hrest.reset j hj hjused
  · refine hrest.rest j (hj.imp_left fun hj hmem => hj (List.mem_cons_of_mem _ hmem))
  · rcases List.mem_cons.mp hj with rfl | hj
    · exact absurd hjused hused
    · exact (hrest.subscribers channel x hx).2 j hj hjused

/-- One slot, and then the rest. -/
theorem ShutDown.cons {slots : List (Fin cfg.maxClients)} (h : s.Ok)
    (hrest : ShutDown slots (shutdownSlot s i) s') : ShutDown (i :: slots) s s' := by
  by_cases hused : (s.clients i).used = true
  · exact hrest.cons_used h hused
  · exact hrest.cons_free hused

/-- **The slots are shut down one after the other.** -/
theorem shutDown_foldl (slots : List (Fin cfg.maxClients)) (h : s.Ok) :
    ShutDown slots s (slots.foldl shutdownSlot s) := by
  induction slots generalizing s with
  | nil => exact shutDown_nil h
  | cons i slots ih => exact .cons h (ih (h.shutdownSlot i))

/-- **The end of `ks_server_run`** resets every client. -/
theorem shutdown_spec (h : s.Ok) : ShutDown (List.finRange cfg.maxClients) s (shutdown s) :=
  shutDown_foldl _ h

/-! ## every step keeps the invariant -/

/-- At first there is no connection. -/
theorem connected_ksServerInit (listenFd : Nat) (startedAt : Int64) :
    (ksServerInit cfg listenFd startedAt).Connected where
  reached := .init listenFd startedAt
  flow := fun _ => flow_free
  closed := by simp [ksServerInit]
  distinct := by simp [ksServerInit, KsClient.free]
  listen := by simp [ksServerInit, KsClient.free]

/-- **Every phase of an iteration keeps the invariant of the loop.** -/
theorem KsLoopStep.inv {l l' : KsLoop cfg} (h : l.Inv) (hstep : KsLoopStep l l') : l'.Inv := by
  cases hstep with
  | interrupted s now => exact KsServer.Connected.startIteration h now
  | select s now readFds writeFds hread hwrite =>
    refine ⟨KsServer.Connected.startIteration h now, ?_⟩
    simp only [KsServer.ReadsOpen, clients_startIteration]
    exact KsServer.Connected.readsOpen h hread
  | accept s readFds writeFds accepts hfresh => exact h.1.acceptPhase h.2 hfresh
  | turn s i readFds writeFds t => exact h.1.turn h.2 writeFds t
  | next s readFds writeFds => exact h.1
  | stop s => exact ⟨s, h, rfl⟩
  | fail s now => exact ⟨startIteration s now, KsServer.Connected.startIteration h now, rfl⟩

/-- **The invariant holds in every state of the event loop.** -/
theorem KsLoop.Reachable.inv {l : KsLoop cfg} (h : l.Reachable) : l.Inv := by
  induction h with
  | init listenFd startedAt => exact connected_ksServerInit listenFd startedAt
  | step _ hstep ih => exact hstep.inv ih

/-- Until the loop is left, all connections are in order. -/
theorem KsLoop.Reachable.connected {l : KsLoop cfg} (h : l.Reachable) (hrun : l.phase ≠ .stopped) :
    l.server.Connected := by
  have hinv := h.inv
  obtain ⟨s, phase⟩ := l
  cases phase with
  | top => exact hinv
  | selected readFds writeFds => exact hinv.1
  | turns slot readFds writeFds => exact hinv.1
  | stopped => exact absurd rfl hrun

/-- Between two iterations the state is a state of the server. -/
theorem KsLoop.Reachable.top (h : KsLoop.Reachable ⟨s, .top⟩) : s.Reached :=
  (h.connected (by simp)).reached

/-- The loop ends with a shutdown. -/
theorem KsLoop.Reachable.stopped {l : KsLoop cfg} (h : l.Reachable) (hstop : l.phase = .stopped) :
    ∃ s : KsServer cfg, s.Connected ∧ l.server = shutdown s := by
  have hinv := h.inv
  obtain ⟨s, phase⟩ := l
  obtain rfl : phase = .stopped := hstop
  exact hinv

end Kessel
