import Kessel.Server.Shown
import Kessel.Server.Timed

/-!
# Kessel.Server.Simulate

The event loop does what the broker does.

A phase of an iteration is a number of steps of the broker: one for each request
that is served, each connection that is admitted and each that is closed, and
none for what nobody sees.

* `KsTimedMove.simulated`, `KsTimedMoves.simulated` — a move of the server, and a
  number of them;
* `ReachedAt.shows`, `ReachableAt.shows` — a run, move by move and iteration by
  iteration.
-/

namespace Kessel

open Broker CStr TimedMap
open Relation (ReflTransGen)

variable {cfg : KsConfig} {i : Fin cfg.maxClients} {s s' : KsServer cfg} {b : KsBroker}
  {t t' : UInt64} {refused : Nat → Prop}

/-- The broker goes on to a state that the server shows. -/
def Simulated (refused : Nat → Prop) (b : KsBroker) (t : UInt64) (s : KsServer cfg) : Prop :=
  ∃ events b', Steps ksScale (ksShort refused) ksProtocol b events b' ∧ ServerShows t s b'

/-- The broker does nothing. -/
theorem ServerShows.simulated (h : ServerShows t s b) : Simulated refused b t s :=
  ⟨[], b, .refl b, h⟩

/-- The broker goes on twice. -/
theorem Simulated.trans (h : Simulated refused b t s)
    (h' : ∀ b', ServerShows t s b' → Simulated refused b' t' s') : Simulated refused b t' s' := by
  obtain ⟨events, b₁, hsteps, hshows⟩ := h
  obtain ⟨events', b₂, hsteps', hshows'⟩ := h' b₁ hshows
  exact ⟨events ++ events', b₂, hsteps.trans hsteps', hshows'⟩

/-- The broker makes one step. -/
theorem Simulated.of_step {e : KsBrokerEvent} {b' : KsBroker}
    (hstep : Step ksScale (ksShort refused) ksProtocol b e b') (h : ServerShows t s b') :
    Simulated refused b t s :=
  ⟨[e], b', hstep.steps, h⟩

/-! ## the acts of a slot -/

/-- A change of one client that nobody sees. -/
theorem ServerShows.setClient (h : ServerShows t s b) {c : KsClient}
    (hused : c.used = (s.clients i).used) (hid : c.id = (s.clients i).id) {events : List KsEvent}
    (hhistory : c.history = (s.clients i).history ++ events)
    (hunseen : ∀ e ∈ events, e.seen = false) : ServerShows t (s.setClient i c) b := by
  refine h.congr (UInt64.le_refl t) (.refl _ _) rfl (fun j => ?_) rfl le_rfl
  by_cases hj : j = i
  · subst hj
    simpa using ⟨hused, hid, events, hhistory, hunseen⟩
  · simp [hj]

/-- A request that is not dispatched is answered at once. -/
theorem ServerShows.answer (h : ServerShows t s b) (hok : s.Ok) (hagrees : s.Agrees)
    (hused : (s.clients i).used = true) (hp : (s.clients i).pendingLen < ksOutputHighWater)
    {request : KsRequest} {message : List UInt8} (hm : message = request.message)
    (hr : ∀ line, request ≠ .command line) :
    Simulated refused b t
      (s.setClient i (queueError ((s.clients i).log (.request request)) message).1) := by
  obtain ⟨c, hqueue, -, hqueued⟩ := answer_spec (hok.clients i) hp hm
  have hmeaning : requestMeaning request = .inl (.error message) ∧
      (KsReply.error message).Says (.error message) := by
    subst hm
    cases request with
    | command line => exact absurd rfl (hr line)
    | _ => exact ⟨rfl, says_error (by decide)⟩
  obtain ⟨hmeaning, hsaid⟩ := hmeaning
  have hother (j : Fin cfg.maxClients) : ((s.setClient i c).clients j).used = (s.clients j).used ∧
      ((s.setClient i c).clients j).id = (s.clients j).id := by
    by_cases hj : j = i
    · subst hj
      simpa using ⟨hqueued.same.used, hqueued.same.id⟩
    · simp [hj]
  have hreplied : Replied s i request (.error message) (fun _ => []) (s.setClient i c) :=
    ⟨fun j => (hother j).1, fun j => (hother j).2, by simp [hqueued.history, CliFrame.encode],
      fun j hj _ => by simp [hj], rfl, rfl⟩
  rw [hqueue]
  exact .of_step (.plain b _ request _ (h.mem_live hused)
    ((h.alive hok hused).mpr ((hok.clients i).alive hp)) hmeaning)
    (h.exchange hagrees hused hreplied ⟨hsaid.valid, hsaid.answers⟩ (by simp) (fun _ _ => rfl)
      h.now h.entries h.subscriptions fun _ => .inl)

/-- **An act** is a step of the broker, or nobody sees it. -/
theorem KsTimedAct.simulated (h : ServerShows t s b) (hok : s.Ok) (hagrees : s.Agrees)
    (hact : KsTimedAct refused i (t, s) (t', s')) : Simulated refused b t' s' := by
  cases hact with
  | command _ _ line text env hused hp hline hlen ht hle hheap =>
    obtain ⟨e, b', hstep, hshows⟩ := h.handleCommand hok hagrees hused hp hline hlen ht hle hheap
    exact .of_step hstep hshows
  | answer _ _ request message hused hp hm hr => exact h.answer hok hagrees hused hp hm hr
  | write _ _ sends hused hd =>
    obtain ⟨-, hsame, events, hhist, hevents, -⟩ := writeClient_spec (hok.clients i).toQueueOk sends
    refine (h.setClient hsame.used hsame.id hhist fun e he => ?_).simulated
    rcases hevents e he with ⟨data, rfl⟩ | rfl <;> rfl
  | passive _ _ c hused hp =>
    obtain ⟨events, hhist, hevents⟩ := hp.history
    refine (h.setClient hp.used hp.id hhist fun e he => ?_).simulated
    obtain ⟨hactive, hdropped⟩ := hevents e he
    cases e <;> simp_all [KsEvent.active, KsEvent.seen]

/-! ## connections that are closed -/

/-- What the ids of the connections need, to be closed one after the other. -/
def KsServer.DistinctIds (s : KsServer cfg) : Prop :=
  ∀ j k, (s.clients j).used = true → (s.clients k).used = true →
    (s.clients j).id = (s.clients k).id → j = k

/-- A slot that is taken off the registry and reset. -/
theorem ServerShows.reset (h : ServerShows t s b) (hids : s.DistinctIds)
    (hused : (s.clients i).used = true) (hid : (s.clients i).id.toNat ≤ s.accepted)
    (hclients : s'.clients = Function.update s.clients i KsClient.free)
    (hpubsub : s'.pubsub = (ksPubsubRemoveClient s.pubsub (s.clients i).id).1)
    (hstore : s'.store = s.store) (hclosed : s'.closed = s.closed ++ [(s.clients i).history])
    (haccepted : s'.accepted = s.accepted) : Simulated refused b t s' := by
  have hmem := h.mem_live hused
  have hstep : Step ksScale (ksShort refused) ksProtocol b (.closed (s.clients i).id) _ :=
    .closed b _ hmem
  have hother {j : Fin cfg.maxClients} (hj : (s'.clients j).used = true) :
      j ≠ i ∧ s'.clients j = s.clients j ∧ (s.clients j).used = true := by
    have hne : j ≠ i := by
      rintro rfl
      simp [hclients, KsClient.free] at hj
    have heq : s'.clients j = s.clients j := by rw [hclients, Function.update_of_ne hne]
    exact ⟨hne, heq, heq ▸ hj⟩
  refine .of_step hstep ⟨hstep.wf h.wf, h.now, hstore ▸ h.entries, ?_, fun x => ?_, fun j hj => ?_,
    ?_, fun x hx => ?_⟩
  · rw [hpubsub]
    exact (h.subscriptions.removeClient _).2
  · rw [Finset.mem_erase, h.live]
    constructor
    · rintro ⟨hne, j, hj, rfl⟩
      have hji : j ≠ i := fun heq => hne (heq ▸ rfl)
      have heq : s'.clients j = s.clients j := by rw [hclients, Function.update_of_ne hji]
      exact ⟨j, heq ▸ hj, heq ▸ rfl⟩
    · rintro ⟨j, hj, rfl⟩
      obtain ⟨hne, heq, hj'⟩ := hother hj
      rw [heq]
      exact ⟨fun hsame => hne (hids j i hj' hused hsame), j, hj', rfl⟩
  · obtain ⟨-, heq, hj'⟩ := hother hj
    rw [heq]
    exact h.logs j hj'
  · rw [hclosed]
    exact List.rel_append (R := _) h.closed (.cons (h.logs i hused) .nil)
  · rw [haccepted]
    rcases List.mem_append.mp hx with hx | hx
    · exact h.issued x hx
    · exact List.mem_singleton.mp hx ▸ hid

/-- **A closed connection.** -/
theorem ServerShows.close (h : ServerShows t s b) (hagrees : s.Agrees)
    (hused : (s.clients i).used = true) : Simulated refused b t (closeClient s i) :=
  h.reset hagrees.distinct hused (hagrees.id_le i hused) rfl rfl rfl rfl rfl

/-- Slots are shut down one after the other. -/
theorem ServerShows.shutdownSlots (h : ServerShows t s b) (hids : s.DistinctIds)
    (hle : ∀ j, (s.clients j).used = true → (s.clients j).id.toNat ≤ s.accepted)
    (slots : List (Fin cfg.maxClients)) : Simulated refused b t (slots.foldl shutdownSlot s) := by
  induction slots generalizing s b with
  | nil => exact h.simulated
  | cons i slots ih =>
    rw [List.foldl_cons]
    by_cases hused : (s.clients i).used = true
    · have hslot : shutdownSlot s i = KsServer.resetClient
          { s with pubsub := (ksPubsubRemoveClient s.pubsub (s.clients i).id).1 } i := if_pos hused
      have hclients : (shutdownSlot s i).clients = Function.update s.clients i KsClient.free := by
        rw [hslot]
        rfl
      have hkept {j : Fin cfg.maxClients} (hj : ((shutdownSlot s i).clients j).used = true) :
          (shutdownSlot s i).clients j = s.clients j := by
        have hne : j ≠ i := by
          rintro rfl
          simp [hclients, KsClient.free] at hj
        rw [hclients, Function.update_of_ne hne]
      have hreset : Simulated refused b t (shutdownSlot s i) :=
        h.reset hids hused (hle i hused) hclients (by rw [hslot]; rfl) (by rw [hslot]; rfl)
          (by rw [hslot]; rfl) (by rw [hslot]; rfl)
      refine hreset.trans fun b' hshows => ?_
      refine ih hshows (fun j k hj hk => ?_) fun j hj => ?_
      · have hj' := hj
        have hk' := hk
        rw [hkept hj] at hj' ⊢
        rw [hkept hk] at hk' ⊢
        exact hids j k hj' hk'
      · have hj' := hj
        rw [hkept hj] at hj' ⊢
        rw [hslot]
        exact hle j hj'
    · have hslot : shutdownSlot s i = s := if_neg hused
      rw [hslot]
      exact ih h hids hle

/-- **The end of `ks_server_run`** closes every connection. -/
theorem ServerShows.shutdown (h : ServerShows t s b) (hagrees : s.Agrees) :
    Simulated refused b t (shutdown s) :=
  h.shutdownSlots hagrees.distinct hagrees.id_le _

/-! ## connections that are accepted -/

/-- A change outside the connections and the store. -/
theorem Simulated.counted (h : ServerShows t s b) (hstore : s'.store = s.store)
    (hpubsub : s'.pubsub = s.pubsub) (hclients : s'.clients = s.clients)
    (hclosed : s'.closed = s.closed) (haccepted : s.accepted ≤ s'.accepted) :
    Simulated refused b t s' :=
  (h.congr (UInt64.le_refl t) (hstore ▸ .refl _ _) hpubsub
    (fun j => by rw [hclients]; exact ⟨rfl, rfl, [], by simp, by simp⟩) hclosed
    haccepted).simulated

/-- **A new connection.** -/
theorem ServerShows.admit (h : ServerShows t s b) (hagrees : s.Agrees)
    (hfree : (s.clients i).used = false) (fd : Nat) : Simulated refused b t (s.admitClient i fd) := by
  have hnext := hagrees.nextClientId
  have hlive : s.nextClientId ∉ b.live := by
    rw [h.live]
    rintro ⟨j, hj, hid⟩
    exact hagrees.fresh.1 j hj hid
  have hended : s.nextClientId ∉ b.ended := by
    intro hmem
    have := h.issued _ hmem
    omega
  have hself : (s.admitClient i fd).clients i = newClient fd s.nextClientId := by
    simp [KsServer.admitClient, KsServer.setClient]
  have hother {j : Fin cfg.maxClients} (hj : j ≠ i) : (s.admitClient i fd).clients j = s.clients j := by
    simp [KsServer.admitClient, KsServer.setClient, KsServer.takeClientId, hj]
  have hstep : Step ksScale (ksShort refused) ksProtocol b (.opened s.nextClientId) _ :=
    .opened b _ hlive hended
  refine .of_step hstep ⟨hstep.wf h.wf, h.now, h.entries, h.subscriptions, fun x => ?_, fun j hj => ?_,
    h.closed, fun x hx => Nat.le_succ_of_le (h.issued x hx)⟩
  · rw [Finset.mem_insert, h.live]
    constructor
    · rintro (rfl | ⟨j, hj, rfl⟩)
      · exact ⟨i, by rw [hself]; rfl, by rw [hself]; rfl⟩
      · have hne : j ≠ i := by
          rintro rfl
          rw [hfree] at hj
          cases hj
        exact ⟨j, by rw [hother hne]; exact hj, by rw [hother hne]⟩
    · rintro ⟨j, hj, rfl⟩
      by_cases hji : j = i
      · subst hji
        rw [hself]
        exact .inl rfl
      · rw [hother hji] at hj ⊢
        exact .inr ⟨j, hj, rfl⟩
  · by_cases hji : j = i
    · subst hji
      have hlog : b.log s.nextClientId = [] := h.wf.silent _ hlive hended
      rw [hself]
      exact hlog ▸ logShows_nil
    · rw [hother hji] at hj ⊢
      exact h.logs j hj

/-- **A connection that is accepted**, or rejected. -/
theorem ServerShows.accept (h : ServerShows t s b) (hagrees : s.Agrees) (fd : Nat) (heap : KsHeap) :
    Simulated refused b t (acceptClient s fd heap) := by
  rcases acceptClient_cases s fd heap with heq | heq | ⟨slot, hfree, -, heq⟩ <;> rw [heq]
  · exact show Simulated refused b t s.reject from .counted h rfl rfl rfl rfl le_rfl
  · exact show Simulated refused b t s.takeClientId.reject from
      .counted h rfl rfl rfl rfl (Nat.le_succ _)
  · exact h.admit hagrees hfree fd

/-! ## the event loop -/

/-- The reaper takes away what nobody sees. -/
theorem ServerShows.iterate (h : ServerShows t s b) {now : UInt64} (hle : t ≤ now) :
    ServerShows now (startIteration s now) b := by
  have hsame := ksKvReap_live s.store ksReaperBudget now
  unfold startIteration
  generalize ksKvReap s.store ksReaperBudget now = r at *
  exact h.congr hle hsame rfl (fun _ => ⟨rfl, rfl, [], by simp, by simp⟩) rfl le_rfl

/-- **A move of the server** is a number of steps of the broker. -/
theorem KsTimedMove.simulated (hmove : KsTimedMove refused (t, s) (t', s')) (h : ServerShows t s b)
    (hok : s.Ok) (hagrees : s.Agrees) : Simulated refused b t' s' := by
  cases hmove with
  | act hact => exact hact.simulated h hok hagrees
  | close _ _ i hused => exact h.close hagrees hused
  | accept _ _ fd heap => exact h.accept hagrees fd heap
  | iterate _ _ _ hle => exact (h.iterate hle).simulated
  | backoff _ _ ticks =>
    exact show Simulated refused b t { s with acceptBackoffTicks := ticks } from
      .counted h rfl rfl rfl rfl le_rfl
  | wait _ _ _ hle => exact (h.mono hle).simulated

/-- The moves of the server only take ids. -/
theorem KsTimedMoves.accepted_le (h : KsTimedMoves refused t s t' s') (hreached : s.Reached) :
    s.accepted ≤ s'.accepted ∧ s'.Reached := by
  unfold KsTimedMoves at h
  generalize hq : (t', s') = q at h
  induction h generalizing t' s' with
  | refl =>
    cases hq
    exact ⟨le_rfl, hreached⟩
  | @tail p q _ hmove ih =>
    subst hq
    obtain ⟨hle, hmid⟩ := ih rfl
    exact ⟨hle.trans (hmove.accepted_le hmid.ok), hmove.reached hmid⟩

/-- **The moves of the server**, one after the other. -/
theorem KsTimedMoves.simulated (hmoves : KsTimedMoves refused t s t' s') (h : ServerShows t s b)
    (hreached : s.Reached) (hlt : s'.accepted < 2 ^ 64 - 1) : Simulated refused b t' s' := by
  have hmoves' := hmoves
  unfold KsTimedMoves at hmoves
  generalize hq : (t', s') = q at hmoves
  induction hmoves generalizing t' s' with
  | refl =>
    cases hq
    exact h.simulated
  | @tail p q hbefore hmove ih =>
    obtain ⟨u, s₁⟩ := p
    subst hq
    have hbefore : KsTimedMoves refused t s u s₁ := hbefore
    have hmid := (hbefore.accepted_le hreached).2
    have hle : s₁.accepted ≤ s'.accepted := hmove.accepted_le hmid.ok
    refine (ih (hle.trans_lt hlt) hbefore rfl).trans fun b₁ hshows => ?_
    exact hmove.simulated hshows hmid.ok (hmid.agrees (hle.trans_lt hlt))

/-- A shutdown takes no id. -/
theorem accepted_shutdown (h : s.Ok) : (shutdown s).accepted = s.accepted := (shutdown_spec h).accepted

/-- The server starts like the broker. -/
theorem serverShows_init (t : UInt64) (listenFd : Nat) (startedAt : Int64) :
    ServerShows t (ksServerInit cfg listenFd startedAt) (.initial t.toNat) where
  wf := State.wf_initial _
  now := le_rfl
  entries := .init t
  subscriptions := .create
  live := by simp [State.initial, ksServerInit, KsClient.free]
  logs := by simp [ksServerInit, KsClient.free]
  closed := .nil
  issued := by simp [State.initial]

/-- Every state of the server shows one of the broker. -/
theorem KsServer.ReachedAt.shows (h : s.ReachedAt refused t) (hlt : s.accepted < 2 ^ 64 - 1) :
    ∃ trace b, Run ksScale (ksShort refused) ksProtocol trace b ∧ ServerShows t s b := by
  induction h with
  | init t listenFd startedAt => exact ⟨[], _, .initial _, serverShows_init t listenFd startedAt⟩
  | move hreached hmove ih =>
    have hok := hreached.reached.ok
    have hle := (hmove.accepted_le hok).trans_lt hlt
    obtain ⟨trace, b, hrun, hshows⟩ := ih hle
    obtain ⟨events, b', hsteps, hshows'⟩ :=
      hmove.simulated hshows hok (hreached.reached.agrees hle)
    exact ⟨trace ++ events, b', hrun.steps hsteps, hshows'⟩

/-- Every state of the loop shows one of the broker. -/
theorem KsLoop.ReachableAt.shows {l : KsLoop cfg} (h : l.ReachableAt refused t)
    (hlt : l.server.accepted < 2 ^ 64 - 1) :
    ∃ trace b, Run ksScale (ksShort refused) ksProtocol trace b ∧ ServerShows t l.server b := by
  obtain ⟨s, hs, ⟨-, heq⟩ | ⟨-, heq⟩⟩ := h.reachedAt
  · exact heq ▸ hs.shows (heq ▸ hlt)
  · have hok := hs.reached.ok
    rw [heq, accepted_shutdown hok] at hlt
    obtain ⟨trace, b, hrun, hshows⟩ := hs.shows hlt
    obtain ⟨events, b', hsteps, hshows'⟩ := hshows.shutdown (hs.reached.agrees hlt)
    exact ⟨trace ++ events, b', hrun.steps hsteps, heq ▸ hshows'⟩

end Kessel
