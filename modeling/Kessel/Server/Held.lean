import Kessel.Net
import Kessel.Server.Run

/-!
# Kessel.Server.Held

What the server holds.

The functions of `ks_server.c` that open, close, allocate and free, with the
account of `KsHeld` beside their effect on the server (`acceptClientsHeld_eq`,
`clientTurnHeld_eq`, `serverEnd_eq`: the effect is the same).  `KsServer.owned`
is what a state of the server needs: the listener, the store, the registries,
and for every slot in use a descriptor and two blocks.

* `acceptPhaseHeld_accounted`, `clientTurnHeld_accounted` — what is held stays
  exactly what is needed;
* `serverEnd_owns` — in the end nothing is held.
-/

namespace Kessel

open Relation (ReflTransGen)

variable {cfg : KsConfig}

/-! ## `client_init`, `client_reset` -/

/-- `client_init`, in a slot. -/
def clientInitHeld (h : KsHeld) (slot : Nat) (fd : Nat) (id : UInt64) (heap : KsHeap) :
    KsHeld × Option KsClient :=
  let h := h.malloc (.input slot) (heap .clientInput)
  let h := h.malloc (.output slot) (heap .clientOutput)
  if heap .clientInput = false ∨ heap .clientOutput = false then
    let h := h.free (.input slot) (heap .clientInput)
    let h := h.free (.output slot) (heap .clientOutput)
    (ksClose h fd, none)
  else (h, some { KsClient.free with used := true, fd := fd, id := id })

/-- `client_reset`; the buffers of a slot that is not in use are null pointers. -/
def clientResetHeld (h : KsHeld) (slot : Nat) (client : KsClient) : KsHeld :=
  let h := if client.used then ksClose h client.fd else h
  let h := h.free (.input slot) client.used
  h.free (.output slot) client.used

/-! ## `accept_clients` -/

/-- One accepted descriptor. -/
def acceptClientHeld (s : KsServer cfg) (h : KsHeld) (fd : Nat) (heap : KsHeap) :
    KsServer cfg × KsHeld :=
  match (List.finRange cfg.maxClients).find? fun i => !(s.clients i).used with
  | none => (s.reject, ksClose h fd)
  | some slot =>
    if fd ≥ fdSetSize then (s.reject, ksClose h fd)
    else
      match clientInitHeld h slot fd s.nextClientId heap with
      | (h, none) => (s.takeClientId.reject, h)
      | (h, some client) =>
        let metrics := { s.metrics with
          connectedClients := s.metrics.connectedClients + 1
          totalConnections := s.metrics.totalConnections + 1 }
        ({ s.takeClientId.setClient slot client with metrics }, h)

/-- `accept_clients`, with `budget` descriptors to go. -/
def acceptClientsHeld (s : KsServer cfg) (h : KsHeld) :
    Nat → List KsAcceptCall → KsServer cfg × KsHeld × Int
  | 0, _ => (s, h, 0)
  | budget + 1, calls =>
    match ksAccept h calls with
    | (.wouldBlock, _, h) => (s, h, 0)
    | (.error, _, h) => (s, h, -1)
    | (.ok fd heap, calls, h) =>
      let (s, h) := acceptClientHeld s h fd heap
      acceptClientsHeld s h budget calls

/-- The accepts of an iteration, when the listener is ready. -/
def acceptPhaseHeld (s : KsServer cfg) (h : KsHeld) (readFds : Nat → Bool)
    (calls : List KsAcceptCall) : KsServer cfg × KsHeld :=
  if s.acceptBackoffTicks = 0 ∧ readFds s.listenFd then
    let (s, h, result) := acceptClientsHeld s h ksAcceptBudget calls
    if result ≠ 0 then ({ s with acceptBackoffTicks := 10 }, h) else (s, h)
  else (s, h)

/-- `accept` answers descriptors that are not open. -/
def FreshCalls (s : KsServer cfg) (h : KsHeld) : List KsAcceptCall → Prop
  | [] => True
  | .interrupted :: calls => FreshCalls s h calls
  | .wouldBlock :: _ => True
  | .error :: _ => True
  | .ok fd fcntl heap :: calls =>
    .descriptor fd ∉ h.ledger.held ∧
      (fcntl.getfl = true → fcntl.setfl = true →
        FreshCalls
          (acceptClientHeld s (ksAccept h [.ok fd fcntl heap]).2.2 fd heap).1
          (acceptClientHeld s (ksAccept h [.ok fd fcntl heap]).2.2 fd heap).2 calls)

/-! ## the turn of a client -/

/-- The body of the loop over the clients, up to the question whether to close. -/
def turnEnd (s : KsServer cfg) (i : Fin cfg.maxClients) (readFds writeFds : Nat → Bool)
    (t : KsTurn) : KsServer cfg × Bool :=
  let fd := (s.clients i).fd
  let shouldClose := (s.clients i).dropConnection
  let (s, failed) := turnRead s i (readFds fd) t.recvs
  let shouldClose := shouldClose || failed
  let (s, shouldClose) := if shouldClose then (s, true) else turnWrite s i (writeFds fd) t.sends
  let (s, shouldClose) := if shouldClose then (s, true) else turnProcess s i t.env
  let shouldClose := shouldClose ||
    ((s.clients i).closeAfterWrite && (s.clients i).outputLen = (s.clients i).outputOffset)
  (s, shouldClose)

/-- The body of the loop over the clients. -/
def clientTurnHeld (s : KsServer cfg) (h : KsHeld) (i : Fin cfg.maxClients)
    (readFds writeFds : Nat → Bool) (t : KsTurn) : KsServer cfg × KsHeld :=
  if ¬ (s.clients i).used then (s, h)
  else
    let (s, shouldClose) := turnEnd s i readFds writeFds t
    if shouldClose then (closeClient s i, clientResetHeld h i (s.clients i)) else (s, h)

/-! ## the end of `ks_server_run` -/

/-- One slot. -/
def shutdownSlotHeld (r : KsServer cfg × KsHeld) (i : Fin cfg.maxClients) : KsServer cfg × KsHeld :=
  (shutdownSlot r.1 i, clientResetHeld r.2 i (r.1.clients i))

/-- The end of `ks_server_run`. -/
def serverEnd (s : KsServer cfg) (h : KsHeld) : KsServer cfg × KsHeld :=
  let (s, h) := (List.finRange cfg.maxClients).foldl shutdownSlotHeld (s, h)
  let h := h.give .registry
  let h := ksClose h s.listenFd
  let h := h.give .store
  (s, h.give .pubsub)

/-! ## the effect on the server -/

/-- `client_init`, without the account. -/
theorem clientInitHeld_eq (h : KsHeld) (slot fd : Nat) (id : UInt64) (heap : KsHeap) :
    (clientInitHeld h slot fd id heap).2 = clientInit fd id heap := by
  unfold clientInitHeld clientInit
  split <;> rfl

/-- Accepting one connection, without the account. -/
theorem acceptClientHeld_eq (s : KsServer cfg) (h : KsHeld) (fd : Nat) (heap : KsHeap) :
    (acceptClientHeld s h fd heap).1 = acceptClient s fd heap := by
  unfold acceptClientHeld acceptClient
  cases (List.finRange cfg.maxClients).find? fun i => !(s.clients i).used with
  | none => rfl
  | some slot =>
    dsimp only
    split
    · rfl
    · rw [← clientInitHeld_eq h slot]
      rcases clientInitHeld h slot fd s.nextClientId heap with ⟨h', _ | client⟩ <;> rfl

/-- What `ks_accept` returns, and what is left to return. -/
theorem acceptResults_ksAccept (h : KsHeld) (calls : List KsAcceptCall) (s : KsServer cfg)
    (budget : Nat) :
    acceptClients s budget (acceptResults calls) =
      acceptClients s budget ((ksAccept h calls).1 :: acceptResults (ksAccept h calls).2.1) := by
  induction calls with
  | nil => cases budget <;> rfl
  | cons call calls ih =>
    cases call with
    | interrupted => exact ih
    | wouldBlock | error => rfl
    | ok fd fcntl heap =>
      obtain ⟨getfl, setfl⟩ := fcntl
      cases getfl <;> cases setfl <;> rfl

/-- Accepting connections, without the account. -/
theorem acceptClientsHeld_eq (s : KsServer cfg) (h : KsHeld) (budget : Nat)
    (calls : List KsAcceptCall) :
    ((acceptClientsHeld s h budget calls).1, (acceptClientsHeld s h budget calls).2.2) =
      acceptClients s budget (acceptResults calls) := by
  induction budget generalizing s h calls with
  | zero => rfl
  | succ budget ih =>
    rw [acceptResults_ksAccept h, acceptClientsHeld]
    rcases ksAccept h calls with ⟨accept, calls', h'⟩
    cases accept with
    | wouldBlock | error => rfl
    | ok fd heap =>
      dsimp only
      rw [ih, acceptClientHeld_eq]
      rfl

/-- The phase that accepts, without the account. -/
theorem acceptPhaseHeld_eq (s : KsServer cfg) (h : KsHeld) (readFds : Nat → Bool)
    (calls : List KsAcceptCall) :
    (acceptPhaseHeld s h readFds calls).1 = acceptPhase s readFds (acceptResults calls) := by
  unfold acceptPhaseHeld acceptPhase
  split
  · rw [← acceptClientsHeld_eq s h]
    rcases acceptClientsHeld s h ksAcceptBudget calls with ⟨s', h', result⟩
    dsimp only
    split <;> rfl
  · rfl

/-- The turn of a slot, without the account. -/
theorem clientTurnHeld_eq (s : KsServer cfg) (h : KsHeld) (i : Fin cfg.maxClients)
    (readFds writeFds : Nat → Bool) (t : KsTurn) :
    (clientTurnHeld s h i readFds writeFds t).1 = clientTurn s i readFds writeFds t := by
  have hbody : clientTurn s i readFds writeFds t =
      if ¬ (s.clients i).used then s
      else if (turnEnd s i readFds writeFds t).2 then closeClient (turnEnd s i readFds writeFds t).1 i
      else (turnEnd s i readFds writeFds t).1 := rfl
  rw [hbody, clientTurnHeld]
  split
  · rfl
  · rcases turnEnd s i readFds writeFds t with ⟨s', shouldClose⟩
    dsimp only
    split <;> rfl

/-- The end of the server, without the account. -/
theorem serverEnd_eq (s : KsServer cfg) (h : KsHeld) : (serverEnd s h).1 = shutdown s := by
  have hfold (slots : List (Fin cfg.maxClients)) (s : KsServer cfg) (h : KsHeld) :
      (slots.foldl shutdownSlotHeld (s, h)).1 = slots.foldl shutdownSlot s := by
    induction slots generalizing s h with
    | nil => rfl
    | cons i slots ih => exact ih (shutdownSlot s i) _
  exact hfold _ s h

/-! ## what the server needs -/

/-- What a slot holds that is in use. -/
def KsClient.owned (c : KsClient) (slot : Nat) : Finset KsResource :=
  if c.used then {.descriptor c.fd, .input slot, .output slot} else ∅

/-- What a state of the server needs. -/
def KsServer.owned (s : KsServer cfg) : Finset KsResource :=
  {.descriptor s.listenFd, .store, .pubsub, .registry} ∪
    Finset.univ.biUnion fun i : Fin cfg.maxClients => (s.clients i).owned i

/-- The descriptors of the slots in use are distinct, and none is the listener. -/
structure KsServer.Disjoint (s : KsServer cfg) : Prop where
  distinct : ∀ j k, (s.clients j).used = true → (s.clients k).used = true →
    (s.clients j).fd = (s.clients k).fd → j = k
  listen : ∀ j, (s.clients j).used = true → (s.clients j).fd ≠ s.listenFd

section
variable {s s' : KsServer cfg} {h : KsHeld} {i : Fin cfg.maxClients} {r : KsResource}

/-- Connections hold different descriptors. -/
theorem KsServer.Connected.disjoint (h₀ : s.Connected) : s.Disjoint := ⟨h₀.distinct, h₀.listen⟩

/-- What does not take a slot or a descriptor away keeps them apart. -/
theorem KsServer.Disjoint.of_slots (h₀ : s.Disjoint) (hlisten : s'.listenFd = s.listenFd)
    (hslots : ∀ j, (s'.clients j).used = true →
      (s.clients j).used = true ∧ (s'.clients j).fd = (s.clients j).fd) : s'.Disjoint := by
  refine ⟨fun j k hj hk heq => ?_, fun j hj => ?_⟩
  · rw [(hslots j hj).2, (hslots k hk).2] at heq
    exact h₀.distinct j k (hslots j hj).1 (hslots k hk).1 heq
  · rw [(hslots j hj).2, hlisten]
    exact h₀.listen j (hslots j hj).1

/-- What a connection holds. -/
theorem KsClient.mem_owned {c : KsClient} {slot : Nat} :
    r ∈ c.owned slot ↔
      c.used = true ∧ (r = .descriptor c.fd ∨ r = .input slot ∨ r = .output slot) := by
  cases hused : c.used <;> simp [KsClient.owned, hused]

/-- What a server holds. -/
theorem KsServer.mem_owned :
    r ∈ s.owned ↔ (r = .descriptor s.listenFd ∨ r = .store ∨ r = .pubsub ∨ r = .registry) ∨
      ∃ i, (s.clients i).used = true ∧
        (r = .descriptor (s.clients i).fd ∨ r = .input i ∨ r = .output i) := by
  simp [KsServer.owned, KsClient.mem_owned, or_assoc]

/-- What its connections hold is held by the server. -/
theorem KsServer.owned_slot_subset (s : KsServer cfg) (i : Fin cfg.maxClients) :
    (s.clients i).owned i ⊆ s.owned :=
  (Finset.subset_biUnion_of_mem (fun j : Fin cfg.maxClients => (s.clients j).owned j)
    (Finset.mem_univ i)).trans Finset.subset_union_right

/-- A descriptor is that of the listener, or of a connection. -/
theorem KsServer.descriptor_mem_owned {fd : Nat} :
    .descriptor fd ∈ s.owned ↔
      fd = s.listenFd ∨ ∃ j, (s.clients j).used = true ∧ fd = (s.clients j).fd := by
  simp [KsServer.mem_owned]

/-- An input buffer is that of a connection. -/
theorem KsServer.input_mem_owned {slot : Nat} :
    .input slot ∈ s.owned ↔ ∃ j : Fin cfg.maxClients, (s.clients j).used = true ∧ slot = j := by
  simp [KsServer.mem_owned]

/-- So is an output buffer. -/
theorem KsServer.output_mem_owned {slot : Nat} :
    .output slot ∈ s.owned ↔ ∃ j : Fin cfg.maxClients, (s.clients j).used = true ∧ slot = j := by
  simp [KsServer.mem_owned]

/-- A descriptor that is not open belongs to nobody. -/
theorem KsServer.descriptor_notMem_owned {fd : Nat} (hfd : .descriptor fd ∉ s.owned) :
    fd ≠ s.listenFd ∧ ∀ j, (s.clients j).used = true → (s.clients j).fd ≠ fd := by
  rw [KsServer.descriptor_mem_owned, not_or] at hfd
  exact ⟨hfd.1, fun j hj heq => hfd.2 ⟨j, hj, heq.symm⟩⟩

/-- States whose slots have the same owners need the same. -/
theorem KsServer.owned_congr (hlisten : s'.listenFd = s.listenFd)
    (hslots : ∀ j, (s'.clients j).used = (s.clients j).used ∧ (s'.clients j).fd = (s.clients j).fd) :
    s'.owned = s.owned := by
  ext r
  rw [KsServer.mem_owned, KsServer.mem_owned, hlisten]
  simp only [(hslots _).1, (hslots _).2]

/-- What is left without the things of a slot in use. -/
theorem KsClient.sdiff_owned {c : KsClient} (hused : c.used = true) (slot : Nat)
    (rs : Finset KsResource) :
    rs \ c.owned slot = ((rs.erase (.descriptor c.fd)).erase (.input slot)).erase (.output slot) := by
  ext r
  simp only [Finset.mem_sdiff, KsClient.mem_owned, hused, true_and, not_or, Finset.mem_erase]
  tauto

/-- A slot in use that is reset needs nothing any more. -/
theorem KsServer.owned_reset_used (hlisten : s'.listenFd = s.listenFd)
    (hclients : s'.clients = Function.update s.clients i KsClient.free)
    (hused : (s.clients i).used = true) (hdisjoint : s.Disjoint) :
    s'.owned = s.owned \ (s.clients i).owned i := by
  rw [KsClient.sdiff_owned hused]
  have hself : (s'.clients i).used = false := by rw [hclients, Function.update_self]; rfl
  have hother {j : Fin cfg.maxClients} (hj : j ≠ i) : s'.clients j = s.clients j := by
    rw [hclients, Function.update_of_ne hj]
  have hslot (j : Fin cfg.maxClients) :
      (s'.clients j).used = true ↔ j ≠ i ∧ (s.clients j).used = true := by
    by_cases hj : j = i
    · simp [hj, hself]
    · simp [hj, hother]
  -- the blocks are named by their slot, so only the slot itself has them
  have hblock (slot : Nat) :
      (∃ j : Fin cfg.maxClients, (s'.clients j).used = true ∧ slot = j) ↔
        slot ≠ i ∧ ∃ j : Fin cfg.maxClients, (s.clients j).used = true ∧ slot = j := by
    simp only [hslot]
    constructor
    · rintro ⟨j, ⟨hj, hjused⟩, rfl⟩
      exact ⟨Fin.val_ne_of_ne hj, j, hjused, rfl⟩
    · rintro ⟨hne, j, hjused, rfl⟩
      exact ⟨j, ⟨fun heq => hne (congrArg Fin.val heq), hjused⟩, rfl⟩
  ext r
  simp only [Finset.mem_erase]
  cases r with
  | descriptor fd =>
    rw [KsServer.descriptor_mem_owned, KsServer.descriptor_mem_owned, hlisten]
    constructor
    · rintro (rfl | ⟨j, hj, rfl⟩)
      · exact ⟨by simp, by simp, by simpa using (hdisjoint.listen i hused).symm, .inl rfl⟩
      · obtain ⟨hji, hjused⟩ := (hslot j).mp hj
        rw [hother hji]
        refine ⟨by simp, by simp, fun heq => hji (hdisjoint.distinct j i hjused hused ?_),
          .inr ⟨j, hjused, rfl⟩⟩
        exact KsResource.descriptor.inj heq
    · rintro ⟨-, -, hfd, rfl | ⟨j, hjused, rfl⟩⟩
      · exact .inl rfl
      · have hji : j ≠ i := by
          rintro rfl
          exact hfd rfl
        exact .inr ⟨j, (hslot j).mpr ⟨hji, hjused⟩, by rw [hother hji]⟩
  | input slot =>
    rw [KsServer.input_mem_owned, KsServer.input_mem_owned, hblock]
    simp
  | output slot =>
    rw [KsServer.output_mem_owned, KsServer.output_mem_owned, hblock]
    simp
  | store | pubsub | registry => simp [KsServer.mem_owned]

/-- A slot that is reset needs nothing any more. -/
theorem KsServer.owned_reset (hlisten : s'.listenFd = s.listenFd)
    (hclients : s'.clients = Function.update s.clients i KsClient.free) (hdisjoint : s.Disjoint) :
    s'.owned = s.owned \ (s.clients i).owned i := by
  by_cases hused : (s.clients i).used = true
  · exact KsServer.owned_reset_used hlisten hclients hused hdisjoint
  · have hnothing : (s.clients i).owned i = ∅ := if_neg hused
    rw [hnothing, Finset.sdiff_empty]
    ext r
    rw [KsServer.mem_owned, KsServer.mem_owned, hlisten, hclients]
    refine or_congr_right (exists_congr fun j => ?_)
    by_cases hj : j = i
    · simp [hj, hused, KsClient.free]
    · rw [Function.update_of_ne hj]

/-- A slot that is filled needs a descriptor and its blocks. -/
theorem KsServer.owned_admitClient {fd : Nat} (hfree : (s.clients i).used = false) :
    (s.admitClient i fd).owned =
      insert (.output i) (insert (.input i) (insert (.descriptor fd) s.owned)) := by
  have hself : (s.admitClient i fd).clients i = newClient fd s.nextClientId := by
    simp [KsServer.admitClient, KsServer.setClient]
  have hother {j : Fin cfg.maxClients} (hj : j ≠ i) : (s.admitClient i fd).clients j = s.clients j := by
    simp [KsServer.admitClient, KsServer.setClient, KsServer.takeClientId, hj]
  have hslots {P : KsClient → Fin cfg.maxClients → Prop} :
      (∃ j, ((s.admitClient i fd).clients j).used = true ∧ P ((s.admitClient i fd).clients j) j) ↔
        P (newClient fd s.nextClientId) i ∨ ∃ j, (s.clients j).used = true ∧ P (s.clients j) j := by
    constructor
    · rintro ⟨j, hj, hP⟩
      by_cases hji : j = i
      · subst hji
        exact .inl (hself ▸ hP)
      · rw [hother hji] at hj hP
        exact .inr ⟨j, hj, hP⟩
    · rintro (hP | ⟨j, hj, hP⟩)
      · exact ⟨i, by rw [hself]; rfl, hself.symm ▸ hP⟩
      · have hji : j ≠ i := by
          rintro rfl
          rw [hfree] at hj
          cases hj
        exact ⟨j, by rw [hother hji]; exact hj, by rw [hother hji]; exact hP⟩
  have hmem (r : KsResource) :=
    hslots (P := fun c j => r = .descriptor c.fd ∨ r = .input j ∨ r = .output j)
  ext r
  rw [KsServer.mem_owned, hmem]
  simp only [Finset.mem_insert, KsServer.mem_owned]
  have hfd : (newClient fd s.nextClientId).fd = fd := rfl
  have hlisten : (s.admitClient i fd).listenFd = s.listenFd := rfl
  rw [hfd, hlisten]
  grind

/-! ## accepting -/

/-- **`client_init`** holds both blocks, or closes the descriptor. -/
theorem clientInitHeld_owns {rs : Finset KsResource} {slot fd : Nat} (id : UInt64) (heap : KsHeap)
    (h₀ : h.Owns (insert (.descriptor fd) rs)) (hfd : .descriptor fd ∉ rs) (hin : .input slot ∉ rs)
    (hout : .output slot ∉ rs) :
    ((clientInitHeld h slot fd id heap).2 = none → (clientInitHeld h slot fd id heap).1.Owns rs) ∧
      ((clientInitHeld h slot fd id heap).2 ≠ none → (clientInitHeld h slot fd id heap).1.Owns
        (insert (.output slot) (insert (.input slot) (insert (.descriptor fd) rs)))) ∧
      (clientInitHeld h slot fd id heap).1.offered = h.offered := by
  have hin' : .input slot ∉ insert (.descriptor fd) rs := by simp [hin]
  have hout' : .output slot ∉ insert (.descriptor fd) rs := by simp [hout]
  unfold clientInitHeld
  cases hi : heap .clientInput <;> cases ho : heap .clientOutput
  · exact ⟨fun _ => h₀.close_insert hfd, by simp, rfl⟩
  · exact ⟨fun _ => (h₀.take_give hout').close_insert hfd, by simp, rfl⟩
  · exact ⟨fun _ => (h₀.take_give hin').close_insert hfd, by simp, rfl⟩
  · refine ⟨by simp, fun _ => (h₀.take hin' (by simp)).take ?_ (by simp), rfl⟩
    simp [hout]

/-- **`client_reset`** gives back what its slot holds. -/
theorem clientResetHeld_owns {rs : Finset KsResource} {slot : Nat} {c : KsClient} (h₀ : h.Owns rs)
    (hsub : c.owned slot ⊆ rs) :
    (clientResetHeld h slot c).Owns (rs \ c.owned slot) := by
  cases hused : c.used with
  | false =>
    have hnothing : c.owned slot = ∅ := by simp [KsClient.owned, hused]
    rw [hnothing, Finset.sdiff_empty]
    simpa [clientResetHeld, hused, KsHeld.free] using h₀
  | true =>
    have hmem {r : KsResource} (hr : r = .descriptor c.fd ∨ r = .input slot ∨ r = .output slot) :
        r ∈ rs := hsub (KsClient.mem_owned.mpr ⟨hused, hr⟩)
    rw [KsClient.sdiff_owned hused]
    unfold clientResetHeld
    rw [hused]
    exact ((h₀.close (hmem (.inl rfl))).give (by simp [hmem])).give (by simp [hmem])

/-- A free slot holds no buffer. -/
theorem KsServer.block_notMem_owned (hfree : (s.clients i).used = false) :
    .input i ∉ s.owned ∧ .output i ∉ s.owned := by
  rw [KsServer.input_mem_owned, KsServer.output_mem_owned]
  have hne : ¬ ∃ j : Fin cfg.maxClients, (s.clients j).used = true ∧ i.val = j := by
    rintro ⟨j, hj, heq⟩
    rw [← Fin.ext heq, hfree] at hj
    cases hj
  exact ⟨hne, hne⟩

/-- What is held is what is needed, `select` can watch it, and every connection
that was offered has been counted. -/
structure KsServer.Accounted (s : KsServer cfg) (h : KsHeld) : Prop where
  owns : h.Owns s.owned
  small : ∀ fd, .descriptor fd ∈ s.owned → fd < fdSetSize
  offered : s.metrics.totalConnections + s.metrics.rejectedConnections = UInt64.ofNat h.offered

/-- The same things, and the same counters. -/
theorem KsServer.Accounted.of_eq (h₀ : s.Accounted h) (howned : s'.owned = s.owned)
    (htotal : s'.metrics.totalConnections = s.metrics.totalConnections)
    (hrejected : s'.metrics.rejectedConnections = s.metrics.rejectedConnections) :
    s'.Accounted h :=
  ⟨howned ▸ h₀.owns, howned ▸ h₀.small, by rw [htotal, hrejected]; exact h₀.offered⟩

/-- One descriptor that `ks_accept` has returned. -/
theorem acceptClientHeld_accounted {fd : Nat} (heap : KsHeap)
    (howns : h.Owns (insert (.descriptor fd) s.owned)) (hfd : .descriptor fd ∉ s.owned)
    (hsmall : ∀ fd, .descriptor fd ∈ s.owned → fd < fdSetSize)
    (hoffered : s.metrics.totalConnections + s.metrics.rejectedConnections + 1 =
      UInt64.ofNat h.offered) :
    (acceptClientHeld s h fd heap).1.Accounted (acceptClientHeld s h fd heap).2 := by
  have hrejected : s.metrics.totalConnections + (s.metrics.rejectedConnections + 1) =
      UInt64.ofNat h.offered := by rw [← hoffered, UInt64.add_assoc]
  have hclosed : (ksClose h fd).Owns s.owned := howns.close_insert hfd
  unfold acceptClientHeld
  cases hslot : (List.finRange cfg.maxClients).find? fun i => !(s.clients i).used with
  | none => exact ⟨hclosed, hsmall, hrejected⟩
  | some slot =>
    have hfree : (s.clients slot).used = false := by simpa using List.find?_some hslot
    obtain ⟨hin, hout⟩ := KsServer.block_notMem_owned hfree
    dsimp only
    by_cases hbig : fd ≥ fdSetSize
    · rw [if_pos hbig]
      exact ⟨hclosed, hsmall, hrejected⟩
    rw [if_neg hbig]
    have hinit := clientInitHeld_eq h slot fd s.nextClientId heap
    obtain ⟨hfailed, hfilled, hkept⟩ :=
      clientInitHeld_owns s.nextClientId heap howns hfd hin hout
    rcases hresult : clientInitHeld h slot fd s.nextClientId heap with ⟨h', _ | client⟩ <;>
      rw [hresult] at hinit hfailed hfilled hkept
    · exact ⟨hfailed rfl, hsmall, by rw [hkept]; exact hrejected⟩
    · have hclient : client = newClient fd s.nextClientId := by
        unfold clientInit at hinit
        split at hinit
        · cases hinit
        · exact Option.some.inj hinit
      subst hclient
      have howned : (s.admitClient slot fd).owned = _ := KsServer.owned_admitClient hfree
      refine ⟨howned ▸ hfilled (by simp), fun fd' hfd' => ?_, ?_⟩
      · have hmem : .descriptor fd' ∈ (s.admitClient slot fd).owned := hfd'
        rw [howned] at hmem
        rcases (by simpa using hmem : fd' = fd ∨ .descriptor fd' ∈ s.owned) with rfl | hmem
        · exact Nat.lt_of_not_le hbig
        · exact hsmall fd' hmem
      · rw [hkept, ← hoffered, UInt64.add_assoc, UInt64.add_assoc, UInt64.add_comm 1]

/-- What is fresh about the answers to one `ks_accept`, and to the next ones. -/
theorem FreshCalls.next (h₀ : s.Accounted h) {calls : List KsAcceptCall}
    (hfresh : FreshCalls s h calls) :
    FreshNext s.owned calls ∧ ∀ fd heap calls' h', ksAccept h calls = (.ok fd heap, calls', h') →
      FreshCalls (acceptClientHeld s h' fd heap).1 (acceptClientHeld s h' fd heap).2 calls' := by
  induction calls with
  | nil => exact ⟨trivial, fun fd heap calls' h' heq => by simp [ksAccept] at heq⟩
  | cons call calls ih =>
    cases call with
    | interrupted => exact ih hfresh
    | wouldBlock | error => exact ⟨trivial, fun fd heap calls' h' heq => by simp [ksAccept] at heq⟩
    | ok fd fcntl heap =>
      obtain ⟨hfd, hrest⟩ := hfresh
      refine ⟨by rw [← h₀.owns.holds.held]; exact hfd, fun fd' heap' calls' h' heq => ?_⟩
      obtain ⟨getfl, setfl⟩ := fcntl
      cases getfl <;> cases setfl <;> simp [ksAccept, ksSetNonblock] at heq
      obtain ⟨⟨rfl, rfl⟩, rfl, rfl⟩ := heq
      exact hrest rfl rfl

/-- **`accept_clients`.** -/
theorem acceptClientsHeld_accounted (h₀ : s.Accounted h) {calls : List KsAcceptCall}
    (hfresh : FreshCalls s h calls) (budget : Nat) :
    (acceptClientsHeld s h budget calls).1.Accounted (acceptClientsHeld s h budget calls).2.1 := by
  induction budget generalizing s h calls with
  | zero => exact h₀
  | succ budget ih =>
    obtain ⟨hnext, hrest⟩ := hfresh.next h₀
    obtain ⟨howns, hfd, hoffered⟩ := ksAccept_spec h₀.owns hnext
    rw [acceptClientsHeld]
    rcases hresult : ksAccept h calls with ⟨accept, calls', h'⟩
    rw [hresult] at howns hfd hoffered
    cases accept with
    | wouldBlock | error =>
      exact ⟨howns, h₀.small, by rw [show h'.offered = h.offered from hoffered]; exact h₀.offered⟩
    | ok fd heap =>
      refine ih (acceptClientHeld_accounted heap howns (hfd fd rfl) h₀.small ?_)
        (hrest fd heap calls' h' hresult)
      rw [show h'.offered = h.offered + 1 from hoffered, h₀.offered, UInt64.ofNat_add]
      rfl

/-- The descriptors of `accept_clients` are open for nobody. -/
theorem FreshCalls.freshFds (h₀ : s.Accounted h) {calls : List KsAcceptCall}
    (hfresh : FreshCalls s h calls) : FreshFds s (acceptResults calls) := by
  induction calls generalizing s h with
  | nil => trivial
  | cons call calls ih =>
    cases call with
    | interrupted => exact ih h₀ hfresh
    | wouldBlock | error => trivial
    | ok fd fcntl heap =>
      obtain ⟨hfd, hrest⟩ := hfresh
      rw [h₀.owns.holds.held] at hfd
      obtain ⟨getfl, setfl⟩ := fcntl
      cases hset : getfl && setfl with
      | false =>
        rw [acceptResults, hset]
        trivial
      | true =>
        obtain ⟨rfl, rfl⟩ := Bool.and_eq_true_iff.mp hset
        obtain ⟨howns, -, hoffered⟩ :=
          ksAccept_spec h₀.owns (show FreshNext s.owned [.ok fd ⟨true, true⟩ heap] from hfd)
        have hnext := acceptClientHeld_accounted heap howns hfd h₀.small
          (by rw [hoffered, h₀.offered]; exact (UInt64.ofNat_add _ _).symm)
        have hfds := ih hnext (hrest rfl rfl)
        rw [acceptClientHeld_eq] at hfds
        exact ⟨KsServer.descriptor_notMem_owned hfd, hfds⟩

/-- **The accepts of an iteration** hold what the new connections need. -/
theorem acceptPhaseHeld_accounted (h₀ : s.Accounted h) (readFds : Nat → Bool)
    {calls : List KsAcceptCall} (hfresh : FreshCalls s h calls) :
    (acceptPhaseHeld s h readFds calls).1.Accounted (acceptPhaseHeld s h readFds calls).2 := by
  have haccepts := acceptClientsHeld_accounted h₀ hfresh ksAcceptBudget
  unfold acceptPhaseHeld
  split
  · rcases hr : acceptClientsHeld s h ksAcceptBudget calls with ⟨s', h', result⟩
    rw [hr] at haccepts
    dsimp only
    split
    · exact haccepts.of_eq rfl rfl rfl
    · exact haccepts
  · exact h₀

/-! ## the turn of a slot -/

/-- An act takes nothing and gives nothing back. -/
theorem KsServer.Accounted.act (h₀ : s.Accounted h) (hok : s.Ok) (hact : KsAct i s s') :
    s'.Accounted h := by
  have hacted := acted_of_act hok hact
  refine h₀.of_eq ?_ hacted.totalConnections ?_
  · exact KsServer.owned_congr hacted.listenFd fun j => ⟨(hacted.slots j).1, (hacted.slots j).2.1⟩
  · cases hact with
    | command line env hused hp =>
      rw [(handleCommand_spec hok hp line env).rest]
    | _ => rfl

/-- What is done for a slot takes nothing, and gives nothing back. -/
theorem KsServer.Accounted.acts (h₀ : s.Accounted h) (hok : s.Ok)
    (hacts : ReflTransGen (KsAct i) s s') : s'.Accounted h := by
  induction hacts with
  | refl => exact h₀
  | tail hacts hact ih => exact ih.act (acted_of_acts hok hacts).ok hact

/-- The turn of a slot, up to the question whether to close, is a sequence of
acts. -/
theorem turnEnd_acts (hok : s.Ok) (hused : (s.clients i).used = true) {readFds : Nat → Bool}
    (hopen : readFds (s.clients i).fd = true → (s.clients i).closeAfterWrite = false)
    (writeFds : Nat → Bool) (t : KsTurn) :
    ReflTransGen (KsAct i) s (turnEnd s i readFds writeFds t).1 := by
  have hread := (turnRead_spec hok hused hopen t.recvs).acts
  unfold turnEnd
  dsimp only
  generalize turnRead s i (readFds (s.clients i).fd) t.recvs = r at *
  obtain ⟨s₁, failed⟩ := r
  have hacted := acted_of_acts hok hread
  dsimp only at hread hacted ⊢
  cases hstop : (s.clients i).dropConnection || failed with
  | true => exact hread
  | false =>
    have hd : (s₁.clients i).dropConnection = false := by
      rw [hacted.dropConnection]
      exact (Bool.or_eq_false_iff.mp hstop).1
    have hwrite := (turnWrite_spec hacted.ok (hacted.used.trans hused) hd
      (writeFds (s.clients i).fd) t.sends).acts
    simp only [Bool.false_eq_true, if_false]
    generalize turnWrite s₁ i (writeFds (s.clients i).fd) t.sends = r at *
    obtain ⟨s₂, failed'⟩ := r
    have hacted₂ := hacted.trans (acted_of_acts hacted.ok hwrite)
    dsimp only at hwrite hacted₂ ⊢
    cases failed' with
    | true => exact hread.trans hwrite
    | false =>
      exact (hread.trans hwrite).trans
        (turnProcess_spec hacted₂.ok (hacted₂.used.trans hused) t.env).acts

/-- A slot that is closed. -/
theorem KsServer.Accounted.close (h₀ : s.Accounted h) (i : Fin cfg.maxClients)
    (hdisjoint : s.Disjoint) :
    (closeClient s i).Accounted (clientResetHeld h i (s.clients i)) := by
  have hoffered : (clientResetHeld h i (s.clients i)).offered = h.offered := by
    unfold clientResetHeld
    cases (s.clients i).used <;> rfl
  have hmetrics : (closeClient s i).metrics.totalConnections = s.metrics.totalConnections ∧
      (closeClient s i).metrics.rejectedConnections = s.metrics.rejectedConnections := by
    simp only [closeClient, KsServer.resetClient]
    split <;> exact ⟨rfl, rfl⟩
  have howned : (closeClient s i).owned = s.owned \ (s.clients i).owned i :=
    KsServer.owned_reset rfl rfl hdisjoint
  refine ⟨?_, fun fd hfd => ?_, by rw [hmetrics.1, hmetrics.2, hoffered]; exact h₀.offered⟩
  · rw [howned]
    exact clientResetHeld_owns h₀.owns (s.owned_slot_subset i)
  · rw [howned] at hfd
    exact h₀.small fd (Finset.mem_sdiff.mp hfd).1

/-- **The turn of a slot** gives back what the slot holds when it is closed. -/
theorem clientTurnHeld_accounted (h₀ : s.Accounted h) (hconn : s.Connected) {readFds : Nat → Bool}
    (hreads : s.ReadsOpen i readFds) (writeFds : Nat → Bool) (t : KsTurn) :
    (clientTurnHeld s h i readFds writeFds t).1.Accounted
      (clientTurnHeld s h i readFds writeFds t).2 := by
  by_cases hused : (s.clients i).used = true
  · have hacts := turnEnd_acts hconn.reached.ok hused (hreads i (le_refl _) hused) writeFds t
    rw [clientTurnHeld, if_neg (not_not_intro hused)]
    generalize turnEnd s i readFds writeFds t = r at *
    obtain ⟨s₁, shouldClose⟩ := r
    have hacted := acted_of_acts hconn.reached.ok hacts
    have haccounted : s₁.Accounted h := h₀.acts hconn.reached.ok hacts
    cases shouldClose with
    | false => exact haccounted
    | true =>
      refine haccounted.close i (hconn.disjoint.of_slots hacted.listenFd fun j hj => ?_)
      obtain ⟨hj', hfd, -⟩ := hacted.slots j
      exact ⟨hj' ▸ hj, hfd⟩
  · rw [clientTurnHeld, if_pos hused]
    exact h₀

/-! ## the end -/

/-- What is left in use by the reset of one slot. -/
theorem used_shutdownSlot {j : Fin cfg.maxClients}
    (hj : ((shutdownSlot s i).clients j).used = true) :
    j ≠ i ∧ (shutdownSlot s i).clients j = s.clients j := by
  by_cases hused : (s.clients i).used = true
  · have hclients : (shutdownSlot s i).clients = Function.update s.clients i KsClient.free := by
      rw [shutdownSlot, if_pos hused]
      rfl
    have hji : j ≠ i := by
      rintro rfl
      rw [hclients, Function.update_self] at hj
      cases hj
    exact ⟨hji, by rw [hclients, Function.update_of_ne hji]⟩
  · have hsame : shutdownSlot s i = s := if_neg hused
    rw [hsame] at hj ⊢
    refine ⟨?_, rfl⟩
    rintro rfl
    exact hused hj

/-- The shutdown of a slot leaves the listener alone. -/
theorem listenFd_shutdownSlot (s : KsServer cfg) (i : Fin cfg.maxClients) :
    (shutdownSlot s i).listenFd = s.listenFd := by
  unfold shutdownSlot
  split <;> rfl

/-- **The reset of one slot.** -/
theorem shutdownSlotHeld_owns (h₀ : h.Owns s.owned) (hdisjoint : s.Disjoint)
    (i : Fin cfg.maxClients) :
    (clientResetHeld h i (s.clients i)).Owns (shutdownSlot s i).owned ∧
      (shutdownSlot s i).Disjoint := by
  have hreset := clientResetHeld_owns h₀ (s.owned_slot_subset i)
  have howned : (shutdownSlot s i).owned = s.owned \ (s.clients i).owned i := by
    by_cases hused : (s.clients i).used = true
    · rw [shutdownSlot, if_pos hused]
      exact KsServer.owned_reset rfl rfl hdisjoint
    · have hnothing : (s.clients i).owned i = ∅ := if_neg hused
      rw [shutdownSlot, if_neg hused, hnothing, Finset.sdiff_empty]
  rw [howned]
  refine ⟨hreset, hdisjoint.of_slots (listenFd_shutdownSlot s i) fun j hj => ?_⟩
  have hsame := (used_shutdownSlot hj).2
  rw [hsame] at hj ⊢
  exact ⟨hj, rfl⟩

/-- The reset of some slots. -/
theorem foldl_shutdownSlotHeld (slots : List (Fin cfg.maxClients)) (h₀ : h.Owns s.owned)
    (hdisjoint : s.Disjoint) :
    (slots.foldl shutdownSlotHeld (s, h)).2.Owns (slots.foldl shutdownSlotHeld (s, h)).1.owned ∧
      ∀ j, ((slots.foldl shutdownSlotHeld (s, h)).1.clients j).used = true →
        j ∉ slots ∧ (s.clients j).used = true := by
  induction slots generalizing s h with
  | nil => exact ⟨h₀, fun j hj => ⟨by simp, hj⟩⟩
  | cons i slots ih =>
    obtain ⟨howns, hdisjoint'⟩ := shutdownSlotHeld_owns h₀ hdisjoint i
    obtain ⟨howns', hused⟩ := ih howns hdisjoint'
    refine ⟨howns', fun j hj => ?_⟩
    obtain ⟨hmem, hj'⟩ := hused j hj
    obtain ⟨hji, hsame⟩ := used_shutdownSlot hj'
    rw [hsame] at hj'
    exact ⟨by simp [hji, hmem], hj'⟩

/-- **In the end nothing is held.** -/
theorem serverEnd_owns (h₀ : h.Owns s.owned) (hdisjoint : s.Disjoint) :
    (serverEnd s h).2.Owns ∅ := by
  have hfold := foldl_shutdownSlotHeld (List.finRange cfg.maxClients) h₀ hdisjoint
  unfold serverEnd
  generalize (List.finRange cfg.maxClients).foldl shutdownSlotHeld (s, h) = r at *
  obtain ⟨s', h'⟩ := r
  obtain ⟨howns, hused⟩ := hfold
  have hfree (j : Fin cfg.maxClients) : (s'.clients j).used = false := by
    rw [Bool.eq_false_iff]
    exact fun hj => (hused j hj).1 (List.mem_finRange j)
  have hmem (r : KsResource) :
      r ∈ s'.owned ↔ r = .descriptor s'.listenFd ∨ r = .store ∨ r = .pubsub ∨ r = .registry := by
    simp [KsServer.mem_owned, hfree]
  dsimp only at howns ⊢
  have hlistener : .descriptor s'.listenFd ∈ s'.owned.erase .registry := by simp [hmem]
  have hgive := (((howns.give (r := .registry) (by simp [hmem])).close hlistener).give (r := .store)
    (by simp [hmem])).give (r := .pubsub) (by simp [hmem])
  have hnothing : (((s'.owned.erase .registry).erase (.descriptor s'.listenFd)).erase .store).erase
      .pubsub = ∅ := by
    ext r
    simp only [Finset.mem_erase, hmem, Finset.notMem_empty, iff_false]
    tauto
  rwa [hnothing] at hgive

end

end Kessel
