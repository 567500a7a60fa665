import Kessel.Server.Step

/-!
# Kessel.Server.Agreement

Slots, ids, subscriptions and metrics agree.

`KsServer.Agrees` ties the slot array to the id counter, the registry and the
metrics.  As long as the counter has not wrapped around, every step of the
server keeps it: `Reached.agrees`.

* `Agrees.slotOf_id` — the slot found for the id of a connection is its own.
* `Reached.countsConnections` — the metric of all connections counts them, in 64 bits.
-/

namespace Kessel

variable {cfg : KsConfig}

/-! ## the invariant -/

/-- The slots that are in use. -/
def KsServer.usedSlots (s : KsServer cfg) : Finset (Fin cfg.maxClients) :=
  Finset.univ.filter fun i => (s.clients i).used = true

/-- Slots, id counter, registry and metrics agree. -/
structure KsServer.Agrees (s : KsServer cfg) : Prop where
  nextClientId : s.nextClientId.toNat = s.accepted + 1
  id_pos : ∀ i, (s.clients i).used = true → 0 < (s.clients i).id.toNat
  id_le : ∀ i, (s.clients i).used = true → (s.clients i).id.toNat ≤ s.accepted
  distinct : ∀ i j, (s.clients i).used = true → (s.clients j).used = true →
    (s.clients i).id = (s.clients j).id → i = j
  fd_lt : ∀ i, (s.clients i).used = true → (s.clients i).fd < fdSetSize
  subscribed : ∀ channel x, x ∈ s.pubsub.subscribersOf channel →
    ∃ i, (s.clients i).used = true ∧ (s.clients i).id = x
  connected : s.metrics.connectedClients.toNat = s.usedSlots.card
  total : s.metrics.totalConnections.toNat = s.usedSlots.card + s.closed.length
  total_le : s.usedSlots.card + s.closed.length ≤ s.accepted

section

variable {s s' : KsServer cfg} {i : Fin cfg.maxClients}

@[simp] theorem mem_usedSlots : i ∈ s.usedSlots ↔ (s.clients i).used = true := by
  simp [KsServer.usedSlots]

/-- Slots in use are those that were. -/
theorem usedSlots_congr (h : ∀ j, (s'.clients j).used = (s.clients j).used) :
    s'.usedSlots = s.usedSlots := by
  ext j
  rw [mem_usedSlots, mem_usedSlots, h j]

/-- There are no more connections than slots. -/
theorem card_usedSlots_le (s : KsServer cfg) : s.usedSlots.card ≤ cfg.maxClients := by
  simpa using Finset.card_le_univ s.usedSlots

/-- A free slot that is filled. -/
theorem card_usedSlots_insert (hfree : (s.clients i).used = false)
    (h : s'.clients = Function.update s.clients i (s'.clients i))
    (hused : (s'.clients i).used = true) : s'.usedSlots.card = s.usedSlots.card + 1 := by
  have hinsert : s'.usedSlots = insert i s.usedSlots := by
    ext j
    rw [mem_usedSlots, Finset.mem_insert, mem_usedSlots]
    by_cases hj : j = i
    · simp [hj, hused]
    · rw [h, Function.update_of_ne hj]
      simp [hj]
  rw [hinsert, Finset.card_insert_of_notMem (by simp [hfree])]

/-- A used slot that is reset. -/
theorem card_usedSlots_erase (hused : (s.clients i).used = true)
    (h : s'.clients = Function.update s.clients i (s'.clients i))
    (hfree : (s'.clients i).used = false) : s'.usedSlots.card + 1 = s.usedSlots.card := by
  have herase : s'.usedSlots = s.usedSlots.erase i := by
    ext j
    rw [mem_usedSlots, Finset.mem_erase, mem_usedSlots]
    by_cases hj : j = i
    · simp [hj, hfree]
    · rw [h, Function.update_of_ne hj]
      simp [hj]
  rw [herase, Finset.card_erase_add_one (by simpa using hused)]

/-- Where slots and registry agree, the slot found for the id of a connection is
its own. -/
theorem KsServer.Agrees.slotOf_id (h : s.Agrees) (hused : (s.clients i).used = true) :
    slotOf s.clients (s.clients i).id = some i := by
  cases hslot : slotOf s.clients (s.clients i).id with
  | none => exact absurd rfl (slotOf_eq_none.mp hslot i hused)
  | some j =>
    obtain ⟨hj, hid⟩ := slotOf_eq_some hslot
    rw [h.distinct j i hj hused hid]

/-- No connection has had the next id, and nothing is subscribed for it. -/
theorem KsServer.Agrees.fresh (h : s.Agrees) :
    (∀ j, (s.clients j).used = true → (s.clients j).id ≠ s.nextClientId) ∧
      ∀ channel, s.nextClientId ∉ s.pubsub.subscribersOf channel := by
  have hids (j : Fin cfg.maxClients) (hj : (s.clients j).used = true) :
      (s.clients j).id ≠ s.nextClientId := by
    intro heq
    have hle := h.id_le j hj
    rw [heq, h.nextClientId] at hle
    omega
  refine ⟨hids, fun channel hmem => ?_⟩
  obtain ⟨j, hj, hid⟩ := h.subscribed channel _ hmem
  exact hids j hj hid

end

/-! ## every step keeps the agreement -/

section

variable {s s' : KsServer cfg} {i : Fin cfg.maxClients}

/-- A change that touches none of the fields that agree. -/
theorem KsServer.Agrees.of_eq (h : s.Agrees)
    (hslots : ∀ j, (s'.clients j).used = (s.clients j).used ∧ (s'.clients j).fd = (s.clients j).fd ∧
      (s'.clients j).id = (s.clients j).id)
    (hsubscribers : ∀ channel x, x ∈ s'.pubsub.subscribersOf channel →
      x ∈ s.pubsub.subscribersOf channel ∨ ∃ j, (s.clients j).used = true ∧ (s.clients j).id = x)
    (hconnected : s'.metrics.connectedClients = s.metrics.connectedClients)
    (htotal : s'.metrics.totalConnections = s.metrics.totalConnections)
    (hnext : s'.nextClientId = s.nextClientId) (haccepted : s'.accepted = s.accepted)
    (hclosed : s'.closed = s.closed) : s'.Agrees := by
  have hused : s'.usedSlots = s.usedSlots := usedSlots_congr fun j => (hslots j).1
  have hkeep (j : Fin cfg.maxClients) (hj : (s'.clients j).used = true) :
      (s.clients j).used = true := (hslots j).1 ▸ hj
  exact
    { nextClientId := by rw [hnext, haccepted, h.nextClientId]
      id_pos := by
        intro j hj
        rw [(hslots j).2.2]
        exact h.id_pos j (hkeep j hj)
      id_le := by
        intro j hj
        rw [(hslots j).2.2, haccepted]
        exact h.id_le j (hkeep j hj)
      distinct := by
        intro j k hj hk
        rw [(hslots j).2.2, (hslots k).2.2]
        exact h.distinct j k (hkeep j hj) (hkeep k hk)
      fd_lt := by
        intro j hj
        rw [(hslots j).2.1]
        exact h.fd_lt j (hkeep j hj)
      subscribed := by
        intro channel x hx
        have hslot : ∃ j, (s.clients j).used = true ∧ (s.clients j).id = x :=
          (hsubscribers channel x hx).elim (h.subscribed channel x) id
        obtain ⟨j, hj, hid⟩ := hslot
        exact ⟨j, (hslots j).1.trans hj, (hslots j).2.2.trans hid⟩
      connected := by rw [hconnected, hused, h.connected]
      total := by rw [htotal, hused, hclosed, h.total]
      total_le := by rw [hused, hclosed, haccepted]; exact h.total_le }

/-- What is done for one slot keeps the agreement. -/
theorem Acted.agrees (h : s.Agrees) (hacted : Acted i s s') (hused : (s.clients i).used = true) :
    s'.Agrees := by
  refine h.of_eq hacted.slots (fun channel x hx => ?_) hacted.connectedClients
    hacted.totalConnections hacted.nextClientId hacted.accepted hacted.closed
  exact (hacted.subscribers channel x hx).imp_right fun heq => ⟨i, hused, heq.symm⟩

/-- A closed connection leaves nothing in the registry. -/
theorem KsServer.Agrees.close (h : s.Agrees) (hwf : s.pubsub.Wf) (hused : (s.clients i).used = true) :
    (closeClient s i).Agrees := by
  have hclients : (closeClient s i).clients = Function.update s.clients i KsClient.free := rfl
  have hfree : ((closeClient s i).clients i).used = false := by simp [hclients, KsClient.free]
  have hcard := card_usedSlots_erase hused (by rw [hclients, Function.update_self]) hfree
  have hlen : (closeClient s i).closed.length = s.closed.length + 1 := by
    simp [closeClient, KsServer.resetClient]
  have hother {j : Fin cfg.maxClients} (hj : ((closeClient s i).clients j).used = true) :
      (s.clients j).used = true ∧ (closeClient s i).clients j = s.clients j := by
    have hne : j ≠ i := by
      rintro rfl
      rw [hfree] at hj
      cases hj
    rw [hclients, Function.update_of_ne hne] at hj ⊢
    exact ⟨hj, rfl⟩
  have hpos : 0 < s.metrics.connectedClients := by
    rw [UInt64.lt_iff_toNat_lt, h.connected]
    exact Finset.card_pos.mpr ⟨i, by simpa using hused⟩
  have hmetrics : (closeClient s i).metrics =
      { s.metrics with connectedClients := s.metrics.connectedClients - 1 } := if_pos hpos
  have hsub : (s.metrics.connectedClients - 1).toNat = s.metrics.connectedClients.toNat - 1 :=
    UInt64.toNat_sub_of_le _ _
      (by rw [UInt64.lt_iff_toNat_lt] at hpos; rw [UInt64.le_iff_toNat_le]; exact hpos)
  exact
    { nextClientId := h.nextClientId
      id_pos := by
        intro j hj
        rw [(hother hj).2]
        exact h.id_pos j (hother hj).1
      id_le := by
        intro j hj
        rw [(hother hj).2]
        exact h.id_le j (hother hj).1
      distinct := by
        intro j k hj hk
        rw [(hother hj).2, (hother hk).2]
        exact h.distinct j k (hother hj).1 (hother hk).1
      fd_lt := by
        intro j hj
        rw [(hother hj).2]
        exact h.fd_lt j (hother hj).1
      subscribed := by
        intro channel x hx
        have herase := (KsPubsub.subscribersOf_removeClient hwf (s.clients i).id).2 channel
        change x ∈ (ksPubsubRemoveClient s.pubsub (s.clients i).id).1.subscribersOf channel at hx
        rw [herase, (hwf.nodup_subscribersOf channel).mem_erase_iff] at hx
        obtain ⟨j, hj, hid⟩ := h.subscribed channel x hx.2
        have hne : j ≠ i := by
          rintro rfl
          exact hx.1 hid.symm
        refine ⟨j, ?_⟩
        rw [hclients, Function.update_of_ne hne]
        exact ⟨hj, hid⟩
      connected := by
        rw [hmetrics, hsub, h.connected]
        omega
      total := by
        rw [hmetrics, hlen, h.total]
        omega
      total_le := by
        have hle := h.total_le
        rw [hlen, show (closeClient s i).accepted = s.accepted from rfl]
        omega }

/-- An id that is taken leaves the next one fresh. -/
theorem KsServer.Agrees.takeClientId (h : s.Agrees) (hlt : s.accepted + 1 < 2 ^ 64 - 1) :
    s.takeClientId.nextClientId.toNat = s.takeClientId.accepted + 1 := by
  have hadd : (s.nextClientId + 1).toNat = s.accepted + 2 := by
    rw [UInt64.toNat_add, h.nextClientId, UInt64.toNat_one]
    omega
  have hne : s.nextClientId + 1 ≠ 0 := by
    intro hzero
    rw [hzero, UInt64.toNat_zero] at hadd
    omega
  simp only [KsServer.takeClientId, if_neg hne, hadd]

/-- A rejected connection may have used up an id. -/
theorem KsServer.Agrees.reject (h : s.Agrees) : s.reject.Agrees :=
  h.of_eq (fun _ => ⟨rfl, rfl, rfl⟩) (fun _ _ => .inl) rfl rfl rfl rfl rfl

/-- Taking an id keeps the agreement. -/
theorem KsServer.Agrees.take (h : s.Agrees) (hlt : s.accepted + 1 < 2 ^ 64 - 1) :
    s.takeClientId.Agrees where
  nextClientId := h.takeClientId hlt
  id_pos := h.id_pos
  id_le := fun j hj => Nat.le_succ_of_le (h.id_le j hj)
  distinct := h.distinct
  fd_lt := h.fd_lt
  subscribed := h.subscribed
  connected := h.connected
  total := h.total
  total_le := Nat.le_succ_of_le h.total_le

/-- A new connection has a new id. -/
theorem KsServer.Agrees.admitClient (h : s.Agrees) (hlt : s.accepted + 1 < 2 ^ 64 - 1) {fd : Nat}
    (hfree : (s.clients i).used = false) (hfd : fd < fdSetSize) : (s.admitClient i fd).Agrees := by
  have hclients : (s.admitClient i fd).clients =
      Function.update s.clients i (newClient fd s.nextClientId) := rfl
  have hself : (s.admitClient i fd).clients i = newClient fd s.nextClientId := by simp [hclients]
  have hother {j : Fin cfg.maxClients} (hj : j ≠ i) : (s.admitClient i fd).clients j = s.clients j := by
    rw [hclients, Function.update_of_ne hj]
  have hcard := card_usedSlots_insert hfree (by rw [hclients, Function.update_self])
    (show ((s.admitClient i fd).clients i).used = true by rw [hself]; rfl)
  have hle := h.total_le
  have hnext := h.nextClientId
  have hadd (n : UInt64) (hn : n.toNat ≤ s.accepted) : (n + 1).toNat = n.toNat + 1 := by
    rw [UInt64.toNat_add, UInt64.toNat_one]
    omega
  exact
    { nextClientId := h.takeClientId hlt
      id_pos := by
        intro j hj
        by_cases hji : j = i
        · rw [hji, hself, show (newClient fd s.nextClientId).id = s.nextClientId from rfl]
          omega
        · rw [hother hji] at hj ⊢
          exact h.id_pos j hj
      id_le := by
        intro j hj
        rw [show (s.admitClient i fd).accepted = s.accepted + 1 from rfl]
        by_cases hji : j = i
        · rw [hji, hself]
          exact hnext.le
        · rw [hother hji] at hj ⊢
          exact Nat.le_succ_of_le (h.id_le j hj)
      distinct := by
        intro j k hj hk heq
        by_cases hji : j = i <;> by_cases hki : k = i
        · rw [hji, hki]
        · rw [hji, hself, hother hki] at heq
          rw [hother hki] at hk
          exact absurd heq.symm (h.fresh.1 k hk)
        · rw [hki, hself, hother hji] at heq
          rw [hother hji] at hj
          exact absurd heq (h.fresh.1 j hj)
        · rw [hother hji, hother hki] at heq
          rw [hother hji] at hj
          rw [hother hki] at hk
          exact h.distinct j k hj hk heq
      fd_lt := by
        intro j hj
        by_cases hji : j = i
        · rw [hji, hself]
          exact hfd
        · rw [hother hji] at hj ⊢
          exact h.fd_lt j hj
      subscribed := by
        intro channel x hx
        obtain ⟨j, hj, hid⟩ := h.subscribed channel x hx
        have hne : j ≠ i := by
          rintro rfl
          rw [hfree] at hj
          cases hj
        refine ⟨j, ?_⟩
        rw [hother hne]
        exact ⟨hj, hid⟩
      connected := by
        have hconnected := h.connected
        rw [hcard, ← hconnected]
        exact hadd _ (by omega)
      total := by
        have htotal := h.total
        rw [hcard, show (s.admitClient i fd).closed = s.closed from rfl, Nat.add_right_comm, ← htotal]
        exact hadd _ (by omega)
      total_le := by
        rw [hcard, show (s.admitClient i fd).closed = s.closed from rfl,
          show (s.admitClient i fd).accepted = s.accepted + 1 from rfl]
        omega }

/-- Ids are only taken. -/
theorem accepted_acceptClient (s : KsServer cfg) (fd : Nat) (heap : KsHeap) :
    s.accepted ≤ (acceptClient s fd heap).accepted := by
  rcases acceptClient_cases s fd heap with heq | heq | ⟨slot, -, -, heq⟩ <;> rw [heq]
  · exact le_refl _
  · exact Nat.le_succ _
  · exact Nat.le_succ _

/-- **Accepting a connection keeps the agreement.** -/
theorem KsServer.Agrees.accept (h : s.Agrees) {fd : Nat} {heap : KsHeap}
    (hlt : (acceptClient s fd heap).accepted < 2 ^ 64 - 1) : (acceptClient s fd heap).Agrees := by
  rcases acceptClient_cases s fd heap with heq | heq | ⟨slot, hfree, hfd, heq⟩ <;> rw [heq] at hlt ⊢
  · exact h.reject
  · exact (h.take hlt).reject
  · exact h.admitClient hlt hfree hfd

/-! ## the states of the server -/

/-- The server starts in agreement. -/
theorem agrees_ksServerInit (listenFd : Nat) (startedAt : Int64) :
    (ksServerInit cfg listenFd startedAt).Agrees := by
  have hempty : (ksServerInit cfg listenFd startedAt).usedSlots = ∅ := by
    ext j
    simp [ksServerInit, KsClient.free]
  constructor
  case connected | total | total_le => rw [hempty]; simp [ksServerInit]
  case subscribed =>
    intro channel x hx
    simp [ksServerInit, ksPubsubCreate, KsPubsub.subscribersOf, findChannel] at hx
  all_goals simp [ksServerInit, KsClient.free]

/-- An iteration keeps the agreement. -/
theorem KsServer.Agrees.iterate (h : s.Agrees) (now : UInt64) : (startIteration s now).Agrees := by
  unfold startIteration
  generalize ksKvReap s.store ksReaperBudget now = r
  exact h.of_eq (fun _ => ⟨rfl, rfl, rfl⟩) (fun _ _ => .inl) rfl rfl rfl rfl rfl

/-- Every step only takes ids. -/
theorem KsServerStep.accepted_le (h : s.Ok) (hstep : KsServerStep s s') :
    s.accepted ≤ s'.accepted := by
  cases hstep with
  | act hact => exact (acted_of_act h hact).accepted.ge
  | close i hused => exact le_refl _
  | accept fd heap => exact accepted_acceptClient s fd heap
  | iterate now => rw [accepted_startIteration]
  | backoff ticks => exact le_refl _

/-- **Every step keeps slots, ids, registry and metrics in agreement**, as long as
the id counter does not wrap around. -/
theorem KsServerStep.agrees (hok : s.Ok) (h : s.Agrees) (hstep : KsServerStep s s')
    (hlt : s'.accepted < 2 ^ 64 - 1) : s'.Agrees := by
  cases hstep with
  | act hact => exact (acted_of_act hok hact).agrees h hact.used
  | close i hused => exact h.close hok.pubsub hused
  | accept fd heap => exact h.accept hlt
  | iterate now => exact h.iterate now
  | backoff ticks => exact h.of_eq (fun _ => ⟨rfl, rfl, rfl⟩) (fun _ _ => .inl) rfl rfl rfl rfl rfl

/-- Slots, ids, registry and metrics agree in every state of the server. -/
theorem KsServer.Reached.agrees (h : s.Reached) (hlt : s.accepted < 2 ^ 64 - 1) : s.Agrees := by
  induction h with
  | init listenFd startedAt => exact agrees_ksServerInit listenFd startedAt
  | step hreached hstep ih =>
    have hle := hstep.accepted_le hreached.ok
    exact hstep.agrees hreached.ok (ih (by omega)) hlt

/-! ## the connections there were -/

/-- The metric of all connections, whose 64 bits may have wrapped around, counts
the slots in use and the connections closed since. -/
def KsServer.CountsConnections (s : KsServer cfg) : Prop :=
  s.metrics.totalConnections = UInt64.ofNat (s.usedSlots.card + s.closed.length)

/-- A change of neither. -/
theorem KsServer.CountsConnections.of_eq (h : s.CountsConnections)
    (hslots : ∀ j, (s'.clients j).used = (s.clients j).used)
    (htotal : s'.metrics.totalConnections = s.metrics.totalConnections)
    (hclosed : s'.closed = s.closed) : s'.CountsConnections := by
  rw [CountsConnections, htotal, usedSlots_congr hslots, hclosed]
  exact h

/-- A closed connection leaves its slot and stays counted. -/
theorem KsServer.CountsConnections.close (h : s.CountsConnections)
    (hused : (s.clients i).used = true) : (closeClient s i).CountsConnections := by
  have hclients : (closeClient s i).clients = Function.update s.clients i KsClient.free := rfl
  have hcard := card_usedSlots_erase hused (by rw [hclients, Function.update_self])
    (show ((closeClient s i).clients i).used = false by simp [hclients, KsClient.free])
  have hlen : (closeClient s i).closed.length = s.closed.length + 1 := by
    simp [closeClient, KsServer.resetClient]
  have htotal : (closeClient s i).metrics.totalConnections = s.metrics.totalConnections := by
    simp only [closeClient, KsServer.resetClient]
    split <;> rfl
  rw [CountsConnections, htotal, hlen, h, ← hcard, Nat.add_right_comm, Nat.add_assoc]

/-- A new connection fills a slot and is counted, any other is neither. -/
theorem KsServer.CountsConnections.accept (h : s.CountsConnections) (fd : Nat) (heap : KsHeap) :
    (acceptClient s fd heap).CountsConnections := by
  rcases acceptClient_cases s fd heap with heq | heq | ⟨slot, hfree, -, heq⟩ <;> rw [heq]
  · exact h.of_eq (fun _ => rfl) rfl rfl
  · exact h.of_eq (fun _ => rfl) rfl rfl
  · have hclients : (s.admitClient slot fd).clients =
        Function.update s.clients slot (newClient fd s.nextClientId) := rfl
    have hcard := card_usedSlots_insert hfree (by rw [hclients, Function.update_self])
      (show ((s.admitClient slot fd).clients slot).used = true by simp [hclients, newClient])
    have htotal : (s.admitClient slot fd).metrics.totalConnections =
        s.metrics.totalConnections + 1 := rfl
    have hclosed : (s.admitClient slot fd).closed = s.closed := rfl
    rw [CountsConnections, htotal, hclosed, h, hcard, Nat.add_right_comm]
    exact (UInt64.ofNat_add _ 1).symm

/-- **Every step counts its connections.** -/
theorem KsServerStep.countsConnections (hok : s.Ok) (h : s.CountsConnections)
    (hstep : KsServerStep s s') : s'.CountsConnections := by
  cases hstep with
  | act hact =>
    have hacted := acted_of_act hok hact
    exact h.of_eq (fun j => (hacted.slots j).1) hacted.totalConnections hacted.closed
  | close i hused => exact h.close hused
  | accept fd heap => exact h.accept fd heap
  | iterate now =>
    unfold startIteration
    generalize ksKvReap s.store ksReaperBudget now = r
    exact h.of_eq (fun _ => rfl) rfl rfl
  | backoff ticks => exact h.of_eq (fun _ => rfl) rfl rfl

/-- The metric counts the connections in every state of the server, however many
there were. -/
theorem KsServer.Reached.countsConnections (h : s.Reached) : s.CountsConnections := by
  induction h with
  | init listenFd startedAt =>
    have hempty : (ksServerInit cfg listenFd startedAt).usedSlots = ∅ := by
      ext j
      simp [ksServerInit, KsClient.free]
    rw [KsServer.CountsConnections, hempty]
    rfl
  | step hreached hstep ih => exact hstep.countsConnections hreached.ok ih

end

end Kessel
