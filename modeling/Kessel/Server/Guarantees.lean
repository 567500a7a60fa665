import Kessel.Server.Answers
import Kessel.Server.Run

/-!
# Kessel.Server.Guarantees

What holds in every state of the event loop.

* `Reachable.agreement` — slots, ids, subscriptions and metrics agree;
* `Reachable.requests_of_stream` — the requests of a connection are those of its
  stream, however the bytes arrive.
-/

namespace Kessel

open CStr (ascii)
open Relation (ReflTransGen)

variable {cfg : KsConfig}

/-! ## every state of the loop -/

section

variable {l l' : KsLoop cfg} {s s' : KsServer cfg} {i : Fin cfg.maxClients}

/-- What is left of the connections when the loop has been left. -/
theorem clients_shutdown (h : s.Ok) (j : Fin cfg.maxClients) :
    (shutdown s).clients j = if (s.clients j).used then KsClient.free else s.clients j := by
  have hspec := shutdown_spec h
  split
  · next hused => exact (hspec.reset j (List.mem_finRange j) hused).1
  · next hused => exact hspec.rest j (.inr (by simpa using hused))

/-- A shutdown only moves the histories. -/
theorem history_shutdown (h : s.Ok) {history : List KsEvent} (hmem : (shutdown s).History history) :
    history = [] ∨ s.History history := by
  rcases hmem with ⟨j, rfl⟩ | hmem
  · rw [clients_shutdown h j]
    split
    · exact .inl rfl
    · exact .inr (.inl ⟨j, rfl⟩)
  · rcases (shutdown_spec h).closed history hmem with hmem | ⟨j, -, rfl⟩
    · exact .inr (.inr hmem)
    · exact .inr (.inl ⟨j, rfl⟩)

/-- A state of the loop is in order, and so are its connections. -/
theorem KsLoop.Reachable.cases (h : l.Reachable) :
    (l.phase ≠ .stopped ∧ l.server.Connected) ∨
      (l.phase = .stopped ∧ ∃ s : KsServer cfg, s.Connected ∧ l.server = shutdown s) := by
  by_cases hstop : l.phase = .stopped
  · exact .inr ⟨hstop, h.stopped hstop⟩
  · exact .inl ⟨hstop, h.connected hstop⟩

/-- Every reachable state is in order. -/
theorem KsLoop.Reachable.ok (h : l.Reachable) : l.server.Ok := by
  rcases h.cases with ⟨-, hconn⟩ | ⟨-, s, hconn, heq⟩
  · exact hconn.reached.ok
  · rw [heq]
    exact (shutdown_spec hconn.reached.ok).ok

theorem KsLoop.Reachable.flow (h : l.Reachable) (j : Fin cfg.maxClients) :
    (l.server.clients j).Flow := by
  rcases h.cases with ⟨-, hconn⟩ | ⟨-, s, hconn, heq⟩
  · exact hconn.flow j
  · rw [heq, clients_shutdown hconn.reached.ok j]
    split
    · exact flow_free
    · exact hconn.flow j

/-- What holds of every history of a state of the server holds in every state of
the loop. -/
theorem KsLoop.Reachable.histories {P : List KsEvent → Prop} (h : l.Reachable) (hnil : P [])
    (hserver : ∀ s : KsServer cfg, s.Connected → ∀ history, s.History history → P history)
    {history : List KsEvent} (hmem : l.server.History history) : P history := by
  rcases h.cases with ⟨-, hconn⟩ | ⟨-, s, hconn, heq⟩
  · exact hserver _ hconn history hmem
  · rw [heq] at hmem
    rcases history_shutdown hconn.reached.ok hmem with rfl | hmem
    · exact hnil
    · exact hserver s hconn history hmem

/-- Every history has been served. -/
theorem KsServer.Connected.served (h : s.Connected) {history : List KsEvent}
    (hmem : s.History history) : Served history := by
  rcases hmem with ⟨j, rfl⟩ | hmem
  · exact (h.flow j).framed.toServed
  · exact (h.closed history hmem).1

theorem KsLoop.Reachable.served (h : l.Reachable) {history : List KsEvent}
    (hmem : l.server.History history) : Served history :=
  h.histories (P := Served) ⟨by simp [requestsOf, requestStream], by simp⟩
    (fun _ hconn _ hmem => hconn.served hmem) hmem

end

/-! ## a run -/

/-- A server for two clients. -/
def pairConfig : KsConfig := ⟨2, by decide, by decide⟩

/-- Its slots. -/
def firstSlot : Fin pairConfig.maxClients := ⟨0, by decide⟩

def secondSlot : Fin pairConfig.maxClients := ⟨1, by decide⟩

/-- One iteration of its loop. -/
def iteration (s : KsServer pairConfig) (readFds writeFds : Nat → Bool) (accepts : List KsAccept)
    (t₀ t₁ : KsTurn) : KsServer pairConfig :=
  let s := acceptPhase (startIteration s 0) readFds accepts
  clientTurn (clientTurn s firstSlot readFds writeFds t₀) secondSlot readFds writeFds t₁

/-- One iteration with two turns. -/
theorem reachable_iteration {s : KsServer pairConfig} (h : KsLoop.Reachable ⟨s, .top⟩)
    {readFds writeFds : Nat → Bool} (hread : ∀ fd, readFds fd = true → s.WatchedForReading fd)
    (hwrite : ∀ fd, writeFds fd = true → s.WatchedForWriting fd) {accepts : List KsAccept}
    (hfresh : FreshFds (startIteration s 0) accepts) (t₀ t₁ : KsTurn) :
    KsLoop.Reachable ⟨iteration s readFds writeFds accepts t₀ t₁, .top⟩ := by
  have hselect := h.step (.select s 0 readFds writeFds hread hwrite)
  have haccept := hselect.step (.accept _ readFds writeFds accepts hfresh)
  have hfirst := haccept.step (.turn _ firstSlot readFds writeFds t₀)
  have hsecond := hfirst.step (.turn _ secondSlot readFds writeFds t₁)
  exact hsecond.step (.next _ readFds writeFds)

/-- A turn in which the sockets say nothing. -/
def idle : KsTurn := ⟨[], [], fun _ => ⟨fun _ => true, .constant 0, 0⟩⟩

/-- The server when a connection has been accepted, -/
def acceptedServer : KsServer pairConfig :=
  iteration (ksServerInit pairConfig 3 0) (fun fd => fd = 3) (fun _ => false)
    [.ok 5 fun _ => true] idle idle

/-- when the end of an unterminated line has been read from it, -/
def readServer : KsServer pairConfig :=
  iteration acceptedServer (fun fd => fd = 5) (fun _ => false) []
    { idle with recvs := [.ok (ascii "PI") idle.env, .closed] } idle

/-- and when the answer has been sent. -/
def servedServer : KsServer pairConfig :=
  iteration readServer (fun _ => false) (fun fd => fd = 5) [] { idle with sends := [.ok 100] } idle

/-- The connection has been accepted. -/
theorem reachable_acceptedServer : KsLoop.Reachable ⟨acceptedServer, .top⟩ := by
  refine reachable_iteration (.init 3 0) (fun fd hfd => ?_) (by simp) ?_ idle idle
  · obtain rfl : fd = 3 := by simpa using hfd
    exact .inl ⟨rfl, rfl⟩
  · refine ⟨⟨by decide, fun j hj => ?_⟩, trivial⟩
    rw [clients_startIteration] at hj
    cases hj

/-- Its input has ended. -/
theorem reachable_readServer : KsLoop.Reachable ⟨readServer, .top⟩ := by
  refine reachable_iteration reachable_acceptedServer (fun fd hfd => ?_) (by simp)
    (show FreshFds _ [] from trivial) _ idle
  obtain rfl : fd = 5 := by simpa using hfd
  exact .inr ⟨firstSlot, by decide⟩

/-- Its reply has been sent, and it is closed. -/
theorem reachable_servedServer : KsLoop.Reachable ⟨servedServer, .top⟩ := by
  refine reachable_iteration reachable_readServer (by simp) (fun fd hfd => ?_)
    (show FreshFds _ [] from trivial) _ idle
  obtain rfl : fd = 5 := by simpa using hfd
  exact ⟨firstSlot, by decide⟩

/-! ## registry and connections agree -/

section

variable {l l' : KsLoop cfg} {s s' : KsServer cfg} {i : Fin cfg.maxClients}

/-- Behind the loop no slot is used and nothing is subscribed. -/
theorem KsServer.Agrees.shutdown (h : s.Agrees) (hok : s.Ok) :
    (∀ j, ((shutdown s).clients j).used = false) ∧
      ∀ channel, (shutdown s).pubsub.subscribersOf channel = [] := by
  refine ⟨fun j => ?_, fun channel => List.eq_nil_iff_forall_not_mem.mpr fun x hx => ?_⟩
  · rw [clients_shutdown hok j]
    split
    · rfl
    · next hused => simpa using hused
  · obtain ⟨hmem, hids⟩ := (shutdown_spec hok).subscribers channel x hx
    obtain ⟨j, hused, hid⟩ := h.subscribed channel x hmem
    exact hids j (List.mem_finRange j) hused hid

/-- **Registry and connections agree** in every state of the event loop. -/
theorem KsLoop.Reachable.agreement (h : l.Reachable) (hlt : l.server.accepted < 2 ^ 64 - 1) :
    (∀ j, (l.server.clients j).used = true →
      (l.server.clients j).id ≠ 0 ∧ (l.server.clients j).fd < fdSetSize) ∧
    (∀ j k, (l.server.clients j).used = true → (l.server.clients k).used = true →
      (l.server.clients j).id = (l.server.clients k).id → j = k) ∧
    (∀ channel x, x ∈ l.server.pubsub.subscribersOf channel →
      x ≠ l.server.nextClientId ∧
        ∃! j, (l.server.clients j).used = true ∧ (l.server.clients j).id = x) ∧
    (l.phase ≠ .stopped →
      l.server.metrics.connectedClients.toNat = l.server.usedSlots.card ∧
      l.server.usedSlots.card ≤ cfg.maxClients ∧
      (l.server.metrics.totalConnections - l.server.metrics.connectedClients).toNat =
        l.server.closed.length) ∧
    (l.phase = .stopped → l.server.usedSlots = ∅) := by
  rcases h.cases with ⟨hphase, hconn⟩ | ⟨hphase, s, hconn, heq⟩
  · have hagrees := hconn.reached.agrees hlt
    refine ⟨fun j hj => ⟨fun hzero => ?_, hagrees.fd_lt j hj⟩, hagrees.distinct, fun channel x hx => ?_,
      fun _ => ⟨hagrees.connected, card_usedSlots_le _, ?_⟩, fun hstop => absurd hstop hphase⟩
    · have hpos := hagrees.id_pos j hj
      rw [hzero] at hpos
      exact absurd hpos (by decide)
    · obtain ⟨j, hused, hid⟩ := hagrees.subscribed channel x hx
      refine ⟨fun hnext => hagrees.fresh.2 channel (hnext ▸ hx), j, ⟨hused, hid⟩, ?_⟩
      rintro k ⟨hk, hkid⟩
      exact hagrees.distinct k j hk hused (hkid.trans hid.symm)
    · have hconnected := hagrees.connected
      have htotal := hagrees.total
      rw [UInt64.toNat_sub_of_le _ _ (by rw [UInt64.le_iff_toNat_le]; omega)]
      omega
  · have haccepted := (shutdown_spec hconn.reached.ok).accepted
    rw [heq, haccepted] at hlt
    obtain ⟨hslots, hsubscribers⟩ :=
      (hconn.reached.agrees hlt).shutdown hconn.reached.ok
    rw [heq]
    refine ⟨fun j hj => ?_, fun j k hj => ?_, fun channel x hx => ?_, fun hrun => absurd hphase hrun,
      fun _ => ?_⟩
    · rw [hslots j] at hj
      cases hj
    · rw [hslots j] at hj
      cases hj
    · rw [hsubscribers channel] at hx
      cases hx
    · ext j
      simp [hslots j]

end

/-- The server when two connections have been accepted, -/
def pairServer : KsServer pairConfig :=
  iteration (ksServerInit pairConfig 3 0) (fun fd => fd = 3) (fun _ => false)
    [.ok 5 fun _ => true, .ok 6 fun _ => true] idle idle

/-- when the first has subscribed to a channel and the second has gone, -/
def halfServer : KsServer pairConfig :=
  iteration pairServer (fun fd => fd = 5 ∨ fd = 6) (fun _ => false) []
    { idle with recvs := [.ok (ascii "SUBSCRIBE c\n") idle.env] } { idle with recvs := [.closed] }

/-- and when a third one has taken its slot. -/
def refilledServer : KsServer pairConfig :=
  iteration halfServer (fun fd => fd = 3) (fun _ => false) [.ok 6 fun _ => true] idle idle

/-- Two connections are there. -/
theorem reachable_pairServer : KsLoop.Reachable ⟨pairServer, .top⟩ := by
  refine reachable_iteration (.init 3 0) (fun fd hfd => ?_) (by simp) ?_ idle idle
  · obtain rfl : fd = 3 := by simpa using hfd
    exact .inl ⟨rfl, rfl⟩
  · refine ⟨⟨by decide, fun j hj => ?_⟩, ⟨by decide +kernel, by decide +kernel⟩, trivial⟩
    rw [clients_startIteration] at hj
    cases hj

/-- One of them is closed. -/
theorem reachable_halfServer : KsLoop.Reachable ⟨halfServer, .top⟩ := by
  refine reachable_iteration reachable_pairServer (fun fd hfd => .inr ?_) (by simp)
    (show FreshFds _ [] from trivial) _ _
  rcases of_decide_eq_true hfd with rfl | rfl
  · exact ⟨firstSlot, by decide +kernel⟩
  · exact ⟨secondSlot, by decide +kernel⟩

/-- And its slot is used again. -/
theorem reachable_refilledServer : KsLoop.Reachable ⟨refilledServer, .top⟩ := by
  refine reachable_iteration reachable_halfServer (fun fd hfd => ?_) (by simp)
    (show FreshFds _ [.ok 6 fun _ => true] from ⟨⟨by decide +kernel, by decide +kernel⟩, trivial⟩)
    idle idle
  obtain rfl : fd = 3 := by simpa using hfd
  exact .inl (by decide +kernel)

/-- Two connections, one closed, and one subscription. -/
theorem refilledServer_state : refilledServer.accepted < 2 ^ 64 - 1 ∧
    refilledServer.usedSlots.card = 2 ∧ refilledServer.closed.length = 1 ∧
    1 ∈ refilledServer.pubsub.subscribersOf (.ofBytes (ascii "c")) := by
  decide +kernel

/-- Two clients are connected, one is subscribed, and one has gone. -/
theorem agreement_refilledServer :
    refilledServer.metrics.connectedClients.toNat = refilledServer.usedSlots.card ∧
      refilledServer.usedSlots.card = 2 ∧
      (refilledServer.metrics.totalConnections - refilledServer.metrics.connectedClients).toNat =
        refilledServer.closed.length ∧ refilledServer.closed.length = 1 ∧
      1 ∈ refilledServer.pubsub.subscribersOf (.ofBytes (ascii "c")) ∧
      ∃! j, (refilledServer.clients j).used = true ∧ (refilledServer.clients j).id = 1 := by
  have hreachable := reachable_refilledServer
  obtain ⟨hlt, hcard, hlen, hsubscribed⟩ := refilledServer_state
  generalize refilledServer = s at *
  obtain ⟨-, -, hsubscriptions, hmetrics, -⟩ := KsLoop.Reachable.agreement hreachable hlt
  obtain ⟨hconnected, -, hclosed⟩ := hmetrics (by simp)
  exact ⟨hconnected, hcard, hclosed, hlen, hsubscribed, (hsubscriptions _ 1 hsubscribed).2⟩

/-! ## the requests of a stream -/

section

variable {l : KsLoop cfg}

/-- Whatever was logged in a reachable state is answered. -/
theorem KsLoop.Reachable.answered (h : l.Reachable) {history : List KsEvent}
    (hmem : l.server.History history) : Answered history :=
  h.histories (P := Answered) answered_nil (fun _ hconn _ hmem => hconn.reached.answered hmem) hmem

/-- **Request framing does not depend on how bytes arrive.**  Whatever has been
received of a stream, the requests taken up so far are a front of those of the
stream, and those that are not dispatched are answered at once; they are all of
them when the connection is closed without having been dropped or failed, and as
soon as its input is closed.  A request that ends the sequence closes it. -/
theorem KsLoop.Reachable.requests_of_stream (h : l.Reachable) {history : List KsEvent}
    (hmem : l.server.History history) {stream : List UInt8}
    (hsent : receivedBytes history <+: stream) (heof : .eof ∈ history → receivedBytes history = stream) :
    requestsOf history <+: requestStream stream ∧ Answered history ∧
    (l.phase ≠ .stopped → history ∈ l.server.closed → .dropped ∉ history → .failed ∉ history →
      requestsOf history = requestStream stream) ∧
    ∀ j, history = (l.server.clients j).history →
      ((l.server.clients j).closeAfterWrite = true → requestsOf history = requestStream stream) ∧
      (.tooLarge ∈ requestsOf history ∨ .incomplete ∈ requestsOf history →
        (l.server.clients j).closeAfterWrite = true) := by
  obtain ⟨rest, rfl⟩ := hsent
  have hrest : .eof ∈ history → rest = [] := fun hend => by simpa using heof hend
  refine ⟨(h.served hmem).requests rest hrest, h.answered hmem, fun hrun hclosed hdrop hfail => ?_,
    ?_⟩
  · have hended := ((h.connected hrun).closed history hclosed).2
    rcases hended with hdropped | hfailed | hfinished
    · exact absurd hdropped hdrop
    · exact absurd hfailed hfail
    · exact (hfinished rest hrest).symm
  · rintro j rfl
    have hframed := (h.flow j).framed
    refine ⟨fun hclosing => ((hframed.closing hclosing).2 rest hrest).symm, fun hend => ?_⟩
    rw [← Bool.not_eq_false]
    intro hopen
    have hreading := hframed.reading hopen
    exact hend.elim (hreading.not_ended (.inl rfl)) (hreading.not_ended (.inr rfl))

/-- The client sent an unterminated line and closed. -/
theorem requests_of_stream_servedServer :
    requestsOf (servedServer.closed.headD []) = requestStream (ascii "PI") := by
  have hmem : servedServer.closed.headD [] ∈ servedServer.closed := by decide
  have hstream := KsLoop.Reachable.requests_of_stream reachable_servedServer (.inr hmem)
    (show receivedBytes (servedServer.closed.headD []) <+: ascii "PI" by decide)
    (fun _ => by decide)
  exact hstream.2.2.1 (by simp) hmem (by decide) (by decide)

end

end Kessel
