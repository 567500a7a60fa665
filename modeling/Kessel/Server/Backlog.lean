import Kessel.Server.Lines
import Kessel.Server.Totals

/-!
# Kessel.Server.Backlog

Connections that do not read.

The output of a connection that does not read grows, by its own replies up to
the high-water mark and by the messages of others beyond it.  Its requests then
wait in the input buffer, and a message that finds no room drops it.

* `Reachable.no_stall` — no request waits that could be served;
* `Reachable.dropped_dead` — a dropped connection is dead until it is reset.
-/

namespace Kessel

open CStr (ascii)
open Relation (ReflTransGen)

variable {cfg : KsConfig}

/-! ## a dropped connection is dead -/

section

variable {l l' : KsLoop cfg} {s s' : KsServer cfg} {i : Fin cfg.maxClients}

/-- Accepting closes nothing, and leaves the connections as they are. -/
theorem closed_acceptClients (s : KsServer cfg) (budget : Nat) (accepts : List KsAccept) :
    (acceptClients s budget accepts).1.closed = s.closed ∧
      ∀ j, (s.clients j).used = true → (acceptClients s budget accepts).1.clients j = s.clients j := by
  induction budget generalizing s accepts with
  | zero => exact ⟨rfl, fun _ _ => rfl⟩
  | succ budget ih =>
    cases accepts with
    | nil => exact ⟨rfl, fun _ _ => rfl⟩
    | cons accept accepts =>
      cases accept with
      | wouldBlock => exact ⟨rfl, fun _ _ => rfl⟩
      | error => exact ⟨rfl, fun _ _ => rfl⟩
      | ok fd heap =>
        obtain ⟨hclosed, hclients⟩ := ih (acceptClient s fd heap) accepts
        rw [acceptClients]
        rcases acceptClient_cases s fd heap with heq | heq | ⟨slot, hfree, -, heq⟩ <;>
          rw [heq] at hclosed hclients ⊢
        · exact ⟨hclosed, hclients⟩
        · exact ⟨hclosed, hclients⟩
        · refine ⟨hclosed, fun j hj => ?_⟩
          have hne : j ≠ slot := by
            rintro rfl
            rw [hfree] at hj
            cases hj
          have hother : (s.admitClient slot fd).clients j = s.clients j := by
            simp [KsServer.admitClient, KsServer.setClient, KsServer.takeClientId, hne]
          rw [hclients j (by rw [hother]; exact hj), hother]

/-- So does the phase that accepts. -/
theorem closed_acceptPhase (s : KsServer cfg) (readFds : Nat → Bool) (accepts : List KsAccept) :
    (acceptPhase s readFds accepts).closed = s.closed ∧
      ∀ j, (s.clients j).used = true → (acceptPhase s readFds accepts).clients j = s.clients j := by
  have haccepts := closed_acceptClients s ksAcceptBudget accepts
  unfold acceptPhase
  split
  · generalize acceptClients s ksAcceptBudget accepts = r at *
    obtain ⟨s', result⟩ := r
    simp only at haccepts ⊢
    split <;> exact haccepts
  · exact ⟨rfl, fun _ _ => rfl⟩

/-- The turn of a slot forgets no closed connection, and does nothing to a
dropped one but close it in its own turn. -/
theorem clientTurn_dead (h : s.Connected) {readFds : Nat → Bool} (hreads : s.ReadsOpen i readFds)
    (writeFds : Nat → Bool) (t : KsTurn) :
    s.closed ⊆ (clientTurn s i readFds writeFds t).closed ∧
      ∀ j, (s.clients j).dropConnection = true →
        (clientTurn s i readFds writeFds t).clients j = s.clients j ∨
          (s.clients j).history ∈ (clientTurn s i readFds writeFds t).closed := by
  by_cases hused : (s.clients i).used = true
  · obtain ⟨s₁, hacts, -, houtcome, hdead⟩ :=
      clientTurn_spec h.reached.ok hused (hreads i (le_refl _) hused) writeFds t
    have hacted := acted_of_acts h.reached.ok hacts
    have hclosed : (closeClient s₁ i).closed = s₁.closed ++ [(s₁.clients i).history] := rfl
    refine ⟨?_, fun j hd => ?_⟩
    · rcases houtcome with ⟨heq, -⟩ | ⟨heq, -⟩ <;> rw [heq]
      · rw [hclosed, hacted.closed]
        exact List.subset_append_left _ _
      · rw [hacted.closed]
        exact List.Subset.refl _
    · by_cases hj : j = i
      · subst hj
        obtain ⟨-, heq⟩ := hdead hd
        rw [heq]
        exact .inr (List.mem_append_right _ (List.mem_singleton_self _))
      · have hsame : s₁.clients j = s.clients j := (hacted.others j hj).dead hd
        rcases houtcome with ⟨heq, -⟩ | ⟨heq, -⟩ <;> rw [heq]
        · exact .inl (by simp [closeClient, KsServer.resetClient, hj, hsame])
        · exact .inl hsame
  · have hsame : clientTurn s i readFds writeFds t = s := by
      unfold clientTurn
      exact if_pos hused
    rw [hsame]
    exact ⟨List.Subset.refl _, fun _ _ => .inl rfl⟩

/-- No step forgets a closed connection, and none touches a dropped one but to
close it. -/
theorem KsLoopStep.dead (h : l.Reachable) (hstep : KsLoopStep l l') :
    l.server.closed ⊆ l'.server.closed ∧
      ∀ j, (l.server.clients j).used = true → (l.server.clients j).dropConnection = true →
        l'.server.clients j = l.server.clients j ∨
          (l.server.clients j).history ∈ l'.server.closed := by
  have hshutdown (s : KsServer cfg) (hok : s.Ok) : s.closed ⊆ (shutdown s).closed ∧
      ∀ j, (s.clients j).used = true → (shutdown s).clients j = s.clients j ∨
        (s.clients j).history ∈ (shutdown s).closed :=
    ⟨(shutdown_spec hok).subset,
      fun j hused => .inr ((shutdown_spec hok).reset j (List.mem_finRange j) hused).2⟩
  have hinv := h.inv
  cases hstep with
  | interrupted s now =>
    rw [closed_startIteration, clients_startIteration]
    exact ⟨List.Subset.refl _, fun _ _ _ => .inl rfl⟩
  | select s now readFds writeFds hread hwrite =>
    rw [closed_startIteration, clients_startIteration]
    exact ⟨List.Subset.refl _, fun _ _ _ => .inl rfl⟩
  | accept s readFds writeFds accepts hfresh =>
    obtain ⟨hclosed, hclients⟩ := closed_acceptPhase s readFds accepts
    rw [hclosed]
    exact ⟨List.Subset.refl _, fun j hused _ => .inl (hclients j hused)⟩
  | turn s i readFds writeFds t =>
    obtain ⟨hclosed, hdead⟩ := clientTurn_dead hinv.1 hinv.2 writeFds t
    exact ⟨hclosed, fun j _ => hdead j⟩
  | next s readFds writeFds => exact ⟨List.Subset.refl _, fun _ _ _ => .inl rfl⟩
  | stop s =>
    obtain ⟨hclosed, hclients⟩ := hshutdown s h.ok
    exact ⟨hclosed, fun j hused _ => hclients j hused⟩
  | fail s now =>
    obtain ⟨hclosed, hclients⟩ := hshutdown (startIteration s now) (KsServer.Ok.iterate h.ok now)
    rw [closed_startIteration, clients_startIteration] at *
    exact ⟨hclosed, fun j hused _ => hclients j hused⟩

/-- A run from a reachable state. -/
theorem KsLoop.Reachable.steps (h : l.Reachable) (hrun : ReflTransGen KsLoopStep l l') :
    l'.Reachable := by
  induction hrun with
  | refl => exact h
  | tail _ hstep ih => exact .step ih hstep

/-- **A dropped connection is dead.**  In every run of the loop from the state in
which `drop_connection` is set, the slot stays exactly as it is until it is
reset; and behind `dropped` no history has a request, a queued frame or a byte
sent. -/
theorem KsLoop.Reachable.dropped_dead (h : l.Reachable) :
    (∀ history, l.server.History history → Quiet history) ∧
      ∀ j, (.dropped ∈ (l.server.clients j).history ↔
          (l.server.clients j).dropConnection = true) ∧
        ((l.server.clients j).used = true → (l.server.clients j).dropConnection = true →
          ∀ l', ReflTransGen KsLoopStep l l' →
            l'.server.clients j = l.server.clients j ∨
              (l.server.clients j).history ∈ l'.server.closed) := by
  refine ⟨?_, fun j => ⟨(h.ok.clients j).dropped, fun hused hd l' hrun => ?_⟩⟩
  · rintro history (⟨j, rfl⟩ | hmem)
    · exact (h.ok.clients j).quiet
    · exact h.ok.closed history hmem
  · induction hrun with
    | refl => exact .inl rfl
    | tail hrun hstep ih =>
      obtain ⟨hclosed, hdead⟩ := hstep.dead (h.steps hrun)
      rcases ih with heq | hmem
      · have hnext := hdead j (by rw [heq]; exact hused) (by rw [heq]; exact hd)
        rwa [heq] at hnext
      · exact .inr (hclosed hmem)

end

/-! ## a connection that does not read -/

/-- The first of two connections has subscribed to a channel, and reads no more. -/
def quietServer : KsServer pairConfig :=
  iteration pairServer (fun fd => fd = 5) (fun _ => false) []
    { idle with recvs := [.ok (ascii "SUBSCRIBE c\n") idle.env] } idle

/-- A long message. -/
@[irreducible] def longWord : List UInt8 := List.replicate 60000 109

/-- The message of the flood has sixty thousand bytes. -/
theorem length_longWord : longWord.length = 60000 := by
  rw [longWord, List.length_replicate]

/-- All of them are the letter `m`. -/
theorem eq_of_mem_longWord {c : UInt8} (h : c ∈ longWord) : c = 109 := by
  rw [longWord] at h
  exact List.eq_of_mem_replicate h

/-- An iteration in which the second connection publishes it. -/
def flood (s : KsServer pairConfig) : KsServer pairConfig :=
  iteration s (fun fd => fd = 6) (fun _ => false) [] idle
    { idle with recvs := [.ok ((ascii "PUBLISH c " ++ longWord) ++ [10]) idle.env] }

/-- The message has been published `n` times to the first connection. -/
structure Flooded (n : Nat) (s : KsServer pairConfig) : Prop where
  reachable : KsLoop.Reachable ⟨s, .top⟩
  accepted : s.accepted = 2
  listenFd : s.listenFd = 3
  first : (s.clients firstSlot).used = true ∧ (s.clients firstSlot).dropConnection = false ∧
    (s.clients firstSlot).closeAfterWrite = false ∧ (s.clients firstSlot).inputLen = 0 ∧
    (s.clients firstSlot).fd = 5
  subscribed : (s.clients firstSlot).id ∈ s.pubsub.subscribersOf (.ofBytes (ascii "c"))
  pending : (s.clients firstSlot).pendingLen = 5 + n * 60034
  second : (s.clients secondSlot).Waits ∧ (s.clients secondSlot).fd = 6
  publisher : (s.clients secondSlot).id ∉ s.pubsub.subscribersOf (.ofBytes (ascii "c"))
  replies : (s.clients secondSlot).pendingLen ≤ 24 * n

/-- The line that publishes it. -/
theorem publishes_longWord :
    Publishes (ascii "PUBLISH c " ++ longWord) (.ofBytes (ascii "c")) (.ofBytes longWord) := by
  refine publishes_word (fun hnil => ?_) (fun c hc => ?_) (by rw [length_longWord]; decide)
  · have hlen := length_longWord
    rw [hnil] at hlen
    cases hlen
  · rw [eq_of_mem_longWord hc]
    decide

/-- The frame that delivers it. -/
theorem length_messageFrame_longWord :
    (messageFrame (CStr.ofBytes (ascii "c")).bytes (CStr.ofBytes longWord).bytes).length = 60034 := by
  have hnul : 0 ∉ longWord := fun hmem => absurd (eq_of_mem_longWord hmem) (by decide)
  rw [CStr.bytes_ofBytes hnul, length_messageFrame, length_longWord]
  decide

/-- Without a waiting connection nothing is accepted. -/
theorem acceptPhase_deaf {s : KsServer cfg} {readFds : Nat → Bool}
    (h : readFds s.listenFd = false) (accepts : List KsAccept) : acceptPhase s readFds accepts = s := by
  unfold acceptPhase
  rw [if_neg (by simp [h])]

/-- What the second connection publishes fans out. -/
theorem Flooded.fansOut {n : Nat} {s : KsServer pairConfig} (h : Flooded n s) :
    KsLoop.Reachable ⟨flood s, .top⟩ ∧
      FansOut (startIteration s 0) secondSlot (.ofBytes (ascii "c")) (.ofBytes longWord)
        (flood s, 0) ∧
      Acted secondSlot (startIteration s 0) (flood s) ∧
      ((flood s).clients secondSlot).inputFrom 0 = [] := by
  obtain ⟨hused, hd, hopen, hempty, hfd⟩ := h.first
  obtain ⟨hwaits, hfd'⟩ := h.second
  have hagrees := (h.reachable.top.agrees (by rw [h.accepted]; decide)).iterate 0
  have haccept : acceptPhase (startIteration s 0) (fun fd => fd = 6) [] = startIteration s 0 :=
    acceptPhase_deaf (by rw [listenFd_startIteration, h.listenFd]; rfl) []
  have hidle : clientTurn (startIteration s 0) firstSlot (fun fd => fd = 6) (fun _ => false) idle =
      startIteration s 0 := by
    refine clientTurn_idle (.inr ?_) idle
    rw [clients_startIteration]
    exact ⟨hd, hopen, hempty, by rw [hfd]; decide, rfl⟩
  have hflood : flood s = clientTurn (startIteration s 0) secondSlot (fun fd => fd = 6)
      (fun _ => false)
      { idle with recvs := [.ok ((ascii "PUBLISH c " ++ longWord) ++ [10]) idle.env] } := by
    rw [flood, iteration, haccept, hidle]
  refine ⟨reachable_iteration h.reachable (fun fd hread => .inr ⟨secondSlot, hwaits.used, hwaits.alive,
    hwaits.opened, hwaits.room, ?_⟩) (by simp) (show FreshFds _ [] from trivial) _ _, ?_⟩
  · obtain rfl : fd = 6 := by simpa using hread
    exact hfd'
  · rw [hflood]
    refine clientTurn_publishes (KsServer.Ok.iterate h.reachable.ok 0) hagrees
      (by rw [clients_startIteration]; exact hwaits) publishes_longWord ?_
      (by rw [clients_startIteration, hfd']; decide) rfl rfl fun _ _ => .inl rfl
    rw [List.length_append, length_longWord]
    decide

/-- An iteration begins with the registry as it is. -/
theorem pubsub_startIteration (s : KsServer cfg) (now : UInt64) :
    (startIteration s now).pubsub = s.pubsub := by
  unfold startIteration
  generalize ksKvReap s.store ksReaperBudget now = r
  rfl

/-- Two connections, the first of them subscribed. -/
theorem quietServer_state : quietServer.accepted = 2 ∧ quietServer.listenFd = 3 ∧
    ((quietServer.clients firstSlot).used = true ∧
      (quietServer.clients firstSlot).dropConnection = false ∧
      (quietServer.clients firstSlot).closeAfterWrite = false ∧
      (quietServer.clients firstSlot).inputLen = 0 ∧ (quietServer.clients firstSlot).fd = 5) ∧
    (quietServer.clients firstSlot).id ∈ quietServer.pubsub.subscribersOf (.ofBytes (ascii "c")) ∧
    (quietServer.clients firstSlot).pendingLen = 5 + 0 * 60034 ∧
    ((quietServer.clients secondSlot).used = true ∧
      (quietServer.clients secondSlot).dropConnection = false ∧
      (quietServer.clients secondSlot).closeAfterWrite = false ∧
      (quietServer.clients secondSlot).inputLen = 0 ∧
      (quietServer.clients secondSlot).pendingLen < ksOutputHighWater) ∧
    (quietServer.clients secondSlot).fd = 6 ∧
    (quietServer.clients secondSlot).id ∉ quietServer.pubsub.subscribersOf (.ofBytes (ascii "c")) ∧
    (quietServer.clients secondSlot).pendingLen ≤ 24 * 0 := by
  decide +kernel

theorem reachable_quietServer : KsLoop.Reachable ⟨quietServer, .top⟩ := by
  refine reachable_iteration reachable_pairServer (fun fd hfd => .inr ⟨firstSlot, ?_⟩) (by simp)
    (show FreshFds _ [] from trivial) _ _
  obtain rfl : fd = 5 := by simpa using hfd
  decide +kernel

/-- Nothing was published yet. -/
theorem flooded_quietServer : Flooded 0 quietServer := by
  have hreachable := reachable_quietServer
  obtain ⟨haccepted, hlisten, hfirst, hsubscribed, hpending, ⟨hused, hd, hopen, hin, hroom⟩, hfd,
    hpublisher, hreplies⟩ := quietServer_state
  generalize quietServer = s at *
  exact ⟨hreachable, haccepted, hlisten, hfirst, hsubscribed, hpending,
    ⟨⟨hused, hd, hopen, hin, hroom⟩, hfd⟩, hpublisher, hreplies⟩

/-- The reply to a message is short. -/
theorem length_intFrame_le {n : Nat} (h : n < 10) : (intFrame n).length ≤ 24 := by
  rw [length_intFrame]
  have hlen := @length_decimalInt_le n 1 (by decide) (by simpa using h)
  omega

/-- The first connection takes the first two messages. -/
theorem Flooded.receives {n : Nat} {s : KsServer pairConfig} (h : Flooded n s) (hn : n < 2) :
    firstSlot ∈ receivers (startIteration s 0) (.ofBytes (ascii "c"))
      (messageFrame (CStr.ofBytes (ascii "c")).bytes (CStr.ofBytes longWord).bytes) := by
  rw [mem_receivers, clients_startIteration, pubsub_startIteration]
  refine ⟨h.first.1, h.subscribed, ?_⟩
  rw [KsClient.takes, h.first.2.1, h.pending, length_messageFrame_longWord]
  simp only [ksOutputCap, ksMaxRequest, Bool.not_false, Bool.true_and]
  exact decide_eq_true (by omega)

/-- As long as the messages find room they wait. -/
theorem Flooded.next {n : Nat} {s : KsServer pairConfig} (h : Flooded n s) (hn : n < 2) :
    Flooded (n + 1) (flood s) := by
  obtain ⟨hreachable, hfans, hacted, hempty⟩ := h.fansOut
  obtain ⟨hused, hd, hopen, hin, hfd⟩ := h.first
  obtain ⟨hwaits, hfd'⟩ := h.second
  have hfirst := h.receives hn
  have hframe := length_messageFrame_longWord
  generalize flood s = s' at *
  obtain ⟨hreply, hissuer, htaken, -, -, hpubsub, -⟩ := hfans
  generalize messageFrame (CStr.ofBytes (ascii "c")).bytes (CStr.ofBytes longWord).bytes = f at *
  simp only [clients_startIteration] at hreply hissuer htaken
  rw [pubsub_startIteration] at hpubsub
  have hsecond : secondSlot ∉ receivers (startIteration s 0) (.ofBytes (ascii "c")) f := by
    rw [mem_receivers, clients_startIteration, pubsub_startIteration]
    exact fun hmem => h.publisher hmem.2.1
  obtain ⟨hsame, hpending⟩ := htaken firstSlot (by decide) hfirst
  have hcard := Finset.card_le_univ (receivers (startIteration s 0) (.ofBytes (ascii "c")) f)
  rw [if_neg hsecond, List.append_nil] at hreply
  have hint := @length_intFrame_le (receivers (startIteration s 0) (.ofBytes (ascii "c")) f).card
    (hcard.trans_lt (by decide))
  have hlen := congrArg List.length hpending
  have hlen' := congrArg List.length hreply
  simp only [List.length_append, KsClient.length_pending, hframe] at hlen hlen'
  have hreplies : (s'.clients secondSlot).pendingLen ≤ 24 * (n + 1) := by
    have := h.replies
    omega
  exact
    { reachable := hreachable
      accepted := by rw [hacted.accepted, accepted_startIteration, h.accepted]
      listenFd := by rw [hacted.listenFd, listenFd_startIteration, h.listenFd]
      first := ⟨hsame.used.trans hused, hsame.dropConnection.trans hd, hsame.closeAfterWrite.trans hopen,
        hsame.inputLen.trans hin, hsame.fd.trans hfd⟩
      subscribed := by rw [hsame.id, hpubsub]; exact h.subscribed
      pending := by have := h.pending; omega
      second := by
        obtain ⟨hused', hfd₂, -, hopen', hd'⟩ := hissuer
        refine ⟨⟨hused'.trans hwaits.used, hd'.trans hwaits.alive, hopen'.trans hwaits.opened, ?_, ?_⟩,
          hfd₂.trans hfd'⟩
        · rw [← KsClient.length_inputFrom_zero, hempty, List.length_nil]
        · simp only [ksOutputHighWater, ksOutputCap, ksMaxRequest]
          omega
      publisher := by rw [hissuer.2.2.1, hpubsub]; exact h.publisher
      replies := hreplies }

/-- The third message finds no room, and the connection is dropped. -/
theorem Flooded.dropped {s : KsServer pairConfig} (h : Flooded 2 s) :
    KsLoop.Reachable ⟨flood s, .top⟩ ∧ ((flood s).clients firstSlot).used = true ∧
      ((flood s).clients firstSlot).dropConnection = true := by
  obtain ⟨hreachable, hfans, hacted, -⟩ := h.fansOut
  obtain ⟨hused, hd, -⟩ := h.first
  have hdropped := hfans.full firstSlot (by decide)
  have hslots := hacted.slots firstSlot
  rw [clients_startIteration, pubsub_startIteration, length_messageFrame_longWord, h.pending] at hdropped
  rw [clients_startIteration] at hslots
  exact ⟨hreachable, hslots.1.trans hused,
    (hdropped hused h.subscribed hd (by decide)).1⟩

/-- The server when a connection has been dropped that does not read, -/
def droppedServer : KsServer pairConfig := flood (flood (flood quietServer))

/-- and when the turn of that connection has come again. -/
def resetServer : KsServer pairConfig :=
  clientTurn (acceptPhase (startIteration droppedServer 0) (fun _ => false) []) firstSlot
    (fun _ => false) (fun _ => false) idle

/-- It has been dropped. -/
theorem droppedServer_state : KsLoop.Reachable ⟨droppedServer, .top⟩ ∧
    (droppedServer.clients firstSlot).used = true ∧
    (droppedServer.clients firstSlot).dropConnection = true := by
  have hfirst := flooded_quietServer.next (by decide)
  have hsecond := hfirst.next (by decide)
  rw [droppedServer]
  exact hsecond.dropped

/-- An iteration up to the turn of the first slot, in which nothing is ready. -/
theorem steps_firstTurn (s : KsServer pairConfig) (t : KsTurn) :
    ReflTransGen KsLoopStep ⟨s, .top⟩
      ⟨clientTurn (acceptPhase (startIteration s 0) (fun _ => false) []) firstSlot (fun _ => false)
        (fun _ => false) t, .turns 1 (fun _ => false) (fun _ => false)⟩ := by
  have hselect := ReflTransGen.single (KsLoopStep.select s 0 (fun _ => false) (fun _ => false)
    (by simp) (by simp))
  have haccept := hselect.tail (.accept _ _ _ [] trivial)
  exact haccept.tail (.turn _ firstSlot _ _ t)

/-- A dropped connection is closed in its turn. -/
theorem used_firstTurn {s : KsServer pairConfig} (h : s.Ok) (hused : (s.clients firstSlot).used = true)
    (hd : (s.clients firstSlot).dropConnection = true) :
    ((clientTurn (acceptPhase (startIteration s 0) (fun _ => false) []) firstSlot (fun _ => false)
      (fun _ => false) idle).clients firstSlot).used = false := by
  have hok := KsServer.Ok.iterate h 0
  rw [acceptPhase_deaf rfl]
  rw [← clients_startIteration s 0] at hused hd
  generalize startIteration s 0 = s' at *
  obtain ⟨s₁, hdone⟩ : ∃ s₁, TurnDone firstSlot s' s₁
      (clientTurn s' firstSlot (fun _ => false) (fun _ => false) idle) :=
    clientTurn_spec hok hused (by simp) _ idle
  rw [(hdone.dead hd).2]
  simp [closeClient, KsServer.resetClient, KsClient.free]

/-- A connection is dropped for a message, and it stays as it is until it is reset
in its next turn. -/
theorem dropped_dead_droppedServer :
    KsLoop.Reachable ⟨droppedServer, .top⟩ ∧ .dropped ∈ (droppedServer.clients firstSlot).history ∧
      Quiet (droppedServer.clients firstSlot).history ∧
      (resetServer.clients firstSlot).used = false ∧
      (droppedServer.clients firstSlot).history ∈ resetServer.closed := by
  -- the servers are too large to be evaluated
  obtain ⟨s, hs, hreachable, hused, hd⟩ : ∃ s, s = droppedServer ∧ KsLoop.Reachable ⟨s, .top⟩ ∧
      (s.clients firstSlot).used = true ∧ (s.clients firstSlot).dropConnection = true :=
    ⟨_, rfl, droppedServer_state⟩
  rw [resetServer, ← hs]
  obtain ⟨hquiet, hdead⟩ := KsLoop.Reachable.dropped_dead hreachable
  obtain ⟨hdropped, hreset⟩ := hdead firstSlot
  have hfree := used_firstTurn hreachable.ok hused hd
  refine ⟨hreachable, hdropped.mpr hd, hquiet _ (.inl ⟨firstSlot, rfl⟩), hfree, ?_⟩
  refine (hreset hused hd _ (steps_firstTurn s idle)).resolve_left fun hsame => ?_
  have hkept := (congrArg KsClient.used hsame).trans hused
  exact absurd (hfree.symm.trans hkept) Bool.false_ne_true

/-! ## what a turn serves -/

/-- What has happened on a connection between `c` and `c'`: the bytes that waited
in its buffer and those that have arrived asked for the requests that were
served and for those of the bytes that wait now; or the input is closed, and they
asked for the requests that were served.  What was pending and what was queued
has been sent or is pending. -/
structure KsClient.Serves (c : KsClient) (events : List KsEvent) (c' : KsClient) : Prop where
  history : c'.history = c.history ++ events
  bytes : sentBytes events ++ c'.pending = c.pending ++ queuedBytes events
  reading : c'.closeAfterWrite = false → ∀ rest,
    requestStream (c.inputFrom 0 ++ receivedBytes events ++ rest) =
      requestsOf events ++ requestStream (c'.inputFrom 0 ++ rest)
  closing : c'.closeAfterWrite = true → ∀ rest, (.eof ∈ events → rest = []) →
    requestStream (c.inputFrom 0 ++ receivedBytes events ++ rest) = requestsOf events
  answered : Answered c'.history

section

variable {c c' : KsClient} {events : List KsEvent}

/-- Framing before and after says what was served in between. -/
theorem KsClient.Framed.serves (h : c.Framed) (hopen : c.closeAfterWrite = false) (h' : c'.Framed)
    (hhist : c'.history = c.history ++ events)
    (hbytes : sentBytes events ++ c'.pending = c.pending ++ queuedBytes events)
    (hanswered : Answered c'.history) : c.Serves events c' where
  history := hhist
  bytes := hbytes
  reading := by
    intro hopen' rest
    have hbefore := (h.reading hopen).2 (receivedBytes events ++ rest)
    have hafter := (h'.reading hopen').2 rest
    rw [hhist, receivedBytes_append, requestsOf_append, List.append_assoc, hbefore,
      List.append_assoc, List.append_cancel_left_eq] at hafter
    rw [List.append_assoc]
    exact hafter
  closing := by
    intro hclosing rest hrest
    have hbefore := (h.reading hopen).2 (receivedBytes events ++ rest)
    have hafter := (h'.closing hclosing).2 rest fun hmem => by
      rw [hhist, List.mem_append] at hmem
      exact hrest (hmem.resolve_left (h.reading hopen).1)
    rw [hhist, receivedBytes_append, requestsOf_append, List.append_assoc, hbefore,
      List.append_cancel_left_eq] at hafter
    rw [List.append_assoc]
    exact hafter
  answered := hanswered

/-- When no complete line is left, all complete lines have been served. -/
theorem KsClient.Serves.lines (h : c.Serves events c') (hopen : c'.closeAfterWrite = false)
    (hline : 10 ∉ c'.inputFrom 0) (hroom : c'.inputLen < ksInputCap) :
    requestsOf events = lineRequests (c.inputFrom 0 ++ receivedBytes events) :=
  eq_lineRequests (h.reading hopen) hline (by rwa [KsClient.length_inputFrom_zero])

end

section

variable {s s' : KsServer cfg} {i : Fin cfg.maxClients}

/-- Acts queue behind what is pending and send from its front. -/
theorem acts_grows (h : s.Ok) (hacts : ReflTransGen (KsAct i) s s') :
    ∃ n, (s.clients i).Grows n (s'.clients i) := by
  induction hacts with
  | refl => exact ⟨0, .refl _⟩
  | tail hacts hact ih =>
    obtain ⟨n, hgrows⟩ := ih
    obtain ⟨m, hprogress⟩ := hact.progress (acted_of_acts h hacts).ok
    exact ⟨n + m, hgrows.trans hprogress.self⟩

/-- **A turn serves what waits and what arrives**, in order, and leaves the rest
in the buffer. -/
theorem clientTurn_serves (h : s.Connected) (hused : (s.clients i).used = true)
    (hopen : (s.clients i).closeAfterWrite = false) (readFds writeFds : Nat → Bool) (t : KsTurn) :
    ∃ events c', (s.clients i).Serves events c' ∧
      (((clientTurn s i readFds writeFds t).clients i = c' ∧ c'.used = true ∧ c'.Flow) ∨
        (((clientTurn s i readFds writeFds t).clients i).used = false ∧
          c'.history ∈ (clientTurn s i readFds writeFds t).closed ∧ CloseReason c')) := by
  have hok := h.reached.ok
  obtain ⟨s₁, hacts, hframed, houtcome, -⟩ := clientTurn_spec hok hused (fun _ => hopen) writeFds t
  have hflow := h.flow i
  have hacted := acted_of_acts hok hacts
  obtain ⟨n, events, hhist, hbytes, -⟩ := acts_grows hok hacts
  have hanswered : Answered (s₁.clients i).history :=
    (h.reached.acts hacts).answered (.inl ⟨i, rfl⟩)
  refine ⟨events, s₁.clients i,
    hflow.framed.serves hopen (hframed hflow) hhist hbytes hanswered, ?_⟩
  rcases houtcome with ⟨heq, hreason⟩ | ⟨heq, hflow'⟩ <;> rw [heq]
  · refine .inr ⟨?_, ?_, hreason⟩
    · simp [closeClient, KsServer.resetClient, KsClient.free]
    · simp [closeClient, KsServer.resetClient]
  · exact .inl ⟨rfl, hacted.used.trans hused, hflow' hflow⟩

end

section

variable {l : KsLoop cfg}

/-- **No pending request stalls.**  In every state of the loop the input buffer
of an open connection has room, and when it holds a line then the output is at
the high-water mark, so that the connection is watched for writing; no turn
leaves a line behind once the output has fallen below the mark; each turn serves
the requests of the bytes that wait and arrive, in order, and all of them that
are complete when it leaves the output below the mark; and no complete line is
ever thrown away. -/
theorem KsLoop.Reachable.no_stall (h : l.Reachable) :
    (∀ j, (l.server.clients j).used = true → (l.server.clients j).dropConnection = false →
      (l.server.clients j).closeAfterWrite = false →
        (l.server.clients j).inputLen < ksInputCap ∧
        (10 ∈ (l.server.clients j).inputFrom 0 →
          ksOutputHighWater ≤ (l.server.clients j).pendingLen ∧
            l.server.WatchedForWriting (l.server.clients j).fd)) ∧
    (∀ (j : Fin cfg.maxClients) (readFds writeFds : Nat → Bool) (t : KsTurn),
      l.phase = .turns j readFds writeFds →
        ((clientTurn l.server j readFds writeFds t).clients j).used = true →
        ((clientTurn l.server j readFds writeFds t).clients j).closeAfterWrite = false →
        ((clientTurn l.server j readFds writeFds t).clients j).pendingLen < ksOutputHighWater →
          10 ∉ ((clientTurn l.server j readFds writeFds t).clients j).inputFrom 0) ∧
    (∀ (j : Fin cfg.maxClients) (readFds writeFds : Nat → Bool) (t : KsTurn),
      l.phase = .turns j readFds writeFds → (l.server.clients j).used = true →
        (l.server.clients j).closeAfterWrite = false →
        ∃ events c', (l.server.clients j).Serves events c' ∧
          (((clientTurn l.server j readFds writeFds t).clients j = c' ∧
            (c'.closeAfterWrite = false → c'.pendingLen < ksOutputHighWater →
              requestsOf events =
                lineRequests ((l.server.clients j).inputFrom 0 ++ receivedBytes events))) ∨
          (((clientTurn l.server j readFds writeFds t).clients j).used = false ∧
            c'.history ∈ (clientTurn l.server j readFds writeFds t).closed ∧ CloseReason c'))) ∧
    ∀ history data, l.server.History history → .discarded data ∈ history → 10 ∉ data := by
  refine ⟨fun j hused hd hopen => ⟨(h.flow j).room hopen, fun hline => ?_⟩,
    fun j readFds writeFds t hphase _ hopen hlow => ?_,
    fun j readFds writeFds t hphase hused hopen => ?_,
    fun history data hmem => (h.served hmem).discarded data⟩
  · have hhigh := ((h.flow j).drained hopen).resolve_right (not_not_intro hline)
    have hpos : 0 < ksOutputHighWater := by decide
    refine ⟨hhigh, j, hused, hd, ?_, rfl⟩
    rw [KsClient.pendingLen] at hhigh
    omega
  · obtain ⟨s, phase⟩ := l
    obtain rfl : phase = .turns j readFds writeFds := hphase
    have hnext : KsLoop.Reachable ⟨clientTurn s j readFds writeFds t, .turns (j + 1) readFds writeFds⟩ :=
      .step h (.turn s j readFds writeFds t)
    exact ((hnext.flow j).drained hopen).resolve_left (Nat.not_le.mpr hlow)
  · have hconn := h.connected (by rw [hphase]; simp)
    obtain ⟨events, c', hserves, hend⟩ := clientTurn_serves hconn hused hopen readFds writeFds t
    refine ⟨events, c', hserves, hend.imp_left fun hgoes => ⟨hgoes.1, fun hopen' hlow => ?_⟩⟩
    exact hserves.lines hopen' ((hgoes.2.2.drained hopen').resolve_left (Nat.not_le.mpr hlow))
      (hgoes.2.2.room hopen')

end

/-! ## a line that waits -/

/-- A long message arrives, and a short one behind it. -/
def longTurn : KsTurn :=
  { idle with
    recvs := [.ok ((ascii "PUBLISH c " ++ longWord) ++ 10 :: ascii "PUBLISH c m\n") idle.env] }

/-- An iteration in which the first connection publishes them. -/
def stall (s : KsServer pairConfig) : KsServer pairConfig :=
  iteration s (fun fd => fd = 5) (fun _ => false) [] longTurn idle

/-- The output of the first connection is above the high-water mark, and a line
waits in its input. -/
structure Stalled (s : KsServer pairConfig) : Prop where
  reachable : KsLoop.Reachable ⟨s, .top⟩
  accepted : s.accepted = 2
  first : (s.clients firstSlot).used = true ∧ (s.clients firstSlot).dropConnection = false ∧
    (s.clients firstSlot).closeAfterWrite = false ∧ (s.clients firstSlot).fd = 5
  pending : ksOutputHighWater ≤ (s.clients firstSlot).pendingLen
  input : (s.clients firstSlot).inputFrom 0 = ascii "PUBLISH c m" ++ [10]

/-- The message is for its issuer as well, whose output it brings above the mark. -/
theorem Flooded.high {s : KsServer pairConfig} (h : Flooded 1 s) {r : KsServer pairConfig × Int}
    (hr : FansOut (startIteration s 0) firstSlot (.ofBytes (ascii "c")) (.ofBytes longWord) r) :
    ksOutputHighWater ≤ (r.1.clients firstSlot).pendingLen := by
  have hreply := congrArg List.length hr.reply
  rw [if_pos (h.receives (by decide)), clients_startIteration] at hreply
  simp only [List.length_append, KsClient.length_pending, length_messageFrame_longWord,
    h.pending] at hreply
  simp only [ksOutputHighWater, ksOutputCap, ksMaxRequest]
  omega

/-- A line that arrives behind the message waits. -/
theorem Flooded.stalled {s : KsServer pairConfig} (h : Flooded 1 s) : Stalled (stall s) := by
  obtain ⟨hused, hd, hopen, hempty, hfd⟩ := h.first
  obtain ⟨hwaits, hfd'⟩ := h.second
  have hagrees := (h.reachable.top.agrees (by rw [h.accepted]; decide)).iterate 0
  have hroom : (s.clients firstSlot).pendingLen < ksOutputHighWater := by
    rw [h.pending]
    decide
  have haccept : acceptPhase (startIteration s 0) (fun fd => fd = 5) [] = startIteration s 0 :=
    acceptPhase_deaf (by rw [listenFd_startIteration, h.listenFd]; rfl) []
  have hreachable : KsLoop.Reachable ⟨stall s, .top⟩ := by
    refine reachable_iteration h.reachable (fun fd hread => .inr ⟨firstSlot, hused, hd, hopen, hroom, ?_⟩)
      (by simp) (show FreshFds _ [] from trivial) _ _
    obtain rfl : fd = 5 := by simpa using hread
    exact hfd
  obtain ⟨hfans, hacted, hinput⟩ : FansOut (startIteration s 0) firstSlot (.ofBytes (ascii "c"))
        (.ofBytes longWord)
        (clientTurn (startIteration s 0) firstSlot (fun fd => fd = 5) (fun _ => false) longTurn, 0) ∧
      Acted firstSlot (startIteration s 0)
        (clientTurn (startIteration s 0) firstSlot (fun fd => fd = 5) (fun _ => false) longTurn) ∧
      ((clientTurn (startIteration s 0) firstSlot (fun fd => fd = 5) (fun _ => false) longTurn).clients
        firstSlot).inputFrom 0 = ascii "PUBLISH c m\n" := by
    refine clientTurn_publishes (KsServer.Ok.iterate h.reachable.ok 0) hagrees
      (by rw [clients_startIteration]; exact ⟨hused, hd, hopen, hempty, hroom⟩) publishes_longWord ?_
      (by rw [clients_startIteration, hfd]; rfl) rfl rfl fun _ hr => .inr (h.high hr)
    rw [List.length_append, length_longWord]
    decide
  have hpending := h.high hfans
  obtain ⟨-, hissuer, -, -, hothers, -, -⟩ := hfans
  rw [stall, iteration, haccept] at hreachable ⊢
  generalize clientTurn (startIteration s 0) firstSlot (fun fd => fd = 5) (fun _ => false) longTurn =
    s' at *
  have hsecond : s'.clients secondSlot = s.clients secondSlot := by
    rw [hothers secondSlot (by decide) ?_, clients_startIteration]
    rw [clients_startIteration, pubsub_startIteration]
    exact fun hmem => h.publisher hmem.2.1
  have hidle : clientTurn s' secondSlot (fun fd => fd = 5) (fun _ => false) idle = s' := by
    refine clientTurn_idle (.inr ?_) idle
    rw [hsecond]
    exact ⟨hwaits.alive, hwaits.opened, hwaits.empty, by rw [hfd']; decide, rfl⟩
  rw [hidle] at hreachable ⊢
  rw [clients_startIteration] at hissuer
  obtain ⟨hused', hfd₁, -, hopen', hd'⟩ := hissuer
  exact
    { reachable := hreachable
      accepted := by rw [hacted.accepted, accepted_startIteration, h.accepted]
      first := ⟨hused'.trans hused, hd'.trans hd, hopen'.trans hopen, hfd₁.trans hfd⟩
      pending := hpending
      input := hinput }

/-- The server when a line waits. -/
def stalledServer : KsServer pairConfig := stall (flood quietServer)

/-- Its output is full, and a line waits. -/
theorem stalled_stalledServer : Stalled stalledServer := by
  rw [stalledServer]
  exact (flooded_quietServer.next (by decide)).stalled

/-- A turn in which the socket takes everything. -/
def sendTurn : KsTurn := { idle with sends := [.ok ksOutputCap] }

/-- The line that publishes a short word. -/
theorem publishes_short : Publishes (ascii "PUBLISH c m") (.ofBytes (ascii "c")) (.ofBytes (ascii "m")) :=
  show Publishes (ascii "PUBLISH c " ++ ascii "m") _ _ from
    publishes_word (by decide) (by decide +kernel) (by decide)

/-- In its next turn the line is served. -/
theorem Stalled.resumes {s : KsServer pairConfig} (h : Stalled s) :
    let s' := clientTurn (acceptPhase (startIteration s 0) (fun _ => false) []) firstSlot
      (fun _ => false) (fun fd => fd = 5) sendTurn
    (s'.clients firstSlot).used = true ∧ (s'.clients firstSlot).closeAfterWrite = false ∧
      (s'.clients firstSlot).pendingLen < ksOutputHighWater := by
  obtain ⟨hused, hd, hopen, hfd⟩ := h.first
  have hagrees := (h.reachable.top.agrees (by rw [h.accepted]; decide)).iterate 0
  have hok := KsServer.Ok.iterate h.reachable.ok 0
  have hinput := h.input
  rw [acceptPhase_deaf rfl]
  rw [← clients_startIteration s 0] at hused hd hopen hfd hinput
  generalize startIteration s 0 = s₁ at *
  have hcap : (s₁.clients firstSlot).pendingLen ≤ ksOutputCap :=
    (Nat.sub_le _ _).trans (hok.clients firstSlot).len_le
  obtain ⟨c, hsame, hsent, hfans⟩ : ∃ c, (s₁.clients firstSlot).SameConn c ∧ c.pendingLen = 0 ∧
      FansOut (s₁.setClient firstSlot c) firstSlot (.ofBytes (ascii "c")) (.ofBytes (ascii "m"))
        (clientTurn s₁ firstSlot (fun _ => false) (fun fd => fd = 5) sendTurn, 0) :=
    clientTurn_resumes hok hagrees hused hd hopen publishes_short hinput rfl (by rw [hfd]; rfl) rfl hcap
  have hc : (s₁.setClient firstSlot c).clients firstSlot = c := by
    rw [setClient_clients, Function.update_self]
  obtain ⟨hreply, hissuer, -, -, -, -, -⟩ := hfans
  have hframe : (messageFrame (CStr.ofBytes (ascii "c")).bytes (CStr.ofBytes (ascii "m")).bytes).length
    ≤ 100 := by decide
  have hcard := Finset.card_le_univ (receivers (s₁.setClient firstSlot c) (.ofBytes (ascii "c"))
    (messageFrame (CStr.ofBytes (ascii "c")).bytes (CStr.ofBytes (ascii "m")).bytes))
  have hint := length_intFrame_le (hcard.trans_lt (by decide))
  have hlen := congrArg List.length hreply
  rw [hc] at hissuer hlen
  simp only [List.length_append, KsClient.length_pending, hsent] at hlen
  refine ⟨hissuer.1.trans (hsame.used.trans hused),
    hissuer.2.2.2.1.trans (hsame.closeAfterWrite.trans hopen), ?_⟩
  simp only [ksOutputHighWater, ksOutputCap, ksMaxRequest]
  split at hlen
  · omega
  · rw [List.length_nil] at hlen
    omega

/-- A line that waits behind a full output is served when the output is sent. -/
theorem no_stall_stalledServer :
    KsLoop.Reachable ⟨stalledServer, .top⟩ ∧ 10 ∈ (stalledServer.clients firstSlot).inputFrom 0 ∧
      ksOutputHighWater ≤ (stalledServer.clients firstSlot).pendingLen ∧
      ∃ events, ((clientTurn (acceptPhase (startIteration stalledServer 0) (fun _ => false) []) firstSlot
          (fun _ => false) (fun fd => fd = 5) sendTurn).clients firstSlot).history =
            (stalledServer.clients firstSlot).history ++ events ∧
        .command (ascii "PUBLISH c m\n") ∈ requestsOf events := by
  -- the server is too large to be evaluated
  obtain ⟨s, hs, h⟩ : ∃ s, s = stalledServer ∧ Stalled s := ⟨_, rfl, stalled_stalledServer⟩
  rw [← hs]
  obtain ⟨hused, hd, hopen, hfd⟩ := h.first
  obtain ⟨hused', hopen', hlow⟩ := h.resumes
  have hpending := h.pending
  have hinput := h.input
  have hwrite : ∀ fd, (fun fd => decide (fd = 5)) fd = true → s.WatchedForWriting fd := by
    intro fd hready
    obtain rfl : fd = 5 := by simpa using hready
    refine ⟨firstSlot, hused, hd, ?_, hfd⟩
    have hpos : 0 < ksOutputHighWater := by decide
    rw [KsClient.pendingLen] at hpending
    omega
  have hselect := h.reachable.step (.select s 0 (fun _ => false) _ (by simp) hwrite)
  have haccept := hselect.step (.accept _ _ _ [] trivial)
  have hclients : (acceptPhase (startIteration s 0) (fun _ => false) []).clients = s.clients := by
    rw [acceptPhase_deaf rfl, clients_startIteration]
  refine ⟨h.reachable, by rw [hinput]; decide, hpending, ?_⟩
  generalize acceptPhase (startIteration s 0) (fun _ => false) [] = s₁ at *
  obtain ⟨events, c', hserves, hend⟩ := (KsLoop.Reachable.no_stall haccept).2.2.1 firstSlot _ _
    sendTurn rfl (by rw [hclients]; exact hused) (by rw [hclients]; exact hopen)
  have hhistory := hserves.history
  rcases hend with ⟨rfl, hall⟩ | ⟨hfree, -⟩
  · have hserved := hall hopen' hlow
    rw [hclients] at hhistory hserved
    rw [hinput, List.append_assoc, List.singleton_append,
      lineRequests_line (by decide) (by decide)] at hserved
    refine ⟨events, hhistory, ?_⟩
    rw [hserved]
    exact List.mem_cons_self
  · rw [hused'] at hfree
    cases hfree

end Kessel
