import Kessel.Server.Requests

/-!
# Kessel.Server.Turn

The turn of one client.

* `readClient_spec` — reading keeps the framing of the stream, drains the input
  as far as the output allows, and fails only on a socket error;
* `clientTurn_spec` — a whole turn is a sequence of acts of its slot, then at
  most one close, and the close has a reason.
-/

namespace Kessel

open CStr (ascii)
open Relation (ReflTransGen)

variable {cfg : KsConfig} {i : Fin cfg.maxClients} {s s' : KsServer cfg}

/-! ## reading -/

/-- No line is left that could be served. -/
def KsClient.Drained (c : KsClient) : Prop :=
  ksOutputHighWater ≤ c.pendingLen ∨ 10 ∉ c.inputFrom 0

/-- A connection that can be read from. -/
structure KsClient.Reading (c : KsClient) : Prop where
  framed : c.Framed
  reading : c.closeAfterWrite = false
  drained : c.Drained
  room : ksOutputHighWater ≤ c.pendingLen → c.inputLen < ksInputCap

/-- What `read_client` leaves of a connection. -/
structure ReadDone (i : Fin cfg.maxClients) (recvs : List KsRecv) (s : KsServer cfg)
    (r : KsServer cfg × Int) : Prop where
  acts : ReflTransGen (KsAct i) s r.1
  result : r.2 = 0 ∨ (r.2 = -1 ∧ .error ∈ recvs ∧ .failed ∈ (r.1.clients i).history)
  framed : (s.clients i).Reading → (r.1.clients i).Framed
  drained : (s.clients i).Reading → (r.1.clients i).closeAfterWrite = false →
    (r.1.clients i).Drained
  room : (s.clients i).Reading → (r.1.clients i).closeAfterWrite = false → r.2 = 0 →
    (r.1.clients i).inputLen < ksInputCap

/-- Reading that changes nothing. -/
theorem readDone_same {recvs : List KsRecv}
    (hroom : (s.clients i).Reading → (s.clients i).inputLen < ksInputCap) :
    ReadDone i recvs s (s, 0) where
  acts := .refl
  result := .inl rfl
  framed := KsClient.Reading.framed
  drained := fun h _ => h.drained
  room := fun h _ _ => hroom h

/-- The end of the input, behind what has been logged and answered. -/
theorem readDone_finish {recvs : List KsRecv} {c : KsClient}
    (hacts : ReflTransGen (KsAct i) s (s.setClient i c)) (hused : c.used = true)
    (hframed : (s.clients i).Reading → c.finish.Framed) :
    ReadDone i recvs s (s.setClient i c.finish, 0) := by
  have hpassive : c.Passive c.finish :=
    ⟨rfl, rfl, rfl, rfl, rfl, rfl, rfl, Nat.zero_le _, [.discarded (c.input.read 0 c.inputLen)], rfl,
      by simp [KsEvent.active]⟩
  have hact : KsAct i (s.setClient i c) ((s.setClient i c).setClient i c.finish) :=
    .passive _ _ (by simpa using hused) (by simpa using hpassive)
  rw [setClient_setClient] at hact
  have hclosing : c.finish.closeAfterWrite = true := rfl
  exact
    { acts := hacts.tail hact
      result := .inl rfl
      framed := by simpa using hframed
      drained := by simp [hclosing]
      room := by simp [hclosing] }

/-- The `request too large` of a full buffer. -/
theorem readDone_full (h : s.Ok) (hused : (s.clients i).used = true)
    (hp : (s.clients i).pendingLen < ksOutputHighWater) (hfull : (s.clients i).inputLen = ksInputCap)
    (recvs : List KsRecv) {message : List UInt8} (hm : message = KsRequest.message .tooLarge) :
    ∃ c, queueError ((s.clients i).log (.request .tooLarge)) message = (c, 0) ∧
      ReadDone i recvs s (s.setClient i c.finish, 0) := by
  have hact : KsAct i s (s.setClient i (queueError ((s.clients i).log (.request .tooLarge)) message).1) :=
    .answer s .tooLarge message hused hp hm
  obtain ⟨c, hqueue, -, hqueued⟩ := answer_spec (h.clients i) hp hm
  rw [hqueue] at hact
  refine ⟨c, hqueue, readDone_finish (.single hact) (hqueued.same.used.trans hused) fun hr => ?_⟩
  have hline : 10 ∉ (s.clients i).inputFrom 0 := hr.drained.resolve_left (by omega)
  have hinput : c.input.read 0 c.inputLen = (s.clients i).inputFrom 0 := by
    rw [hqueued.same.input, hqueued.same.inputLen]
    rfl
  refine hr.framed.full hr.reading hline hfull (f := errorFrame message) ?_ rfl rfl
  simp [KsClient.finish, hqueued.history, hinput]

/-- The end of the stream, which an unfinished line spoils. -/
theorem readDone_eof (h : s.Ok) (hused : (s.clients i).used = true)
    (hp : (s.clients i).pendingLen < ksOutputHighWater) (hroom : (s.clients i).inputLen ≠ ksInputCap)
    (recvs : List KsRecv) {message : List UInt8} (hm : message = KsRequest.message .incomplete) :
    ∃ c, (if ((s.clients i).log .eof).inputLen ≠ 0 then
          queueError (((s.clients i).log .eof).log (.request .incomplete)) message
        else ((s.clients i).log .eof, 0)) = (c, 0) ∧
      ReadDone i recvs s (s.setClient i c.finish, 0) := by
  have hlt : (s.clients i).inputLen < ksInputCap := by
    have := (h.clients i).inputLen_le
    omega
  have heof : KsAct i s (s.setClient i ((s.clients i).log .eof)) :=
    .passive s _ hused ⟨rfl, rfl, rfl, rfl, rfl, rfl, rfl, by simpa using hlt.le, [.eof], rfl,
      by simp [KsEvent.active]⟩
  by_cases hempty : (s.clients i).inputLen = 0
  · refine ⟨_, if_neg (not_not_intro hempty), readDone_finish (.single heof) hused fun hr => ?_⟩
    have hline : 10 ∉ (s.clients i).inputFrom 0 := hr.drained.resolve_left (by omega)
    refine hr.framed.eof hr.reading hline hlt (f := []) ?_ rfl rfl
    simp [KsClient.finish, hempty, KsClient.inputFrom]
  · rw [if_pos (by simpa using hempty)]
    have hok := (acted_of_act h heof).ok
    generalize hs : s.setClient i ((s.clients i).log .eof) = s₁ at heof hok
    have hc : s₁.clients i = (s.clients i).log .eof := by simp [← hs]
    have hp₁ : (s₁.clients i).pendingLen < ksOutputHighWater := by rw [hc]; exact hp
    have hused₁ : (s₁.clients i).used = true := by rw [hc]; exact hused
    have hact : KsAct i s₁
        (s₁.setClient i (queueError ((s₁.clients i).log (.request .incomplete)) message).1) :=
      .answer s₁ .incomplete message hused₁ hp₁ hm
    obtain ⟨c, hqueue, -, hqueued⟩ := answer_spec (hok.clients i) hp₁ hm
    rw [hqueue, ← hs, setClient_setClient, hs] at hact
    rw [hc] at hqueue hqueued
    refine ⟨c, hqueue, readDone_finish ((ReflTransGen.single heof).tail hact)
      (hqueued.same.used.trans hused) fun hr => ?_⟩
    have hline : 10 ∉ (s.clients i).inputFrom 0 := hr.drained.resolve_left (by omega)
    have hinput : c.input.read 0 c.inputLen = (s.clients i).inputFrom 0 := by
      rw [hqueued.same.input, hqueued.same.inputLen]
      rfl
    refine hr.framed.eof hr.reading hline hlt (f := errorFrame message) ?_ rfl rfl
    simp [KsClient.finish, hqueued.history, hinput, hempty]

/-- Bytes that arrive fill the input buffer, at most. -/
theorem KsClient.passive_receive {c : KsClient} (h : c.inputLen ≤ ksInputCap) (data : List UInt8) :
    c.Passive (c.receive data) := by
  refine ⟨rfl, rfl, rfl, rfl, rfl, rfl, rfl, ?_, [.received _], rfl, by simp [KsEvent.active]⟩
  simp only [KsClient.receive, KsClient.log_inputLen, List.length_take]
  omega

/-- Bytes that arrive, before they are looked at. -/
theorem receive_spec (h : s.Ok) (hused : (s.clients i).used = true) (data : List UInt8) :
    KsAct i s (s.setClient i ((s.clients i).receive data)) ∧
      ((s.clients i).Reading → ((s.clients i).receive data).Framed) := by
  refine ⟨.passive s _ hused (KsClient.passive_receive (h.clients i).inputLen_le data), fun hr => ?_⟩
  unfold KsClient.receive
  generalize data.take (ksInputCap - (s.clients i).inputLen) = bytes
  refine hr.framed.received hr.reading rfl hr.reading ?_
  have hread := Mem.read_write_append (s.clients i).input 0 (s.clients i).inputLen bytes
  rw [Nat.zero_add] at hread
  simpa [KsClient.inputFrom] using hread

/-- What `read_client` looks at before it receives. -/
theorem readDone_before (h : s.Ok) (hused : (s.clients i).used = true) {recvs : List KsRecv}
    {r : KsServer cfg × Int}
    (hr : (s.clients i).pendingLen < ksOutputHighWater → (s.clients i).inputLen < ksInputCap →
      ReadDone i recvs s r) :
    ReadDone i recvs s
      (if (s.clients i).pendingLen ≥ ksOutputHighWater then (s, 0)
      else if (s.clients i).inputLen = ksInputCap then
        let (client, result) :=
          queueError ((s.clients i).log (.request .tooLarge)) (ascii "request too large")
        if result ≠ 0 then (s.setClient i client, -1) else (s.setClient i client.finish, 0)
      else r) := by
  have hm : ascii "request too large" = KsRequest.message .tooLarge := rfl
  by_cases hp : (s.clients i).pendingLen ≥ ksOutputHighWater
  · rw [if_pos hp]
    exact readDone_same fun hr => hr.room hp
  rw [if_neg hp]
  by_cases hfull : (s.clients i).inputLen = ksInputCap
  · obtain ⟨c, hqueue, hdone⟩ := readDone_full h hused (by omega) hfull recvs hm
    simpa [hfull, hqueue] using hdone
  · rw [if_neg hfull]
    have hcap := (h.clients i).inputLen_le
    exact hr (by omega) (by omega)

/-- A connection that has been read from and goes on can be read from again. -/
theorem RequestsDone.reading {r : KsServer cfg × Int} (h : s.Ok)
    (hdone : RequestsDone i s r) (hframed : (s.clients i).Framed)
    (hopen : (s.clients i).closeAfterWrite = false)
    (hp : (s.clients i).pendingLen < ksOutputHighWater)
    (hopen' : (r.1.clients i).closeAfterWrite = false) : (r.1.clients i).Reading where
  framed := hdone.framed hopen hframed
  reading := hopen'
  drained := hdone.drained hopen hframed hopen'
  room := by
    intro hhigh
    have hle := hdone.inputLen
    have hcap := (h.clients i).inputLen_le
    by_cases hsame : (r.1.clients i).inputLen = (s.clients i).inputLen
    · rw [hdone.same hsame] at hhigh
      omega
    · omega

/-- **`read_client`.** -/
theorem readClient_spec (h : s.Ok) (hused : (s.clients i).used = true) (recvs : List KsRecv) :
    ReadDone i recvs s (readClient s i recvs) := by
  induction recvs generalizing s with
  | nil =>
    unfold readClient
    exact readDone_before h hused fun _ hroom => readDone_same fun _ => hroom
  | cons recv recvs ih =>
    unfold readClient
    refine readDone_before h hused fun hp hroom => ?_
    cases recv with
    | wouldBlock => exact readDone_same fun _ => hroom
    | closed =>
      have hm : ascii "incomplete command" = KsRequest.message .incomplete := rfl
      obtain ⟨c, hqueue, hdone⟩ := readDone_eof h hused hp hroom.ne (.closed :: recvs) hm
      dsimp only
      rw [hqueue]
      exact hdone
    | error =>
      have hact : KsAct i s (s.setClient i ((s.clients i).log .failed)) :=
        .passive s _ hused ⟨rfl, rfl, rfl, rfl, rfl, rfl, rfl, by simpa using hroom.le, [.failed], rfl,
          by simp [KsEvent.active]⟩
      exact
        { acts := .single hact
          result := .inr ⟨rfl, by simp, by simp⟩
          framed := fun hr => by
            have hlog : ((s.clients i).log .failed).Framed :=
              hr.framed.append rfl (by simp [KsEvent.unframed]) rfl rfl rfl
            simpa using hlog
          drained := fun hr _ => by rw [setClient_clients, Function.update_self]; exact hr.drained
          room := by simp }
    | ok data env =>
      obtain ⟨hact, hframed⟩ := receive_spec h hused data
      have hp₁ : ((s.clients i).receive data).pendingLen < ksOutputHighWater := hp
      have hopen₁ : ((s.clients i).receive data).closeAfterWrite = (s.clients i).closeAfterWrite := rfl
      have hacted := acted_of_act h hact
      dsimp only
      generalize (s.clients i).receive data = c at *
      generalize hs : s.setClient i c = s₁ at *
      have hc : s₁.clients i = c := by simp [← hs]
      rw [← hc] at hframed hp₁ hopen₁
      have hdone := processRequests_spec hacted.ok (hacted.used.trans hused) env
      have hdrained (hr : (s.clients i).Reading) :=
        hdone.reading hacted.ok (hframed hr) (hopen₁.trans hr.reading) hp₁
      have hframed' (hr : (s.clients i).Reading) :=
        hdone.framed (hopen₁.trans hr.reading) (hframed hr)
      obtain ⟨hresult, hacts, -, -, -, -⟩ := hdone
      generalize processRequests s₁ i env = r at *
      obtain ⟨s₂, result⟩ := r
      simp only at hresult hacts hdrained hframed' ⊢
      have hacted₂ := hacted.trans (acted_of_acts hacted.ok hacts)
      rw [if_neg (by simp [hresult])]
      by_cases hclosed : (s₂.clients i).closeAfterWrite = true
      · rw [if_pos hclosed]
        exact
          { acts := (ReflTransGen.single hact).trans hacts
            result := .inl rfl
            framed := hframed'
            drained := by simp [hclosed]
            room := by simp [hclosed] }
      · rw [if_neg hclosed]
        rw [Bool.not_eq_true] at hclosed
        have hrest := ih hacted₂.ok (hacted₂.used.trans hused)
        exact
          { acts := ((ReflTransGen.single hact).trans hacts).trans hrest.acts
            result := hrest.result.imp_right fun hfail =>
              ⟨hfail.1, List.mem_cons_of_mem _ hfail.2.1, hfail.2.2⟩
            framed := fun hr => hrest.framed (hdrained hr hclosed)
            drained := fun hr => hrest.drained (hdrained hr hclosed)
            room := fun hr => hrest.room (hdrained hr hclosed) }

/-! ## a turn -/

/-- What holds of the input of a connection between two turns: as long as it is
open, no line waits that could be served, and the buffer is not full. -/
structure KsClient.Flow (c : KsClient) : Prop where
  framed : c.Framed
  drained : c.closeAfterWrite = false → c.Drained
  room : c.closeAfterWrite = false → c.inputLen < ksInputCap

/-- A free slot has received nothing. -/
theorem flow_free : KsClient.free.Flow where
  framed := framed_free
  drained := fun _ => .inr (by simp [KsClient.free, KsClient.inputFrom])
  room := fun _ => by simp [KsClient.free, ksInputCap]

/-- A client that is not closing is reading. -/
theorem KsClient.Flow.reading {c : KsClient} (h : c.Flow) (hopen : c.closeAfterWrite = false) :
    c.Reading :=
  ⟨h.framed, hopen, h.drained hopen, fun _ => h.room hopen⟩

/-- Events of the output say nothing about the stream. -/
theorem KsClient.Offered.framed {c c' : KsClient} (h : c.Offered c') (hf : c.Framed) : c'.Framed := by
  obtain ⟨events, hhist, hevents⟩ := h.history
  refine hf.append hhist (fun e he => ?_) h.closeAfterWrite h.input h.inputLen
  rcases hevents e he with ⟨data, rfl⟩ | rfl <;> rfl

/-- Deliveries to a connection leave its input as it is and its output longer. -/
theorem KsClient.Offered.flow {c c' : KsClient} (h : c.Offered c') (hf : c.Flow) : c'.Flow where
  framed := h.framed hf.framed
  drained := by
    rw [h.closeAfterWrite]
    intro hopen
    have hle := h.pendingLen_le
    have hinput : c'.inputFrom 0 = c.inputFrom 0 := by rw [inputFrom, inputFrom, h.input, h.inputLen]
    rw [Drained, hinput]
    exact (hf.drained hopen).imp_left fun hhigh => hhigh.trans hle
  room := by
    rw [h.closeAfterWrite, h.inputLen]
    exact hf.room

/-- The first part of a turn. -/
structure TurnRead (i : Fin cfg.maxClients) (s : KsServer cfg) (r : KsServer cfg × Bool) : Prop where
  acts : ReflTransGen (KsAct i) s r.1
  framed : (s.clients i).Flow → (r.1.clients i).Framed
  flow : (s.clients i).Flow → r.2 = false → (r.1.clients i).Flow
  reason : r.2 = true → .failed ∈ (r.1.clients i).history
  dead : ksOutputHighWater ≤ (s.clients i).pendingLen → r = (s, false)

/-- **The reading part of a turn.** -/
theorem turnRead_spec (h : s.Ok) (hused : (s.clients i).used = true) {readable : Bool}
    (hopen : readable = true → (s.clients i).closeAfterWrite = false) (recvs : List KsRecv) :
    TurnRead i s (turnRead s i readable recvs) := by
  unfold turnRead
  cases readable with
  | false => exact ⟨.refl, KsClient.Flow.framed, fun hf _ => hf, by simp, fun _ => rfl⟩
  | true =>
    have hread := readClient_spec h hused recvs
    have hdead (hp : ksOutputHighWater ≤ (s.clients i).pendingLen) :
        readClient s i recvs = (s, 0) := by
      unfold readClient
      exact if_pos hp
    generalize readClient s i recvs = r at *
    obtain ⟨s', result⟩ := r
    simp only [if_true] at hread ⊢
    have hreading (hf : (s.clients i).Flow) := hf.reading (hopen rfl)
    refine ⟨hread.acts, fun hf => hread.framed (hreading hf), fun hf hresult => ?_, ?_, ?_⟩
    · simp only [ne_eq, decide_not, Bool.not_eq_false', decide_eq_true_eq] at hresult
      exact ⟨hread.framed (hreading hf), hread.drained (hreading hf),
        fun hopen' => hread.room (hreading hf) hopen' hresult⟩
    · intro hresult
      rcases hread.result with hzero | ⟨-, -, hlog⟩
      · simp_all
      · exact hlog
    · intro hp
      have heq := hdead hp
      rw [Prod.mk.injEq] at heq
      simp [heq.1, heq.2]

/-- The second part of a turn. -/
structure TurnWrite (i : Fin cfg.maxClients) (s : KsServer cfg) (r : KsServer cfg × Bool) : Prop where
  acts : ReflTransGen (KsAct i) s r.1
  framed : (s.clients i).Flow → (r.1.clients i).Framed
  room : (s.clients i).Flow → (r.1.clients i).closeAfterWrite = false →
    (r.1.clients i).inputLen < ksInputCap
  reason : r.2 = true → .failed ∈ (r.1.clients i).history ∨ (r.1.clients i).closeAfterWrite = true

/-- **The writing part of a turn.** -/
theorem turnWrite_spec (h : s.Ok) (hused : (s.clients i).used = true)
    (hd : (s.clients i).dropConnection = false) (writable : Bool) (sends : List KsSend) :
    TurnWrite i s (turnWrite s i writable sends) := by
  unfold turnWrite
  cases writable with
  | false => exact ⟨.refl, KsClient.Flow.framed, KsClient.Flow.room, by simp⟩
  | true =>
    have hact : KsAct i s (s.setClient i (writeClient (s.clients i) sends).1) :=
      .write s sends hused hd
    obtain ⟨-, hsame, events, hhist, hevents, -⟩ := writeClient_spec (h.clients i).toQueueOk sends
    have hresult := writeClient_result (s.clients i) sends
    generalize writeClient (s.clients i) sends = r at *
    obtain ⟨c, result⟩ := r
    have hunframed : ∀ e ∈ events, e.unframed = true := by
      intro e he
      rcases hevents e he with ⟨data, rfl⟩ | rfl <;> rfl
    refine ⟨.single hact, fun hf => ?_, fun hf hopen => ?_, fun hfail => ?_⟩
    · simpa using hf.framed.append hhist hunframed hsame.closeAfterWrite hsame.input hsame.inputLen
    · simp only [if_true, setClient_clients, Function.update_self] at hopen ⊢
      rw [hsame.inputLen]
      exact hf.room (hsame.closeAfterWrite ▸ hopen)
    · simp only [if_true, setClient_clients, Function.update_self, ne_eq, decide_eq_true_eq] at hfail ⊢
      rw [hsame.closeAfterWrite]
      exact hresult.resolve_left hfail

/-- The third part of a turn. -/
structure TurnProcess (i : Fin cfg.maxClients) (s : KsServer cfg) (r : KsServer cfg × Bool) :
    Prop where
  acts : ReflTransGen (KsAct i) s r.1
  result : r.2 = false
  flow : (s.clients i).Framed →
    ((s.clients i).closeAfterWrite = false → (s.clients i).inputLen < ksInputCap) →
    (r.1.clients i).Flow

/-- **The part of a turn that processes what was left over.** -/
theorem turnProcess_spec (h : s.Ok) (hused : (s.clients i).used = true) (env : Nat → KsCommandEnv) :
    TurnProcess i s (turnProcess s i env) := by
  unfold turnProcess
  by_cases hrun : (s.clients i).inputLen > 0 ∧ (s.clients i).pendingLen < ksOutputHighWater
  · rw [if_pos hrun]
    have hdone := processRequests_spec h hused env
    refine ⟨hdone.acts, by simp [hdone.result], fun hframed hroom => ?_⟩
    have hopen : (s.clients i).closeAfterWrite = false := by
      rw [Bool.eq_false_iff]
      intro hclosing
      have := (hframed.closing hclosing).1
      omega
    exact ⟨hdone.framed hopen hframed, hdone.drained hopen hframed,
      fun _ => hdone.inputLen.trans_lt (hroom hopen)⟩
  · rw [if_neg hrun]
    refine ⟨.refl, rfl, fun hframed hroom => ⟨hframed, fun _ => ?_, hroom⟩⟩
    by_cases hempty : (s.clients i).inputLen = 0
    · exact .inr (by simp [KsClient.inputFrom, hempty])
    · have hhigh : ksOutputHighWater ≤ (s.clients i).pendingLen := by omega
      exact .inl hhigh

/-- Why a connection is closed at the end of its turn. -/
def CloseReason (c : KsClient) : Prop :=
  c.dropConnection = true ∨ .failed ∈ c.history ∨ c.closeAfterWrite = true

/-- The turn of a used slot: some acts, and then the slot is closed or goes on. -/
structure TurnDone (i : Fin cfg.maxClients) (s s₁ s' : KsServer cfg) : Prop where
  acts : ReflTransGen (KsAct i) s s₁
  framed : (s.clients i).Flow → (s₁.clients i).Framed
  outcome : (s' = closeClient s₁ i ∧ CloseReason (s₁.clients i)) ∨
    (s' = s₁ ∧ ((s.clients i).Flow → (s₁.clients i).Flow))
  dead : (s.clients i).dropConnection = true → s₁ = s ∧ s' = closeClient s i

/-- **The turn of a client.** -/
theorem clientTurn_spec (h : s.Ok) (hused : (s.clients i).used = true) {readFds : Nat → Bool}
    (hopen : readFds (s.clients i).fd = true → (s.clients i).closeAfterWrite = false)
    (writeFds : Nat → Bool) (t : KsTurn) :
    ∃ s₁, TurnDone i s s₁ (clientTurn s i readFds writeFds t) := by
  unfold clientTurn
  rw [if_neg (not_not_intro hused)]
  dsimp only
  have hread := turnRead_spec h hused hopen t.recvs
  generalize turnRead s i (readFds (s.clients i).fd) t.recvs = r at *
  obtain ⟨s₁, failed⟩ := r
  obtain ⟨hacts, hframed, hflow, hreason, hdead⟩ := hread
  simp only at hacts hframed hflow hreason hdead ⊢
  have hacted := acted_of_acts h hacts
  cases hstop : (s.clients i).dropConnection || failed with
  | true =>
    refine ⟨s₁, hacts, hframed, .inl ⟨by simp, ?_⟩, fun hd => ?_⟩
    · rcases Bool.or_eq_true_iff.mp hstop with hd | hfail
      · exact .inl (by rw [hacted.dropConnection, hd])
      · exact .inr (.inl (hreason hfail))
    · have heq := hdead ((h.clients i).dead hd)
      rw [Prod.mk.injEq] at heq
      exact ⟨heq.1, by simp [heq.1]⟩
  | false =>
    obtain ⟨hd, hfail⟩ := Bool.or_eq_false_iff.mp hstop
    have hd₁ : (s₁.clients i).dropConnection = false := by rw [hacted.dropConnection, hd]
    have hwrite := turnWrite_spec hacted.ok (hacted.used.trans hused) hd₁
      (writeFds (s.clients i).fd) t.sends
    simp only [Bool.false_eq_true, if_false]
    generalize turnWrite s₁ i (writeFds (s.clients i).fd) t.sends = r at *
    obtain ⟨s₂, failed'⟩ := r
    obtain ⟨hacts₂, hframed₂, hroom₂, hreason₂⟩ := hwrite
    simp only at hacts₂ hframed₂ hroom₂ hreason₂ ⊢
    have hflow₁ (hf : (s.clients i).Flow) := hflow hf hfail
    have hacted₂ := hacted.trans (acted_of_acts hacted.ok hacts₂)
    cases hstop' : failed' with
    | true =>
      refine ⟨s₂, hacts.trans hacts₂, fun hf => hframed₂ (hflow₁ hf), .inl ⟨by simp, ?_⟩, by simp [hd]⟩
      exact .inr (hreason₂ hstop')
    | false =>
      have hprocess := turnProcess_spec hacted₂.ok (hacted₂.used.trans hused) t.env
      simp only [Bool.false_eq_true, if_false]
      generalize turnProcess s₂ i t.env = r at *
      obtain ⟨s₃, failed''⟩ := r
      obtain ⟨hacts₃, hresult, hflow₃⟩ := hprocess
      simp only at hacts₃ hresult hflow₃ ⊢
      have hflow₃' (hf : (s.clients i).Flow) :=
        hflow₃ (hframed₂ (hflow₁ hf)) (hroom₂ (hflow₁ hf))
      refine ⟨s₃, (hacts.trans hacts₂).trans hacts₃, fun hf => (hflow₃' hf).framed, ?_, by simp [hd]⟩
      cases hclose : failed'' || ((s₃.clients i).closeAfterWrite &&
          decide ((s₃.clients i).outputLen = (s₃.clients i).outputOffset)) with
      | true =>
        refine .inl ⟨by simp, ?_⟩
        rw [hresult, Bool.false_or, Bool.and_eq_true] at hclose
        exact .inr (.inr hclose.1)
      | false => exact .inr ⟨by simp, hflow₃'⟩

end Kessel
