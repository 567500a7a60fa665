import Kessel.Env
import Kessel.Protocol

/-!
# Kessel.Client

One connection of the server (`ks_client_t` in `ks_server.c`) and its output
queue.

The queue is the block `output` between `outputOffset` and `outputLen`:
`client_queue` moves the pending bytes to the front and appends,
`write_client` hands them to the socket piece by piece.  `history` is not in
the source: it records what has happened on the connection, and no function
reads it.

* `clientQueue_spec`, `writeClient_spec` — what the two functions do;
* `queueRun_fifo` — the queue is a bounded FIFO of whole buffers.
-/

namespace Kessel

/-! ## constants -/

/-- `KS_INPUT_CAP` -/
def ksInputCap : Nat := ksMaxRequest + 2

/-- `KS_OUTPUT_CAP` -/
def ksOutputCap : Nat := 2 * (ksMaxRequest + 64)

/-- `KS_OUTPUT_HIGH_WATER` -/
def ksOutputHighWater : Nat := ksOutputCap / 2

/-! ## data -/

/-- What the server does with one request of the byte stream of a client. -/
inductive KsRequest where
  /-- a line passed to `handle_command` -/
  | command (line : List UInt8)
  /-- a line with a NUL, answered `invalid command` -/
  | rejected
  /-- `request too large` -/
  | tooLarge
  /-- `incomplete command` -/
  | incomplete
  deriving DecidableEq, Repr

/-- What happens on a connection. -/
inductive KsEvent where
  /-- `ks_recv` returned these bytes -/
  | received (data : List UInt8)
  /-- `ks_recv` returned `KS_IO_CLOSED` -/
  | eof
  | request (r : KsRequest)
  /-- these bytes entered the output queue -/
  | queued (data : List UInt8)
  /-- `ks_send` took these bytes -/
  | sent (data : List UInt8)
  /-- `read_client` threw these input bytes away -/
  | discarded (data : List UInt8)
  /-- `drop_connection` was set -/
  | dropped
  /-- a socket error -/
  | failed
  deriving DecidableEq, Repr

/-- `ks_client_t` -/
structure KsClient where
  used : Bool
  fd : Nat
  id : UInt64
  closeAfterWrite : Bool
  dropConnection : Bool
  input : Mem
  inputLen : Nat
  output : Mem
  outputOffset : Nat
  outputLen : Nat
  history : List KsEvent

/-- `(ks_client_t){0}` -/
def KsClient.free : KsClient := ⟨false, 0, 0, false, false, fun _ => 0, 0, fun _ => 0, 0, 0, []⟩

/-- `client->output_len - client->output_offset` -/
def KsClient.pendingLen (c : KsClient) : Nat := c.outputLen - c.outputOffset

/-- The bytes waiting to be sent. -/
def KsClient.pending (c : KsClient) : List UInt8 := c.output.read c.outputOffset c.pendingLen

/-- Record an event. -/
def KsClient.log (c : KsClient) (e : KsEvent) : KsClient := { c with history := c.history ++ [e] }

section

variable (c : KsClient) (e : KsEvent)

@[simp] theorem KsClient.log_used : (c.log e).used = c.used := rfl
@[simp] theorem KsClient.log_fd : (c.log e).fd = c.fd := rfl
@[simp] theorem KsClient.log_id : (c.log e).id = c.id := rfl
@[simp] theorem KsClient.log_closeAfterWrite : (c.log e).closeAfterWrite = c.closeAfterWrite := rfl
@[simp] theorem KsClient.log_dropConnection : (c.log e).dropConnection = c.dropConnection := rfl
@[simp] theorem KsClient.log_input : (c.log e).input = c.input := rfl
@[simp] theorem KsClient.log_inputLen : (c.log e).inputLen = c.inputLen := rfl
@[simp] theorem KsClient.log_pendingLen : (c.log e).pendingLen = c.pendingLen := rfl
@[simp] theorem KsClient.log_pending : (c.log e).pending = c.pending := rfl
@[simp] theorem KsClient.log_history : (c.log e).history = c.history ++ [e] := rfl

end

/-- One result of `ks_send`. -/
inductive KsSend where
  | ok (sent : Nat)
  | wouldBlock
  | closed
  | error
  deriving DecidableEq, Repr

/-! ## the functions -/

/-- `client_init`: the new client, or -1. -/
def clientInit (fd : Nat) (id : UInt64) (heap : KsHeap) : Option KsClient :=
  if heap .clientInput = false ∨ heap .clientOutput = false then none
  else some { KsClient.free with used := true, fd := fd, id := id }

/-- The compaction of `client_queue`. -/
def KsClient.compact (c : KsClient) : KsClient :=
  if c.outputOffset > 0 then
    let pending := c.outputLen - c.outputOffset
    { c with
      output := c.output.move 0 c.outputOffset pending
      outputOffset := 0
      outputLen := pending }
  else c

/-- `client_queue` -/
def clientQueue (c : KsClient) (data : List UInt8) : KsClient × Int :=
  let c := c.compact
  if data.length > ksOutputCap - c.outputLen then (c, -1)
  else
    (({ c with
        output := c.output.write c.outputLen data
        outputLen := c.outputLen + data.length }).log (.queued data), 0)

/-- `write_client`; when `ks_send` has no more to say it would block. -/
def writeClient (c : KsClient) (sends : List KsSend) : KsClient × Int :=
  if c.outputOffset < c.outputLen then
    match sends with
    | [] => (c, 0)
    | .ok sent :: sends =>
      let sent := min sent (c.outputLen - c.outputOffset)
      writeClient (({ c with outputOffset := c.outputOffset + sent }).log
        (.sent (c.output.read c.outputOffset sent))) sends
    | .wouldBlock :: _ => (c, 0)
    | .closed :: _ => (c.log .failed, -1)
    | .error :: _ => (c.log .failed, -1)
  else ({ c with outputOffset := 0, outputLen := 0 }, if c.closeAfterWrite then -1 else 0)

/-! ## the queue -/

/-- The indices of the queue are in order and in the block. -/
structure KsClient.QueueOk (c : KsClient) : Prop where
  offset_le : c.outputOffset ≤ c.outputLen
  len_le : c.outputLen ≤ ksOutputCap

/-- The two clients differ only in their output queue and their history. -/
structure KsClient.SameConn (c c' : KsClient) : Prop where
  used : c'.used = c.used
  fd : c'.fd = c.fd
  id : c'.id = c.id
  closeAfterWrite : c'.closeAfterWrite = c.closeAfterWrite
  dropConnection : c'.dropConnection = c.dropConnection
  input : c'.input = c.input
  inputLen : c'.inputLen = c.inputLen

theorem KsClient.SameConn.refl (c : KsClient) : c.SameConn c := ⟨rfl, rfl, rfl, rfl, rfl, rfl, rfl⟩

/-- One change of a client behind another. -/
theorem KsClient.SameConn.trans {c c' c'' : KsClient} (h : c.SameConn c') (h' : c'.SameConn c'') :
    c.SameConn c'' :=
  ⟨h'.used.trans h.used, h'.fd.trans h.fd, h'.id.trans h.id,
    h'.closeAfterWrite.trans h.closeAfterWrite, h'.dropConnection.trans h.dropConnection,
    h'.input.trans h.input, h'.inputLen.trans h.inputLen⟩

/-- The bytes that are pending are as many as the counter says. -/
@[simp] theorem KsClient.length_pending (c : KsClient) : c.pending.length = c.pendingLen := by
  simp [pending]

/-- Compaction moves the pending bytes to the front. -/
theorem KsClient.compact_spec (c : KsClient) :
    c.SameConn c.compact ∧ c.compact.history = c.history ∧ c.compact.outputOffset = 0 ∧
      c.compact.outputLen = c.pendingLen ∧ c.compact.pending = c.pending := by
  unfold compact
  split
  · refine ⟨⟨rfl, rfl, rfl, rfl, rfl, rfl, rfl⟩, rfl, rfl, rfl, ?_⟩
    exact Mem.read_move _ _ _ _
  · next hoff =>
    have hzero : c.outputOffset = 0 := by omega
    exact ⟨.refl c, rfl, hzero, by rw [pendingLen, hzero, Nat.sub_zero], rfl⟩

/-- **`client_queue`** appends the whole buffer, or nothing when it does not fit. -/
theorem clientQueue_spec {c : KsClient} (h : c.QueueOk) (data : List UInt8) :
    ∃ c', c'.QueueOk ∧ c.SameConn c' ∧
      ((c.pendingLen + data.length ≤ ksOutputCap ∧ clientQueue c data = (c', 0) ∧
          c'.pending = c.pending ++ data ∧ c'.history = c.history ++ [.queued data]) ∨
        (ksOutputCap < c.pendingLen + data.length ∧ clientQueue c data = (c', -1) ∧
          c'.pending = c.pending ∧ c'.history = c.history)) := by
  obtain ⟨hsame, hhist, hoff, hlen, hpending⟩ := c.compact_spec
  have hle : c.pendingLen ≤ ksOutputCap := (Nat.sub_le _ _).trans h.len_le
  rw [clientQueue]
  generalize c.compact = c₁ at *
  simp only [hlen]
  by_cases hfits : c.pendingLen + data.length ≤ ksOutputCap
  · rw [if_neg (by omega)]
    refine ⟨_, ⟨?_, ?_⟩, hsame.trans ?_, .inl ⟨hfits, rfl, ?_, ?_⟩⟩
    · simp [KsClient.log, hoff]
    · exact hfits
    · exact ⟨rfl, rfl, rfl, rfl, rfl, rfl, rfl⟩
    · have hread := Mem.read_write_append c₁.output 0 c.pendingLen data
      have hlen₁ : c₁.pendingLen = c.pendingLen := by
        rw [KsClient.pendingLen, hoff, hlen, Nat.sub_zero]
      have hfront : c₁.output.read 0 c.pendingLen = c.pending := by
        rw [← hpending, KsClient.pending, hlen₁, hoff]
      rw [hfront, Nat.zero_add] at hread
      simpa [KsClient.pending, KsClient.pendingLen, KsClient.log, hoff] using hread
    · simp [KsClient.log, hhist]
  · rw [if_pos (by omega)]
    exact ⟨c₁, ⟨by omega, by omega⟩, hsame, .inr ⟨by omega, rfl, hpending, hhist⟩⟩

/-! ## `write_client` -/

/-- The bytes that `ks_send` took. -/
def sentBytes (history : List KsEvent) : List UInt8 :=
  history.flatMap fun
    | .sent data => data
    | _ => []

/-- What was sent in two stretches. -/
theorem sentBytes_append (h h' : List KsEvent) : sentBytes (h ++ h') = sentBytes h ++ sentBytes h' :=
  List.flatMap_append ..

/-- **`write_client`** sends a front of the pending bytes. -/
theorem writeClient_spec {c : KsClient} (h : c.QueueOk) (sends : List KsSend) :
    (writeClient c sends).1.QueueOk ∧ c.SameConn (writeClient c sends).1 ∧
      ∃ events, (writeClient c sends).1.history = c.history ++ events ∧
        (∀ e ∈ events, (∃ data, e = .sent data) ∨ e = .failed) ∧
        sentBytes events ++ (writeClient c sends).1.pending = c.pending := by
  have hstop (c : KsClient) (h : c.QueueOk) (e : List KsEvent) (he : e = [] ∨ e = [.failed]) :
      ∃ events, c.history ++ e = c.history ++ events ∧
        (∀ e ∈ events, (∃ data, e = .sent data) ∨ e = .failed) ∧
        sentBytes events ++ c.pending = c.pending := by
    refine ⟨e, rfl, ?_, ?_⟩
    · rcases he with rfl | rfl <;> simp
    · rcases he with rfl | rfl <;> rfl
  fun_induction writeClient c sends with
  | case1 c hoff => exact ⟨h, .refl c, by simpa using hstop c h [] (.inl rfl)⟩
  | case2 c hoff n sends sent ih =>
    have hsent : sent ≤ c.outputLen - c.outputOffset := Nat.min_le_right _ _
    obtain ⟨hok, hsame, events, hhist, hevents, hbytes⟩ := ih ⟨by simp [KsClient.log]; omega, h.len_le⟩
    refine ⟨hok, ⟨hsame.used, hsame.fd, hsame.id, hsame.closeAfterWrite, hsame.dropConnection,
      hsame.input, hsame.inputLen⟩, .sent (c.output.read c.outputOffset sent) :: events, ?_, ?_, ?_⟩
    · rw [hhist]
      simp [KsClient.log]
    · exact List.forall_mem_cons.mpr ⟨.inl ⟨_, rfl⟩, hevents⟩
    · have hsplit : c.pending = c.output.read c.outputOffset sent ++
          c.output.read (c.outputOffset + sent) (c.outputLen - c.outputOffset - sent) :=
        Mem.read_split c.output hsent
      simp only [sentBytes, List.flatMap_cons, List.append_assoc] at hbytes ⊢
      rw [hbytes, hsplit]
      simp [KsClient.pending, KsClient.pendingLen, KsClient.log, Nat.sub_sub]
  | case3 c hoff => exact ⟨h, .refl c, by simpa using hstop c h [] (.inl rfl)⟩
  | case4 c hoff =>
    exact ⟨⟨h.offset_le, h.len_le⟩, ⟨rfl, rfl, rfl, rfl, rfl, rfl, rfl⟩, hstop c h _ (.inr rfl)⟩
  | case5 c hoff =>
    exact ⟨⟨h.offset_le, h.len_le⟩, ⟨rfl, rfl, rfl, rfl, rfl, rfl, rfl⟩, hstop c h _ (.inr rfl)⟩
  | case6 sends c hoff =>
    have hzero : c.outputLen - c.outputOffset = 0 := by omega
    refine ⟨⟨le_refl _, Nat.zero_le _⟩, ⟨rfl, rfl, rfl, rfl, rfl, rfl, rfl⟩, [], by simp, by simp, ?_⟩
    simp [KsClient.pending, KsClient.pendingLen, sentBytes, hzero]

/-- **`write_client`** fails on a socket error, or when all is sent of a
connection that is to be closed. -/
theorem writeClient_result (c : KsClient) (sends : List KsSend) :
    (writeClient c sends).2 = 0 ∨ .failed ∈ (writeClient c sends).1.history ∨
      c.closeAfterWrite = true := by
  fun_induction writeClient c sends with
  | case1 c hoff => exact .inl rfl
  | case2 c hoff n sends sent ih => exact ih
  | case3 c hoff => exact .inl rfl
  | case4 c hoff => exact .inr (.inl (by simp))
  | case5 c hoff => exact .inr (.inl (by simp))
  | case6 sends c hoff =>
    cases hclosing : c.closeAfterWrite with
    | true => exact .inr (.inr rfl)
    | false => exact .inl (by simp)

/-! ## the queue is a bounded FIFO -/

/-- A call on the output queue of a client. -/
inductive KsQueueOp where
  | queue (data : List UInt8)
  | write (sends : List KsSend)
  deriving Repr

/-- A run of calls: the client after them, and the buffers whose `client_queue`
returned 0. -/
def queueRun : KsClient → List KsQueueOp → KsClient × List (List UInt8)
  | c, [] => (c, [])
  | c, .queue data :: ops =>
    let (c, result) := clientQueue c data
    let (c, accepted) := queueRun c ops
    (c, if result = 0 then data :: accepted else accepted)
  | c, .write sends :: ops => queueRun (writeClient c sends).1 ops

/-- The stream of a queue: what was sent, then what is pending. -/
def KsClient.stream (c : KsClient) : List UInt8 := sentBytes c.history ++ c.pending

/-- `client_queue` appends to the stream what it accepts. -/
theorem stream_clientQueue {c : KsClient} (h : c.QueueOk) (data : List UInt8) :
    (clientQueue c data).1.QueueOk ∧
      (clientQueue c data).1.stream =
        c.stream ++ if (clientQueue c data).2 = 0 then data else [] := by
  obtain ⟨c', hok, -, hcase⟩ := clientQueue_spec h data
  rcases hcase with ⟨-, heq, hpending, hhist⟩ | ⟨-, heq, hpending, hhist⟩
  · simp [heq, hok, KsClient.stream, hpending, hhist, sentBytes]
  · simp [heq, hok, KsClient.stream, hpending, hhist]

/-- `write_client` sends from the front of the stream, and leaves it the same. -/
theorem stream_writeClient {c : KsClient} (h : c.QueueOk) (sends : List KsSend) :
    (writeClient c sends).1.QueueOk ∧ (writeClient c sends).1.stream = c.stream := by
  obtain ⟨hok, -, events, hhist, -, hbytes⟩ := writeClient_spec h sends
  refine ⟨hok, ?_⟩
  rw [KsClient.stream, hhist, sentBytes_append, List.append_assoc, hbytes, KsClient.stream]

/-- A run appends what was accepted, in order. -/
theorem stream_queueRun {c : KsClient} (h : c.QueueOk) (ops : List KsQueueOp) :
    (queueRun c ops).1.QueueOk ∧
      (queueRun c ops).1.stream = c.stream ++ (queueRun c ops).2.flatten := by
  induction ops generalizing c with
  | nil => simp [queueRun, h]
  | cons op ops ih =>
    cases op with
    | queue data =>
      obtain ⟨hok, hstream⟩ := stream_clientQueue h data
      obtain ⟨hok', hstream'⟩ := ih hok
      refine ⟨hok', ?_⟩
      rw [queueRun]
      simp only
      rw [hstream', hstream]
      split <;> simp
    | write sends =>
      obtain ⟨hok, hstream⟩ := stream_writeClient h sends
      rw [queueRun, ← hstream]
      exact ih hok

/-- **The output queue is a bounded FIFO of whole frames.**  After any calls, in
any order and with any partial sends, the bytes sent and the bytes pending are
the buffers accepted, one behind the other; the indices stay in order and in
bounds; and the next `client_queue` fails exactly when the pending bytes and the
buffer exceed the capacity, and then changes nothing that is pending. -/
theorem queueRun_fifo (fd : Nat) (id : UInt64) (ops : List KsQueueOp) :
    let c₀ := { KsClient.free with used := true, fd := fd, id := id }
    let c := (queueRun c₀ ops).1
    sentBytes c.history ++ c.pending = (queueRun c₀ ops).2.flatten ∧
      c.outputOffset ≤ c.outputLen ∧ c.outputLen ≤ ksOutputCap ∧
      ∀ data, ((clientQueue c data).2 = -1 ↔ c.pendingLen + data.length > ksOutputCap) ∧
        ((clientQueue c data).2 = 0 ∨ (clientQueue c data).2 = -1) ∧
        ((clientQueue c data).2 = -1 → (clientQueue c data).1.pending = c.pending) := by
  intro c₀ c
  have hok₀ : c₀.QueueOk := ⟨le_refl _, Nat.zero_le _⟩
  obtain ⟨hok, hstream⟩ := stream_queueRun hok₀ ops
  refine ⟨hstream, hok.offset_le, hok.len_le, ?_⟩
  intro data
  obtain ⟨c', -, -, hcase⟩ := clientQueue_spec hok data
  rcases hcase with ⟨hfits, heq, -⟩ | ⟨hfull, heq, hpending, -⟩
  · rw [heq]
    simpa using hfits
  · rw [heq]
    simpa using ⟨hfull, hpending⟩

end Kessel
