import Kessel.Server

/-!
# Kessel.Server.Loop

Requests, reads, writes, accepts and the event loop of `ks_server.c`.

`processRequests`, `readClient`, `acceptClients` and `clientTurn` are the
functions and the loop body of the source; what the sockets answer is an
argument.  `KsLoopStep` is one phase of one iteration of the loop (`select`,
the accepts, the turn of one slot), so a run of it is any number of iterations
with any readiness, any input and any partial sends.
-/

namespace Kessel

open CStr (ascii)

variable {cfg : KsConfig}

/-! ## `process_requests` -/

/-- The loop of `process_requests`, with at most `fuel` bytes ahead: the number
of bytes consumed, and the result when it returns. -/
def processLoop (i : Fin cfg.maxClients) (env : Nat → KsCommandEnv) :
    Nat → KsServer cfg → Nat → KsServer cfg × Nat × Int
  | 0, s, consumed => (s, consumed, 0)
  | fuel + 1, s, consumed =>
    let client := s.clients i
    if ¬ consumed < client.inputLen then (s, consumed, 0)
    else if client.pendingLen ≥ ksOutputHighWater then (s, consumed, 0)
    else
      match client.input.memchr consumed (client.inputLen - consumed) 10 with
      | none => (s, consumed, 0)
      | some newline =>
        let stop := newline + 1
        let lineLen := stop - consumed
        let contentLen :=
          if lineLen - 1 > 0 ∧ client.input (stop - 2) = 13 then lineLen - 2 else lineLen - 1
        if contentLen > ksMaxRequest then
          let (client, result) :=
            queueError (client.log (.request .tooLarge)) (ascii "request too large")
          if result ≠ 0 then (s.setClient i client, consumed, -1)
          else (s.setClient i { client with closeAfterWrite := true }, client.inputLen, 0)
        else if (client.input.memchr consumed lineLen 0).isSome then
          let (client, result) :=
            queueError (client.log (.request .rejected)) (ascii "invalid command")
          if result ≠ 0 then (s.setClient i client, consumed, -1)
          else processLoop i env fuel (s.setClient i client) stop
        else
          let hasFollowingData := stop < client.inputLen
          let saved := client.input stop
          let s := s.setClient i { client with input := client.input.set stop 0 }
          let (s, result) := handleCommand s i consumed (env consumed)
          let client := s.clients i
          let s :=
            if hasFollowingData then s.setClient i { client with input := client.input.set stop saved }
            else s
          if result ≠ 0 then (s, consumed, -1) else processLoop i env fuel s stop

/-- `process_requests`; `env` says what each command gets, by its offset. -/
def processRequests (s : KsServer cfg) (i : Fin cfg.maxClients) (env : Nat → KsCommandEnv) :
    KsServer cfg × Int :=
  let (s, consumed, result) := processLoop i env (s.clients i).inputLen s 0
  if result ≠ 0 then (s, -1)
  else if consumed > 0 then
    let client := s.clients i
    let remaining := client.inputLen - consumed
    (s.setClient i
      { client with input := client.input.move 0 consumed remaining, inputLen := remaining }, 0)
  else (s, 0)

/-! ## `read_client` -/

/-- One result of `ks_recv`, with what the commands get that it brings. -/
inductive KsRecv where
  | ok (data : List UInt8) (env : Nat → KsCommandEnv)
  | wouldBlock
  | closed
  | error

/-- `ks_recv` into the free part of the input buffer. -/
def KsClient.receive (c : KsClient) (data : List UInt8) : KsClient :=
  let data := data.take (ksInputCap - c.inputLen)
  { c with
    input := c.input.write c.inputLen data
    inputLen := c.inputLen + data.length }.log (.received data)

/-- The end of input of a client: no more input, and the connection is closed
once its output is sent. -/
def KsClient.finish (c : KsClient) : KsClient :=
  { c with inputLen := 0, closeAfterWrite := true }.log (.discarded (c.input.read 0 c.inputLen))

/-- `read_client`; when `ks_recv` has no more to say it would block. -/
def readClient (s : KsServer cfg) (i : Fin cfg.maxClients) (recvs : List KsRecv) :
    KsServer cfg × Int :=
  let client := s.clients i
  if client.pendingLen ≥ ksOutputHighWater then (s, 0)
  else if client.inputLen = ksInputCap then
    let (client, result) :=
      queueError (client.log (.request .tooLarge)) (ascii "request too large")
    if result ≠ 0 then (s.setClient i client, -1) else (s.setClient i client.finish, 0)
  else
    match recvs with
    | [] => (s, 0)
    | .wouldBlock :: _ => (s, 0)
    | .closed :: _ =>
      let client := client.log .eof
      let (client, result) :=
        if client.inputLen ≠ 0 then
          queueError (client.log (.request .incomplete)) (ascii "incomplete command")
        else (client, 0)
      if result ≠ 0 then (s.setClient i client, -1) else (s.setClient i client.finish, 0)
    | .error :: _ => (s.setClient i (client.log .failed), -1)
    | .ok data env :: recvs =>
      let (s, result) := processRequests (s.setClient i (client.receive data)) i env
      if result ≠ 0 then (s, -1)
      else if (s.clients i).closeAfterWrite then (s, 0)
      else readClient s i recvs

/-! ## `accept_clients` -/

/-- One result of `ks_accept`, with the allocations that `client_init` gets. -/
inductive KsAccept where
  | ok (fd : Nat) (heap : KsHeap)
  | wouldBlock
  | error

/-- `KS_ACCEPT_BUDGET` -/
def ksAcceptBudget : Nat := 64

/-- `metrics->rejected_connections++` -/
def KsServer.reject (s : KsServer cfg) : KsServer cfg :=
  { s with metrics := { s.metrics with rejectedConnections := s.metrics.rejectedConnections + 1 } }

/-- `(*next_client_id)++`, never 0. -/
def KsServer.takeClientId (s : KsServer cfg) : KsServer cfg :=
  { s with
    nextClientId := if s.nextClientId + 1 = 0 then 1 else s.nextClientId + 1
    accepted := s.accepted + 1 }

/-- One accepted descriptor. -/
def acceptClient (s : KsServer cfg) (fd : Nat) (heap : KsHeap) : KsServer cfg :=
  match (List.finRange cfg.maxClients).find? fun i => !(s.clients i).used with
  | none => s.reject
  | some slot =>
    if fd ≥ fdSetSize then s.reject
    else
      match clientInit fd s.nextClientId heap with
      | none => s.takeClientId.reject
      | some client =>
        let metrics := { s.metrics with
          connectedClients := s.metrics.connectedClients + 1
          totalConnections := s.metrics.totalConnections + 1 }
        { s.takeClientId.setClient slot client with metrics }

/-- `accept_clients`, with `budget` descriptors to go; it ends early when no
connection waits or when a stop is requested. -/
def acceptClients (s : KsServer cfg) : Nat → List KsAccept → KsServer cfg × Int
  | 0, _ => (s, 0)
  | _ + 1, [] => (s, 0)
  | _ + 1, .wouldBlock :: _ => (s, 0)
  | _ + 1, .error :: _ => (s, -1)
  | budget + 1, .ok fd heap :: accepts => acceptClients (acceptClient s fd heap) budget accepts

/-- `accept` answers descriptors that are not open. -/
def FreshFds (s : KsServer cfg) : List KsAccept → Prop
  | .ok fd heap :: accepts =>
    (fd ≠ s.listenFd ∧ ∀ i, (s.clients i).used = true → (s.clients i).fd ≠ fd) ∧
      FreshFds (acceptClient s fd heap) accepts
  | _ => True

/-! ## the turn of a client -/

/-- What the sockets of a client answer in its turn, and what the commands get
that are processed after its output has been written. -/
structure KsTurn where
  recvs : List KsRecv
  sends : List KsSend
  env : Nat → KsCommandEnv

/-- `client_reset` of a used slot. -/
def KsServer.resetClient (s : KsServer cfg) (i : Fin cfg.maxClients) : KsServer cfg :=
  { s.setClient i KsClient.free with closed := s.closed ++ [(s.clients i).history] }

/-- The end of a turn when the connection should be closed. -/
def closeClient (s : KsServer cfg) (i : Fin cfg.maxClients) : KsServer cfg :=
  let metrics :=
    if s.metrics.connectedClients > 0 then
      { s.metrics with connectedClients := s.metrics.connectedClients - 1 }
    else s.metrics
  let pubsub := (ksPubsubRemoveClient s.pubsub (s.clients i).id).1
  KsServer.resetClient { s with metrics, pubsub } i

/-- `FD_ISSET(client->fd, &read_fds) && read_client(...) != 0` -/
def turnRead (s : KsServer cfg) (i : Fin cfg.maxClients) (readable : Bool) (recvs : List KsRecv) :
    KsServer cfg × Bool :=
  if readable then
    let (s, result) := readClient s i recvs
    (s, result ≠ 0)
  else (s, false)

/-- `FD_ISSET(client->fd, &write_fds) && write_client(client) != 0` -/
def turnWrite (s : KsServer cfg) (i : Fin cfg.maxClients) (writable : Bool) (sends : List KsSend) :
    KsServer cfg × Bool :=
  if writable then
    let (client, result) := writeClient (s.clients i) sends
    (s.setClient i client, result ≠ 0)
  else (s, false)

/-- The `process_requests` of a turn. -/
def turnProcess (s : KsServer cfg) (i : Fin cfg.maxClients) (env : Nat → KsCommandEnv) :
    KsServer cfg × Bool :=
  if (s.clients i).inputLen > 0 ∧ (s.clients i).pendingLen < ksOutputHighWater then
    let (s, result) := processRequests s i env
    (s, result ≠ 0)
  else (s, false)

/-- The body of the loop over the clients. -/
def clientTurn (s : KsServer cfg) (i : Fin cfg.maxClients) (readFds writeFds : Nat → Bool)
    (t : KsTurn) : KsServer cfg :=
  if ¬ (s.clients i).used then s
  else
    let fd := (s.clients i).fd
    let shouldClose := (s.clients i).dropConnection
    let (s, failed) := turnRead s i (readFds fd) t.recvs
    let shouldClose := shouldClose || failed
    let (s, shouldClose) := if shouldClose then (s, true) else turnWrite s i (writeFds fd) t.sends
    let (s, shouldClose) := if shouldClose then (s, true) else turnProcess s i t.env
    let shouldClose := shouldClose ||
      ((s.clients i).closeAfterWrite && (s.clients i).outputLen = (s.clients i).outputOffset)
    if shouldClose then closeClient s i else s

/-! ## the event loop -/

/-- `KS_REAPER_BUDGET` -/
def ksReaperBudget : Nat := 32

/-- The start of an iteration: the reaper, and one tick of the accept backoff. -/
def startIteration (s : KsServer cfg) (now : UInt64) : KsServer cfg :=
  { s with
    store := (ksKvReap s.store ksReaperBudget now).1
    acceptBackoffTicks := s.acceptBackoffTicks - 1 }

/-- `read_fds` as it is handed to `select`. -/
def KsServer.WatchedForReading (s : KsServer cfg) (fd : Nat) : Prop :=
  (s.acceptBackoffTicks = 0 ∧ fd = s.listenFd) ∨
    ∃ i, (s.clients i).used = true ∧ (s.clients i).dropConnection = false ∧
      (s.clients i).closeAfterWrite = false ∧ (s.clients i).pendingLen < ksOutputHighWater ∧
      (s.clients i).fd = fd

/-- `write_fds` as it is handed to `select`. -/
def KsServer.WatchedForWriting (s : KsServer cfg) (fd : Nat) : Prop :=
  ∃ i, (s.clients i).used = true ∧ (s.clients i).dropConnection = false ∧
    (s.clients i).outputOffset < (s.clients i).outputLen ∧ (s.clients i).fd = fd

/-- The accepts of an iteration, when the listener is ready. -/
def acceptPhase (s : KsServer cfg) (readFds : Nat → Bool) (accepts : List KsAccept) : KsServer cfg :=
  if s.acceptBackoffTicks = 0 ∧ readFds s.listenFd then
    let (s, result) := acceptClients s ksAcceptBudget accepts
    if result ≠ 0 then { s with acceptBackoffTicks := 10 } else s
  else s

/-- The end of `ks_server_run`: every client is taken off the registry and
reset. -/
def shutdown (s : KsServer cfg) : KsServer cfg :=
  (List.finRange cfg.maxClients).foldl
    (fun s i =>
      if (s.clients i).used then
        KsServer.resetClient
          { s with pubsub := (ksPubsubRemoveClient s.pubsub (s.clients i).id).1 } i
      else s) s

/-- Where the event loop stands: between two iterations, behind `select`, at the
turn of a slot (`turns cfg.maxClients` is behind the last one), or behind the
loop. -/
inductive KsPhase where
  | top
  | selected (readFds writeFds : Nat → Bool)
  | turns (slot : Nat) (readFds writeFds : Nat → Bool)
  | stopped

/-- The event loop. -/
structure KsLoop (cfg : KsConfig) where
  server : KsServer cfg
  phase : KsPhase

/-- The variables of `ks_server_run` before its loop. -/
def ksServerInit (cfg : KsConfig) (listenFd : Nat) (startedAt : Int64) : KsServer cfg where
  clients := fun _ => KsClient.free
  store := ksKvInit
  pubsub := ksPubsubCreate
  metrics := ⟨0, 0, 0, 0, startedAt⟩
  listenFd := listenFd
  nextClientId := 1
  acceptBackoffTicks := 0
  accepted := 0
  closed := []

/-- One phase of one iteration of `ks_server_run`. -/
inductive KsLoopStep : KsLoop cfg → KsLoop cfg → Prop where
  /-- `select` is interrupted -/
  | interrupted (s : KsServer cfg) (now : UInt64) :
      KsLoopStep ⟨s, .top⟩ ⟨startIteration s now, .top⟩
  /-- `select` leaves some of the watched descriptors in the sets -/
  | select (s : KsServer cfg) (now : UInt64) (readFds writeFds : Nat → Bool) :
      (∀ fd, readFds fd = true → s.WatchedForReading fd) →
      (∀ fd, writeFds fd = true → s.WatchedForWriting fd) →
      KsLoopStep ⟨s, .top⟩ ⟨startIteration s now, .selected readFds writeFds⟩
  | accept (s : KsServer cfg) (readFds writeFds : Nat → Bool) (accepts : List KsAccept) :
      FreshFds s accepts →
      KsLoopStep ⟨s, .selected readFds writeFds⟩
        ⟨acceptPhase s readFds accepts, .turns 0 readFds writeFds⟩
  | turn (s : KsServer cfg) (i : Fin cfg.maxClients) (readFds writeFds : Nat → Bool) (t : KsTurn) :
      KsLoopStep ⟨s, .turns i readFds writeFds⟩
        ⟨clientTurn s i readFds writeFds t, .turns (i + 1) readFds writeFds⟩
  | next (s : KsServer cfg) (readFds writeFds : Nat → Bool) :
      KsLoopStep ⟨s, .turns cfg.maxClients readFds writeFds⟩ ⟨s, .top⟩
  /-- a stop is requested -/
  | stop (s : KsServer cfg) : KsLoopStep ⟨s, .top⟩ ⟨shutdown s, .stopped⟩
  /-- `select` fails -/
  | fail (s : KsServer cfg) (now : UInt64) :
      KsLoopStep ⟨s, .top⟩ ⟨shutdown (startIteration s now), .stopped⟩

/-- The states of the event loop. -/
inductive KsLoop.Reachable : KsLoop cfg → Prop where
  | init (listenFd : Nat) (startedAt : Int64) : Reachable ⟨ksServerInit cfg listenFd startedAt, .top⟩
  | step {l l' : KsLoop cfg} : Reachable l → KsLoopStep l l' → Reachable l'

end Kessel
