import Kessel.Cli.Line
import Kessel.Prog

/-!
# Kessel.Cli

The client of `kessel_cli.c`, with the system calls it makes.

A `CliProg` is a function of the client that returns `response_status_t`:
`RESPONSE_OK` is a program that is done, another status one that fails, and a
program that waits has no result.  What the system calls will return is in the
state, in one script for each of them, so that a statement about every script is
one about every behaviour of the system: the answers of `poll`, `recv`, `send`
and `clock_gettime`, which writes to `stdout` succeed, and before which reads of
the flag the interrupt arrives.  A script that is used up makes the client wait.

The reader is the list of its unread bytes.  `wire` holds what has been sent to
the client and not been received; each `recv` says what has arrived there since
the one before it.  `log` records what was sent and what arrived, in order.
-/

namespace Kessel

open CStr (ascii)

/-! ## the client and its system -/

/-- `response_status_t` without `RESPONSE_OK`. -/
inductive ResponseStatus where
  | disconnected
  | ioError
  | protocolError
  | interrupted
  deriving DecidableEq, Repr

/-- `response_kind_t` -/
inductive ResponseKind where
  | simple
  | error
  | integer
  | bulk
  | array
  deriving DecidableEq, Repr

/-- How a `poll` ends; it is `readable` when it reports `POLLIN` or `POLLHUP`. -/
inductive CliPoll where
  | timeout
  | readable
  | notReadable
  | eintr
  | failed
  deriving DecidableEq, Repr

/-- How a `recv` ends: with as many bytes, when there are any; with the end of
the stream, behind the last byte; or with an error. -/
inductive CliRecvResult where
  | data (n : Nat)
  | closed
  | eintr
  | failed
  deriving DecidableEq, Repr

/-- One `recv` and what has arrived before it. -/
structure CliRecv where
  arrived : List UInt8
  result : CliRecvResult
  deriving DecidableEq, Repr

/-- How a `send` ends. -/
inductive CliSend where
  | sent (n : Nat)
  | eintr
  | failed
  deriving DecidableEq, Repr

/-- What happens on the connection, as the client sees it. -/
inductive CliEvent where
  | sent (data : List UInt8)
  | arrived (data : List UInt8)
  deriving DecidableEq, Repr

/-- The reader, the variables of a subscription, and the system. -/
structure Cli where
  unread : List UInt8
  interrupted : Bool
  active : Bool
  unsubscribeSent : Bool
  unsubscribe : Option (List UInt8)
  deadline : Nat
  wire : List UInt8
  signals : List Bool
  polls : List CliPoll
  recvs : List CliRecv
  sends : List CliSend
  hasClock : Bool
  now : Nat
  ticks : List Nat
  writes : List Bool
  stdout : List UInt8
  log : List CliEvent

/-- A client at its prompt that has sent and received nothing, before the scripts
of its system are written. -/
def Cli.idle : Cli :=
  ⟨[], false, false, false, none, 0, [], [], [], [], [], true, 0, [], [], [], []⟩

abbrev CliProg (α : Type) := Prog Cli ResponseStatus α

/-! ## system calls -/

/-- A read of `subscription_interrupted`, which the handler may have set. -/
def subscriptionInterrupted : CliProg Bool := fun c =>
  let interrupted := c.interrupted || c.signals.headD false
  (.done interrupted, { c with interrupted := interrupted, signals := c.signals.tail })

/-- `clock_gettime(CLOCK_MONOTONIC, ...)`, in nanoseconds. -/
def clockGettime : CliProg (Option Nat) := fun c =>
  if c.hasClock then
    let now := c.now + c.ticks.headD 0
    (.done (some now), { c with now := now, ticks := c.ticks.tail })
  else (.done none, c)

/-- `poll(&descriptor, 1, 100)` -/
def poll : CliProg CliPoll := fun c =>
  match c.polls with
  | [] => (.blocked, c)
  | result :: polls => (.done result, { c with polls := polls })

/-- The size of the reader's buffer. -/
def cliBufferSize : Nat := 4096

/-- `recv` into the buffer of the reader, which is empty: whether the loop around
it goes on, because of `EINTR`. -/
def recv : CliProg (Unit ⊕ Unit) := fun c =>
  match c.recvs with
  | [] => (.blocked, c)
  | r :: recvs =>
    let wire := c.wire ++ r.arrived
    let log := c.log ++ [.arrived r.arrived]
    let c := { c with recvs := recvs, wire := wire, log := log }
    let take (n : Nat) : Cli :=
      let n := min (max n 1) cliBufferSize
      { c with unread := wire.take n, wire := wire.drop n }
    match r.result with
    | .eintr => (.done (.inl ()), c)
    | .failed => (.failed .ioError, c)
    | .closed => if wire = [] then (.failed .disconnected, c) else (.done (.inr ()), take cliBufferSize)
    | .data n => if wire = [] then (.blocked, c) else (.done (.inr ()), take n)

/-- The loop of `write_all`. -/
def writeAllLoop (data : List UInt8) (c : Cli) : List CliSend → Outcome ResponseStatus Bool × Cli
  | [] => if data = [] then (.done true, { c with sends := [] }) else (.blocked, { c with sends := [] })
  | send :: sends =>
    if data = [] then (.done true, { c with sends := send :: sends })
    else
      match send with
      | .sent n =>
        let n := max n 1
        writeAllLoop (data.drop n) { c with log := c.log ++ [.sent (data.take n)] } sends
      | .eintr => writeAllLoop data c sends
      | .failed => (.done false, { c with sends := sends })

/-- `write_all` -/
def writeAll (data : List UInt8) : CliProg Bool := fun c => writeAllLoop data c c.sends

/-- `puts` and `printf`, whose results are not looked at. -/
def printOut (text : List UInt8) : CliProg Unit :=
  Prog.modify fun c => { c with stdout := c.stdout ++ text }

/-- `fwrite`, `fputs` and `fputc`, whose results are. -/
def writeOut (text : List UInt8) : CliProg Unit := fun c =>
  if c.writes.headD true then
    (.done (), { c with writes := c.writes.tail, stdout := c.stdout ++ text })
  else (.failed .ioError, { c with writes := c.writes.tail })

/-! ## the reader -/

/-- `deadline_reached` -/
def deadlineReached : CliProg Bool := do
  match ← clockGettime with
  | none => pure true
  | some now =>
    let c ← Prog.get
    pure (c.deadline ≤ now)

/-- `send_pending_unsubscribe` -/
def sendPendingUnsubscribe : CliProg Unit := do
  let interrupted ← subscriptionInterrupted
  let c ← Prog.get
  if ¬ interrupted ∨ c.unsubscribeSent then pure ()
  else
    match c.unsubscribe with
    | none => Prog.fail .ioError
    | some command =>
      let written ← writeAll command
      if written then
        Prog.modify fun c => { c with unsubscribeSent := true }
        match ← clockGettime with
        | none => Prog.fail .ioError
        | some now => Prog.modify fun c => { c with deadline := now + 10 ^ 9 }
      else Prog.fail .ioError

/-- `unsubscribe_sent && deadline_reached(&unsubscribe_deadline)` -/
def unsubscribeLate : CliProg Bool := do
  let c ← Prog.get
  if c.unsubscribeSent then deadlineReached else pure false

/-- What `fill_reader` does for an active subscription before it receives: whether
it gets there. -/
def awaitReadable : CliProg Bool := do
  sendPendingUnsubscribe
  let late ← unsubscribeLate
  if late then Prog.fail .interrupted
  else
    match ← poll with
    | .timeout => pure false
    | .eintr => pure false
    | .failed => Prog.fail .ioError
    | .notReadable => Prog.fail .ioError
    | .readable => pure true

/-- The wait is for an active subscription only. -/
def readyToReceive : CliProg Bool := do
  let c ← Prog.get
  if c.active then awaitReadable else pure true

/-- One turn of the loop of `fill_reader`. -/
def fillTurn : CliProg (Unit ⊕ Unit) := do
  let ready ← readyToReceive
  if ready then recv else pure (.inl ())

/-- `fill_reader` -/
def fillReader : CliProg Unit := Prog.loop (fun c => c.polls.length + c.recvs.length) fillTurn

/-- `if (reader->begin == reader->end)` fill it. -/
def refill : CliProg Unit := do
  let c ← Prog.get
  if c.unread = [] then fillReader else pure ()

/-- At most `n` of the unread bytes. -/
def takeUnread (n : Nat) : CliProg (List UInt8) := fun c =>
  (.done (c.unread.take n), { c with unread := c.unread.drop n })

/-- `read_byte` -/
def readByte : CliProg UInt8 := do
  refill
  let bytes ← takeUnread 1
  pure (bytes.headD 0)

/-- `read_exact`: a turn takes what there is of the bytes that are missing. -/
def readExact (length : Nat) : CliProg (List UInt8) :=
  Prog.iterate (fun (length, output) =>
    if length = 0 then pure (.inr output)
    else do
      refill
      let chunk ← takeUnread length
      pure (.inl (length - chunk.length, output ++ chunk)))
    (length + 1) (length, [])

/-- `read_header`: a line without its `\r\n`, in a buffer of `capacity` bytes. -/
def readHeader (capacity : Nat) : CliProg CStr :=
  Prog.iterate (fun output => do
    let byte ← readByte
    if byte = 10 then
      if output.getLast? = some 13 then pure (.inr (.ofBytes output.dropLast))
      else Prog.fail .protocolError
    else if output.length + 1 ≥ capacity then Prog.fail .protocolError
    else pure (.inl (output ++ [byte])))
    (capacity + 1) []

/-- `parse_integer` -/
def parseInteger (text : CStr) : Option Int :=
  if text.bytes = [] then none
  else
    match strtoll text.bytes with
    | none => none
    | some (parsed, rest) => if rest = [] then some parsed else none

/-! ## rendering -/

/-- The length of a bulk string, as `render_bulk` and `render_array` read it. -/
def bulkLength (header : CStr) : CliProg Int :=
  match parseInteger header with
  | none => Prog.fail .protocolError
  | some length =>
    if length < -1 ∨ length > kesselCliMaxLine then Prog.fail .protocolError else pure length

/-- The loop over the bytes of a bulk string. -/
def renderPayload (length : Nat) : CliProg Unit :=
  Prog.iterate (fun remaining =>
    if remaining = 0 then pure (.inr ())
    else do
      let chunk := min remaining cliBufferSize
      let output ← readExact chunk
      writeOut output
      pure (.inl (remaining - chunk)))
    (length + 1) length

/-- The `\r\n` behind them. -/
def readTerminator : CliProg Unit := do
  let terminator ← readExact 2
  if terminator = crlf then pure () else Prog.fail .protocolError

/-- `render_bulk` -/
def renderBulk (header : CStr) : CliProg Unit := do
  let length ← bulkLength header
  if length = -1 then printOut (ascii "(nil)\n")
  else
    renderPayload length.toNat
    readTerminator
    writeOut [10]

/-- The space between two items of an array. -/
def renderSpace (i : Nat) : CliProg Unit := if i > 0 then writeOut [32] else pure ()

/-- One turn of the loop of `render_array`. -/
def renderItem (i : Nat) : CliProg Unit := do
  let type ← readByte
  if type = 36 then
    let header ← readHeader 32
    let length ← bulkLength header
    renderSpace i
    if length = -1 then writeOut (ascii "(nil)")
    else
      renderPayload length.toNat
      readTerminator
  else Prog.fail .protocolError

/-- The loop of `render_array`, for `count` items from `i` on. -/
def renderItems (i : Nat) : Nat → CliProg Unit
  | 0 => pure ()
  | count + 1 => do
    renderItem i
    renderItems (i + 1) count

/-- `render_array` -/
def renderArray (header : CStr) : CliProg Unit :=
  match parseInteger header with
  | none => Prog.fail .protocolError
  | some count =>
    if count < 0 ∨ count > 16 then Prog.fail .protocolError
    else do
      renderItems 0 count.toNat
      writeOut [10]

/-- The `switch` of `render_response`. -/
def renderKind (type : UInt8) (header : CStr) : CliProg ResponseKind :=
  if type = 43 then do
    printOut (header.bytes ++ [10])
    pure .simple
  else if type = 45 then do
    printOut (ascii "(error) " ++ header.bytes ++ [10])
    pure .error
  else if type = 58 then
    match parseInteger header with
    | none => Prog.fail .protocolError
    | some value => do
      printOut (ascii "(integer) " ++ decimalInt value ++ [10])
      pure .integer
  else if type = 36 then do
    renderBulk header
    pure .bulk
  else if type = 42 then do
    renderArray header
    pure .array
  else Prog.fail .protocolError

/-- `render_response` -/
def renderResponse : CliProg ResponseKind := do
  let type ← readByte
  let header ← readHeader (kesselCliMaxLine + 1)
  renderKind type header

/-! ## subscriptions -/

/-- The wait is over; the flag is read only when the buffer is empty. -/
def waitOver : CliProg Bool := do
  let c ← Prog.get
  if c.unread = [] then subscriptionInterrupted else pure true

/-- One turn of the loop of `wait_for_subscription_data`. -/
def waitTurn : CliProg (Unit ⊕ Unit) := do
  let stop ← waitOver
  if stop then pure (.inr ())
  else
    match ← poll with
    | .timeout => pure (.inl ())
    | .eintr => pure (.inl ())
    | .readable => pure (.inl ())
    | .failed => Prog.fail .ioError
    | .notReadable => Prog.fail .ioError

/-- `wait_for_subscription_data` -/
def waitForSubscriptionData : CliProg Unit := Prog.loop (fun c => c.polls.length) waitTurn

/-- The bytes that a client still gets. -/
def Cli.ahead (c : Cli) : List UInt8 := c.unread ++ c.wire ++ c.recvs.flatMap CliRecv.arrived

/-- One turn of the first loop of `run_subscription`. -/
def listenTurn (responseInterrupted : Bool) : CliProg (Unit ⊕ Unit) := do
  let interrupted ← subscriptionInterrupted
  if interrupted || responseInterrupted then pure (.inr ())
  else
    waitForSubscriptionData
    let interrupted ← subscriptionInterrupted
    if interrupted then pure (.inr ())
    else
      let _ ← renderResponse
      pure (.inl ())

/-- The first loop of `run_subscription`: every turn that goes on has read a byte. -/
def listen (responseInterrupted : Bool) : CliProg Unit :=
  Prog.loop (fun c => c.ahead.length) (listenTurn responseInterrupted)

/-- One turn of the second loop of `run_subscription`. -/
def drainTurn : CliProg (Unit ⊕ Unit) := do
  let kind ← renderResponse
  if kind = .integer ∨ kind = .error then pure (.inr ()) else pure (.inl ())

/-- The second loop of `run_subscription`. -/
def drain : CliProg Unit := Prog.loop (fun c => c.ahead.length) drainTurn

/-- `run_subscription` -/
def runSubscription (responseInterrupted : Bool) : CliProg Unit := do
  listen responseInterrupted
  let interrupted ← subscriptionInterrupted
  if interrupted || responseInterrupted then
    sendPendingUnsubscribe
    drain
  else pure ()

/-! ## one command -/

/-- What `main` gets for a line: whether `malloc` succeeds for the argument and
for the command that ends the subscription, and whether `signal` does. -/
structure CliLineEnv where
  argumentMemory : Bool
  commandMemory : Bool
  handler : Bool
  deriving DecidableEq, Repr

/-- How `main` goes on behind a line. -/
inductive CliNext where
  | prompt
  | exit (code : Nat)
  deriving DecidableEq, Repr

/-- `send_command` -/
def sendCommand (line : List UInt8) : CliProg Bool := do
  let sent ← writeAll (line.take (commandLength line))
  if sent then writeAll crlf else pure false

/-- The variables of a subscription, set. -/
def Cli.enter (c : Cli) (unsubscribe : List UInt8) : Cli :=
  { c with
    interrupted := false, unsubscribeSent := false, unsubscribe := some unsubscribe, active := true }

/-- The variables of a subscription that was not begun, reset. -/
def Cli.cancel (c : Cli) : Cli := { c with active := false, unsubscribe := none }

/-- The variables of a subscription that is over, reset. -/
def Cli.leave (c : Cli) : Cli :=
  { c with active := false, interrupted := false, unsubscribeSent := false, unsubscribe := none }

/-- `kind == RESPONSE_KIND_SIMPLE || subscription_interrupted` -/
def followsKind (kind : ResponseKind) : CliProg Bool :=
  if kind = .simple then pure true else subscriptionInterrupted

/-- What `main` does with the response to a subscription: it may go on to
`run_subscription`. -/
def followSubscription (status : Except ResponseStatus ResponseKind) :
    CliProg (Except ResponseStatus Unit) :=
  match status with
  | .error .interrupted => (runSubscription true).attempt
  | .error e => pure (.error e)
  | .ok kind => do
    let follows ← followsKind kind
    if follows then (runSubscription false).attempt else pure (.ok ())

/-- How `main` goes on with a status. -/
def nextOf : Except ResponseStatus Unit → CliNext
  | .ok _ => .prompt
  | .error .interrupted => .exit 0
  | .error _ => .exit 1

/-- `main` with a line that it sends, for a line that subscribes. -/
def runSubscribeLine (line unsubscribe : List UInt8) (env : CliLineEnv) : CliProg CliNext := do
  Prog.modify fun c => c.enter unsubscribe
  if env.handler then
    let sent ← sendCommand line
    if sent then
      let status ← renderResponse.attempt
      let status ← followSubscription status
      Prog.modify Cli.leave
      pure (nextOf status)
    else
      Prog.modify Cli.cancel
      pure (.exit 1)
  else
    Prog.modify Cli.cancel
    pure (.exit 1)

/-- `main` with a line that it sends, for another line. -/
def runCommandLine (line : List UInt8) : CliProg CliNext := do
  let sent ← sendCommand line
  if sent then
    let status ← renderResponse.attempt
    pure (nextOf (status.map fun _ => ()))
  else pure (.exit 1)

/-- One turn of the loop of `main`, for a line that has been read. -/
def runLine (line : List UInt8) (env : CliLineEnv) : CliProg CliNext :=
  if isExitCommand line then pure (.exit 0)
  else if commandLength line = 0 then pure .prompt
  else if commandLength line > kesselCliMaxLine then pure .prompt
  else
    match copySubscribeArgument line env.argumentMemory with
    | (.noMemory, _) => pure (.exit 1)
    | (.command, some argument) =>
      if env.commandMemory then runSubscribeLine line (unsubscribeCommand argument) env
      else pure (.exit 1)
    | _ => runCommandLine line

end Kessel
