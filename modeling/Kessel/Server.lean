import Kessel.Client
import Kessel.Kv
import Kessel.Protocol.Format
import Kessel.Pubsub

/-!
# Kessel.Server

The commands of the server (`handle_command` in `ks_server.c` and what it
calls).

`KsServer` holds the variables of `ks_server_run`; a `ks_client_t*` is a slot
number.  `runCommand` is the chain of `strcmp` on the command name: it answers a
message for `queue_error` or a formatted response.
-/

namespace Kessel

open CStr (ascii)

/-! ## data -/

/-- `FD_SETSIZE` -/
def fdSetSize : Nat := 1024

/-- `ks_config_t`, as far as the event loop reads it and with what
`ks_server_run` checks first. -/
structure KsConfig where
  maxClients : Nat
  positive : 0 < maxClients
  below : maxClients < fdSetSize

/-- `ks_server_metrics_t` -/
structure KsServerMetrics where
  connectedClients : UInt64
  totalConnections : UInt64
  rejectedConnections : UInt64
  totalCommands : UInt64
  startedAt : Int64
  deriving DecidableEq, Repr

/-- The variables of `ks_server_run`.  `accepted` and `closed` are not in the
source: how many connections were given an id, and the histories of those that
held a slot and were closed. -/
structure KsServer (cfg : KsConfig) where
  clients : Fin cfg.maxClients → KsClient
  store : KsKv
  pubsub : KsPubsub
  metrics : KsServerMetrics
  listenFd : Nat
  nextClientId : UInt64
  acceptBackoffTicks : Nat
  accepted : Nat
  closed : List (List KsEvent)

/-- What one command gets from outside: allocations, the store's clock and
`time(NULL)`. -/
structure KsCommandEnv where
  heap : KsHeap
  clock : KsReadings
  time : Int64

/-- `*client = c` for the client of a slot. -/
def KsServer.setClient {cfg : KsConfig} (s : KsServer cfg) (i : Fin cfg.maxClients) (c : KsClient) :
    KsServer cfg :=
  { s with clients := Function.update s.clients i c }

/-- The contents of a buffer on the stack before anything is written to it. -/
def blank : Mem := fun _ => 0

/-! ## replies and messages -/

/-- `queue_error` -/
def queueError (c : KsClient) (message : List UInt8) : KsClient × Int :=
  let (response, length) := ksFmtError blank 0 256 message
  if length = 0 then (c, -1) else clientQueue c (response.read 0 length)

/-- `format_pubsub_message`, at the start of `response`. -/
def formatPubsubMessage (response : Mem) (capacity : Nat) (channel message : List UInt8) :
    Mem × Nat :=
  let (response, offset) := ksFmtArrayHeader response 0 capacity 3
  if offset = 0 then (response, 0)
  else
    let (response, written) := ksFmtBulk response offset (capacity - offset) (ascii "message")
    if written = 0 then (response, 0)
    else
      let offset := offset + written
      let (response, written) := ksFmtBulk response offset (capacity - offset) channel
      if written = 0 then (response, 0)
      else
        let offset := offset + written
        let (response, written) := ksFmtBulk response offset (capacity - offset) message
        (response, if written = 0 then 0 else offset + written)

/-- `deliver_pubsub_message`, the callback of `PUBLISH`. -/
def deliverPubsubMessage {n : Nat} (clients : Fin n → KsClient) (clientId : UInt64) (channel : CStr)
    (message : List UInt8) : (Fin n → KsClient) × Bool :=
  match (List.finRange n).find? fun i => (clients i).used && (clients i).id = clientId with
  | none => (clients, false)
  | some i =>
    if (clients i).dropConnection then (clients, false)
    else
      let (response, length) := formatPubsubMessage blank (ksMaxRequest + 128) channel.bytes message
      let (client, result) :=
        if length = 0 then (clients i, -1) else clientQueue (clients i) (response.read 0 length)
      if result ≠ 0 then
        (Function.update clients i ({ client with dropConnection := true }.log .dropped), false)
      else (Function.update clients i client, true)

/-! ## `parse_seconds` -/

/-- `isspace` in the C locale. -/
def isSpace (c : UInt8) : Bool := c = 32 || (9 ≤ c && c ≤ 13)

def isDigit (c : UInt8) : Bool := 48 ≤ c && c ≤ 57

/-- A digit is no space, no sign, no newline and no NUL. -/
theorem isDigit_plain {c : UInt8} (h : isDigit c = true) :
    isSpace c = false ∧ c ≠ 43 ∧ c ≠ 45 ∧ c ≠ 10 ∧ c ≠ 0 :=
  @forall_byte
    (fun c => isDigit c = true → isSpace c = false ∧ c ≠ 43 ∧ c ≠ 45 ∧ c ≠ 10 ∧ c ≠ 0)
    (by decide +kernel) c h

theorem takeWhile_isDigit {ds : List UInt8} (h : ∀ c ∈ ds, isDigit c = true) :
    ds.takeWhile isDigit = ds ∧ ds.dropWhile isDigit = [] :=
  ⟨List.takeWhile_eq_self_iff.mpr h, List.dropWhile_eq_nil_iff.mpr h⟩

/-- The value of a run of digits. -/
def digitsValue (ds : List UInt8) : Nat := ds.foldl (fun v c => 10 * v + (c.toNat - 48)) 0

/-- `strtoll(text, &end, 10)`: the number and what stands at `end`; `none` when
there is no number (`end == text`) or it is out of range (`ERANGE`). -/
def strtoll (text : List UInt8) : Option (Int × List UInt8) :=
  let text := text.dropWhile isSpace
  let (negative, text) :=
    match text with
    | 45 :: rest => (true, rest)
    | 43 :: rest => (false, rest)
    | _ => (false, text)
  let ds := text.takeWhile isDigit
  let value : Int := if negative then -(digitsValue ds : Int) else digitsValue ds
  if ds = [] then none
  else if value < -2 ^ 63 ∨ 2 ^ 63 ≤ value then none
  else some (value, text.dropWhile isDigit)

/-- `parse_seconds` -/
def parseSeconds (text : CStr) : Option Int :=
  if text.bytes = [] then none
  else
    match strtoll text.bytes with
    | none => none
    | some (parsed, rest) => if rest = [] then some parsed else none

/-! ## `INFO` -/

/-- The text of `format_info`. -/
def infoText (uptime : Int) (metrics : KsServerMetrics) (maxClients keys : Nat)
    (channels subscriptions : UInt64) : List UInt8 :=
  ascii "# Server\nuptime_in_seconds:" ++ decimalInt uptime ++
  ascii "\n# Clients\nconnected_clients:" ++ decimal metrics.connectedClients.toNat ++
  ascii "\nmax_clients:" ++ decimal maxClients ++
  ascii "\ntotal_connections_received:" ++ decimal metrics.totalConnections.toNat ++
  ascii "\nrejected_connections:" ++ decimal metrics.rejectedConnections.toNat ++
  ascii "\n# Stats\ntotal_commands_processed:" ++ decimal metrics.totalCommands.toNat ++
  ascii "\n# Keyspace\nkeys:" ++ decimal keys ++
  ascii "\n# PubSub\nchannels:" ++ decimal channels.toNat ++
  ascii "\nsubscriptions:" ++ decimal subscriptions.toNat ++ ascii "\n"

/-- `format_info`: the store, whose size is taken, and the response. -/
def formatInfo {cfg : KsConfig} (s : KsServer cfg) (response : Mem) (capacity : Nat)
    (env : KsCommandEnv) : KsKv × Mem × Nat :=
  let now := env.time
  let uptime : Int64 :=
    if now ≠ -1 ∧ s.metrics.startedAt ≠ -1 ∧ s.metrics.startedAt ≤ now then
      now - s.metrics.startedAt
    else 0
  let (store, keys) := ksKvSize s.store env.clock.first
  let (info, written) := snprintf blank 0 768
    (infoText uptime.toInt s.metrics cfg.maxClients keys (ksPubsubChannelCount s.pubsub)
      (ksPubsubSubscriptionCount s.pubsub))
  if written ≥ 768 then (store, response, 0)
  else (store, ksFmtBulk response 0 capacity (info.read 0 written))

/-! ## the commands -/

/-- How a branch of `handle_command` ends: with a `queue_error`, or with a
response of some length. -/
inductive KsReply where
  | error (message : List UInt8)
  | response (m : Mem) (length : Nat)

/-- `sizeof(response)` in `handle_command` -/
def ksResponseCap : Nat := ksMaxRequest + 64

/-- `response_len = format(response, sizeof(response))` -/
def respond (format : Mem → Nat → Nat → Mem × Nat) : KsReply :=
  let (m, length) := format blank 0 ksResponseCap
  .response m length

def wrongArity (command : String) : KsReply :=
  .error (ascii "wrong number of arguments to '" ++ ascii command ++ ascii "'")

def commandPing (args : List CStr) : KsReply :=
  if args.length ≠ 0 then wrongArity "PING" else respond (ksFmtSimple · · · (ascii "PONG"))

def commandEcho : List CStr → KsReply
  | [text] => respond (ksFmtBulk · · · text.bytes)
  | _ => wrongArity "ECHO"

def helpText : List UInt8 :=
  ascii "Kessel commands:\n" ++ ascii " PING\n" ++ ascii " ECHO <string>\n" ++
  ascii " SET <key> <value>\n" ++ ascii " GET <key>\n" ++ ascii " DEL <key>\n" ++
  ascii " EXISTS <key>\n" ++ ascii " SETEX <key> <seconds> <value>\n" ++
  ascii " EXPIRE <key> <seconds>\n" ++ ascii " TTL <key>\n" ++
  ascii " PUBLISH <channel> <message>\n" ++ ascii " SUBSCRIBE <channel>\n" ++
  ascii " UNSUBSCRIBE <channel>\n" ++ ascii " INFO\n" ++ ascii " HELP\n"

def commandHelp (args : List CStr) : KsReply :=
  if args.length ≠ 0 then wrongArity "HELP" else respond (ksFmtBulk · · · helpText)

def commandSet (store : KsKv) (args : List CStr) (env : KsCommandEnv) : KsKv × KsReply :=
  match args with
  | [key, value] =>
    let (store, result) := ksKvSet store key value.bytes env.heap env.clock
    if result = .error then (store, .error (ascii "unable to store value"))
    else (store, respond (ksFmtSimple · · · (ascii "OK")))
  | _ => (store, wrongArity "SET")

def commandGet (store : KsKv) (args : List CStr) (env : KsCommandEnv) : KsKv × KsReply :=
  match args with
  | [key] =>
    let (store, value) := ksKvGet store key env.clock
    match value with
    | none => (store, respond ksFmtNil)
    | some value => (store, respond (ksFmtBulk · · · value))
  | _ => (store, wrongArity "GET")

def commandDel (store : KsKv) (args : List CStr) (env : KsCommandEnv) : KsKv × KsReply :=
  match args with
  | [key] =>
    let (store, removed) := ksKvDelete store key env.clock
    (store, respond (ksFmtInt · · · (if removed then 1 else 0)))
  | _ => (store, wrongArity "DEL")

def commandExists (store : KsKv) (args : List CStr) (env : KsCommandEnv) : KsKv × KsReply :=
  match args with
  | [key] =>
    let (store, found) := ksKvExists store key env.clock
    (store, respond (ksFmtInt · · · (if found then 1 else 0)))
  | _ => (store, wrongArity "EXISTS")

def commandSetex (store : KsKv) (args : List CStr) (env : KsCommandEnv) : KsKv × KsReply :=
  match args with
  | [key, seconds, value] =>
    match parseSeconds seconds with
    | none => (store, .error (ascii "invalid expire time"))
    | some seconds =>
      if seconds ≤ 0 then (store, .error (ascii "invalid expire time"))
      else
        let (store, result) :=
          ksKvSetEx store key value.bytes (UInt64.ofNat seconds.toNat) env.heap env.clock
        if result = .error then (store, .error (ascii "unable to store value"))
        else (store, respond (ksFmtSimple · · · (ascii "OK")))
  | _ => (store, wrongArity "SETEX")

def commandExpire (store : KsKv) (args : List CStr) (env : KsCommandEnv) : KsKv × KsReply :=
  match args with
  | [key, seconds] =>
    match parseSeconds seconds with
    | none => (store, .error (ascii "invalid expire time"))
    | some seconds =>
      let (store, result) :=
        if seconds ≤ 0 then
          let (store, removed) := ksKvDelete store key env.clock
          (store, if removed then KsKvExpireResult.updated else .missing)
        else ksKvExpire store key (UInt64.ofNat seconds.toNat) env.clock
      if result = .error then (store, .error (ascii "invalid expire time"))
      else (store, respond (ksFmtInt · · · (if result = .updated then 1 else 0)))
  | _ => (store, wrongArity "EXPIRE")

def commandTtl (store : KsKv) (args : List CStr) (env : KsCommandEnv) : KsKv × KsReply :=
  match args with
  | [key] =>
    let (store, seconds) := ksKvTtl store key env.clock
    (store, respond (ksFmtInt · · · seconds))
  | _ => (store, wrongArity "TTL")

def commandSubscribe (pubsub : KsPubsub) (id : UInt64) (args : List CStr) (env : KsCommandEnv) :
    KsPubsub × KsReply :=
  match args with
  | [channel] =>
    let (pubsub, status) := ksPubsubSubscribe pubsub channel id env.heap
    if status = .noMemory then (pubsub, .error (ascii "unable to subscribe"))
    else if status = .invalidArgument then (pubsub, .error (ascii "invalid channel"))
    else (pubsub, respond (ksFmtSimple · · · (ascii "OK")))
  | _ => (pubsub, wrongArity "SUBSCRIBE")

def commandUnsubscribe (pubsub : KsPubsub) (id : UInt64) (args : List CStr) : KsPubsub × KsReply :=
  match args with
  | [channel] =>
    let (pubsub, status) := ksPubsubUnsubscribe pubsub channel id
    (pubsub, respond (ksFmtInt · · · (if status = .ok then 1 else 0)))
  | _ => (pubsub, wrongArity "UNSUBSCRIBE")

def commandPublish {n : Nat} (pubsub : KsPubsub) (clients : Fin n → KsClient) (args : List CStr) :
    (Fin n → KsClient) × KsReply :=
  match args with
  | [channel, message] =>
    let (clients, recipients) :=
      ksPubsubPublish pubsub channel message.bytes deliverPubsubMessage clients
    (clients, respond (ksFmtInt · · · (Word.i64 recipients.toNat)))
  | _ => (clients, wrongArity "PUBLISH")

variable {cfg : KsConfig}

/-- The branches of `handle_command`. -/
def runCommand (s : KsServer cfg) (i : Fin cfg.maxClients) (command : CStr) (args : List CStr)
    (env : KsCommandEnv) : KsServer cfg × KsReply :=
  let onStore (r : KsKv × KsReply) : KsServer cfg × KsReply := ({ s with store := r.1 }, r.2)
  let onPubsub (r : KsPubsub × KsReply) : KsServer cfg × KsReply := ({ s with pubsub := r.1 }, r.2)
  if command.bytes = ascii "PING" then (s, commandPing args)
  else if command.bytes = ascii "ECHO" then (s, commandEcho args)
  else if command.bytes = ascii "HELP" then (s, commandHelp args)
  else if command.bytes = ascii "SET" then onStore (commandSet s.store args env)
  else if command.bytes = ascii "GET" then onStore (commandGet s.store args env)
  else if command.bytes = ascii "DEL" then onStore (commandDel s.store args env)
  else if command.bytes = ascii "EXISTS" then onStore (commandExists s.store args env)
  else if command.bytes = ascii "SETEX" then onStore (commandSetex s.store args env)
  else if command.bytes = ascii "EXPIRE" then onStore (commandExpire s.store args env)
  else if command.bytes = ascii "TTL" then onStore (commandTtl s.store args env)
  else if command.bytes = ascii "SUBSCRIBE" then
    onPubsub (commandSubscribe s.pubsub (s.clients i).id args env)
  else if command.bytes = ascii "UNSUBSCRIBE" then
    onPubsub (commandUnsubscribe s.pubsub (s.clients i).id args)
  else if command.bytes = ascii "PUBLISH" then
    let (clients, reply) := commandPublish s.pubsub s.clients args
    ({ s with clients }, reply)
  else if command.bytes = ascii "INFO" then
    if args.length ≠ 0 then (s, wrongArity "INFO")
    else
      let (store, m, length) := formatInfo s blank ksResponseCap env
      ({ s with store }, .response m length)
  else (s, .error (ascii "unknown command"))

/-- The end of a branch of `handle_command`. -/
def sendReply (s : KsServer cfg) (i : Fin cfg.maxClients) (reply : KsReply) : KsServer cfg × Int :=
  let (client, result) :=
    match reply with
    | .error message => queueError (s.clients i) message
    | .response m length =>
      if length = 0 then (s.clients i, -1) else clientQueue (s.clients i) (m.read 0 length)
  (s.setClient i client, result)

/-- `handle_command`, on the line at offset `line` of the client's input. -/
def handleCommand (s : KsServer cfg) (i : Fin cfg.maxClients) (line : Nat) (env : KsCommandEnv) :
    KsServer cfg × Int :=
  let client := s.clients i
  let text := client.input.cstr line (ksInputCap + 1)
  let (input, parsed) := ksParseLine client.input line
  let metrics := { s.metrics with totalCommands := s.metrics.totalCommands + 1 }
  let s := ({ s with metrics }).setClient i
    ({ client with input }.log (.request (.command text.bytes)))
  match parsed with
  | none => sendReply s i (.error (ascii "invalid command"))
  | some command =>
    let name := input.cstr command.cmd (ksMaxRequest + 1)
    let args := command.argv.map fun p => input.cstr p (ksMaxRequest + 1)
    let (s, reply) := runCommand s i name args env
    sendReply s i reply

end Kessel
