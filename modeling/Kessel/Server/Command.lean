import Kessel.Kv.Values
import Kessel.Server.Deliver

/-!
# Kessel.Server.Command

What one command answers and changes.

Every branch of `handle_command` ends in one reply frame that is small enough
for the room that the high-water mark leaves (`KsReply.Good`), whatever the
allocations and the clocks answer; it keeps the sizes of the stored values, adds
nobody but the issuer to the registry, and only `PUBLISH` touches the clients.
`runCommand_spec` puts the branches together.
-/

namespace Kessel

open CStr (ascii)

/-! ## replies -/

/-- The reply puts this frame into the output queue. -/
def KsReply.Sends (frame : List UInt8) : KsReply → Prop
  | .error message => frame = errorFrame message ∧ frame.length < 256
  | .response m length => length = frame.length ∧ m.read 0 frame.length = frame

/-- The reply is one frame of at most `limit` bytes. -/
def KsReply.Good (limit : Nat) (reply : KsReply) : Prop :=
  ∃ frame, IsReply frame ∧ frame.length ≤ limit ∧ reply.Sends frame

/-- A reply that fits fits into more. -/
theorem KsReply.Good.mono {limit limit' : Nat} {reply : KsReply} (h : reply.Good limit)
    (hle : limit ≤ limit') : reply.Good limit' := by
  obtain ⟨frame, hreply, hlen, hsends⟩ := h
  exact ⟨frame, hreply, hlen.trans hle, hsends⟩

/-- An error without a line feed fits into the buffer of `queue_error`. -/
theorem good_error {message : List UInt8} (h : message.length < 249 ∧ 10 ∉ message) :
    (KsReply.error message).Good 256 := by
  have hlen := length_errorFrame message
  exact ⟨_, .error h.2, by omega, rfl, by omega⟩

/-- The arity error of any command fits. -/
theorem good_wrongArity {command : String}
    (h : (ascii command).length ≤ 64 ∧ 10 ∉ ascii command) : (wrongArity command).Good 256 := by
  have hlead : (ascii "wrong number of arguments to '").length = 30 := by decide
  have hquote : (ascii "'").length = 1 := by decide
  have hlead' : 10 ∉ ascii "wrong number of arguments to '" := by decide
  have hquote' : 10 ∉ ascii "'" := by decide
  refine good_error ⟨?_, by simp [h.2, hlead', hquote']⟩
  simp only [List.length_append, hlead, hquote]
  omega

/-- What a formatter has written is good when it fits. -/
theorem good_response {m : Mem} {length limit : Nat} {frame : List UInt8} (hreply : IsReply frame)
    (h : Formatted blank 0 frame (m, length)) (hlen : frame.length ≤ limit) :
    (KsReply.response m length).Good limit :=
  ⟨frame, hreply, hlen, h.length, h.bytes⟩

/-- A simple reply of a short text. -/
theorem good_simple {text : List UInt8} (h : text.length ≤ 64 ∧ 10 ∉ text) :
    (respond (ksFmtSimple · · · text)).Good 256 := by
  have hlen := length_simpleFrame text
  have hfits : text.length + 3 < ksResponseCap := by
    simp only [ksResponseCap, ksMaxRequest]
    omega
  exact good_response (.simple h.2) (ksFmtSimple_formatted blank 0 text hfits) (by omega)

/-- A number has at most 21 characters, its sign included. -/
theorem good_int {v : Int} (h : v.natAbs < 2 ^ 64) : (respond (ksFmtInt · · · v)).Good 24 := by
  have hlen := length_intFrame v
  have hdigits := length_decimalInt_le (by decide : 0 < 20) (show v.natAbs < 10 ^ 20 by omega)
  have hfits : (decimalInt v).length + 3 < ksResponseCap := by
    simp only [ksResponseCap, ksMaxRequest]
    omega
  exact good_response (.int v) (ksFmtInt_formatted blank 0 v hfits) (by omega)

/-- The answer of `DEL`, `EXISTS` and `EXPIRE`. -/
theorem good_flag (b : Bool) : (respond (ksFmtInt · · · (if b then 1 else 0))).Good 256 :=
  (good_int (by cases b <;> decide)).mono (by decide)

/-- The bulk frame of any argument fits into the response buffer. -/
theorem good_bulk {text : List UInt8} (h : text.length ≤ ksMaxRequest) :
    (respond (ksFmtBulk · · · text)).Good ksResponseCap := by
  have hlen := length_bulkFrame text
  have hdigits := length_decimal_request h
  have hfits : (decimal text.length).length + text.length + 5 < ksResponseCap := by
    simp only [ksResponseCap]
    omega
  exact good_response (.bulk text) (ksFmtBulk_formatted blank 0 text hfits) (by omega)

/-- The nil reply. -/
theorem good_nil : (respond ksFmtNil).Good 256 := by
  have hfits : 6 ≤ ksResponseCap := by decide
  exact good_response .nil (ksFmtNil_formatted blank 0 hfits) (by rw [length_nilFrame]; decide)

/-- The response buffer is no smaller than that of an error. -/
theorem ksResponseCap_ge : 256 ≤ ksResponseCap := by decide

/-! ## the texts of `HELP` and `INFO` -/

set_option maxRecDepth 2000 in

/-- The text of `HELP` is no longer than a request. -/
theorem length_helpText_le : helpText.length ≤ ksMaxRequest := by
  have hlen : helpText.length < 300 := by decide
  rw [ksMaxRequest]
  omega

/-- A 64-bit number has at most twenty digits. -/
theorem length_decimal_u64 {n : Nat} (h : n < 2 ^ 64) : (decimal n).length ≤ 20 :=
  length_decimal_le (by decide) (by omega)

/-- A signed 64-bit number has at most nineteen digits. -/
theorem natAbs_int64_lt (v : Int64) : v.toInt.natAbs < 10 ^ 19 := by
  have hlt := v.toInt_lt
  have hge := v.le_toInt
  omega

set_option maxRecDepth 2000 in

/-- The text of `INFO` fits into its buffer, whatever the numbers are. -/
theorem length_infoText_lt (uptime : Int64) (metrics : KsServerMetrics) {maxClients keys : Nat}
    (channels subscriptions : UInt64) (hmax : maxClients < fdSetSize) (hkeys : keys < 2 ^ 64) :
    (infoText uptime.toInt metrics maxClients keys channels subscriptions).length < 768 := by
  have h₁ := length_decimalInt_le (by decide) (natAbs_int64_lt uptime)
  have h₂ := length_decimal_u64 metrics.connectedClients.toNat_lt
  have h₃ := length_decimal_u64 (n := maxClients) (by rw [fdSetSize] at hmax; omega)
  have h₄ := length_decimal_u64 metrics.totalConnections.toNat_lt
  have h₅ := length_decimal_u64 metrics.rejectedConnections.toNat_lt
  have h₆ := length_decimal_u64 metrics.totalCommands.toNat_lt
  have h₇ := length_decimal_u64 hkeys
  have h₈ := length_decimal_u64 channels.toNat_lt
  have h₉ := length_decimal_u64 subscriptions.toNat_lt
  have hlabels : (ascii "# Server\nuptime_in_seconds:" ++
      (ascii "\n# Clients\nconnected_clients:" ++ (ascii "\nmax_clients:" ++
      (ascii "\ntotal_connections_received:" ++ (ascii "\nrejected_connections:" ++
      (ascii "\n# Stats\ntotal_commands_processed:" ++ (ascii "\n# Keyspace\nkeys:" ++
      (ascii "\n# PubSub\nchannels:" ++ (ascii "\nsubscriptions:" ++ ascii "\n"))))))))).length <
        300 := by decide
  simp only [List.length_append] at hlabels
  unfold infoText
  simp only [List.length_append]
  omega

variable {cfg : KsConfig}

/-- `INFO` answers with one bulk reply. -/
theorem formatInfo_eq (s : KsServer cfg) (env : KsCommandEnv) :
    ∃ text : List UInt8, text.length ≤ ksMaxRequest ∧
      formatInfo s blank ksResponseCap env =
        ((ksKvSize s.store env.clock.first).1, ksFmtBulk blank 0 ksResponseCap text) := by
  have hkeys := ksKvSize_lt s.store env.clock.first
  unfold formatInfo
  generalize ksKvSize s.store env.clock.first = k at *
  obtain ⟨store, keys⟩ := k
  simp only
  generalize (if env.time ≠ -1 ∧ s.metrics.startedAt ≠ -1 ∧ s.metrics.startedAt ≤ env.time then
    env.time - s.metrics.startedAt else 0) = uptime
  have hlen := length_infoText_lt uptime s.metrics (ksPubsubChannelCount s.pubsub)
    (ksPubsubSubscriptionCount s.pubsub) cfg.below hkeys
  generalize infoText uptime.toInt s.metrics cfg.maxClients keys (ksPubsubChannelCount s.pubsub)
    (ksPubsubSubscriptionCount s.pubsub) = text at *
  have hwritten : (snprintf blank 0 768 text).2 = text.length := rfl
  generalize snprintf blank 0 768 text = w at *
  obtain ⟨info, written⟩ := w
  simp only at hwritten ⊢
  rw [if_neg (by omega)]
  refine ⟨info.read 0 written, ?_, rfl⟩
  simp only [Mem.length_read, ksMaxRequest]
  omega

/-- `format_info` writes one bulk frame, and reaps the store. -/
theorem formatInfo_good (s : KsServer cfg) (env : KsCommandEnv) :
    (KsReply.response (formatInfo s blank ksResponseCap env).2.1
      (formatInfo s blank ksResponseCap env).2.2).Good ksResponseCap ∧
      (formatInfo s blank ksResponseCap env).1 = (ksKvSize s.store env.clock.first).1 := by
  obtain ⟨text, hlen, heq⟩ := formatInfo_eq s env
  rw [heq]
  exact ⟨good_bulk hlen, rfl⟩

/-! ## the commands on the store -/

/-- No stored value is longer than a request. -/
def KsKv.Bounded (store : KsKv) : Prop := store.Keeps fun value => value.length ≤ ksMaxRequest

/-- What a command on the store must do: keep the store bounded and send one
reply. -/
def StoreReply (r : KsKv × KsReply) : Prop := r.1.Bounded ∧ r.2.Good ksResponseCap

section

variable {store : KsKv} {args : List CStr}

/-- A command on the store may answer without a look at it. -/
theorem storeReply_wrongArity (h : store.Bounded) {command : String}
    (hc : (ascii command).length ≤ 64 ∧ 10 ∉ ascii command) : StoreReply (store, wrongArity command) :=
  ⟨h, (good_wrongArity hc).mono ksResponseCap_ge⟩

theorem storeReply_error (h : store.Bounded) {message : List UInt8}
    (hm : message.length < 249 ∧ 10 ∉ message) : StoreReply (store, .error message) :=
  ⟨h, (good_error hm).mono ksResponseCap_ge⟩

/-- A flag, and the store as it was. -/
theorem storeReply_flag (h : store.Bounded) (b : Bool) :
    StoreReply (store, respond (ksFmtInt · · · (if b then 1 else 0))) :=
  ⟨h, (good_flag b).mono ksResponseCap_ge⟩

/-- `OK`, and the store as it was. -/
theorem storeReply_ok (h : store.Bounded) :
    StoreReply (store, respond (ksFmtSimple · · · (ascii "OK"))) := by
  have hok : (ascii "OK").length ≤ 64 ∧ 10 ∉ ascii "OK" := by decide
  exact ⟨h, (good_simple hok).mono ksResponseCap_ge⟩

/-- `SET` stores values that are no longer than a request. -/
theorem commandSet_spec (h : store.Bounded) (hargs : ∀ a ∈ args, a.length ≤ ksMaxRequest)
    (env : KsCommandEnv) : StoreReply (commandSet store args env) := by
  unfold commandSet
  split
  · next key value =>
    have hset := h.setEx (hargs value (by simp)) key 0 env.heap env.clock
    rw [← ksKvSet] at hset
    generalize ksKvSet store key value.bytes env.heap env.clock = r at *
    simp only
    split
    · exact storeReply_error hset (by decide)
    · exact storeReply_ok hset
  · exact storeReply_wrongArity h (by decide)

/-- `GET` answers with a value that fits. -/
theorem commandGet_spec (h : store.Bounded) (env : KsCommandEnv) :
    StoreReply (commandGet store args env) := by
  unfold commandGet
  split
  · next key =>
    obtain ⟨hstore, hvalue⟩ := h.ksKvGet key env.clock
    generalize ksKvGet store key env.clock = r at *
    obtain ⟨store', value⟩ := r
    cases value with
    | none => exact ⟨hstore, good_nil.mono ksResponseCap_ge⟩
    | some value => exact ⟨hstore, good_bulk (hvalue value rfl)⟩
  · exact storeReply_wrongArity h (by decide)

/-- `DEL` answers with a flag. -/
theorem commandDel_spec (h : store.Bounded) (env : KsCommandEnv) :
    StoreReply (commandDel store args env) := by
  unfold commandDel
  split
  · next key => exact storeReply_flag (h.delete key env.clock) _
  · exact storeReply_wrongArity h (by decide)

/-- `EXISTS` answers with a flag. -/
theorem commandExists_spec (h : store.Bounded) (env : KsCommandEnv) :
    StoreReply (commandExists store args env) := by
  unfold commandExists
  split
  · next key => exact storeReply_flag (h.exists key env.clock) _
  · exact storeReply_wrongArity h (by decide)

/-- `SETEX` stores values that are no longer than a request. -/
theorem commandSetex_spec (h : store.Bounded) (hargs : ∀ a ∈ args, a.length ≤ ksMaxRequest)
    (env : KsCommandEnv) : StoreReply (commandSetex store args env) := by
  unfold commandSetex
  split
  · next key seconds value =>
    split
    · exact storeReply_error h (by decide)
    · next n hn =>
      split
      · exact storeReply_error h (by decide)
      · have hset := h.setEx (hargs value (by simp)) key (UInt64.ofNat n.toNat) env.heap env.clock
        generalize ksKvSetEx store key value.bytes _ env.heap env.clock = r at *
        simp only
        split
        · exact storeReply_error hset (by decide)
        · exact storeReply_ok hset
  · exact storeReply_wrongArity h (by decide)

/-- `EXPIRE` answers with a flag, or that the time is invalid. -/
theorem commandExpire_spec (h : store.Bounded) (env : KsCommandEnv) :
    StoreReply (commandExpire store args env) := by
  unfold commandExpire
  split
  · next key seconds =>
    split
    · exact storeReply_error h (by decide)
    · next n hn =>
      -- the two ways to the store, and one reply for both
      have hboth (r : KsKv × KsKvExpireResult) (hr : r.1.Bounded) :
          StoreReply
            (if r.2 = .error then (r.1, .error (ascii "invalid expire time"))
            else (r.1, respond (ksFmtInt · · · (if r.2 = .updated then 1 else 0)))) := by
        split
        · exact storeReply_error hr (by decide)
        · simpa using storeReply_flag hr (decide (r.2 = .updated))
      by_cases hpast : n ≤ 0
      · simp only [if_pos hpast]
        exact hboth (_, _) (h.delete key env.clock)
      · simp only [if_neg hpast]
        exact hboth _ (h.expire key _ env.clock)
  · exact storeReply_wrongArity h (by decide)

/-- `TTL` answers with a number. -/
theorem commandTtl_spec (h : store.Bounded) (env : KsCommandEnv) :
    StoreReply (commandTtl store args env) := by
  unfold commandTtl
  split
  · next key =>
    obtain ⟨hstore, hlt⟩ := h.ttl key env.clock
    exact ⟨hstore, (good_int hlt).mono (by decide)⟩
  · exact storeReply_wrongArity h (by decide)

end

/-! ## the commands on the registry -/

/-- What a command on the registry must do: keep it in order, add nobody but the
issuer, and send one short reply. -/
structure PubsubReply (pubsub : KsPubsub) (id : UInt64) (r : KsPubsub × KsReply) : Prop where
  wf : r.1.Wf
  subscribers : ∀ channel x, x ∈ r.1.subscribersOf channel → x ∈ pubsub.subscribersOf channel ∨ x = id
  reply : r.2.Good 256

section

variable {pubsub : KsPubsub}

/-- A command on the registry may leave it as it is. -/
theorem pubsubReply_same (h : pubsub.Wf) (id : UInt64) {reply : KsReply} (hr : reply.Good 256) :
    PubsubReply pubsub id (pubsub, reply) :=
  ⟨h, fun _ _ => .inl, hr⟩

/-- `SUBSCRIBE` changes the subscriptions of its client only. -/
theorem commandSubscribe_spec (h : pubsub.Wf) (id : UInt64) (args : List CStr) (env : KsCommandEnv) :
    PubsubReply pubsub id (commandSubscribe pubsub id args env) := by
  have hok : (ascii "OK").length ≤ 64 ∧ 10 ∉ ascii "OK" := by decide
  unfold commandSubscribe
  split
  · next channel =>
    obtain ⟨hwf, hcase⟩ := KsPubsub.subscribersOf_subscribe h channel id env.heap
    generalize ksPubsubSubscribe pubsub channel id env.heap = r at *
    obtain ⟨pubsub', status⟩ := r
    have hsubs : ∀ c x, x ∈ pubsub'.subscribersOf c → x ∈ pubsub.subscribersOf c ∨ x = id := by
      intro c x hx
      rcases hcase with ⟨-, -, hsubs⟩ | ⟨-, hsame⟩
      · simp only at hsubs
        rw [hsubs c] at hx
        split at hx
        · next hc => rw [hc]; exact (List.mem_cons.mp hx).symm
        · exact .inl hx
      · simp only at hsame
        rw [hsame] at hx
        exact .inl hx
    simp only
    split
    · exact ⟨hwf, hsubs, good_error (by decide)⟩
    · split
      · exact ⟨hwf, hsubs, good_error (by decide)⟩
      · exact ⟨hwf, hsubs, good_simple hok⟩
  · exact pubsubReply_same h id (good_wrongArity (by decide))

/-- `UNSUBSCRIBE` changes the subscriptions of its client only. -/
theorem commandUnsubscribe_spec (h : pubsub.Wf) (id : UInt64) (args : List CStr) :
    PubsubReply pubsub id (commandUnsubscribe pubsub id args) := by
  unfold commandUnsubscribe
  split
  · next channel =>
    obtain ⟨hwf, hcase⟩ := KsPubsub.subscribersOf_unsubscribe h channel id
    generalize ksPubsubUnsubscribe pubsub channel id = r at *
    obtain ⟨pubsub', status⟩ := r
    have hsubs : ∀ c x, x ∈ pubsub'.subscribersOf c → x ∈ pubsub.subscribersOf c ∨ x = id := by
      intro c x hx
      rcases hcase with ⟨-, -, hsubs⟩ | ⟨-, -, hsame⟩
      · simp only at hsubs
        rw [hsubs c] at hx
        split at hx
        · next hc => rw [hc]; exact .inl (List.mem_of_mem_erase hx)
        · exact .inl hx
      · simp only at hsame
        rw [hsame] at hx
        exact .inl hx
    have hflag := good_flag (decide (status = .ok))
    simp only [decide_eq_true_eq] at hflag
    exact ⟨hwf, hsubs, hflag⟩
  · exact pubsubReply_same h id (good_wrongArity (by decide))

/-! ## `PUBLISH` -/

/-- The ids that a `PUBLISH` with these arguments is for. -/
def publishTargets (pubsub : KsPubsub) : List CStr → List UInt64
  | [channel, _] => pubsub.subscribersOf channel
  | _ => []

/-- The frame that a `PUBLISH` with these arguments offers. -/
def publishFrame : List CStr → List UInt8
  | [channel, message] => messageFrame channel.bytes message.bytes
  | _ => []

/-- A message frame is as long as its arguments, and its headers. -/
theorem length_publishFrame_le {args : List CStr} (h : (args.map CStr.length).sum ≤ ksMaxRequest) :
    (publishFrame args).length ≤ ksMaxRequest + 37 := by
  unfold publishFrame
  split
  · next channel message =>
    exact length_messageFrame_le (by simpa [CStr.length] using h)
  · simp

variable {n : Nat} {clients : Fin n → KsClient}

/-- `PUBLISH` offers one frame to the subscribers of the channel, and answers how
many took it. -/
theorem commandPublish_eq (h : pubsub.Wf) (hq : ∀ i, (clients i).QueueOk) {channel message : CStr}
    (hlen : channel.length + message.length ≤ ksMaxRequest) :
    commandPublish pubsub clients [channel, message] =
      (offerAll clients (pubsub.subscribersOf channel) (messageFrame channel.bytes message.bytes),
        respond (ksFmtInt · · · (Word.i64 (UInt64.ofNat ((pubsub.subscribersOf channel).countP
          (delivered clients (messageFrame channel.bytes message.bytes)))).toNat))) := by
  rw [commandPublish, KsPubsub.publish_eq h, publishLoop_deliver hq hlen (h.nodup_subscribersOf channel)]
  simp only [UInt64.zero_add]

/-- The magnitude of a number that is read as a signed one. -/
theorem natAbs_i64_lt {k : Nat} (h : k < 2 ^ 64) : (Word.i64 k).natAbs < 2 ^ 64 := by
  unfold Word.i64
  split <;> omega

/-- `PUBLISH` changes the queues of its targets only. -/
theorem commandPublish_spec (h : pubsub.Wf) (hq : ∀ i, (clients i).QueueOk) {args : List CStr}
    (hargs : (args.map CStr.length).sum ≤ ksMaxRequest) :
    (commandPublish pubsub clients args).1 =
        offerAll clients (publishTargets pubsub args) (publishFrame args) ∧
      (commandPublish pubsub clients args).2.Good ksResponseCap ∧
      (publishTargets pubsub args = [] ∨ (commandPublish pubsub clients args).2.Good 24) := by
  have hother : (wrongArity "PUBLISH").Good ksResponseCap :=
    (good_wrongArity (by decide)).mono ksResponseCap_ge
  match args, hargs with
  | [channel, message], hargs =>
    rw [commandPublish_eq h hq (by simpa using hargs)]
    have hint (k : UInt64) : (respond (ksFmtInt · · · (Word.i64 k.toNat))).Good 24 :=
      good_int (natAbs_i64_lt k.toNat_lt)
    exact ⟨rfl, (hint _).mono (by decide), .inr (hint _)⟩
  | [], _ => exact ⟨(offerAll_nil _ _).symm, hother, .inl rfl⟩
  | [_], _ => exact ⟨(offerAll_nil _ _).symm, hother, .inl rfl⟩
  | _ :: _ :: _ :: _, _ => exact ⟨(offerAll_nil _ _).symm, hother, .inl rfl⟩

end

/-! ## all commands -/

/-- The ids that a command delivers to. -/
def commandTargets (pubsub : KsPubsub) (name : CStr) (args : List CStr) : List UInt64 :=
  if name.bytes = ascii "PUBLISH" then publishTargets pubsub args else []

/-- What a command must do.  A reply that comes behind a delivery is short. -/
structure Ran (s : KsServer cfg) (i : Fin cfg.maxClients) (name : CStr) (args : List CStr)
    (r : KsServer cfg × KsReply) : Prop where
  store : r.1.store.Bounded
  wf : r.1.pubsub.Wf
  subscribers : ∀ channel x, x ∈ r.1.pubsub.subscribersOf channel →
    x ∈ s.pubsub.subscribersOf channel ∨ x = (s.clients i).id
  clients : r.1.clients =
    offerAll s.clients (commandTargets s.pubsub name args) (publishFrame args)
  others : r.1 = { s with store := r.1.store, pubsub := r.1.pubsub, clients := r.1.clients }
  reply : r.2.Good ksResponseCap
  short : commandTargets s.pubsub name args = [] ∨ r.2.Good 24

section

variable {s : KsServer cfg} {i : Fin cfg.maxClients} {name : CStr} {args : List CStr}

/-- A command on the store, as a change of the server. -/
theorem ran_store (hwf : s.pubsub.Wf) (hname : name.bytes ≠ ascii "PUBLISH") {r : KsKv × KsReply}
    (hr : StoreReply r) : Ran s i name args ({ s with store := r.1 }, r.2) where
  store := hr.1
  wf := hwf
  subscribers := fun _ _ => .inl
  clients := by rw [commandTargets, if_neg hname, offerAll_nil]
  others := rfl
  reply := hr.2
  short := .inl (if_neg hname)

/-- A reply that changes nothing. -/
theorem ran_reply (hstore : s.store.Bounded) (hwf : s.pubsub.Wf)
    (hname : name.bytes ≠ ascii "PUBLISH") {reply : KsReply} (hr : reply.Good ksResponseCap) :
    Ran s i name args (s, reply) :=
  @ran_store _ _ _ _ _ hwf hname (s.store, reply) ⟨hstore, hr⟩

/-- A command on the registry, as a change of the server. -/
theorem ran_pubsub (hstore : s.store.Bounded) (hname : name.bytes ≠ ascii "PUBLISH")
    {r : KsPubsub × KsReply} (hr : PubsubReply s.pubsub (s.clients i).id r) :
    Ran s i name args ({ s with pubsub := r.1 }, r.2) where
  store := hstore
  wf := hr.wf
  subscribers := hr.subscribers
  clients := by rw [commandTargets, if_neg hname, offerAll_nil]
  others := rfl
  reply := hr.reply.mono ksResponseCap_ge
  short := .inl (if_neg hname)

/-- **Every branch of `handle_command`.** -/
theorem runCommand_spec (hstore : s.store.Bounded) (hwf : s.pubsub.Wf)
    (hq : ∀ i, (s.clients i).QueueOk) (hargs : (args.map CStr.length).sum ≤ ksMaxRequest)
    (i : Fin cfg.maxClients) (env : KsCommandEnv) :
    Ran s i name args (runCommand s i name args env) := by
  have hlen (a : CStr) (ha : a ∈ args) : a.length ≤ ksMaxRequest :=
    (List.single_le_sum (fun _ _ => Nat.zero_le _) _ (List.mem_map_of_mem ha)).trans hargs
  have hname {c : String} (h : name.bytes = ascii c) (hc : ascii c ≠ ascii "PUBLISH") :
      name.bytes ≠ ascii "PUBLISH" := by rw [h]; exact hc
  have harity {c : String} (hc : (ascii c).length ≤ 64 ∧ 10 ∉ ascii c) :
      (wrongArity c).Good ksResponseCap :=
    (good_wrongArity hc).mono ksResponseCap_ge
  unfold runCommand
  extract_lets onStore onPubsub
  refine iteInduction (motive := Ran s i name args) (fun h => ?ping) fun _ => ?_
  case ping =>
    refine ran_reply hstore hwf (hname h (by decide)) ?_
    unfold commandPing
    split
    · exact harity (by decide)
    · have hpong : (ascii "PONG").length ≤ 64 ∧ 10 ∉ ascii "PONG" := by decide
      exact (good_simple hpong).mono ksResponseCap_ge
  refine iteInduction (motive := Ran s i name args) (fun h => ?echo) fun _ => ?_
  case echo =>
    refine ran_reply hstore hwf (hname h (by decide)) ?_
    unfold commandEcho
    split
    · next text => exact good_bulk (hlen text (by simp))
    · exact harity (by decide)
  refine iteInduction (motive := Ran s i name args) (fun h => ?help) fun _ => ?_
  case help =>
    refine ran_reply hstore hwf (hname h (by decide)) ?_
    unfold commandHelp
    split
    · exact harity (by decide)
    · exact good_bulk length_helpText_le
  refine iteInduction (motive := Ran s i name args) (fun h => ?set) fun _ => ?_
  case set => exact ran_store hwf (hname h (by decide)) (commandSet_spec hstore hlen env)
  refine iteInduction (motive := Ran s i name args) (fun h => ?get) fun _ => ?_
  case get => exact ran_store hwf (hname h (by decide)) (commandGet_spec hstore env)
  refine iteInduction (motive := Ran s i name args) (fun h => ?del) fun _ => ?_
  case del => exact ran_store hwf (hname h (by decide)) (commandDel_spec hstore env)
  refine iteInduction (motive := Ran s i name args) (fun h => ?ex) fun _ => ?_
  case ex => exact ran_store hwf (hname h (by decide)) (commandExists_spec hstore env)
  refine iteInduction (motive := Ran s i name args) (fun h => ?setex) fun _ => ?_
  case setex => exact ran_store hwf (hname h (by decide)) (commandSetex_spec hstore hlen env)
  refine iteInduction (motive := Ran s i name args) (fun h => ?expire) fun _ => ?_
  case expire => exact ran_store hwf (hname h (by decide)) (commandExpire_spec hstore env)
  refine iteInduction (motive := Ran s i name args) (fun h => ?ttl) fun _ => ?_
  case ttl => exact ran_store hwf (hname h (by decide)) (commandTtl_spec hstore env)
  refine iteInduction (motive := Ran s i name args) (fun h => ?subscribe) fun _ => ?_
  case subscribe =>
    exact ran_pubsub hstore (hname h (by decide)) (commandSubscribe_spec hwf _ args env)
  refine iteInduction (motive := Ran s i name args) (fun h => ?unsubscribe) fun _ => ?_
  case unsubscribe =>
    exact ran_pubsub hstore (hname h (by decide)) (commandUnsubscribe_spec hwf _ args)
  refine iteInduction (motive := Ran s i name args) (fun h => ?publish) fun hpublish => ?_
  case publish =>
    obtain ⟨hclients, hreply, hshort⟩ := commandPublish_spec hwf hq hargs
    rw [show publishTargets s.pubsub args = commandTargets s.pubsub name args from
      (if_pos h).symm] at hclients hshort
    exact
      { store := hstore
        wf := hwf
        subscribers := fun _ _ => .inl
        clients := hclients
        others := rfl
        reply := hreply
        short := hshort }
  refine iteInduction (motive := Ran s i name args) (fun h => ?info) fun _ => ?unknown
  case info =>
    split
    · exact ran_reply hstore hwf hpublish (harity (by decide))
    · obtain ⟨hgood, hinfo⟩ := formatInfo_good s env
      generalize formatInfo s blank ksResponseCap env = r at *
      obtain ⟨store, m, length⟩ := r
      have hsize : store.Bounded := by
        rw [show store = _ from hinfo]
        exact hstore.size _
      have hreply : StoreReply (store, .response m length) := ⟨hsize, hgood⟩
      exact ran_store hwf hpublish hreply
  case unknown => exact ran_reply hstore hwf hpublish ((good_error (by decide)).mono ksResponseCap_ge)

end

end Kessel
