import Kessel.Server.Guarantees
import Kessel.Server.Dispatch

/-!
# Kessel.Server.Publish

One request, one reply; one message, one frame for each subscriber.

That a message finds its subscriber rests on the agreement of slots and
registry, and so on ids that are handed out once.  The id counter has 64 bits:
`collidedServer` is the server when it has wrapped around and two connections
share an id.

* `Reached.answers_once` — a request is answered exactly once;
* `Reached.fans_out` — a message reaches exactly the live subscribers with room.
-/

namespace Kessel

open CStr (ascii)

variable {cfg : KsConfig}

/-- The server when the input buffer of a client holds `m`. -/
def KsServer.withInput (s : KsServer cfg) (i : Fin cfg.maxClients) (m : Mem) : KsServer cfg :=
  s.setClient i { s.clients i with input := m }

/-- The message frame that the line of a client brings to itself. -/
def ownMessage (s : KsServer cfg) (i : Fin cfg.maxClients) (line : Nat) : List UInt8 :=
  match parsedCommand (s.clients i).input line with
  | some (name, [channel, message]) =>
    if name.bytes = ascii "PUBLISH" ∧ (s.clients i).id ∈ s.pubsub.subscribersOf channel then
      messageFrame channel.bytes message.bytes
    else []
  | _ => []

/-- A request leaves its connection alive, with one reply.  Nothing else is
queued for it but the message that it published to itself. -/
structure RepliesOnce (s : KsServer cfg) (i : Fin cfg.maxClients) (line : Nat)
    (r : KsServer cfg × Int) : Prop where
  result : r.2 = 0
  alive : (r.1.clients i).dropConnection = false
  reply : ∃ own frame, (own = [] ∨ own = ownMessage s i line) ∧ IsReply frame ∧
    (r.1.clients i).pending = (s.clients i).pending ++ own ++ frame

/-- A request leaves its connection alive, with one reply behind the message
that it published to itself. -/
structure AnswersOnce (s : KsServer cfg) (i : Fin cfg.maxClients) (line : Nat)
    (r : KsServer cfg × Int) : Prop where
  result : r.2 = 0
  alive : (r.1.clients i).dropConnection = false
  reply : ∃ frame, IsReply frame ∧
    (r.1.clients i).pending = (s.clients i).pending ++ ownMessage s i line ++ frame

/-- The clients that take a message: they are connected, not marked for
disconnection, subscribed, and have room for the frame. -/
def receivers (s : KsServer cfg) (channel : CStr) (f : List UInt8) : Finset (Fin cfg.maxClients) :=
  Finset.univ.filter fun j => (s.clients j).used = true ∧
    (s.clients j).id ∈ s.pubsub.subscribersOf channel ∧ (s.clients j).takes f = true

/-- A published message reaches exactly the live subscribers with room. -/
structure FansOut (s : KsServer cfg) (i : Fin cfg.maxClients) (channel message : CStr)
    (r : KsServer cfg × Int) : Prop where
  reply : (r.1.clients i).pending = (s.clients i).pending ++
    (if i ∈ receivers s channel (messageFrame channel.bytes message.bytes) then
      messageFrame channel.bytes message.bytes else []) ++
    intFrame (receivers s channel (messageFrame channel.bytes message.bytes)).card
  issuer : (r.1.clients i).used = (s.clients i).used ∧ (r.1.clients i).fd = (s.clients i).fd ∧
    (r.1.clients i).id = (s.clients i).id ∧
    (r.1.clients i).closeAfterWrite = (s.clients i).closeAfterWrite ∧
    (r.1.clients i).dropConnection = (s.clients i).dropConnection
  taken : ∀ j, j ≠ i → j ∈ receivers s channel (messageFrame channel.bytes message.bytes) →
    (s.clients j).SameConn (r.1.clients j) ∧
      (r.1.clients j).pending = (s.clients j).pending ++ messageFrame channel.bytes message.bytes
  full : ∀ j, j ≠ i → (s.clients j).used = true →
    (s.clients j).id ∈ s.pubsub.subscribersOf channel → (s.clients j).dropConnection = false →
    ksOutputCap < (s.clients j).pendingLen + (messageFrame channel.bytes message.bytes).length →
    (r.1.clients j).dropConnection = true ∧ (r.1.clients j).pending = (s.clients j).pending
  others : ∀ j, j ≠ i → ¬ ((s.clients j).used = true ∧
    (s.clients j).id ∈ s.pubsub.subscribersOf channel ∧ (s.clients j).dropConnection = false) →
    r.1.clients j = s.clients j
  pubsub : r.1.pubsub = s.pubsub
  store : r.1.store = s.store

section

variable {s : KsServer cfg} {i : Fin cfg.maxClients}

/-! ## lines -/

/-- The client with its new input. -/
theorem withInput_clients (m : Mem) : (s.withInput i m).clients i = { s.clients i with input := m } := by
  simp [KsServer.withInput]

/-- Another input leaves the server in order. -/
theorem KsServer.Ok.withInput (h : s.Ok) (m : Mem) : (s.withInput i m).Ok :=
  h.setClient ((h.clients i).setInput m (h.clients i).inputLen_le (s.clients i).closeAfterWrite)

/-- And in agreement. -/
theorem KsServer.Agrees.withInput (h : s.Agrees) (m : Mem) : (s.withInput i m).Agrees := by
  refine h.of_eq (fun j => ?_) (fun _ _ => .inl) rfl rfl rfl rfl rfl
  by_cases hj : j = i
  · rw [hj, withInput_clients]
    exact ⟨rfl, rfl, rfl⟩
  · simp [KsServer.withInput, hj]

/-- Where slots and registry agree, a message is found for the connections whose
ids are subscribed. -/
theorem KsServer.Agrees.foundFor_iff (h : s.Agrees) (ids : List UInt64) (j : Fin cfg.maxClients) :
    foundFor s.clients ids j ↔ (s.clients j).used = true ∧ (s.clients j).id ∈ ids := by
  constructor
  · rintro ⟨hmem, hslot⟩
    exact ⟨(slotOf_eq_some hslot).1, hmem⟩
  · rintro ⟨hused, hmem⟩
    exact ⟨hmem, h.slotOf_id hused⟩

/-! ## one reply -/

/-- The message is for the issuer if its id is among the targets of the line. -/
theorem ownMessage_eq (s : KsServer cfg) (i : Fin cfg.maxClients) (line : Nat) :
    ownMessage s i line =
      if (s.clients i).id ∈ lineTargets s i line then lineFrame s i line else [] := by
  unfold lineTargets lineFrame ownMessage
  cases parsedCommand (s.clients i).input line with
  | none => simp
  | some command =>
    obtain ⟨name, args⟩ := command
    simp only [Option.elim_some, commandTargets]
    by_cases hname : name.bytes = ascii "PUBLISH"
    · rcases args with - | ⟨channel, - | ⟨message, - | ⟨arg, args⟩⟩⟩
      · simp [publishTargets]
      · simp [publishTargets]
      · simp [hname, publishTargets, publishFrame]
      · simp [publishTargets]
    · rcases args with - | ⟨channel, - | ⟨message, - | ⟨arg, args⟩⟩⟩ <;> simp [hname]

/-- A message that finds the slot of its issuer is meant for the issuer. -/
theorem ownMessage_of_foundFor (line : Nat) :
    (if foundFor s.clients (lineTargets s i line) i then lineFrame s i line else []) = [] ∨
      (if foundFor s.clients (lineTargets s i line) i then lineFrame s i line else []) =
        ownMessage s i line := by
  by_cases hfound : foundFor s.clients (lineTargets s i line) i
  · exact .inr (by rw [if_pos hfound, ownMessage_eq, if_pos hfound.1])
  · exact .inl (if_neg hfound)

/-- Where slots and registry agree, it finds it. -/
theorem KsServer.Agrees.ownMessage_eq (h : s.Agrees) (hused : (s.clients i).used = true)
    (line : Nat) :
    (if foundFor s.clients (lineTargets s i line) i then lineFrame s i line else []) =
      ownMessage s i line := by
  rw [Kessel.ownMessage_eq]
  exact if_congr (by simp [h.foundFor_iff, hused]) rfl rfl

/-- **Every command is answered with one reply**, and nothing is dropped for its
client. -/
theorem handleCommand_repliesOnce (hok : s.Ok)
    (hp : (s.clients i).pendingLen < ksOutputHighWater) (line : Nat) (env : KsCommandEnv) :
    RepliesOnce s i line (handleCommand s i line env) := by
  have hhandled := handleCommand_spec hok hp line env
  obtain ⟨frame, hframe, hpending, -⟩ := hhandled.reply
  have hd : ((s.clients i).parse line).dropConnection = false := (hok.clients i).alive hp
  exact ⟨hhandled.result, hhandled.same.dropConnection.trans hd, _, frame,
    ownMessage_of_foundFor line, hframe, hpending⟩

/-- **Every command is answered once**, also to its own subscriber. -/
theorem handleCommand_answersOnce (hok : s.Ok) (h : s.Agrees) (hused : (s.clients i).used = true)
    (hp : (s.clients i).pendingLen < ksOutputHighWater) (line : Nat) (env : KsCommandEnv) :
    AnswersOnce s i line (handleCommand s i line env) := by
  have hhandled := handleCommand_spec hok hp line env
  obtain ⟨frame, hframe, hpending, -⟩ := hhandled.reply
  rw [h.ownMessage_eq hused line] at hpending
  have hd : ((s.clients i).parse line).dropConnection = false := (hok.clients i).alive hp
  exact ⟨hhandled.result, hhandled.same.dropConnection.trans hd, frame, hframe, hpending⟩

/-- **Every dispatched request is answered exactly once** and never ends its own
connection, so that `process_requests` never fails, and `read_client` only on a
socket error.  As long as the id counter has not wrapped around, a request that
publishes to its own connection brings it the message as well. -/
theorem KsServer.Reached.answers_once (h : s.Reached) (hused : (s.clients i).used = true) :
    ((s.clients i).pendingLen < ksOutputHighWater → ∀ (m : Mem) (line : Nat) (env : KsCommandEnv),
      RepliesOnce (s.withInput i m) i line (handleCommand (s.withInput i m) i line env) ∧
      (s.accepted < 2 ^ 64 - 1 →
        AnswersOnce (s.withInput i m) i line (handleCommand (s.withInput i m) i line env))) ∧
    (∀ env, (processRequests s i env).2 = 0) ∧
    ∀ recvs, (readClient s i recvs).2 = 0 ∨ ((readClient s i recvs).2 = -1 ∧ .error ∈ recvs) := by
  refine ⟨fun hp m line env => ?_, fun env => (processRequests_spec h.ok hused env).result,
    fun recvs => ?_⟩
  · have hused' : ((s.withInput i m).clients i).used = true := by
      rw [withInput_clients]
      exact hused
    have hp' : ((s.withInput i m).clients i).pendingLen < ksOutputHighWater := by
      rw [withInput_clients]
      exact hp
    exact ⟨handleCommand_repliesOnce (h.ok.withInput m) hp' line env, fun hlt =>
      handleCommand_answersOnce (h.ok.withInput m) ((h.agrees hlt).withInput m) hused' hp' line env⟩
  · exact (readClient_spec h.ok hused recvs).result.imp_right fun hfail => ⟨hfail.1, hfail.2.1⟩

/-! ## one frame for each subscriber -/

/-- A receiver is subscribed, and takes the message. -/
theorem mem_receivers {channel : CStr} {f : List UInt8} {j : Fin cfg.maxClients} :
    j ∈ receivers s channel f ↔ (s.clients j).used = true ∧
      (s.clients j).id ∈ s.pubsub.subscribersOf channel ∧ (s.clients j).takes f = true := by
  simp [receivers]

/-- The frames taken are counted slot by slot. -/
theorem countP_delivered (h : s.Agrees) (hwf : s.pubsub.Wf) (channel : CStr) (f : List UInt8) :
    (s.pubsub.subscribersOf channel).countP (delivered s.clients f) = (receivers s channel f).card := by
  have himage : (receivers s channel f).image (fun j => (s.clients j).id) =
      ((s.pubsub.subscribersOf channel).filter (delivered s.clients f)).toFinset := by
    ext x
    simp only [Finset.mem_image, mem_receivers, List.mem_toFinset, List.mem_filter]
    constructor
    · rintro ⟨j, ⟨hused, hmem, htakes⟩, rfl⟩
      exact ⟨hmem, by simp [delivered, h.slotOf_id hused, htakes]⟩
    · rintro ⟨hmem, hdelivered⟩
      obtain ⟨j, hslot, htakes⟩ := (Option.any_eq_true _ _).mp hdelivered
      obtain ⟨hused, rfl⟩ := slotOf_eq_some hslot
      exact ⟨j, ⟨hused, hmem, htakes⟩, rfl⟩
  have hinj : Set.InjOn (fun j => (s.clients j).id) (receivers s channel f) := by
    intro j hj k hk heq
    rw [Finset.mem_coe, mem_receivers] at hj hk
    exact h.distinct j k hj.1 hk.1 heq
  rw [List.countP_eq_length_filter, ← Finset.card_image_of_injOn hinj, himage,
    List.toFinset_card_of_nodup ((hwf.nodup_subscribersOf channel).filter _)]

/-- A command begins in agreement. -/
theorem KsServer.Agrees.beginCommand (h : s.Agrees) (line : Nat) : (beginCommand s i line).Agrees := by
  refine h.of_eq (fun j => ?_) (fun _ _ => .inl) rfl rfl rfl rfl rfl
  by_cases hj : j = i
  · rw [hj, clients_beginCommand, Function.update_self]
    exact ⟨rfl, rfl, rfl⟩
  · rw [clients_beginCommand, Function.update_of_ne hj]
    exact ⟨rfl, rfl, rfl⟩

/-- The command itself changes no receiver. -/
theorem receivers_beginCommand (line : Nat) (channel : CStr) (f : List UInt8) :
    receivers (beginCommand s i line) channel f = receivers s channel f := by
  ext j
  rw [mem_receivers, mem_receivers, clients_beginCommand]
  by_cases hj : j = i
  · rw [hj, Function.update_self]
    exact Iff.rfl
  · rw [Function.update_of_ne hj]
    exact Iff.rfl

/-- A number is sent as a frame. -/
theorem sends_int {v : Int} (h : v.natAbs < 2 ^ 64) :
    (respond (ksFmtInt · · · v)).Sends (intFrame v) := by
  have hdigits := length_decimalInt_le (by decide : 0 < 20) (show v.natAbs < 10 ^ 20 by omega)
  have hformat := ksFmtInt_formatted blank 0 v
    (show (decimalInt v).length + 3 < ksResponseCap by simp only [ksResponseCap, ksMaxRequest]; omega)
  exact ⟨hformat.length, hformat.bytes⟩

/-- What `PUBLISH` runs. -/
theorem runCommand_publish {name : CStr} (hname : name.bytes = ascii "PUBLISH") (args : List CStr)
    (env : KsCommandEnv) : runCommand s i name args env =
      ({ s with clients := (commandPublish s.pubsub s.clients args).1 },
        (commandPublish s.pubsub s.clients args).2) := by
  unfold runCommand
  simp only [hname]
  rw [if_neg (by decide), if_neg (by decide), if_neg (by decide), if_neg (by decide),
    if_neg (by decide), if_neg (by decide), if_neg (by decide), if_neg (by decide),
    if_neg (by decide), if_neg (by decide), if_neg (by decide), if_neg (by decide), if_pos trivial]

/-- What a `PUBLISH` changes besides the queues. -/
theorem handleCommand_publish (hok : s.Ok) (hp : (s.clients i).pendingLen < ksOutputHighWater)
    {line : Nat} (env : KsCommandEnv) {name channel message : CStr}
    (hparsed : parsedCommand (s.clients i).input line = some (name, [channel, message]))
    (hname : name.bytes = ascii "PUBLISH") :
    (handleCommand s i line env).1.pubsub = s.pubsub ∧ (handleCommand s i line env).1.store = s.store ∧
      ((handleCommand s i line env).1.clients i).pending = (s.clients i).pending ++
        (if foundFor s.clients (s.pubsub.subscribersOf channel) i then
          messageFrame channel.bytes message.bytes else []) ++
        intFrame (Word.i64 (UInt64.ofNat ((s.pubsub.subscribersOf channel).countP
          (delivered (beginCommand s i line).clients
            (messageFrame channel.bytes message.bytes)))).toNat) := by
  have hbegin := hok.beginCommand ((hok.clients i).alive hp) line
  have hargs := parsedCommand_args hparsed
  have hlen : channel.length + message.length ≤ ksMaxRequest := by simpa using hargs
  have hresult := (handleCommand_spec hok hp line env).result
  have hself := offerAll_self hok hp line (s.pubsub.subscribersOf channel) (length_messageFrame_le hlen)
  rw [handleCommand_eq, hparsed] at hresult ⊢
  simp only [runCommand_publish hname] at hresult ⊢
  rw [commandPublish_eq hbegin.pubsub (fun j => (hbegin.clients j).toQueueOk) hlen] at hresult ⊢
  rw [show (beginCommand s i line).pubsub = s.pubsub from rfl] at hresult ⊢
  have hsends := sends_int (natAbs_i64_lt (UInt64.toNat_lt (UInt64.ofNat
    ((s.pubsub.subscribersOf channel).countP (delivered (beginCommand s i line).clients
      (messageFrame channel.bytes message.bytes))))))
  have hpos : 0 < (intFrame (Word.i64 (UInt64.ofNat ((s.pubsub.subscribersOf channel).countP
      (delivered (beginCommand s i line).clients
        (messageFrame channel.bytes message.bytes)))).toNat)).length :=
    (IsReply.int _).length_pos
  generalize intFrame (Word.i64 (UInt64.ofNat ((s.pubsub.subscribersOf channel).countP
    (delivered (beginCommand s i line).clients
      (messageFrame channel.bytes message.bytes)))).toNat) = frame at *
  rw [sendReply_eq _ i hpos hsends] at hresult ⊢
  generalize hclients : offerAll (beginCommand s i line).clients (s.pubsub.subscribersOf channel)
    (messageFrame channel.bytes message.bytes) = clients at *
  refine ⟨rfl, rfl, ?_⟩
  have hq : (clients i).QueueOk := by
    rw [← hclients]
    exact (ok_offerAll hbegin.clients _ (length_messageFrame_le hlen) i).toQueueOk
  obtain ⟨c, -, -, hcase⟩ := clientQueue_spec hq frame
  rcases hcase with ⟨-, heq, hpending, -⟩ | ⟨-, heq, -⟩
  · simp only [setClient_clients, Function.update_self, heq, hpending, hself.2.1]
  · simp only [heq] at hresult
    cases hresult

/-- A message reaches the live subscribers with room and nobody else, and the
reply is their number. -/
theorem handleCommand_fansOut (hok : s.Ok) (h : s.Agrees)
    (hp : (s.clients i).pendingLen < ksOutputHighWater) {line : Nat} (env : KsCommandEnv)
    {name channel message : CStr}
    (hparsed : parsedCommand (s.clients i).input line = some (name, [channel, message]))
    (hname : name.bytes = ascii "PUBLISH") :
    FansOut s i channel message (handleCommand s i line env) := by
  have hargs := parsedCommand_args hparsed
  have hlen : channel.length + message.length ≤ ksMaxRequest := by simpa using hargs
  have hframe := length_messageFrame_le hlen
  obtain ⟨hpubsub, hstore, hpending⟩ := handleCommand_publish hok hp env hparsed hname
  have hhandled := handleCommand_spec hok hp line env
  have htargets : lineTargets s i line = s.pubsub.subscribersOf channel := by
    simp [lineTargets, hparsed, commandTargets, hname, publishTargets]
  have hlineFrame : lineFrame s i line = messageFrame channel.bytes message.bytes := by
    simp [lineFrame, hparsed, publishFrame]
  rw [htargets, hlineFrame] at hhandled
  have hcount := countP_delivered (h.beginCommand (i := i) line)
    (hok.beginCommand ((hok.clients i).alive hp) line).pubsub channel
    (messageFrame channel.bytes message.bytes)
  rw [receivers_beginCommand, show (beginCommand s i line).pubsub = s.pubsub from rfl] at hcount
  rw [hcount] at hpending
  -- below the high-water mark the issuer has room for its own message
  have hself : foundFor s.clients (s.pubsub.subscribersOf channel) i ↔
      i ∈ receivers s channel (messageFrame channel.bytes message.bytes) := by
    have htakes := takes_parse ((hok.clients i).alive hp) hp line hframe
    rw [show ((s.clients i).parse line).takes (messageFrame channel.bytes message.bytes) =
      (s.clients i).takes (messageFrame channel.bytes message.bytes) from rfl] at htakes
    simp [h.foundFor_iff, mem_receivers, htakes]
  have hcard : (receivers s channel (messageFrame channel.bytes message.bytes)).card < 1024 := by
    have hle := Finset.card_le_univ (receivers s channel (messageFrame channel.bytes message.bytes))
    have hbelow := cfg.below
    rw [Fintype.card_fin] at hle
    rw [fdSetSize] at hbelow
    omega
  have hother {j : Fin cfg.maxClients} (hj : j ≠ i) : (handleCommand s i line env).1.clients j =
      if (s.clients j).used = true ∧ (s.clients j).id ∈ s.pubsub.subscribersOf channel then
        (s.clients j).offer (messageFrame channel.bytes message.bytes) else s.clients j := by
    rw [hhandled.others j hj, offerAll]
    simp only [h.foundFor_iff]
  have hint : Word.i64 (UInt64.ofNat
      (receivers s channel (messageFrame channel.bytes message.bytes)).card).toNat =
        (receivers s channel (messageFrame channel.bytes message.bytes)).card := by
    rw [UInt64.toNat_ofNat_of_lt' (by simp only [UInt64.size]; omega), Word.i64, if_pos (by omega)]
  rw [hint, if_congr hself rfl rfl] at hpending
  exact
    { reply := hpending
      issuer := ⟨hhandled.same.used, hhandled.same.fd, hhandled.same.id, hhandled.same.closeAfterWrite,
        hhandled.same.dropConnection⟩
      taken := by
        intro j hj hmem
        obtain ⟨hjused, hjmem, htakes⟩ := mem_receivers.mp hmem
        rw [hother hj, if_pos ⟨hjused, hjmem⟩]
        obtain ⟨-, hsame, hjpending, -⟩ := KsClient.offer_takes (hok.clients j).toQueueOk htakes
        exact ⟨hsame, hjpending⟩
      full := by
        intro j hj hjused hjmem hd hfull
        rw [hother hj, if_pos ⟨hjused, hjmem⟩]
        obtain ⟨-, -, hdrop, hjpending, -⟩ := KsClient.offer_full (hok.clients j).toQueueOk hd hfull
        exact ⟨hdrop, hjpending⟩
      others := by
        intro j hj hnot
        rw [hother hj]
        split
        · next hsub =>
          refine KsClient.offer_dead ?_
          rw [← Bool.not_eq_false]
          exact fun hd => hnot ⟨hsub.1, hsub.2, hd⟩
        · rfl
      pubsub := hpubsub
      store := hstore }

/-- **A published message fans out exactly** in every state of the server, as
long as the id counter has not wrapped around. -/
theorem KsServer.Reached.fans_out (h : s.Reached) (hlt : s.accepted < 2 ^ 64 - 1)
    (hp : (s.clients i).pendingLen < ksOutputHighWater) (m : Mem) (line : Nat) (env : KsCommandEnv)
    {name channel message : CStr}
    (hparsed : parsedCommand m line = some (name, [channel, message]))
    (hname : name.bytes = ascii "PUBLISH") :
    FansOut (s.withInput i m) i channel message (handleCommand (s.withInput i m) i line env) := by
  refine handleCommand_fansOut (h.ok.withInput m) ((h.agrees hlt).withInput m) ?_ env ?_ hname
  · rw [withInput_clients]
    exact hp
  · rw [withInput_clients]
    exact hparsed

end

/-! ## two connections with one id -/

/-- An iteration in which a connection is accepted and gets no buffers. -/
def refuse (s : KsServer pairConfig) : KsServer pairConfig :=
  iteration s (fun fd => fd = 3) (fun _ => false) [.ok 6 fun _ => false] idle idle

/-- The server when `next` is the next id and `n` connections got no buffers. -/
def refusedServer (next : UInt64) (n : Nat) : KsServer pairConfig :=
  { acceptedServer with
    nextClientId := next
    accepted := 1 + n
    metrics := { acceptedServer.metrics with rejectedConnections := UInt64.ofNat n } }

/-- A turn in which nothing is ready. -/
theorem clientTurn_idle {s : KsServer cfg} {i : Fin cfg.maxClients} {readFds writeFds : Nat → Bool}
    (h : (s.clients i).used = false ∨ ((s.clients i).dropConnection = false ∧
      (s.clients i).closeAfterWrite = false ∧ (s.clients i).inputLen = 0 ∧
      readFds (s.clients i).fd = false ∧ writeFds (s.clients i).fd = false)) (t : KsTurn) :
    clientTurn s i readFds writeFds t = s := by
  unfold clientTurn
  rcases h with hused | ⟨hd, hclosing, hempty, hread, hwrite⟩
  · rw [if_pos (by simp [hused])]
  · split
    · rfl
    · simp [hd, hread, hwrite, turnRead, turnWrite, turnProcess, hempty, hclosing]

/-- Nothing is left to the reaper. -/
theorem startIteration_refused (next : UInt64) (n : Nat) :
    startIteration (refusedServer next n) 0 = refusedServer next n := by
  have hstore : (ksKvReap acceptedServer.store ksReaperBudget 0).1 = acceptedServer.store := by rfl
  have hticks : acceptedServer.acceptBackoffTicks = 0 := by decide
  unfold startIteration refusedServer
  simp only [hstore, hticks]

/-- A connection without buffers uses up an id. -/
theorem acceptPhase_refused (next : UInt64) (n : Nat) :
    acceptPhase (refusedServer next n) (fun fd => fd = 3) [.ok 6 fun _ => false] =
      (refusedServer next n).takeClientId.reject := by
  have hticks : (refusedServer next n).acceptBackoffTicks = 0 :=
    show acceptedServer.acceptBackoffTicks = 0 by decide
  have hlisten : (refusedServer next n).listenFd = 3 :=
    show acceptedServer.listenFd = 3 by decide
  have hslot : (List.finRange pairConfig.maxClients).find?
      (fun i => !((refusedServer next n).clients i).used) = some secondSlot :=
    show (List.finRange pairConfig.maxClients).find?
      (fun i => !(acceptedServer.clients i).used) = some secondSlot by decide
  have haccept : acceptClient (refusedServer next n) 6 (fun _ => false) =
      (refusedServer next n).takeClientId.reject := by
    unfold acceptClient
    rw [hslot]
    rfl
  unfold acceptPhase
  rw [if_pos ⟨hticks, by simp [hlisten]⟩, ksAcceptBudget, acceptClients, haccept]
  rfl

/-- A refused connection takes an id. -/
theorem refuse_refusedServer (next : UInt64) (n : Nat) :
    refuse (refusedServer next n) =
      refusedServer (if next + 1 = 0 then 1 else next + 1) (n + 1) := by
  have htake : (refusedServer next n).takeClientId.reject =
      refusedServer (if next + 1 = 0 then 1 else next + 1) (n + 1) := by
    simp only [refusedServer, KsServer.takeClientId, KsServer.reject, UInt64.ofNat_add]
    rfl
  unfold refuse iteration
  rw [startIteration_refused, acceptPhase_refused, htake]
  generalize (if next + 1 = 0 then 1 else next + 1) = next'
  have hclients : (refusedServer next' (n + 1)).clients = acceptedServer.clients := rfl
  have hfirst : clientTurn (refusedServer next' (n + 1)) firstSlot (fun fd => fd = 3) (fun _ => false)
      idle = refusedServer next' (n + 1) :=
    clientTurn_idle (.inr (by rw [hclients]; decide)) idle
  have hsecond : clientTurn (refusedServer next' (n + 1)) secondSlot (fun fd => fd = 3)
      (fun _ => false) idle = refusedServer next' (n + 1) :=
    clientTurn_idle (.inl (by rw [hclients]; decide)) idle
  dsimp only
  rw [hfirst, hsecond]

/-- So it does in every state that can be reached. -/
theorem reachable_refuse {next : UInt64} {n : Nat}
    (h : KsLoop.Reachable ⟨refusedServer next n, .top⟩) :
    KsLoop.Reachable ⟨refuse (refusedServer next n), .top⟩ := by
  have hticks : acceptedServer.acceptBackoffTicks = 0 := by decide
  have hlisten : acceptedServer.listenFd = 3 := by decide
  have hfds : ∀ j, (acceptedServer.clients j).used = true → (acceptedServer.clients j).fd ≠ 6 := by
    decide
  refine reachable_iteration h (fun fd hfd => .inl ⟨hticks, ?_⟩) (by simp) ?_ idle idle
  · obtain rfl : fd = 3 := by simpa using hfd
    exact hlisten.symm
  · rw [startIteration_refused]
    exact ⟨⟨show 6 ≠ acceptedServer.listenFd by rw [hlisten]; decide, hfds⟩, trivial⟩

/-- Any number of connections can be refused, as far as the counter reaches. -/
theorem reachable_refusedServer {n : Nat} (hn : n < 2 ^ 64 - 2) :
    KsLoop.Reachable ⟨refusedServer (UInt64.ofNat (2 + n)) n, .top⟩ := by
  induction n with
  | zero =>
    have hzero : refusedServer (UInt64.ofNat (2 + 0)) 0 = acceptedServer := by
      have hnext : acceptedServer.nextClientId = UInt64.ofNat (2 + 0) := by decide
      have haccepted : acceptedServer.accepted = 1 + 0 := by decide
      have hrejected : acceptedServer.metrics.rejectedConnections = UInt64.ofNat 0 := by decide
      rw [refusedServer, ← hnext, ← haccepted, ← hrejected]
    rw [hzero]
    exact reachable_acceptedServer
  | succ n ih =>
    have hstep := reachable_refuse (ih (by omega))
    have hadd : UInt64.ofNat (2 + n) + 1 = UInt64.ofNat (2 + (n + 1)) := by
      rw [show (1 : UInt64) = UInt64.ofNat 1 from rfl, ← UInt64.ofNat_add, Nat.add_assoc]
    have hne : UInt64.ofNat (2 + (n + 1)) ≠ 0 := by
      intro hzero
      have hnat := congrArg UInt64.toNat hzero
      rw [UInt64.toNat_ofNat_of_lt' (by simp only [UInt64.size]; omega), UInt64.toNat_zero] at hnat
      omega
    rw [refuse_refusedServer, hadd, if_neg hne] at hstep
    exact hstep

/-- One more, and the counter is back at 1. -/
theorem reachable_wrapped {n : Nat} (hn : n + 2 = 2 ^ 64) :
    KsLoop.Reachable ⟨refusedServer 1 n, .top⟩ := by
  obtain ⟨k, rfl⟩ : ∃ k, n = k + 1 := ⟨n - 1, by omega⟩
  have hstep := reachable_refuse (reachable_refusedServer (show k < 2 ^ 64 - 2 by omega))
  have hzero : UInt64.ofNat (2 + k) + 1 = 0 := by
    rw [show (1 : UInt64) = UInt64.ofNat 1 from rfl, ← UInt64.ofNat_add, show 2 + k + 1 = 2 ^ 64 by omega]
    rfl
  rw [refuse_refusedServer, if_pos hzero] at hstep
  exact hstep

/-- The second connection has the id of the first. -/
def twinServer : KsServer pairConfig :=
  iteration (refusedServer 1 (2 ^ 64 - 2)) (fun fd => fd = 3) (fun _ => false)
    [.ok 6 fun _ => true] idle idle

/-- The second connection has subscribed to a channel. -/
def collidedServer : KsServer pairConfig :=
  iteration twinServer (fun fd => fd = 6) (fun _ => false) [] idle
    { idle with recvs := [.ok (ascii "SUBSCRIBE c\n") idle.env] }

/-- Two connections have been given one id. -/
theorem reachable_twinServer : KsLoop.Reachable ⟨twinServer, .top⟩ := by
  have hticks : acceptedServer.acceptBackoffTicks = 0 := by decide
  have hlisten : acceptedServer.listenFd = 3 := by decide
  have hfds : ∀ j, (acceptedServer.clients j).used = true → (acceptedServer.clients j).fd ≠ 6 := by
    decide
  refine reachable_iteration (reachable_wrapped (by decide)) (fun fd hfd => .inl ⟨hticks, ?_⟩)
    (by simp) ?_ idle idle
  · obtain rfl : fd = 3 := by simpa using hfd
    exact hlisten.symm
  · rw [startIteration_refused]
    exact ⟨⟨show 6 ≠ acceptedServer.listenFd by rw [hlisten]; decide, hfds⟩, trivial⟩

/-- One of them has subscribed. -/
theorem reachable_collidedServer : KsLoop.Reachable ⟨collidedServer, .top⟩ := by
  refine reachable_iteration reachable_twinServer (fun fd hfd => ?_) (by simp)
    (show FreshFds _ [] from trivial) idle _
  obtain rfl : fd = 6 := by simpa using hfd
  exact .inr ⟨secondSlot, by decide⟩

/-- A line that publishes to the channel. -/
def publishLine : Mem := blank.write 0 (ascii "PUBLISH c m\n")

/-- The line that publishes. -/
theorem parsed_publishLine : parsedCommand publishLine 0 =
    some (⟨ascii "PUBLISH", by decide⟩, [⟨ascii "c", by decide⟩, ⟨ascii "m", by decide⟩]) :=
  parsedCommand_eq_some (strAt_blank (by decide) 0) (by decide)

/-- The second connection can publish.  The output of the command is shorter than
a reply and the message, and than a message for the second connection alone. -/
theorem collidedServer_ready : (collidedServer.clients secondSlot).used = true ∧
    (collidedServer.clients secondSlot).pendingLen < ksOutputHighWater ∧
    ((handleCommand (collidedServer.withInput secondSlot publishLine) secondSlot 0
      (idle.env 0)).1.clients secondSlot).pending.length <
        ((collidedServer.withInput secondSlot publishLine).clients secondSlot).pending.length +
          (ownMessage (collidedServer.withInput secondSlot publishLine) secondSlot 0).length ∧
    ((handleCommand (collidedServer.withInput secondSlot publishLine) secondSlot 0
      (idle.env 0)).1.clients secondSlot).pending.length <
        ((collidedServer.withInput secondSlot publishLine).clients secondSlot).pending.length +
          (if secondSlot ∈ receivers (collidedServer.withInput secondSlot publishLine)
              ⟨ascii "c", by decide⟩ (messageFrame (CStr.bytes ⟨ascii "c", by decide⟩)
                (CStr.bytes ⟨ascii "m", by decide⟩)) then
            messageFrame (CStr.bytes ⟨ascii "c", by decide⟩) (CStr.bytes ⟨ascii "m", by decide⟩)
          else []).length := by
  decide +kernel

/-- The second connection publishes to its own channel and gets a reply, but not
its message. -/
theorem not_answersOnce_collidedServer :
    KsLoop.Reachable ⟨collidedServer, .top⟩ ∧ (collidedServer.clients secondSlot).used = true ∧
      (collidedServer.clients secondSlot).pendingLen < ksOutputHighWater ∧
      ¬ AnswersOnce (collidedServer.withInput secondSlot publishLine) secondSlot 0
        (handleCommand (collidedServer.withInput secondSlot publishLine) secondSlot 0 (idle.env 0)) := by
  obtain ⟨hused, hp, hshort, -⟩ := collidedServer_ready
  refine ⟨reachable_collidedServer, hused, hp, ?_⟩
  rintro ⟨-, -, frame, -, hpending⟩
  have hlen := congrArg List.length hpending
  rw [List.length_append, List.length_append] at hlen
  omega

/-- The message of the second connection has two receivers, and reaches one. -/
theorem not_fansOut_collidedServer :
    KsLoop.Reachable ⟨collidedServer, .top⟩ ∧ (collidedServer.clients secondSlot).used = true ∧
      (collidedServer.clients secondSlot).pendingLen < ksOutputHighWater ∧
      ¬ FansOut (collidedServer.withInput secondSlot publishLine) secondSlot
        ⟨ascii "c", by decide⟩ ⟨ascii "m", by decide⟩
        (handleCommand (collidedServer.withInput secondSlot publishLine) secondSlot 0 (idle.env 0)) := by
  obtain ⟨hused, hp, -, hshort⟩ := collidedServer_ready
  refine ⟨reachable_collidedServer, hused, hp, fun hfans => ?_⟩
  have hlen := congrArg List.length hfans.reply
  rw [List.length_append, List.length_append] at hlen
  omega

/-- The first connection has subscribed to the channel. -/
def subscribedServer : KsServer pairConfig :=
  iteration acceptedServer (fun fd => fd = 5) (fun _ => false) []
    { idle with recvs := [.ok (ascii "SUBSCRIBE c\n") idle.env] } idle

/-- The connection has subscribed. -/
theorem reachable_subscribedServer : KsLoop.Reachable ⟨subscribedServer, .top⟩ := by
  refine reachable_iteration reachable_acceptedServer (fun fd hfd => ?_) (by simp)
    (show FreshFds _ [] from trivial) _ idle
  obtain rfl : fd = 5 := by simpa using hfd
  exact .inr ⟨firstSlot, by decide⟩

/-- Its output is below the high-water mark. -/
theorem subscribedServer_ready : subscribedServer.accepted < 2 ^ 64 - 1 ∧
    (subscribedServer.clients firstSlot).used = true ∧
    (subscribedServer.clients firstSlot).pendingLen < ksOutputHighWater := by
  decide +kernel

/-- It is a subscriber of the channel. -/
theorem subscribedServer_subscribed : (subscribedServer.clients firstSlot).id ∈
    subscribedServer.pubsub.subscribersOf ⟨ascii "c", by decide⟩ := by
  decide +kernel

/-- A subscriber that publishes to the channel gets the message. -/
theorem ownMessage_publishLine {s : KsServer cfg} {i : Fin cfg.maxClients}
    (h : (s.clients i).id ∈ s.pubsub.subscribersOf ⟨ascii "c", by decide⟩) :
    ownMessage (s.withInput i publishLine) i 0 = messageFrame (ascii "c") (ascii "m") := by
  rw [ownMessage, withInput_clients]
  dsimp only
  rw [parsed_publishLine]
  exact if_pos ⟨rfl, h⟩

/-- The first connection publishes to its own channel: one reply, and the message
before it. -/
theorem answers_once_subscribedServer :
    RepliesOnce (subscribedServer.withInput firstSlot publishLine) firstSlot 0
      (handleCommand (subscribedServer.withInput firstSlot publishLine) firstSlot 0 (idle.env 0)) ∧
    AnswersOnce (subscribedServer.withInput firstSlot publishLine) firstSlot 0
      (handleCommand (subscribedServer.withInput firstSlot publishLine) firstSlot 0 (idle.env 0)) ∧
    ownMessage (subscribedServer.withInput firstSlot publishLine) firstSlot 0 =
      messageFrame (ascii "c") (ascii "m") := by
  have h := (KsServer.Reached.answers_once reachable_subscribedServer.top
    subscribedServer_ready.2.1).1 subscribedServer_ready.2.2 publishLine 0 (idle.env 0)
  exact ⟨h.1, h.2 subscribedServer_ready.1, ownMessage_publishLine subscribedServer_subscribed⟩

/-- It gets the message itself. -/
theorem fans_out_subscribedServer :
    FansOut (subscribedServer.withInput firstSlot publishLine) firstSlot ⟨ascii "c", by decide⟩
      ⟨ascii "m", by decide⟩
      (handleCommand (subscribedServer.withInput firstSlot publishLine) firstSlot 0 (idle.env 0)) :=
  KsServer.Reached.fans_out reachable_subscribedServer.top subscribedServer_ready.1
    subscribedServer_ready.2.2 publishLine 0 (idle.env 0) parsed_publishLine rfl

end Kessel
