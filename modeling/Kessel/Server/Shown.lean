import Kessel.Server.Serve

/-!
# Kessel.Server.Shown

What a server shows of a broker.

`LogShows` reads the history of a connection as the log of the broker, and
`ServerShows` a whole server as its state: the entries that a reader of the
store sees, the subscriptions, the connections, and what each of them has seen.
What no connection sees (bytes received or sent, the table of the store, slots,
buffers) does not matter (`ServerShows.congr`).

* `ServerShows.handleCommand` — a request is one step of the broker.
-/

namespace Kessel

open Broker CStr TimedMap

abbrev KsItem := Item (List UInt8) CStr KsRequest CliFrame
abbrev KsBroker := State CStr (List UInt8) CStr UInt64 KsRequest CliFrame
abbrev KsBrokerEvent := Event CStr (List UInt8) CStr UInt64 KsRequest CliFrame

/-! ## histories and logs -/

/-- The events that a connection sees. -/
def KsEvent.seen : KsEvent → Bool
  | .request _ => true
  | .queued _ => true
  | .dropped => true
  | _ => false

/-- What is seen, as an event. -/
def itemEvent : KsItem → KsEvent
  | .asked r => .request r
  | .told f => .queued f.encode
  | .message channel m => .queued (CliFrame.message channel.bytes m).encode
  | .dropped => .dropped

/-- What is seen can be read by a client. -/
def Readable : KsItem → Prop
  | .told f => f.Valid ∧ ∀ channel text, f ≠ .message channel text
  | .message channel m => channel.length + m.length ≤ ksMaxRequest
  | _ => True

/-- The history shows the log. -/
structure LogShows (history : List KsEvent) (log : List KsItem) : Prop where
  events : history.filter KsEvent.seen = log.map itemEvent
  readable : ∀ item ∈ log, Readable item

theorem seen_itemEvent (item : KsItem) : (itemEvent item).seen = true := by cases item <;> rfl

/-- Nothing has been seen. -/
theorem logShows_nil : LogShows [] [] := ⟨rfl, by simp⟩

/-- More is seen. -/
theorem LogShows.append {history : List KsEvent} {log items : List KsItem}
    (h : LogShows history log) (hitems : ∀ item ∈ items, Readable item) :
    LogShows (history ++ items.map itemEvent) (log ++ items) where
  events := by
    rw [List.filter_append, h.events, List.map_append]
    congr 1
    refine List.filter_eq_self.mpr fun e he => ?_
    obtain ⟨item, -, rfl⟩ := List.mem_map.mp he
    exact seen_itemEvent item
  readable := by
    intro item hitem
    rcases List.mem_append.mp hitem with hitem | hitem
    · exact h.readable item hitem
    · exact hitems item hitem

/-- Nothing more is seen. -/
theorem LogShows.unseen {history events : List KsEvent} {log : List KsItem}
    (h : LogShows history log) (hevents : ∀ e ∈ events, e.seen = false) :
    LogShows (history ++ events) log where
  events := by
    rw [List.filter_append, h.events, List.filter_eq_nil_iff.mpr, List.append_nil]
    exact fun e he => by simp [hevents e he]
  readable := h.readable

/-- The log knows whether the connection was dropped. -/
theorem LogShows.alive {history : List KsEvent} {log : List KsItem} (h : LogShows history log) :
    Broker.alive log = true ↔ .dropped ∉ history := by
  have hmem : .dropped ∈ history ↔ .dropped ∈ log.map itemEvent := by
    rw [← h.events, List.mem_filter]
    simp [KsEvent.seen]
  rw [hmem, Broker.alive, List.all_eq_true]
  constructor
  · intro hall hdropped
    obtain ⟨item, hitem, heq⟩ := List.mem_map.mp hdropped
    have halive := hall item hitem
    cases item with
    | dropped => simp at halive
    | _ => cases heq
  · intro hnot item hitem
    cases item with
    | dropped => exact absurd (List.mem_map.mpr ⟨_, hitem, rfl⟩) hnot
    | _ => rfl

/-- Logs that have not changed. -/
theorem logsShow_congr {histories : List (List KsEvent)} {ids : List UInt64}
    {log log' : UInt64 → List KsItem}
    (h : List.Forall₂ (fun history x => LogShows history (log x)) histories ids)
    (heq : ∀ x ∈ ids, log' x = log x) :
    List.Forall₂ (fun history x => LogShows history (log' x)) histories ids := by
  induction h with
  | nil => exact .nil
  | cons hhead htail ih =>
    rw [List.forall_mem_cons] at heq
    exact .cons (heq.1 ▸ hhead) (ih heq.2)

/-! ## servers and brokers -/

variable {cfg : KsConfig} {s s' : KsServer cfg} {i : Fin cfg.maxClients} {b : KsBroker}
  {t t' : UInt64} {refused : Nat → Prop}

/-- The server shows the broker, from `t` on. -/
structure ServerShows (t : UInt64) (s : KsServer cfg) (b : KsBroker) : Prop where
  wf : b.Wf
  now : b.now ≤ t.toNat
  entries : s.store.Shows t b.entries
  subscriptions : s.pubsub.Represents b.subscriptions
  live : ∀ x, x ∈ b.live ↔ ∃ j, (s.clients j).used = true ∧ (s.clients j).id = x
  logs : ∀ j, (s.clients j).used = true → LogShows (s.clients j).history (b.log (s.clients j).id)
  closed : List.Forall₂ (fun history x => LogShows history (b.log x)) s.closed b.ended
  issued : ∀ x ∈ b.ended, x.toNat ≤ s.accepted

/-- A connection is a live one of the broker. -/
theorem ServerShows.mem_live (h : ServerShows t s b) (hused : (s.clients i).used = true) :
    (s.clients i).id ∈ b.live :=
  (h.live _).mpr ⟨i, hused, rfl⟩

/-- It is alive until it is dropped. -/
theorem ServerShows.alive (h : ServerShows t s b) (hok : s.Ok) (hused : (s.clients i).used = true) :
    Broker.alive (b.log (s.clients i).id) = true ↔ (s.clients i).dropConnection = false := by
  rw [(h.logs i hused).alive, (hok.clients i).dropped, Bool.not_eq_true]

/-- Another server in which no connection sees more. -/
theorem ServerShows.congr (h : ServerShows t s b) (hle : t ≤ t')
    (hstore : s.store.Unseen t' s'.store) (hpubsub : s'.pubsub = s.pubsub)
    (hclients : ∀ j, (s'.clients j).used = (s.clients j).used ∧ (s'.clients j).id = (s.clients j).id ∧
      ∃ events, (s'.clients j).history = (s.clients j).history ++ events ∧
        ∀ e ∈ events, e.seen = false)
    (hclosed : s'.closed = s.closed) (haccepted : s.accepted ≤ s'.accepted) :
    ServerShows t' s' b where
  wf := h.wf
  now := h.now.trans (UInt64.le_iff_toNat_le.mp hle)
  entries := (h.entries.mono hle).unseen hstore
  subscriptions := hpubsub ▸ h.subscriptions
  live := by
    intro x
    simp only [h.live x, (hclients _).1, (hclients _).2.1]
  logs := by
    intro j hused
    obtain ⟨hused', hid, events, hhistory, hunseen⟩ := hclients j
    rw [hid, hhistory]
    exact (h.logs j (hused' ▸ hused)).unseen hunseen
  closed := hclosed ▸ h.closed
  issued := fun x hx => (h.issued x hx).trans haccepted

/-- Time goes on. -/
theorem ServerShows.mono (h : ServerShows t s b) (hle : t ≤ t') : ServerShows t' s b :=
  h.congr hle (.refl _ _) rfl (fun _ => ⟨rfl, rfl, [], by simp, by simp⟩) rfl le_rfl

/-! ## an exchange -/

/-- The server has answered a request of a connection, with `notes` for everybody
in between. -/
structure Replied (s : KsServer cfg) (i : Fin cfg.maxClients) (request : KsRequest) (f : CliFrame)
    (notes : UInt64 → List KsItem) (s' : KsServer cfg) : Prop where
  used : ∀ j, (s'.clients j).used = (s.clients j).used
  id : ∀ j, (s'.clients j).id = (s.clients j).id
  self : (s'.clients i).history = (s.clients i).history ++
    .request request :: ((notes (s.clients i).id).map itemEvent ++ [.queued f.encode])
  others : ∀ j, j ≠ i → (s.clients j).used = true →
    (s'.clients j).history = (s.clients j).history ++ (notes (s.clients j).id).map itemEvent
  closed : s'.closed = s.closed
  accepted : s'.accepted = s.accepted

/-- An answered request is an exchange of the broker. -/
theorem ServerShows.exchange (h : ServerShows t s b) (hagrees : s.Agrees)
    (hused : (s.clients i).used = true) {request : KsRequest} {f : CliFrame}
    {notes : UInt64 → List KsItem} (hreplied : Replied s i request f notes s')
    (hframe : Readable (.told f)) (hnotes : ∀ x, ∀ item ∈ notes x, Readable item)
    (hquiet : ∀ x, x ∉ b.live → notes x = []) {now : Nat} {entries : KsKvRef}
    {subs : Finset (CStr × UInt64)} (hnow : now ≤ t'.toNat) (hentries : s'.store.Shows t' entries)
    (hsubs : s'.pubsub.Represents subs)
    (hlive : ∀ q ∈ subs, q ∈ b.subscriptions ∨ q.2 = (s.clients i).id) :
    ServerShows t' s'
      { b.exchange (s.clients i).id request f notes with
        now := now
        entries := entries
        subscriptions := subs } := by
  have hmem := h.mem_live hused
  have hwf := h.wf.exchange hmem request f hquiet
  have hitems : ∀ item ∈ Item.asked request :: (notes (s.clients i).id ++ [Item.told f]),
      Readable item := by
    intro item hitem
    rcases List.mem_cons.mp hitem with rfl | hitem
    · trivial
    · rcases List.mem_append.mp hitem with hitem | hitem
      · exact hnotes _ item hitem
      · exact List.mem_singleton.mp hitem ▸ hframe
  refine ⟨⟨hwf.nodup, hwf.disjoint, ?_, hwf.silent⟩, hnow, hentries, hsubs, ?_, ?_, ?_, ?_⟩
  · intro q hq
    rcases hlive q hq with hq | hq
    · exact h.wf.subscribed q hq
    · exact hq ▸ hmem
  · intro x
    simp only [State.exchange, h.live x, hreplied.used, hreplied.id]
  · intro j hj
    rw [hreplied.used] at hj
    rw [hreplied.id]
    by_cases hji : j = i
    · subst hji
      have happend := (h.logs j hj).append hitems
      rw [State.exchange_log_self, hreplied.self]
      simpa [itemEvent] using happend
    · have hid : (s.clients j).id ≠ (s.clients i).id := fun heq => hji (hagrees.distinct j i hj hused heq)
      rw [State.exchange_log_of_ne hid, hreplied.others j hji hj]
      exact (h.logs j hj).append (hnotes _)
  · rw [hreplied.closed]
    refine logsShow_congr h.closed fun x hx => ?_
    have hgone : x ∉ b.live := fun hlive => h.wf.disjoint x hlive hx
    have hid : x ≠ (s.clients i).id := fun heq => hgone (heq ▸ hmem)
    rw [State.exchange_log_of_ne hid, hquiet x hgone, List.append_nil]
  · rw [hreplied.accepted]
    exact h.issued

/-! ## a message and its takers -/

/-- The connections that take a message. -/
def takers (s : KsServer cfg) (channel message : CStr) : Finset UInt64 :=
  (receivers s channel (messageFrame channel.bytes message.bytes)).image fun j => (s.clients j).id

section

variable {channel message : CStr}

/-- Who takes a message receives it. -/
theorem mem_takers (hagrees : s.Agrees) (hused : (s.clients i).used = true) :
    (s.clients i).id ∈ takers s channel message ↔
      i ∈ receivers s channel (messageFrame channel.bytes message.bytes) := by
  rw [takers, Finset.mem_image]
  constructor
  · rintro ⟨j, hj, hid⟩
    rwa [← hagrees.distinct j i (mem_receivers.mp hj).1 hused hid]
  · exact fun hi => ⟨i, hi, rfl⟩

/-- As many take it as receive it. -/
theorem card_takers (hagrees : s.Agrees) :
    (takers s channel message).card =
      (receivers s channel (messageFrame channel.bytes message.bytes)).card :=
  Finset.card_image_of_injOn fun _ hj _ hk =>
    hagrees.distinct _ _ (mem_receivers.mp hj).1 (mem_receivers.mp hk).1

/-- The audience of a channel are its subscribers that were not dropped. -/
theorem ServerShows.mem_audience (h : ServerShows t s b) (hok : s.Ok)
    (hused : (s.clients i).used = true) :
    (s.clients i).id ∈ b.audience channel ↔
      (s.clients i).id ∈ s.pubsub.subscribersOf channel ∧ (s.clients i).dropConnection = false := by
  rw [State.mem_audience, h.alive hok hused, h.subscriptions.mem_iff]
  simp [h.mem_live hused]

/-- Only the audience of a message takes it. -/
theorem ServerShows.takers_subset (h : ServerShows t s b) (hok : s.Ok) :
    takers s channel message ⊆ b.audience channel := by
  intro x hx
  obtain ⟨j, hj, rfl⟩ := Finset.mem_image.mp hx
  obtain ⟨hused, hsub, htakes⟩ := mem_receivers.mp hj
  refine (h.mem_audience hok hused).mpr ⟨hsub, ?_⟩
  rw [KsClient.takes, Bool.and_eq_true, Bool.not_eq_true'] at htakes
  exact htakes.1

/-- What delivery adds to a history is what the broker notes. -/
theorem ServerShows.offered (h : ServerShows t s b) (hok : s.Ok) (hagrees : s.Agrees)
    (hused : (s.clients i).used = true) :
    (offerAll s.clients (s.pubsub.subscribersOf channel)
        (messageFrame channel.bytes message.bytes) i).history =
      (s.clients i).history ++
        (b.notes channel message.bytes (takers s channel message) (s.clients i).id).map itemEvent := by
  have hq := (hok.clients i).toQueueOk
  simp only [offerAll, hagrees.foundFor_iff, hused, true_and, State.notes, mem_takers hagrees hused,
    h.mem_audience hok hused, mem_receivers]
  generalize hf : messageFrame channel.bytes message.bytes = f
  by_cases hsub : (s.clients i).id ∈ s.pubsub.subscribersOf channel
  · rcases KsClient.offer_cases (s.clients i) f with hd | htakes | ⟨hd, hfull⟩
    · -- it was dropped before
      simp [hsub, hd, KsClient.takes, KsClient.offer_dead hd]
    · have hevent : itemEvent (.message channel message.bytes) = .queued f := congrArg _ hf
      simp [hsub, htakes, (KsClient.offer_takes hq htakes).2.2.2, hevent]
    · have htakes : ¬ (s.clients i).takes f = true := by simp [KsClient.takes, hd, hfull]
      simp [hsub, htakes, hd, (KsClient.offer_full hq hd hfull).2.2.2.2, itemEvent]
  · simp [hsub]

end

/-! ## one request -/

section

variable {name : CStr} {args : List CStr} {line : Nat} {text : List UInt8} {env : KsCommandEnv}

/-- The request that is logged is the line. -/
theorem requestText_strAt {m : Mem} (h : StrAt m line text) (hlen : text.length ≤ ksInputCap) :
    requestText m line = text := by
  rw [requestText, Mem.cstr_bytes h.isStr (by omega), h.bytes]

/-- A command that has run, and its reply, as a change of the server. -/
theorem Ran.replied (hok : s.Ok) (hp : (s.clients i).pendingLen < ksOutputHighWater)
    (hargs : (args.map CStr.length).sum ≤ ksMaxRequest) {r : KsServer cfg × KsReply}
    (hran : Ran (beginCommand s i line) i name args r) {f : CliFrame} (hsaid : r.2.Says f)
    (htext : requestText (s.clients i).input line = text) {notes : UInt64 → List KsItem}
    (hnotes : ∀ j, (s.clients j).used = true →
      (offerAll s.clients (commandTargets s.pubsub name args) (publishFrame args) j).history =
        (s.clients j).history ++ (notes (s.clients j).id).map itemEvent)
    (hused : (s.clients i).used = true) :
    Replied s i (.command text) f notes (sendReply r.1 i r.2).1 ∧
      (sendReply r.1 i r.2).1.store = r.1.store ∧ (sendReply r.1 i r.2).1.pubsub = r.1.pubsub := by
  have hhandled := hran.handled hok hp hargs
  have hacted := hhandled.acted hok
  have hframe := length_publishFrame_le hargs
  have hd := (hok.clients i).alive hp
  have hq := ((hran.ok (hok.beginCommand hd line) hargs).clients i).toQueueOk
  have hsend := sendReply_eq r.1 i (List.length_pos_iff.mpr f.encode_ne_nil) hsaid.sends
  -- what the issuer sees of its own message
  obtain ⟨-, -, hown⟩ := offerAll_self hok hp line (commandTargets s.pubsub name args) hframe
  have hself : (notes (s.clients i).id).map itemEvent =
      if foundFor s.clients (commandTargets s.pubsub name args) i then
        [.queued (publishFrame args)] else [] := by
    refine List.append_cancel_left ((hnotes i hused).symm.trans ?_)
    simp only [offerAll]
    split
    · exact (KsClient.offer_takes (hok.clients i).toQueueOk (takes_parse hd hp line hframe)).2.2.2
    · rw [List.append_nil]
  refine ⟨⟨fun j => (hacted.slots j).1, fun j => (hacted.slots j).2.2, ?_, ?_, hacted.closed,
    hacted.accepted⟩, ?_, ?_⟩
  · have hresult := hhandled.result
    rw [hsend] at hresult ⊢
    obtain ⟨c, -, -, hcase⟩ := clientQueue_spec hq f.encode
    rcases hcase with ⟨-, heq, -, hhist⟩ | ⟨-, heq, -⟩
    · rw [heq]
      simp only [setClient_clients, Function.update_self, hhist, hran.clients]
      rw [show (beginCommand s i line).pubsub = s.pubsub from rfl, hown, ← hself]
      simp [KsClient.parse, htext]
    · simp only [heq] at hresult
      cases hresult
  · intro j hj hjused
    rw [hhandled.others j hj]
    exact hnotes j hjused
  · rw [hsend]
    rfl
  · rw [hsend]
    rfl

/-- A request that is served is one step of the broker. -/
theorem ServerShows.serves (h : ServerShows t s b) (hok : s.Ok) (hagrees : s.Agrees)
    (hused : (s.clients i).used = true) (hd : (s.clients i).dropConnection = false)
    {scarce : Prop} {clock : KsReadings} (ht : t ≤ clock.first) (hle : clock.first ≤ clock.second)
    {request : KsRequest} {reply : KsReply} {m' : KsKvRef} {subs' : Finset (CStr × UInt64)}
    (hserves : Serves scarce clock (s.clients i).id b.entries b.subscriptions
      (requestMeaning request) reply m' subs')
    (hshort : scarce → ksShort refused clock.second.toNat b.entries b.subscriptions)
    (hreplied : ∀ f, reply.Says f → Replied s i request f (fun _ => []) s')
    (hstore : s'.store.Shows clock.second m') (hpubsub : s'.pubsub.Represents subs') :
    ∃ e b', Step ksScale (ksShort refused) ksProtocol b e b' ∧ ServerShows clock.second s' b' := by
  have hlive := h.mem_live hused
  have halive := (h.alive hok hused).mpr hd
  have hnow : b.now ≤ clock.first.toNat := h.now.trans (UInt64.le_iff_toNat_le.mp ht)
  have hlater := UInt64.le_iff_toNat_le.mp hle
  have hexchange {f : CliFrame} (hsaid : reply.Says f) {now : Nat} (hn : now ≤ clock.second.toNat)
      (hsubs : ∀ q ∈ subs', q ∈ b.subscriptions ∨ q.2 = (s.clients i).id) :=
    h.exchange hagrees hused (hreplied f hsaid) ⟨hsaid.valid, hsaid.answers⟩
      (fun _ _ hitem => absurd hitem (by simp)) (fun _ _ => rfl) hn hstore hpubsub hsubs
  generalize hmeaning : requestMeaning request = meaning at hserves
  cases hserves with
  | plain f _ hsaid =>
    exact ⟨_, _, .plain b _ request f hlive halive hmeaning,
      hexchange hsaid (hnow.trans hlater) fun _ => .inl⟩
  | granted ask answer f _ _ _ hgrants htells hsaid =>
    exact ⟨_, _, .granted b _ request f ask answer _ _ _ _ hlive halive hnow hlater hmeaning
      (hgrants.mono hshort) htells, hexchange hsaid le_rfl hgrants.mem_subs⟩

/-- The number of takers is what `PUBLISH` answers. -/
theorem publish_number (hok : s.Ok) (hagrees : s.Agrees)
    (hp : (s.clients i).pendingLen < ksOutputHighWater) (line : Nat) (channel message : CStr) :
    Word.i64 (UInt64.ofNat ((s.pubsub.subscribersOf channel).countP
      (delivered (beginCommand s i line).clients
        (messageFrame channel.bytes message.bytes)))).toNat = (takers s channel message).card ∧
      (takers s channel message).card < 1024 := by
  have hcount := countP_delivered (hagrees.beginCommand (i := i) line)
    (hok.beginCommand ((hok.clients i).alive hp) line).pubsub channel
    (messageFrame channel.bytes message.bytes)
  rw [receivers_beginCommand, show (beginCommand s i line).pubsub = s.pubsub from rfl] at hcount
  have hle := Finset.card_le_univ (receivers s channel (messageFrame channel.bytes message.bytes))
  have hbelow := cfg.below
  rw [Fintype.card_fin] at hle
  rw [fdSetSize] at hbelow
  rw [hcount, card_takers hagrees, UInt64.toNat_ofNat_of_lt' (by simp only [UInt64.size]; omega),
    Word.i64, if_pos (by omega)]
  exact ⟨rfl, by omega⟩

/-- What the broker notes of a message can be read. -/
theorem readable_notes (b : KsBroker) {channel message : CStr}
    (hlen : channel.length + message.length ≤ ksMaxRequest) (ids : Finset UInt64) (x : UInt64) :
    ∀ item ∈ b.notes channel message.bytes ids x, Readable item := by
  intro item hitem
  unfold State.notes at hitem
  split at hitem
  · rw [List.mem_singleton.mp hitem]
    exact hlen
  · split at hitem
    · rw [List.mem_singleton.mp hitem]
      trivial
    · cases hitem

/-- **A published message** is one step of the broker. -/
theorem ServerShows.publishes (h : ServerShows t s b) (hok : s.Ok) (hagrees : s.Agrees)
    (hused : (s.clients i).used = true) (hp : (s.clients i).pendingLen < ksOutputHighWater)
    (ht : t ≤ env.clock.first) (hle : env.clock.first ≤ env.clock.second) {channel message : CStr}
    (hlen : channel.length + message.length ≤ ksMaxRequest)
    (hmeaning : requestMeaning (.command text) = .inr (.publish channel message.bytes))
    (htext : requestText (s.clients i).input line = text) (hname : name.bytes = ascii "PUBLISH") :
    ∃ e b', Step ksScale (ksShort refused) ksProtocol b e b' ∧
      ServerShows env.clock.second (sendReply
        (runCommand (beginCommand s i line) i name [channel, message] env).1 i
        (runCommand (beginCommand s i line) i name [channel, message] env).2).1 b' := by
  have hd := (hok.clients i).alive hp
  have hbegin := hok.beginCommand hd line
  have hargs : ([channel, message].map CStr.length).sum ≤ ksMaxRequest := by simpa using hlen
  have hran : Ran (beginCommand s i line) i name [channel, message] _ :=
    runCommand_spec hbegin.store hbegin.pubsub (fun j => (hbegin.clients j).toQueueOk) hargs i env
  rw [runCommand_publish hname,
    commandPublish_eq hbegin.pubsub (fun j => (hbegin.clients j).toQueueOk) hlen] at hran ⊢
  rw [show (beginCommand s i line).pubsub = s.pubsub from rfl] at hran ⊢
  obtain ⟨hnumber, hcard⟩ := publish_number hok hagrees hp line channel message
  rw [hnumber] at hran ⊢
  have htargets : commandTargets s.pubsub name [channel, message] =
      s.pubsub.subscribersOf channel := if_pos hname
  have hsaid := says_int (v := (takers s channel message).card) (by omega)
  have hnotes (j : Fin cfg.maxClients) (hj : (s.clients j).used = true) :
      (offerAll s.clients (commandTargets s.pubsub name [channel, message])
          (publishFrame [channel, message]) j).history =
        (s.clients j).history ++ (b.notes channel message.bytes (takers s channel message)
          (s.clients j).id).map itemEvent := by
    rw [htargets]
    exact h.offered hok hagrees hj
  obtain ⟨hreplied, hstore, hpubsub⟩ := hran.replied hok hp hargs hsaid htext hnotes hused
  have hsubset : takers s channel message ⊆ b.audience channel := h.takers_subset hok
  refine ⟨_, _, .published b _ (.command text) _ channel message.bytes (takers s channel message)
    (h.mem_live hused) ((h.alive hok hused).mpr hd) hmeaning hsubset ?_ (.published ..), ?_⟩
  · -- below the high-water mark the issuer has room for its own message
    intro hmem
    obtain ⟨hsub, -⟩ := (h.mem_audience hok hused).mp hmem
    rw [mem_takers hagrees hused, mem_receivers]
    exact ⟨hused, hsub, takes_parse hd hp line (length_messageFrame_le hlen)⟩
  · have hlater := UInt64.le_trans ht hle
    refine h.exchange hagrees hused hreplied ⟨hsaid.valid, hsaid.answers⟩
      (readable_notes b hlen _) (fun x hx => b.notes_eq_nil hsubset fun hmem => ?_)
      (h.now.trans (UInt64.le_iff_toNat_le.mp hlater)) ?_ ?_ fun _ => .inl
    · exact hx (State.mem_audience.mp hmem).1
    · rw [hstore]
      exact h.entries.mono hlater
    · rw [hpubsub]
      exact h.subscriptions

/-- A string is known by its bytes. -/
theorem ofBytes_bytes (c : CStr) : CStr.ofBytes c.bytes = c := by
  ext1
  exact bytes_ofBytes c.noNul

/-- The meaning of a line is that of the command that is parsed. -/
theorem requestMeaning_some {m : Mem} (h : StrAt m line text)
    (hparsed : parsedCommand m line = some (name, args)) :
    requestMeaning (.command text) = commandMeaning name args := by
  have hread := parsedCommand_strAt h
  rw [hparsed] at hread
  have hargs : (args.map CStr.bytes).map CStr.ofBytes = args := by
    rw [List.map_map]
    exact List.map_id'' ofBytes_bytes args
  simp only [requestMeaning, ← hread, Option.map_some, commandBytes, ofBytes_bytes, hargs]

/-- A line that cannot be parsed means an error. -/
theorem requestMeaning_none {m : Mem} (h : StrAt m line text)
    (hparsed : parsedCommand m line = none) :
    requestMeaning (.command text) = .inl (.error (ascii "invalid command")) := by
  have hread := parsedCommand_strAt h
  rw [hparsed] at hread
  simp only [requestMeaning, ← hread, Option.map_none]

/-- A command that delivers nothing, and its reply. -/
theorem ServerShows.ran (h : ServerShows t s b) (hok : s.Ok) (hagrees : s.Agrees)
    (hused : (s.clients i).used = true) (hp : (s.clients i).pendingLen < ksOutputHighWater)
    (ht : t ≤ env.clock.first) (hle : env.clock.first ≤ env.clock.second)
    (hheap : ∀ site, env.heap site = false → refused env.clock.second.toNat)
    (htext : requestText (s.clients i).input line = text)
    (hargs : (args.map CStr.length).sum ≤ ksMaxRequest) {r : KsServer cfg × KsReply}
    (hran : Ran (beginCommand s i line) i name args r)
    (htargets : commandTargets s.pubsub name args = [])
    (hserves : ServesCommand (beginCommand s i line) i env b.entries b.subscriptions
      (requestMeaning (.command text)) r) :
    ∃ e b', Step ksScale (ksShort refused) ksProtocol b e b' ∧
      ServerShows env.clock.second (sendReply r.1 i r.2).1 b' := by
  obtain ⟨m', subs', hserves, hentries, hsubs⟩ := hserves
  have hid : ((beginCommand s i line).clients i).id = (s.clients i).id := by
    simp [clients_beginCommand, KsClient.parse, KsClient.log]
  rw [hid] at hserves
  have hnotes (j : Fin cfg.maxClients) (_ : (s.clients j).used = true) :
      (offerAll s.clients (commandTargets s.pubsub name args) (publishFrame args) j).history =
        (s.clients j).history ++ ((fun _ => []) (s.clients j).id : List KsItem).map itemEvent := by
    rw [htargets, offerAll_nil, List.map_nil, List.append_nil]
  have hreplied {f : CliFrame} (hsaid : r.2.Says f) :
      Replied s i (.command text) f (fun _ => []) (sendReply r.1 i r.2).1 ∧
        (sendReply r.1 i r.2).1.store = r.1.store ∧
        (sendReply r.1 i r.2).1.pubsub = r.1.pubsub :=
    hran.replied hok hp hargs hsaid htext hnotes hused
  obtain ⟨f, hsaid⟩ := hserves.said
  obtain ⟨-, hstore, hpubsub⟩ := hreplied hsaid
  exact h.serves hok hagrees hused ((hok.clients i).alive hp) ht hle hserves
    (lacksMemory_short h.entries h.subscriptions hheap) (fun f hf => (hreplied hf).1)
    (hstore ▸ hentries) (hpubsub ▸ hsubs)

/-- **`handle_command` is one step of the broker.** -/
theorem ServerShows.handleCommand (h : ServerShows t s b) (hok : s.Ok) (hagrees : s.Agrees)
    (hused : (s.clients i).used = true) (hp : (s.clients i).pendingLen < ksOutputHighWater)
    (hline : StrAt (s.clients i).input line text) (hlen : text.length ≤ ksInputCap)
    (ht : t ≤ env.clock.first) (hle : env.clock.first ≤ env.clock.second)
    (hheap : ∀ site, env.heap site = false → refused env.clock.second.toNat) :
    ∃ e b', Step ksScale (ksShort refused) ksProtocol b e b' ∧
      ServerShows env.clock.second (Kessel.handleCommand s i line env).1 b' := by
  have hbegin := hok.beginCommand ((hok.clients i).alive hp) line
  have htext := requestText_strAt hline hlen
  have hentries : (beginCommand s i line).store.Shows env.clock.first b.entries := h.entries.mono ht
  have hsubs : (beginCommand s i line).pubsub.Represents b.subscriptions := h.subscriptions
  rw [handleCommand_eq]
  cases hparsed : parsedCommand (s.clients i).input line with
  | none =>
    have hname : CStr.empty.bytes ≠ ascii "PUBLISH" := by decide
    have hgood : (KsReply.error (ascii "invalid command")).Good ksResponseCap :=
      (good_error (by decide)).mono ksResponseCap_ge
    have hran : Ran (beginCommand s i line) i .empty [] (beginCommand s i line, _) :=
      ran_reply hbegin.store hbegin.pubsub hname hgood
    refine h.ran hok hagrees hused hp ht hle hheap htext (by simp) hran (if_neg hname) ?_
    rw [requestMeaning_none hline hparsed]
    exact servesCommand_plain hentries hle hsubs (says_error (by decide))
  | some c =>
    obtain ⟨name, args⟩ := c
    have hargs := parsedCommand_args hparsed
    have hmeaning := requestMeaning_some hline hparsed
    have hran : Ran (beginCommand s i line) i name args _ := runCommand_spec hbegin.store
      hbegin.pubsub (fun j => (hbegin.clients j).toQueueOk) hargs i env
    by_cases hname : name.bytes = ascii "PUBLISH"
    · by_cases harity : ∃ channel message, args = [channel, message]
      · obtain ⟨channel, message, rfl⟩ := harity
        have hlen : channel.length + message.length ≤ ksMaxRequest := by simpa using hargs
        refine h.publishes hok hagrees hused hp ht hle hlen ?_ htext hname
        rw [hmeaning, commandMeaning_publish hname]
        rfl
      · push Not at harity
        rw [commandMeaning_publish hname, binary_of_ne harity] at hmeaning
        have htargets : commandTargets s.pubsub name args = [] := by
          rw [commandTargets, if_pos hname]
          unfold publishTargets
          split
          · exact absurd rfl (harity _ _)
          · rfl
        have hpublish : commandPublish (beginCommand s i line).pubsub (beginCommand s i line).clients
            args = ((beginCommand s i line).clients, wrongArity "PUBLISH") := by
          unfold commandPublish
          split
          · exact absurd rfl (harity _ _)
          · rfl
        refine h.ran hok hagrees hused hp ht hle hheap htext hargs hran htargets ?_
        rw [hmeaning, runCommand_publish hname, hpublish]
        exact servesCommand_plain hentries hle hsubs (says_wrongArity (by decide))
    · refine h.ran hok hagrees hused hp ht hle hheap htext hargs hran (if_neg hname) ?_
      rw [hmeaning]
      exact runCommand_serves hbegin.store hentries hle hsubs hargs hname

end

end Kessel
