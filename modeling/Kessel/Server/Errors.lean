import Kessel.Kv.Live
import Kessel.Server.Publish

/-!
# Kessel.Server.Errors

An error reply has no effect.

A branch of `handle_command` either answers with `queue_error`, and then it has
changed at most the slots of keys that had expired (`Harmless`), or it answers
with a response, and a response never begins with `-` (`KsReply.Plain`).

* `Reached.errors_harmless` — when `-ERR` is queued, readers of the store, the
  registry and the other clients cannot tell that there was a request.
-/

namespace Kessel

open CStr (ascii)

variable {cfg : KsConfig}

/-! ## responses -/

/-- The reply is a response, and not an error by its first byte. -/
def KsReply.Plain : KsReply → Prop
  | .error _ => False
  | .response m length => length ≠ 0 → m 0 ≠ 45

/-- A formatted reply whose first byte is not `-` is no error. -/
theorem plain_of_formatted {r : Mem × Nat} {frame : List UInt8} (h : Formatted blank 0 frame r)
    (hhead : frame.head? ≠ some 45) : (KsReply.response r.1 r.2).Plain := by
  intro hlength hfirst
  rw [h.length] at hlength
  have hframe := h.bytes
  obtain ⟨n, hn⟩ := Nat.exists_eq_succ_of_ne_zero hlength
  rw [hn, Mem.read_succ, hfirst] at hframe
  rw [← hframe] at hhead
  exact hhead rfl

/-- A simple reply is no error. -/
theorem plain_simple {text : List UInt8} (h : text.length ≤ 64) :
    (respond (ksFmtSimple · · · text)).Plain := by
  have hfits : text.length + 3 < ksResponseCap := by
    simp only [ksResponseCap, ksMaxRequest]
    omega
  exact plain_of_formatted (ksFmtSimple_formatted blank 0 text hfits) (by simp [simpleFrame, ascii])

/-- A number is no error. -/
theorem plain_int {v : Int} (h : v.natAbs < 2 ^ 64) : (respond (ksFmtInt · · · v)).Plain := by
  have hdigits := length_decimalInt_le (by decide : 0 < 20) (show v.natAbs < 10 ^ 20 by omega)
  have hfits : (decimalInt v).length + 3 < ksResponseCap := by
    simp only [ksResponseCap, ksMaxRequest]
    omega
  exact plain_of_formatted (ksFmtInt_formatted blank 0 v hfits) (by simp [intFrame, ascii])

/-- `OK` is no error. -/
theorem plain_ok : (respond (ksFmtSimple · · · (ascii "OK"))).Plain :=
  plain_simple (show (ascii "OK").length ≤ 64 by decide)

/-- A flag is no error. -/
theorem plain_flag (b : Bool) : (respond (ksFmtInt · · · (if b then 1 else 0))).Plain :=
  plain_int (by cases b <;> decide)

/-- A bulk frame is no error. -/
theorem plain_bulk {text : List UInt8} (h : text.length ≤ ksMaxRequest) :
    (respond (ksFmtBulk · · · text)).Plain := by
  have hdigits := length_decimal_request h
  have hfits : (decimal text.length).length + text.length + 5 < ksResponseCap := by
    simp only [ksResponseCap]
    omega
  exact plain_of_formatted (ksFmtBulk_formatted blank 0 text hfits) (by simp [bulkFrame, ascii])

/-- Nil is no error. -/
theorem plain_nil : (respond ksFmtNil).Plain :=
  plain_of_formatted (ksFmtNil_formatted blank 0 (show 6 ≤ ksResponseCap by decide)) (by decide)

/-! ## the commands on the store -/

/-- A command on the store that answers with an error shows nothing new. -/
def StoreHarmless (store : KsKv) (now : UInt64) (r : KsKv × KsReply) : Prop :=
  r.2.Plain ∨ store.SameFrom now r.1

section

variable {store : KsKv} {args : List CStr} (env : KsCommandEnv)

/-- A command that leaves the store alone. -/
theorem storeHarmless_same (now : UInt64) (reply : KsReply) :
    StoreHarmless store now (store, reply) :=
  .inr (.refl now store)

/-- Both forms of `SET`: a refused value shows nothing new. -/
theorem storeHarmless_setEx (key : CStr) (value : List UInt8) (ttl : UInt64) :
    StoreHarmless store env.clock.first
      (if (ksKvSetEx store key value ttl env.heap env.clock).2 = .error then
        ((ksKvSetEx store key value ttl env.heap env.clock).1, .error (ascii "unable to store value"))
      else
        ((ksKvSetEx store key value ttl env.heap env.clock).1,
          respond (ksFmtSimple · · · (ascii "OK")))) := by
  rcases ksKvSetEx_live store key value ttl env.heap env.clock with ⟨herr, hsame, -⟩ | ⟨d, -, -, hr, -⟩
  · rw [if_pos herr]
    exact .inr hsame.same
  · have hstored : (ksKvSetEx store key value ttl env.heap env.clock).2 ≠ .error := by
      rw [hr]
      split <;> simp
    rw [if_neg hstored]
    exact .inl plain_ok

/-- A `SET` that fails shows nothing new. -/
theorem commandSet_harmless :
    StoreHarmless store env.clock.first (commandSet store args env) := by
  unfold commandSet
  split
  · exact storeHarmless_setEx env _ _ 0
  · exact storeHarmless_same _ _

/-- A `GET` with one argument does not fail. -/
theorem commandGet_harmless (h : store.Bounded) :
    StoreHarmless store env.clock.first (commandGet store args env) := by
  unfold commandGet
  split
  · next key =>
    obtain ⟨-, hvalue⟩ := h.ksKvGet key env.clock
    generalize ksKvGet store key env.clock = r at *
    obtain ⟨store', value⟩ := r
    cases value with
    | none => exact .inl plain_nil
    | some value => exact .inl (plain_bulk (hvalue value rfl))
  · exact storeHarmless_same _ _

/-- Nor does a `DEL`. -/
theorem commandDel_harmless : StoreHarmless store env.clock.first (commandDel store args env) := by
  unfold commandDel
  split
  · exact .inl (plain_flag _)
  · exact storeHarmless_same _ _

/-- Nor does an `EXISTS`. -/
theorem commandExists_harmless :
    StoreHarmless store env.clock.first (commandExists store args env) := by
  unfold commandExists
  split
  · exact .inl (plain_flag _)
  · exact storeHarmless_same _ _

/-- A `SETEX` that fails shows nothing new. -/
theorem commandSetex_harmless :
    StoreHarmless store env.clock.first (commandSetex store args env) := by
  unfold commandSetex
  split
  · split
    · exact storeHarmless_same _ _
    · split
      · exact storeHarmless_same _ _
      · exact storeHarmless_setEx env _ _ _
  · exact storeHarmless_same _ _

/-- The answer of `EXPIRE` is no error. -/
theorem plain_updated (r : KsKvExpireResult) :
    (respond (ksFmtInt · · · (if r = .updated then 1 else 0))).Plain := by
  have hflag := plain_flag (decide (r = .updated))
  simpa using hflag

/-- An `EXPIRE` whose deadline is out of range shows nothing new. -/
theorem commandExpire_harmless :
    StoreHarmless store env.clock.first (commandExpire store args env) := by
  unfold commandExpire
  split
  · next key seconds =>
    split
    · exact storeHarmless_same _ _
    · next n hn =>
      by_cases hpast : n ≤ 0
      · -- an expiry in the past deletes, and deleting does not fail
        simp only [if_pos hpast]
        rw [if_neg (by split <;> simp)]
        exact .inl (plain_updated _)
      · simp only [if_neg hpast]
        split
        · next herr => exact .inr (ksKvExpire_error _ _ _ _ herr).same
        · exact .inl (plain_updated _)
  · exact storeHarmless_same _ _

/-- A `TTL` with one argument does not fail. -/
theorem commandTtl_harmless (h : store.Bounded) :
    StoreHarmless store env.clock.first (commandTtl store args env) := by
  unfold commandTtl
  split
  · next key => exact .inl (plain_int (h.ttl key env.clock).2)
  · exact storeHarmless_same _ _

end

/-! ## all commands -/

/-- A command that answers with an error shows nothing new. -/
def Harmless (s : KsServer cfg) (env : KsCommandEnv) (r : KsServer cfg × KsReply) : Prop :=
  r.2.Plain ∨ (r.1 = { s with store := r.1.store } ∧ s.store.SameFrom env.clock.first r.1.store)

section

variable {s : KsServer cfg} {args : List CStr} (env : KsCommandEnv)

/-- A command that leaves the server alone. -/
theorem harmless_same (reply : KsReply) : Harmless s env (s, reply) := .inr ⟨rfl, .refl _ _⟩

/-- A command on the store that is harmless to it is harmless to the server. -/
theorem harmless_store {r : KsKv × KsReply} (h : StoreHarmless s.store env.clock.first r) :
    Harmless s env ({ s with store := r.1 }, r.2) :=
  h.imp_right fun hsame => ⟨rfl, hsame⟩

/-- A `SUBSCRIBE` that is refused leaves the registry as it was. -/
theorem commandSubscribe_harmless (hwf : s.pubsub.Wf) (id : UInt64) :
    Harmless s env ({ s with pubsub := (commandSubscribe s.pubsub id args env).1 },
      (commandSubscribe s.pubsub id args env).2) := by
  unfold commandSubscribe
  split
  · next channel =>
    obtain ⟨-, hcase⟩ := KsPubsub.subscribersOf_subscribe hwf channel id env.heap
    generalize ksPubsubSubscribe s.pubsub channel id env.heap = r at *
    obtain ⟨pubsub, status⟩ := r
    dsimp only at hcase ⊢
    have hfailed (hstatus : status ≠ .ok) (reply : KsReply) :
        Harmless s env ({ s with pubsub := pubsub }, reply) := by
      rcases hcase with ⟨hok, -⟩ | ⟨-, rfl⟩
      · exact absurd hok hstatus
      · exact harmless_same env reply
    split
    · next hstatus => exact hfailed (by rw [hstatus]; decide) _
    · split
      · next hstatus => exact hfailed (by rw [hstatus]; decide) _
      · exact .inl plain_ok
  · exact harmless_same env _

/-- An `UNSUBSCRIBE` of a subscription that does not exist is no error. -/
theorem commandUnsubscribe_harmless (id : UInt64) :
    Harmless s env ({ s with pubsub := (commandUnsubscribe s.pubsub id args).1 },
      (commandUnsubscribe s.pubsub id args).2) := by
  unfold commandUnsubscribe
  split
  · next channel =>
    have hflag := plain_flag (decide ((ksPubsubUnsubscribe s.pubsub channel id).2 = .ok))
    exact .inl (by simpa using hflag)
  · exact harmless_same env _

/-- A `PUBLISH` with two arguments does not fail. -/
theorem commandPublish_harmless :
    Harmless s env ({ s with clients := (commandPublish s.pubsub s.clients args).1 },
      (commandPublish s.pubsub s.clients args).2) := by
  unfold commandPublish
  split
  · exact .inl (plain_int (natAbs_i64_lt (UInt64.toNat_lt _)))
  · exact harmless_same env _

/-- **Every branch of `handle_command` that answers with an error is harmless.** -/
theorem runCommand_harmless (hstore : s.store.Bounded) (hwf : s.pubsub.Wf)
    (hargs : (args.map CStr.length).sum ≤ ksMaxRequest) (i : Fin cfg.maxClients) (name : CStr) :
    Harmless s env (runCommand s i name args env) := by
  unfold runCommand
  extract_lets onStore onPubsub
  refine iteInduction (motive := Harmless s env) (fun _ => ?ping) fun _ => ?_
  case ping =>
    unfold commandPing
    split
    · exact harmless_same env _
    · exact .inl (plain_simple (show (ascii "PONG").length ≤ 64 by decide))
  refine iteInduction (motive := Harmless s env) (fun _ => ?echo) fun _ => ?_
  case echo =>
    unfold commandEcho
    split
    · next text => exact .inl (plain_bulk (by simpa [CStr.length] using hargs))
    · exact harmless_same env _
  refine iteInduction (motive := Harmless s env) (fun _ => ?help) fun _ => ?_
  case help =>
    have hlen := length_helpText_le
    unfold commandHelp
    generalize helpText = text at hlen ⊢
    split
    · exact harmless_same env _
    · exact .inl (plain_bulk hlen)
  refine iteInduction (motive := Harmless s env) (fun _ => ?set) fun _ => ?_
  case set => exact harmless_store env (commandSet_harmless env)
  refine iteInduction (motive := Harmless s env) (fun _ => ?get) fun _ => ?_
  case get => exact harmless_store env (commandGet_harmless env hstore)
  refine iteInduction (motive := Harmless s env) (fun _ => ?del) fun _ => ?_
  case del => exact harmless_store env (commandDel_harmless env)
  refine iteInduction (motive := Harmless s env) (fun _ => ?ex) fun _ => ?_
  case ex => exact harmless_store env (commandExists_harmless env)
  refine iteInduction (motive := Harmless s env) (fun _ => ?setex) fun _ => ?_
  case setex => exact harmless_store env (commandSetex_harmless env)
  refine iteInduction (motive := Harmless s env) (fun _ => ?expire) fun _ => ?_
  case expire => exact harmless_store env (commandExpire_harmless env)
  refine iteInduction (motive := Harmless s env) (fun _ => ?ttl) fun _ => ?_
  case ttl => exact harmless_store env (commandTtl_harmless env hstore)
  refine iteInduction (motive := Harmless s env) (fun _ => ?subscribe) fun _ => ?_
  case subscribe => exact commandSubscribe_harmless env hwf _
  refine iteInduction (motive := Harmless s env) (fun _ => ?unsubscribe) fun _ => ?_
  case unsubscribe => exact commandUnsubscribe_harmless env _
  refine iteInduction (motive := Harmless s env) (fun _ => ?publish) fun _ => ?_
  case publish => exact commandPublish_harmless env
  refine iteInduction (motive := Harmless s env) (fun _ => ?info) fun _ => harmless_same env _
  case info =>
    split
    · exact harmless_same env _
    · obtain ⟨text, hlen, heq⟩ := formatInfo_eq s env
      rw [heq]
      exact .inl (plain_bulk hlen)

end

/-! ## `handle_command` -/

/-- Nobody but the issuer can tell that there was a request; and of the issuer
only the line has been taken apart and the reply queued. -/
structure Unaffected (s : KsServer cfg) (i : Fin cfg.maxClients) (line : Nat) (env : KsCommandEnv)
    (s' : KsServer cfg) : Prop where
  live : ∀ now, env.clock.first ≤ now → s'.store.liveAt now = s.store.liveAt now
  pubsub : s'.pubsub = s.pubsub
  others : ∀ j, j ≠ i → s'.clients j = s.clients j
  issuer : { s.clients i with input := (s'.clients i).input }.SameConn (s'.clients i)
  input : ∀ n, (s.clients i).input.IsStr line n →
    (s.clients i).input.AgreeOutside line (line + n) (s'.clients i).input
  rest : s' = { s with
    clients := s'.clients
    store := s'.store
    metrics := { s.metrics with totalCommands := s.metrics.totalCommands + 1 } }

/-- The queue has not changed, or bytes with this property came behind it. -/
def KsClient.Extends (P : List UInt8 → Prop) (c c' : KsClient) : Prop :=
  c.SameConn c' ∧ (c'.pending = c.pending ∨
    ∃ data, P data ∧ data ≠ [] ∧ c'.pending = c.pending ++ data)

/-- What is queued stands behind what was pending. -/
theorem clientQueue_extends {c : KsClient} (h : c.QueueOk) {P : List UInt8 → Prop}
    {data : List UInt8} (hP : P data) (hne : data ≠ []) : c.Extends P (clientQueue c data).1 := by
  obtain ⟨c', -, hsame, hcase⟩ := clientQueue_spec h data
  rcases hcase with ⟨-, heq, hpending, -⟩ | ⟨-, heq, hpending, -⟩
  · rw [heq]
    exact ⟨hsame, .inr ⟨data, hP, hne, hpending⟩⟩
  · rw [heq]
    exact ⟨hsame, .inl hpending⟩

theorem KsClient.Extends.refl (P : List UInt8 → Prop) (c : KsClient) : c.Extends P c :=
  ⟨.refl c, .inl rfl⟩

section

variable {s : KsServer cfg} {i : Fin cfg.maxClients} {line : Nat} {env : KsCommandEnv}

/-- What the end of a branch does to its client. -/
theorem sendReply_extends (h : (s.clients i).QueueOk) (reply : KsReply) :
    ∃ c, (sendReply s i reply).1 = s.setClient i c ∧
      (s.clients i).Extends (fun data => reply.Plain → data.head? ≠ some 45) c := by
  have hread (m : Mem) {length : Nat} (hlength : length ≠ 0) : m.read 0 length ≠ [] := by
    simpa [← List.length_eq_zero_iff] using hlength
  unfold sendReply
  cases reply with
  | error message =>
    unfold queueError
    dsimp only
    split
    · exact ⟨_, rfl, .refl _ _⟩
    · next hlength => exact ⟨_, rfl, clientQueue_extends h False.elim (hread _ hlength)⟩
  | response m length =>
    dsimp only
    split
    · exact ⟨_, rfl, .refl _ _⟩
    · next hlength =>
      refine ⟨_, rfl, clientQueue_extends h (fun hplain => ?_) (hread _ hlength)⟩
      obtain ⟨n, rfl⟩ := Nat.exists_eq_succ_of_ne_zero hlength
      rw [Mem.read_succ]
      simpa using hplain hlength

/-- A request that only queues a reply, and at most drops what nobody sees. -/
theorem unaffected_setClient {store : KsKv} (hstore : s.store.SameFrom env.clock.first store)
    {c : KsClient} (hc : ((s.clients i).parse line).SameConn c) :
    Unaffected s i line env ({ beginCommand s i line with store }.setClient i c) where
  live := hstore
  pubsub := rfl
  others := by
    intro j hj
    simp [clients_beginCommand, hj]
  issuer := by
    simp only [setClient_clients, Function.update_self]
    exact ⟨hc.used, hc.fd, hc.id, hc.closeAfterWrite, hc.dropConnection, rfl, hc.inputLen⟩
  input := by
    intro n hn
    simp only [setClient_clients, Function.update_self, hc.input]
    exact ksParseLine_agree hn
  rest := rfl

/-- A message frame is an array. -/
theorem head?_publishFrame (args : List CStr) : (publishFrame args).head? ≠ some 45 := by
  unfold publishFrame
  split
  · simp [messageFrame, arrayHeader, ascii]
  · simp

/-- What is offered to a client comes behind its queue, or is lost. -/
theorem pending_offerAll {clients : Fin cfg.maxClients → KsClient} (h : ∀ j, (clients j).QueueOk)
    (ids : List UInt64) (f : List UInt8) (j : Fin cfg.maxClients) :
    (offerAll clients ids f j).pending = (clients j).pending ∨
      (offerAll clients ids f j).pending = (clients j).pending ++ f := by
  rw [offerAll]
  split
  · rcases KsClient.offer_cases (clients j) f with hd | ht | ⟨hd, hfull⟩
    · rw [KsClient.offer_dead hd]
      exact .inl rfl
    · exact .inr (KsClient.offer_takes (h j) ht).2.2.1
    · exact .inl (KsClient.offer_full (h j) hd hfull).2.2.2.1
  · exact .inl rfl

/-- Delivery keeps every queue in order. -/
theorem queueOk_offerAll {clients : Fin cfg.maxClients → KsClient} (h : ∀ j, (clients j).QueueOk)
    (ids : List UInt64) (f : List UInt8) (j : Fin cfg.maxClients) :
    (offerAll clients ids f j).QueueOk := by
  rw [offerAll]
  split
  · exact KsClient.queueOk_offer (h j) f
  · exact h j

/-- The queue of a client does not care about the line. -/
theorem queueOk_beginCommand (h : s.Ok) (line : Nat) (j : Fin cfg.maxClients) :
    ((beginCommand s i line).clients j).QueueOk := by
  rw [clients_beginCommand]
  by_cases hj : j = i
  · rw [hj, Function.update_self]
    exact ⟨(h.clients i).offset_le, (h.clients i).len_le⟩
  · rw [Function.update_of_ne hj]
    exact (h.clients j).toQueueOk

/-- A plain reply does not look like an error, whatever was delivered before it. -/
theorem not_error_of_plain {front f rest : List UInt8} {c c' : KsClient} {reply : KsReply}
    (hplain : reply.Plain) (hf : f.head? ≠ some 45)
    (hc : c.pending = front ∨ c.pending = front ++ f)
    (hc' : c.Extends (fun data => reply.Plain → data.head? ≠ some 45) c') :
    c'.pending ≠ front ++ (ascii "-ERR" ++ rest) := by
  intro hpending
  obtain ⟨data, hdata, hpending'⟩ : ∃ data : List UInt8, data.head? ≠ some 45 ∧
      c'.pending = c.pending ++ data := by
    rcases hc'.2 with hsame | ⟨data, hdata, -, happend⟩
    · exact ⟨[], by simp, by rw [hsame, List.append_nil]⟩
    · exact ⟨data, hdata hplain, happend⟩
  obtain ⟨own, hown, hc⟩ : ∃ own : List UInt8, own.head? ≠ some 45 ∧ c.pending = front ++ own := by
    rcases hc with hsame | happend
    · exact ⟨[], by simp, by rw [hsame, List.append_nil]⟩
    · exact ⟨f, hf, happend⟩
  rw [hpending', hc, List.append_assoc, List.append_cancel_left_eq] at hpending
  have hhead : (own ++ data).head? = some 45 := by rw [hpending]; rfl
  rw [List.head?_append, Option.or_eq_some_iff] at hhead
  rcases hhead with h | ⟨-, h⟩
  · exact hown h
  · exact hdata h

/-- A command that is answered with an error changes nothing that anybody but its
client sees. -/
theorem handleCommand_harmless (h : s.Ok) {rest : List UInt8}
    (herr : ((handleCommand s i line env).1.clients i).pending =
      (s.clients i).pending ++ (ascii "-ERR" ++ rest)) :
    Unaffected s i line env (handleCommand s i line env).1 := by
  have hq := fun j => queueOk_beginCommand (i := i) h line j
  have hself : (beginCommand s i line).clients i = (s.clients i).parse line := by
    simp [clients_beginCommand]
  rw [handleCommand_eq] at herr ⊢
  cases hparsed : parsedCommand (s.clients i).input line with
  | none =>
    obtain ⟨c, hsend, hc, -⟩ := sendReply_extends (hq i) (.error (ascii "invalid command"))
    rw [hself] at hc
    rw [hsend]
    exact unaffected_setClient (.refl _ s.store) hc
  | some command =>
    obtain ⟨name, args⟩ := command
    have hargs := parsedCommand_args hparsed
    have hran := @runCommand_spec _ (beginCommand s i line) name args h.store h.pubsub hq hargs i env
    have hharmless := runCommand_harmless (s := beginCommand s i line) env h.store h.pubsub hargs i
      name
    rw [hparsed] at herr
    dsimp only at herr ⊢
    generalize runCommand (beginCommand s i line) i name args env = r at *
    obtain ⟨s₁, reply⟩ := r
    rcases hharmless with hplain | ⟨hs₁, hsame⟩
    · -- a plain reply is not what has been queued
      have hclients : s₁.clients i = offerAll (beginCommand s i line).clients
          (commandTargets s.pubsub name args) (publishFrame args) i := congrFun hran.clients i
      have hq₁ : (s₁.clients i).QueueOk := by
        rw [hclients]
        exact queueOk_offerAll hq _ _ i
      have hown := pending_offerAll hq (commandTargets s.pubsub name args) (publishFrame args) i
      rw [← hclients, hself] at hown
      obtain ⟨c, hsend, hc⟩ := sendReply_extends hq₁ reply
      rw [hsend, setClient_clients, Function.update_self] at herr
      exact absurd herr (not_error_of_plain hplain (head?_publishFrame args) hown hc)
    · have hclients : s₁.clients i = (s.clients i).parse line := by
        rw [← hself]
        exact congrFun (congrArg KsServer.clients hs₁) i
      have hq₁ : (s₁.clients i).QueueOk := by
        rw [hclients, ← hself]
        exact hq i
      obtain ⟨c, hsend, hc, -⟩ := sendReply_extends hq₁ reply
      rw [hclients] at hc
      rw [hsend, show s₁ = { beginCommand s i line with store := s₁.store } from hs₁]
      exact unaffected_setClient (s := s) hsame hc

/-- **An error reply has no effect**, in every state of the server, for every
line and with any allocation refused: what readers of the store see at the time
of the request and later, the registry and the other clients are as before. -/
theorem KsServer.Reached.errors_harmless (h : s.Reached) {m : Mem} {rest : List UInt8}
    (herr : ((handleCommand (s.withInput i m) i line env).1.clients i).pending =
      (s.clients i).pending ++ (ascii "-ERR" ++ rest)) :
    Unaffected (s.withInput i m) i line env (handleCommand (s.withInput i m) i line env).1 := by
  have hpending : ((s.withInput i m).clients i).pending = (s.clients i).pending := by
    rw [withInput_clients]
    rfl
  rw [← hpending] at herr
  exact handleCommand_harmless (h.ok.withInput m) herr

end

/-- A line with an expiry that is not positive. -/
def expiredLine : Mem := blank.write 0 (ascii "SETEX k 0 v\n")

theorem errors_harmless_acceptedServer :
    Unaffected (acceptedServer.withInput firstSlot expiredLine) firstSlot 0 (idle.env 0)
      (handleCommand (acceptedServer.withInput firstSlot expiredLine) firstSlot 0 (idle.env 0)).1 := by
  have hparsed :
      parsedCommand ((acceptedServer.withInput firstSlot expiredLine).clients firstSlot).input 0 =
        some (⟨ascii "SETEX", by decide⟩, [⟨ascii "k", by decide⟩, ⟨ascii "0", by decide⟩,
          ⟨ascii "v", by decide⟩]) := by
    rw [withInput_clients]
    exact parsedCommand_eq_some (strAt_blank (by decide) 0) (by decide)
  have herr : ((handleCommand (acceptedServer.withInput firstSlot expiredLine) firstSlot 0
      (idle.env 0)).1.clients firstSlot).pending = (acceptedServer.clients firstSlot).pending ++
        (ascii "-ERR" ++ ascii " invalid expire time\r\n") := by
    rw [handleCommand_eq, hparsed]
    decide
  exact KsServer.Reached.errors_harmless reachable_acceptedServer.top herr

end Kessel
