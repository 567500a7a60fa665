import Kessel.Client.Invariant
import Kessel.Protocol.Parse
import Kessel.Pubsub.Invariant
import Kessel.Server

/-!
# Kessel.Server.Deliver

Delivery of a published message.

`KsClient.offer` is what happens to one client that a message frame is offered
to, `slotOf` the slot that `deliver_pubsub_message` finds for an id.
`publishLoop_deliver` puts them together: every slot that is found for a
subscriber is offered the frame once, nothing else changes, and the count is
that of the clients that took it.
-/

namespace Kessel

open CStr (ascii)

/-! ## the message frame -/

/-- The frame of a published message. -/
def messageFrame (channel message : List UInt8) : List UInt8 :=
  arrayHeader 3 ++ bulkFrame (ascii "message") ++ bulkFrame channel ++ bulkFrame message

/-- The length of a request has at most five digits. -/
theorem length_decimal_request {n : Nat} (h : n ≤ ksMaxRequest) : (decimal n).length ≤ 5 :=
  length_decimal_le (by decide) (by rw [ksMaxRequest] at h; omega)

/-- The length of a message frame. -/
theorem length_messageFrame (channel message : List UInt8) :
    (messageFrame channel message).length =
      (decimal channel.length).length + channel.length +
        ((decimal message.length).length + message.length) + 27 := by
  have hheader : (arrayHeader 3).length = 4 := by decide
  have hkind : (bulkFrame (ascii "message")).length = 13 := by decide
  simp only [messageFrame, List.length_append, hheader, hkind, length_bulkFrame]
  omega

/-- A message of one request makes a frame of at most 65573 bytes. -/
theorem length_messageFrame_le {channel message : List UInt8}
    (h : channel.length + message.length ≤ ksMaxRequest) :
    (messageFrame channel message).length ≤ ksMaxRequest + 37 := by
  have hc := length_decimal_request (show channel.length ≤ ksMaxRequest by omega)
  have hm := length_decimal_request (show message.length ≤ ksMaxRequest by omega)
  rw [length_messageFrame]
  omega

/-- A message frame that fits the buffer is written. -/
theorem formatPubsubMessage_formatted (m : Mem) {channel message : List UInt8} {cap : Nat}
    (h : (messageFrame channel message).length < cap) :
    Formatted m 0 (messageFrame channel message) (formatPubsubMessage m cap channel message) := by
  have hheader : (arrayHeader 3).length = 4 := by decide
  have hkind : (bulkFrame (ascii "message")).length = 13 := by decide
  have hthree : (decimal 3).length = 1 := by decide
  have hseven : (decimal (ascii "message").length).length = 1 := by decide
  have hmessage : (ascii "message").length = 7 := by decide
  rw [length_messageFrame] at h
  unfold formatPubsubMessage
  -- the four parts, each behind the one before it
  have f₁ := ksFmtArrayHeader_formatted m 0 3 (show (decimal 3).length + 3 < cap by omega)
  generalize ksFmtArrayHeader m 0 cap 3 = a₁ at *
  obtain ⟨m₁, n₁⟩ := a₁
  have hn₁ : n₁ = 4 := f₁.length.trans hheader
  have hfits₂ : (decimal (ascii "message").length).length + (ascii "message").length + 5 <
      cap - n₁ := by omega
  have f₂ := ksFmtBulk_formatted m₁ n₁ (ascii "message") hfits₂
  simp only
  rw [if_neg (by omega)]
  generalize ksFmtBulk m₁ n₁ (cap - n₁) (ascii "message") = a₂ at *
  obtain ⟨m₂, n₂⟩ := a₂
  have hn₂ : n₂ = 13 := f₂.length.trans hkind
  simp only
  rw [if_neg (by omega)]
  have hfits₃ : (decimal channel.length).length + channel.length + 5 < cap - (n₁ + n₂) := by omega
  have f₃ := ksFmtBulk_formatted m₂ (n₁ + n₂) channel hfits₃
  generalize ksFmtBulk m₂ (n₁ + n₂) (cap - (n₁ + n₂)) channel = a₃ at *
  obtain ⟨m₃, n₃⟩ := a₃
  have hn₃ : n₃ = (decimal channel.length).length + channel.length + 5 :=
    f₃.length.trans (length_bulkFrame _)
  simp only
  rw [if_neg (by omega)]
  have hfits₄ : (decimal message.length).length + message.length + 5 <
      cap - (n₁ + n₂ + n₃) := by omega
  have f₄ := ksFmtBulk_formatted m₃ (n₁ + n₂ + n₃) message hfits₄
  generalize ksFmtBulk m₃ (n₁ + n₂ + n₃) (cap - (n₁ + n₂ + n₃)) message = a₄ at *
  obtain ⟨m₄, n₄⟩ := a₄
  have hn₄ : n₄ = (decimal message.length).length + message.length + 5 :=
    f₄.length.trans (length_bulkFrame _)
  rw [if_neg (by omega)]
  have hl₁ : 0 + (arrayHeader 3).length = n₁ := by omega
  have f₁₂ := f₁.append (by rw [hl₁]; exact f₂)
  have hl₂ : 0 + (arrayHeader 3 ++ bulkFrame (ascii "message")).length = n₁ + n₂ := by
    rw [← f₁₂.length]; omega
  have f₁₃ := f₁₂.append (by rw [hl₂]; exact f₃)
  have hl₃ : 0 + (arrayHeader 3 ++ bulkFrame (ascii "message") ++ bulkFrame channel).length =
      n₁ + n₂ + n₃ := by
    rw [← f₁₃.length]; omega
  exact f₁₃.append (by rw [hl₃]; exact f₄)

/-! ## one client -/

/-- Does the client take the frame? -/
def KsClient.takes (f : List UInt8) (c : KsClient) : Bool :=
  !c.dropConnection && decide (c.pendingLen + f.length ≤ ksOutputCap)

/-- A client that a message frame is offered to: it gets the whole frame, or is
marked for disconnection. -/
def KsClient.offer (f : List UInt8) (c : KsClient) : KsClient :=
  if c.dropConnection then c
  else if c.pendingLen + f.length ≤ ksOutputCap then (clientQueue c f).1
  else { (clientQueue c f).1 with dropConnection := true }.log .dropped

/-- What happens to a connection while another one is served: it stays the same,
or frames are added to its queue, or it is dropped. -/
structure KsClient.Offered (c c' : KsClient) : Prop where
  used : c'.used = c.used
  fd : c'.fd = c.fd
  id : c'.id = c.id
  closeAfterWrite : c'.closeAfterWrite = c.closeAfterWrite
  input : c'.input = c.input
  inputLen : c'.inputLen = c.inputLen
  dead : c.dropConnection = true → c' = c
  pending : c.pending <+: c'.pending
  history : ∃ events, c'.history = c.history ++ events ∧
    ∀ e ∈ events, (∃ data, e = .queued data) ∨ e = .dropped

namespace KsClient

variable {c c' c'' : KsClient} {f : List UInt8}

/-- Nothing is offered. -/
theorem Offered.refl (c : KsClient) : c.Offered c :=
  ⟨rfl, rfl, rfl, rfl, rfl, rfl, fun _ => rfl, List.prefix_rfl, [], by simp, by simp⟩

/-- One offer after another. -/
theorem Offered.trans (h : c.Offered c') (h' : c'.Offered c'') : c.Offered c'' where
  used := h'.used.trans h.used
  fd := h'.fd.trans h.fd
  id := h'.id.trans h.id
  closeAfterWrite := h'.closeAfterWrite.trans h.closeAfterWrite
  input := h'.input.trans h.input
  inputLen := h'.inputLen.trans h.inputLen
  dead := by
    intro hd
    have heq := h.dead hd
    rw [heq] at h'
    exact h'.dead hd
  pending := h.pending.trans h'.pending
  history := by
    obtain ⟨es, hhist, hes⟩ := h.history
    obtain ⟨es', hhist', hes'⟩ := h'.history
    refine ⟨es ++ es', by rw [hhist', hhist, List.append_assoc], ?_⟩
    intro e he
    exact (List.mem_append.mp he).elim (hes e) (hes' e)

/-- An offer only adds to what is pending. -/
theorem Offered.pendingLen_le (h : c.Offered c') : c.pendingLen ≤ c'.pendingLen := by
  have := h.pending.length_le
  simpa using this

/-- A client that takes the frame. -/
theorem offer_takes (h : c.QueueOk) (ht : c.takes f = true) :
    (c.offer f).QueueOk ∧ c.SameConn (c.offer f) ∧ (c.offer f).pending = c.pending ++ f ∧
      (c.offer f).history = c.history ++ [.queued f] := by
  simp only [takes, Bool.and_eq_true, Bool.not_eq_true', decide_eq_true_eq] at ht
  obtain ⟨c', hq, hsame, hcase⟩ := clientQueue_spec h f
  rcases hcase with ⟨-, heq, hpending, hhist⟩ | ⟨hfull, -⟩
  · rw [offer, if_neg (by simp [ht.1]), if_pos ht.2, heq]
    exact ⟨hq, hsame, hpending, hhist⟩
  · omega

/-- A client without room is marked for disconnection and keeps its queue. -/
theorem offer_full (h : c.QueueOk) (hd : c.dropConnection = false)
    (hfull : ksOutputCap < c.pendingLen + f.length) :
    (c.offer f).QueueOk ∧ c.SameConn { c.offer f with dropConnection := false } ∧
      (c.offer f).dropConnection = true ∧ (c.offer f).pending = c.pending ∧
      (c.offer f).history = c.history ++ [.dropped] := by
  obtain ⟨c', hq, hsame, hcase⟩ := clientQueue_spec h f
  rcases hcase with ⟨hfits, -⟩ | ⟨-, heq, hpending, hhist⟩
  · omega
  · rw [offer, if_neg (by simp [hd]), if_neg (by omega), heq]
    exact ⟨⟨hq.offset_le, hq.len_le⟩, ⟨hsame.used, hsame.fd, hsame.id, hsame.closeAfterWrite, hd.symm,
      hsame.input, hsame.inputLen⟩, rfl, hpending, by simp [KsClient.log, hhist]⟩

/-- A client that is dropped is offered nothing. -/
theorem offer_dead (hd : c.dropConnection = true) : c.offer f = c := by
  rw [offer, if_pos hd]

/-- What an offer can do. -/
theorem offer_cases (c : KsClient) (f : List UInt8) :
    c.dropConnection = true ∨ c.takes f = true ∨
      (c.dropConnection = false ∧ ksOutputCap < c.pendingLen + f.length) := by
  by_cases hfits : c.pendingLen + f.length ≤ ksOutputCap
  · cases hd : c.dropConnection with
    | true => exact .inl rfl
    | false => exact .inr (.inl (by simp [takes, hd, hfits]))
  · cases hd : c.dropConnection with
    | true => exact .inl rfl
    | false => exact .inr (.inr ⟨rfl, by omega⟩)

/-- **What one offer does** to a client. -/
theorem offered_offer (h : c.QueueOk) (f : List UInt8) : c.Offered (c.offer f) := by
  rcases offer_cases c f with hd | ht | ⟨hd, hfull⟩
  · rw [offer_dead hd]
    exact .refl c
  · obtain ⟨-, hsame, hpending, hhist⟩ := offer_takes h ht
    simp only [takes, Bool.and_eq_true, Bool.not_eq_true'] at ht
    exact ⟨hsame.used, hsame.fd, hsame.id, hsame.closeAfterWrite, hsame.input, hsame.inputLen,
      by simp [ht.1], by rw [hpending]; exact List.prefix_append _ _, _, hhist, by simp⟩
  · obtain ⟨-, hsame, -, hpending, hhist⟩ := offer_full h hd hfull
    exact ⟨hsame.used, hsame.fd, hsame.id, hsame.closeAfterWrite, hsame.input, hsame.inputLen,
      by simp [hd], by rw [hpending], _, hhist, by simp⟩

/-- An offer keeps the queue in order. -/
theorem queueOk_offer (h : c.QueueOk) (f : List UInt8) : (c.offer f).QueueOk := by
  rcases offer_cases c f with hd | ht | ⟨hd, hfull⟩
  · rw [offer_dead hd]
    exact h
  · exact (offer_takes h ht).1
  · exact (offer_full h hd hfull).1

/-- **A frame that does not fit means output above the high-water mark**, so a
dropped connection is dead. -/
theorem Ok.offer (h : c.Ok) (hf : f.length ≤ ksMaxRequest + 37) : (c.offer f).Ok := by
  rcases offer_cases c f with hd | ht | ⟨hd, hfull⟩
  · rw [offer_dead hd]
    exact h
  · obtain ⟨hq, hsame, hpending, hhist⟩ := offer_takes h.toQueueOk ht
    simp only [takes, Bool.and_eq_true, Bool.not_eq_true'] at ht
    exact h.step hq (by rw [hsame.inputLen]; exact h.inputLen_le) hsame.dropConnection hhist
      (by simp) (.inr ht.1) (by simp [ht.1])
  · obtain ⟨hq, hsame, hdrop, hpending, hhist⟩ := offer_full h.toQueueOk hd hfull
    have hin : (c.offer f).inputLen = c.inputLen := hsame.inputLen
    have hlen : (c.offer f).pendingLen = c.pendingLen := by
      simpa using congrArg List.length hpending
    exact
      { toQueueOk := hq
        inputLen_le := by rw [hin]; exact h.inputLen_le
        dead := by
          intro _
          rw [hlen]
          simp only [ksOutputHighWater, ksOutputCap, ksMaxRequest] at hfull hf ⊢
          omega
        dropped := by simp [hdrop, hhist]
        quiet := by
          rw [hhist]
          exact h.quiet.snoc (.inr (h.not_dropped hd)) }

end KsClient

/-! ## the slots -/

section

variable {n : Nat}

/-- The slot that `deliver_pubsub_message` finds for an id. -/
def slotOf (clients : Fin n → KsClient) (id : UInt64) : Option (Fin n) :=
  (List.finRange n).find? fun i => (clients i).used && (clients i).id = id

/-- The slot of an id is in use, and has the id. -/
theorem slotOf_eq_some {clients : Fin n → KsClient} {id : UInt64} {i : Fin n}
    (h : slotOf clients id = some i) : (clients i).used = true ∧ (clients i).id = id := by
  simpa using List.find?_some h

/-- An id without a slot belongs to nobody. -/
theorem slotOf_eq_none {clients : Fin n → KsClient} {id : UInt64} :
    slotOf clients id = none ↔ ∀ i, (clients i).used = true → (clients i).id ≠ id := by
  simp [slotOf]

/-- Only ids matter to the search. -/
theorem slotOf_congr {clients clients' : Fin n → KsClient}
    (h : ∀ i, (clients' i).used = (clients i).used ∧ (clients' i).id = (clients i).id) :
    slotOf clients' = slotOf clients := by
  funext id
  rw [slotOf, slotOf]
  congr 1
  funext i
  rw [(h i).1, (h i).2]

/-- Delivery offers the frame to the client of the slot. -/
theorem deliverPubsubMessage_eq {clients : Fin n → KsClient} (hq : ∀ i, (clients i).QueueOk)
    (id : UInt64) {channel : CStr} {message : List UInt8}
    (h : channel.length + message.length ≤ ksMaxRequest) :
    deliverPubsubMessage clients id channel message =
      match slotOf clients id with
      | none => (clients, false)
      | some i =>
        (Function.update clients i ((clients i).offer (messageFrame channel.bytes message)),
          (clients i).takes (messageFrame channel.bytes message)) := by
  have hframe : (messageFrame channel.bytes message).length < ksMaxRequest + 128 :=
    lt_of_le_of_lt (length_messageFrame_le h) (by omega)
  have hformat := formatPubsubMessage_formatted blank hframe
  have hpos : 0 < (messageFrame channel.bytes message).length := by
    rw [length_messageFrame]
    omega
  unfold deliverPubsubMessage
  rw [← slotOf]
  generalize messageFrame channel.bytes message = f at *
  generalize formatPubsubMessage blank (ksMaxRequest + 128) channel.bytes message = r at *
  obtain ⟨response, length⟩ := r
  have hlength : length = f.length := hformat.length
  have hbytes : response.read 0 f.length = f := hformat.bytes
  subst hlength
  cases slotOf clients id with
  | none => rfl
  | some i =>
    simp only [hbytes, if_neg (by omega : ¬ f.length = 0)]
    by_cases hd : (clients i).dropConnection = true
    · simp [KsClient.offer_dead hd, KsClient.takes, hd]
    · rw [Bool.not_eq_true] at hd
      obtain ⟨c', -, -, hcase⟩ := clientQueue_spec (hq i) f
      rcases hcase with ⟨hfits, heq, -⟩ | ⟨hfull, heq, -⟩
      · simp [KsClient.offer, KsClient.takes, hd, hfits, heq]
      · simp [KsClient.offer, KsClient.takes, hd, hfull.not_ge, heq]

/-- Is the client of the slot found for one of the ids? -/
def foundFor (clients : Fin n → KsClient) (ids : List UInt64) (j : Fin n) : Prop :=
  (clients j).id ∈ ids ∧ slotOf clients (clients j).id = some j

instance (clients : Fin n → KsClient) (ids : List UInt64) : DecidablePred (foundFor clients ids) :=
  fun _ => inferInstanceAs (Decidable (_ ∧ _))

/-- Every client that is found for one of the ids is offered the frame once. -/
def offerAll (clients : Fin n → KsClient) (ids : List UInt64) (f : List UInt8) : Fin n → KsClient :=
  fun j => if foundFor clients ids j then (clients j).offer f else clients j

theorem offerAll_nil (clients : Fin n → KsClient) (f : List UInt8) : offerAll clients [] f = clients := by
  funext j
  simp [offerAll, foundFor]

/-- What all offers do to a client. -/
theorem offered_offerAll {clients : Fin n → KsClient} (hq : ∀ i, (clients i).QueueOk)
    (ids : List UInt64) (f : List UInt8) (j : Fin n) :
    (clients j).Offered (offerAll clients ids f j) := by
  rw [offerAll]
  split
  · exact KsClient.offered_offer (hq j) f
  · exact .refl _

/-- A message frame leaves every client in order. -/
theorem ok_offerAll {clients : Fin n → KsClient} (hok : ∀ i, (clients i).Ok) (ids : List UInt64)
    {f : List UInt8} (hf : f.length ≤ ksMaxRequest + 37) (j : Fin n) :
    (offerAll clients ids f j).Ok := by
  rw [offerAll]
  split
  · exact (hok j).offer hf
  · exact hok j

/-- Does the client that is found for the id take the frame? -/
def delivered (clients : Fin n → KsClient) (f : List UInt8) (id : UInt64) : Bool :=
  (slotOf clients id).any fun i => (clients i).takes f

/-- Another id, for somebody else. -/
theorem foundFor_cons {clients : Fin n → KsClient} {id : UInt64} {ids : List UInt64} {j : Fin n}
    (h : slotOf clients id ≠ some j) : foundFor clients (id :: ids) j ↔ foundFor clients ids j := by
  simp only [foundFor, List.mem_cons]
  constructor
  · rintro ⟨heq | hmem, hfound⟩
    · exact absurd (heq ▸ hfound) h
    · exact ⟨hmem, hfound⟩
  · exact fun hfound => ⟨.inr hfound.1, hfound.2⟩

/-- Only ids matter to who is found. -/
theorem foundFor_congr {clients clients' : Fin n → KsClient}
    (h : ∀ i, (clients' i).used = (clients i).used ∧ (clients' i).id = (clients i).id)
    (ids : List UInt64) (j : Fin n) : foundFor clients' ids j ↔ foundFor clients ids j := by
  simp only [foundFor, (h j).2, slotOf_congr h]

/-! ### one client is offered the frame -/

/-- The clients when the one in slot `i` has been offered the frame. -/
def offerOne (clients : Fin n → KsClient) (i : Fin n) (f : List UInt8) : Fin n → KsClient :=
  Function.update clients i ((clients i).offer f)

/-- The client that is offered the frame. -/
theorem offerOne_self (clients : Fin n → KsClient) (i : Fin n) (f : List UInt8) :
    offerOne clients i f i = (clients i).offer f := Function.update_self ..

/-- The other clients. -/
theorem offerOne_of_ne {clients : Fin n → KsClient} {i j : Fin n} (h : j ≠ i) (f : List UInt8) :
    offerOne clients i f j = clients j := Function.update_of_ne h ..

/-- What the offer to one client does to all. -/
theorem offered_offerOne {clients : Fin n → KsClient} (hq : ∀ i, (clients i).QueueOk) (i : Fin n)
    (f : List UInt8) (j : Fin n) : (clients j).Offered (offerOne clients i f j) := by
  by_cases hj : j = i
  · rw [hj, offerOne_self]
    exact KsClient.offered_offer (hq i) f
  · rw [offerOne_of_ne hj]
    exact .refl _

/-- The offer to one client keeps all queues in order. -/
theorem queueOk_offerOne {clients : Fin n → KsClient} (hq : ∀ i, (clients i).QueueOk) (i : Fin n)
    (f : List UInt8) (j : Fin n) : (offerOne clients i f j).QueueOk := by
  by_cases hj : j = i
  · rw [hj, offerOne_self]
    exact KsClient.queueOk_offer (hq i) f
  · rw [offerOne_of_ne hj]
    exact hq j

/-- An id of another connection is delivered to as before. -/
theorem delivered_offerOne {clients : Fin n → KsClient} (hq : ∀ i, (clients i).QueueOk) {i : Fin n}
    (f : List UInt8) {id : UInt64} (hid : id ≠ (clients i).id) :
    delivered (offerOne clients i f) f id = delivered clients f id := by
  have hslots := slotOf_congr fun j =>
    ⟨(offered_offerOne hq i f j).used, (offered_offerOne hq i f j).id⟩
  rw [delivered, delivered, hslots]
  cases hslot : slotOf clients id with
  | none => rfl
  | some k =>
    have hk : k ≠ i := by
      rintro rfl
      exact hid (slotOf_eq_some hslot).2.symm
    simp [offerOne_of_ne hk]

/-- Offering the frame to the first slot, then to the slots of the other ids. -/
theorem offerAll_cons {clients : Fin n → KsClient} (hq : ∀ i, (clients i).QueueOk) (f : List UInt8)
    {id : UInt64} {ids : List UInt64} (hid : id ∉ ids) {i : Fin n} (hslot : slotOf clients id = some i) :
    offerAll (offerOne clients i f) ids f = offerAll clients (id :: ids) f := by
  have hiid := (slotOf_eq_some hslot).2
  have hkeep := foundFor_congr (fun j =>
    ⟨(offered_offerOne hq i f j).used, (offered_offerOne hq i f j).id⟩) ids
  funext j
  simp only [offerAll, hkeep]
  by_cases hj : j = i
  · subst hj
    have hnot : ¬ foundFor clients ids j := fun hfound => hid (hiid ▸ hfound.1)
    have hfound : foundFor clients (id :: ids) j := by simp [foundFor, hiid, hslot]
    rw [if_neg hnot, if_pos hfound, offerOne_self]
  · have hne : slotOf clients id ≠ some j := by
      rw [hslot]
      exact fun heq => hj (Option.some.inj heq).symm
    simp only [foundFor_cons hne, offerOne_of_ne hj]

/-- **Delivery to a list of ids**: every slot that is found for one of them is
offered the frame once, the others stay as they are, and the frames taken are
counted. -/
theorem publishLoop_deliver {clients : Fin n → KsClient} (hq : ∀ i, (clients i).QueueOk)
    {channel : CStr} {message : List UInt8} (h : channel.length + message.length ≤ ksMaxRequest)
    {ids : List UInt64} (hnodup : ids.Nodup) (recipients : UInt64) :
    publishLoop deliverPubsubMessage channel message ids clients recipients =
      (offerAll clients ids (messageFrame channel.bytes message),
      recipients +
        UInt64.ofNat (ids.countP (delivered clients (messageFrame channel.bytes message)))) := by
  induction ids generalizing clients recipients with
  | nil => simp [publishLoop, offerAll_nil]
  | cons id ids ih =>
    obtain ⟨hid, hnodup⟩ := List.nodup_cons.mp hnodup
    rw [publishLoop, deliverPubsubMessage_eq hq id h]
    generalize messageFrame channel.bytes message = f at *
    cases hslot : slotOf clients id with
    | none =>
      simp only
      rw [ih hq hnodup]
      refine Prod.ext ?_ ?_
      · funext j
        simp only [offerAll, foundFor_cons (show slotOf clients id ≠ some j by simp [hslot])]
      · simp [delivered, hslot]
    | some i =>
      simp only
      rw [← offerOne, ih (queueOk_offerOne hq i f) hnodup, offerAll_cons hq f hid hslot]
      refine Prod.ext rfl ?_
      have hcount : ids.countP (delivered (offerOne clients i f) f) =
          ids.countP (delivered clients f) := by
        refine List.countP_congr fun id' hid' => ?_
        rw [delivered_offerOne hq f]
        rintro rfl
        exact hid ((slotOf_eq_some hslot).2 ▸ hid')
      rw [hcount, List.countP_cons]
      cases htakes : (clients i).takes f <;>
        simp [delivered, hslot, htakes, UInt64.add_comm, UInt64.add_assoc]

end

end Kessel
