import Kessel.Pubsub.Invariant
import Kessel.Refinement

/-!
# Kessel.Pubsub.Refine

The registry is a finite set of pairs of a channel and a client.

`KsPubsub.pairs` reads the two levels of lists as one set.  Its cardinality is
what `subscription_count` counts, and the number of its channels is what
`channel_count` counts; `KsPubsub.Represents` says so, and `ksPubsubStep_simulates`
keeps it.

* `ksPubsub_refines_pairs` — every run of calls answers what the set answers.
-/

namespace Kessel

open Refinement

/-! ## the set of pairs -/

/-- The subscriptions of a list of channels. -/
def pairsOf (cs : List KsPubsubChannel) : List (CStr × UInt64) :=
  cs.flatMap fun c => c.subscribers.map fun id => (c.name, id)

/-- The subscriptions of a registry. -/
def KsPubsub.pairs (pubsub : KsPubsub) : Finset (CStr × UInt64) := (pairsOf pubsub.channels).toFinset

section

variable {cs : List KsPubsubChannel}

@[simp] theorem pairsOf_nil : pairsOf [] = [] := rfl

@[simp] theorem pairsOf_cons (c : KsPubsubChannel) (cs : List KsPubsubChannel) :
    pairsOf (c :: cs) = (c.subscribers.map fun id => (c.name, id)) ++ pairsOf cs :=
  List.flatMap_cons ..

/-- There are as many pairs as nodes. -/
theorem length_pairsOf (cs : List KsPubsubChannel) :
    (pairsOf cs).length = (cs.map fun c => c.subscribers.length).sum := by
  simp [pairsOf, List.length_flatMap]

/-- A channel of the list is found by its name. -/
theorem WfChannels.findChannel_mem (h : WfChannels cs) {c : KsPubsubChannel} (hmem : c ∈ cs) :
    findChannel cs c.name = some c := by
  obtain ⟨c', hfind⟩ : ∃ c', findChannel cs c.name = some c' := by
    rw [← Option.isSome_iff_exists, ← Option.ne_none_iff_isSome, Ne, findChannel_eq_none, not_not]
    exact List.mem_map_of_mem hmem
  obtain ⟨hmem', hname⟩ := findChannel_eq_some hfind
  rw [hfind, List.inj_on_of_nodup_map h.names hmem' hmem hname]

/-- A pair stands for a subscriber of a channel. -/
theorem WfChannels.mem_pairsOf (h : WfChannels cs) {channel : CStr} {id : UInt64} :
    (channel, id) ∈ pairsOf cs ↔ id ∈ (findChannel cs channel).elim [] KsPubsubChannel.subscribers := by
  simp only [pairsOf, List.mem_flatMap, List.mem_map, Prod.mk.injEq]
  constructor
  · rintro ⟨c, hmem, id', hid, rfl, rfl⟩
    rw [h.findChannel_mem hmem]
    exact hid
  · intro hid
    cases hfind : findChannel cs channel with
    | none => simp [hfind] at hid
    | some c =>
      obtain ⟨hmem, hname⟩ := findChannel_eq_some hfind
      rw [hfind] at hid
      exact ⟨c, hmem, id, hid, hname, rfl⟩

/-- No pair stands twice. -/
theorem WfChannels.nodup_pairsOf (h : WfChannels cs) : (pairsOf cs).Nodup := by
  rw [pairsOf, List.nodup_flatMap]
  refine ⟨fun c hc => (h.nodup c hc).map fun _ _ heq => (Prod.mk.inj heq).2, ?_⟩
  have hnames := h.names
  rw [List.Nodup, List.pairwise_map] at hnames
  refine hnames.imp fun hne => List.disjoint_left.mpr fun p hp hp' => ?_
  obtain ⟨_, -, rfl⟩ := List.mem_map.mp hp
  obtain ⟨_, -, heq⟩ := List.mem_map.mp hp'
  exact hne (Prod.mk.inj heq).1.symm

/-- Every channel has a subscriber, so the channels of the pairs are all of them. -/
theorem WfChannels.card_channels (h : WfChannels cs) :
    ((pairsOf cs).toFinset.image Prod.fst).card = cs.length := by
  have himage : (pairsOf cs).toFinset.image Prod.fst = (cs.map KsPubsubChannel.name).toFinset := by
    ext channel
    simp only [Finset.mem_image, List.mem_toFinset, pairsOf, List.mem_flatMap, List.mem_map,
      Prod.exists, Prod.mk.injEq]
    constructor
    · rintro ⟨_, _, ⟨c, hmem, _, -, rfl, rfl⟩, rfl⟩
      exact ⟨c, hmem, rfl⟩
    · rintro ⟨c, hmem, rfl⟩
      obtain ⟨id, hid⟩ := List.exists_mem_of_ne_nil _ (h.nonempty c hmem)
      exact ⟨c.name, id, ⟨c, hmem, id, hid, rfl, rfl⟩, rfl⟩
  rw [himage, List.toFinset_card_of_nodup h.names, List.length_map]

end

namespace KsPubsub

variable {pubsub : KsPubsub}

/-- The pairs of a registry are its subscriptions. -/
theorem Wf.mem_pairs (h : pubsub.Wf) {channel : CStr} {id : UInt64} :
    (channel, id) ∈ pubsub.pairs ↔ id ∈ pubsub.subscribersOf channel := by
  rw [pairs, List.mem_toFinset]
  exact WfChannels.mem_pairsOf h

/-- They are as many as its nodes. -/
theorem Wf.card_pairs (h : pubsub.Wf) : pubsub.pairs.card = (pairsOf pubsub.channels).length :=
  List.toFinset_card_of_nodup (WfChannels.nodup_pairsOf h)

/-- The channels of the pairs are those of the registry. -/
theorem Wf.card_channels (h : pubsub.Wf) :
    (pubsub.pairs.image Prod.fst).card = pubsub.channels.length :=
  WfChannels.card_channels h

/-- A channel has a pair when it has a subscriber. -/
theorem Wf.mem_channels (h : pubsub.Wf) {channel : CStr} :
    channel ∈ pubsub.pairs.image Prod.fst ↔ pubsub.subscribersOf channel ≠ [] := by
  simp only [Finset.mem_image, Prod.exists, exists_and_right, exists_eq_right, h.mem_pairs]
  exact ⟨fun ⟨_, hid⟩ => List.ne_nil_of_mem hid, List.exists_mem_of_ne_nil _⟩

end KsPubsub

/-! ## the specification -/

/-- A call of the registry; a subscription says which allocations succeed. -/
inductive KsPubsubOp where
  | subscribe (channel : CStr) (id : UInt64) (heap : KsHeap)
  | unsubscribe (channel : CStr) (id : UInt64)
  | removeClient (id : UInt64)
  | channelCount
  | subscriptionCount

inductive KsPubsubAnswer where
  | status (s : KsPubsubStatus)
  | count (n : Nat)
  deriving DecidableEq, Repr

/-- One call. -/
def ksPubsubStep (pubsub : KsPubsub) : KsPubsubOp → Option (KsPubsub × KsPubsubAnswer)
  | .subscribe channel id heap =>
    let (pubsub, status) := ksPubsubSubscribe pubsub channel id heap
    some (pubsub, .status status)
  | .unsubscribe channel id =>
    let (pubsub, status) := ksPubsubUnsubscribe pubsub channel id
    some (pubsub, .status status)
  | .removeClient id =>
    let (pubsub, removed) := ksPubsubRemoveClient pubsub id
    some (pubsub, .count removed.toNat)
  | .channelCount => some (pubsub, .count (ksPubsubChannelCount pubsub).toNat)
  | .subscriptionCount => some (pubsub, .count (ksPubsubSubscriptionCount pubsub).toNat)

/-- An allocation that a new subscription needs is refused, or there is no
address left for it. -/
def Refused (m : Finset (CStr × UInt64)) (channel : CStr) (heap : KsHeap) : Prop :=
  heap .subscriberNode = false ∨
    (channel ∉ m.image Prod.fst ∧ (heap .channelName = false ∨ heap .channelNode = false)) ∨
    Word.sizeMax < (m.card + 1) * ksPubsubSubscriberSize

/-- What a finite set of pairs answers to each call, and what it becomes. -/
inductive KsPubsubSpec :
    Finset (CStr × UInt64) → KsPubsubOp → KsPubsubAnswer → Finset (CStr × UInt64) → Prop where
  | subscribed {m channel id heap} : channel.bytes ≠ [] → (channel, id) ∉ m →
      KsPubsubSpec m (.subscribe channel id heap) (.status .ok) (insert (channel, id) m)
  | already {m channel id heap} : channel.bytes ≠ [] → (channel, id) ∈ m →
      KsPubsubSpec m (.subscribe channel id heap) (.status .alreadySubscribed) m
  | noMemory {m channel id heap} : channel.bytes ≠ [] → (channel, id) ∉ m → Refused m channel heap →
      KsPubsubSpec m (.subscribe channel id heap) (.status .noMemory) m
  | noName {m channel id heap} : channel.bytes = [] →
      KsPubsubSpec m (.subscribe channel id heap) (.status .invalidArgument) m
  | unsubscribed {m channel id} : (channel, id) ∈ m →
      KsPubsubSpec m (.unsubscribe channel id) (.status .ok) (m.erase (channel, id))
  | absent {m channel id} : channel.bytes ≠ [] → (channel, id) ∉ m →
      KsPubsubSpec m (.unsubscribe channel id) (.status .notSubscribed) m
  | absentNoName {m channel id} : channel.bytes = [] → (channel, id) ∉ m →
      KsPubsubSpec m (.unsubscribe channel id) (.status .invalidArgument) m
  | removeClient {m id} :
      KsPubsubSpec m (.removeClient id) (.count (m.filter fun p => p.2 = id).card)
        (m.filter fun p => p.2 ≠ id)
  | channelCount {m} : KsPubsubSpec m .channelCount (.count (m.image Prod.fst).card) m
  | subscriptionCount {m} : KsPubsubSpec m .subscriptionCount (.count m.card) m

/-- The registry holds exactly the pairs of the set, and counts them. -/
structure KsPubsub.Represents (pubsub : KsPubsub) (m : Finset (CStr × UInt64)) : Prop where
  wf : pubsub.Wf
  pairs : pubsub.pairs = m
  subscriptionCount : pubsub.subscriptionCount.toNat = m.card
  channelCount : pubsub.channelCount.toNat = (m.image Prod.fst).card
  room : m.card * ksPubsubSubscriberSize ≤ Word.sizeMax

/-! ## what each operation answers -/

namespace KsPubsub

variable {pubsub : KsPubsub} {m : Finset (CStr × UInt64)}

/-- The set says who is subscribed. -/
theorem Represents.mem_iff (h : pubsub.Represents m) {channel : CStr} {id : UInt64} :
    (channel, id) ∈ m ↔ id ∈ pubsub.subscribersOf channel := by
  rw [← h.pairs, h.wf.mem_pairs]

/-- And which channels have a subscriber. -/
theorem Represents.mem_channels (h : pubsub.Represents m) {channel : CStr} :
    channel ∈ m.image Prod.fst ↔ pubsub.subscribersOf channel ≠ [] := by
  rw [← h.pairs, h.wf.mem_channels]

/-- The nodes of the registry are as many as its pairs. -/
theorem Represents.sum_subscribers (h : pubsub.Represents m) :
    (pubsub.channels.map fun c => c.subscribers.length).sum = m.card := by
  rw [← h.pairs, h.wf.card_pairs, length_pairsOf]

/-- A node is refused by the allocator, or there is no address for it. -/
theorem Represents.not_granted (h : pubsub.Represents m) {heap : KsHeap}
    (hrefused : subscriberGranted pubsub heap = false) :
    heap .subscriberNode = false ∨ Word.sizeMax < (m.card + 1) * ksPubsubSubscriberSize := by
  rw [subscriberGranted, h.sum_subscribers, Bool.and_eq_false_iff, decide_eq_false_iff_not,
    Nat.not_le] at hrefused
  exact hrefused

/-- A node that is granted has an address. -/
theorem Represents.granted (h : pubsub.Represents m) {heap : KsHeap}
    (hgranted : ¬ subscriberGranted pubsub heap = false) :
    (m.card + 1) * ksPubsubSubscriberSize ≤ Word.sizeMax := by
  rw [subscriberGranted, h.sum_subscribers, Bool.and_eq_false_iff, not_or, decide_eq_false_iff_not,
    not_not] at hgranted
  exact hgranted.2

/-- The answers of `ks_pubsub_subscribe`, and its counters. -/
theorem Wf.subscribe_answers (h : pubsub.Wf) {channel : CStr} (hne : channel.bytes ≠ [])
    (id : UInt64) (heap : KsHeap) :
    (id ∈ pubsub.subscribersOf channel ∧
        ksPubsubSubscribe pubsub channel id heap = (pubsub, .alreadySubscribed)) ∨
      (id ∉ pubsub.subscribersOf channel ∧
        ksPubsubSubscribe pubsub channel id heap = (pubsub, .noMemory) ∧
        (subscriberGranted pubsub heap = false ∨
          (pubsub.subscribersOf channel = [] ∧
            (heap .channelName = false ∨ heap .channelNode = false)))) ∨
      (¬ subscriberGranted pubsub heap = false ∧
        (ksPubsubSubscribe pubsub channel id heap).2 = .ok ∧
        (ksPubsubSubscribe pubsub channel id heap).1.subscriptionCount =
          pubsub.subscriptionCount + 1 ∧
        (ksPubsubSubscribe pubsub channel id heap).1.channelCount =
          pubsub.channelCount + if pubsub.subscribersOf channel = [] then 1 else 0) := by
  unfold ksPubsubSubscribe
  rw [if_neg hne]
  cases hfind : findChannel pubsub.channels channel with
  | some c =>
    have hsubs : pubsub.subscribersOf channel = c.subscribers := by simp [subscribersOf, hfind]
    have hnonempty : c.subscribers ≠ [] := h.nonempty c (findChannel_eq_some hfind).1
    rw [hsubs]
    dsimp only
    split
    · next hpresent => exact .inl ⟨hpresent, rfl⟩
    next habsent =>
    split
    · next hrefused => exact .inr (.inl ⟨habsent, rfl, .inl hrefused⟩)
    · next hgranted => exact .inr (.inr ⟨hgranted, rfl, rfl, by simp⟩)
  | none =>
    have hsubs : pubsub.subscribersOf channel = [] := by simp [subscribersOf, hfind]
    rw [hsubs]
    dsimp only
    split
    · next hrefused =>
      refine .inr (.inl ⟨List.not_mem_nil, rfl, ?_⟩)
      rcases hrefused with hname | hnode | hsubscriber
      · exact .inr ⟨rfl, .inl hname⟩
      · exact .inr ⟨rfl, .inr hnode⟩
      · exact .inl hsubscriber
    · next hgranted =>
      rw [not_or, not_or] at hgranted
      exact .inr (.inr ⟨hgranted.2.2, rfl, rfl, rfl⟩)

/-- The answers of `ks_pubsub_unsubscribe`, and its counters. -/
theorem unsubscribe_answers {channel : CStr} (hne : channel.bytes ≠ []) (id : UInt64) :
    (id ∉ pubsub.subscribersOf channel ∧
        ksPubsubUnsubscribe pubsub channel id = (pubsub, .notSubscribed)) ∨
      ((ksPubsubUnsubscribe pubsub channel id).2 = .ok ∧
        (ksPubsubUnsubscribe pubsub channel id).1.subscriptionCount =
          pubsub.subscriptionCount - 1 ∧
        (ksPubsubUnsubscribe pubsub channel id).1.channelCount =
          pubsub.channelCount - if (pubsub.subscribersOf channel).erase id = [] then 1 else 0) := by
  unfold ksPubsubUnsubscribe
  rw [if_neg hne]
  cases hfind : findChannel pubsub.channels channel with
  | none => exact .inl ⟨by simp [subscribersOf, hfind], rfl⟩
  | some c =>
    have hsubs : pubsub.subscribersOf channel = c.subscribers := by simp [subscribersOf, hfind]
    rw [hsubs]
    dsimp only
    split
    · next habsent => exact .inl ⟨habsent, rfl⟩
    split
    · next hlast => exact .inr ⟨rfl, rfl, by simp⟩
    · next hmore => exact .inr ⟨rfl, rfl, by simp⟩

end KsPubsub

/-- How many subscriptions and how many channels go with a client. -/
theorem removeClientLoop_counters (id : UInt64) (cs : List KsPubsubChannel) (n : KsPubsubCounters) :
    (removeClientLoop id cs n).2 =
      ⟨n.channelCount - UInt64.ofNat (cs.countP fun c => c.subscribers.erase id = []),
        n.subscriptionCount - UInt64.ofNat (cs.countP fun c => id ∈ c.subscribers),
        n.removedCount + UInt64.ofNat (cs.countP fun c => id ∈ c.subscribers)⟩ := by
  induction cs generalizing n with
  | nil => simp [removeClientLoop]
  | cons c cs ih =>
    rw [removeClientLoop, List.countP_cons, List.countP_cons, UInt64.ofNat_add, UInt64.ofNat_add]
    by_cases hmem : id ∈ c.subscribers <;> by_cases hlast : c.subscribers.erase id = [] <;>
      simp only [hmem, hlast, if_true, if_false, decide_true, decide_false, Bool.false_eq_true, ih,
        KsPubsubCounters.mk.injEq] <;> grind

/-- A channel is lost when its last subscriber is taken out. -/
theorem length_without (id : UInt64) (cs : List KsPubsubChannel) :
    (cs.filterMap (KsPubsubChannel.without id)).length +
      cs.countP (fun c => c.subscribers.erase id = []) = cs.length := by
  induction cs with
  | nil => rfl
  | cons c cs ih =>
    rw [List.countP_cons, List.filterMap_cons, List.length_cons, KsPubsubChannel.without]
    by_cases hlast : c.subscribers.erase id = []
    · simp only [hlast, if_true, decide_true]
      omega
    · simp only [hlast, if_false, decide_false, Bool.false_eq_true, List.length_cons]
      omega

/-- A client stands once in each of its channels. -/
theorem WfChannels.countP_pairsOf {cs : List KsPubsubChannel} (h : WfChannels cs) (id : UInt64) :
    (pairsOf cs).countP (fun p => p.2 = id) = cs.countP fun c => id ∈ c.subscribers := by
  have hnodup := h.nodup
  clear h
  induction cs with
  | nil => rfl
  | cons c cs ih =>
    have hc := (List.forall_mem_cons.mp hnodup).1
    have hcount : c.subscribers.countP (fun i => i = id) = if id ∈ c.subscribers then 1 else 0 := by
      rw [← List.Nodup.count hc, List.count]
      rfl
    rw [pairsOf_cons, List.countP_append, List.countP_map, List.countP_cons,
      ih (List.forall_mem_cons.mp hnodup).2, Nat.add_comm]
    simp [Function.comp_def, hcount]

namespace KsPubsub

variable {pubsub : KsPubsub} {m : Finset (CStr × UInt64)}

/-! ## each operation is a step of the specification -/

/-- Nodes that have addresses can be counted. -/
theorem lt_of_room {n : Nat} (h : n * ksPubsubSubscriberSize ≤ Word.sizeMax) : n < 2 ^ 60 := by
  rw [ksPubsubSubscriberSize, Word.sizeMax] at h
  omega

/-- A registry has the pairs that its subscribers say. -/
theorem Wf.pairs_eq (h : pubsub.Wf)
    (hm : ∀ channel id, (channel, id) ∈ m ↔ id ∈ pubsub.subscribersOf channel) :
    pubsub.pairs = m := by
  ext ⟨channel, id⟩
  rw [h.mem_pairs, hm]

/-- A new registry has no pairs. -/
theorem Represents.create : ksPubsubCreate.Represents ∅ where
  wf := wf_create
  pairs := rfl
  subscriptionCount := rfl
  channelCount := rfl
  room := Nat.zero_le _

/-- **`ks_pubsub_subscribe`** does what its specification says. -/
theorem Represents.subscribe (h : pubsub.Represents m) (channel : CStr) (id : UInt64)
    (heap : KsHeap) :
    ∃ m', KsPubsubSpec m (.subscribe channel id heap)
        (.status (ksPubsubSubscribe pubsub channel id heap).2) m' ∧
      (ksPubsubSubscribe pubsub channel id heap).1.Represents m' := by
  by_cases hempty : channel.bytes = []
  · rw [ksPubsubSubscribe, if_pos hempty]
    exact ⟨m, .noName hempty, h⟩
  obtain ⟨hwf, hafter⟩ := subscribersOf_subscribe h.wf channel id heap
  rcases h.wf.subscribe_answers hempty id heap with
    ⟨hpresent, heq⟩ | ⟨habsent, heq, hrefused⟩ | ⟨hgranted, hok, hcount, hchannels⟩
  · rw [heq]
    exact ⟨m, .already hempty (h.mem_iff.mpr hpresent), h⟩
  · rw [heq]
    refine ⟨m, .noMemory hempty (mt h.mem_iff.mp habsent) ?_, h⟩
    rcases hrefused with hsubscriber | ⟨hnone, hchannel⟩
    · exact (h.not_granted hsubscriber).imp_right .inr
    · exact .inr (.inl ⟨fun hmem => h.mem_channels.mp hmem hnone, hchannel⟩)
  · rcases hafter with ⟨-, habsent, hafter⟩ | ⟨hnot, -⟩
    swap
    · exact absurd hok hnot
    have hnew : (channel, id) ∉ m := mt h.mem_iff.mp habsent
    have hroom := h.granted hgranted
    rw [hok]
    refine ⟨insert (channel, id) m, .subscribed hempty hnew, hwf, hwf.pairs_eq ?_, ?_, ?_, ?_⟩
    · intro channel' id'
      rw [Finset.mem_insert, h.mem_iff, hafter, Prod.mk.injEq]
      by_cases hc : channel' = channel
      · simp [hc]
      · simp [hc]
    · rw [Finset.card_insert_of_notMem hnew, hcount]
      refine Word.toNat_add_one h.subscriptionCount ?_
      have := lt_of_room hroom
      omega
    · rw [Finset.image_insert, hchannels]
      by_cases hnone : pubsub.subscribersOf channel = []
      · rw [if_pos hnone, Finset.card_insert_of_notMem fun hmem => h.mem_channels.mp hmem hnone]
        refine Word.toNat_add_one h.channelCount ?_
        have := lt_of_room hroom
        have := Finset.card_image_le (s := m) (f := Prod.fst)
        omega
      · rw [if_neg hnone, Finset.insert_eq_of_mem (h.mem_channels.mpr hnone), UInt64.add_zero]
        exact h.channelCount
    · rw [Finset.card_insert_of_notMem hnew]
      exact hroom

/-- **`ks_pubsub_unsubscribe`** does what its specification says. -/
theorem Represents.unsubscribe (h : pubsub.Represents m) (channel : CStr) (id : UInt64) :
    ∃ m', KsPubsubSpec m (.unsubscribe channel id)
        (.status (ksPubsubUnsubscribe pubsub channel id).2) m' ∧
      (ksPubsubUnsubscribe pubsub channel id).1.Represents m' := by
  by_cases hempty : channel.bytes = []
  · rw [ksPubsubUnsubscribe, if_pos hempty]
    refine ⟨m, .absentNoName hempty fun hmem => ?_, h⟩
    rw [h.mem_iff, h.wf.subscribersOf_empty hempty] at hmem
    exact List.not_mem_nil hmem
  obtain ⟨hwf, hafter⟩ := subscribersOf_unsubscribe h.wf channel id
  rcases unsubscribe_answers hempty id with ⟨habsent, heq⟩ | ⟨hok, hcount, hchannels⟩
  · rw [heq]
    exact ⟨m, .absent hempty (mt h.mem_iff.mp habsent), h⟩
  · rcases hafter with ⟨-, hpresent, hafter⟩ | ⟨hnot, -⟩
    swap
    · exact absurd hok hnot
    have hmem : (channel, id) ∈ m := h.mem_iff.mpr hpresent
    have hpos : 1 ≤ m.card := Finset.card_pos.mpr ⟨_, hmem⟩
    rw [hok]
    have hpairs : (ksPubsubUnsubscribe pubsub channel id).1.pairs = m.erase (channel, id) := by
      refine hwf.pairs_eq fun channel' id' => ?_
      rw [Finset.mem_erase, h.mem_iff, hafter, Ne, Prod.mk.injEq]
      by_cases hc : channel' = channel
      · simp [hc, (h.wf.nodup_subscribersOf channel).mem_erase_iff]
      · simp [hc]
    have himage : ∀ channel', channel' ∈ (m.erase (channel, id)).image Prod.fst ↔
        channel' ∈ m.image Prod.fst ∧
          (channel' = channel → (pubsub.subscribersOf channel).erase id ≠ []) := by
      intro channel'
      rw [← hpairs, hwf.mem_channels, h.mem_channels, hafter]
      by_cases hc : channel' = channel
      · simp [hc, List.ne_nil_of_mem hpresent]
      · simp [hc]
    refine ⟨m.erase (channel, id), .unsubscribed hmem, hwf, hpairs, ?_, ?_, ?_⟩
    · rw [Finset.card_erase_of_mem hmem, hcount]
      exact Word.toNat_sub_ofNat h.subscriptionCount hpos
    · have hchannel : channel ∈ m.image Prod.fst := Finset.mem_image_of_mem Prod.fst hmem
      have hsome : 1 ≤ (m.image Prod.fst).card := Finset.card_pos.mpr ⟨_, hchannel⟩
      rw [hchannels]
      by_cases hlast : (pubsub.subscribersOf channel).erase id = []
      · have herase : (m.erase (channel, id)).image Prod.fst = (m.image Prod.fst).erase channel := by
          ext channel'
          rw [himage, Finset.mem_erase]
          simp only [hlast, ne_eq, not_true_eq_false, imp_false, and_comm]
        rw [if_pos hlast, herase, Finset.card_erase_of_mem hchannel]
        exact Word.toNat_sub_ofNat h.channelCount hsome
      · have hsame : (m.erase (channel, id)).image Prod.fst = m.image Prod.fst := by
          ext channel'
          rw [himage]
          simp only [hlast, ne_eq, not_false_eq_true, implies_true, and_true]
        rw [if_neg hlast, hsame, UInt64.sub_zero]
        exact h.channelCount
    · exact (Nat.mul_le_mul_right _ (Finset.card_erase_le)).trans h.room

/-- **`ks_pubsub_remove_client`** takes away the pairs of the client, and counts
them. -/
theorem Represents.removeClient (h : pubsub.Represents m) (id : UInt64) :
    (ksPubsubRemoveClient pubsub id).2.toNat = (m.filter fun p => p.2 = id).card ∧
      (ksPubsubRemoveClient pubsub id).1.Represents (m.filter fun p => p.2 ≠ id) := by
  obtain ⟨hwf, hafter⟩ := subscribersOf_removeClient h.wf id
  have hpairs : (ksPubsubRemoveClient pubsub id).1.pairs = m.filter fun p => p.2 ≠ id := by
    refine hwf.pairs_eq fun channel id' => ?_
    rw [Finset.mem_filter, h.mem_iff, hafter, (h.wf.nodup_subscribersOf channel).mem_erase_iff,
      and_comm]
  have hcard := Finset.card_filter_add_card_filter_not (s := m) fun p => p.2 = id
  have hremoved : pubsub.channels.countP (fun c => id ∈ c.subscribers) =
      (m.filter fun p => p.2 = id).card := by
    rw [← WfChannels.countP_pairsOf h.wf, List.countP_eq_length_filter,
      ← List.toFinset_card_of_nodup ((WfChannels.nodup_pairsOf h.wf).filter _), ← h.pairs]
    congr 1
    ext p
    simp [KsPubsub.pairs]
  have hlength := length_without id pubsub.channels
  have hchannels : (ksPubsubRemoveClient pubsub id).1.channels =
      pubsub.channels.filterMap (KsPubsubChannel.without id) := removeClientLoop_channels ..
  have hcounters := removeClientLoop_counters id pubsub.channels
    ⟨pubsub.channelCount, pubsub.subscriptionCount, 0⟩
  have hchannelCount : (ksPubsubRemoveClient pubsub id).1.channelCount = _ :=
    congrArg KsPubsubCounters.channelCount hcounters
  have hsubscriptionCount : (ksPubsubRemoveClient pubsub id).1.subscriptionCount = _ :=
    congrArg KsPubsubCounters.subscriptionCount hcounters
  have hremovedCount : (ksPubsubRemoveClient pubsub id).2 = _ :=
    congrArg KsPubsubCounters.removedCount hcounters
  refine ⟨?_, hwf, hpairs, ?_, ?_, ?_⟩
  · have hlt := lt_of_room h.room
    rw [hremovedCount, hremoved, UInt64.zero_add, UInt64.toNat_ofNat']
    exact Nat.mod_eq_of_lt (by omega)
  · rw [hsubscriptionCount, hremoved, Word.toNat_sub_ofNat h.subscriptionCount (by omega)]
    simp only [ne_eq]
    omega
  · have hcount : pubsub.channelCount.toNat = pubsub.channels.length := by
      rw [h.channelCount, ← h.pairs, h.wf.card_channels]
    rw [← hpairs, hwf.card_channels, hchannels, hchannelCount,
      Word.toNat_sub_ofNat hcount (by omega)]
    omega
  · refine (Nat.mul_le_mul_right _ ?_).trans h.room
    exact Finset.card_filter_le m _

end KsPubsub

/-- **Every call of the registry is a call of the set of pairs.** -/
theorem ksPubsubStep_simulates :
    Simulates (fun (_ : Unit) _ _ => True) ksPubsubStep KsPubsubSpec
      fun _ pubsub m => pubsub.Represents m := by
  rintro - pubsub m op - h -
  cases op with
  | subscribe channel id heap =>
    obtain ⟨m', hspec, hrep⟩ := h.subscribe channel id heap
    exact ⟨_, _, m', rfl, hspec, hrep⟩
  | unsubscribe channel id =>
    obtain ⟨m', hspec, hrep⟩ := h.unsubscribe channel id
    exact ⟨_, _, m', rfl, hspec, hrep⟩
  | removeClient id =>
    obtain ⟨hremoved, hrep⟩ := h.removeClient id
    exact ⟨_, _, _, rfl, hremoved ▸ .removeClient, hrep⟩
  | channelCount =>
    exact ⟨_, _, m, rfl, by rw [ksPubsubChannelCount, h.channelCount]; exact .channelCount, h⟩
  | subscriptionCount =>
    exact ⟨_, _, m, rfl,
      by rw [ksPubsubSubscriptionCount, h.subscriptionCount]; exact .subscriptionCount, h⟩

/-! ## `ks_pubsub_publish` -/

/-- Offer a message to one client after the other and keep their answers. -/
def deliverEach {σ : Type} (deliver : σ → UInt64 → CStr → List UInt8 → σ × Bool) (channel : CStr)
    (message : List UInt8) : List UInt64 → σ → σ × List Bool
  | [], context => (context, [])
  | id :: ids, context =>
    let (context, accepted) := deliver context id channel message
    let (context, answers) := deliverEach deliver channel message ids context
    (context, accepted :: answers)

section

variable {σ : Type} (deliver : σ → UInt64 → CStr → List UInt8 → σ × Bool) (channel : CStr)
  (message : List UInt8)

/-- The callback is asked once for each subscriber. -/
theorem length_deliverEach (ids : List UInt64) (context : σ) :
    (deliverEach deliver channel message ids context).2.length = ids.length := by
  induction ids generalizing context with
  | nil => rfl
  | cons id ids ih => exact congrArg Nat.succ (ih _)

/-- `ks_pubsub_publish` counts the callbacks that said yes. -/
theorem publishLoop_eq (ids : List UInt64) (context : σ) (recipients : UInt64) :
    publishLoop deliver channel message ids context recipients =
      ((deliverEach deliver channel message ids context).1,
        recipients +
          UInt64.ofNat ((deliverEach deliver channel message ids context).2.count true)) := by
  induction ids generalizing context recipients with
  | nil => simp [publishLoop, deliverEach]
  | cons id ids ih =>
    rw [publishLoop, deliverEach]
    simp only [ih, List.count_cons, UInt64.ofNat_add, Prod.mk.injEq, true_and]
    cases (deliver context id channel message).2
    · simp
    · simp only [if_true, BEq.rfl]
      grind

/-- The callback is called once for each pair of the channel. -/
theorem KsPubsub.Represents.publish {pubsub : KsPubsub} {m : Finset (CStr × UInt64)}
    (h : pubsub.Represents m) (context : σ) :
    ∃ ids : List UInt64, ids.Nodup ∧ (∀ id, id ∈ ids ↔ (channel, id) ∈ m) ∧
      (ksPubsubPublish pubsub channel message deliver context).1 =
        (deliverEach deliver channel message ids context).1 ∧
      (ksPubsubPublish pubsub channel message deliver context).2.toNat =
        (deliverEach deliver channel message ids context).2.count true := by
  have hnodup := h.wf.nodup_subscribersOf channel
  refine ⟨pubsub.subscribersOf channel, hnodup, fun id => h.mem_iff.symm, ?_, ?_⟩
  · rw [publish_eq h.wf, publishLoop_eq]
  · have hcount : (deliverEach deliver channel message (pubsub.subscribersOf channel)
        context).2.count true ≤ (pubsub.subscribersOf channel).length :=
      List.count_le_length.trans_eq (length_deliverEach ..)
    have hcard : (pubsub.subscribersOf channel).length ≤ m.card := by
      rw [← List.length_map (f := fun id => (channel, id)), ← List.toFinset_card_of_nodup]
      · refine Finset.card_le_card fun p hp => ?_
        rw [List.mem_toFinset, List.mem_map] at hp
        obtain ⟨id, hid, rfl⟩ := hp
        exact h.mem_iff.mpr hid
      · exact hnodup.map fun _ _ heq => (Prod.mk.inj heq).2
    have hlt := lt_of_room h.room
    rw [publish_eq h.wf, publishLoop_eq, UInt64.zero_add, UInt64.toNat_ofNat']
    exact Nat.mod_eq_of_lt (by omega)

end

/-- **The registry is a finite set of pairs of a channel and a client.** -/
theorem ksPubsub_refines_pairs (ops : List KsPubsubOp) :
    ∃ pubsub answers m, run ksPubsubStep ksPubsubCreate ops = some (pubsub, answers) ∧
      Runs KsPubsubSpec ∅ ops answers m ∧ pubsub.Represents m ∧
      ∀ {σ : Type} (deliver : σ → UInt64 → CStr → List UInt8 → σ × Bool) (channel : CStr)
        (message : List UInt8) (context : σ),
        ∃ ids : List UInt64, ids.Nodup ∧ (∀ id, id ∈ ids ↔ (channel, id) ∈ m) ∧
          (ksPubsubPublish pubsub channel message deliver context).1 =
            (deliverEach deliver channel message ids context).1 ∧
          (ksPubsubPublish pubsub channel message deliver context).2.toNat =
            (deliverEach deliver channel message ids context).2.count true := by
  obtain ⟨-, pubsub, answers, m, hrun, hspec, hrep⟩ :=
    ksPubsubStep_simulates.run ops KsPubsub.Represents.create (admits_true ops)
  exact ⟨pubsub, answers, m, hrun, hspec, hrep, fun deliver channel message context =>
    hrep.publish deliver channel message context⟩

end Kessel
