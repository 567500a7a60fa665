import Kessel.Pubsub

/-!
# Kessel.Pubsub.Invariant

What the registry says, and what each operation does to it.

`subscribersOf` reads the registry as a list of clients for each channel.  In a
well-formed registry (`KsPubsub.Wf`) no name stands twice, no list is empty and
no client stands twice in a list; `subscribersOf_subscribe`,
`subscribersOf_unsubscribe` and `subscribersOf_removeClient` are the only facts
about the linked lists that the server needs.
-/

namespace Kessel

/-- The clients subscribed to a channel, newest first. -/
def KsPubsub.subscribersOf (pubsub : KsPubsub) (channel : CStr) : List UInt64 :=
  (findChannel pubsub.channels channel).elim [] KsPubsubChannel.subscribers

/-- The invariant of the list of channels. -/
structure WfChannels (cs : List KsPubsubChannel) : Prop where
  names : (cs.map KsPubsubChannel.name).Nodup
  named : ∀ c ∈ cs, c.name.bytes ≠ []
  nonempty : ∀ c ∈ cs, c.subscribers ≠ []
  nodup : ∀ c ∈ cs, c.subscribers.Nodup

def KsPubsub.Wf (pubsub : KsPubsub) : Prop := WfChannels pubsub.channels

/-! ## the list of channels -/

/-- A channel that is found is one of the list, and has the name. -/
theorem findChannel_eq_some {cs : List KsPubsubChannel} {channel : CStr} {c : KsPubsubChannel}
    (h : findChannel cs channel = some c) : c ∈ cs ∧ c.name = channel :=
  ⟨List.mem_of_find?_eq_some h, by simpa using List.find?_some h⟩

/-- A channel is not found when no channel has the name. -/
theorem findChannel_eq_none {cs : List KsPubsubChannel} {channel : CStr} :
    findChannel cs channel = none ↔ channel ∉ cs.map KsPubsubChannel.name := by
  simp [findChannel, List.find?_eq_none]

theorem findChannel_cons (c : KsPubsubChannel) (cs : List KsPubsubChannel) (channel : CStr) :
    findChannel (c :: cs) channel = if c.name = channel then some c else findChannel cs channel := by
  rw [findChannel, List.find?_cons]
  by_cases h : c.name = channel
  · simp [h]
  · simp [h, findChannel]

/-- A channel written through its link keeps its name. -/
def KeepsName (f : KsPubsubChannel → Option KsPubsubChannel) : Prop :=
  ∀ c c', f c = some c' → c'.name = c.name

/-- What is in the list afterwards was there before, or is the rewritten channel. -/
theorem mem_onChannel {channel : CStr} {f : KsPubsubChannel → Option KsPubsubChannel}
    {cs : List KsPubsubChannel} {c : KsPubsubChannel} (h : c ∈ onChannel channel f cs) :
    c ∈ cs ∨ ∃ c₀, findChannel cs channel = some c₀ ∧ f c₀ = some c := by
  induction cs with
  | nil => simp [onChannel] at h
  | cons d cs ih =>
    rw [onChannel] at h
    rw [findChannel_cons]
    split at h
    · next hd =>
      rw [if_pos hd]
      rcases List.mem_append.mp h with hc | hc
      · exact .inr ⟨d, rfl, by simpa using hc⟩
      · exact .inl (List.mem_cons_of_mem _ hc)
    · next hd =>
      rw [if_neg hd]
      rcases List.mem_cons.mp h with rfl | hc
      · exact .inl List.mem_cons_self
      · exact (ih hc).imp (List.mem_cons_of_mem _) id

/-- A change of a channel keeps the names, or takes one away. -/
theorem names_onChannel {channel : CStr} {f : KsPubsubChannel → Option KsPubsubChannel}
    (hf : KeepsName f) (cs : List KsPubsubChannel) :
    ((onChannel channel f cs).map KsPubsubChannel.name).Sublist (cs.map KsPubsubChannel.name) := by
  induction cs with
  | nil => exact .slnil
  | cons c cs ih =>
    rw [onChannel]
    split
    · cases hc : f c with
      | none => simp
      | some c' => simp [hf c c' hc]
    · exact ih.cons_cons _

/-- The lookup after a write through the link of `channel`. -/
theorem findChannel_onChannel {channel : CStr} {f : KsPubsubChannel → Option KsPubsubChannel}
    (hf : KeepsName f) {cs : List KsPubsubChannel} (hnames : (cs.map KsPubsubChannel.name).Nodup)
    (channel' : CStr) :
    findChannel (onChannel channel f cs) channel' =
      if channel' = channel then (findChannel cs channel).bind f else findChannel cs channel' := by
  induction cs with
  | nil => simp [onChannel, findChannel]
  | cons c cs ih =>
    rw [List.map_cons, List.nodup_cons] at hnames
    rw [onChannel]
    by_cases hc : c.name = channel
    · rw [if_pos hc, findChannel_cons, if_pos hc, findChannel_cons, hc]
      rw [hc] at hnames
      cases hfc : f c with
      | none =>
        by_cases h : channel' = channel
        · rw [h, if_pos rfl]
          simp [findChannel_eq_none.mpr hnames.1, hfc]
        · simp [h, Ne.symm h]
      | some c' =>
        have hc' : c'.name = channel := (hf c c' hfc).trans hc
        by_cases h : channel' = channel
        · simp [h, findChannel_cons, hc', hfc]
        · simp [h, findChannel_cons, hc', Ne.symm h]
    · rw [if_neg hc, findChannel_cons, ih hnames.2, findChannel_cons, if_neg hc, findChannel_cons]
      by_cases h : channel' = channel
      · simp [h, hc]
      · simp [h]

/-- A change of a channel keeps the lists in order. -/
theorem WfChannels.onChannel {channel : CStr} {f : KsPubsubChannel → Option KsPubsubChannel}
    (hf : KeepsName f) {cs : List KsPubsubChannel} (h : WfChannels cs)
    (hsubs : ∀ c c', findChannel cs channel = some c → f c = some c' →
      c'.subscribers ≠ [] ∧ c'.subscribers.Nodup) :
    WfChannels (onChannel channel f cs) where
  names := (names_onChannel hf cs).nodup h.names
  named := by
    intro c hc
    rcases mem_onChannel hc with hc | ⟨c₀, hfind, hfc⟩
    · exact h.named c hc
    · rw [hf c₀ c hfc]
      exact h.named c₀ (findChannel_eq_some hfind).1
  nonempty := by
    intro c hc
    rcases mem_onChannel hc with hc | ⟨c₀, hfind, hfc⟩
    · exact h.nonempty c hc
    · exact (hsubs c₀ c hfind hfc).1
  nodup := by
    intro c hc
    rcases mem_onChannel hc with hc | ⟨c₀, hfind, hfc⟩
    · exact h.nodup c hc
    · exact (hsubs c₀ c hfind hfc).2

/-! ## taking a client off every channel -/

/-- A channel without a client; `none` when nobody is left. -/
def KsPubsubChannel.without (id : UInt64) (c : KsPubsubChannel) : Option KsPubsubChannel :=
  if c.subscribers.erase id = [] then none
  else some { c with subscribers := c.subscribers.erase id }

/-- A channel without a client, when there are others. -/
theorem KsPubsubChannel.without_eq_some {id : UInt64} {c c' : KsPubsubChannel}
    (h : c.without id = some c') :
    c'.name = c.name ∧ c'.subscribers = c.subscribers.erase id ∧ c'.subscribers ≠ [] := by
  unfold without at h
  split at h
  · cases h
  · next hne =>
    rw [← Option.some.inj h]
    exact ⟨rfl, rfl, hne⟩

/-- `ks_pubsub_remove_client` takes the client out of every channel. -/
theorem removeClientLoop_channels (id : UInt64) (cs : List KsPubsubChannel)
    (n : KsPubsubCounters) :
    (removeClientLoop id cs n).1 = cs.filterMap (KsPubsubChannel.without id) := by
  induction cs generalizing n with
  | nil => rfl
  | cons c cs ih =>
    rw [removeClientLoop, List.filterMap_cons, KsPubsubChannel.without]
    split
    · exact ih _
    · simp [ih]

/-- Taking a client out keeps the lists in order. -/
theorem WfChannels.without {cs : List KsPubsubChannel} (h : WfChannels cs) (id : UInt64) :
    WfChannels (cs.filterMap (KsPubsubChannel.without id)) where
  names := by
    rw [List.map_filterMap]
    have hnames := h.names
    refine List.Nodup.sublist ?_ hnames
    clear h hnames
    induction cs with
    | nil => exact .slnil
    | cons c cs ih =>
      rw [List.filterMap_cons, List.map_cons]
      cases hw : c.without id with
      | none => exact ih.cons _
      | some c' =>
        simp only [Option.map_some, (KsPubsubChannel.without_eq_some hw).1]
        exact ih.cons_cons _
  named := by
    intro c hc
    obtain ⟨c₀, hm, hc₀⟩ := List.mem_filterMap.mp hc
    rw [(KsPubsubChannel.without_eq_some hc₀).1]
    exact h.named c₀ hm
  nonempty := by
    intro c hc
    obtain ⟨c₀, hm, hc₀⟩ := List.mem_filterMap.mp hc
    exact (KsPubsubChannel.without_eq_some hc₀).2.2
  nodup := by
    intro c hc
    obtain ⟨c₀, hm, hc₀⟩ := List.mem_filterMap.mp hc
    rw [(KsPubsubChannel.without_eq_some hc₀).2.1]
    exact (h.nodup c₀ hm).erase id

/-- What is left of a channel. -/
theorem findChannel_without {cs : List KsPubsubChannel}
    (hnames : (cs.map KsPubsubChannel.name).Nodup) (id : UInt64) (channel : CStr) :
    findChannel (cs.filterMap (KsPubsubChannel.without id)) channel =
      (findChannel cs channel).bind (KsPubsubChannel.without id) := by
  induction cs with
  | nil => rfl
  | cons c cs ih =>
    rw [List.map_cons, List.nodup_cons] at hnames
    rw [List.filterMap_cons, findChannel_cons]
    by_cases hc : c.name = channel
    · rw [if_pos hc]
      cases hw : c.without id with
      | none =>
        rw [hc] at hnames
        simp [ih hnames.2, findChannel_eq_none.mpr hnames.1, hw]
      | some c' =>
        have hc' := (KsPubsubChannel.without_eq_some hw).1.trans hc
        simp [findChannel_cons, hc', hw]
    · rw [if_neg hc]
      cases hw : c.without id with
      | none => exact ih hnames.2
      | some c' =>
        have hc' : c'.name ≠ channel := by
          rw [(KsPubsubChannel.without_eq_some hw).1]
          exact hc
        simp [findChannel_cons, hc', ih hnames.2]

namespace KsPubsub

variable {pubsub : KsPubsub}

/-- A new registry is in order. -/
theorem wf_create : ksPubsubCreate.Wf := by
  constructor <;> simp [ksPubsubCreate]

/-- A client is subscribed to a channel once. -/
theorem Wf.nodup_subscribersOf (h : pubsub.Wf) (channel : CStr) :
    (pubsub.subscribersOf channel).Nodup := by
  rw [subscribersOf]
  cases hfind : findChannel pubsub.channels channel with
  | none => simp
  | some c => exact WfChannels.nodup h c (findChannel_eq_some hfind).1

/-- Nobody subscribes to the empty name. -/
theorem Wf.subscribersOf_empty (h : pubsub.Wf) {channel : CStr} (hempty : channel.bytes = []) :
    pubsub.subscribersOf channel = [] := by
  rw [subscribersOf]
  cases hfind : findChannel pubsub.channels channel with
  | none => rfl
  | some c =>
    obtain ⟨hm, rfl⟩ := findChannel_eq_some hfind
    exact absurd hempty (h.named c hm)

/-! ## `ks_pubsub_subscribe` -/

/-- A subscription is added to the front of its channel, or nothing happens. -/
theorem subscribersOf_subscribe (h : pubsub.Wf) (channel : CStr) (id : UInt64) (heap : KsHeap) :
    (ksPubsubSubscribe pubsub channel id heap).1.Wf ∧
      (((ksPubsubSubscribe pubsub channel id heap).2 = .ok ∧ id ∉ pubsub.subscribersOf channel ∧
          ∀ channel', (ksPubsubSubscribe pubsub channel id heap).1.subscribersOf channel' =
            if channel' = channel then id :: pubsub.subscribersOf channel
            else pubsub.subscribersOf channel') ∨
        ((ksPubsubSubscribe pubsub channel id heap).2 ≠ .ok ∧
          (ksPubsubSubscribe pubsub channel id heap).1 = pubsub)) := by
  unfold ksPubsubSubscribe
  split
  · exact ⟨h, .inr ⟨by simp, rfl⟩⟩
  next hempty =>
  cases hfind : findChannel pubsub.channels channel with
  | some c =>
    obtain ⟨hm, hname⟩ := findChannel_eq_some hfind
    simp only
    split
    · exact ⟨h, .inr ⟨by simp, rfl⟩⟩
    next habsent =>
    split
    · exact ⟨h, .inr ⟨by simp, rfl⟩⟩
    have hkeep : KeepsName fun c => some { c with subscribers := id :: c.subscribers } := by
      intro c c' hc
      rw [← Option.some.inj hc]
    refine ⟨WfChannels.onChannel hkeep h ?_, .inl ⟨rfl, by rw [subscribersOf, hfind]; exact habsent, ?_⟩⟩
    · intro c₀ c' hfind' hc'
      rw [hfind, Option.some.injEq] at hfind'
      rw [← Option.some.inj hc', ← hfind']
      exact ⟨by simp, List.nodup_cons.mpr ⟨habsent, h.nodup c hm⟩⟩
    · intro channel'
      simp only [subscribersOf, findChannel_onChannel hkeep h.names]
      split
      · simp [hfind]
      · rfl
  | none =>
    simp only
    split
    · exact ⟨h, .inr ⟨by simp, rfl⟩⟩
    have hfresh := findChannel_eq_none.mp hfind
    refine ⟨⟨?_, ?_, ?_, ?_⟩, .inl ⟨rfl, by simp [subscribersOf, hfind], ?_⟩⟩
    · exact List.nodup_cons.mpr ⟨hfresh, h.names⟩
    · exact List.forall_mem_cons.mpr ⟨hempty, h.named⟩
    · exact List.forall_mem_cons.mpr ⟨by simp, h.nonempty⟩
    · exact List.forall_mem_cons.mpr ⟨by simp, h.nodup⟩
    · intro channel'
      simp only [subscribersOf, findChannel_cons]
      by_cases hc : channel' = channel
      · simp [hc, hfind]
      · simp [hc, Ne.symm hc]

/-! ## `ks_pubsub_unsubscribe` -/

/-- A subscription is removed from its channel, or nothing happens. -/
theorem subscribersOf_unsubscribe (h : pubsub.Wf) (channel : CStr) (id : UInt64) :
    (ksPubsubUnsubscribe pubsub channel id).1.Wf ∧
      (((ksPubsubUnsubscribe pubsub channel id).2 = .ok ∧ id ∈ pubsub.subscribersOf channel ∧
          ∀ channel', (ksPubsubUnsubscribe pubsub channel id).1.subscribersOf channel' =
            if channel' = channel then (pubsub.subscribersOf channel).erase id
            else pubsub.subscribersOf channel') ∨
        ((ksPubsubUnsubscribe pubsub channel id).2 ≠ .ok ∧ id ∉ pubsub.subscribersOf channel ∧
          (ksPubsubUnsubscribe pubsub channel id).1 = pubsub)) := by
  unfold ksPubsubUnsubscribe
  split
  · next hempty =>
    exact ⟨h, .inr ⟨by simp, by simp [h.subscribersOf_empty hempty], rfl⟩⟩
  next hempty =>
  cases hfind : findChannel pubsub.channels channel with
  | none => exact ⟨h, .inr ⟨by simp, by simp [subscribersOf, hfind], rfl⟩⟩
  | some c =>
    obtain ⟨hm, hname⟩ := findChannel_eq_some hfind
    simp only
    split
    · next habsent => exact ⟨h, .inr ⟨by simp, by rw [subscribersOf, hfind]; exact habsent, rfl⟩⟩
    next hpresent =>
    rw [not_not] at hpresent
    split
    · next hlast =>
      have hkeep : KeepsName fun _ => none := by simp [KeepsName]
      refine ⟨WfChannels.onChannel hkeep h (by simp),
        .inl ⟨rfl, by rw [subscribersOf, hfind]; exact hpresent, ?_⟩⟩
      intro channel'
      simp only [subscribersOf, findChannel_onChannel hkeep h.names]
      split
      · simp [hfind, hlast]
      · rfl
    · next hmore =>
      have hkeep : KeepsName fun c => some { c with subscribers := c.subscribers.erase id } := by
        intro c c' hc
        rw [← Option.some.inj hc]
      refine ⟨WfChannels.onChannel hkeep h ?_,
        .inl ⟨rfl, by rw [subscribersOf, hfind]; exact hpresent, ?_⟩⟩
      · intro c₀ c' hfind' hc'
        rw [hfind, Option.some.injEq] at hfind'
        rw [← Option.some.inj hc', ← hfind']
        exact ⟨hmore, (h.nodup c hm).erase id⟩
      · intro channel'
        simp only [subscribersOf, findChannel_onChannel hkeep h.names]
        split
        · simp [hfind]
        · rfl

/-! ## `ks_pubsub_remove_client` -/

/-- The client is taken off every channel. -/
theorem subscribersOf_removeClient (h : pubsub.Wf) (id : UInt64) :
    (ksPubsubRemoveClient pubsub id).1.Wf ∧
      ∀ channel, (ksPubsubRemoveClient pubsub id).1.subscribersOf channel =
        (pubsub.subscribersOf channel).erase id := by
  have hchannels : (ksPubsubRemoveClient pubsub id).1.channels =
      pubsub.channels.filterMap (KsPubsubChannel.without id) := removeClientLoop_channels ..
  constructor
  · rw [Wf, hchannels]
    exact h.without id
  · intro channel
    rw [subscribersOf, subscribersOf, hchannels, findChannel_without h.names]
    cases findChannel pubsub.channels channel with
    | none => rfl
    | some c =>
      by_cases hlast : c.subscribers.erase id = []
      · simp [KsPubsubChannel.without, hlast]
      · simp [KsPubsubChannel.without, hlast]

/-! ## `ks_pubsub_publish` -/

/-- A message is offered to the subscribers of its channel, one after the other. -/
theorem publish_eq {σ : Type} (h : pubsub.Wf) (channel : CStr) (message : List UInt8)
    (deliver : σ → UInt64 → CStr → List UInt8 → σ × Bool) (context : σ) :
    ksPubsubPublish pubsub channel message deliver context =
      publishLoop deliver channel message (pubsub.subscribersOf channel) context 0 := by
  unfold ksPubsubPublish
  split
  · next hempty => rw [h.subscribersOf_empty hempty, publishLoop]
  · rw [subscribersOf]
    cases hfind : findChannel pubsub.channels channel with
    | none => rfl
    | some c => rw [← (findChannel_eq_some hfind).2]; rfl

end KsPubsub

end Kessel
