import Kessel.Ds.Held
import Kessel.Pubsub.Refine

/-!
# Kessel.Pubsub.Held

The blocks of the subscription registry (`ks_pubsub.c`).

The functions of `Kessel.Pubsub` once more, with the nodes of the two levels of
lists and the copies of the names.  What a registry shows without its blocks is
`KsPubsubHeld.val`; each function has one lemma that says what it owns
afterwards and that it shows what the function of `Kessel.Pubsub` computes.

* `ksPubsub_frees_once` — no run leaks a block, or frees or uses one too late.
-/

namespace Kessel

open Refinement

/-- `ks_pubsub_channel_t`, a node with the blocks it points to. -/
structure KsChannelHeld where
  block : Nat
  name : KsPtr CStr
  subscribers : List (KsPtr UInt64)

namespace KsChannelHeld

def val (c : KsChannelHeld) : KsPubsubChannel := ⟨c.name.val, c.subscribers.map KsPtr.val⟩

/-- The blocks that `destroy_channel` frees, in its order. -/
def owned (c : KsChannelHeld) : List Nat :=
  c.subscribers.map KsPtr.block ++ [c.name.block, c.block]

end KsChannelHeld

/-- `ks_pubsub_t` in its block, with the allocator. -/
structure KsPubsubHeld where
  block : Nat
  channels : List KsChannelHeld
  channelCount : UInt64
  subscriptionCount : UInt64
  blocks : Blocks

namespace KsPubsubHeld

def val (p : KsPubsubHeld) : KsPubsub :=
  ⟨p.channels.map KsChannelHeld.val, p.channelCount, p.subscriptionCount⟩

/-- The blocks of the registry. -/
def owned (p : KsPubsubHeld) : List Nat := p.block :: p.channels.flatMap KsChannelHeld.owned

def touchAll (p : KsPubsubHeld) (xs : List Nat) : KsPubsubHeld :=
  { p with blocks := p.blocks.touchAll xs }

/-- What a walk over the lists may read. -/
def walk (p : KsPubsubHeld) : KsPubsubHeld := p.touchAll p.owned

def alloc {α : Type} (p : KsPubsubHeld) (grant : Bool) (val : α) : KsPubsubHeld × Option (KsPtr α) :=
  if grant then ({ p with blocks := p.blocks.malloc.1 }, some ⟨p.blocks.malloc.2, val⟩) else (p, none)

def freeAll (p : KsPubsubHeld) (xs : List Nat) : KsPubsubHeld :=
  { p with blocks := p.blocks.freeAll xs }

end KsPubsubHeld

/-! ## the functions -/

/-- `find_channel` -/
def findChannelHeld (channels : List KsChannelHeld) (channel : CStr) : Option KsChannelHeld :=
  channels.find? fun c => c.name.val = channel

/-- Write through the link of the first channel of that name; `none` unlinks it. -/
def onChannelHeld (channel : CStr) (f : KsChannelHeld → Option KsChannelHeld) :
    List KsChannelHeld → List KsChannelHeld
  | [] => []
  | c :: cs => if c.name.val = channel then (f c).toList ++ cs else c :: onChannelHeld channel f cs

/-- The node of a client. -/
def findClient (clientId : UInt64) (l : List (KsPtr UInt64)) : Option (KsPtr UInt64) :=
  l.find? fun s => s.val == clientId

/-- The list without the node of a client. -/
def unlinkClient (clientId : UInt64) (l : List (KsPtr UInt64)) : List (KsPtr UInt64) :=
  l.eraseP fun s => s.val == clientId

/-- `ks_pubsub_create`, when it is granted. -/
def ksPubsubCreateHeld (blocks : Blocks) : KsPubsubHeld := ⟨blocks.malloc.2, [], 0, 0, blocks.malloc.1⟩

/-- The loop of `ks_pubsub_destroy`, with `destroy_channel`. -/
def destroyChannels : List KsChannelHeld → Blocks → Blocks
  | [], blocks => blocks
  | c :: cs, blocks => destroyChannels cs ((blocks.touchAll c.owned).freeAll c.owned)

/-- `ks_pubsub_destroy` -/
def ksPubsubDestroyHeld (p : KsPubsubHeld) : Blocks := (destroyChannels p.channels p.blocks).free p.block

/-- `ks_pubsub_subscribe` -/
def ksPubsubSubscribeHeld (p : KsPubsubHeld) (channel : CStr) (clientId : UInt64) (heap : KsHeap) :
    KsPubsubHeld × KsPubsubStatus :=
  if channel.bytes = [] then (p, .invalidArgument)
  else
    let p := p.walk
    match findChannelHeld p.channels channel with
    | some existing =>
      if (findClient clientId existing.subscribers).isSome then (p, .alreadySubscribed)
      else
        match p.alloc (subscriberGranted p.val heap) clientId with
        | (p, none) => (p, .noMemory)
        | (p, some subscriber) =>
          ({ p with
              channels := onChannelHeld channel
                (fun c => some { c with subscribers := subscriber :: c.subscribers }) p.channels
              subscriptionCount := p.subscriptionCount + 1 }, .ok)
    | none =>
      let (p, channelName) := p.alloc (heap .channelName) channel
      let (p, newChannel) := p.alloc (heap .channelNode) ()
      let (p, subscriber) := p.alloc (subscriberGranted p.val heap) clientId
      match channelName, newChannel, subscriber with
      | some channelName, some newChannel, some subscriber =>
        ({ p with
            channels := ⟨newChannel.block, channelName, [subscriber]⟩ :: p.channels
            channelCount := p.channelCount + 1
            subscriptionCount := p.subscriptionCount + 1 }, .ok)
      | channelName, newChannel, subscriber =>
        (p.freeAll (channelName.toList.map KsPtr.block ++ newChannel.toList.map KsPtr.block ++
          subscriber.toList.map KsPtr.block), .noMemory)

/-- `ks_pubsub_unsubscribe` -/
def ksPubsubUnsubscribeHeld (p : KsPubsubHeld) (channel : CStr) (clientId : UInt64) :
    KsPubsubHeld × KsPubsubStatus :=
  if channel.bytes = [] then (p, .invalidArgument)
  else
    let p := p.walk
    match findChannelHeld p.channels channel with
    | none => (p, .notSubscribed)
    | some matched =>
      match findClient clientId matched.subscribers with
      | none => (p, .notSubscribed)
      | some removed =>
        let p := (p.freeAll [removed.block]).touchAll [matched.block]
        if (unlinkClient clientId matched.subscribers).isEmpty then
          let p := p.freeAll [matched.name.block, matched.block]
          ({ p with
              channels := onChannelHeld channel (fun _ => none) p.channels
              channelCount := p.channelCount - 1
              subscriptionCount := p.subscriptionCount - 1 }, .ok)
        else
          ({ p with
              channels := onChannelHeld channel
                (fun c => some { c with subscribers := unlinkClient clientId c.subscribers }) p.channels
              subscriptionCount := p.subscriptionCount - 1 }, .ok)

/-- The loop of `ks_pubsub_remove_client`. -/
def removeClientLoopHeld (clientId : UInt64) :
    List KsChannelHeld → Blocks → KsPubsubCounters → List KsChannelHeld × Blocks × KsPubsubCounters
  | [], blocks, n => ([], blocks, n)
  | c :: cs, blocks, n =>
    let removed := findClient clientId c.subscribers
    let subscribers := unlinkClient clientId c.subscribers
    let blocks := ((blocks.touchAll c.owned).freeAll (removed.toList.map KsPtr.block)).touchAll [c.block]
    let n :=
      if removed.isSome then
        { n with subscriptionCount := n.subscriptionCount - 1, removedCount := n.removedCount + 1 }
      else n
    if subscribers.isEmpty then
      removeClientLoopHeld clientId cs (blocks.freeAll [c.name.block, c.block])
        { n with channelCount := n.channelCount - 1 }
    else
      let (cs, blocks, n) := removeClientLoopHeld clientId cs blocks n
      ({ c with subscribers } :: cs, blocks, n)

/-- `ks_pubsub_remove_client` -/
def ksPubsubRemoveClientHeld (p : KsPubsubHeld) (clientId : UInt64) : KsPubsubHeld × UInt64 :=
  let (channels, blocks, n) := removeClientLoopHeld clientId p.channels p.blocks
    ⟨p.channelCount, p.subscriptionCount, 0⟩
  (⟨p.block, channels, n.channelCount, n.subscriptionCount, blocks⟩, n.removedCount)

/-! ## the lists -/

/-- The node that is unlinked is the one that is found. -/
theorem perm_unlinkClient (id : UInt64) (l : List (KsPtr UInt64)) :
    ((findClient id l).toList ++ unlinkClient id l).Perm l := by
  induction l with
  | nil => exact .nil
  | cons s l ih =>
    unfold findClient unlinkClient at ih ⊢
    rw [List.find?_cons, List.eraseP_cons]
    cases s.val == id with
    | true => exact .refl _
    | false => exact List.perm_middle.trans (ih.cons s)

/-- Unlinking a node erases the client. -/
theorem unlinkClient_val (id : UInt64) (l : List (KsPtr UInt64)) :
    (unlinkClient id l).map KsPtr.val = (l.map KsPtr.val).erase id := by
  rw [List.erase_eq_eraseP', List.eraseP_map]
  rfl

/-- A node is found when the client is there. -/
theorem findClient_isSome (id : UInt64) (l : List (KsPtr UInt64)) :
    (findClient id l).isSome = true ↔ id ∈ l.map KsPtr.val := by
  simp [findClient, List.find?_isSome]

/-- A channel is found by its name. -/
theorem findChannel_val (cs : List KsChannelHeld) (channel : CStr) :
    findChannel (cs.map KsChannelHeld.val) channel =
      (findChannelHeld cs channel).map KsChannelHeld.val :=
  List.find?_map

/-- A change of a channel is seen through its node. -/
theorem onChannel_val (channel : CStr) {f : KsChannelHeld → Option KsChannelHeld}
    {g : KsPubsubChannel → Option KsPubsubChannel}
    (hf : ∀ c, g c.val = (f c).map KsChannelHeld.val) (cs : List KsChannelHeld) :
    onChannel channel g (cs.map KsChannelHeld.val) =
      (onChannelHeld channel f cs).map KsChannelHeld.val := by
  induction cs with
  | nil => rfl
  | cons c cs ih =>
    rw [List.map_cons, onChannel, onChannelHeld, ih, hf, apply_ite (List.map KsChannelHeld.val),
      List.map_append, List.map_cons]
    cases f c <;> rfl

/-- A write through a link exchanges what the channel that was found owns, and
nothing else. -/
theorem onChannelHeld_owned {channel : CStr} {cs : List KsChannelHeld} {c : KsChannelHeld}
    (hfind : findChannelHeld cs channel = some c) :
    ∃ rest, (cs.flatMap KsChannelHeld.owned).Perm (c.owned ++ rest) ∧
      ∀ f, ((onChannelHeld channel f cs).flatMap KsChannelHeld.owned).Perm
        ((f c).elim [] KsChannelHeld.owned ++ rest) := by
  unfold findChannelHeld at hfind
  induction cs with
  | nil => cases hfind
  | cons c' cs ih =>
    by_cases hname : c'.name.val = channel
    · rw [List.find?_cons_of_pos (by simpa using hname), Option.some.injEq] at hfind
      subst hfind
      refine ⟨cs.flatMap KsChannelHeld.owned, .refl _, fun f => ?_⟩
      rw [onChannelHeld, if_pos hname, List.flatMap_append]
      cases f c' <;> simp
    · rw [List.find?_cons_of_neg (by simpa using hname)] at hfind
      obtain ⟨rest, hcs, hwrite⟩ := ih hfind
      refine ⟨c'.owned ++ rest, ?_, fun f => ?_⟩
      · rw [List.flatMap_cons]
        exact (hcs.append_left _).trans (List.perm_append_comm_assoc ..)
      · rw [onChannelHeld, if_neg hname, List.flatMap_cons]
        exact ((hwrite f).append_left _).trans (List.perm_append_comm_assoc ..)

/-! ## what is owned -/

namespace KsPubsubHeld

variable {p : KsPubsubHeld} {xs ys : List Nat}

/-- The registry and its caller, who holds `xs`, have freed everything else. -/
def Owns (p : KsPubsubHeld) (xs : List Nat) : Prop := p.blocks.Owns (xs ++ p.owned)

/-- Walking the lists touches live blocks only. -/
theorem Owns.walk (h : p.Owns xs) : p.walk = p := by
  rw [KsPubsubHeld.walk, touchAll, Blocks.Owns.touchAll h (List.subset_append_right ..)]

/-- An allocation that is granted is owned by the caller. -/
theorem Owns.alloc {α : Type} (h : p.Owns xs) (grant : Bool) (val : α) :
    (p.alloc grant val).1.Owns ((p.alloc grant val).2.toList.map KsPtr.block ++ xs) := by
  cases grant with
  | false => exact h
  | true => exact Blocks.Owns.malloc h

/-- What the caller owns may be freed. -/
theorem Owns.freeAll (h : p.Owns (ys ++ xs)) : (p.freeAll ys).Owns xs :=
  Blocks.Owns.freeAll (Blocks.Owns.perm h (.of_eq (List.append_assoc ..)))

/-- An allocation changes no list. -/
theorem alloc_val {α : Type} (p : KsPubsubHeld) (grant : Bool) (v : α) :
    (p.alloc grant v).1.val = p.val := by
  cases grant <;> rfl

/-- A new registry owns nothing. -/
theorem owns_create {blocks : Blocks} (h : blocks.Owns []) : (ksPubsubCreateHeld blocks).Owns [] :=
  h.malloc

/-! ## the calls -/

/-- **`ks_pubsub_subscribe`** -/
theorem Owns.subscribe (h : p.Owns []) (channel : CStr) (id : UInt64) (heap : KsHeap) :
    (ksPubsubSubscribeHeld p channel id heap).1.Owns [] ∧
      (ksPubsubSubscribeHeld p channel id heap).map KsPubsubHeld.val (fun s => s) =
        ksPubsubSubscribe p.val channel id heap := by
  unfold ksPubsubSubscribeHeld ksPubsubSubscribe
  by_cases hname : channel.bytes = []
  · rw [if_pos hname, if_pos hname]
    exact ⟨h, rfl⟩
  rw [if_neg hname, if_neg hname, h.walk, show p.val.channels = p.channels.map _ from rfl,
    findChannel_val]
  dsimp only
  cases hfind : findChannelHeld p.channels channel with
  | some existing =>
    dsimp only [Option.map_some]
    by_cases hmem : id ∈ existing.subscribers.map KsPtr.val
    · rw [if_pos (show id ∈ existing.val.subscribers from hmem),
        if_pos ((findClient_isSome _ _).mpr hmem)]
      exact ⟨h, rfl⟩
    rw [if_neg (show id ∉ existing.val.subscribers from hmem),
      if_neg (mt (findClient_isSome _ _).mp hmem)]
    have halloc := h.alloc (subscriberGranted p.val heap) id
    generalize subscriberGranted p.val heap = grant at halloc ⊢
    cases grant with
    | false => exact ⟨h, rfl⟩
    | true =>
      have hval := onChannel_val channel
        (f := fun c => some { c with subscribers := ⟨p.blocks.malloc.2, id⟩ :: c.subscribers })
        (g := fun c => some { c with subscribers := id :: c.subscribers }) (fun _ => rfl) p.channels
      rw [if_neg (by simp), hval]
      obtain ⟨rest, hcs, hwrite⟩ := onChannelHeld_owned hfind
      refine ⟨Blocks.Owns.perm halloc ?_, rfl⟩
      change (p.blocks.malloc.2 :: p.block :: p.channels.flatMap KsChannelHeld.owned).Perm
        (p.block :: (onChannelHeld channel _ p.channels).flatMap KsChannelHeld.owned)
      -- the new node stands before those of its channel
      have hnew := hwrite fun c =>
        some { c with subscribers := ⟨p.blocks.malloc.2, id⟩ :: c.subscribers }
      exact (List.Perm.swap ..).trans (.cons _ ((hcs.cons _).trans hnew.symm))
  | none =>
    have halloc := ((h.alloc (heap .channelName) channel).alloc (heap .channelNode) ()).alloc
      (subscriberGranted p.val heap) id
    dsimp only [Option.map_none]
    rw [alloc_val, alloc_val]
    generalize subscriberGranted p.val heap = subscriber at halloc ⊢
    generalize heap .channelNode = node at halloc ⊢
    generalize heap .channelName = name at halloc ⊢
    -- what was granted is freed in the order of the source
    have hfree (a b c : List Nat) : (c ++ (b ++ (a ++ []))).Perm ((a ++ b ++ c) ++ []) :=
      List.perm_iff_count.mpr fun x => by
        simp only [List.count_append]
        omega
    have hheld := Blocks.Owns.perm halloc ((hfree _ _ _).append_right _)
    cases name with
    | false => cases node <;> cases subscriber <;> exact ⟨Owns.freeAll hheld, rfl⟩
    | true =>
      cases node with
      | false => cases subscriber <;> exact ⟨Owns.freeAll hheld, rfl⟩
      | true =>
        cases subscriber with
        | false => exact ⟨Owns.freeAll hheld, rfl⟩
        | true =>
          have hnew (name node subscriber block : Nat) (rest : List Nat) :
              (subscriber :: node :: name :: block :: rest).Perm
                (block :: subscriber :: name :: node :: rest) :=
            List.perm_iff_count.mpr fun x => by
              simp only [List.count_cons]
              omega
          exact ⟨Blocks.Owns.perm halloc (hnew ..), rfl⟩

/-- **`ks_pubsub_unsubscribe`** -/
theorem Owns.unsubscribe (h : p.Owns []) (channel : CStr) (id : UInt64) :
    (ksPubsubUnsubscribeHeld p channel id).1.Owns [] ∧
      (ksPubsubUnsubscribeHeld p channel id).map KsPubsubHeld.val (fun s => s) =
        ksPubsubUnsubscribe p.val channel id := by
  unfold ksPubsubUnsubscribeHeld ksPubsubUnsubscribe
  by_cases hname : channel.bytes = []
  · rw [if_pos hname, if_pos hname]
    exact ⟨h, rfl⟩
  rw [if_neg hname, if_neg hname, h.walk, show p.val.channels = p.channels.map _ from rfl,
    findChannel_val]
  dsimp only
  cases hfind : findChannelHeld p.channels channel with
  | none => exact ⟨h, rfl⟩
  | some matched =>
    have hperm := (perm_unlinkClient id matched.subscribers).map KsPtr.block
    have hmem := findClient_isSome id matched.subscribers
    dsimp only [Option.map_some]
    rw [show matched.val.subscribers = matched.subscribers.map _ from rfl, ← unlinkClient_val]
    cases hclient : findClient id matched.subscribers with
    | none =>
      rw [hclient] at hmem
      rw [if_pos fun hid => by simpa using hmem.mpr hid]
      exact ⟨h, rfl⟩
    | some removed =>
      rw [hclient] at hmem hperm
      rw [if_neg (not_not.mpr (hmem.mp rfl))]
      obtain ⟨rest, hcs, hwrite⟩ := onChannelHeld_owned hfind
      have hheld : p.blocks.Owns ([removed.block] ++ (matched.name.block :: matched.block ::
          ((unlinkClient id matched.subscribers).map KsPtr.block ++ (p.block :: rest)))) := by
        refine Blocks.Owns.perm h (((hcs.cons p.block).trans ?_))
        rw [List.perm_iff_count] at hperm ⊢
        intro x
        have hx := hperm x
        simp only [KsChannelHeld.owned, Option.toList_some, List.map_append, List.map_cons,
          List.map_nil, List.count_append, List.count_cons, List.count_nil] at hx ⊢
        omega
      have htouch : (p.freeAll [removed.block]).touchAll [matched.block] = p.freeAll [removed.block] := by
        rw [KsPubsubHeld.touchAll, KsPubsubHeld.freeAll, Blocks.Owns.touchAll hheld.freeAll (by simp)]
      dsimp only
      rw [htouch]
      have hfreed := hheld.freeAll
      cases hlast : unlinkClient id matched.subscribers with
      | nil =>
        rw [hlast] at hfreed
        refine ⟨?_, ?_⟩
        · exact Blocks.Owns.perm (@Blocks.Owns.freeAll _ _ [matched.name.block, matched.block] hfreed)
            ((hwrite fun _ => none).symm.cons p.block)
        · rw [List.map_nil, if_pos rfl,
            onChannel_val channel (f := fun _ => none) (g := fun _ => none) (fun _ => rfl) p.channels]
          rfl
      | cons s rest =>
        have hval := onChannel_val channel
          (f := fun c => some { c with subscribers := unlinkClient id c.subscribers })
          (g := fun c => some { c with subscribers := c.subscribers.erase id })
          (fun c => by simp only [KsChannelHeld.val, unlinkClient_val, Option.map_some]) p.channels
        rw [List.map_cons, if_neg (by simp), hval]
        have hkept := hwrite fun c => some { c with subscribers := unlinkClient id c.subscribers }
        refine ⟨Blocks.Owns.perm hfreed (.trans ?_ (hkept.symm.cons p.block)), rfl⟩
        rw [List.perm_iff_count]
        intro x
        simp only [KsChannelHeld.owned, Option.elim_some, List.count_append, List.count_cons,
          List.count_nil]
        omega

/-- What `destroy_channel` frees is what the list of channels owns. -/
theorem destroyChannels_owns {cs : List KsChannelHeld} {blocks : Blocks}
    (h : blocks.Owns (cs.flatMap KsChannelHeld.owned ++ xs)) : (destroyChannels cs blocks).Owns xs := by
  induction cs generalizing blocks with
  | nil => exact h
  | cons c cs ih =>
    rw [List.flatMap_cons, List.append_assoc] at h
    unfold destroyChannels
    rw [h.touchAll (List.subset_append_left ..)]
    exact ih h.freeAll

/-- **`ks_pubsub_destroy`** frees the registry. -/
theorem Owns.destroy (h : p.Owns []) : (ksPubsubDestroyHeld p).Owns [] :=
  Blocks.Owns.free (destroyChannels_owns (Blocks.Owns.perm h (List.perm_append_singleton _ _).symm))

/-- The loop of `ks_pubsub_remove_client`. -/
theorem removeClientLoop_owns (id : UInt64) {cs : List KsChannelHeld} {blocks : Blocks}
    {n : KsPubsubCounters} (h : blocks.Owns (xs ++ cs.flatMap KsChannelHeld.owned)) :
    (removeClientLoopHeld id cs blocks n).2.1.Owns
        (xs ++ (removeClientLoopHeld id cs blocks n).1.flatMap KsChannelHeld.owned) ∧
      ((removeClientLoopHeld id cs blocks n).1.map KsChannelHeld.val,
          (removeClientLoopHeld id cs blocks n).2.2) =
        removeClientLoop id (cs.map KsChannelHeld.val) n := by
  induction cs generalizing xs blocks n with
  | nil => exact ⟨h, rfl⟩
  | cons c cs ih =>
    have hperm := (perm_unlinkClient id c.subscribers).map KsPtr.block
    have hread : blocks.touchAll c.owned = blocks := h.touchAll (by simp)
    have hheld : blocks.Owns ((findClient id c.subscribers).toList.map KsPtr.block ++
        (c.name.block :: c.block :: ((unlinkClient id c.subscribers).map KsPtr.block ++
          (xs ++ cs.flatMap KsChannelHeld.owned)))) := by
      refine Blocks.Owns.perm h ?_
      rw [List.perm_iff_count] at hperm ⊢
      intro x
      have hx := hperm x
      simp only [KsChannelHeld.owned, List.flatMap_cons, List.map_append, List.count_append,
        List.count_cons, List.count_nil] at hx ⊢
      omega
    have htouch := @Blocks.Owns.touchAll _ _ [c.block] hheld.freeAll (by simp)
    unfold removeClientLoopHeld
    dsimp only
    rw [hread, htouch, List.map_cons, removeClientLoop,
      show c.val.subscribers = c.subscribers.map _ from rfl, ← unlinkClient_val,
      ← if_congr (findClient_isSome id c.subscribers) rfl rfl]
    generalize (if (findClient id c.subscribers).isSome = true then _ else n) = m
    have hfreed := hheld.freeAll
    generalize blocks.freeAll ((findClient id c.subscribers).toList.map KsPtr.block) = freed at hfreed ⊢
    cases hlast : unlinkClient id c.subscribers with
    | nil =>
      rw [hlast] at hfreed
      exact ih (@Blocks.Owns.freeAll _ _ [c.name.block, c.block] hfreed)
    | cons s rest =>
      rw [← hlast, if_neg (by simp [hlast]), if_neg (by simp [hlast])]
      have hrest : freed.Owns ((xs ++ KsChannelHeld.owned
          { c with subscribers := unlinkClient id c.subscribers }) ++
            cs.flatMap KsChannelHeld.owned) := by
        refine Blocks.Owns.perm hfreed (List.perm_iff_count.mpr fun x => ?_)
        simp only [KsChannelHeld.owned, List.count_append, List.count_cons, List.count_nil]
        omega
      obtain ⟨howns, hloop⟩ := ih (n := m) hrest
      refine ⟨Blocks.Owns.perm howns (.of_eq (List.append_assoc ..)), ?_⟩
      rw [← hloop]
      rfl

/-- **`ks_pubsub_remove_client`** -/
theorem Owns.removeClient (h : p.Owns []) (id : UInt64) :
    (ksPubsubRemoveClientHeld p id).1.Owns [] ∧
      (ksPubsubRemoveClientHeld p id).map KsPubsubHeld.val (fun n => n) =
        ksPubsubRemoveClient p.val id := by
  obtain ⟨howns, hloop⟩ := @removeClientLoop_owns [p.block] id p.channels p.blocks
    ⟨p.channelCount, p.subscriptionCount, 0⟩ h
  exact ⟨howns, congrArg (fun r : List KsPubsubChannel × KsPubsubCounters =>
    ((⟨r.1, r.2.channelCount, r.2.subscriptionCount⟩ : KsPubsub), r.2.removedCount)) hloop⟩

end KsPubsubHeld

/-! ## runs -/

/-- One call. -/
def ksPubsubStepHeld (p : KsPubsubHeld) : KsPubsubOp → Option (KsPubsubHeld × KsPubsubAnswer)
  | .subscribe channel id heap =>
    let (p, status) := ksPubsubSubscribeHeld p channel id heap
    some (p, .status status)
  | .unsubscribe channel id =>
    let (p, status) := ksPubsubUnsubscribeHeld p channel id
    some (p, .status status)
  | .removeClient id =>
    let (p, removed) := ksPubsubRemoveClientHeld p id
    some (p, .count removed.toNat)
  | .channelCount => some (p, .count p.channelCount.toNat)
  | .subscriptionCount => some (p, .count p.subscriptionCount.toNat)

namespace KsPubsubHeld

variable {p : KsPubsubHeld}

/-- **One call** answers as the registry without blocks, and leaks nothing. -/
theorem Owns.step (h : p.Owns []) (op : KsPubsubOp) :
    ∃ p' answer, ksPubsubStepHeld p op = some (p', answer) ∧
      ksPubsubStep p.val op = some (p'.val, answer) ∧ p'.Owns [] := by
  cases op with
  | subscribe channel id heap =>
    obtain ⟨howns, hval⟩ := h.subscribe channel id heap
    exact ⟨_, _, rfl, by rw [ksPubsubStep, ← hval]; rfl, howns⟩
  | unsubscribe channel id =>
    obtain ⟨howns, hval⟩ := h.unsubscribe channel id
    exact ⟨_, _, rfl, by rw [ksPubsubStep, ← hval]; rfl, howns⟩
  | removeClient id =>
    obtain ⟨howns, hval⟩ := h.removeClient id
    exact ⟨_, _, rfl, by rw [ksPubsubStep, ← hval]; rfl, howns⟩
  | channelCount => exact ⟨p, _, rfl, rfl, h⟩
  | subscriptionCount => exact ⟨p, _, rfl, rfl, h⟩

/-- **A run** answers as the registry without blocks, and leaks nothing. -/
theorem Owns.run (h : p.Owns []) (ops : List KsPubsubOp) :
    ∃ p' answers, Refinement.run ksPubsubStepHeld p ops = some (p', answers) ∧
      Refinement.run ksPubsubStep p.val ops = some (p'.val, answers) ∧ p'.Owns [] := by
  induction ops generalizing p with
  | nil => exact ⟨p, [], rfl, rfl, h⟩
  | cons op ops ih =>
    obtain ⟨p', answer, hheld, hplain, howns⟩ := h.step op
    obtain ⟨p'', answers, hrunHeld, hrunPlain, howns'⟩ := ih howns
    refine ⟨p'', answer :: answers, ?_, ?_, howns'⟩
    · simp only [Refinement.run, hheld, hrunHeld]
    · simp only [Refinement.run, hplain, hrunPlain]

/-- Nothing has been used or freed that was not there, the blocks that are there are
the nodes and the names of the registry, and `ks_pubsub_destroy` would leave each
block freed once. -/
structure FreesOnce (p : KsPubsubHeld) : Prop where
  owned : p.blocks.Owns p.owned
  clean : (ksPubsubDestroyHeld p).ledger.faults = []
  freed : (ksPubsubDestroyHeld p).ledger.taken.Perm (ksPubsubDestroyHeld p).ledger.given
  once : (ksPubsubDestroyHeld p).ledger.given.Nodup

end KsPubsubHeld

/-- **The registry frees what it allocates, once.**  Whichever allocations are refused, a
run of calls answers what `Kessel.Pubsub` answers and reaches a registry that
`ks_pubsub_destroy` can take down without a leak, a second free or a use of a
freed block. -/
theorem ksPubsub_frees_once (ops : List KsPubsubOp) :
    ∃ p answers, run ksPubsubStepHeld (ksPubsubCreateHeld .init) ops = some (p, answers) ∧
      run ksPubsubStep ksPubsubCreate ops = some (p.val, answers) ∧ p.FreesOnce := by
  obtain ⟨p, answers, hheld, hplain, howns⟩ :=
    (KsPubsubHeld.owns_create Blocks.owns_init).run ops
  obtain ⟨hclean, hfreed, honce⟩ := Blocks.Owns.settled howns.destroy
  exact ⟨p, answers, hheld, hplain, howns, hclean, hfreed, honce⟩

/-- One subscription: its node is freed before the name and the node of its channel. -/
example : (ksPubsubDestroyHeld (ksPubsubSubscribeHeld (ksPubsubCreateHeld .init) (.ofBytes [97]) 7
    fun _ => true).1).ledger.given = [4, 2, 3, 1] := by decide +kernel

end Kessel
