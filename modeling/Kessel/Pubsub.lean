import Kessel.Env
import Kessel.Word

/-!
# Kessel.Pubsub

The subscription registry (`ks_pubsub.c`): a list of channels, newest first,
each with the list of the clients subscribed to it, newest first.

The linked lists are Lean lists, a write through `channel_link` is `onChannel`.
The invariant of the registry, and who is subscribed to what, are in
`Kessel.Pubsub.Invariant`.
-/

namespace Kessel

/-- `ks_pubsub_channel_t` -/
structure KsPubsubChannel where
  name : CStr
  subscribers : List UInt64
  deriving DecidableEq, Repr

/-- `ks_pubsub_t` -/
structure KsPubsub where
  channels : List KsPubsubChannel
  channelCount : UInt64
  subscriptionCount : UInt64
  deriving DecidableEq, Repr

/-- `ks_pubsub_status` -/
inductive KsPubsubStatus where
  | ok
  | alreadySubscribed
  | notSubscribed
  | invalidArgument
  | noMemory
  deriving DecidableEq, Repr

/-- `sizeof(ks_pubsub_subscriber_t)` -/
def ksPubsubSubscriberSize : Nat := 16

/-- `find_channel` -/
def findChannel (channels : List KsPubsubChannel) (channel : CStr) : Option KsPubsubChannel :=
  channels.find? fun c => c.name = channel

/-- Write through the link of the first channel of that name; `none` unlinks it. -/
def onChannel (channel : CStr) (f : KsPubsubChannel → Option KsPubsubChannel) :
    List KsPubsubChannel → List KsPubsubChannel
  | [] => []
  | c :: cs => if c.name = channel then (f c).toList ++ cs else c :: onChannel channel f cs

/-- Does `malloc(sizeof(*subscriber))` succeed?  The nodes of the registry do not
overlap, so there cannot be more of them than the address space holds. -/
def subscriberGranted (pubsub : KsPubsub) (heap : KsHeap) : Bool :=
  heap .subscriberNode &&
    decide (((pubsub.channels.map fun c => c.subscribers.length).sum + 1) * ksPubsubSubscriberSize ≤
      Word.sizeMax)

/-- `ks_pubsub_create`, once it has been allocated. -/
def ksPubsubCreate : KsPubsub := ⟨[], 0, 0⟩

/-- `ks_pubsub_subscribe` -/
def ksPubsubSubscribe (pubsub : KsPubsub) (channel : CStr) (clientId : UInt64) (heap : KsHeap) :
    KsPubsub × KsPubsubStatus :=
  if channel.bytes = [] then (pubsub, .invalidArgument)
  else
    match findChannel pubsub.channels channel with
    | some existing =>
      if clientId ∈ existing.subscribers then (pubsub, .alreadySubscribed)
      else if subscriberGranted pubsub heap = false then (pubsub, .noMemory)
      else
        ({ pubsub with
            channels := onChannel channel
              (fun c => some { c with subscribers := clientId :: c.subscribers }) pubsub.channels
            subscriptionCount := pubsub.subscriptionCount + 1 }, .ok)
    | none =>
      if heap .channelName = false ∨ heap .channelNode = false ∨
          subscriberGranted pubsub heap = false then
        (pubsub, .noMemory)
      else
        ({ channels := ⟨channel, [clientId]⟩ :: pubsub.channels
           channelCount := pubsub.channelCount + 1
           subscriptionCount := pubsub.subscriptionCount + 1 }, .ok)

/-- `ks_pubsub_unsubscribe` -/
def ksPubsubUnsubscribe (pubsub : KsPubsub) (channel : CStr) (clientId : UInt64) :
    KsPubsub × KsPubsubStatus :=
  if channel.bytes = [] then (pubsub, .invalidArgument)
  else
    match findChannel pubsub.channels channel with
    | none => (pubsub, .notSubscribed)
    | some matched =>
      if clientId ∉ matched.subscribers then (pubsub, .notSubscribed)
      else if matched.subscribers.erase clientId = [] then
        ({ channels := onChannel channel (fun _ => none) pubsub.channels
           channelCount := pubsub.channelCount - 1
           subscriptionCount := pubsub.subscriptionCount - 1 }, .ok)
      else
        ({ pubsub with
            channels := onChannel channel
              (fun c => some { c with subscribers := c.subscribers.erase clientId }) pubsub.channels
            subscriptionCount := pubsub.subscriptionCount - 1 }, .ok)

/-- The numbers that `ks_pubsub_remove_client` keeps. -/
structure KsPubsubCounters where
  channelCount : UInt64
  subscriptionCount : UInt64
  removedCount : UInt64
  deriving DecidableEq, Repr

/-- The loop of `ks_pubsub_remove_client`. -/
def removeClientLoop (clientId : UInt64) :
    List KsPubsubChannel → KsPubsubCounters → List KsPubsubChannel × KsPubsubCounters
  | [], n => ([], n)
  | c :: cs, n =>
    let subscribers := c.subscribers.erase clientId
    let n :=
      if clientId ∈ c.subscribers then
        { n with subscriptionCount := n.subscriptionCount - 1, removedCount := n.removedCount + 1 }
      else n
    if subscribers = [] then
      removeClientLoop clientId cs { n with channelCount := n.channelCount - 1 }
    else
      let (cs, n) := removeClientLoop clientId cs n
      ({ c with subscribers } :: cs, n)

/-- `ks_pubsub_remove_client` -/
def ksPubsubRemoveClient (pubsub : KsPubsub) (clientId : UInt64) : KsPubsub × UInt64 :=
  let (channels, n) := removeClientLoop clientId pubsub.channels
    ⟨pubsub.channelCount, pubsub.subscriptionCount, 0⟩
  (⟨channels, n.channelCount, n.subscriptionCount⟩, n.removedCount)

/-- The loop of `ks_pubsub_publish`, with the callback and its context. -/
def publishLoop {σ : Type} (deliver : σ → UInt64 → CStr → List UInt8 → σ × Bool) (name : CStr)
    (message : List UInt8) : List UInt64 → σ → UInt64 → σ × UInt64
  | [], context, recipients => (context, recipients)
  | id :: ids, context, recipients =>
    let (context, accepted) := deliver context id name message
    publishLoop deliver name message ids context (if accepted then recipients + 1 else recipients)

/-- `ks_pubsub_publish` -/
def ksPubsubPublish {σ : Type} (pubsub : KsPubsub) (channel : CStr) (message : List UInt8)
    (deliver : σ → UInt64 → CStr → List UInt8 → σ × Bool) (context : σ) : σ × UInt64 :=
  if channel.bytes = [] then (context, 0)
  else
    match findChannel pubsub.channels channel with
    | none => (context, 0)
    | some matched => publishLoop deliver matched.name message matched.subscribers context 0

/-- `ks_pubsub_channel_count` -/
def ksPubsubChannelCount (pubsub : KsPubsub) : UInt64 := pubsub.channelCount

/-- `ks_pubsub_subscription_count` -/
def ksPubsubSubscriptionCount (pubsub : KsPubsub) : UInt64 := pubsub.subscriptionCount

end Kessel
