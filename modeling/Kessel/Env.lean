import Kessel.Mem

/-!
# Kessel.Env

What the program gets from outside: the answers of the allocator and of the
clocks.  Every function that calls `malloc`, `calloc`, `now` or `time` takes
the answers of its own calls as an argument, so a statement about all
environments is a statement about every failure and every clock.
-/

namespace Kessel

/-- The places of the source that allocate. -/
inductive KsAllocSite where
  /-- `malloc(size)` in `ks_kv_copy_key` -/
  | keyCopy
  /-- `malloc(sizeof(*copy) + value_size + 1U)` in `ks_kv_copy_value` -/
  | valueCopy
  /-- `calloc(capacity, sizeof(*entries))` in `ks_ds_rebuild` -/
  | tableEntries
  /-- `malloc(length + 1U)` in `copy_string` -/
  | channelName
  /-- `malloc(sizeof(*new_channel))` in `ks_pubsub_subscribe` -/
  | channelNode
  /-- `malloc(sizeof(*subscriber))` in `ks_pubsub_subscribe` -/
  | subscriberNode
  /-- `malloc(KS_INPUT_CAP + 1u)` in `client_init` -/
  | clientInput
  /-- `malloc(KS_OUTPUT_CAP)` in `client_init` -/
  | clientOutput
  deriving DecidableEq, Repr

/-- Which allocations of one operation succeed. -/
abbrev KsHeap := KsAllocSite → Bool

/-- The readings of the store's clock during one operation: the first is the one
of `ks_kv_find_live`, the second the one the operation makes itself. -/
structure KsReadings where
  first : UInt64
  second : UInt64
  deriving DecidableEq, Repr

/-- A clock that does not advance during the operation. -/
def KsReadings.constant (now : UInt64) : KsReadings := ⟨now, now⟩

end Kessel
