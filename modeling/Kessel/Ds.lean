import Kessel.Word
import Kessel.Probe
import Kessel.AssocMap

/-!
# Kessel.Ds

The open-addressed hash table (`ks_ds.c`): cached hashes, linear probing,
tombstones, and a rebuild that either doubles the array or only clears the
tombstones.

The functions are translated one by one.  Three things of the C code are
represented rather than copied:

* the callbacks `hash` and `equal` are a parameter `cb` of every function
  instead of fields that no function changes;
* the `for (;;)` of `ks_ds_find` gets as many probes as there are slots, and
  answers `none` when they do not end it, so every caller answers an `Option`
  (`Kessel.Ds.Invariant` shows that it is never `none`);
* the calls of `destroy_key` and `destroy_value` are recorded in `released`.
-/

namespace Kessel

open Word

/-! ## data -/

/-- `ks_ds_hash_fn` and `ks_ds_equal_fn`.  The equality callback is an
equivalence relation; nothing is assumed of the hash. -/
structure KsDsCallbacks (K : Type) where
  hash : K → UInt64
  equal : K → K → Bool
  isEquiv : AssocMap.IsEquiv equal

/-- `ks_ds_entry_t`: only an occupied slot has a hash, a key and a value. -/
inductive KsDsEntry (K V : Type) where
  | empty
  | tombstone
  | occupied (hash : UInt64) (key : K) (value : V)
  deriving Repr

namespace KsDsEntry

variable {K V : Type}

def isEmpty : KsDsEntry K V → Bool
  | .empty => true
  | _ => false

def isOccupied : KsDsEntry K V → Bool
  | .occupied _ _ _ => true
  | _ => false

/-- The key and value an occupied slot holds. -/
def live? : KsDsEntry K V → Option (K × V)
  | .occupied _ k v => some (k, v)
  | _ => none

end KsDsEntry

/-- `ks_ds_t`.  `released` is not a field of the C struct: it records the keys
and values handed to the destroy callbacks, in order. -/
structure KsDs (K V : Type) where
  entries : List (KsDsEntry K V)
  capacity : Nat
  size : Nat
  occupied : Nat
  released : List (K × V)
  deriving Repr

/-- `ks_ds_put_result_t` -/
inductive KsDsPutResult where
  | error
  | inserted
  | replaced
  deriving DecidableEq, Repr

/-- `sizeof(ks_ds_entry_t)` -/
def ksDsEntrySize : Nat := 32

/-- `KS_DS_INITIAL_CAPACITY` -/
def ksDsInitialCapacity : Nat := 8

namespace KsDs

variable {K V : Type}

/-- `table->entries[index]` -/
def entry (t : KsDs K V) (index : Nat) : KsDsEntry K V := t.entries.getD index .empty

/-- The contents of the table: its occupied slots in slot order. -/
def live (t : KsDs K V) : List (K × V) := t.entries.filterMap KsDsEntry.live?

end KsDs

section Functions

variable {K V : Type} (cb : KsDsCallbacks K)

/-! ## probing -/

def ksDsIndex (hash : UInt64) (capacity : Nat) : Nat := hash.toNat &&& (capacity - 1)

/-- `ks_ds_release`: destroy the key and the value of an entry. -/
def ksDsRelease (t : KsDs K V) : KsDsEntry K V → KsDs K V
  | .occupied _ k v => { t with released := t.released ++ [(k, v)] }
  | _ => t

/-- The loop of `ks_ds_find`; `firstTombstone` is `none` while the C variable is
`SIZE_MAX`. -/
def ksDsFindLoop (t : KsDs K V) (key : K) (hash : UInt64) :
    Nat → Nat → Option Nat → Option (Nat × Bool)
  | 0, _, _ => none
  | fuel + 1, index, firstTombstone =>
    let next := (index + 1) &&& (t.capacity - 1)
    match t.entry index with
    | .empty => some (firstTombstone.getD index, false)
    | .tombstone => ksDsFindLoop t key hash fuel next (firstTombstone.or (some index))
    | .occupied entryHash entryKey _ =>
      if entryHash = hash ∧ cb.equal entryKey key = true then some (index, true)
      else ksDsFindLoop t key hash fuel next firstTombstone

/-- `ks_ds_find`: a slot index and whether the key is there. -/
def ksDsFind (t : KsDs K V) (key : K) (hash : UInt64) : Option (Nat × Bool) :=
  ksDsFindLoop cb t key hash t.capacity (ksDsIndex hash t.capacity) none

/-! ## growing -/

/-- The copying loop of `ks_ds_rebuild` over the old entries. -/
def ksDsRebuildLoop : KsDs K V → List (KsDsEntry K V) → Option (KsDs K V)
  | t, [] => some t
  | t, .occupied hash key value :: rest =>
    match ksDsFind cb t key hash with
    | none => none
    | some (index, _) =>
      ksDsRebuildLoop { t with entries := t.entries.set index (.occupied hash key value) } rest
  | t, _ :: rest => ksDsRebuildLoop t rest

/-- `ks_ds_rebuild`.  The `calloc` succeeds when `grant` says so and its byte
size is representable. -/
def ksDsRebuild (t : KsDs K V) (capacity : Nat) (grant : Bool) : Option (KsDs K V × Bool) :=
  if grant = false ∨ capacity * ksDsEntrySize > sizeMax then some (t, false)
  else
    let fresh : KsDs K V :=
      { t with entries := List.replicate capacity .empty, capacity, occupied := t.size }
    match ksDsRebuildLoop cb fresh t.entries with
    | none => none
    | some t' => some (t', true)

/-- `ks_ds_prepare_insert` -/
def ksDsPrepareInsert (t : KsDs K V) (grant : Bool) : Option (KsDs K V × Bool) :=
  if u64 (u64 (t.occupied + 1) * 10) ≤ u64 (t.capacity * 7) then some (t, true)
  else if u64 (u64 (t.size + 1) * 10) > u64 (t.capacity * 7) then
    if t.capacity > sizeMax / 2 then some (t, false)
    else ksDsRebuild cb t (u64 (t.capacity * 2)) grant
  else ksDsRebuild cb t t.capacity grant

/-! ## the public functions -/

/-- `ks_ds_init`, once its `calloc` has succeeded. -/
def ksDsInit : KsDs K V where
  entries := List.replicate ksDsInitialCapacity .empty
  capacity := ksDsInitialCapacity
  size := 0
  occupied := 0
  released := []

/-- `ks_ds_destroy`: release every occupied slot, then `*table = (ks_ds_t){0}`. -/
def ksDsDestroy (t : KsDs K V) : KsDs K V where
  entries := []
  capacity := 0
  size := 0
  occupied := 0
  released := (t.entries.foldl ksDsRelease t).released

/-- `ks_ds_put` -/
def ksDsPut (t : KsDs K V) (key : K) (value : V) (grant : Bool) :
    Option (KsDs K V × KsDsPutResult) :=
  let hash := cb.hash key
  match ksDsFind cb t key hash with
  | none => none
  | some (index, true) =>
    let t := ksDsRelease t (t.entry index)
    some ({ t with entries := t.entries.set index (.occupied hash key value) }, .replaced)
  | some (_, false) =>
    match ksDsPrepareInsert cb t grant with
    | none => none
    | some (t, false) => some (t, .error)
    | some (t, true) =>
      match ksDsFind cb t key hash with
      | none => none
      | some (index, _) =>
        let occupied := if (t.entry index).isEmpty then u64 (t.occupied + 1) else t.occupied
        some ({ t with
          entries := t.entries.set index (.occupied hash key value)
          occupied
          size := u64 (t.size + 1) }, .inserted)

/-- `ks_ds_get`: the value, or `none` for `NULL`. -/
def ksDsGet (t : KsDs K V) (key : K) : Option (Option V) :=
  match ksDsFind cb t key (cb.hash key) with
  | none => none
  | some (_, false) => some none
  | some (index, true) => some ((t.entry index).live?.map Prod.snd)

/-- `ks_ds_contains` -/
def ksDsContains (t : KsDs K V) (key : K) : Option Bool :=
  match ksDsFind cb t key (cb.hash key) with
  | none => none
  | some (_, found) => some found

/-- `ks_ds_remove` -/
def ksDsRemove (t : KsDs K V) (key : K) : Option (KsDs K V × Bool) :=
  match ksDsFind cb t key (cb.hash key) with
  | none => none
  | some (_, false) => some (t, false)
  | some (index, true) =>
    let t := ksDsRelease t (t.entry index)
    some ({ t with
      entries := t.entries.set index .tombstone
      size := dec64 t.size }, true)

def ksDsSize (t : KsDs K V) : Nat := t.size

def ksDsCapacity (t : KsDs K V) : Nat := t.capacity

end Functions

end Kessel
