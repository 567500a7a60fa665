import Kessel.Env
import Kessel.Ds.Table

/-!
# Kessel.Kv

The key-value store (`ks_kv.c`) and its deadlines (`ks_ttl.c`): string keys,
binary values, absolute deadlines in milliseconds with `0` for none, lazy
expiration on every access, and a budgeted reaper that walks the slots of the
table.
-/

namespace Kessel

open Word

/-! ## `ks_ttl.c` -/

/-- `ks_ttl_deadline`: the deadline `ttlSeconds` from `nowMs`, unless there is
none to compute or it does not fit 64 bits. -/
def ksTtlDeadline (nowMs ttlSeconds : UInt64) : Option Nat :=
  if ttlSeconds = 0 ∨ ttlSeconds.toNat > (sizeMax - nowMs.toNat) / 1000 then none
  else some (u64 (nowMs.toNat + u64 (ttlSeconds.toNat * 1000)))

/-! ## data -/

/-- `ks_kv_value_t`; `size` is the length of `data`, which is stored without its
trailing NUL. -/
structure KsKvValue where
  data : List UInt8
  deadlineMs : Nat
  deriving DecidableEq, Repr

/-- `sizeof(ks_kv_value_t)` -/
def ksKvValueSize : Nat := 16

/-- `ks_kv_set_result_t` -/
inductive KsKvSetResult where
  | error
  | inserted
  | replaced
  deriving DecidableEq, Repr

/-- `ks_kv_expire_result_t` -/
inductive KsKvExpireResult where
  | error
  | missing
  | updated
  deriving DecidableEq, Repr

/-- `ks_kv_hash` -/
def ksKvHash (key : CStr) : UInt64 :=
  key.bytes.foldl (fun hash b => (hash ^^^ b.toUInt64) * 1099511628211) 14695981039346656037

/-- `ks_kv_equal`: `strcmp(left, right) == 0` -/
def ksKvEqual (left right : CStr) : Bool := left = right

def ksKvCallbacks : KsDsCallbacks CStr where
  hash := ksKvHash
  equal := ksKvEqual
  isEquiv :=
    { refl := by simp [ksKvEqual]
      symm := by simp +contextual [ksKvEqual]
      trans := by simp +contextual [ksKvEqual] }

/-- `ks_kv_t`; the clock is an argument of the operations. -/
structure KsKv where
  entries : KsDsTable ksKvCallbacks KsKvValue
  reaperCursor : Nat

/-! ## the functions -/

/-- `ks_kv_copy_value` -/
def ksKvCopyValue (value : List UInt8) (deadlineMs : Nat) (heap : KsHeap) : Option KsKvValue :=
  if value.length > sizeMax - ksKvValueSize - 1 then none
  else if heap .valueCopy = false then none
  else some ⟨value, deadlineMs⟩

/-- `ks_kv_copy_key` -/
def ksKvCopyKey (key : CStr) (heap : KsHeap) : Option CStr :=
  if heap .keyCopy = false then none else some key

/-- `ks_kv_init_with_clock`, once the table has been allocated. -/
def ksKvInit : KsKv where
  entries := .init
  reaperCursor := 0

/-- Has the value a deadline that is not after `now`? -/
def KsKvValue.expired (v : KsKvValue) (now : UInt64) : Bool :=
  v.deadlineMs ≠ 0 && decide (v.deadlineMs ≤ now.toNat)

/-- `ks_kv_find_live` -/
def ksKvFindLive (s : KsKv) (key : CStr) (now : UInt64) : KsKv × Option KsKvValue :=
  match s.entries.get key with
  | none => (s, none)
  | some value =>
    if value.expired now then ({ s with entries := (s.entries.remove key).1 }, none)
    else (s, some value)

/-- `ks_kv_set_ex` -/
def ksKvSetEx (s : KsKv) (key : CStr) (value : List UInt8) (ttlSeconds : UInt64) (heap : KsHeap)
    (now : KsReadings) : KsKv × KsKvSetResult :=
  let s := (ksKvFindLive s key now.first).1
  let deadlineMs? :=
    if ttlSeconds ≠ 0 then ksTtlDeadline now.second ttlSeconds else some 0
  match deadlineMs? with
  | none => (s, .error)
  | some deadlineMs =>
    match ksKvCopyKey key heap, ksKvCopyValue value deadlineMs heap with
    | some keyCopy, some valueCopy =>
      let (entries, result) := s.entries.put keyCopy valueCopy (heap .tableEntries)
      match result with
      | .error => ({ s with entries }, .error)
      | .inserted => ({ s with entries }, .inserted)
      | .replaced => ({ s with entries }, .replaced)
    | _, _ => (s, .error)

/-- `ks_kv_set` -/
def ksKvSet (s : KsKv) (key : CStr) (value : List UInt8) (heap : KsHeap) (now : KsReadings) :
    KsKv × KsKvSetResult :=
  ksKvSetEx s key value 0 heap now

/-- `ks_kv_get`: the bytes of the value, or `none` for `NULL`. -/
def ksKvGet (s : KsKv) (key : CStr) (now : KsReadings) : KsKv × Option (List UInt8) :=
  let (s, value) := ksKvFindLive s key now.first
  (s, value.map KsKvValue.data)

/-- `ks_kv_delete` -/
def ksKvDelete (s : KsKv) (key : CStr) (now : KsReadings) : KsKv × Bool :=
  match ksKvFindLive s key now.first with
  | (s, none) => (s, false)
  | (s, some _) =>
    let (entries, removed) := s.entries.remove key
    ({ s with entries }, removed)

/-- `ks_kv_exists` -/
def ksKvExists (s : KsKv) (key : CStr) (now : KsReadings) : KsKv × Bool :=
  let (s, value) := ksKvFindLive s key now.first
  (s, value.isSome)

/-- `ks_kv_expire` -/
def ksKvExpire (s : KsKv) (key : CStr) (ttlSeconds : UInt64) (now : KsReadings) :
    KsKv × KsKvExpireResult :=
  match ksKvFindLive s key now.first with
  | (s, none) => (s, .missing)
  | (s, some _) =>
    if ttlSeconds = 0 then
      let (entries, removed) := s.entries.remove key
      ({ s with entries }, if removed then .updated else .missing)
    else
      match ksTtlDeadline now.second ttlSeconds with
      | none => (s, .error)
      | some deadlineMs =>
        -- `value->deadline_ms = deadline_ms`
        ({ s with entries := s.entries.update key fun v => { v with deadlineMs } }, .updated)

/-- `ks_kv_ttl` -/
def ksKvTtl (s : KsKv) (key : CStr) (now : KsReadings) : KsKv × Int :=
  match ksKvFindLive s key now.first with
  | (s, none) => (s, -2)
  | (s, some value) =>
    if value.deadlineMs = 0 then (s, -1)
    else if value.deadlineMs ≤ now.second.toNat then
      ({ s with entries := (s.entries.remove key).1 }, -2)
    else (s, i64 ((value.deadlineMs - now.second.toNat) / 1000))

/-- One turn of the loop of `ks_kv_reap`, and whether it removed a key. -/
def ksKvReapStep (s : KsKv) (now : UInt64) : KsKv × Bool :=
  let cursor := if s.reaperCursor ≥ s.entries.table.capacity then 0 else s.reaperCursor
  let s := { s with reaperCursor := cursor + 1 }
  match s.entries.table.entry cursor with
  | .occupied _ key value =>
    if value.expired now then
      let (entries, removed) := s.entries.remove key
      ({ s with entries }, removed)
    else (s, false)
  | _ => (s, false)

/-- The loop of `ks_kv_reap`: `budget` more slots, `removed` keys so far. -/
def ksKvReapLoop (now : UInt64) : Nat → KsKv → Nat → KsKv × Nat
  | 0, s, removed => (s, removed)
  | budget + 1, s, removed =>
    let (s, gone) := ksKvReapStep s now
    ksKvReapLoop now budget s (if gone then removed + 1 else removed)

/-- `ks_kv_reap` -/
def ksKvReap (s : KsKv) (budget : Nat) (now : UInt64) : KsKv × Nat := ksKvReapLoop now budget s 0

/-- `ks_kv_size` -/
def ksKvSize (s : KsKv) (now : UInt64) : KsKv × Nat :=
  let s := (ksKvReap s s.entries.table.capacity now).1
  (s, ksDsSize s.entries.table)

end Kessel
