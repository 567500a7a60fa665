import Kessel.Ds.Held
import Kessel.Kv.Live

/-!
# Kessel.Kv.Held

The blocks of the key-value store (`ks_kv.c`).

The functions of `Kessel.Kv` once more, with the blocks behind their pointers:
the copies that `ks_kv_set_ex` makes, what it frees when it fails, and every use
of a block.  `KsKvHeld.Keeps` relates such a store to the one of `Kessel.Kv`;
each function has one lemma that says it keeps the relation and answers the
same, and `ksKv_frees_once` follows it through whole runs.
-/

namespace Kessel

open Word Refinement

/-- `ks_kv_hash` and `ks_kv_equal`, on the keys as the table has them. -/
def ksKvPtrCallbacks : KsDsCallbacks (KsPtr CStr) where
  hash key := ksKvHash key.val
  equal left right := ksKvEqual left.val right.val
  isEquiv :=
    { refl := fun key => ksKvCallbacks.isEquiv.refl key.val
      symm := fun h => ksKvCallbacks.isEquiv.symm h
      trans := fun h₁ h₂ => ksKvCallbacks.isEquiv.trans h₁ h₂ }

/-- The callbacks of the store look through the pointers. -/
theorem renames_ksKvPtrCallbacks : Renames ksKvPtrCallbacks ksKvCallbacks KsPtr.val :=
  ⟨fun _ => rfl, fun _ _ => rfl⟩

/-- `ks_kv_t`, with its blocks. -/
structure KsKvHeld where
  entries : KsDsHeld ksKvPtrCallbacks KsKvValue
  reaperCursor : Nat

/-- The key that a caller passes, in memory of its own. -/
def lent (key : CStr) : KsPtr CStr := ⟨0, key⟩

namespace KsKvHeld

/-- A copy in a new block, unless its `malloc` is refused. -/
def alloc {α : Type} (s : KsKvHeld) (copy : Option α) : KsKvHeld × Option (KsPtr α) :=
  match copy with
  | none => (s, none)
  | some val =>
    let (blocks, block) := s.entries.blocks.malloc
    ({ s with entries := { s.entries with blocks } }, some ⟨block, val⟩)

def freeAll (s : KsKvHeld) (xs : List Nat) : KsKvHeld :=
  { s with entries := { s.entries with blocks := s.entries.blocks.freeAll xs } }

/-- A read of a value. -/
def touch (s : KsKvHeld) (value : KsPtr KsKvValue) : KsKvHeld :=
  { s with entries := s.entries.touch value }

end KsKvHeld

/-! ## the functions -/

/-- `ks_kv_init_with_clock`, once the table has been allocated. -/
def ksKvInitHeld (blocks : Blocks) : KsKvHeld where
  entries := ksDsInitHeld blocks
  reaperCursor := 0

/-- `ks_kv_destroy` -/
def ksKvDestroyHeld (s : KsKvHeld) : Blocks := ksDsDestroyHeld s.entries

/-- `ks_kv_find_live` -/
def ksKvFindLiveHeld (s : KsKvHeld) (key : CStr) (now : UInt64) :
    KsKvHeld × Option (KsPtr KsKvValue) :=
  let (entries, value) := ksDsGetHeld s.entries (lent key)
  let s := { s with entries }
  match value with
  | none => (s, none)
  | some value =>
    let s := s.touch value
    if value.val.expired now then
      ({ s with entries := (ksDsRemoveHeld s.entries (lent key)).1 }, none)
    else (s, some value)

/-- `ks_kv_set_ex` -/
def ksKvSetExHeld (s : KsKvHeld) (key : CStr) (value : List UInt8) (ttlSeconds : UInt64)
    (heap : KsHeap) (now : KsReadings) : KsKvHeld × KsKvSetResult :=
  let s := (ksKvFindLiveHeld s key now.first).1
  let deadlineMs? :=
    if ttlSeconds ≠ 0 then ksTtlDeadline now.second ttlSeconds else some 0
  match deadlineMs? with
  | none => (s, .error)
  | some deadlineMs =>
    let (s, keyCopy) := s.alloc (ksKvCopyKey key heap)
    let (s, valueCopy) := s.alloc (ksKvCopyValue value deadlineMs heap)
    match keyCopy, valueCopy with
    | some keyCopy, some valueCopy =>
      let (entries, result) := ksDsPutHeld s.entries keyCopy valueCopy (heap .tableEntries)
      let s := { s with entries }
      match result with
      | .error => (s.freeAll [keyCopy.block, valueCopy.block], .error)
      | .inserted => (s, .inserted)
      | .replaced => (s, .replaced)
    | keyCopy, valueCopy =>
      (s.freeAll (keyCopy.toList.map KsPtr.block ++ valueCopy.toList.map KsPtr.block), .error)

/-- `ks_kv_set` -/
def ksKvSetHeld (s : KsKvHeld) (key : CStr) (value : List UInt8) (heap : KsHeap)
    (now : KsReadings) : KsKvHeld × KsKvSetResult :=
  ksKvSetExHeld s key value 0 heap now

/-- `ks_kv_get`: a pointer into the block of the value, or `none` for `NULL`. -/
def ksKvGetHeld (s : KsKvHeld) (key : CStr) (now : KsReadings) :
    KsKvHeld × Option (KsPtr (List UInt8)) :=
  match ksKvFindLiveHeld s key now.first with
  | (s, none) => (s, none)
  | (s, some value) => (s.touch value, some ⟨value.block, value.val.data⟩)

/-- `ks_kv_delete` -/
def ksKvDeleteHeld (s : KsKvHeld) (key : CStr) (now : KsReadings) : KsKvHeld × Bool :=
  match ksKvFindLiveHeld s key now.first with
  | (s, none) => (s, false)
  | (s, some _) =>
    let (entries, removed) := ksDsRemoveHeld s.entries (lent key)
    ({ s with entries }, removed)

/-- `ks_kv_exists` -/
def ksKvExistsHeld (s : KsKvHeld) (key : CStr) (now : KsReadings) : KsKvHeld × Bool :=
  let (s, value) := ksKvFindLiveHeld s key now.first
  (s, value.isSome)

/-- `ks_kv_expire` -/
def ksKvExpireHeld (s : KsKvHeld) (key : CStr) (ttlSeconds : UInt64) (now : KsReadings) :
    KsKvHeld × KsKvExpireResult :=
  match ksKvFindLiveHeld s key now.first with
  | (s, none) => (s, .missing)
  | (s, some value) =>
    if ttlSeconds = 0 then
      let (entries, removed) := ksDsRemoveHeld s.entries (lent key)
      ({ s with entries }, if removed then .updated else .missing)
    else
      match ksTtlDeadline now.second ttlSeconds with
      | none => (s, .error)
      | some deadlineMs =>
        -- `value->deadline_ms = deadline_ms`
        ({ s with entries := s.entries.write (lent key) value fun v => { v with deadlineMs } },
          .updated)

/-- `ks_kv_ttl` -/
def ksKvTtlHeld (s : KsKvHeld) (key : CStr) (now : KsReadings) : KsKvHeld × Int :=
  match ksKvFindLiveHeld s key now.first with
  | (s, none) => (s, -2)
  | (s, some value) =>
    let s := s.touch value
    if value.val.deadlineMs = 0 then (s, -1)
    else if value.val.deadlineMs ≤ now.second.toNat then
      ({ s with entries := (ksDsRemoveHeld s.entries (lent key)).1 }, -2)
    else (s, i64 ((value.val.deadlineMs - now.second.toNat) / 1000))

/-- One turn of the loop of `ks_kv_reap`, which passes the key of the slot. -/
def ksKvReapStepHeld (s : KsKvHeld) (now : UInt64) : KsKvHeld × Bool :=
  let cursor := if s.reaperCursor ≥ s.entries.table.table.capacity then 0 else s.reaperCursor
  let s : KsKvHeld := { entries := s.entries.probe, reaperCursor := cursor + 1 }
  match s.entries.table.table.entry cursor with
  | .occupied _ key value =>
    let s := s.touch value
    if value.val.expired now then
      let (entries, removed) := ksDsRemoveHeld s.entries key
      ({ s with entries }, removed)
    else (s, false)
  | _ => (s, false)

/-- The loop of `ks_kv_reap`. -/
def ksKvReapLoopHeld (now : UInt64) : Nat → KsKvHeld → Nat → KsKvHeld × Nat
  | 0, s, removed => (s, removed)
  | budget + 1, s, removed =>
    let (s, gone) := ksKvReapStepHeld s now
    ksKvReapLoopHeld now budget s (if gone then removed + 1 else removed)

/-- `ks_kv_reap` -/
def ksKvReapHeld (s : KsKvHeld) (budget : Nat) (now : UInt64) : KsKvHeld × Nat :=
  ksKvReapLoopHeld now budget s 0

/-- `ks_kv_size` -/
def ksKvSizeHeld (s : KsKvHeld) (now : UInt64) : KsKvHeld × Nat :=
  let s := (ksKvReapHeld s s.entries.table.table.capacity now).1
  (s, ksDsSize s.entries.table.table)

/-- One call of the store. -/
def ksKvCallHeld (s : KsKvHeld) (c : KsKvTimedCall) : KsKvHeld × KsKvAnswer :=
  match c.op with
  | .set key value => (ksKvSetHeld s key value c.heap c.clock).map id .set
  | .setEx key value ttl => (ksKvSetExHeld s key value ttl c.heap c.clock).map id .set
  | .get key => (ksKvGetHeld s key c.clock).map id fun value => .get (value.map KsPtr.val)
  | .delete key => (ksKvDeleteHeld s key c.clock).map id .delete
  | .exists key => (ksKvExistsHeld s key c.clock).map id .exists
  | .expire key ttl => (ksKvExpireHeld s key ttl c.clock).map id .expire
  | .ttl key => (ksKvTtlHeld s key c.clock).map id .ttl
  | .reap budget => (ksKvReapHeld s budget c.clock.first).map id .reap
  | .size => (ksKvSizeHeld s c.clock.first).map id .size

/-! ## the invariant -/

/-- The store and its caller, who holds `xs`, have freed everything else, and it
shows the contents of `k`. -/
structure KsKvHeld.Keeps (s : KsKvHeld) (xs : List Nat) (k : KsKv) : Prop where
  owns : s.entries.Owns xs
  shows : s.entries.Shows k.entries
  cursor : s.reaperCursor = k.reaperCursor

namespace KsKvHeld.Keeps

variable {s : KsKvHeld} {xs ys : List Nat} {k : KsKv} {key : CStr} {value : KsPtr KsKvValue}

/-- A new store keeps nothing. -/
theorem init {blocks : Blocks} (h : blocks.Owns xs) : (ksKvInitHeld blocks).Keeps xs ksKvInit :=
  ⟨KsDsHeld.owns_init h, by
    simp [ksKvInitHeld, ksDsInitHeld, ksKvInit, KsDsHeld.Shows, KsDsTable.init, ksDsInit, KsDs.map], rfl⟩

/-- A lookup through a borrowed key. -/
theorem table_get (h : s.Keeps xs k) (key : CStr) :
    k.entries.get key = (s.entries.table.get (lent key)).map KsPtr.val :=
  h.shows.get renames_ksKvPtrCallbacks (lent key)

/-- A value that is found may be read. -/
theorem touch {key : KsPtr CStr} (h : s.Keeps xs k) (hget : s.entries.table.get key = some value) :
    s.touch value = s := by
  rw [KsKvHeld.touch, h.owns.touch hget]

/-- An allocation that is granted is owned by the caller. -/
theorem alloc {α : Type} (h : s.Keeps xs k) (copy : Option α) :
    (s.alloc copy).1.Keeps ((s.alloc copy).2.toList.map KsPtr.block ++ xs) k ∧
      (s.alloc copy).2.map KsPtr.val = copy := by
  cases copy with
  | none => exact ⟨h, rfl⟩
  | some val => exact ⟨⟨Blocks.Owns.malloc h.owns, h.shows, h.cursor⟩, rfl⟩

/-- What the caller owns may be freed. -/
theorem freeAll (h : s.Keeps (ys ++ xs) k) : (s.freeAll ys).Keeps xs k :=
  ⟨Blocks.Owns.freeAll (Blocks.Owns.perm h.owns (.of_eq (List.append_assoc ..))), h.shows, h.cursor⟩

theorem perm (h : s.Keeps xs k) (hp : xs.Perm ys) : s.Keeps ys k :=
  ⟨Blocks.Owns.perm h.owns (hp.append_right _), h.shows, h.cursor⟩

/-- A removal frees the key and the value of the store. -/
theorem remove (h : s.Keeps xs k) (key : KsPtr CStr) :
    KsKvHeld.Keeps { s with entries := (ksDsRemoveHeld s.entries key).1 } xs
        { k with entries := (k.entries.remove key.val).1 } ∧
      (ksDsRemoveHeld s.entries key).2 = (k.entries.remove key.val).2 :=
  have hremove := h.shows.remove renames_ksKvPtrCallbacks key
  ⟨⟨h.owns.remove key, hremove.1, h.cursor⟩, hremove.2⟩

/-- The table takes the copies over, unless it has no room. -/
theorem put {key : KsPtr CStr} (h : s.Keeps (key.block :: value.block :: xs) k) (grant : Bool) :
    KsKvHeld.Keeps { s with entries := (ksDsPutHeld s.entries key value grant).1 }
        (if (ksDsPutHeld s.entries key value grant).2 = .error then key.block :: value.block :: xs
          else xs)
        { k with entries := (k.entries.put key.val value.val grant).1 } ∧
      (ksDsPutHeld s.entries key value grant).2 = (k.entries.put key.val value.val grant).2 :=
  have hput := h.shows.put renames_ksKvPtrCallbacks key value grant
  ⟨⟨h.owns.put grant, hput.1, h.cursor⟩, hput.2⟩

/-! ## the calls -/

/-- A value that `ks_kv_find_live` returns is the one of the table. -/
theorem findLive (h : s.Keeps xs k) (key : CStr) (now : UInt64) :
    (ksKvFindLiveHeld s key now).1.Keeps xs (ksKvFindLive k key now).1 ∧
      (ksKvFindLive k key now).2 = (ksKvFindLiveHeld s key now).2.map KsPtr.val ∧
      ∀ value, (ksKvFindLiveHeld s key now).2 = some value →
        (ksKvFindLiveHeld s key now).1.entries.table.get (lent key) = some value := by
  unfold ksKvFindLiveHeld ksKvFindLive ksDsGetHeld
  rw [h.table_get key, h.owns.probe]
  cases hget : s.entries.table.get (lent key) with
  | none => exact ⟨h, rfl, nofun⟩
  | some value =>
    dsimp only [Option.map_some]
    rw [h.touch hget]
    by_cases hexpired : value.val.expired now = true
    · rw [if_pos hexpired, if_pos hexpired]
      exact ⟨(h.remove (lent key)).1, rfl, nofun⟩
    · rw [if_neg hexpired, if_neg hexpired]
      refine ⟨h, rfl, fun v hv => ?_⟩
      rw [← hv, hget]

/-- Either store finds no live key, or both find the same value. -/
theorem findLive_cases (h : s.Keeps xs k) (key : CStr) (now : UInt64) :
    (∃ s' k', ksKvFindLiveHeld s key now = (s', none) ∧ ksKvFindLive k key now = (k', none) ∧
      s'.Keeps xs k') ∨
    ∃ s' k' value, ksKvFindLiveHeld s key now = (s', some value) ∧
      ksKvFindLive k key now = (k', some value.val) ∧ s'.Keeps xs k' ∧
      s'.entries.table.get (lent key) = some value := by
  obtain ⟨hkeeps, hvalue, hget⟩ := h.findLive key now
  generalize ksKvFindLiveHeld s key now = found at hkeeps hvalue hget ⊢
  generalize ksKvFindLive k key now = found' at hkeeps hvalue ⊢
  obtain ⟨s', _ | value⟩ := found <;> obtain ⟨k', _⟩ := found' <;> cases hvalue
  · exact .inl ⟨s', k', rfl, rfl, hkeeps⟩
  · exact .inr ⟨s', k', value, rfl, rfl, hkeeps, hget value rfl⟩

/-- **`ks_kv_set_ex`** hands both copies to the store, or frees them. -/
theorem setEx (h : s.Keeps xs k) (key : CStr) (value : List UInt8) (ttlSeconds : UInt64)
    (heap : KsHeap) (now : KsReadings) :
    (ksKvSetExHeld s key value ttlSeconds heap now).1.Keeps xs
        (ksKvSetEx k key value ttlSeconds heap now).1 ∧
      (ksKvSetExHeld s key value ttlSeconds heap now).2 =
        (ksKvSetEx k key value ttlSeconds heap now).2 := by
  have hlive := (h.findLive key now.first).1
  unfold ksKvSetExHeld ksKvSetEx
  dsimp only
  generalize (ksKvFindLiveHeld s key now.first).1 = s at hlive ⊢
  generalize (ksKvFindLive k key now.first).1 = k at hlive ⊢
  cases (if ttlSeconds ≠ 0 then ksTtlDeadline now.second ttlSeconds else some 0) with
  | none => exact ⟨hlive, rfl⟩
  | some deadlineMs =>
    obtain ⟨hkey, hkeyVal⟩ := hlive.alloc (ksKvCopyKey key heap)
    dsimp only
    generalize s.alloc (ksKvCopyKey key heap) = keyAlloc at hkey hkeyVal ⊢
    obtain ⟨hvalue, hvalueVal⟩ := hkey.alloc (ksKvCopyValue value deadlineMs heap)
    generalize keyAlloc.1.alloc (ksKvCopyValue value deadlineMs heap) = valueAlloc at hvalue hvalueVal ⊢
    rw [← hkeyVal, ← hvalueVal]
    obtain ⟨s, keyCopy⟩ := keyAlloc
    obtain ⟨s, valueCopy⟩ := valueAlloc
    rcases keyCopy with _ | keyCopy <;> rcases valueCopy with _ | valueCopy
    · exact ⟨freeAll hvalue, rfl⟩
    · exact ⟨freeAll hvalue, rfl⟩
    · exact ⟨freeAll hvalue, rfl⟩
    · obtain ⟨hput, hresult⟩ := put (hvalue.perm (.swap ..)) (heap .tableEntries)
      dsimp only [Option.map_some] at hput hresult ⊢
      rw [← hresult]
      generalize ksDsPutHeld s.entries keyCopy valueCopy (heap .tableEntries) = answer at hput ⊢
      obtain ⟨entries, result⟩ := answer
      cases result with
      | error => exact ⟨freeAll hput, rfl⟩
      | inserted => exact ⟨hput, rfl⟩
      | replaced => exact ⟨hput, rfl⟩

/-- What `ks_kv_get` returns points into a block of the store. -/
theorem get (h : s.Keeps xs k) (key : CStr) (now : KsReadings) :
    (ksKvGetHeld s key now).1.Keeps xs (ksKvGet k key now).1 ∧
      (ksKvGetHeld s key now).2.map KsPtr.val = (ksKvGet k key now).2 ∧
      ∀ value, (ksKvGetHeld s key now).2 = some value →
        value.block ∈ (ksKvGetHeld s key now).1.entries.owned := by
  unfold ksKvGetHeld ksKvGet
  rcases h.findLive_cases key now.first with ⟨s', k', hs, hk, hkeeps⟩ |
    ⟨s', k', value, hs, hk, hkeeps, hget⟩
  · rw [hs, hk]
    exact ⟨hkeeps, rfl, nofun⟩
  · rw [hs, hk]
    dsimp only
    rw [hkeeps.touch hget]
    refine ⟨hkeeps, rfl, fun v hv => ?_⟩
    cases hv
    exact KsDsHeld.block_mem_owned hget

/-- **`ks_kv_delete`** frees what it removes. -/
theorem delete (h : s.Keeps xs k) (key : CStr) (now : KsReadings) :
    (ksKvDeleteHeld s key now).1.Keeps xs (ksKvDelete k key now).1 ∧
      (ksKvDeleteHeld s key now).2 = (ksKvDelete k key now).2 := by
  unfold ksKvDeleteHeld ksKvDelete
  rcases h.findLive_cases key now.first with ⟨s', k', hs, hk, hkeeps⟩ |
    ⟨s', k', value, hs, hk, hkeeps, -⟩
  · rw [hs, hk]
    exact ⟨hkeeps, rfl⟩
  · rw [hs, hk]
    exact hkeeps.remove (lent key)

/-- **`ks_kv_exists`** may free a pair that has expired. -/
theorem isLive (h : s.Keeps xs k) (key : CStr) (now : KsReadings) :
    (ksKvExistsHeld s key now).1.Keeps xs (ksKvExists k key now).1 ∧
      (ksKvExistsHeld s key now).2 = (ksKvExists k key now).2 := by
  unfold ksKvExistsHeld ksKvExists
  rcases h.findLive_cases key now.first with ⟨s', k', hs, hk, hkeeps⟩ |
    ⟨s', k', value, hs, hk, hkeeps, -⟩
  · rw [hs, hk]
    exact ⟨hkeeps, rfl⟩
  · rw [hs, hk]
    exact ⟨hkeeps, rfl⟩

/-- **`ks_kv_expire`** changes the deadline in place. -/
theorem expire (h : s.Keeps xs k) (key : CStr) (ttlSeconds : UInt64) (now : KsReadings) :
    (ksKvExpireHeld s key ttlSeconds now).1.Keeps xs (ksKvExpire k key ttlSeconds now).1 ∧
      (ksKvExpireHeld s key ttlSeconds now).2 = (ksKvExpire k key ttlSeconds now).2 := by
  unfold ksKvExpireHeld ksKvExpire
  rcases h.findLive_cases key now.first with ⟨s', k', hs, hk, hkeeps⟩ |
    ⟨s', k', value, hs, hk, hkeeps, hget⟩
  · rw [hs, hk]
    exact ⟨hkeeps, rfl⟩
  rw [hs, hk]
  dsimp only
  by_cases hzero : ttlSeconds = 0
  · obtain ⟨hkept, hremoved⟩ := hkeeps.remove (lent key)
    rw [if_pos hzero, if_pos hzero, hremoved]
    exact ⟨hkept, rfl⟩
  · rw [if_neg hzero, if_neg hzero]
    cases ksTtlDeadline now.second ttlSeconds with
    | none => exact ⟨hkeeps, rfl⟩
    | some deadlineMs =>
      exact ⟨⟨hkeeps.owns.write hget _,
        hkeeps.shows.write renames_ksKvPtrCallbacks (lent key) value _, hkeeps.cursor⟩, rfl⟩

/-- **`ks_kv_ttl`** may free a pair that has expired. -/
theorem ttl (h : s.Keeps xs k) (key : CStr) (now : KsReadings) :
    (ksKvTtlHeld s key now).1.Keeps xs (ksKvTtl k key now).1 ∧
      (ksKvTtlHeld s key now).2 = (ksKvTtl k key now).2 := by
  unfold ksKvTtlHeld ksKvTtl
  rcases h.findLive_cases key now.first with ⟨s', k', hs, hk, hkeeps⟩ |
    ⟨s', k', value, hs, hk, hkeeps, hget⟩
  · rw [hs, hk]
    exact ⟨hkeeps, rfl⟩
  rw [hs, hk]
  dsimp only
  rw [hkeeps.touch hget]
  split_ifs
  · exact ⟨hkeeps, rfl⟩
  · exact ⟨(hkeeps.remove (lent key)).1, rfl⟩
  · exact ⟨hkeeps, rfl⟩

/-- One slot of the reaper. -/
theorem reapStep (h : s.Keeps xs k) (now : UInt64) :
    (ksKvReapStepHeld s now).1.Keeps xs (ksKvReapStep k now).1 ∧
      (ksKvReapStepHeld s now).2 = (ksKvReapStep k now).2 := by
  have htable : k.entries.table = s.entries.table.table.map KsPtr.val KsPtr.val := h.shows
  have hcapacity : k.entries.table.capacity = s.entries.table.table.capacity := by rw [htable]; rfl
  have hslot : (if s.reaperCursor ≥ s.entries.table.table.capacity then 0 else s.reaperCursor) =
      k.slot := by rw [KsKv.slot, hcapacity, h.cursor]
  have hmoved : KsKvHeld.Keeps { s with reaperCursor := k.slot + 1 } xs
      { k with reaperCursor := k.slot + 1 } := ⟨h.owns, h.shows, rfl⟩
  unfold ksKvReapStepHeld ksKvReapStep
  rw [← KsKv.slot]
  dsimp only
  rw [hslot, htable, KsDs.entry_map, h.owns.probe]
  cases hentry : s.entries.table.table.entry k.slot with
  | empty => exact ⟨hmoved, rfl⟩
  | tombstone => exact ⟨hmoved, rfl⟩
  | occupied hash key value =>
    dsimp only [KsDsEntry.map_occupied]
    rw [hmoved.touch (s.entries.table.get_of_entry (hcapacity ▸ k.slot_lt) hentry)]
    by_cases hexpired : value.val.expired now = true
    · rw [if_pos hexpired, if_pos hexpired]
      exact hmoved.remove key
    · rw [if_neg hexpired, if_neg hexpired]
      exact ⟨hmoved, rfl⟩

/-- The reaper frees what it removes. -/
theorem reapLoop (h : s.Keeps xs k) (now : UInt64) (budget removed : Nat) :
    (ksKvReapLoopHeld now budget s removed).1.Keeps xs (ksKvReapLoop now budget k removed).1 ∧
      (ksKvReapLoopHeld now budget s removed).2 = (ksKvReapLoop now budget k removed).2 := by
  induction budget generalizing s k removed with
  | zero => exact ⟨h, rfl⟩
  | succ budget ih =>
    obtain ⟨hstep, hgone⟩ := h.reapStep now
    unfold ksKvReapLoopHeld ksKvReapLoop
    dsimp only
    rw [hgone]
    exact ih hstep _

theorem reap (h : s.Keeps xs k) (budget : Nat) (now : UInt64) :
    (ksKvReapHeld s budget now).1.Keeps xs (ksKvReap k budget now).1 ∧
      (ksKvReapHeld s budget now).2 = (ksKvReap k budget now).2 :=
  h.reapLoop now budget 0

theorem size (h : s.Keeps xs k) (now : UInt64) :
    (ksKvSizeHeld s now).1.Keeps xs (ksKvSize k now).1 ∧
      (ksKvSizeHeld s now).2 = (ksKvSize k now).2 := by
  have hcapacity : k.entries.table.capacity = s.entries.table.table.capacity := by
    rw [show k.entries.table = _ from h.shows]; rfl
  have hreap := (h.reap s.entries.table.table.capacity now).1
  unfold ksKvSizeHeld ksKvSize
  rw [hcapacity]
  refine ⟨hreap, ?_⟩
  dsimp only [ksDsSize]
  rw [show (ksKvReap k _ now).1.entries.table = _ from hreap.shows]
  rfl

/-- **Every call** keeps the blocks and answers what the store answers. -/
theorem call (h : s.Keeps xs k) (c : KsKvTimedCall) :
    (ksKvCallHeld s c).1.Keeps xs (ksKvCall k c).1 ∧ (ksKvCallHeld s c).2 = (ksKvCall k c).2 := by
  obtain ⟨op, clock, heap⟩ := c
  cases op with
  | set key value => exact (h.setEx key value 0 heap clock).imp_right (congrArg KsKvAnswer.set)
  | setEx key value ttl => exact (h.setEx key value ttl heap clock).imp_right (congrArg KsKvAnswer.set)
  | get key => exact ⟨(h.get key clock).1, congrArg KsKvAnswer.get (h.get key clock).2.1⟩
  | delete key => exact (h.delete key clock).imp_right (congrArg KsKvAnswer.delete)
  | «exists» key => exact (h.isLive key clock).imp_right (congrArg KsKvAnswer.exists)
  | expire key ttl => exact (h.expire key ttl clock).imp_right (congrArg KsKvAnswer.expire)
  | ttl key => exact (h.ttl key clock).imp_right (congrArg KsKvAnswer.ttl)
  | reap budget => exact (h.reap budget clock.first).imp_right (congrArg KsKvAnswer.reap)
  | size => exact (h.size clock.first).imp_right (congrArg KsKvAnswer.size)

/-- **A run** answers as the store without blocks, and owns the same. -/
theorem run (h : s.Keeps xs k) (calls : List KsKvTimedCall) :
    ∃ s' k' answers, Refinement.run (fun s c => some (ksKvCallHeld s c)) s calls = some (s', answers) ∧
      Refinement.run (fun k c => some (ksKvCall k c)) k calls = some (k', answers) ∧
      s'.Keeps xs k' := by
  induction calls generalizing s k with
  | nil => exact ⟨s, k, [], rfl, rfl, h⟩
  | cons c calls ih =>
    obtain ⟨hcall, hanswer⟩ := h.call c
    obtain ⟨s', k', answers, hheld, hplain, hkeeps⟩ := ih hcall
    refine ⟨s', k', (ksKvCallHeld s c).2 :: answers, ?_, ?_, hkeeps⟩
    · simp only [Refinement.run, hheld]
    · simp only [Refinement.run, hplain, hanswer]

end KsKvHeld.Keeps

/-- Nothing has been used or freed that was not there, the blocks that are there are
the array of the table and its keys and values, what `ks_kv_get` returns is in
one of them, and `ks_kv_destroy` would leave each block freed once. -/
structure KsKvHeld.FreesOnce (s : KsKvHeld) : Prop where
  owned : s.entries.blocks.Owns s.entries.owned
  lends : ∀ key now value, (ksKvGetHeld s key now).2 = some value →
    value.block ∈ (ksKvGetHeld s key now).1.entries.owned
  clean : (ksKvDestroyHeld s).ledger.faults = []
  freed : (ksKvDestroyHeld s).ledger.taken.Perm (ksKvDestroyHeld s).ledger.given
  once : (ksKvDestroyHeld s).ledger.given.Nodup

/-- What the store owns it frees when it is destroyed, each block once. -/
theorem KsKvHeld.Keeps.freesOnce {s : KsKvHeld} {k : KsKv} (h : s.Keeps [] k) : s.FreesOnce := by
  obtain ⟨hclean, hfreed, honce⟩ := Blocks.Owns.settled (Blocks.Owns.perm h.owns.destroy (.refl _))
  exact ⟨h.owns, fun key now => (h.get key now).2.2, hclean, hfreed, honce⟩

/-- **The key-value store frees what it allocates, once.**  Whatever the clock reads and
whichever allocations are refused, a run of calls answers what `Kessel.Kv` answers
and reaches a store that `ks_kv_destroy` can take down without a leak, a second
free or a use of a freed block. -/
theorem ksKv_frees_once (calls : List KsKvTimedCall) :
    ∃ s k answers,
      run (fun s c => some (ksKvCallHeld s c)) (ksKvInitHeld .init) calls = some (s, answers) ∧
      run (fun k c => some (ksKvCall k c)) ksKvInit calls = some (k, answers) ∧ s.FreesOnce := by
  obtain ⟨s, k, answers, hheld, hplain, hkeeps⟩ := (KsKvHeld.Keeps.init Blocks.owns_init).run calls
  exact ⟨s, k, answers, hheld, hplain, hkeeps.freesOnce⟩

/-- A store with one key: its copies are freed before the array of the table. -/
example : (ksKvDestroyHeld (ksKvSetHeld (ksKvInitHeld .init) (.ofBytes [107]) [1] (fun _ => true)
    (.constant 0)).1).ledger.given = [2, 3, 1] := by decide +kernel

end Kessel
