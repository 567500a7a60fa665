import Kessel.Kv.Refine

/-!
# Kessel.Kv.Live

What a reader of the store sees, and what he does not.

`KsKv.liveAt` is the map of the entries that are live at a time, and
`KsKv.SameFrom` says that two stores show the same map from a time on, however
different their tables are.  Each operation has a lemma for what it answers and
what it shows afterwards, with any two clock readings: answers depend on
`liveAt` only, so stores that show the same map go on showing the same map.

* `ksKv_reaping_invisible` — a run with calls of `ks_kv_reap` and `ks_kv_size`
  put in between answers the other calls as the run without them.
-/

namespace TimedMap

variable {κ ν : Type}

/-- What is seen after an update. -/
theorem view_update [DecidableEq κ] (now : Nat) (m : κ → Option (Entry ν)) (k : κ)
    (e : Option (Entry ν)) :
    view now (Function.update m k e) =
      Function.update (view now m) k (e.filter (Entry.live now)) := by
  funext k'
  rw [view, Function.update_apply, Function.update_apply]
  split
  · rfl
  · rfl

/-- What nobody sees stays unseen. -/
theorem view_none_mono {now later : Nat} {m : κ → Option (Entry ν)} {k : κ} (hle : now ≤ later)
    (h : view now m k = none) : view later m k = none := by
  rw [Option.eq_none_iff_forall_ne_some] at h ⊢
  intro e he
  obtain ⟨hm, hlive⟩ := view_eq_some.mp he
  exact h e (view_eq_some.mpr ⟨hm, Entry.live_mono hle hlive⟩)

end TimedMap

namespace Kessel

open Word TimedMap Refinement

/-! ## the live map -/

/-- The entries that are live at `now`. -/
def KsKv.liveAt (s : KsKv) (now : UInt64) : KsKvRef := view now.toNat s.timed

/-- The two stores show the same entries from `now` on. -/
def KsKv.SameFrom (now : UInt64) (s s' : KsKv) : Prop :=
  ∀ later, now ≤ later → s'.liveAt later = s.liveAt later

namespace KsKv.SameFrom

variable {now later : UInt64} {s s' s'' : KsKv}

theorem refl (now : UInt64) (s : KsKv) : s.SameFrom now s := fun _ _ => rfl

theorem symm (h : s.SameFrom now s') : s'.SameFrom now s := fun t ht => (h t ht).symm

theorem trans (h : s.SameFrom now s') (h' : s'.SameFrom now s'') : s.SameFrom now s'' :=
  fun t ht => (h' t ht).trans (h t ht)

theorem mono (h : s.SameFrom now s') (hle : now ≤ later) : s.SameFrom later s' :=
  fun t ht => h t (UInt64.le_trans hle ht)

end KsKv.SameFrom

/-- The store shows the same entries from `now` on, and its table holds no key
that it did not hold before. -/
structure KsKv.Unseen (now : UInt64) (s s' : KsKv) : Prop where
  same : s.SameFrom now s'
  keys : ∀ k, (s'.timed k).isSome → (s.timed k).isSome

namespace KsKv.Unseen

variable {now later : UInt64} {s s' s'' : KsKv}

theorem refl (now : UInt64) (s : KsKv) : s.Unseen now s := ⟨.refl now s, fun _ h => h⟩

theorem trans (h : s.Unseen now s') (h' : s'.Unseen now s'') : s.Unseen now s'' :=
  ⟨h.same.trans h'.same, fun k hk => h.keys k (h'.keys k hk)⟩

theorem mono (h : s.Unseen now s') (hle : now ≤ later) : s.Unseen later s' :=
  ⟨h.same.mono hle, h.keys⟩

end KsKv.Unseen

/-- The store shows `e` under `key` from now on, and what it showed elsewhere; its
table holds no other key that it did not hold before. -/
structure KsKv.Writes (now : UInt64) (s : KsKv) (key : CStr) (e : Option (Entry (List UInt8)))
    (s' : KsKv) : Prop where
  shows : ∀ later, now ≤ later →
    s'.liveAt later = Function.update (s.liveAt later) key (e.filter (Entry.live later.toNat))
  keys : ∀ k, (s'.timed k).isSome → (Function.update s.timed key e k).isSome

/-- The same write to two stores that show the same. -/
theorem KsKv.SameFrom.write {now : UInt64} {s₁ s₂ s₁' s₂' : KsKv} {key : CStr}
    {e : Option (Entry (List UInt8))} (h : s₁.SameFrom now s₂) (h₁ : s₁.Writes now key e s₁')
    (h₂ : s₂.Writes now key e s₂') : s₁'.SameFrom now s₂' := by
  intro later hle
  rw [h₁.shows later hle, h₂.shows later hle, h later hle]

section

variable {now : UInt64} {s s₁ s' : KsKv} {key : CStr}

/-- A write to the table behind a change that nobody sees. -/
theorem KsKv.Writes.of_timed {e : Option (Entry (List UInt8))} (h : s.Unseen now s₁)
    (hs : s'.timed = Function.update s₁.timed key e) : s.Writes now key e s' where
  shows := by
    intro later hle
    rw [liveAt, hs, view_update, ← liveAt, h.same later hle]
  keys := by
    intro k hk
    rw [hs, Function.update_apply] at hk
    rw [Function.update_apply]
    split at hk
    · next heq => rwa [if_pos heq]
    · next hne => rw [if_neg hne]; exact h.keys k hk

/-- A removal leaves nothing under the key. -/
theorem KsKv.Writes.remove (h : s.Unseen now s₁) (key : CStr) :
    s.Writes now key none { s₁ with entries := (s₁.entries.remove key).1 } :=
  .of_timed h (s₁.timed_remove key)

/-- Removing what nobody sees any more changes nothing. -/
theorem KsKv.Unseen.remove (h : s.Unseen now s₁) (hdead : s₁.liveAt now key = none) :
    s.Unseen now { s₁ with entries := (s₁.entries.remove key).1 } := by
  have hremove := Writes.remove (.refl now s₁) key
  refine h.trans ⟨fun later hle => ?_, fun k hk => ?_⟩
  · have hgone : s₁.liveAt later key = none :=
      view_none_mono (UInt64.le_iff_toNat_le.mp hle) hdead
    rw [hremove.shows later hle, Function.update_eq_self_iff, hgone]
    rfl
  · have hkey := hremove.keys k hk
    rw [Function.update_apply] at hkey
    split at hkey
    · cases hkey
    · exact hkey

end

/-! ## `ks_kv_find_live` -/

/-- A live entry is a stored value that has not expired. -/
theorem KsKv.liveAt_eq (s : KsKv) (now : UInt64) (key : CStr) :
    s.liveAt now key =
      ((s.entries.get key).filter fun v => !v.expired now).map KsKvValue.timed := by
  rw [liveAt, view, timed]
  cases s.entries.get key with
  | none => rfl
  | some v => cases hexp : v.expired now <;> simp [Option.filter, KsKvValue.live_timed, hexp]

/-- What is found is what a reader sees, and he goes on seeing the same. -/
theorem ksKvFindLive_live (s : KsKv) (key : CStr) (now : UInt64) :
    ∃ s', ksKvFindLive s key now = (s', s'.entries.get key) ∧ s.Unseen now s' ∧
      s.liveAt now key = (s'.entries.get key).map KsKvValue.timed := by
  have heq := s.liveAt_eq now key
  unfold ksKvFindLive
  cases hget : s.entries.get key with
  | none =>
    rw [hget] at heq
    exact ⟨s, by rw [hget], .refl now s, by rw [heq, hget]; rfl⟩
  | some v =>
    rw [hget] at heq
    cases hexp : v.expired now with
    | true =>
      have hdead : s.liveAt now key = none := by simp [heq, hexp]
      have hnone : (s.entries.remove key).1.get key = none := by
        rw [KsDsTable.get_remove, if_pos (ksKvCallbacks.eqv_isEquiv.refl key)]
      exact ⟨_, by simp [hexp, hnone], .remove (.refl now s) hdead, by simp [hdead, hnone]⟩
    | false => exact ⟨s, by simp [hget, hexp], .refl now s, by simp [heq, hget, hexp]⟩

/-! ## `ks_kv_set_ex` -/

/-- The deadline that `ks_kv_set_ex` stores, `0` for none. -/
def storedDeadline (now ttlSeconds : UInt64) : Option Nat :=
  if ttlSeconds ≠ 0 then ksTtlDeadline now ttlSeconds else some 0

/-- Is an allocation that `ks_kv_set_ex` makes refused?  A value that is too long
is turned down before memory is asked for. -/
def ksKvSetExRefused (s : KsKv) (key : CStr) (value : List UInt8) (ttlSeconds : UInt64)
    (heap : KsHeap) (now : KsReadings) : Bool :=
  let s := (ksKvFindLive s key now.first).1
  match storedDeadline now.second ttlSeconds with
  | none => false
  | some deadlineMs =>
    match ksKvCopyKey key heap, ksKvCopyValue value deadlineMs heap with
    | some keyCopy, some valueCopy =>
      (s.entries.put keyCopy valueCopy (heap .tableEntries)).2 = .error
    | some _, none => value.length ≤ sizeMax - ksKvValueSize - 1
    | none, _ => true

/-- Nothing but a refused allocation, a deadline out of range and a value of no
representable size makes `ks_kv_set_ex` fail. -/
def Storable (value : List UInt8) (ttlSeconds now : UInt64) : Prop :=
  storedDeadline now ttlSeconds ≠ none ∧ value.length ≤ sizeMax - ksKvValueSize - 1

theorem ksKvCopyKey_eq_some {key copy : CStr} {heap : KsHeap} (h : ksKvCopyKey key heap = some copy) :
    copy = key := by
  unfold ksKvCopyKey at h
  split at h
  · cases h
  · exact (Option.some.inj h).symm

theorem ksKvCopyValue_eq_some {value : List UInt8} {d : Nat} {heap : KsHeap} {copy : KsKvValue}
    (h : ksKvCopyValue value d heap = some copy) :
    value.length ≤ sizeMax - ksKvValueSize - 1 ∧ copy = ⟨value, d⟩ := by
  unfold ksKvCopyValue at h
  split at h
  · cases h
  · next hsize =>
    split at h
    · cases h
    · exact ⟨Nat.le_of_not_gt hsize, (Option.some.inj h).symm⟩

section

variable (s : KsKv) (key : CStr) (value : List UInt8) (ttlSeconds : UInt64) (heap : KsHeap)
  (now : KsReadings)

/-- `ks_kv_set_ex` fails and shows nothing new, or shows the new value. -/
theorem ksKvSetEx_live :
    ((ksKvSetEx s key value ttlSeconds heap now).2 = .error ∧
        s.Unseen now.first (ksKvSetEx s key value ttlSeconds heap now).1 ∧
        (Storable value ttlSeconds now.second →
          ksKvSetExRefused s key value ttlSeconds heap now = true)) ∨
      ∃ d, storedDeadline now.second ttlSeconds = some d ∧ Storable value ttlSeconds now.second ∧
        (ksKvSetEx s key value ttlSeconds heap now).2 =
          (if (s.liveAt now.first key).isSome then .replaced else .inserted) ∧
        s.Writes now.first key (some (KsKvValue.timed ⟨value, d⟩))
          (ksKvSetEx s key value ttlSeconds heap now).1 := by
  obtain ⟨s₁, hfind, hsame, hlive⟩ := ksKvFindLive_live s key now.first
  unfold ksKvSetEx ksKvSetExRefused Storable
  simp only [hfind]
  rw [← storedDeadline]
  cases hdeadline : storedDeadline now.second ttlSeconds with
  | none => exact .inl ⟨rfl, hsame, by simp⟩
  | some d =>
    simp only
    cases hkey : ksKvCopyKey key heap with
    | none => exact .inl ⟨rfl, hsame, by simp⟩
    | some keyCopy =>
      cases hvalue : ksKvCopyValue value d heap with
      | none => exact .inl ⟨rfl, hsame, by simp⟩
      | some valueCopy =>
        obtain rfl := ksKvCopyKey_eq_some hkey
        obtain ⟨hsize, rfl⟩ := ksKvCopyValue_eq_some hvalue
        dsimp only
        by_cases hr : (s₁.entries.put keyCopy ⟨value, d⟩ (heap .tableEntries)).2 = .error
        · obtain ⟨hput, -, -⟩ := s₁.entries.put_error keyCopy ⟨value, d⟩ _ hr
          rw [hr, hput]
          exact .inl ⟨rfl, hsame, by simp⟩
        · have hresult := s₁.entries.put_replaced_iff keyCopy ⟨value, d⟩ _ hr
          have hwrites := KsKv.Writes.of_timed hsame (s₁.timed_put _ _ _ hr)
          refine .inr ⟨d, rfl, ⟨by simp, hsize⟩, ?_⟩
          rw [hlive, Option.isSome_map, hresult]
          cases (s₁.entries.get keyCopy).isSome
          · exact ⟨rfl, hwrites⟩
          · exact ⟨rfl, hwrites⟩

/-- `ks_kv_set_ex` goes without memory when the allocator refuses it, or when the
keys are so many that a bigger array is not addressable. -/
theorem ksKvSetExRefused_cases (h : ksKvSetExRefused s key value ttlSeconds heap now = true) :
    (∃ site, heap site = false) ∨
      ∃ n : Nat, KsDs.AddressSpaceFull n ∧ (n : ℕ∞) ≤ {k | (s.timed k).isSome}.encard := by
  obtain ⟨s₁, hfind, hkept, -⟩ := ksKvFindLive_live s key now.first
  have hsize : (s₁.entries.table.size : ℕ∞) ≤ {k | (s.timed k).isSome}.encard := by
    rw [← s₁.entries.encard_keys ksKvCallbacks_eqv.mp]
    refine Set.encard_le_encard fun k hk => hkept.keys k ?_
    rw [KsKv.timed, Option.isSome_map]
    exact hk
  unfold ksKvSetExRefused at h
  simp only [hfind] at h
  cases hdeadline : storedDeadline now.second ttlSeconds with
  | none => simp [hdeadline] at h
  | some d =>
    simp only [hdeadline] at h
    by_cases hkey : heap .keyCopy = true
    · by_cases hvalue : heap .valueCopy = true
      · cases hcopy : ksKvCopyValue value d heap with
        | none =>
          have hshort : value.length ≤ sizeMax - ksKvValueSize - 1 := by
            simpa [ksKvCopyKey, hkey, hcopy] using h
          simp [ksKvCopyValue, hvalue, Nat.not_lt.mpr hshort] at hcopy
        | some copy =>
          have hput : (s₁.entries.put key copy (heap .tableEntries)).2 = .error := by
            simpa [ksKvCopyKey, hkey, hcopy] using h
          obtain ⟨-, -, hfail | hfull⟩ := s₁.entries.put_error key copy _ hput
          · exact .inl ⟨_, hfail⟩
          · exact .inr ⟨_, hfull, hsize⟩
      · exact .inl ⟨_, Bool.not_eq_true _ ▸ hvalue⟩
    · exact .inl ⟨_, Bool.not_eq_true _ ▸ hkey⟩

/-- `ks_kv_get` answers what a reader sees. -/
theorem ksKvGet_live :
    (ksKvGet s key now).2 = (s.liveAt now.first key).map Entry.value ∧
      s.Unseen now.first (ksKvGet s key now).1 := by
  obtain ⟨s', hfind, hsame, hlive⟩ := ksKvFindLive_live s key now.first
  rw [ksKvGet, hfind, hlive, Option.map_map]
  exact ⟨rfl, hsame⟩

/-- `ks_kv_exists` answers whether a reader sees the key. -/
theorem ksKvExists_live :
    (ksKvExists s key now).2 = (s.liveAt now.first key).isSome ∧
      s.Unseen now.first (ksKvExists s key now).1 := by
  obtain ⟨s', hfind, hsame, hlive⟩ := ksKvFindLive_live s key now.first
  rw [ksKvExists, hfind, hlive, Option.isSome_map]
  exact ⟨rfl, hsame⟩

/-- A key that is not there is removed by doing nothing. -/
theorem KsKv.Unseen.writes_absent {s s' : KsKv} {now : UInt64} {key : CStr}
    (h : s.Unseen now s') (hget : s'.entries.get key = none) : s.Writes now key none s' := by
  refine .of_timed h ?_
  rw [eq_comm, Function.update_eq_self_iff, timed, hget]
  rfl

/-- `ks_kv_delete` answers whether a reader saw the key, who does not see it any
more. -/
theorem ksKvDelete_live :
    (ksKvDelete s key now).2 = (s.liveAt now.first key).isSome ∧
      s.Writes now.first key none (ksKvDelete s key now).1 := by
  obtain ⟨s', hfind, hsame, hlive⟩ := ksKvFindLive_live s key now.first
  rw [ksKvDelete, hfind, hlive, Option.isSome_map]
  cases hget : s'.entries.get key with
  | none => exact ⟨rfl, hsame.writes_absent hget⟩
  | some v =>
    have hremoved : (s'.entries.remove key).2 = true := by rw [KsDsTable.remove_snd, hget]; rfl
    exact ⟨hremoved, .remove hsame key⟩

/-! ## `ks_kv_expire` and `ks_kv_ttl` -/

/-- What `ks_kv_expire` answers for a live entry, and what becomes of it. -/
def expireEffect (ttlSeconds now : UInt64) (e : Entry (List UInt8)) :
    KsKvExpireResult × Option (Option (Entry (List UInt8))) :=
  if ttlSeconds = 0 then (.updated, some none)
  else
    match ksTtlDeadline now ttlSeconds with
    | none => (.error, none)
    | some d => (.updated, some (some ⟨e.value, if d = 0 then none else some d⟩))

/-- `ks_kv_expire` finds no live entry, or changes the deadline of the one it
finds. -/
theorem ksKvExpire_live :
    (s.liveAt now.first key = none ∧ (ksKvExpire s key ttlSeconds now).2 = .missing ∧
        s.Unseen now.first (ksKvExpire s key ttlSeconds now).1) ∨
      ∃ e, s.liveAt now.first key = some e ∧
        (ksKvExpire s key ttlSeconds now).2 = (expireEffect ttlSeconds now.second e).1 ∧
        (match (expireEffect ttlSeconds now.second e).2 with
          | none => s.Unseen now.first (ksKvExpire s key ttlSeconds now).1
          | some e => s.Writes now.first key e (ksKvExpire s key ttlSeconds now).1) := by
  obtain ⟨s', hfind, hsame, hlive⟩ := ksKvFindLive_live s key now.first
  rw [hlive, ksKvExpire, hfind]
  cases hget : s'.entries.get key with
  | none => exact .inl ⟨rfl, rfl, hsame⟩
  | some v =>
    refine .inr ⟨v.timed, rfl, ?_⟩
    unfold expireEffect
    by_cases hzero : ttlSeconds = 0
    · have hremoved : (s'.entries.remove key).2 = true := by rw [KsDsTable.remove_snd, hget]; rfl
      simp only [if_pos hzero, hremoved, if_true]
      exact ⟨trivial, .remove hsame key⟩
    · simp only [if_neg hzero]
      cases hdeadline : ksTtlDeadline now.second ttlSeconds with
      | none => exact ⟨rfl, hsame⟩
      | some d =>
        have hupdate := s'.timed_update key fun v => { v with deadlineMs := d }
        rw [hget] at hupdate
        exact ⟨rfl, .of_timed hsame hupdate⟩

/-- A deadline out of range shows nothing new. -/
theorem ksKvExpire_error (h : (ksKvExpire s key ttlSeconds now).2 = .error) :
    s.Unseen now.first (ksKvExpire s key ttlSeconds now).1 := by
  rcases ksKvExpire_live s key ttlSeconds now with ⟨-, hr, -⟩ | ⟨e, -, hr, hw⟩
  · rw [hr] at h
    cases h
  · have hnone : (expireEffect ttlSeconds now.second e).2 = none := by
      rw [hr] at h
      unfold expireEffect at h ⊢
      by_cases hzero : ttlSeconds = 0
      · simp [hzero] at h
      · cases hdeadline : ksTtlDeadline now.second ttlSeconds with
        | none => simp [hzero]
        | some d => simp [hzero, hdeadline] at h
    rw [hnone] at hw
    exact hw

/-- What `ks_kv_ttl` answers for what a reader sees. -/
def ttlAnswer (now : UInt64) : Option (Entry (List UInt8)) → Int
  | none => -2
  | some ⟨_, none⟩ => -1
  | some ⟨_, some d⟩ => if d ≤ now.toNat then -2 else i64 ((d - now.toNat) / 1000)

/-- `ks_kv_ttl` answers for the entry that a reader sees. -/
theorem ksKvTtl_live (hle : now.first ≤ now.second) :
    (ksKvTtl s key now).2 = ttlAnswer now.second (s.liveAt now.first key) ∧
      s.Unseen now.second (ksKvTtl s key now).1 := by
  obtain ⟨s', hfind, hsame, hlive⟩ := ksKvFindLive_live s key now.first
  rw [hlive, ksKvTtl, hfind]
  cases hget : s'.entries.get key with
  | none => exact ⟨rfl, hsame.mono hle⟩
  | some v =>
    by_cases hzero : v.deadlineMs = 0
    · simp only [if_pos hzero, Option.map_some, KsKvValue.timed]
      exact ⟨rfl, hsame.mono hle⟩
    · simp only [if_neg hzero, Option.map_some, KsKvValue.timed, ttlAnswer]
      by_cases hpast : v.deadlineMs ≤ now.second.toNat
      · simp only [if_pos hpast]
        refine ⟨trivial, (hsame.mono hle).remove ?_⟩
        simp [KsKv.liveAt_eq, hget, KsKvValue.expired, hzero, hpast]
      · simp only [if_neg hpast]
        exact ⟨trivial, hsame.mono hle⟩

end

/-! ## the reaper -/

/-- The reaper shows nothing new. -/
theorem ksKvReapLoop_live (now : UInt64) (budget : Nat) (s : KsKv) (removed : Nat) :
    s.Unseen now (ksKvReapLoop now budget s removed).1 := by
  induction budget generalizing s removed with
  | zero => exact .refl now s
  | succ budget ih =>
    have hstep : s.Unseen now (ksKvReapStep s now).1 := by
      rcases ksKvReapStep_cases s now with ⟨hash, k, v, hentry, hexp, hstep⟩ | ⟨-, hstep⟩
      · have hdead : s.liveAt now k = none := by
          simp [KsKv.liveAt_eq, s.entries.get_of_entry s.slot_lt hentry, hexp]
        have hremove := KsKv.Unseen.remove (.refl now s) hdead
        rw [hstep]
        exact ⟨hremove.same, hremove.keys⟩
      · rw [hstep]
        exact ⟨.refl now s, fun _ h => h⟩
    rw [ksKvReapLoop]
    exact hstep.trans (ih _ _)

theorem ksKvReap_live (s : KsKv) (budget : Nat) (now : UInt64) :
    s.Unseen now (ksKvReap s budget now).1 :=
  ksKvReapLoop_live now budget s 0

/-- `ks_kv_size` counts what a reader sees. -/
theorem ksKvSize_live (s : KsKv) (now : UInt64) :
    {k | (s.liveAt now k).isSome}.encard = ((ksKvSize s now).2 : ℕ∞) ∧
      s.Unseen now (ksKvSize s now).1 := by
  have hsame := ksKvReap_live s s.entries.table.capacity now
  have hswept : ∀ k, (ksKvReap s s.entries.table.capacity now).1.liveAt now k =
      (ksKvReap s s.entries.table.capacity now).1.timed k := by
    intro k
    rw [KsKv.liveAt_eq, KsKv.timed]
    cases hget : (ksKvReap s s.entries.table.capacity now).1.entries.get k with
    | none => rfl
    | some v =>
      have hexp : v.expired now = false := ksKvReap_lap s now hget
      simp [hexp]
  refine ⟨?_, hsame⟩
  rw [← hsame.same now (UInt64.le_refl now), ksKvSize, ksDsSize,
    ← (ksKvReap s s.entries.table.capacity now).1.entries.encard_keys ksKvCallbacks_eqv.mp]
  congr 1
  ext k
  rw [Set.mem_ofPred_eq, Set.mem_ofPred_eq, hswept k, KsKv.timed, Option.isSome_map]

/-! ## calls -/

/-- One call of the store, with the readings of the clock that it makes. -/
structure KsKvTimedCall where
  op : KsKvOp
  clock : KsReadings
  heap : KsHeap

/-- One call of the store. -/
def ksKvCall (s : KsKv) (c : KsKvTimedCall) : KsKv × KsKvAnswer :=
  match c.op with
  | .set key value => (ksKvSet s key value c.heap c.clock).map id .set
  | .setEx key value ttl => (ksKvSetEx s key value ttl c.heap c.clock).map id .set
  | .get key => (ksKvGet s key c.clock).map id .get
  | .delete key => (ksKvDelete s key c.clock).map id .delete
  | .exists key => (ksKvExists s key c.clock).map id .exists
  | .expire key ttl => (ksKvExpire s key ttl c.clock).map id .expire
  | .ttl key => (ksKvTtl s key c.clock).map id .ttl
  | .reap budget => (ksKvReap s budget c.clock.first).map id .reap
  | .size => (ksKvSize s c.clock.first).map id .size

/-- Is an allocation refused that the call makes? -/
def KsKv.refused (s : KsKv) (c : KsKvTimedCall) : Bool :=
  match c.op with
  | .set key value => ksKvSetExRefused s key value 0 c.heap c.clock
  | .setEx key value ttl => ksKvSetExRefused s key value ttl c.heap c.clock
  | _ => false

/-- A call that is granted its allocations; `none` when it is not. -/
def ksKvGrantedCall (s : KsKv) (c : KsKvTimedCall) : Option (KsKv × KsKvAnswer) :=
  if s.refused c then none else some (ksKvCall s c)

/-- The same answer, but for how many dead keys the reaper still found, which
depends on what was reaped before. -/
def KsKvAnswer.Same : KsKvAnswer → KsKvAnswer → Prop
  | .reap _, .reap _ => True
  | a, b => a = b

theorem KsKvAnswer.Same.refl (a : KsKvAnswer) : a.Same a := by cases a <;> simp [Same]

/-! ## two stores -/

section

variable {now : KsReadings} {s₁ s₂ : KsKv}

/-- What two stores that show the same do on one call: they answer the same and
go on showing the same. -/
def Agree (now : UInt64) (r₁ r₂ : KsKv × KsKvAnswer) : Prop :=
  r₁.2.Same r₂.2 ∧ r₁.1.SameFrom now r₂.1

theorem agree_of_eq {now : UInt64} {r₁ r₂ : KsKv × KsKvAnswer} (heq : r₁.2 = r₂.2)
    (h : r₁.1.SameFrom now r₂.1) : Agree now r₁ r₂ :=
  ⟨heq ▸ .refl r₁.2, h⟩

/-- Calls that show nothing new. -/
theorem KsKv.SameFrom.same {now : UInt64} {s₁' s₂' : KsKv} (h : s₁.SameFrom now s₂)
    (h₁ : s₁.Unseen now s₁') (h₂ : s₂.Unseen now s₂') : s₁'.SameFrom now s₂' :=
  (h₁.same.symm.trans h).trans h₂.same

/-- Both stores take a value that they are granted the memory for. -/
theorem KsKv.SameFrom.agree_setEx (h : s₁.SameFrom now.first s₂) (key : CStr)
    (value : List UInt8) (ttl : UInt64) (heap : KsHeap)
    (h₁ : ksKvSetExRefused s₁ key value ttl heap now = false)
    (h₂ : ksKvSetExRefused s₂ key value ttl heap now = false) :
    Agree now.first ((ksKvSetEx s₁ key value ttl heap now).map id .set)
      ((ksKvSetEx s₂ key value ttl heap now).map id .set) := by
  have hlive : s₂.liveAt now.first key = s₁.liveAt now.first key :=
    congrFun (h now.first (UInt64.le_refl _)) key
  rcases ksKvSetEx_live s₁ key value ttl heap now with
    ⟨herr₁, hsame₁, hrefused₁⟩ | ⟨d₁, hd₁, hstorable₁, hr₁, hw₁⟩ <;>
  rcases ksKvSetEx_live s₂ key value ttl heap now with
    ⟨herr₂, hsame₂, hrefused₂⟩ | ⟨d₂, hd₂, hstorable₂, hr₂, hw₂⟩
  · exact agree_of_eq (by simp [herr₁, herr₂]) (h.same hsame₁ hsame₂)
  · rw [hrefused₁ hstorable₂] at h₁
    cases h₁
  · rw [hrefused₂ hstorable₁] at h₂
    cases h₂
  · rw [hd₁, Option.some.injEq] at hd₂
    rw [← hd₂] at hw₂
    exact agree_of_eq (by simp [hr₁, hr₂, hlive]) (h.write hw₁ hw₂)

/-- Both stores take a new deadline, or refuse it. -/
theorem KsKv.SameFrom.agree_expire (h : s₁.SameFrom now.first s₂) (key : CStr) (ttl : UInt64) :
    Agree now.first ((ksKvExpire s₁ key ttl now).map id .expire)
      ((ksKvExpire s₂ key ttl now).map id .expire) := by
  have hlive : s₂.liveAt now.first key = s₁.liveAt now.first key :=
    congrFun (h now.first (UInt64.le_refl _)) key
  rcases ksKvExpire_live s₁ key ttl now with ⟨hnone₁, hr₁, hsame₁⟩ | ⟨e₁, he₁, hr₁, hw₁⟩ <;>
  rcases ksKvExpire_live s₂ key ttl now with ⟨hnone₂, hr₂, hsame₂⟩ | ⟨e₂, he₂, hr₂, hw₂⟩
  · exact agree_of_eq (by simp [hr₁, hr₂]) (h.same hsame₁ hsame₂)
  · rw [hlive, hnone₁] at he₂
    cases he₂
  · rw [hlive, he₁] at hnone₂
    cases hnone₂
  · rw [hlive, he₁, Option.some.injEq] at he₂
    rw [← he₂] at hr₂ hw₂
    refine agree_of_eq (by simp [hr₁, hr₂]) ?_
    cases heffect : (expireEffect ttl now.second e₁).2 with
    | none =>
      rw [heffect] at hw₁ hw₂
      exact h.same hw₁ hw₂
    | some e =>
      rw [heffect] at hw₁ hw₂
      exact h.write hw₁ hw₂

/-- **One call on two stores that show the same.** -/
theorem KsKv.SameFrom.agree {c : KsKvTimedCall} (h : s₁.SameFrom c.clock.first s₂)
    (hle : c.clock.first ≤ c.clock.second) (h₁ : s₁.refused c = false)
    (h₂ : s₂.refused c = false) :
    Agree c.clock.second (ksKvCall s₁ c) (ksKvCall s₂ c) := by
  obtain ⟨op, now, heap⟩ := c
  have hlive (key : CStr) : s₂.liveAt now.first key = s₁.liveAt now.first key :=
    congrFun (h now.first (UInt64.le_refl _)) key
  have hlater {r₁ r₂ : KsKv × KsKvAnswer} (hr : Agree now.first r₁ r₂) : Agree now.second r₁ r₂ :=
    ⟨hr.1, hr.2.mono hle⟩
  unfold ksKvCall
  cases op with
  | set key value => exact hlater (h.agree_setEx key value 0 heap h₁ h₂)
  | setEx key value ttl => exact hlater (h.agree_setEx key value ttl heap h₁ h₂)
  | get key =>
    obtain ⟨hr₁, hs₁⟩ := ksKvGet_live s₁ key now
    obtain ⟨hr₂, hs₂⟩ := ksKvGet_live s₂ key now
    exact hlater (agree_of_eq (by simp [hr₁, hr₂, hlive]) (h.same hs₁ hs₂))
  | delete key =>
    obtain ⟨hr₁, hw₁⟩ := ksKvDelete_live s₁ key now
    obtain ⟨hr₂, hw₂⟩ := ksKvDelete_live s₂ key now
    exact hlater (agree_of_eq (by simp [hr₁, hr₂, hlive]) (h.write hw₁ hw₂))
  | «exists» key =>
    obtain ⟨hr₁, hs₁⟩ := ksKvExists_live s₁ key now
    obtain ⟨hr₂, hs₂⟩ := ksKvExists_live s₂ key now
    exact hlater (agree_of_eq (by simp [hr₁, hr₂, hlive]) (h.same hs₁ hs₂))
  | expire key ttl => exact hlater (h.agree_expire key ttl)
  | ttl key =>
    obtain ⟨hr₁, hs₁⟩ := ksKvTtl_live s₁ key now hle
    obtain ⟨hr₂, hs₂⟩ := ksKvTtl_live s₂ key now hle
    exact agree_of_eq (by simp [hr₁, hr₂, hlive]) ((h.mono hle).same hs₁ hs₂)
  | reap budget =>
    have hs₁ := ksKvReap_live s₁ budget now.first
    have hs₂ := ksKvReap_live s₂ budget now.first
    exact hlater ⟨trivial, h.same hs₁ hs₂⟩
  | size =>
    obtain ⟨hr₁, hs₁⟩ := ksKvSize_live s₁ now.first
    obtain ⟨hr₂, hs₂⟩ := ksKvSize_live s₂ now.first
    rw [h now.first (UInt64.le_refl _), hr₁] at hr₂
    exact hlater (agree_of_eq (by simpa using hr₂) (h.same hs₁ hs₂))

end

/-! ## runs -/

/-- A call that only reaps: `ks_kv_reap` or `ks_kv_size`. -/
def KsKvOp.reaps : KsKvOp → Bool
  | .reap _ => true
  | .size => true
  | _ => false

/-- A call that only reaps shows nothing new. -/
theorem ksKvCall_reaps (s : KsKv) {c : KsKvTimedCall} (h : c.op.reaps = true) :
    s.Unseen c.clock.first (ksKvCall s c).1 := by
  obtain ⟨op, now, heap⟩ := c
  cases op with
  | reap budget => exact ksKvReap_live s budget now.first
  | size => exact (ksKvSize_live s now.first).2
  | _ => cases h

/-- The calls that are not marked as added. -/
def originals (calls : List (KsKvTimedCall × Bool)) : List KsKvTimedCall :=
  (calls.filter fun c => !c.2).map Prod.fst

/-- The answers to the calls that are not marked as added. -/
def originalAnswers (calls : List (KsKvTimedCall × Bool)) (answers : List KsKvAnswer) :
    List KsKvAnswer :=
  ((calls.zip answers).filter fun x => !x.1.2).map Prod.snd

theorem originals_added (c : KsKvTimedCall) (calls : List (KsKvTimedCall × Bool)) :
    originals ((c, true) :: calls) = originals calls := rfl

theorem originals_kept (c : KsKvTimedCall) (calls : List (KsKvTimedCall × Bool)) :
    originals ((c, false) :: calls) = c :: originals calls := rfl

theorem originalAnswers_added (c : KsKvTimedCall) (calls : List (KsKvTimedCall × Bool))
    (a : KsKvAnswer) (answers : List KsKvAnswer) :
    originalAnswers ((c, true) :: calls) (a :: answers) = originalAnswers calls answers := rfl

theorem originalAnswers_kept (c : KsKvTimedCall) (calls : List (KsKvTimedCall × Bool))
    (a : KsKvAnswer) (answers : List KsKvAnswer) :
    originalAnswers ((c, false) :: calls) (a :: answers) = a :: originalAnswers calls answers := rfl

/-- The clock does not go backwards, in a call and between calls. -/
def ClockForward (calls : List KsKvTimedCall) : Prop :=
  (∀ c ∈ calls, c.clock.first ≤ c.clock.second) ∧
    calls.Pairwise fun c d => c.clock.second ≤ d.clock.first

/-- A call that is granted is made. -/
theorem ksKvGrantedCall_eq_some {s : KsKv} {c : KsKvTimedCall} {r : KsKv × KsKvAnswer}
    (h : ksKvGrantedCall s c = some r) : s.refused c = false ∧ ksKvCall s c = r := by
  unfold ksKvGrantedCall at h
  split at h
  · cases h
  · next hgranted => exact ⟨by simpa using hgranted, Option.some.inj h⟩

/-- A run that is granted its allocations, call by call. -/
theorem run_granted_cons {s s' : KsKv} {c : KsKvTimedCall} {cs : List KsKvTimedCall}
    {answers : List KsKvAnswer} (h : run ksKvGrantedCall s (c :: cs) = some (s', answers)) :
    ∃ rest, s.refused c = false ∧ answers = (ksKvCall s c).2 :: rest ∧
      run ksKvGrantedCall (ksKvCall s c).1 cs = some (s', rest) := by
  rw [run] at h
  cases hstep : ksKvGrantedCall s c with
  | none =>
    rw [hstep] at h
    cases h
  | some r =>
    obtain ⟨hgranted, hcall⟩ := ksKvGrantedCall_eq_some hstep
    rw [hstep] at h
    subst hcall
    dsimp only at h
    cases hrest : run ksKvGrantedCall (ksKvCall s c).1 cs with
    | none =>
      rw [hrest] at h
      cases h
    | some q =>
      rw [hrest] at h
      cases h
      exact ⟨q.2, hgranted, rfl, rfl⟩

/-- Two runs from stores that show the same, one with additional calls. -/
theorem KsKv.SameFrom.run {calls : List (KsKvTimedCall × Bool)} {s₁ s₂ s₁' s₂' : KsKv}
    {answers₁ answers₂ : List KsKvAnswer} {t : UInt64} (h : s₁.SameFrom t s₂)
    (hadded : ∀ c ∈ calls, c.2 = true → c.1.op.reaps = true)
    (hclock : ClockForward (calls.map Prod.fst)) (ht : ∀ c ∈ calls, t ≤ c.1.clock.first)
    (h₁ : run ksKvGrantedCall s₁ (originals calls) = some (s₁', answers₁))
    (h₂ : run ksKvGrantedCall s₂ (calls.map Prod.fst) = some (s₂', answers₂)) :
    List.Forall₂ KsKvAnswer.Same answers₁ (originalAnswers calls answers₂) := by
  induction calls generalizing s₁ s₂ t answers₁ answers₂ with
  | nil =>
    cases h₁
    cases h₂
    exact .nil
  | cons c calls ih =>
    obtain ⟨c, added⟩ := c
    obtain ⟨hwithin, hbetween⟩ := hclock
    rw [List.map_cons, List.forall_mem_cons] at hwithin
    rw [List.map_cons, List.pairwise_cons] at hbetween
    rw [List.forall_mem_cons] at hadded ht
    have hnext (d) (hd : d ∈ calls) : c.clock.second ≤ d.1.clock.first :=
      hbetween.1 d.1 (List.mem_map_of_mem hd)
    obtain ⟨rest₂, hgranted₂, rfl, hrest₂⟩ := run_granted_cons h₂
    have hnow := h.mono ht.1
    cases added with
    | true =>
      -- an additional call: the other store waits
      have hreap := (hnow.trans (ksKvCall_reaps s₂ (hadded.1 rfl)).same).mono hwithin.1
      rw [originals_added] at h₁
      rw [originalAnswers_added]
      exact ih hreap hadded.2 ⟨hwithin.2, hbetween.2⟩ hnext h₁ hrest₂
    | false =>
      rw [originals_kept] at h₁
      rw [originalAnswers_kept]
      obtain ⟨rest₁, hgranted₁, rfl, hrest₁⟩ := run_granted_cons h₁
      obtain ⟨hanswer, hsame⟩ := hnow.agree hwithin.1 hgranted₁ hgranted₂
      exact .cons hanswer (ih hsame hadded.2 ⟨hwithin.2, hbetween.2⟩ hnext hrest₁ hrest₂)

/-- The answers to a run of calls from `ks_kv_init_with_clock`; `none` when an
allocation is refused. -/
def ksKvAnswers (calls : List KsKvTimedCall) : Option (List KsKvAnswer) :=
  (run ksKvGrantedCall ksKvInit calls).map Prod.snd

/-- **Reaping is invisible**: put any calls of `ks_kv_reap` and `ks_kv_size`
between the calls of a run; while the clock does not go backwards and no
allocation is refused, every other call is answered as before. -/
theorem ksKv_reaping_invisible {calls : List (KsKvTimedCall × Bool)}
    {answers answersWith : List KsKvAnswer}
    (hadded : ∀ c ∈ calls, c.2 = true → c.1.op.reaps = true)
    (hclock : ClockForward (calls.map Prod.fst))
    (hwithout : ksKvAnswers (originals calls) = some answers)
    (hwith : ksKvAnswers (calls.map Prod.fst) = some answersWith) :
    List.Forall₂ KsKvAnswer.Same answers (originalAnswers calls answersWith) := by
  unfold ksKvAnswers at hwithout hwith
  rw [Option.map_eq_some_iff] at hwithout hwith
  obtain ⟨⟨s₁', as₁⟩, h₁, rfl⟩ := hwithout
  obtain ⟨⟨s₂', as₂⟩, h₂, rfl⟩ := hwith
  exact (KsKv.SameFrom.refl 0 ksKvInit).run hadded hclock (fun _ _ => UInt64.zero_le) h₁ h₂

/-- A key that expires, reaped in between: the count and the read do not change. -/
theorem ksKv_reaping_invisible_expired :
    List.Forall₂ KsKvAnswer.Same
      [.set .inserted, .set .inserted, .get none, .size 1]
      (originalAnswers
        [(⟨.setEx (.ofBytes [107]) [7] 1, ⟨5, 6⟩, fun _ => true⟩, false),
          (⟨.set (.ofBytes [120]) [], ⟨7, 7⟩, fun _ => true⟩, false),
          (⟨.reap 8, ⟨1006, 1006⟩, fun _ => true⟩, true),
          (⟨.get (.ofBytes [107]), ⟨1007, 1008⟩, fun _ => true⟩, false),
          (⟨.size, ⟨1009, 1009⟩, fun _ => true⟩, true),
          (⟨.size, ⟨1009, 1009⟩, fun _ => true⟩, false)]
        [.set .inserted, .set .inserted, .reap 1, .get none, .size 1, .size 1]) :=
  ksKv_reaping_invisible (by decide) (by unfold ClockForward; decide) (by decide +kernel)
    (by decide +kernel)

end Kessel
