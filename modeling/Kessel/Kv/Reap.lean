import Kessel.Kv.Refine
import Kessel.Kv.Values

/-!
# Kessel.Kv.Reap

The budgeted reaper as a sweep over the slots of the table.

A turn looks at one slot and moves the cursor to the next, round the table;
`ksKvReapLoop_slots` says what any number of turns does to every slot and to the
number of expired entries.  From it:

* `ksKvReap_add`: a call is its turns, however they are split into calls;
* `ksKv_reap_sweeps`: a call touches only the expired entries of the slots it
  scans, and calls that have a turn for every slot together remove every
  expired entry.

Other calls may come between the reaper's, as long as none inserts:
`KsKv.DueWithin` counts the turns after which every expired entry is gone.
-/

namespace Kessel

open LinearProbe

/-- Does the slot hold a value whose deadline is not zero and not after `now`? -/
def KsDsEntry.expired (now : UInt64) : KsDsEntry CStr KsKvValue → Bool
  | .occupied _ _ value => value.expired now
  | _ => false

/-- `store->entries.entries[i]` -/
def KsKv.entry (s : KsKv) (i : Nat) : KsDsEntry CStr KsKvValue := s.entries.table.entry i

/-- The number of expired entries in the table. -/
def KsKv.expiredCount (s : KsKv) (now : UInt64) : Nat :=
  s.entries.table.entries.countP (KsDsEntry.expired now)

/-- The slot is one of those that the next `budget` turns look at. -/
def KsKv.Scanned (s : KsKv) (budget i : Nat) : Prop :=
  ∃ d < budget, walk s.entries.table.capacity s.slot d = i

instance (s : KsKv) (budget i : Nat) : Decidable (s.Scanned budget i) :=
  inferInstanceAs (Decidable (∃ d < budget, walk s.entries.table.capacity s.slot d = i))

variable {now : UInt64} {s s' : KsKv}

/-! ## turns -/

/-- **One turn** buries the entry it looks at when that is expired, and says so. -/
theorem ksKvReapStep_slots (s : KsKv) (now : UInt64) :
    (ksKvReapStep s now).2 = (s.entry s.slot).expired now ∧
      (ksKvReapStep s now).1.entries.table.capacity = s.entries.table.capacity ∧
      (ksKvReapStep s now).1.entries.table.entries =
        if (s.entry s.slot).expired now then s.entries.table.entries.set s.slot .tombstone
        else s.entries.table.entries := by
  rcases ksKvReapStep_cases s now with ⟨hash, k, v, hentry, hexp, hstep⟩ | ⟨hswept, hstep⟩
  · have hdead : (s.entry s.slot).expired now = true := by rw [KsKv.entry, hentry]; exact hexp
    rw [hstep, hdead, if_pos rfl]
    exact ⟨rfl, (s.entries.remove_slot s.slot_lt hentry).2.1,
      s.entries.remove_entries s.slot_lt hentry⟩
  · have hlive : (s.entry s.slot).expired now = false := by
      cases hentry : s.entry s.slot with
      | occupied hash k v => exact hswept hash k v hentry
      | _ => rfl
    rw [hstep, hlive]
    exact ⟨rfl, rfl, rfl⟩

/-- One slot of the reaper, and the others as they were. -/
theorem ksKvReapStep_entry (s : KsKv) (now : UInt64) (i : Nat) :
    (ksKvReapStep s now).1.entry i =
      if i = s.slot ∧ (s.entry i).expired now then .tombstone else s.entry i := by
  obtain ⟨-, -, hentries⟩ := ksKvReapStep_slots s now
  have hlt : s.slot < s.entries.table.entries.length := by
    rw [s.entries.wf.length]
    exact s.slot_lt
  by_cases hexp : (s.entry s.slot).expired now = true
  · rw [if_pos hexp] at hentries
    have hset : (ksKvReapStep s now).1.entry i = if i = s.slot then .tombstone else s.entry i := by
      rw [KsKv.entry, KsKv.entry, ← KsDs.entry_withEntry hlt, KsDs.entry, KsDs.entry, hentries]
      rfl
    rw [hset]
    by_cases hi : i = s.slot
    · rw [if_pos hi, if_pos ⟨hi, by rw [hi]; exact hexp⟩]
    · rw [if_neg hi, if_neg fun h => hi h.1]
  · rw [if_neg hexp] at hentries
    rw [if_neg fun h => hexp (by rw [← h.1]; exact h.2), KsKv.entry, KsDs.entry, hentries]
    rfl

/-- A turn removes an expired entry exactly when it says so. -/
theorem ksKvReapStep_count (s : KsKv) (now : UInt64) :
    (if (ksKvReapStep s now).2 then 1 else 0) + (ksKvReapStep s now).1.expiredCount now =
      s.expiredCount now := by
  obtain ⟨hgone, -, hentries⟩ := ksKvReapStep_slots s now
  have hlt : s.slot < s.entries.table.entries.length := by
    rw [s.entries.wf.length]
    exact s.slot_lt
  rw [hgone, KsKv.expiredCount, KsKv.expiredCount, hentries]
  by_cases hexp : (s.entry s.slot).expired now = true
  · have hpos : 0 < s.entries.table.entries.countP (KsDsEntry.expired now) := by
      rw [KsKv.entry, KsDs.entry_of_lt hlt] at hexp
      exact List.countP_pos_iff.mpr ⟨_, List.getElem_mem hlt, hexp⟩
    rw [if_pos hexp, if_pos hexp, List.countP_set hlt]
    rw [KsKv.entry, KsDs.entry_of_lt hlt] at hexp
    rw [if_pos hexp, if_neg (by simp [KsDsEntry.expired])]
    omega
  · rw [if_neg hexp, if_neg hexp, Nat.zero_add]

/-- The slots scanned by one more turn. -/
theorem KsKv.scanned_succ (s : KsKv) (now : UInt64) (budget i : Nat) :
    s.Scanned (budget + 1) i ↔ i = s.slot ∨ (ksKvReapStep s now).1.Scanned budget i := by
  have hcap := (ksKvReapStep_slots s now).2.1
  unfold Scanned
  rw [hcap, ksKvReapStep_slot]
  constructor
  · rintro ⟨d, hd, rfl⟩
    cases d with
    | zero => exact .inl (walk_zero s.slot_lt)
    | succ d => exact .inr ⟨d, by omega, by rw [walk_walk, Nat.add_comm]⟩
  · rintro (rfl | ⟨d, hd, rfl⟩)
    · exact ⟨0, by omega, walk_zero s.slot_lt⟩
    · exact ⟨d + 1, by omega, by rw [walk_walk, Nat.add_comm]⟩

/-- **Any number of turns**: the expired entries of the scanned slots are buried
and counted, and every other slot stays as it is. -/
theorem ksKvReapLoop_slots (now : UInt64) (budget : Nat) (s : KsKv) (removed : Nat) :
    (ksKvReapLoop now budget s removed).1.entries.table.capacity = s.entries.table.capacity ∧
      (ksKvReapLoop now budget s removed).1.slot = walk s.entries.table.capacity s.slot budget ∧
      (ksKvReapLoop now budget s removed).2 +
          (ksKvReapLoop now budget s removed).1.expiredCount now =
        removed + s.expiredCount now ∧
      ∀ i, (ksKvReapLoop now budget s removed).1.entry i =
        if s.Scanned budget i ∧ (s.entry i).expired now then .tombstone else s.entry i := by
  induction budget generalizing s removed with
  | zero =>
    refine ⟨rfl, (walk_zero s.slot_lt).symm, rfl, fun i => ?_⟩
    rw [if_neg (by rintro ⟨⟨d, hd, -⟩, -⟩; omega)]
    rfl
  | succ budget ih =>
    have hcap := (ksKvReapStep_slots s now).2.1
    have hcount := ksKvReapStep_count s now
    obtain ⟨ihcap, ihslot, ihcount, ihentry⟩ :=
      ih (ksKvReapStep s now).1 (if (ksKvReapStep s now).2 then removed + 1 else removed)
    simp only [ksKvReapLoop]
    refine ⟨ihcap.trans hcap, ?_, ?_, fun i => ?_⟩
    · rw [ihslot, hcap, ksKvReapStep_slot, walk_walk, Nat.add_comm]
    · rw [ihcount, ← hcount]
      split <;> omega
    · simp only [ihentry, ksKvReapStep_entry s now i, s.scanned_succ now]
      -- the slot of this turn, expired or not, and the slots of the turns to come
      by_cases hi : i = s.slot
      · cases hexp : (s.entry i).expired now with
        | true => simp only [hi, and_self, true_or, if_true, ite_self]
        | false => simp [hexp]
      · simp only [hi, false_and, false_or, if_false]

/-! ## calls -/

/-- The reaper only adds to its count. -/
theorem ksKvReapLoop_removed (now : UInt64) (budget : Nat) (s : KsKv) (removed : Nat) :
    ksKvReapLoop now budget s removed =
      ((ksKvReap s budget now).1, removed + (ksKvReap s budget now).2) := by
  unfold ksKvReap
  induction budget generalizing s removed with
  | zero => rfl
  | succ budget ih =>
    simp only [ksKvReapLoop]
    rw [ih, ih _ (if (ksKvReapStep s now).2 then 0 + 1 else 0)]
    split
    · rw [Nat.zero_add, Nat.add_assoc]
    · rw [Nat.zero_add]

/-- A call is its turns, however they are split into calls. -/
theorem ksKvReap_add (s : KsKv) (a b : Nat) (now : UInt64) :
    ksKvReap s (a + b) now =
      ((ksKvReap (ksKvReap s a now).1 b now).1,
        (ksKvReap s a now).2 + (ksKvReap (ksKvReap s a now).1 b now).2) := by
  rw [← ksKvReapLoop_removed, ksKvReap, ksKvReap]
  generalize 0 = removed
  induction a generalizing s removed with
  | zero => rw [Nat.zero_add]; rfl
  | succ a ih =>
    rw [Nat.succ_add]
    exact ih _ _

/-- Consecutive calls, and how many entries they removed together. -/
def ksKvReaps (now : UInt64) : KsKv → List Nat → KsKv × Nat
  | s, [] => (s, 0)
  | s, budget :: budgets =>
    let (s, removed) := ksKvReap s budget now
    let (s, more) := ksKvReaps now s budgets
    (s, removed + more)

/-- Several calls of the reaper are one, with the sum of their budgets. -/
theorem ksKvReaps_eq (now : UInt64) (s : KsKv) (budgets : List Nat) :
    ksKvReaps now s budgets = ksKvReap s budgets.sum now := by
  induction budgets generalizing s with
  | nil => rfl
  | cons budget budgets ih =>
    rw [List.sum_cons, ksKvReap_add]
    simp only [ksKvReaps, ih]

/-! ## what is still due -/

/-- Every expired entry is in one of the slots of the next `n` turns. -/
def KsKv.DueWithin (now : UInt64) (s : KsKv) (n : Nat) : Prop :=
  ∀ i < s.entries.table.capacity, (s.entry i).expired now = true → s.Scanned n i

/-- A lap is enough, wherever the cursor stands. -/
theorem KsKv.dueWithin_capacity (now : UInt64) (s : KsKv) :
    s.DueWithin now s.entries.table.capacity :=
  fun _ hi _ => exists_walk_eq s.slot_lt hi

theorem KsKv.DueWithin.mono {n m : Nat} (h : s.DueWithin now n) (hle : n ≤ m) :
    s.DueWithin now m := by
  intro i hi hexp
  obtain ⟨d, hd, hwalk⟩ := h i hi hexp
  exact ⟨d, by omega, hwalk⟩

/-- A call does as many of the turns as its budget. -/
theorem KsKv.DueWithin.reap {n : Nat} (h : s.DueWithin now n) (budget : Nat) :
    (ksKvReap s budget now).1.DueWithin now (n - budget) := by
  obtain ⟨hcap, hslot, -, hentry⟩ := ksKvReapLoop_slots now budget s 0
  intro i hi hexp
  rw [ksKvReap, hcap] at hi
  rw [ksKvReap, hentry] at hexp
  by_cases hscan : s.Scanned budget i ∧ (s.entry i).expired now = true
  · rw [if_pos hscan] at hexp
    cases hexp
  · rw [if_neg hscan] at hexp
    obtain ⟨d, hd, hwalk⟩ := h i hi hexp
    have hlate : budget ≤ d := by
      by_contra hlt
      exact hscan ⟨⟨d, by omega, hwalk⟩, hexp⟩
    refine ⟨d - budget, by omega, ?_⟩
    rw [ksKvReap, hcap, hslot, walk_walk, Nat.add_sub_cancel' hlate]
    exact hwalk

/-- With nothing due no key has an expired value. -/
theorem KsKv.DueWithin.swept (h : s.DueWithin now 0) {k : CStr} {v : KsKvValue}
    (hget : s.entries.get k = some v) : v.expired now = false := by
  obtain ⟨i, hi, hash, k', he, -⟩ := s.entries.exists_entry_of_get hget
  by_contra hexp
  obtain ⟨d, hd, -⟩ := h i hi (by rw [KsKv.entry, he, KsDsEntry.expired]; simpa using hexp)
  omega

/-- When nothing is due, nothing has expired. -/
theorem KsKv.DueWithin.expiredCount (h : s.DueWithin now 0) : s.expiredCount now = 0 := by
  rw [KsKv.expiredCount, List.countP_eq_zero]
  intro e hm hexp
  obtain ⟨i, hi, rfl⟩ := List.getElem_of_mem hm
  rw [← KsDs.entry_of_lt hi] at hexp
  rw [s.entries.wf.length] at hi
  obtain ⟨d, hd, -⟩ := h i hi hexp
  omega

/-! ## a lap -/

/-- After a turn for every slot the table is the same without its expired entries. -/
theorem ksKvReap_entries (s : KsKv) (now : UInt64) {budget : Nat}
    (hlap : s.entries.table.capacity ≤ budget) :
    (ksKvReap s budget now).1.entries.table.entries =
      s.entries.table.entries.map fun e => if e.expired now then .tombstone else e := by
  obtain ⟨hcap, -, -, hentry⟩ := ksKvReapLoop_slots now budget s 0
  have hlen := s.entries.wf.length
  have hlen' := (ksKvReap s budget now).1.entries.wf.length
  rw [ksKvReap] at hlen' ⊢
  refine List.ext_getElem (by rw [hlen', hcap, List.length_map, hlen]) fun i hi hi' => ?_
  rw [List.length_map] at hi'
  have hscan : s.Scanned budget i := by
    obtain ⟨d, hd, hwalk⟩ := exists_walk_eq s.slot_lt (by rw [← hlen]; exact hi')
    exact ⟨d, by omega, hwalk⟩
  have hi_entry := hentry i
  rw [KsKv.entry, KsDs.entry_of_lt hi, KsKv.entry, KsDs.entry_of_lt hi'] at hi_entry
  rw [hi_entry, List.getElem_map]
  simp only [hscan, true_and]

/-- A whole lap removes every expired pair, and keeps the order of the rest. -/
theorem ksKvReap_live_filter (s : KsKv) (now : UInt64) {budget : Nat}
    (hlap : s.entries.table.capacity ≤ budget) :
    (ksKvReap s budget now).1.entries.live =
      s.entries.live.filter fun p => !p.2.expired now := by
  rw [KsDsTable.live, KsDsTable.live, KsDs.live, KsDs.live, ksKvReap_entries s now hlap,
    List.filterMap_map, List.filter_filterMap]
  refine List.filterMap_congr fun e _ => ?_
  cases e with
  | occupied hash k v => cases hexp : v.expired now <;> simp [KsDsEntry.expired, Option.filter, hexp]
  | _ => rfl

/-- Expired pairs are counted among the live ones of the table. -/
theorem KsKv.expiredCount_eq (s : KsKv) (now : UInt64) :
    s.expiredCount now = s.entries.live.countP fun p => p.2.expired now := by
  rw [expiredCount, KsDsTable.live, KsDs.live, List.countP_filterMap]
  refine List.countP_congr fun e _ => ?_
  cases e <;> simp [KsDsEntry.expired, KsDsEntry.live?]

/-- A lap counts the expired entries. -/
theorem ksKvReap_count (s : KsKv) (now : UInt64) {budget : Nat}
    (hlap : s.entries.table.capacity ≤ budget) :
    (ksKvReap s budget now).2 = s.entries.live.countP fun p => p.2.expired now := by
  have hdue := (s.dueWithin_capacity now).reap budget
  rw [Nat.sub_eq_zero_of_le hlap] at hdue
  have hcount := (ksKvReapLoop_slots now budget s 0).2.2.1
  rw [← s.expiredCount_eq, ← Nat.zero_add (s.expiredCount now), ← hcount, ← ksKvReap,
    hdue.expiredCount, Nat.add_zero]

/-! ## the other calls -/

/-- The slots stay where they are, and none of them expires. -/
structure KsKv.Thins (now : UInt64) (s s' : KsKv) : Prop where
  capacity : s'.entries.table.capacity = s.entries.table.capacity
  cursor : s'.reaperCursor = s.reaperCursor
  expired : ∀ i, (s'.entry i).expired now = true → (s.entry i).expired now = true

theorem KsKv.Thins.refl (now : UInt64) (s : KsKv) : s.Thins now s := ⟨rfl, rfl, fun _ h => h⟩

/-- A store that only loses pairs is due no later. -/
theorem KsKv.Thins.dueWithin {n : Nat} (ht : s.Thins now s') (h : s.DueWithin now n) :
    s'.DueWithin now n := by
  have hslot : s'.slot = s.slot := by rw [KsKv.slot, KsKv.slot, ht.capacity, ht.cursor]
  intro i hi hexp
  unfold Scanned
  rw [hslot, ht.capacity]
  exact h i (by rw [← ht.capacity]; exact hi) (ht.expired i hexp)

/-- A removal loses a pair. -/
theorem KsKv.Thins.remove (ht : s.Thins now s') (key : CStr) :
    s.Thins now { s' with entries := (s'.entries.remove key).1 } := by
  obtain ⟨hcap, hentry⟩ := ksDsRemove_entry (s'.entries.remove_eq key)
  refine ⟨hcap.trans ht.capacity, ht.cursor, fun i hexp => ht.expired i ?_⟩
  rw [KsKv.entry] at hexp ⊢
  rcases hentry i with he | he
  · rw [← he]
    exact hexp
  · rw [he] at hexp
    cases hexp

/-- A deadline that is ahead makes nothing due. -/
theorem KsKv.Thins.setDeadline (ht : s.Thins now s') {d : Nat} (hd : now.toNat < d) (key : CStr) :
    s.Thins now
      { s' with entries := s'.entries.update key fun v => { v with deadlineMs := d } } := by
  obtain ⟨hcap, hentry⟩ := ksDsUpdate_entry (s'.entries.update_eq key fun v => { v with deadlineMs := d })
  refine ⟨hcap.trans ht.capacity, ht.cursor, fun i hexp => ht.expired i ?_⟩
  rw [KsKv.entry] at hexp ⊢
  rcases hentry i with he | ⟨hash, k, v, he⟩
  · rw [← he]
    exact hexp
  · rw [he, KsDsEntry.expired, KsKvValue.expired] at hexp
    simp only [Bool.and_eq_true, decide_eq_true_eq] at hexp
    omega

/-- Losing pairs is closed under all that the store does to its table. -/
theorem KsKv.Thins.closed (now : UInt64) (s : KsKv) :
    KsKv.Closed (now.toNat < ·) (KsKv.Thins now s) where
  remove _ key ht := ht.remove key
  setDeadline _ key _ hd ht := ht.setDeadline hd key

/-- A new deadline is ahead. -/
theorem lt_ksTtlDeadline {now ttlSeconds : UInt64} {d : Nat} (hzero : ttlSeconds ≠ 0)
    (h : ksTtlDeadline now ttlSeconds = some d) : now.toNat < d := by
  have hpos : 0 < ttlSeconds.toNat := by
    rw [Nat.pos_iff_ne_zero]
    exact fun h0 => hzero (UInt64.toNat_inj.mp h0)
  rcases ksTtlDeadline_spec now hzero with ⟨hnone, -⟩ | ⟨d', hsome, -, -, hasked⟩
  · rw [hnone] at h
    cases h
  · rw [h] at hsome
    cases hsome
    unfold askedDeadline at hasked
    rw [if_neg hzero] at hasked
    split at hasked
    · cases hasked
      omega
    · cases hasked

/-- Does the call insert a key? -/
def KsKvOp.inserts : KsKvOp → Bool
  | .set _ _ => true
  | .setEx _ _ _ => true
  | _ => false

/-- The budget of a call of the reaper. -/
def KsKvOp.budget : KsKvOp → Nat
  | .reap budget => budget
  | _ => 0

/-- **One call** that inserts nothing leaves no more turns due than before, and a
call of the reaper leaves as many fewer as its budget. -/
theorem KsKv.DueWithin.call {n : Nat} (h : s.DueWithin now n) {op : KsKvOp}
    (hop : op.inserts = false) (heap : KsHeap) :
    (ksKvStep s ⟨op, now, heap⟩).1.DueWithin now (n - op.budget) := by
  have hclosed := KsKv.Thins.closed now s
  have hrefl := KsKv.Thins.refl now s
  cases op with
  | set key value => cases hop
  | setEx key value ttl => cases hop
  | get key => exact (hclosed.findLive hrefl key now).dueWithin h
  | delete key => exact (hclosed.delete hrefl key (.constant now)).dueWithin h
  | «exists» key => exact (hclosed.findLive hrefl key now).dueWithin h
  | expire key ttl =>
    have hthins := hclosed.expire hrefl key ttl (.constant now) fun _ hzero hd =>
      lt_ksTtlDeadline hzero hd
    exact hthins.dueWithin h
  | ttl key => exact (hclosed.ttl hrefl key (.constant now)).dueWithin h
  | reap budget => exact h.reap budget
  | size => exact (h.reap s.entries.table.capacity).mono (Nat.sub_le _ _)

/-- Calls that insert nothing, at one clock reading. -/
def ksKvCalls (now : UInt64) (heap : KsHeap) (s : KsKv) (ops : List KsKvOp) : KsKv :=
  ops.foldl (fun s op => (ksKvStep s ⟨op, now, heap⟩).1) s

/-- Calls that insert nothing do not delay the sweep. -/
theorem KsKv.DueWithin.calls {n : Nat} (h : s.DueWithin now n) {ops : List KsKvOp}
    (hops : ∀ op ∈ ops, op.inserts = false) (heap : KsHeap) :
    (ksKvCalls now heap s ops).DueWithin now (n - (ops.map KsKvOp.budget).sum) := by
  induction ops generalizing s n with
  | nil => exact h
  | cons op ops ih =>
    obtain ⟨hop, hrest⟩ := List.forall_mem_cons.mp hops
    rw [List.map_cons, List.sum_cons, ← Nat.sub_sub]
    exact ih (h.call hop heap) hrest

/-- **The reaper composes and sweeps completely**, from every store, wherever its
cursor stands, at one clock reading.  A turn buries the entry of its slot when
that is expired and touches nothing else; a call is its turns; calls that have a
turn for every slot leave the entries that are not expired and say how many they
removed; and the same calls leave no expired entry when others that insert
nothing come between them. -/
theorem ksKv_reap_sweeps (s : KsKv) (now : UInt64) :
    (∀ i, (ksKvReapStep s now).1.entry i =
        if i = s.slot ∧ (s.entry i).expired now then .tombstone else s.entry i) ∧
      (∀ a b, ksKvReap s (a + b) now =
        ((ksKvReap (ksKvReap s a now).1 b now).1,
          (ksKvReap s a now).2 + (ksKvReap (ksKvReap s a now).1 b now).2)) ∧
      (∀ budget i, (ksKvReap s budget now).1.entry i =
        if s.Scanned budget i ∧ (s.entry i).expired now then .tombstone else s.entry i) ∧
      (∀ budgets, s.entries.table.capacity ≤ budgets.sum →
        (ksKvReaps now s budgets).1.entries.live =
            s.entries.live.filter (fun p => !p.2.expired now) ∧
          (ksKvReaps now s budgets).2 = s.entries.live.countP fun p => p.2.expired now) ∧
      ∀ ops heap, (∀ op ∈ ops, op.inserts = false) →
        s.entries.table.capacity ≤ (ops.map KsKvOp.budget).sum →
          ∀ k v, (ksKvCalls now heap s ops).entries.get k = some v → v.expired now = false := by
  refine ⟨ksKvReapStep_entry s now, fun a b => ksKvReap_add s a b now,
    fun budget i => (ksKvReapLoop_slots now budget s 0).2.2.2 i, fun budgets hbudgets => ?_,
    fun ops heap hops hbudgets k v hget => ?_⟩
  · rw [ksKvReaps_eq]
    exact ⟨ksKvReap_live_filter s now hbudgets, ksKvReap_count s now hbudgets⟩
  · have hdue := (s.dueWithin_capacity now).calls hops heap
    rw [Nat.sub_eq_zero_of_le hbudgets] at hdue
    exact hdue.swept hget

end Kessel
