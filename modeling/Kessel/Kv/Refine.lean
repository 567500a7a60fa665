import Kessel.Ds.Refine
import Kessel.Kv
import Kessel.TimedMap

/-!
# Kessel.Kv.Refine

The key-value store is a map of values with deadlines.

The abstract side is a function from keys to `TimedMap.Entry`; `KsKvSpec` says
what each operation answers and does to it, and never mentions that an expired
entry may still occupy a slot of the table.  `KsKv.Tracks` hides exactly that:
the table covers the map at the current time.  `ksKv_refines_timedMap` follows
the store through whole runs, for every clock that does not go backwards.
-/

namespace Kessel

open Word TimedMap Refinement

/-! ## calls and answers -/

inductive KsKvOp where
  | set (key : CStr) (value : List UInt8)
  | setEx (key : CStr) (value : List UInt8) (ttlSeconds : UInt64)
  | get (key : CStr)
  | delete (key : CStr)
  | exists (key : CStr)
  | expire (key : CStr) (ttlSeconds : UInt64)
  | ttl (key : CStr)
  | reap (budget : Nat)
  | size

/-- One call, with the time at which it runs and the allocations it is granted. -/
structure KsKvCall where
  op : KsKvOp
  now : UInt64
  heap : KsHeap

inductive KsKvAnswer where
  | set (result : KsKvSetResult)
  | get (value : Option (List UInt8))
  | delete (removed : Bool)
  | exists (found : Bool)
  | expire (result : KsKvExpireResult)
  | ttl (seconds : Int)
  | reap (removed : Nat)
  | size (n : Nat)
  deriving DecidableEq, Repr

/-- One call of the store. -/
def ksKvStep (s : KsKv) (c : KsKvCall) : KsKv × KsKvAnswer :=
  let now := KsReadings.constant c.now
  match c.op with
  | .set key value => (ksKvSet s key value c.heap now).map id .set
  | .setEx key value ttl => (ksKvSetEx s key value ttl c.heap now).map id .set
  | .get key => (ksKvGet s key now).map id .get
  | .delete key => (ksKvDelete s key now).map id .delete
  | .exists key => (ksKvExists s key now).map id .exists
  | .expire key ttl => (ksKvExpire s key ttl now).map id .expire
  | .ttl key => (ksKvTtl s key now).map id .ttl
  | .reap budget => (ksKvReap s budget c.now).map id .reap
  | .size => (ksKvSize s c.now).map id .size

/-! ## the reference -/

/-- The reference: keys to values with deadlines. -/
abbrev KsKvRef := CStr → Option (Entry (List UInt8))

/-- The deadline that a time to live asks for; `none` when `now + 1000·ttl` is not
a 64-bit number. -/
def askedDeadline (now ttlSeconds : UInt64) : Option (Option Nat) :=
  if ttlSeconds = 0 then some none
  else if now.toNat + 1000 * ttlSeconds.toNat < 2 ^ 64 then
    some (some (now.toNat + 1000 * ttlSeconds.toNat))
  else none

/-- Both copies that a `set` makes can be made. -/
def CopiesGranted (value : List UInt8) (heap : KsHeap) : Prop :=
  heap .keyCopy = true ∧ heap .valueCopy = true ∧ value.length + 17 ≤ sizeMax

/-- The table may be unable to take one more key: its array is refused, or the
keys ever stored in `m` are so many that a bigger array is not addressable. -/
def GrowthRefused (m : KsKvRef) (heap : KsHeap) : Prop :=
  heap .tableEntries = false ∨
    ∃ n : Nat, KsDs.AddressSpaceFull n ∧ (n : ℕ∞) ≤ {k | (m k).isSome}.encard

/-- What `TTL` answers for what a reader sees. -/
def remainingTtl (now : Nat) : Option (Entry (List UInt8)) → Int
  | none => -2
  | some ⟨_, none⟩ => -1
  | some ⟨_, some deadline⟩ => ((deadline - now) / 1000 : Nat)

/-- Storing a value under a key. -/
inductive KsKvSetSpec (m : KsKvRef) (key : CStr) (value : List UInt8) (ttlSeconds now : UInt64)
    (heap : KsHeap) : KsKvSetResult → KsKvRef → Prop where
  | stored {deadline} : askedDeadline now ttlSeconds = some deadline → CopiesGranted value heap →
      KsKvSetSpec m key value ttlSeconds now heap
        (if (view now.toNat m key).isSome then .replaced else .inserted)
        (Function.update m key (some ⟨value, deadline⟩))
  | badDeadline : askedDeadline now ttlSeconds = none →
      KsKvSetSpec m key value ttlSeconds now heap .error m
  | noCopies : ¬ CopiesGranted value heap → KsKvSetSpec m key value ttlSeconds now heap .error m
  | noRoom : view now.toNat m key = none → GrowthRefused m heap →
      KsKvSetSpec m key value ttlSeconds now heap .error m

/-- What each call answers and does to the reference. -/
inductive KsKvSpec : KsKvRef → KsKvCall → KsKvAnswer → KsKvRef → Prop where
  | set {m key value now heap r m'} : KsKvSetSpec m key value 0 now heap r m' →
      KsKvSpec m ⟨.set key value, now, heap⟩ (.set r) m'
  | setEx {m key value ttl now heap r m'} : KsKvSetSpec m key value ttl now heap r m' →
      KsKvSpec m ⟨.setEx key value ttl, now, heap⟩ (.set r) m'
  | get {m key now heap} :
      KsKvSpec m ⟨.get key, now, heap⟩ (.get ((view now.toNat m key).map Entry.value)) m
  | delete {m key now heap} :
      KsKvSpec m ⟨.delete key, now, heap⟩ (.delete (view now.toNat m key).isSome)
        (Function.update m key none)
  | exists {m key now heap} :
      KsKvSpec m ⟨.exists key, now, heap⟩ (.exists (view now.toNat m key).isSome) m
  | expireMissing {m key ttl now heap} : view now.toNat m key = none →
      KsKvSpec m ⟨.expire key ttl, now, heap⟩ (.expire .missing) m
  | expireNow {m key now heap} : (view now.toNat m key).isSome →
      KsKvSpec m ⟨.expire key 0, now, heap⟩ (.expire .updated) (Function.update m key none)
  | expireAt {m key ttl now heap value d deadline} : view now.toNat m key = some ⟨value, d⟩ →
      ttl ≠ 0 → askedDeadline now ttl = some deadline →
      KsKvSpec m ⟨.expire key ttl, now, heap⟩ (.expire .updated)
        (Function.update m key (some ⟨value, deadline⟩))
  | expireError {m key ttl now heap} : (view now.toNat m key).isSome →
      askedDeadline now ttl = none → KsKvSpec m ⟨.expire key ttl, now, heap⟩ (.expire .error) m
  | ttl {m key now heap} :
      KsKvSpec m ⟨.ttl key, now, heap⟩ (.ttl (remainingTtl now.toNat (view now.toNat m key))) m
  | reap {m budget now heap} (dead : Finset CStr) :
      (∀ k ∈ dead, (m k).isSome ∧ view now.toNat m k = none) → dead.card ≤ budget →
      KsKvSpec m ⟨.reap budget, now, heap⟩ (.reap dead.card) (drop dead m)
  | size {m now heap} {n : Nat} : {k | (view now.toNat m k).isSome}.encard = (n : ℕ∞) →
      KsKvSpec m ⟨.size, now, heap⟩ (.size n) m

/-! ## the store as a map -/

/-- The entry that a stored value stands for. -/
def KsKvValue.timed (v : KsKvValue) : Entry (List UInt8) :=
  ⟨v.data, if v.deadlineMs = 0 then none else some v.deadlineMs⟩

/-- A stored value has expired when its entry is not live. -/
theorem KsKvValue.live_timed (v : KsKvValue) (now : UInt64) :
    v.timed.live now.toNat = !v.expired now := by
  rw [Bool.eq_iff_iff]
  by_cases h : v.deadlineMs = 0 <;> simp [timed, Entry.live, expired, h]

/-- The deadline of an entry is a 64-bit number. -/
theorem KsKvValue.timed_deadline_lt {v : KsKvValue} (h : v.deadlineMs < 2 ^ 64) {d : Nat}
    (hd : v.timed.deadline = some d) : d < 2 ^ 64 := by
  simp only [timed] at hd
  split at hd
  · cases hd
  · rw [← Option.some.inj hd]
    exact h

/-- Equal keys of the store have equal hashes. -/
def ksKvLawfulCallbacks : KsDsLawfulCallbacks CStr where
  toKsDsCallbacks := ksKvCallbacks
  hash_eq h := congrArg ksKvHash (of_decide_eq_true h)

/-- Two keys are the same when their bytes are. -/
theorem ksKvCallbacks_eqv {a b : CStr} : ksKvCallbacks.eqv a b = true ↔ a = b := by
  rw [show ksKvCallbacks.eqv = ksKvEqual from ksKvLawfulCallbacks.eqv_eq_equal, ksKvEqual,
    decide_eq_true_eq]

/-- What the table holds, live or not. -/
def KsKv.timed (s : KsKv) : KsKvRef := fun k => (s.entries.get k).map KsKvValue.timed

/-- The table after a removal. -/
theorem KsKv.timed_remove (s : KsKv) (key : CStr) :
    KsKv.timed { s with entries := (s.entries.remove key).1 } =
      Function.update s.timed key none := by
  funext k
  rw [timed, KsDsTable.get_remove, Function.update_apply]
  simp only [ksKvCallbacks_eqv, eq_comm (a := key)]
  split <;> rfl

/-- The table after a put that has not failed. -/
theorem KsKv.timed_put (s : KsKv) (key : CStr) (value : KsKvValue) (grant : Bool)
    (h : (s.entries.put key value grant).2 ≠ .error) :
    KsKv.timed { s with entries := (s.entries.put key value grant).1 } =
      Function.update s.timed key (some value.timed) := by
  funext k
  rw [timed, KsDsTable.get_put _ _ _ _ h, Function.update_apply]
  simp only [ksKvCallbacks_eqv, eq_comm (a := key)]
  split <;> rfl

/-- The table after a change in place. -/
theorem KsKv.timed_update (s : KsKv) (key : CStr) (f : KsKvValue → KsKvValue) :
    KsKv.timed { s with entries := s.entries.update key f } =
      Function.update s.timed key ((s.entries.get key).map fun v => (f v).timed) := by
  funext k
  rw [timed, KsDsTable.get_update, Function.update_apply]
  simp only [ksKvCallbacks_eqv, eq_comm (a := key)]
  split
  · next h => rw [h, Option.map_map]; rfl
  · rfl

/-! ## the simulation relation -/

/-- At time `now` the table covers the reference, with 64-bit deadlines. -/
structure KsKv.Tracks (now : UInt64) (s : KsKv) (m : KsKvRef) : Prop where
  covers : Covers now.toNat s.timed m
  fits : ∀ k e, s.timed k = some e → ∀ d, e.deadline = some d → d < 2 ^ 64

namespace KsKv.Tracks

variable {now : UInt64} {s s' : KsKv} {m : KsKvRef}

/-- Time only takes entries away. -/
theorem mono {later : UInt64} (h : s.Tracks now m) (hle : now ≤ later) : s.Tracks later m :=
  ⟨h.covers.mono (UInt64.le_iff_toNat_le.mp hle), h.fits⟩

/-- The same write to the table and to the reference. -/
theorem update (h : s.Tracks now m) {key : CStr} {e : Option (Entry (List UInt8))}
    (hs : s'.timed = Function.update s.timed key e)
    (hfits : ∀ e', e = some e' → ∀ d, e'.deadline = some d → d < 2 ^ 64) :
    s'.Tracks now (Function.update m key e) := by
  constructor
  · rw [hs]
    exact h.covers.update key e
  · intro k e' he'
    rw [hs] at he'
    by_cases hk : k = key
    · rw [hk, Function.update_self] at he'
      exact hfits e' he'
    · rw [Function.update_of_ne hk] at he'
      exact h.fits k e' he'

/-- A removal on both sides. -/
theorem remove (h : s.Tracks now m) (key : CStr) :
    KsKv.Tracks now { s with entries := (s.entries.remove key).1 } (Function.update m key none) :=
  h.update (s.timed_remove key) (by simp)

/-- Removing an expired entry is invisible. -/
theorem forget (h : s.Tracks now m) {key : CStr} {v : KsKvValue} (hget : s.entries.get key = some v)
    (hexp : v.expired now = true) :
    KsKv.Tracks now { s with entries := (s.entries.remove key).1 } m := by
  have hdead : view now.toNat s.timed key = none := by
    simp [view, KsKv.timed, hget, KsKvValue.live_timed, hexp]
  have hremove := h.remove key
  refine ⟨?_, hremove.fits⟩
  rw [s.timed_remove]
  exact h.covers.forget hdead

/-- Dead entries may stay in the reference. -/
theorem of_drop {dead : Finset CStr} (h : s.Tracks now (drop dead m))
    (hdead : ∀ k ∈ dead, view now.toNat m k = none) : s.Tracks now m :=
  ⟨h.covers.of_drop hdead, h.fits⟩

/-- The value of a tracked key, when it is not expired, is what a reader sees. -/
theorem view_eq (h : s.Tracks now m) {key : CStr}
    (hlive : ∀ v, s.entries.get key = some v → v.expired now = false) :
    view now.toNat m key = (s.entries.get key).map KsKvValue.timed := by
  rw [← h.covers.view_eq key]
  cases hget : s.entries.get key with
  | none => simp [view, KsKv.timed, hget]
  | some v => simp [view, KsKv.timed, hget, KsKvValue.live_timed, hlive v hget]

/-- There are no more keys in the table than in the reference. -/
theorem size_le (h : s.Tracks now m) :
    (s.entries.table.size : ℕ∞) ≤ {k | (m k).isSome}.encard := by
  rw [← s.entries.encard_keys ksKvCallbacks_eqv.mp]
  apply Set.encard_le_encard
  intro k hk
  obtain ⟨v, hv⟩ := Option.isSome_iff_exists.mp hk
  exact Option.isSome_iff_exists.mpr ⟨_, h.covers.sound k v.timed (by simp [KsKv.timed, hv])⟩

end KsKv.Tracks

/-! ## deadlines -/

/-- `ks_ttl_deadline` computes the deadline that is asked for. -/
theorem ksTtlDeadline_spec (now : UInt64) {ttlSeconds : UInt64} (h : ttlSeconds ≠ 0) :
    (ksTtlDeadline now ttlSeconds = none ∧ askedDeadline now ttlSeconds = none) ∨
      ∃ d, ksTtlDeadline now ttlSeconds = some d ∧ 0 < d ∧ d < 2 ^ 64 ∧
        askedDeadline now ttlSeconds = some (some d) := by
  have hnow := now.toNat_lt
  have hmax : sizeMax = 2 ^ 64 - 1 := by unfold sizeMax; rfl
  have hpos : 0 < ttlSeconds.toNat := by
    rw [Nat.pos_iff_ne_zero]
    exact fun h0 => h (UInt64.toNat_inj.mp h0)
  have hdiv : ttlSeconds.toNat > (sizeMax - now.toNat) / 1000 ↔
      ¬ now.toNat + 1000 * ttlSeconds.toNat < 2 ^ 64 := by
    rw [gt_iff_lt, Nat.div_lt_iff_lt_mul (by decide), hmax]
    omega
  unfold ksTtlDeadline askedDeadline
  by_cases hfit : now.toNat + 1000 * ttlSeconds.toNat < 2 ^ 64
  · refine .inr ⟨now.toNat + 1000 * ttlSeconds.toNat, ?_, by omega, hfit,
      by rw [if_neg h, if_pos hfit]⟩
    have hmul : u64 (ttlSeconds.toNat * 1000) = 1000 * ttlSeconds.toNat := by
      rw [u64_of_lt (by omega), Nat.mul_comm]
    simp only [h, hdiv, hfit, not_true_eq_false, or_self, if_false, hmul, u64_of_lt hfit]
  · exact .inl ⟨by rw [if_pos (.inr (hdiv.mpr hfit))], by rw [if_neg h, if_neg hfit]⟩

/-! ## `ks_kv_find_live` -/

/-- What is found is what a reader sees, and nothing expired stays behind. -/
theorem ksKvFindLive_spec {now : UInt64} {s : KsKv} {m : KsKvRef} (h : s.Tracks now m)
    (key : CStr) :
    ∃ s', ksKvFindLive s key now = (s', s'.entries.get key) ∧ s'.Tracks now m ∧
      view now.toNat m key = (s'.entries.get key).map KsKvValue.timed := by
  unfold ksKvFindLive
  cases hget : s.entries.get key with
  | none => exact ⟨s, by rw [hget], h, h.view_eq (by simp [hget])⟩
  | some v =>
    by_cases hexp : v.expired now = true
    · have hnone : (s.entries.remove key).1.get key = none := by
        rw [KsDsTable.get_remove, if_pos (ksKvCallbacks.eqv_isEquiv.refl key)]
      have hforget := h.forget hget hexp
      exact ⟨_, by simp [hexp, hnone], hforget, hforget.view_eq (by simp [hnone])⟩
    · have hlive : ∀ v', s.entries.get key = some v' → v'.expired now = false := by
        intro v' hv
        rw [hget, Option.some.injEq] at hv
        simpa [← hv] using hexp
      exact ⟨s, by simp [hget, hexp], h, h.view_eq hlive⟩

/-! ## the operations, one by one -/

section

variable {now : UInt64} {s : KsKv} {m : KsKvRef}

/-- The deadline that `ks_kv_set_ex` stores stands for the one asked for. -/
theorem ksKvSetEx_deadline (now ttlSeconds : UInt64) :
    (askedDeadline now ttlSeconds = none ∧
        (if ttlSeconds ≠ 0 then ksTtlDeadline now ttlSeconds else some 0) = none) ∨
      ∃ d, d < 2 ^ 64 ∧ askedDeadline now ttlSeconds = some (if d = 0 then none else some d) ∧
        (if ttlSeconds ≠ 0 then ksTtlDeadline now ttlSeconds else some 0) = some d := by
  by_cases h : ttlSeconds = 0
  · exact .inr ⟨0, by decide, by simp [askedDeadline, h], by simp [h]⟩
  · rw [if_pos h]
    rcases ksTtlDeadline_spec now h with ⟨hnone, hasked⟩ | ⟨d, hsome, hpos, hlt, hasked⟩
    · exact .inl ⟨hasked, hnone⟩
    · exact .inr ⟨d, hlt, by rw [hasked, if_neg (by omega)], hsome⟩

/-- Copies are made when they are granted. -/
theorem ksKvCopies_eq (key : CStr) (value : List UInt8) (d : Nat) (heap : KsHeap) :
    (CopiesGranted value heap ∧ ksKvCopyKey key heap = some key ∧
        ksKvCopyValue value d heap = some ⟨value, d⟩) ∨
      (¬ CopiesGranted value heap ∧
        (ksKvCopyKey key heap = none ∨ ksKvCopyValue value d heap = none)) := by
  have hmax : sizeMax = 2 ^ 64 - 1 := by unfold sizeMax; rfl
  have hlen : value.length + 17 ≤ sizeMax ↔ ¬ value.length > sizeMax - ksKvValueSize - 1 := by
    rw [ksKvValueSize, hmax]
    omega
  unfold CopiesGranted ksKvCopyKey ksKvCopyValue
  cases hkey : heap .keyCopy <;> cases hvalue : heap .valueCopy <;>
    by_cases hbig : value.length > sizeMax - ksKvValueSize - 1 <;> simp [hbig, hlen]

/-- **`ks_kv_set_ex`** does what its specification says. -/
theorem ksKvSetEx_spec (h : s.Tracks now m) (key : CStr) (value : List UInt8) (ttlSeconds : UInt64)
    (heap : KsHeap) :
    ∃ s' r m', ksKvSetEx s key value ttlSeconds heap (.constant now) = (s', r) ∧
      KsKvSetSpec m key value ttlSeconds now heap r m' ∧ s'.Tracks now m' := by
  obtain ⟨s₁, hfind, h₁, hview⟩ := ksKvFindLive_spec h key
  unfold ksKvSetEx KsReadings.constant
  simp only [hfind]
  rcases ksKvSetEx_deadline now ttlSeconds with ⟨hasked, hnone⟩ | ⟨d, hlt, hasked, hsome⟩
  · rw [hnone]
    exact ⟨s₁, .error, m, rfl, .badDeadline hasked, h₁⟩
  rw [hsome]
  rcases ksKvCopies_eq key value d heap with ⟨hcopies, hkey, hvalue⟩ | ⟨hcopies, hnone⟩
  · simp only [hkey, hvalue]
    have htracks (hr : (s₁.entries.put key ⟨value, d⟩ (heap .tableEntries)).2 ≠ .error) :
        KsKv.Tracks now { s₁ with entries := (s₁.entries.put key ⟨value, d⟩ (heap .tableEntries)).1 }
          (Function.update m key (some ⟨value, if d = 0 then none else some d⟩)) := by
      apply h₁.update (s₁.timed_put key ⟨value, d⟩ _ hr)
      intro e' he' d' hd'
      rw [← Option.some.inj he'] at hd'
      exact KsKvValue.timed_deadline_lt hlt hd'
    have hreplaced (hr : (s₁.entries.put key ⟨value, d⟩ (heap .tableEntries)).2 ≠ .error) :=
      s₁.entries.put_replaced_iff key ⟨value, d⟩ _ hr
    have hstored := @KsKvSetSpec.stored m key _ _ _ _ _ hasked hcopies
    rw [hview, Option.isSome_map] at hstored
    cases hr : (s₁.entries.put key ⟨value, d⟩ (heap .tableEntries)).2 with
    | error =>
      obtain ⟨hsame, habsent, hgrowth⟩ := s₁.entries.put_error key ⟨value, d⟩ _ hr
      rw [habsent] at hview
      rw [hsame]
      exact ⟨s₁, .error, m, rfl,
        .noRoom hview (hgrowth.imp id fun hfull => ⟨_, hfull, h₁.size_le⟩), h₁⟩
    | inserted =>
      have hpresent := hreplaced (by simp [hr])
      cases hg : (s₁.entries.get key).isSome with
      | false => exact ⟨_, .inserted, _, rfl, by simpa [hg] using hstored, htracks (by simp [hr])⟩
      | true => simp [hr, hg] at hpresent
    | replaced =>
      have hpresent := hreplaced (by simp [hr])
      cases hg : (s₁.entries.get key).isSome with
      | true => exact ⟨_, .replaced, _, rfl, by simpa [hg] using hstored, htracks (by simp [hr])⟩
      | false => simp [hr, hg] at hpresent
  · refine ⟨s₁, .error, m, ?_, .noCopies hcopies, h₁⟩
    rcases hnone with hnone | hnone
    · simp only [hnone]
    · cases ksKvCopyKey key heap <;> simp only [hnone]

/-- **`ks_kv_get`** answers what a reader sees. -/
theorem ksKvGet_spec (h : s.Tracks now m) (key : CStr) :
    ∃ s', ksKvGet s key (.constant now) = (s', (view now.toNat m key).map Entry.value) ∧
      s'.Tracks now m := by
  obtain ⟨s', hfind, h', hview⟩ := ksKvFindLive_spec h key
  refine ⟨s', ?_, h'⟩
  rw [ksKvGet, KsReadings.constant, hfind, hview, Option.map_map]
  rfl

/-- **`ks_kv_exists`** answers whether a reader sees the key. -/
theorem ksKvExists_spec (h : s.Tracks now m) (key : CStr) :
    ∃ s', ksKvExists s key (.constant now) = (s', (view now.toNat m key).isSome) ∧
      s'.Tracks now m := by
  obtain ⟨s', hfind, h', hview⟩ := ksKvFindLive_spec h key
  refine ⟨s', ?_, h'⟩
  rw [ksKvExists, KsReadings.constant, hfind, hview, Option.isSome_map]

/-- Removing a key that is not in the table is invisible too. -/
theorem KsKv.Tracks.remove_absent (h : s.Tracks now m) {key : CStr}
    (hget : s.entries.get key = none) : s.Tracks now (Function.update m key none) := by
  have hsame : s.timed = Function.update s.timed key none := by
    rw [eq_comm, Function.update_eq_self_iff]
    simp [timed, hget]
  exact h.update hsame (by simp)

/-- **`ks_kv_delete`** removes the key on both sides. -/
theorem ksKvDelete_spec (h : s.Tracks now m) (key : CStr) :
    ∃ s', ksKvDelete s key (.constant now) = (s', (view now.toNat m key).isSome) ∧
      s'.Tracks now (Function.update m key none) := by
  obtain ⟨s', hfind, h', hview⟩ := ksKvFindLive_spec h key
  rw [ksKvDelete, KsReadings.constant, hfind, hview, Option.isSome_map]
  cases hget : s'.entries.get key with
  | none => exact ⟨s', rfl, h'.remove_absent hget⟩
  | some v =>
    have hremoved : (s'.entries.remove key).2 = true := by rw [KsDsTable.remove_snd, hget]; rfl
    exact ⟨_, by simp [hremoved], h'.remove key⟩

/-- **`ks_kv_expire`** does what its specification says. -/
theorem ksKvExpire_spec (h : s.Tracks now m) (key : CStr) (ttlSeconds : UInt64) (heap : KsHeap) :
    ∃ s' r m', ksKvExpire s key ttlSeconds (.constant now) = (s', r) ∧
      KsKvSpec m ⟨.expire key ttlSeconds, now, heap⟩ (.expire r) m' ∧ s'.Tracks now m' := by
  obtain ⟨s', hfind, h', hview⟩ := ksKvFindLive_spec h key
  rw [ksKvExpire, KsReadings.constant, hfind]
  cases hget : s'.entries.get key with
  | none =>
    rw [hget] at hview
    exact ⟨s', .missing, m, rfl, .expireMissing hview, h'⟩
  | some v =>
    rw [hget] at hview
    have hlive : (view now.toNat m key).isSome := by rw [hview]; rfl
    by_cases hzero : ttlSeconds = 0
    · have hremoved : (s'.entries.remove key).2 = true := by rw [KsDsTable.remove_snd, hget]; rfl
      subst hzero
      exact ⟨_, .updated, _, by simp [hremoved], .expireNow hlive, h'.remove key⟩
    · rcases ksTtlDeadline_spec now hzero with ⟨hnone, hasked⟩ | ⟨d, hsome, hpos, hlt, hasked⟩
      · exact ⟨s', .error, m, by simp [hzero, hnone], .expireError hlive hasked, h'⟩
      · have hupdate := s'.timed_update key fun v => { v with deadlineMs := d }
        rw [hget] at hupdate
        refine ⟨_, .updated, _, by simp [hzero, hsome], .expireAt hview hzero hasked,
          h'.update (hupdate.trans ?_) ?_⟩
        · simp [KsKvValue.timed, Nat.ne_of_gt hpos]
        · intro e' he' d' hd'
          rw [← Option.some.inj he', Option.some.injEq] at hd'
          omega

/-- **`ks_kv_ttl`** answers what is left of what a reader sees. -/
theorem ksKvTtl_spec (h : s.Tracks now m) (key : CStr) :
    ∃ s', ksKvTtl s key (.constant now) = (s', remainingTtl now.toNat (view now.toNat m key)) ∧
      s'.Tracks now m := by
  obtain ⟨s', hfind, h', hview⟩ := ksKvFindLive_spec h key
  refine ⟨s', ?_, h'⟩
  rw [ksKvTtl, KsReadings.constant, hfind, hview]
  cases hget : s'.entries.get key with
  | none => rfl
  | some v =>
    rw [hget] at hview
    obtain ⟨-, hlive⟩ := view_eq_some.mp hview
    by_cases hzero : v.deadlineMs = 0
    · simp [hzero, remainingTtl, KsKvValue.timed]
    · have hahead : now.toNat < v.deadlineMs := by
        simpa [KsKvValue.timed, Entry.live, hzero] using hlive
      have hfits : v.deadlineMs < 2 ^ 64 :=
        h'.fits key v.timed (by simp [KsKv.timed, hget]) _ (by simp [KsKvValue.timed, hzero])
      have hsigned := i64_div_thousand (n := v.deadlineMs - now.toNat) (by omega)
      simp [hzero, remainingTtl, KsKvValue.timed, hsigned]
      omega

/-! ## the reaper -/

/-- The slot that the next turn of the reaper looks at. -/
def KsKv.slot (s : KsKv) : Nat :=
  if s.reaperCursor ≥ s.entries.table.capacity then 0 else s.reaperCursor

/-- The slot does not hold an expired value. -/
def KsKv.Swept (now : UInt64) (s : KsKv) (i : Nat) : Prop :=
  ∀ h k v, s.entries.table.entry i = .occupied h k v → v.expired now = false

/-- The cursor of the reaper lies within the table. -/
theorem KsKv.slot_lt (s : KsKv) : s.slot < s.entries.table.capacity := by
  have := s.entries.wf.eight_le
  unfold slot
  split <;> omega

/-- One turn removes the expired value of its slot, or its slot holds none. -/
theorem ksKvReapStep_cases (s : KsKv) (now : UInt64) :
    (∃ hash k v, s.entries.table.entry s.slot = .occupied hash k v ∧ v.expired now = true ∧
        ksKvReapStep s now = (⟨(s.entries.remove k).1, s.slot + 1⟩, true)) ∨
      (s.Swept now s.slot ∧ ksKvReapStep s now = (⟨s.entries, s.slot + 1⟩, false)) := by
  unfold ksKvReapStep
  rw [← KsKv.slot]
  dsimp only
  cases hentry : s.entries.table.entry s.slot with
  | empty => exact .inr ⟨by simp [KsKv.Swept, hentry], rfl⟩
  | tombstone => exact .inr ⟨by simp [KsKv.Swept, hentry], rfl⟩
  | occupied hash k v =>
    cases hexp : v.expired now with
    | false =>
      refine .inr ⟨?_, by simp [hexp]⟩
      intro h' k' v' he
      rw [hentry] at he
      cases he
      exact hexp
    | true =>
      have hremoved := (s.entries.remove_slot s.slot_lt hentry).1
      exact .inl ⟨hash, k, v, rfl, hexp, by simp [hexp, hremoved]⟩

/-- What one turn does: nothing that a reader sees, or it removes one dead key. -/
theorem ksKvReapStep_spec (h : s.Tracks now m) :
    ∃ s' gone, ksKvReapStep s now = (s', gone) ∧
      ((gone = false ∧ s'.Tracks now m) ∨
        (gone = true ∧ ∃ k, (m k).isSome ∧ view now.toNat m k = none ∧
          s'.Tracks now (Function.update m k none))) := by
  rcases ksKvReapStep_cases s now with ⟨hash, k, v, hentry, hexp, hstep⟩ | ⟨-, hstep⟩
  · have hget := s.entries.get_of_entry s.slot_lt hentry
    have hfound := h.covers.sound k v.timed (by simp [KsKv.timed, hget])
    have hdead : view now.toNat m k = none := by
      simp [view, hfound, KsKvValue.live_timed, hexp]
    have hremove := h.remove k
    exact ⟨_, true, hstep, .inr ⟨rfl, k, by simp [hfound], hdead, hremove.covers, hremove.fits⟩⟩
  · exact ⟨_, false, hstep, .inl ⟨rfl, h.covers, h.fits⟩⟩

/-- The loop removes as many dead keys as it says, and at most its budget. -/
theorem ksKvReapLoop_spec (budget : Nat) {s : KsKv} {m : KsKvRef} (h : s.Tracks now m)
    (removed : Nat) :
    ∃ s' dead, ksKvReapLoop now budget s removed = (s', removed + dead.card) ∧
      dead.card ≤ budget ∧ (∀ k ∈ dead, (m k).isSome ∧ view now.toNat m k = none) ∧
      s'.Tracks now (drop dead m) := by
  induction budget generalizing s m removed with
  | zero => exact ⟨s, ∅, rfl, by simp, by simp, by rw [drop_empty]; exact h⟩
  | succ budget ih =>
    obtain ⟨s₁, gone, hstep, hcase⟩ := ksKvReapStep_spec h
    rw [ksKvReapLoop, hstep]
    rcases hcase with ⟨rfl, h₁⟩ | ⟨rfl, k, hk, hdead, h₁⟩
    · obtain ⟨s', dead, hloop, hcard, hdead, h'⟩ := ih h₁ removed
      exact ⟨s', dead, hloop, by omega, hdead, h'⟩
    · obtain ⟨s', dead, hloop, hcard, hrest, h'⟩ := ih h₁ (removed + 1)
      have hfresh : k ∉ dead := by
        intro hmem
        have := (hrest k hmem).1
        simp at this
      rw [drop_update] at h'
      refine ⟨s', insert k dead, ?_, ?_, ?_, h'⟩
      · simp only [if_true, hloop, Finset.card_insert_of_notMem hfresh]
        rw [Nat.add_assoc, Nat.add_comm 1]
      · rw [Finset.card_insert_of_notMem hfresh]
        omega
      · intro k' hk'
        rcases Finset.mem_insert.mp hk' with rfl | hmem
        · exact ⟨hk, hdead⟩
        · have hne : k' ≠ k := fun heq => hfresh (heq ▸ hmem)
          have := hrest k' hmem
          rwa [view_update_none, if_neg hne, Function.update_of_ne hne] at this

/-- One turn sweeps its slot, moves to the next one and undoes no other's turn. -/
theorem ksKvReapStep_sweeps (now : UInt64) (s : KsKv) :
    (ksKvReapStep s now).1.entries.table.capacity = s.entries.table.capacity ∧
      (ksKvReapStep s now).1.reaperCursor = s.slot + 1 ∧
      ∀ i, i = s.slot ∨ s.Swept now i → (ksKvReapStep s now).1.Swept now i := by
  rcases ksKvReapStep_cases s now with ⟨hash, k, v, hentry, hexp, hstep⟩ | ⟨hswept, hstep⟩
  · obtain ⟨-, hcap, hslots⟩ := s.entries.remove_slot s.slot_lt hentry
    rw [hstep]
    refine ⟨hcap, rfl, ?_⟩
    intro i hi h' k' v' he
    rw [hslots] at he
    split at he
    · cases he
    · next hne => exact (hi.resolve_left hne) h' k' v' he
  · rw [hstep]
    refine ⟨rfl, rfl, ?_⟩
    rintro i (rfl | hi)
    · exact hswept
    · exact hi

/-- The next turn looks at the next slot, round the table. -/
theorem ksKvReapStep_slot (now : UInt64) (s : KsKv) :
    (ksKvReapStep s now).1.slot = LinearProbe.walk s.entries.table.capacity s.slot 1 := by
  obtain ⟨hcap, hcursor, -⟩ := ksKvReapStep_sweeps now s
  have := s.slot_lt
  rw [KsKv.slot, hcap, hcursor, LinearProbe.walk]
  split
  · rw [show s.slot + 1 = s.entries.table.capacity by omega, Nat.mod_self]
  · rw [Nat.mod_eq_of_lt (by omega)]

/-- After a whole lap no slot holds an expired value. -/
theorem ksKvReapLoop_sweeps (now : UInt64) (budget : Nat) (s : KsKv) (removed i : Nat)
    (hi : s.Swept now i ∨ ∃ d < budget, LinearProbe.walk s.entries.table.capacity s.slot d = i) :
    (ksKvReapLoop now budget s removed).1.Swept now i ∧
      (ksKvReapLoop now budget s removed).1.entries.table.capacity = s.entries.table.capacity := by
  induction budget generalizing s removed with
  | zero =>
    rcases hi with hi | ⟨d, hd, -⟩
    · exact ⟨hi, rfl⟩
    · omega
  | succ budget ih =>
    obtain ⟨hcap, -, hsweeps⟩ := ksKvReapStep_sweeps now s
    have hrest : (ksKvReapStep s now).1.Swept now i ∨ ∃ d < budget,
        LinearProbe.walk s.entries.table.capacity (ksKvReapStep s now).1.slot d = i := by
      rcases hi with hi | ⟨d, hd, rfl⟩
      · exact .inl (hsweeps i (.inr hi))
      · cases d with
        | zero => exact .inl (hsweeps _ (.inl (LinearProbe.walk_zero s.slot_lt)))
        | succ d =>
          refine .inr ⟨d, by omega, ?_⟩
          rw [ksKvReapStep_slot, LinearProbe.walk_walk, Nat.add_comm]
    rw [← hcap] at hrest
    obtain ⟨hswept, hcap'⟩ := ih _ (if (ksKvReapStep s now).2 then removed + 1 else removed) hrest
    exact ⟨hswept, hcap'.trans hcap⟩

/-- A reaper with a turn for every slot leaves no expired value behind. -/
theorem ksKvReap_lap (s : KsKv) (now : UInt64) {k : CStr} {v : KsKvValue}
    (hget : (ksKvReap s s.entries.table.capacity now).1.entries.get k = some v) :
    v.expired now = false := by
  obtain ⟨i, hi, hash, k', he, -⟩ := KsDsTable.exists_entry_of_get _ hget
  have hsweep := ksKvReapLoop_sweeps now s.entries.table.capacity s 0
  have hcap := (hsweep s.slot (.inr (LinearProbe.exists_walk_eq s.slot_lt s.slot_lt))).2
  rw [ksKvReap, hcap] at hi
  exact (hsweep i (.inr (LinearProbe.exists_walk_eq s.slot_lt hi))).1 hash k' v he

/-- `ks_kv_size` counts the live keys. -/
theorem ksKvSize_spec (h : s.Tracks now m) :
    ∃ s' n, ksKvSize s now = (s', n) ∧
      {k | (view now.toNat m k).isSome}.encard = (n : ℕ∞) ∧ s'.Tracks now m := by
  obtain ⟨s', dead, hloop, -, hdead, h'⟩ := ksKvReapLoop_spec s.entries.table.capacity h 0
  have htracks : s'.Tracks now m := h'.of_drop fun k hk => (hdead k hk).2
  have hswept : ∀ k v, s'.entries.get k = some v → v.expired now = false := by
    intro k v hget
    have hlap := @ksKvReap_lap s now k v
    rw [ksKvReap, hloop] at hlap
    exact hlap hget
  refine ⟨s', s'.entries.table.size, by rw [ksKvSize, ksKvReap, hloop]; rfl, ?_, htracks⟩
  rw [← s'.entries.encard_keys ksKvCallbacks_eqv.mp]
  congr 1
  ext k
  rw [Set.mem_ofPred_eq, Set.mem_ofPred_eq, htracks.view_eq (hswept k), Option.isSome_map]

end

/-! ## runs -/

/-- **One call** of the store is one call of the reference. -/
theorem ksKvStep_spec {now : UInt64} {s : KsKv} {m : KsKvRef} (h : s.Tracks now m) (op : KsKvOp)
    (heap : KsHeap) :
    ∃ s' o m', ksKvStep s ⟨op, now, heap⟩ = (s', o) ∧ KsKvSpec m ⟨op, now, heap⟩ o m' ∧
      s'.Tracks now m' := by
  unfold ksKvStep
  cases op with
  | set key value =>
    obtain ⟨s', r, m', hset, hspec, h'⟩ := ksKvSetEx_spec h key value 0 heap
    exact ⟨s', .set r, m', by simp [ksKvSet, hset], .set hspec, h'⟩
  | setEx key value ttl =>
    obtain ⟨s', r, m', hset, hspec, h'⟩ := ksKvSetEx_spec h key value ttl heap
    exact ⟨s', .set r, m', by simp [hset], .setEx hspec, h'⟩
  | get key =>
    obtain ⟨s', hget, h'⟩ := ksKvGet_spec h key
    exact ⟨s', _, m, by simp [hget], .get, h'⟩
  | delete key =>
    obtain ⟨s', hdelete, h'⟩ := ksKvDelete_spec h key
    exact ⟨s', _, _, by simp [hdelete], .delete, h'⟩
  | «exists» key =>
    obtain ⟨s', hexists, h'⟩ := ksKvExists_spec h key
    exact ⟨s', _, m, by simp [hexists], .exists, h'⟩
  | expire key ttl =>
    obtain ⟨s', r, m', hexpire, hspec, h'⟩ := ksKvExpire_spec h key ttl heap
    exact ⟨s', .expire r, m', by simp [hexpire], hspec, h'⟩
  | ttl key =>
    obtain ⟨s', httl, h'⟩ := ksKvTtl_spec h key
    exact ⟨s', _, m, by simp [httl], .ttl, h'⟩
  | reap budget =>
    obtain ⟨s', dead, hloop, hcard, hdead, h'⟩ := ksKvReapLoop_spec budget h 0
    exact ⟨s', _, _, by simp [ksKvReap, hloop], .reap dead hdead hcard, h'⟩
  | size =>
    obtain ⟨s', n, hsize, hcount, h'⟩ := ksKvSize_spec h
    exact ⟨s', .size n, m, by simp [hsize], .size hcount, h'⟩

/-- The calls of a run come at times that do not go backwards. -/
def ClockRuns (t : UInt64) (c : KsKvCall) (t' : UInt64) : Prop := t ≤ c.now ∧ t' = c.now

/-- **One call of the store** is one call of the reference. -/
theorem ksKvStep_simulates :
    Simulates ClockRuns (fun s c => some (ksKvStep s c)) KsKvSpec fun now => KsKv.Tracks now := by
  rintro t s m ⟨op, now, heap⟩ t' h ⟨hle, rfl⟩
  obtain ⟨s', o, m', hstep, hspec, h'⟩ := ksKvStep_spec (h.mono hle) op heap
  exact ⟨s', o, m', congrArg some hstep, hspec, h'⟩

/-- Calls whose times do not decrease are admitted. -/
theorem admits_of_pairwise (calls : List KsKvCall)
    (hclock : calls.Pairwise fun c d => c.now ≤ d.now) (t : UInt64) (ht : ∀ c ∈ calls, t ≤ c.now) :
    Admits ClockRuns t calls := by
  induction calls generalizing t with
  | nil => trivial
  | cons c calls ih =>
    obtain ⟨hhead, htail⟩ := List.pairwise_cons.mp hclock
    exact ⟨c.now, ⟨ht c List.mem_cons_self, rfl⟩, ih htail c.now hhead⟩

/-- **The key-value store refines a map with deadlines**: in every run of calls
from `ks_kv_init_with_clock` whose clock does not go backwards, with any
allocation refused, every answer is one that the reference gives. -/
theorem ksKv_refines_timedMap (calls : List KsKvCall)
    (hclock : calls.Pairwise fun c d => c.now ≤ d.now) :
    ∃ s answers m, run (fun s c => some (ksKvStep s c)) ksKvInit calls = some (s, answers) ∧
      Runs KsKvSpec (fun _ => none) calls answers m := by
  have hempty : ksKvInit.timed = fun _ => none := by
    funext k
    simp [KsKv.timed, ksKvInit, KsDsTable.get_init]
  have hinit : ksKvInit.Tracks 0 fun _ => none :=
    ⟨by rw [hempty]; exact Covers.refl _ _, by simp [hempty]⟩
  have hadmits := admits_of_pairwise calls hclock 0 fun c _ => UInt64.zero_le
  obtain ⟨-, s, answers, m, hrun, hruns, -⟩ := ksKvStep_simulates.run calls hinit hadmits
  exact ⟨s, answers, m, hrun, hruns⟩

/-- A key set for one second at time 5, a refused `set` in between, a read and a
count at the deadline. -/
theorem ksKv_refines_timedMap_expiring :
    ∃ s answers m,
      run (fun s c => some (ksKvStep s c)) ksKvInit
          [⟨.setEx (.ofBytes [107]) [0, 7] 1, 5, fun _ => true⟩,
            ⟨.set (.ofBytes [107]) [], 6, fun _ => false⟩,
            ⟨.get (.ofBytes [107]), 1005, fun _ => true⟩, ⟨.size, 1005, fun _ => true⟩] =
        some (s, answers) ∧
      Runs KsKvSpec (fun _ => none)
          [⟨.setEx (.ofBytes [107]) [0, 7] 1, 5, fun _ => true⟩,
            ⟨.set (.ofBytes [107]) [], 6, fun _ => false⟩,
            ⟨.get (.ofBytes [107]), 1005, fun _ => true⟩, ⟨.size, 1005, fun _ => true⟩]
        answers m :=
  ksKv_refines_timedMap _ (by decide)

end Kessel
