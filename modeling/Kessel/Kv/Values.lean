import Kessel.Kv

/-!
# Kessel.Kv.Values

What the stored values have in common.

`s.Keeps P` says that the bytes of every stored value, live or expired, have the
property `P`, and that every deadline is a 64-bit number.  Every operation keeps
it, with any two clock readings and any allocations, when the values that are
written have it.

Of the operations that store no value only removals and new deadlines reach the
table: `KsKv.Closed` says what these two keep, and its lemmas that the operations
keep it.
-/

namespace Kessel

open Word

/-! ## what is kept where nothing is stored -/

/-- Removing a key keeps the property, and so does giving a key one of the
`allowed` deadlines. -/
structure KsKv.Closed (allowed : Nat → Prop) (C : KsKv → Prop) : Prop where
  remove : ∀ s key, C s → C { s with entries := (s.entries.remove key).1 }
  setDeadline : ∀ s key d, allowed d → C s →
    C { s with entries := s.entries.update key fun v => { v with deadlineMs := d } }

namespace KsKv.Closed

variable {allowed : Nat → Prop} {C : KsKv → Prop} {s : KsKv} (hC : KsKv.Closed allowed C)

include hC

/-- A key that has expired may be removed on the way. -/
theorem findLive (h : C s) (key : CStr) (now : UInt64) : C (ksKvFindLive s key now).1 := by
  unfold ksKvFindLive
  split
  · exact h
  · split
    · exact hC.remove s key h
    · exact h

/-- `ks_kv_delete` keeps what removals keep. -/
theorem delete (h : C s) (key : CStr) (now : KsReadings) : C (ksKvDelete s key now).1 := by
  have hfind := hC.findLive h key now.first
  unfold ksKvDelete
  split
  · next s₁ heq => rw [heq] at hfind; exact hfind
  · next s₁ v heq => rw [heq] at hfind; exact hC.remove s₁ key hfind

/-- `ks_kv_expire` keeps it while the deadline that it stores is allowed. -/
theorem expire (h : C s) (key : CStr) (ttl : UInt64) (now : KsReadings)
    (hallowed : ∀ d, ttl ≠ 0 → ksTtlDeadline now.second ttl = some d → allowed d) :
    C (ksKvExpire s key ttl now).1 := by
  have hfind := hC.findLive h key now.first
  unfold ksKvExpire
  split
  · next s₁ heq => rw [heq] at hfind; exact hfind
  · next s₁ v heq =>
    rw [heq] at hfind
    split
    · exact hC.remove s₁ key hfind
    · next hzero =>
      split
      · exact hfind
      · next d hd => exact hC.setDeadline s₁ key d (hallowed d hzero hd) hfind

/-- `ks_kv_ttl` keeps it: it stores nothing. -/
theorem ttl (h : C s) (key : CStr) (now : KsReadings) : C (ksKvTtl s key now).1 := by
  have hfind := hC.findLive h key now.first
  unfold ksKvTtl
  split
  · next s₁ heq => rw [heq] at hfind; exact hfind
  · next s₁ v heq =>
    rw [heq] at hfind
    split_ifs
    · exact hfind
    · exact hC.remove s₁ key hfind
    · exact hfind

end KsKv.Closed

/-! ## the stored values -/

/-- Every stored value has the property. -/
def KsKv.Keeps (P : List UInt8 → Prop) (s : KsKv) : Prop :=
  ∀ k v, s.entries.get k = some v → P v.data ∧ v.deadlineMs < 2 ^ 64

variable {P : List UInt8 → Prop} {s s' : KsKv} {key : CStr}

/-- An empty store has no values. -/
theorem keeps_ksKvInit : ksKvInit.Keeps P := by
  intro k v hv
  simp [ksKvInit, KsDsTable.get_init] at hv

/-- Only the table matters. -/
theorem KsKv.Keeps.congr (h : s.Keeps P) (hs : s'.entries = s.entries) : s'.Keeps P := by
  intro k v hv
  rw [hs] at hv
  exact h k v hv

/-- A removal leaves the other values as they are. -/
theorem KsKv.Keeps.remove (h : s.Keeps P) (key : CStr) :
    KsKv.Keeps P { s with entries := (s.entries.remove key).1 } := by
  intro k v hv
  rw [KsDsTable.get_remove] at hv
  split at hv
  · cases hv
  · exact h k v hv

/-- A value that satisfies `P` may be stored. -/
theorem KsKv.Keeps.put (h : s.Keeps P) {value : KsKvValue}
    (hvalue : P value.data ∧ value.deadlineMs < 2 ^ 64) (key : CStr) (grant : Bool) :
    KsKv.Keeps P { s with entries := (s.entries.put key value grant).1 } := by
  by_cases herr : (s.entries.put key value grant).2 = .error
  · rw [(s.entries.put_error key value grant herr).1]
    exact h
  · intro k v hv
    rw [KsDsTable.get_put _ _ _ _ herr] at hv
    split at hv
    · rw [← Option.some.inj hv]
      exact hvalue
    · exact h k v hv

/-- A deadline is a 64-bit number. -/
theorem KsKv.Keeps.setDeadline (h : s.Keeps P) {d : Nat} (hd : d < 2 ^ 64) (key : CStr) :
    KsKv.Keeps P
      { s with entries := s.entries.update key fun v => { v with deadlineMs := d } } := by
  intro k v hv
  rw [KsDsTable.get_update] at hv
  split at hv
  · obtain ⟨v', hget, rfl⟩ := Option.map_eq_some_iff.mp hv
    exact ⟨(h k v' hget).1, hd⟩
  · exact h k v hv

/-- What the values satisfy is closed under all that the store does to its
table. -/
theorem KsKv.Keeps.closed (P : List UInt8 → Prop) :
    KsKv.Closed (· < 2 ^ 64) (KsKv.Keeps P) where
  remove _ key h := h.remove key
  setDeadline _ key _ hd h := h.setDeadline hd key

/-- A value that is found is one of the table. -/
theorem KsKv.Keeps.found (h : s.Keeps P) {key : CStr} {now : UInt64} {v : KsKvValue}
    (hv : (ksKvFindLive s key now).2 = some v) : P v.data ∧ v.deadlineMs < 2 ^ 64 := by
  unfold ksKvFindLive at hv
  cases hget : s.entries.get key with
  | none => simp [hget] at hv
  | some v' =>
    simp only [hget] at hv
    split at hv
    · cases hv
    · cases hv
      exact h key v hget

/-- `ks_ttl_deadline` returns 64-bit numbers. -/
theorem ksTtlDeadline_lt {now ttlSeconds : UInt64} {d : Nat}
    (h : ksTtlDeadline now ttlSeconds = some d) : d < 2 ^ 64 := by
  unfold ksTtlDeadline at h
  split at h
  · cases h
  · rw [← Option.some.inj h]
    exact u64_lt _

/-- `ks_kv_set_ex` stores the value that it is given. -/
theorem KsKv.Keeps.setEx (h : s.Keeps P) {value : List UInt8} (hv : P value) (key : CStr)
    (ttl : UInt64) (heap : KsHeap) (now : KsReadings) :
    (ksKvSetEx s key value ttl heap now).1.Keeps P := by
  have hfind := (KsKv.Keeps.closed P).findLive h key now.first
  unfold ksKvSetEx
  generalize (ksKvFindLive s key now.first).1 = s₁ at *
  simp only
  split
  · exact hfind
  · next d hd =>
    have hlt : d < 2 ^ 64 := by
      split at hd
      · exact ksTtlDeadline_lt hd
      · rw [← Option.some.inj hd]
        decide
    split
    · next k v hk hcopy =>
      have hcopied : v = ⟨value, d⟩ := by
        unfold ksKvCopyValue at hcopy
        split_ifs at hcopy
        exact (Option.some.inj hcopy).symm
      have hstored : P v.data ∧ v.deadlineMs < 2 ^ 64 := by
        rw [hcopied]
        exact ⟨hv, hlt⟩
      have hput := hfind.put hstored k (heap .tableEntries)
      split <;> exact hput
    · exact hfind

/-- `ks_kv_get` keeps the values, and returns one of them. -/
theorem KsKv.Keeps.ksKvGet (h : s.Keeps P) (key : CStr) (now : KsReadings) :
    (ksKvGet s key now).1.Keeps P ∧ ∀ value, (Kessel.ksKvGet s key now).2 = some value → P value := by
  refine ⟨(KsKv.Keeps.closed P).findLive h key now.first, fun value hvalue => ?_⟩
  obtain ⟨v, hfound, rfl⟩ := Option.map_eq_some_iff.mp hvalue
  exact (h.found hfound).1

theorem KsKv.Keeps.delete (h : s.Keeps P) (key : CStr) (now : KsReadings) :
    (ksKvDelete s key now).1.Keeps P := (KsKv.Keeps.closed P).delete h key now

/-- `ks_kv_exists` keeps the values: it may only remove one. -/
theorem KsKv.Keeps.exists (h : s.Keeps P) (key : CStr) (now : KsReadings) :
    (ksKvExists s key now).1.Keeps P := (KsKv.Keeps.closed P).findLive h key now.first

/-- `ks_kv_expire` changes a deadline only. -/
theorem KsKv.Keeps.expire (h : s.Keeps P) (key : CStr) (ttl : UInt64) (now : KsReadings) :
    (ksKvExpire s key ttl now).1.Keeps P :=
  (KsKv.Keeps.closed P).expire h key ttl now fun _ _ hd => ksTtlDeadline_lt hd

/-- `ks_kv_ttl` keeps the values, and its answer is below 2⁶⁴. -/
theorem KsKv.Keeps.ttl (h : s.Keeps P) (key : CStr) (now : KsReadings) :
    (ksKvTtl s key now).1.Keeps P ∧ (ksKvTtl s key now).2.natAbs < 2 ^ 64 := by
  refine ⟨(KsKv.Keeps.closed P).ttl h key now, ?_⟩
  unfold ksKvTtl
  split
  · simp
  · next s₁ v heq =>
    have hlt := (h.found (v := v) (by rw [heq])).2
    split_ifs
    · simp
    · simp
    · simp only
      rw [i64_div_thousand (by omega), Int.natAbs_natCast]
      omega

/-- One slot of the reaper. -/
theorem KsKv.Keeps.reapStep (h : s.Keeps P) (now : UInt64) : (ksKvReapStep s now).1.Keeps P := by
  unfold ksKvReapStep
  simp only
  split
  · next k v hentry =>
    split
    · exact (h.remove k).congr rfl
    · exact h.congr rfl
  · exact h.congr rfl

theorem KsKv.Keeps.reapLoop (h : s.Keeps P) (now : UInt64) (budget removed : Nat) :
    (ksKvReapLoop now budget s removed).1.Keeps P := by
  induction budget generalizing s removed with
  | zero => exact h
  | succ budget ih => exact ih (h.reapStep now) _

/-- `ks_kv_reap` only removes. -/
theorem KsKv.Keeps.reap (h : s.Keeps P) (budget : Nat) (now : UInt64) :
    (ksKvReap s budget now).1.Keeps P := h.reapLoop now budget 0

/-- `ks_kv_size` reaps first, and then counts. -/
theorem KsKv.Keeps.size (h : s.Keeps P) (now : UInt64) : (ksKvSize s now).1.Keeps P := h.reap _ now

/-- The table never counts more keys than it has slots. -/
theorem ksKvSize_lt (s : KsKv) (now : UInt64) : (ksKvSize s now).2 < 2 ^ 64 := by
  have hw := (ksKvReap s s.entries.table.capacity now).1.entries.wf
  have hsize := hw.size_le
  have hcap := hw.capacity_le
  have hload := hw.load
  simp only [ksKvSize, ksDsSize]
  omega

end Kessel
