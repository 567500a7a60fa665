import Kessel.Ds

/-!
# Kessel.Ds.Invariant

The representation invariant of the hash table, in two layers:

* `KsDs.Probing` is what `ks_ds_find` needs and what the half-filled array of
  `ks_ds_rebuild` already has: every occupied slot is reachable from its home
  slot through non-empty slots, and no two occupied slots hold the same key;
* `KsDs.Wf` adds the counters and the load bound, which leave an empty slot.

`ksDsFind_spec` is the one lemma about probing: the loop ends, and it answers
the slot of the key or a slot where the key may be placed.  What a write to one
slot does to the contents is `live_withEntry`, and the invariant of each write
(`Probing.place`, `Probing.replace`, `Probing.bury`) is proved from these.
-/

namespace Kessel

open Word LinearProbe

variable {K V : Type} (cb : KsDsCallbacks K)

/-- The keys one slot cannot tell apart: same hash, and equal for the callback. -/
def KsDsCallbacks.eqv (a b : K) : Bool := cb.hash a == cb.hash b && cb.equal a b

/-- Keys are the same when their hashes agree and the comparison says so. -/
theorem KsDsCallbacks.eqv_iff {a b : K} :
    cb.eqv a b = true ↔ cb.hash a = cb.hash b ∧ cb.equal a b = true := by
  simp [eqv]

/-- A comparison that is an equivalence makes one of keys. -/
theorem KsDsCallbacks.eqv_isEquiv : AssocMap.IsEquiv cb.eqv where
  refl a := by simp [eqv_iff, cb.isEquiv.refl a]
  symm h := by
    rw [eqv_iff] at h ⊢
    exact ⟨h.1.symm, cb.isEquiv.symm h.2⟩
  trans h₁ h₂ := by
    rw [eqv_iff] at h₁ h₂ ⊢
    exact ⟨h₁.1.trans h₂.1, cb.isEquiv.trans h₁.2 h₂.2⟩

/-! ## slots and contents -/

@[simp] theorem KsDsEntry.live?_occupied (h : UInt64) (k : K) (v : V) :
    (KsDsEntry.occupied h k v).live? = some (k, v) := rfl

@[simp] theorem KsDsEntry.live?_tombstone : (KsDsEntry.tombstone : KsDsEntry K V).live? = none := rfl

@[simp] theorem KsDsEntry.live?_eq_some {e : KsDsEntry K V} {p : K × V} :
    e.live? = some p ↔ ∃ h, e = .occupied h p.1 p.2 := by
  cases e <;> simp [KsDsEntry.live?, Prod.ext_iff, eq_comm]

namespace KsDs

/-- The table after one slot is written. -/
def withEntry (t : KsDs K V) (i : Nat) (e : KsDsEntry K V) : KsDs K V :=
  { t with entries := t.entries.set i e }

/-- An entry within the capacity. -/
theorem entry_of_lt {t : KsDs K V} {i : Nat} (hi : i < t.entries.length) :
    t.entry i = t.entries[i] := by
  simp [entry, hi]

/-- Writing one slot leaves the others. -/
theorem entry_withEntry {t : KsDs K V} {i : Nat} (hi : i < t.entries.length)
    (e : KsDsEntry K V) (j : Nat) : (t.withEntry i e).entry j = if j = i then e else t.entry j := by
  simp only [entry, withEntry, List.getD_eq_getElem?_getD, List.getElem?_set]
  by_cases hji : i = j
  · subst hji; simp [hi]
  · simp [hji, Ne.symm hji]

/-- The live pairs are those of the occupied slots. -/
theorem mem_live {t : KsDs K V} {p : K × V} :
    p ∈ t.live ↔ ∃ i < t.entries.length, ∃ h, t.entry i = .occupied h p.1 p.2 := by
  simp only [live, List.mem_filterMap, KsDsEntry.live?_eq_some]
  constructor
  · rintro ⟨e, hm, h, rfl⟩
    obtain ⟨i, hi, he⟩ := List.getElem_of_mem hm
    exact ⟨i, hi, h, by rw [entry_of_lt hi, he]⟩
  · rintro ⟨i, hi, h, he⟩
    exact ⟨_, List.getElem_mem hi, h, by rw [← entry_of_lt hi, he]⟩

end KsDs

/-- Writing a slot exchanges the pair it held for the pair it now holds. -/
theorem KsDs.live_withEntry {t : KsDs K V} {i : Nat} (hi : i < t.entries.length)
    (e : KsDsEntry K V) :
    ((t.entry i).live?.toList ++ (t.withEntry i e).live).Perm (e.live?.toList ++ t.live) := by
  rw [entry_of_lt hi]
  exact AssocMap.filterMap_set_perm _ _ i hi e

/-! ## the probing invariant -/

/-- What a search relies on. -/
structure KsDs.Probing (t : KsDs K V) : Prop where
  length : t.entries.length = t.capacity
  pow : ∃ k, t.capacity = 2 ^ (k + 3)
  distinct : AssocMap.Distinct cb.eqv t.live
  cached : ∀ {i h k v}, i < t.capacity → t.entry i = .occupied h k v → h = cb.hash k
  chained : ∀ {i h k v}, i < t.capacity → t.entry i = .occupied h k v →
    Reach t.capacity (fun j => (t.entry j).isEmpty = true) (ksDsIndex h t.capacity) i

/-- Every stored entry has the hash of its key. -/
theorem KsDs.Probing.cached_of_mem {cb : KsDsCallbacks K} {t : KsDs K V} (hp : t.Probing cb)
    {h : UInt64} {k : K} {v : V} (hm : .occupied h k v ∈ t.entries) : h = cb.hash k := by
  obtain ⟨i, hi, he⟩ := List.getElem_of_mem hm
  exact hp.cached (by rw [← hp.length]; exact hi) (by rw [KsDs.entry_of_lt hi, he])

/-- How a slot answers the search for a key. -/
def KsDs.cell (t : KsDs K V) (key : K) (hash : UInt64) (i : Nat) : Cell :=
  match t.entry i with
  | .empty => .free
  | .tombstone => .reusable
  | .occupied h k _ => if h = hash ∧ cb.equal k key = true then .hit else .other

namespace KsDs

variable {cb}

/-- A cell is free when its slot is empty. -/
theorem cell_eq_free {t : KsDs K V} {key : K} {hash : UInt64} {i : Nat} :
    t.cell cb key hash i = .free ↔ (t.entry i).isEmpty = true := by
  unfold cell
  cases t.entry i with
  | occupied h k v => by_cases hk : h = hash ∧ cb.equal k key = true <;> simp [hk, KsDsEntry.isEmpty]
  | _ => simp [KsDsEntry.isEmpty]

/-- A cell is a hit when its slot holds the hash and an equal key. -/
theorem cell_eq_hit {t : KsDs K V} {key : K} {hash : UInt64} {i : Nat} :
    t.cell cb key hash i = .hit ↔ ∃ k v, t.entry i = .occupied hash k v ∧ cb.equal k key = true := by
  unfold cell
  cases t.entry i with
  | occupied h k v =>
    by_cases hk : h = hash ∧ cb.equal k key = true
    · simp [hk]
    · simp only [hk, if_false]
      constructor
      · intro h; cases h
      · rintro ⟨k', v', he, hk'⟩
        cases he
        exact absurd ⟨rfl, hk'⟩ hk
  | _ => simp

/-- A slot that may be written holds no key. -/
theorem not_occupied_of_vacant {t : KsDs K V} {key : K} {hash : UInt64} {h i : Nat}
    (hv : Vacant t.capacity (t.cell cb key hash) h i) : (t.entry i).isOccupied = false := by
  obtain ⟨-, -, -, hc, -⟩ := hv
  revert hc
  unfold cell
  cases t.entry i with
  | occupied h k v => by_cases hk : h = hash ∧ cb.equal k key = true <;> simp [hk]
  | _ => simp [KsDsEntry.isOccupied]

end KsDs

/-- The first slot of a probe lies within the capacity. -/
theorem ksDsIndex_lt {hash : UInt64} {capacity : Nat} (hpow : ∃ k, capacity = 2 ^ (k + 3)) :
    ksDsIndex hash capacity < capacity := by
  obtain ⟨k, rfl⟩ := hpow
  rw [ksDsIndex, and_pred_two_pow]
  exact Nat.mod_lt _ (by positivity)

/-- The loop of `ks_ds_find` is the library's linear search. -/
theorem ksDsFindLoop_eq_search {t : KsDs K V} (hpow : ∃ k, t.capacity = 2 ^ (k + 3)) (key : K)
    (hash : UInt64) (fuel index : Nat) (first : Option Nat) :
    ksDsFindLoop cb t key hash fuel index first =
      search t.capacity (t.cell cb key hash) fuel index first := by
  have hnext : ∀ i, (i + 1) &&& (t.capacity - 1) = (i + 1) % t.capacity := by
    obtain ⟨k, hk⟩ := hpow
    intro i
    rw [hk, and_pred_two_pow]
  induction fuel generalizing index first with
  | zero => rfl
  | succ fuel ih =>
    simp only [ksDsFindLoop, search, KsDs.cell, hnext, ih]
    cases t.entry index with
    | occupied h k v => by_cases hk : h = hash ∧ cb.equal k key = true <;> simp [hk]
    | _ => rfl

/-- The answer of `ks_ds_find` when the key is there. -/
def KsDs.FoundAt (t : KsDs K V) (key : K) (i : Nat) : Prop :=
  i < t.capacity ∧ ∃ k v, t.entry i = .occupied (cb.hash key) k v ∧ cb.eqv k key = true

/-- The answer of `ks_ds_find` when the key is not there: a slot it may be put in. -/
structure KsDs.PlaceAt (t : KsDs K V) (key : K) (i : Nat) : Prop where
  lt : i < t.capacity
  vacant : (t.entry i).isOccupied = false
  reach : Reach t.capacity (fun j => (t.entry j).isEmpty = true)
    (ksDsIndex (cb.hash key) t.capacity) i
  absent : AssocMap.contains cb.eqv t.live key = false

/-- **`ks_ds_find` ends and is right**: with an empty slot somewhere it answers
the slot of the key, or a slot for the key when the key is not in the table. -/
theorem ksDsFind_spec {t : KsDs K V} (hp : t.Probing cb)
    (hempty : ∃ i < t.capacity, (t.entry i).isEmpty = true) (key : K) :
    (∃ i, t.FoundAt cb key i ∧ ksDsFind cb t key (cb.hash key) = some (i, true)) ∨
    (∃ i, t.PlaceAt cb key i ∧ ksDsFind cb t key (cb.hash key) = some (i, false)) := by
  have hhome : ksDsIndex (cb.hash key) t.capacity < t.capacity := ksDsIndex_lt hp.pow
  have hfree : ∃ i < t.capacity, t.cell cb key (cb.hash key) i = .free := by
    obtain ⟨i, hi, he⟩ := hempty
    exact ⟨i, hi, KsDs.cell_eq_free.mpr he⟩
  simp only [ksDsFind, ksDsFindLoop_eq_search cb hp.pow]
  rcases search_spec hhome hfree with ⟨D, -, hhit, hs⟩ | ⟨r, hv, hno, hs⟩
  · left
    have hlt := walk_lt (show 0 < t.capacity by omega) (ksDsIndex (cb.hash key) t.capacity) D
    obtain ⟨k, v, he, hk⟩ := KsDs.cell_eq_hit.mp hhit
    have hcached := hp.cached hlt he
    exact ⟨_, ⟨hlt, k, v, he, cb.eqv_iff.mpr ⟨hcached.symm, hk⟩⟩, hs⟩
  · right
    refine ⟨r, ⟨hv.lt, KsDs.not_occupied_of_vacant hv, ?_, ?_⟩, hs⟩
    · exact hv.reach.mono fun j hj => KsDs.cell_eq_free.mpr hj
    · rw [AssocMap.contains_eq_false]
      intro p hpm
      obtain ⟨i, hi, h, he⟩ := KsDs.mem_live.mp hpm
      rw [hp.length] at hi
      by_contra hk
      rw [Bool.not_eq_false, cb.eqv_iff] at hk
      have hh := hp.cached hi he
      have hreach : Reach t.capacity (fun j => t.cell cb key (cb.hash key) j = .free)
          (ksDsIndex (cb.hash key) t.capacity) i := by
        have := hp.chained hi he
        rw [hh, hk.1] at this
        exact this.mono fun j hj => KsDs.cell_eq_free.mp hj
      exact not_hit_of_reach hno hreach
        (KsDs.cell_eq_hit.mpr ⟨p.1, p.2, by rw [he, hh, hk.1], hk.2⟩)

/-! ## writing one slot -/

/-- Only the array matters to a search. -/
theorem KsDs.Probing.congr {cb : KsDsCallbacks K} {t t' : KsDs K V} (hp : t.Probing cb)
    (he : t'.entries = t.entries) (hc : t'.capacity = t.capacity) : t'.Probing cb := by
  have hentry : t'.entry = t.entry := by funext i; simp [KsDs.entry, he]
  have hlive : t'.live = t.live := by simp [KsDs.live, he]
  exact
    { length := by rw [he, hc, hp.length]
      pow := by rw [hc]; exact hp.pow
      distinct := by rw [hlive]; exact hp.distinct
      cached := by rw [hc, hentry]; exact hp.cached
      chained := by rw [hc, hentry]; exact hp.chained }

/-- Writing anything but an empty slot keeps the chains of the other slots. -/
theorem KsDs.Probing.withEntry {cb : KsDsCallbacks K} {t : KsDs K V} (hp : t.Probing cb) {i : Nat}
    (hi : i < t.capacity) {e : KsDsEntry K V} (he : e.isEmpty = false)
    (hd : AssocMap.Distinct cb.eqv (t.withEntry i e).live)
    (hocc : ∀ h k v, e = .occupied h k v → h = cb.hash k ∧
      Reach t.capacity (fun j => (t.entry j).isEmpty = true) (ksDsIndex h t.capacity) i) :
    (t.withEntry i e).Probing cb := by
  have hi' : i < t.entries.length := by rw [hp.length]; exact hi
  have hfree : ∀ j, ((t.withEntry i e).entry j).isEmpty = true → (t.entry j).isEmpty = true := by
    intro j
    rw [entry_withEntry hi']
    split
    · intro h; rw [he] at h; cases h
    · exact id
  exact
    { length := by simpa [KsDs.withEntry] using hp.length
      pow := hp.pow
      distinct := hd
      cached := by
        intro j h k v hj hej
        rw [entry_withEntry hi'] at hej
        split at hej
        · exact (hocc h k v hej).1
        · exact hp.cached hj hej
      chained := by
        intro j h k v hj hej
        rw [entry_withEntry hi'] at hej
        split at hej
        · next hji => subst hji; exact (hocc h k v hej).2.mono hfree
        · exact (hp.chained hj hej).mono hfree }

section Writes

variable {cb}
variable {t : KsDs K V} {key : K} {i : Nat}

/-- Only occupied slots hold a pair. -/
theorem KsDs.live?_of_not_occupied {e : KsDsEntry K V} (h : e.isOccupied = false) :
    e.live? = none := by
  cases e <;> simp_all [KsDsEntry.isOccupied, KsDsEntry.live?]

/-- Placing an absent key adds its pair. -/
theorem KsDs.live_place (hp : t.Probing cb) (h : t.PlaceAt cb key i) (v : V) :
    (t.withEntry i (.occupied (cb.hash key) key v)).live.Perm ((key, v) :: t.live) := by
  have hi : i < t.entries.length := by rw [hp.length]; exact h.lt
  simpa [live?_of_not_occupied h.vacant] using
    live_withEntry hi (.occupied (cb.hash key) key v)

/-- Overwriting the slot of a key exchanges its pair. -/
theorem KsDs.live_replace (hp : t.Probing cb) (h : t.FoundAt cb key i) (v : V) :
    ∃ p : K × V, (t.entry i).live? = some p ∧ cb.eqv p.1 key = true ∧
      (p :: (t.withEntry i (.occupied (cb.hash key) key v)).live).Perm ((key, v) :: t.live) := by
  obtain ⟨hi, k, w, he, hk⟩ := h
  have hi' : i < t.entries.length := by rw [hp.length]; exact hi
  refine ⟨(k, w), by rw [he]; rfl, hk, ?_⟩
  simpa [he] using live_withEntry hi' (.occupied (cb.hash key) key v)

/-- Burying the slot of a key drops its pair. -/
theorem KsDs.live_bury (hp : t.Probing cb) (h : t.FoundAt cb key i) :
    ∃ p : K × V, (t.entry i).live? = some p ∧ cb.eqv p.1 key = true ∧
      (p :: (t.withEntry i .tombstone).live).Perm t.live := by
  obtain ⟨hi, k, w, he, hk⟩ := h
  have hi' : i < t.entries.length := by rw [hp.length]; exact hi
  refine ⟨(k, w), by rw [he]; rfl, hk, ?_⟩
  simpa [he] using live_withEntry hi' .tombstone

/-- Placing a new key keeps the probes. -/
theorem KsDs.Probing.place (hp : t.Probing cb) (h : t.PlaceAt cb key i) (v : V) :
    (t.withEntry i (.occupied (cb.hash key) key v)).Probing cb := by
  refine hp.withEntry h.lt rfl ?_ ?_
  · exact (hp.distinct.cons cb.eqv_isEquiv h.absent v).perm cb.eqv_isEquiv (live_place hp h v).symm
  · intro h' k v' heq
    cases heq
    exact ⟨rfl, h.reach⟩

/-- Overwriting the slot of a key stores the new pair in place of the old. -/
theorem KsDs.live_replace_insert (hp : t.Probing cb) (h : t.FoundAt cb key i) (v : V) :
    (t.withEntry i (.occupied (cb.hash key) key v)).live.Perm
      (AssocMap.insert cb.eqv t.live key v) := by
  obtain ⟨p, hp₁, hk, hperm⟩ := live_replace hp h v
  have hmem : p ∈ t.live := by
    rw [mem_live, hp.length]
    obtain ⟨h', he⟩ := KsDsEntry.live?_eq_some.mp hp₁
    exact ⟨i, h.1, h', he⟩
  obtain ⟨pre, post, hsplit⟩ := List.append_of_mem hmem
  obtain ⟨rest, hrest⟩ : ∃ rest, t.live.Perm (p :: rest) :=
    ⟨pre ++ post, by rw [hsplit]; exact List.perm_middle⟩
  have herase := AssocMap.erase_of_perm_cons cb.eqv_isEquiv hp.distinct hrest hk
  have hswap : (p :: (t.withEntry i (.occupied (cb.hash key) key v)).live).Perm
      (p :: (key, v) :: rest) :=
    hperm.trans ((hrest.cons _).trans (List.Perm.swap _ _ _))
  exact (List.Perm.cons_inv hswap).trans (herase.symm.cons _)

/-- Replacing a value keeps the probes. -/
theorem KsDs.Probing.replace (hp : t.Probing cb) (h : t.FoundAt cb key i) (v : V) :
    (t.withEntry i (.occupied (cb.hash key) key v)).Probing cb := by
  refine hp.withEntry h.1 rfl ?_ ?_
  · exact (hp.distinct.insert cb.eqv_isEquiv key v).perm cb.eqv_isEquiv
      (live_replace_insert hp h v).symm
  · intro h' k v' heq
    cases heq
    obtain ⟨hi, k₀, v₀, he, -⟩ := h
    exact ⟨rfl, hp.chained hi he⟩

/-- A tombstone erases the key. -/
theorem KsDs.live_bury_erase (hp : t.Probing cb) (h : t.FoundAt cb key i) :
    (t.withEntry i .tombstone).live.Perm (AssocMap.erase cb.eqv t.live key) := by
  obtain ⟨p, -, hk, hperm⟩ := live_bury hp h
  exact (AssocMap.erase_of_perm_cons cb.eqv_isEquiv hp.distinct hperm.symm hk).symm

/-- A tombstone keeps the probes. -/
theorem KsDs.Probing.bury (hp : t.Probing cb) (h : t.FoundAt cb key i) :
    (t.withEntry i .tombstone).Probing cb := by
  refine hp.withEntry h.1 rfl ?_ ?_
  · exact (hp.distinct.erase key).perm cb.eqv_isEquiv (live_bury_erase hp h).symm
  · intro h' k v' heq
    cases heq

end Writes

end Kessel
