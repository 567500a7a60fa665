import Kessel.Ds.Wf

/-!
# Kessel.Ds.Table

Hash tables that carry their invariant.

The functions of `Kessel.Ds` answer an `Option` because their probing loops
might not end.  A `KsDsTable` is a table with its invariant as a field, so the
same functions are total on it; each operation has a lemma that says it is the
function of `Kessel.Ds`, and inherits its contract.
-/

namespace Kessel

open LinearProbe

variable {K V : Type} {cb : KsDsCallbacks K}

/-! ## slots and keys -/

/-- One slot only holds a key. -/
theorem KsDs.Probing.slot_unique {t : KsDs K V} (hp : t.Probing cb) {i j : Nat}
    (hi : i < t.capacity) (hj : j < t.capacity) {h h' : UInt64} {k k' : K} {v v' : V}
    (hei : t.entry i = .occupied h k v) (hej : t.entry j = .occupied h' k' v')
    (hk : cb.eqv k k' = true) : i = j := by
  have hpair := List.pairwise_iff_getElem.mp (List.pairwise_filterMap.mp hp.distinct)
  rw [← hp.length] at hi hj
  rw [KsDs.entry_of_lt hi] at hei
  rw [KsDs.entry_of_lt hj] at hej
  rcases Nat.lt_trichotomy i j with hlt | heq | hgt
  · have := hpair i j hi hj hlt (k, v) (by rw [hei]; rfl) (k', v') (by rw [hej]; rfl)
    rw [hk] at this
    cases this
  · exact heq
  · have := hpair j i hj hi hgt (k', v') (by rw [hej]; rfl) (k, v) (by rw [hei]; rfl)
    rw [cb.eqv_isEquiv.symm hk] at this
    cases this

/-- Removing the key of a slot buries that very slot. -/
theorem ksDsRemove_slot {t : KsDs K V} (hw : t.Wf cb) {i : Nat} (hi : i < t.capacity) {h : UInt64}
    {k : K} {v : V} (he : t.entry i = .occupied h k v) :
    ksDsRemove cb t k = some ({ t with
      entries := t.entries.set i .tombstone
      size := Word.dec64 t.size
      released := t.released ++ [(k, v)] }, true) := by
  have hmem : (k, v) ∈ t.live := KsDs.mem_live.mpr ⟨i, by rw [hw.length]; exact hi, h, he⟩
  unfold ksDsRemove
  rcases ksDsFind_spec cb hw.toProbing hw.exists_empty k with ⟨j, hfound, hfind⟩ | ⟨j, hplace, -⟩
  · obtain ⟨hj, k', v', hej, hk⟩ := hfound
    obtain rfl := hw.slot_unique hj hi hej he hk
    simp only [hfind, he, ksDsRelease]
  · have := AssocMap.contains_eq_false.mp hplace.absent _ hmem
    rw [cb.eqv_isEquiv.refl k] at this
    cases this

/-! ## writing through a value pointer -/

/-- `*p = f(*p)` for the pointer `p` that `ks_ds_get` returned for `key`; nothing
when it returned `NULL`. -/
def ksDsUpdate (cb : KsDsCallbacks K) (t : KsDs K V) (key : K) (f : V → V) : Option (KsDs K V) :=
  match ksDsFind cb t key (cb.hash key) with
  | none => none
  | some (_, false) => some t
  | some (index, true) =>
    match t.entry index with
    | .occupied hash k v => some { t with entries := t.entries.set index (.occupied hash k (f v)) }
    | _ => some t

/-- Writing through the pointer changes the value of the key and nothing else. -/
theorem ksDsUpdate_spec {t : KsDs K V} (hw : t.Wf cb) (key : K) (f : V → V) :
    ∃ t', ksDsUpdate cb t key f = some t' ∧ t'.Wf cb ∧ t'.capacity = t.capacity ∧
      t'.released = t.released ∧
      ((AssocMap.contains cb.eqv t.live key = false ∧ t' = t) ∨
        ∃ k v, (k, v) ∈ t.live ∧ cb.eqv k key = true ∧
          ((k, v) :: t'.live).Perm ((k, f v) :: t.live)) := by
  unfold ksDsUpdate
  rcases ksDsFind_spec cb hw.toProbing hw.exists_empty key with ⟨i, hfound, hfind⟩ | ⟨i, hplace, hfind⟩
  · obtain ⟨hi, k, v, he, hk⟩ := hfound
    have hself : t.FoundAt cb k i :=
      ⟨hi, k, v, by rw [he, ((cb.eqv_iff).mp hk).1], cb.eqv_isEquiv.refl k⟩
    have hw' := hw.replace hself (f v)
    have hi' : i < t.entries.length := by rw [hw.length]; exact hi
    simp only [hfind, he]
    rw [← ((cb.eqv_iff).mp hk).1]
    have hlive := KsDs.live_withEntry hi' (.occupied (cb.hash k) k (f v))
    simp only [he, KsDsEntry.live?_occupied, Option.toList_some, List.singleton_append] at hlive
    exact ⟨_, rfl, hw', rfl, rfl, .inr ⟨k, v, KsDs.mem_live.mpr ⟨i, hi', _, he⟩, hk, hlive⟩⟩
  · exact ⟨t, by simp only [hfind], hw, rfl, rfl, .inl ⟨hplace.absent, rfl⟩⟩

/-! ## slots that stay as they are -/

/-- Writing one slot leaves every slot as it is, or as it is written. -/
theorem KsDs.entry_of_set {t t' : KsDs K V} {i : Nat} {e : KsDsEntry K V}
    (h : t'.entries = t.entries.set i e) (j : Nat) : t'.entry j = t.entry j ∨ t'.entry j = e := by
  simp only [entry, h, List.getD_eq_getElem?_getD, List.getElem?_set]
  by_cases hij : i = j
  · subst hij
    by_cases hlt : i < t.entries.length
    · exact .inr (by simp [hlt])
    · exact .inl (by simp [hlt])
  · exact .inl (by rw [if_neg hij])

/-- Removing a key buries its slot, if anything. -/
theorem ksDsRemove_entry {t t' : KsDs K V} {key : K} {b : Bool}
    (h : ksDsRemove cb t key = some (t', b)) :
    t'.capacity = t.capacity ∧ ∀ j, t'.entry j = t.entry j ∨ t'.entry j = .tombstone := by
  unfold ksDsRemove at h
  split at h
  · cases h
  · cases h
    exact ⟨rfl, fun j => .inl rfl⟩
  · next index _ =>
    cases h
    have hkept : (ksDsRelease t (t.entry index)).entries = t.entries ∧
        (ksDsRelease t (t.entry index)).capacity = t.capacity := by
      cases t.entry index <;> exact ⟨rfl, rfl⟩
    exact ⟨hkept.2, KsDs.entry_of_set (by rw [← hkept.1])⟩

/-- Writing through a value pointer changes the value of one slot, if anything. -/
theorem ksDsUpdate_entry {t t' : KsDs K V} {key : K} {f : V → V}
    (h : ksDsUpdate cb t key f = some t') :
    t'.capacity = t.capacity ∧ ∀ j, t'.entry j = t.entry j ∨
      ∃ hash k v, t'.entry j = .occupied hash k (f v) := by
  unfold ksDsUpdate at h
  split at h
  · cases h
  · cases h
    exact ⟨rfl, fun j => .inl rfl⟩
  · next index _ =>
    split at h
    · next hash k v _ =>
      cases h
      exact ⟨rfl, fun j => (KsDs.entry_of_set rfl j).imp id fun he => ⟨hash, k, v, he⟩⟩
    · cases h
      exact ⟨rfl, fun j => .inl rfl⟩

/-! ## tables with their invariant -/

/-- A hash table in a valid state. -/
structure KsDsTable (cb : KsDsCallbacks K) (V : Type) where
  table : KsDs K V
  wf : table.Wf cb

namespace KsDsTable

/-- The contents of the table. -/
abbrev live (t : KsDsTable cb V) : List (K × V) := t.table.live

/-- `ks_ds_init` -/
def init : KsDsTable cb V := ⟨ksDsInit, ksDsInit_wf⟩

/-- `ks_ds_put` -/
def put (t : KsDsTable cb V) (key : K) (value : V) (grant : Bool) :
    KsDsTable cb V × KsDsPutResult :=
  match h : ksDsPut cb t.table key value grant with
  | some (t', r) => (⟨t', by
      obtain ⟨u, r', hput, hw, -⟩ := ksDsPut_spec t.wf key value grant
      rw [h, Option.some.injEq, Prod.mk.injEq] at hput
      rw [hput.1]; exact hw⟩, r)
  | none => (t, .error)

/-- `ks_ds_get` -/
def get (t : KsDsTable cb V) (key : K) : Option V := (ksDsGet cb t.table key).getD none

/-- `ks_ds_remove` -/
def remove (t : KsDsTable cb V) (key : K) : KsDsTable cb V × Bool :=
  match h : ksDsRemove cb t.table key with
  | some (t', b) => (⟨t', by
      obtain ⟨u, hremove, hw, -⟩ := ksDsRemove_spec t.wf key
      rw [h, Option.some.injEq, Prod.mk.injEq] at hremove
      rw [hremove.1]; exact hw⟩, b)
  | none => (t, false)

/-- A store through the pointer that `ks_ds_get` returned. -/
def update (t : KsDsTable cb V) (key : K) (f : V → V) : KsDsTable cb V :=
  match h : ksDsUpdate cb t.table key f with
  | some t' => ⟨t', by
      obtain ⟨u, hupdate, hw, -⟩ := ksDsUpdate_spec t.wf key f
      rw [h, Option.some.injEq] at hupdate
      rw [hupdate]; exact hw⟩
  | none => t

/-! ### they are the functions of the table -/

/-- `ks_ds_put` returns, with the table and the answer of `put`. -/
theorem put_eq (t : KsDsTable cb V) (key : K) (value : V) (grant : Bool) :
    ksDsPut cb t.table key value grant =
      some ((t.put key value grant).1.table, (t.put key value grant).2) := by
  obtain ⟨u, r, hput, -⟩ := ksDsPut_spec t.wf key value grant
  unfold put
  split
  · next h => exact h
  · next h => rw [hput] at h; cases h

/-- `ks_ds_remove` returns, with the table and the answer of `remove`. -/
theorem remove_eq (t : KsDsTable cb V) (key : K) :
    ksDsRemove cb t.table key = some ((t.remove key).1.table, (t.remove key).2) := by
  obtain ⟨u, hremove, -⟩ := ksDsRemove_spec t.wf key
  unfold remove
  split
  · next h => exact h
  · next h => rw [hremove] at h; cases h

/-- A change in place returns, with the table of `update`. -/
theorem update_eq (t : KsDsTable cb V) (key : K) (f : V → V) :
    ksDsUpdate cb t.table key f = some (t.update key f).table := by
  obtain ⟨u, hupdate, -⟩ := ksDsUpdate_spec t.wf key f
  unfold update
  split
  · next h => exact h
  · next h => rw [hupdate] at h; cases h

/-- A lookup is one among the live pairs. -/
theorem get_eq (t : KsDsTable cb V) (key : K) : t.get key = AssocMap.lookup cb.eqv t.live key := by
  rw [get, ksDsGet_spec t.wf]
  rfl

/-! ### what they do to the contents -/

/-- What is found after a put that has not failed. -/
theorem get_put (t : KsDsTable cb V) (key : K) (value : V) (grant : Bool)
    (h : (t.put key value grant).2 ≠ .error) (k : K) :
    (t.put key value grant).1.get k = if cb.eqv key k = true then some value else t.get k := by
  obtain ⟨t', r, hput, hw, hcase⟩ := ksDsPut_spec t.wf key value grant
  rw [put_eq, Option.some.injEq, Prod.mk.injEq] at hput
  obtain ⟨rfl, rfl⟩ := hput
  have hinsert : (t.put key value grant).1.live.Perm (AssocMap.insert cb.eqv t.live key value) := by
    rcases hcase with ⟨-, -, hp, -⟩ | ⟨-, hc, hp, -⟩ | ⟨herr, -⟩
    · exact hp
    · rw [AssocMap.insert, AssocMap.erase_of_not_contains hc]
      exact hp
    · exact absurd herr h
  rw [get_eq, get_eq, AssocMap.lookup_perm cb.eqv_isEquiv hw.distinct hinsert,
    AssocMap.lookup_insert cb.eqv_isEquiv]

/-- A put that fails leaves the table as it was: the key was not there, and the
array could not grow. -/
theorem put_error (t : KsDsTable cb V) (key : K) (value : V) (grant : Bool)
    (h : (t.put key value grant).2 = .error) :
    (t.put key value grant).1 = t ∧ t.get key = none ∧
      (grant = false ∨ KsDs.AddressSpaceFull t.table.size) := by
  obtain ⟨t', r, hput, hw, hcase⟩ := ksDsPut_spec t.wf key value grant
  rw [put_eq, Option.some.injEq, Prod.mk.injEq] at hput
  obtain ⟨rfl, rfl⟩ := hput
  rw [h] at hcase
  rcases hcase with ⟨habs, -⟩ | ⟨habs, -⟩ | ⟨-, hc, ht, hfail⟩
  · cases habs
  · cases habs
  · refine ⟨?_, by rw [get_eq]; exact AssocMap.lookup_eq_none hc, hfail.2⟩
    cases hpt : (t.put key value grant).1
    cases t
    simp_all

/-- A put that has not failed says whether the key was there. -/
theorem put_replaced_iff (t : KsDsTable cb V) (key : K) (value : V) (grant : Bool)
    (h : (t.put key value grant).2 ≠ .error) :
    (t.put key value grant).2 = if (t.get key).isSome then .replaced else .inserted := by
  obtain ⟨t', r, hput, hw, hcase⟩ := ksDsPut_spec t.wf key value grant
  rw [put_eq, Option.some.injEq, Prod.mk.injEq] at hput
  obtain ⟨rfl, rfl⟩ := hput
  rw [get_eq, AssocMap.lookup_isSome]
  rcases hcase with ⟨hr, hc, -⟩ | ⟨hr, hc, -⟩ | ⟨hr, -⟩
  · rw [hr, live, hc]; rfl
  · rw [hr, live, hc]; rfl
  · exact absurd hr h

/-- What is found after a removal. -/
theorem get_remove (t : KsDsTable cb V) (key k : K) :
    (t.remove key).1.get k = if cb.eqv key k = true then none else t.get k := by
  obtain ⟨t', hremove, hw, hp, -⟩ := ksDsRemove_spec t.wf key
  rw [remove_eq, Option.some.injEq, Prod.mk.injEq] at hremove
  obtain ⟨rfl, -⟩ := hremove
  rw [get_eq, get_eq, live, AssocMap.lookup_perm cb.eqv_isEquiv hw.distinct hp,
    AssocMap.lookup_erase cb.eqv_isEquiv]

/-- A removal says whether the key was there. -/
theorem remove_snd (t : KsDsTable cb V) (key : K) : (t.remove key).2 = (t.get key).isSome := by
  obtain ⟨t', hremove, -⟩ := ksDsRemove_spec t.wf key
  rw [remove_eq, Option.some.injEq, Prod.mk.injEq] at hremove
  rw [get_eq, AssocMap.lookup_isSome, hremove.2]

/-- What is found after a change in place. -/
theorem get_update (t : KsDsTable cb V) (key : K) (f : V → V) (k : K) :
    (t.update key f).get k = if cb.eqv key k = true then (t.get k).map f else t.get k := by
  obtain ⟨t', hupdate, hw, -, -, hcase⟩ := ksDsUpdate_spec t.wf key f
  rw [update_eq, Option.some.injEq] at hupdate
  subst hupdate
  rw [get_eq, get_eq]
  rcases hcase with ⟨hc, ht⟩ | ⟨k₀, v, hm, hk₀, hperm⟩
  · have hlive : (t.update key f).live = t.live := by rw [live, ht]
    rw [hlive]
    split
    · next hk =>
      have hnone : AssocMap.lookup cb.eqv t.live k = none := by
        rw [← Option.not_isSome_iff_eq_none, AssocMap.lookup_isSome]
        intro hck
        obtain ⟨e, hme, hek⟩ := AssocMap.contains_eq_true.mp hck
        have := AssocMap.contains_eq_false.mp hc e hme
        rw [cb.eqv_isEquiv.trans hek (cb.eqv_isEquiv.symm hk)] at this
        cases this
      rw [hnone]; rfl
    · rfl
  · -- both sides drop the old pair and add the new one
    have hnew : (t.update key f).live.Perm (AssocMap.insert cb.eqv t.live k₀ (f v)) := by
      obtain ⟨pre, post, hsplit⟩ := List.append_of_mem hm
      have hrest : t.live.Perm ((k₀, v) :: (pre ++ post)) := by
        rw [live, hsplit]; exact List.perm_middle
      have herase := AssocMap.erase_of_perm_cons cb.eqv_isEquiv t.wf.distinct hrest
        (cb.eqv_isEquiv.refl k₀)
      have hswap := hperm.trans ((hrest.cons _).trans (List.Perm.swap _ _ _))
      exact (List.Perm.cons_inv hswap).trans (herase.symm.cons _)
    rw [live, AssocMap.lookup_perm cb.eqv_isEquiv hw.distinct hnew,
      AssocMap.lookup_insert cb.eqv_isEquiv]
    have hiff : cb.eqv k₀ k = true ↔ cb.eqv key k = true :=
      ⟨cb.eqv_isEquiv.trans (cb.eqv_isEquiv.symm hk₀), cb.eqv_isEquiv.trans hk₀⟩
    simp only [hiff]
    split
    · next hk =>
      rw [AssocMap.lookup_eq_some cb.eqv_isEquiv t.wf.distinct hm (hiff.mpr hk)]
      rfl
    · rfl

/-- Nothing is found in an empty table. -/
theorem get_init (k : K) : (init : KsDsTable cb V).get k = none := by
  rw [get_eq]
  exact AssocMap.lookup_eq_none (by
    rw [show (init : KsDsTable cb V).live = [] from KsDs.live_replicate]; rfl)

/-! ### its slots -/

/-- The key of an occupied slot is found. -/
theorem get_of_entry (t : KsDsTable cb V) {i : Nat} (hi : i < t.table.capacity) {h : UInt64} {k : K}
    {v : V} (he : t.table.entry i = .occupied h k v) : t.get k = some v := by
  have hmem : (k, v) ∈ t.live := KsDs.mem_live.mpr ⟨i, by rw [t.wf.length]; exact hi, h, he⟩
  rw [get_eq]
  exact AssocMap.lookup_eq_some cb.eqv_isEquiv t.wf.distinct hmem (cb.eqv_isEquiv.refl k)

/-- A key that is found occupies a slot. -/
theorem exists_entry_of_get (t : KsDsTable cb V) {k : K} {v : V} (hget : t.get k = some v) :
    ∃ i < t.table.capacity, ∃ h k', t.table.entry i = .occupied h k' v ∧ cb.eqv k' k = true := by
  rw [get_eq] at hget
  obtain ⟨k', hmem, hk⟩ := AssocMap.mem_of_lookup hget
  obtain ⟨i, hi, h, he⟩ := KsDs.mem_live.mp hmem
  exact ⟨i, by rw [← t.wf.length]; exact hi, h, k', he, hk⟩

/-- Removing the key of a slot buries that slot and touches no other. -/
theorem remove_slot (t : KsDsTable cb V) {i : Nat} (hi : i < t.table.capacity) {h : UInt64} {k : K}
    {v : V} (he : t.table.entry i = .occupied h k v) :
    (t.remove k).2 = true ∧ (t.remove k).1.table.capacity = t.table.capacity ∧
      ∀ j, (t.remove k).1.table.entry j = if j = i then .tombstone else t.table.entry j := by
  have hremove := ksDsRemove_slot t.wf hi he
  rw [remove_eq, Option.some.injEq, Prod.mk.injEq] at hremove
  refine ⟨hremove.2, by rw [hremove.1], fun j => ?_⟩
  rw [hremove.1]
  exact KsDs.entry_withEntry (by rw [t.wf.length]; exact hi) .tombstone j

/-- Removing the key of a slot buries it there. -/
theorem remove_entries (t : KsDsTable cb V) {i : Nat} (hi : i < t.table.capacity) {h : UInt64}
    {k : K} {v : V} (he : t.table.entry i = .occupied h k v) :
    (t.remove k).1.table.entries = t.table.entries.set i .tombstone := by
  have hremove := ksDsRemove_slot t.wf hi he
  rw [remove_eq, Option.some.injEq, Prod.mk.injEq] at hremove
  rw [hremove.1]

/-- `size` counts the keys, when equal keys are the same key. -/
theorem encard_keys (t : KsDsTable cb V) (heq : ∀ {a b}, cb.eqv a b = true → a = b) :
    {k | (t.get k).isSome}.encard = t.table.size := by
  classical
  have hnodup : (t.live.map Prod.fst).Nodup := by
    rw [List.Nodup, List.pairwise_map]
    refine t.wf.distinct.imp fun {a b} hab hk => ?_
    rw [hk, cb.eqv_isEquiv.refl] at hab
    cases hab
  have hkeys : {k | (t.get k).isSome} = ((t.live.map Prod.fst).toFinset : Set K) := by
    ext k
    simp only [Set.mem_ofPred_eq, List.coe_toFinset, List.mem_map, get_eq, AssocMap.lookup_isSome,
      AssocMap.contains_eq_true]
    constructor
    · rintro ⟨e, hm, hk⟩
      exact ⟨e, hm, heq hk⟩
    · rintro ⟨e, hm, rfl⟩
      exact ⟨e, hm, cb.eqv_isEquiv.refl _⟩
  rw [hkeys, Set.encard_coe_eq_coe_finsetCard, List.toFinset_card_of_nodup hnodup,
    List.length_map, t.wf.size]

end KsDsTable

end Kessel
