import Kessel.Ds.Invariant

/-!
# Kessel.Ds.Wf

The full invariant of the hash table and the contract of every operation.

`KsDs.Wf` adds to `KsDs.Probing` that the array is addressable, that `size` and
`occupied` count the occupied and the non-empty slots, and that at most seven
tenths of the slots are in use.  Each operation has one lemma that says all it
can do: `ksDsRebuild_spec`, `ksDsPrepareInsert_spec`, `ksDsPut_spec`,
`ksDsGet_spec`, `ksDsContains_spec` and `ksDsRemove_spec`.  Each of them says in
particular that the probing loops end.
-/

namespace Kessel

open Word LinearProbe

variable {K V : Type}

/-- The number of slots that are not empty. -/
def KsDs.used (t : KsDs K V) : Nat := t.entries.countP fun e => !e.isEmpty

/-- The representation invariant. -/
structure KsDs.Wf (cb : KsDsCallbacks K) (t : KsDs K V) : Prop extends t.Probing cb where
  bytes : t.capacity * ksDsEntrySize ≤ sizeMax
  size : t.size = t.live.length
  occupied : t.occupied = t.used
  load : 10 * t.occupied ≤ 7 * t.capacity

/-! ## counting slots -/

/-- Live pairs occupy slots. -/
theorem KsDs.live_length_le_used (t : KsDs K V) : t.live.length ≤ t.used := by
  rw [live, List.length_filterMap_eq_countP, used]
  refine List.countP_mono_left fun e _ h => ?_
  cases e <;> simp_all [KsDsEntry.live?, KsDsEntry.isEmpty]

/-- An array with fewer used slots than slots has an empty slot. -/
theorem KsDs.exists_empty {t : KsDs K V} (hlen : t.entries.length = t.capacity)
    (h : t.used < t.capacity) : ∃ i < t.capacity, (t.entry i).isEmpty = true := by
  rw [← hlen, used, List.countP_lt_length_iff] at h
  obtain ⟨e, hm, he⟩ := h
  obtain ⟨i, hi, rfl⟩ := List.getElem_of_mem hm
  exact ⟨i, by omega, by rw [entry_of_lt hi]; simpa using he⟩

/-- Writing a non-empty entry uses one more slot when the slot was empty. -/
theorem KsDs.used_withEntry {t : KsDs K V} {i : Nat} (hi : i < t.entries.length)
    {e : KsDsEntry K V} (he : e.isEmpty = false) :
    (t.withEntry i e).used = if (t.entry i).isEmpty then t.used + 1 else t.used := by
  have hpos : (t.entry i).isEmpty = false → 0 < t.used := by
    intro h
    rw [used, List.countP_pos_iff]
    exact ⟨t.entries[i], List.getElem_mem hi, by rw [← entry_of_lt hi, h]; rfl⟩
  rw [entry_of_lt hi] at hpos ⊢
  unfold withEntry used
  rw [List.countP_set hi, he]
  cases h : t.entries[i].isEmpty with
  | true => simp
  | false =>
    have := hpos h
    simp only [used] at this
    simp
    omega

/-- An array without tombstones: its used slots are its occupied slots. -/
def KsDs.Clean (t : KsDs K V) : Prop := ∀ e ∈ t.entries, e.isEmpty = true ∨ e.isOccupied = true

/-- Without tombstones they are all that occupies slots. -/
theorem KsDs.Clean.used_eq {t : KsDs K V} (hc : t.Clean) : t.used = t.live.length := by
  rw [live, List.length_filterMap_eq_countP, used]
  refine List.countP_congr fun e hm => ?_
  have := hc e hm
  cases e <;> simp_all [KsDsEntry.live?, KsDsEntry.isEmpty, KsDsEntry.isOccupied]

/-- Writing a pair makes no tombstone. -/
theorem KsDs.Clean.withEntry {t : KsDs K V} (hc : t.Clean) (i : Nat) {h : UInt64} {k : K} {v : V} :
    (t.withEntry i (.occupied h k v)).Clean := by
  intro e hm
  rcases List.mem_or_eq_of_mem_set hm with hm | rfl
  · exact hc e hm
  · exact .inr rfl

/-! ## a fresh array -/

/-- An empty array holds no pair. -/
theorem KsDs.live_replicate {n : Nat} :
    (List.replicate n (.empty : KsDsEntry K V)).filterMap KsDsEntry.live? = [] := by
  rw [List.filterMap_eq_nil_iff]
  intro e hm
  rw [List.eq_of_mem_replicate hm]
  rfl

theorem KsDs.entry_replicate {t : KsDs K V} {n : Nat} (h : t.entries = List.replicate n .empty)
    (i : Nat) : t.entry i = .empty := by
  simp only [entry, h, List.getD_eq_getElem?_getD, List.getElem?_replicate]
  split <;> rfl

/-- An array of empty slots is a valid search array. -/
theorem KsDs.probing_replicate (cb : KsDsCallbacks K) {t : KsDs K V}
    (h : t.entries = List.replicate t.capacity .empty) (hpow : ∃ k, t.capacity = 2 ^ (k + 3)) :
    t.Probing cb where
  length := by rw [h, List.length_replicate]
  pow := hpow
  distinct := by
    simp only [KsDs.live, h, live_replicate]
    exact List.Pairwise.nil
  cached := by intro i h' k v _ he; rw [entry_replicate h] at he; cases he
  chained := by intro i h' k v _ he; rw [entry_replicate h] at he; cases he

/-- An empty array holds no tombstone. -/
theorem KsDs.clean_replicate {t : KsDs K V} {n : Nat} (h : t.entries = List.replicate n .empty) :
    t.Clean := by
  intro e hm
  rw [h] at hm
  rw [List.eq_of_mem_replicate hm]
  exact .inl rfl

/-! ## `ks_ds_rebuild` -/

section

variable {cb : KsDsCallbacks K}

/-- The copying loop, from a half-filled clean array `t` with the old entries
`es` still to copy. -/
theorem ksDsRebuildLoop_spec (es : List (KsDsEntry K V)) (t : KsDs K V) (hp : t.Probing cb)
    (hclean : t.Clean)
    (hdist : AssocMap.Distinct cb.eqv (t.live ++ es.filterMap KsDsEntry.live?))
    (hcached : ∀ h k v, .occupied h k v ∈ es → h = cb.hash k)
    (hroom : t.live.length + (es.filterMap KsDsEntry.live?).length < t.capacity) :
    ∃ t', ksDsRebuildLoop cb t es = some t' ∧ t'.Probing cb ∧ t'.Clean ∧
      t'.live.Perm (t.live ++ es.filterMap KsDsEntry.live?) ∧
      t'.capacity = t.capacity ∧ t'.size = t.size ∧ t'.occupied = t.occupied ∧
      t'.released = t.released := by
  induction es generalizing t with
  | nil => exact ⟨t, rfl, hp, hclean, by simp, rfl, rfl, rfl, rfl⟩
  | cons e es ih =>
    have hcached' : ∀ h k v, .occupied h k v ∈ es → h = cb.hash k :=
      fun h k v hm => hcached h k v (List.mem_cons_of_mem _ hm)
    cases e with
    | empty => exact ih t hp hclean hdist hcached' hroom
    | tombstone => exact ih t hp hclean hdist hcached' hroom
    | occupied h k v =>
      simp only [List.filterMap_cons, KsDsEntry.live?_occupied, List.length_cons] at hdist hroom
      have hh : h = cb.hash k := hcached h k v (List.mem_cons_self ..)
      have habsent : AssocMap.contains cb.eqv t.live k = false := by
        rw [AssocMap.contains_eq_false]
        intro p hm
        exact (List.pairwise_append.mp hdist).2.2 p hm (k, v) (List.mem_cons_self ..)
      have hempty := KsDs.exists_empty hp.length (by rw [hclean.used_eq]; omega)
      subst hh
      rcases ksDsFind_spec cb hp hempty k with ⟨i, hfound, -⟩ | ⟨i, hplace, hfind⟩
      · -- the key would be twice among the entries
        obtain ⟨hi, k', v', he, hk⟩ := hfound
        rw [AssocMap.contains_eq_false] at habsent
        have := habsent (k', v') (KsDs.mem_live.mpr ⟨i, by rw [hp.length]; exact hi, _, he⟩)
        rw [hk] at this
        cases this
      · have hlive := KsDs.live_place hp hplace v
        have hperm : ((t.withEntry i (.occupied (cb.hash k) k v)).live ++
            es.filterMap KsDsEntry.live?).Perm
              (t.live ++ (k, v) :: es.filterMap KsDsEntry.live?) :=
          (hlive.append_right _).trans List.perm_middle.symm
        obtain ⟨t', hloop, hp', hclean', hlive', hrest⟩ := ih _ (hp.place hplace v)
          (hclean.withEntry i) (AssocMap.Distinct.perm cb.eqv_isEquiv hperm.symm hdist) hcached'
          (by rw [hlive.length_eq]; simp only [KsDs.withEntry, List.length_cons]; omega)
        refine ⟨t', ?_, hp', hclean', hlive'.trans hperm, hrest⟩
        simp only [ksDsRebuildLoop, hfind]
        exact hloop

/-- **`ks_ds_rebuild`** into an array of `capacity` slots: a refused or
unaddressable array changes nothing; otherwise the contents are kept, and every
used slot is an occupied slot. -/
theorem ksDsRebuild_spec {t : KsDs K V} (hw : t.Wf cb) {capacity : Nat}
    (hpow : ∃ k, capacity = 2 ^ (k + 3)) (hroom : t.size < capacity) (grant : Bool) :
    (ksDsRebuild cb t capacity grant = some (t, false) ∧
      (grant = false ∨ capacity * ksDsEntrySize > sizeMax)) ∨
    (∃ t', ksDsRebuild cb t capacity grant = some (t', true) ∧ t'.Probing cb ∧
      capacity * ksDsEntrySize ≤ sizeMax ∧ t'.live.Perm t.live ∧ t'.capacity = capacity ∧
      t'.size = t.size ∧ t'.occupied = t.size ∧ t'.used = t.size ∧ t'.released = t.released) := by
  unfold ksDsRebuild
  by_cases hno : grant = false ∨ capacity * ksDsEntrySize > sizeMax
  · left
    rw [if_pos hno]
    exact ⟨rfl, hno⟩
  · right
    rw [if_neg hno]
    rw [not_or] at hno
    have hlive : (t.entries.filterMap KsDsEntry.live?).length = t.size := hw.size.symm
    have hnil : KsDs.live
        { t with entries := List.replicate capacity .empty, capacity, occupied := t.size } = [] :=
      KsDs.live_replicate
    obtain ⟨t', hloop, hp', hclean, hperm, hcap, hsize, hocc, hrel⟩ :=
      ksDsRebuildLoop_spec t.entries
        { t with entries := List.replicate capacity .empty, capacity, occupied := t.size }
        (KsDs.probing_replicate cb rfl hpow) (KsDs.clean_replicate rfl)
        (by rw [hnil]; exact hw.distinct)
        (fun h k v hm => hw.cached_of_mem hm)
        (by rw [hnil, hlive]; simpa using hroom)
    rw [hnil, List.nil_append] at hperm
    refine ⟨t', by simp only [hloop], hp', by omega, hperm, hcap, hsize, hocc, ?_, hrel⟩
    rw [hclean.used_eq, hperm.length_eq]
    exact hlive

/-! ## `ks_ds_prepare_insert` -/

/-- Every table fits the address space: its capacity is at most `2 ^ 58`. -/
theorem KsDs.Wf.capacity_le {t : KsDs K V} (hw : t.Wf cb) : t.capacity ≤ 2 ^ 58 := by
  have hbytes := hw.bytes
  unfold ksDsEntrySize sizeMax at hbytes
  obtain ⟨k, hk⟩ := hw.pow
  have hlt : t.capacity < 2 ^ 59 := by omega
  rw [hk] at hlt ⊢
  have hexp : k + 3 < 59 := (Nat.pow_lt_pow_iff_right (by decide)).mp hlt
  exact Nat.pow_le_pow_right (by decide) (by omega)

/-- There are at least eight slots. -/
theorem KsDs.Wf.eight_le {t : KsDs K V} (hw : t.Wf cb) : 8 ≤ t.capacity := by
  obtain ⟨k, hk⟩ := hw.pow
  rw [hk, pow_add]
  have : 1 ≤ 2 ^ k := Nat.one_le_two_pow
  omega

/-- Live pairs are among the occupied slots. -/
theorem KsDs.Wf.size_le {t : KsDs K V} (hw : t.Wf cb) : t.size ≤ t.occupied := by
  rw [hw.size, hw.occupied]
  exact t.live_length_le_used

/-- There always is an empty slot, so every probe ends. -/
theorem KsDs.Wf.exists_empty {t : KsDs K V} (hw : t.Wf cb) :
    ∃ i < t.capacity, (t.entry i).isEmpty = true := by
  have h8 := hw.eight_le
  have hload := hw.load
  refine KsDs.exists_empty hw.length ?_
  rw [← hw.occupied]
  omega

/-- The largest power of two of slots that an array in the address space has is
`2 ^ 58`; a table of this size is full when it needs to double. -/
def KsDs.AddressSpaceFull (size : Nat) : Prop := 7 * 2 ^ 58 < 10 * (size + 1)

/-- There is no room for one more used slot below the load limit. -/
def KsDs.crowded (t : KsDs K V) : Bool := 7 * t.capacity < 10 * (t.occupied + 1)

/-- Why `ks_ds_put` may fail: it needs a new array, and its `calloc` is refused
or the doubled array would not fit the address space. -/
def KsDs.GrowthFails (t : KsDs K V) (grant : Bool) : Prop :=
  t.crowded = true ∧ (grant = false ∨ KsDs.AddressSpaceFull t.size)

/-- The load tests of `ks_ds_prepare_insert`, without the wrap-around that the
invariant rules out. -/
theorem KsDs.Wf.load_tests {t : KsDs K V} (hw : t.Wf cb) :
    (u64 (u64 (t.occupied + 1) * 10) ≤ u64 (t.capacity * 7) ↔
      10 * (t.occupied + 1) ≤ 7 * t.capacity) ∧
    (u64 (u64 (t.size + 1) * 10) > u64 (t.capacity * 7) ↔ 7 * t.capacity < 10 * (t.size + 1)) ∧
    ¬ t.capacity > sizeMax / 2 ∧ u64 (t.capacity * 2) = t.capacity * 2 := by
  have hcap := hw.capacity_le
  have hload := hw.load
  have hsize := hw.size_le
  rw [u64_of_lt (n := t.occupied + 1) (by omega), u64_of_lt (n := t.size + 1) (by omega),
    u64_of_lt (n := (t.occupied + 1) * 10) (by omega),
    u64_of_lt (n := (t.size + 1) * 10) (by omega), u64_of_lt (n := t.capacity * 7) (by omega),
    u64_of_lt (n := t.capacity * 2) (by omega)]
  unfold sizeMax
  omega

/-- **`ks_ds_prepare_insert`** leaves room for one more used slot and keeps the
contents, or fails and changes nothing. -/
theorem ksDsPrepareInsert_spec {t : KsDs K V} (hw : t.Wf cb) (grant : Bool) :
    (ksDsPrepareInsert cb t grant = some (t, false) ∧ t.GrowthFails grant) ∨
    (∃ t', ksDsPrepareInsert cb t grant = some (t', true) ∧ t'.Wf cb ∧
      10 * (t'.occupied + 1) ≤ 7 * t'.capacity ∧ t'.live.Perm t.live ∧ t'.size = t.size ∧
      t'.released = t.released ∧
      (t'.capacity = t.capacity ∨
        t'.capacity = 2 * t.capacity ∧ 7 * t.capacity < 10 * (t.size + 1))) := by
  obtain ⟨hocc, hsize, hmax, hdouble⟩ := hw.load_tests
  have hcap := hw.capacity_le
  have h8 := hw.eight_le
  have hload := hw.load
  have hle := hw.size_le
  obtain ⟨k, hk⟩ := hw.pow
  unfold ksDsPrepareInsert
  simp only [hocc, hsize, hmax, if_false, hdouble]
  by_cases h₁ : 10 * (t.occupied + 1) ≤ 7 * t.capacity
  · right
    exact ⟨t, by rw [if_pos h₁], hw, h₁, List.Perm.refl _, rfl, rfl, .inl rfl⟩
  rw [if_neg h₁]
  have hcrowded : t.crowded = true := by
    rw [KsDs.crowded, decide_eq_true_eq]
    omega
  by_cases h₂ : 7 * t.capacity < 10 * (t.size + 1)
  · -- the live keys need the room: double
    rw [if_pos h₂]
    have hdouble : ∃ j, t.capacity * 2 = 2 ^ (j + 3) := ⟨k + 1, by rw [hk]; ring⟩
    rcases ksDsRebuild_spec hw hdouble (by omega) grant with ⟨hr, hfail⟩ |
      ⟨t', hr, hp, hbytes, hperm, hc, hs, ho, hu, hrel⟩
    · left
      refine ⟨hr, hcrowded, hfail.imp id fun hbig => ?_⟩
      unfold ksDsEntrySize sizeMax at hbig
      unfold KsDs.AddressSpaceFull
      have hpow58 : t.capacity = 2 ^ 58 := by
        have hlow : 2 ^ 57 < t.capacity := by omega
        rw [hk] at hlow hcap ⊢
        have h1 : 57 < k + 3 := (Nat.pow_lt_pow_iff_right (by decide)).mp hlow
        have h2 : k + 3 ≤ 58 := (Nat.pow_le_pow_iff_right (by decide)).mp hcap
        rw [show k + 3 = 58 by omega]
      omega
    · right
      refine ⟨t', hr,
        { hp with bytes := by rw [hc]; exact hbytes, size := ?_, occupied := ?_, load := ?_ }, ?_,
        hperm, hs, hrel, .inr ⟨by omega, h₂⟩⟩
      · rw [hs, hw.size, hperm.length_eq]
      · rw [ho, hu]
      · omega
      · omega
  · -- only tombstones are in the way: clear them
    rw [if_neg h₂]
    have hsame : ∃ j, t.capacity = 2 ^ (j + 3) := ⟨k, hk⟩
    rcases ksDsRebuild_spec hw hsame (by omega) grant with
      ⟨hr, hfail⟩ | ⟨t', hr, hp, hbytes, hperm, hc, hs, ho, hu, hrel⟩
    · left
      refine ⟨hr, hcrowded, hfail.imp id fun hbig => ?_⟩
      have := hw.bytes
      omega
    · right
      refine ⟨t', hr,
        { hp with bytes := by rw [hc]; exact hbytes, size := ?_, occupied := ?_, load := ?_ }, ?_,
        hperm, hs, hrel, .inl hc⟩
      · rw [hs, hw.size, hperm.length_eq]
      · rw [ho, hu]
      · omega
      · omega

/-! ## the public functions -/

/-- The first table is well formed. -/
theorem ksDsInit_wf : (ksDsInit : KsDs K V).Wf cb where
  toProbing := KsDs.probing_replicate cb rfl ⟨0, rfl⟩
  bytes := by simp [ksDsInit, ksDsInitialCapacity, ksDsEntrySize, sizeMax]
  size := by
    have : (ksDsInit : KsDs K V).live = [] := KsDs.live_replicate
    rw [this]; rfl
  occupied := by
    have hlive : (ksDsInit : KsDs K V).live = [] := KsDs.live_replicate
    rw [(KsDs.clean_replicate rfl).used_eq, hlive]; rfl
  load := by simp [ksDsInit]

@[simp] theorem ksDsRelease_of_live? {t : KsDs K V} {e : KsDsEntry K V} {p : K × V}
    (h : e.live? = some p) : ksDsRelease t e = { t with released := t.released ++ [p] } := by
  obtain ⟨h', rfl⟩ := KsDsEntry.live?_eq_some.mp h
  rfl

/-- The invariant of a table whose array is that of `u`. -/
theorem KsDs.Wf.of_probing {t u : KsDs K V} (hp : u.Probing cb) (hentries : t.entries = u.entries)
    (hcap : t.capacity = u.capacity) (hbytes : u.capacity * ksDsEntrySize ≤ sizeMax)
    (hsize : t.size = u.live.length) (hocc : t.occupied = u.used)
    (hload : 10 * t.occupied ≤ 7 * u.capacity) : t.Wf cb where
  toProbing := hp.congr hentries hcap
  bytes := by rw [hcap]; exact hbytes
  size := by rw [hsize, live, live, hentries]
  occupied := by rw [hocc, used, used, hentries]
  load := by rw [hcap]; exact hload

/-- Overwriting an occupied slot keeps the invariant and the counters. -/
theorem KsDs.Wf.replace {t : KsDs K V} (hw : t.Wf cb) {key : K} {i : Nat}
    (h : t.FoundAt cb key i) (v : V) : (t.withEntry i (.occupied (cb.hash key) key v)).Wf cb := by
  obtain ⟨p, -, -, hperm⟩ := KsDs.live_replace hw.toProbing h v
  have hi : i < t.entries.length := by rw [hw.length]; exact h.1
  have hnot : (t.entry i).isEmpty = false := by obtain ⟨-, k, w, he, -⟩ := h; rw [he]; rfl
  have hused : (t.withEntry i (.occupied (cb.hash key) key v)).used = t.used := by
    rw [used_withEntry hi rfl, hnot]; simp
  exact
    { hw.toProbing.replace h v with
      bytes := hw.bytes
      size := by
        have hlen := hperm.length_eq
        rw [List.length_cons, List.length_cons] at hlen
        exact hw.size.trans (by omega)
      occupied := by rw [hused]; exact hw.occupied
      load := hw.load }

/-- The table after `ks_ds_remove` has buried slot `i`. -/
theorem KsDs.Wf.bury {t : KsDs K V} (hw : t.Wf cb) {key : K} {i : Nat}
    (h : t.FoundAt cb key i) (released : List (K × V)) :
    KsDs.Wf cb { t with
      entries := t.entries.set i .tombstone, size := dec64 t.size, released } := by
  obtain ⟨p, -, -, hperm⟩ := KsDs.live_bury hw.toProbing h
  have hi : i < t.entries.length := by rw [hw.length]; exact h.1
  have hnot : (t.entry i).isEmpty = false := by obtain ⟨-, k, w, he, -⟩ := h; rw [he]; rfl
  have hused : (t.withEntry i .tombstone).used = t.used := by
    rw [used_withEntry hi rfl, hnot]; simp
  have hlen := hperm.length_eq
  rw [List.length_cons] at hlen
  have hsize := hw.size
  have hcap := hw.capacity_le
  have hle := hw.size_le
  have hload := hw.load
  have hdec : dec64 t.size = (t.withEntry i .tombstone).live.length := by
    rw [dec64_of_pos (by omega)]
    omega
  refine KsDs.Wf.of_probing (hw.toProbing.bury h) rfl rfl hw.bytes hdec ?_ hw.load
  exact hw.occupied.trans hused.symm

/-- The table after `ks_ds_put` has placed an absent key in slot `i`. -/
theorem KsDs.Wf.place {t : KsDs K V} (hw : t.Wf cb) (hroom : 10 * (t.occupied + 1) ≤ 7 * t.capacity)
    {key : K} {i : Nat} (h : t.PlaceAt cb key i) (v : V) :
    KsDs.Wf cb { t with
      entries := t.entries.set i (.occupied (cb.hash key) key v)
      occupied := if (t.entry i).isEmpty then u64 (t.occupied + 1) else t.occupied
      size := u64 (t.size + 1) } := by
  have hi : i < t.entries.length := by rw [hw.length]; exact h.lt
  have hlen := (KsDs.live_place hw.toProbing h v).length_eq
  rw [List.length_cons] at hlen
  have hused := used_withEntry (e := .occupied (cb.hash key) key v) hi rfl
  have hsize := hw.size
  have hocc := hw.occupied
  have hcap := hw.capacity_le
  have hle := hw.size_le
  have hload := hw.load
  rw [u64_of_lt (n := t.occupied + 1) (by omega), u64_of_lt (n := t.size + 1) (by omega)]
  refine KsDs.Wf.of_probing (hw.toProbing.place h v) rfl rfl hw.bytes ?_ ?_ ?_
  · exact (congrArg (· + 1) hsize).trans hlen.symm
  · rw [hused, hocc]
  · change 10 * (if (t.entry i).isEmpty then t.occupied + 1 else t.occupied) ≤ 7 * t.capacity
    split <;> omega

/-- **`ks_ds_put`** ends, keeps the invariant, and does one of three things. -/
theorem ksDsPut_spec {t : KsDs K V} (hw : t.Wf cb) (key : K) (value : V) (grant : Bool) :
    ∃ t' r, ksDsPut cb t key value grant = some (t', r) ∧ t'.Wf cb ∧
      ((r = .replaced ∧ AssocMap.contains cb.eqv t.live key = true ∧
          t'.live.Perm (AssocMap.insert cb.eqv t.live key value) ∧ t'.capacity = t.capacity ∧
          ∃ p, t'.released = t.released ++ [p] ∧ (p :: t'.live).Perm ((key, value) :: t.live)) ∨
        (r = .inserted ∧ AssocMap.contains cb.eqv t.live key = false ∧
          t'.live.Perm ((key, value) :: t.live) ∧ t'.released = t.released ∧
          (t'.capacity = t.capacity ∨
            t'.capacity = 2 * t.capacity ∧ 7 * t.capacity < 10 * (t.size + 1))) ∨
        (r = .error ∧ AssocMap.contains cb.eqv t.live key = false ∧ t' = t ∧
          t.GrowthFails grant)) := by
  unfold ksDsPut
  rcases ksDsFind_spec cb hw.toProbing hw.exists_empty key with ⟨i, hfound, hfind⟩ | ⟨i, hplace, hfind⟩
  · obtain ⟨p, hlive, hk, hperm⟩ := KsDs.live_replace hw.toProbing hfound value
    simp only [hfind, ksDsRelease_of_live? hlive]
    have hmem : p ∈ t.live := by
      obtain ⟨h', he⟩ := KsDsEntry.live?_eq_some.mp hlive
      exact KsDs.mem_live.mpr ⟨i, by rw [hw.length]; exact hfound.1, h', he⟩
    refine ⟨_, _, rfl, ?_, .inl ⟨rfl, ?_, KsDs.live_replace_insert hw.toProbing hfound value, rfl,
      p, rfl, hperm⟩⟩
    · have hw' := hw.replace hfound value
      exact KsDs.Wf.of_probing hw'.toProbing rfl rfl hw'.bytes hw'.size hw'.occupied hw'.load
    · exact AssocMap.contains_eq_true.mpr ⟨p, hmem, hk⟩
  · simp only [hfind]
    have habsent := hplace.absent
    rcases ksDsPrepareInsert_spec hw grant with
      ⟨hprep, hfail⟩ | ⟨t', hprep, hw', hroom, hperm, hsize, hrel, hcap⟩
    · simp only [hprep]
      exact ⟨_, _, rfl, hw, .inr (.inr ⟨rfl, habsent, rfl, hfail⟩)⟩
    · simp only [hprep]
      rw [← AssocMap.contains_perm hperm] at habsent
      rcases ksDsFind_spec cb hw'.toProbing hw'.exists_empty key with
        ⟨j, hfound', -⟩ | ⟨j, hplace', hfind'⟩
      · -- the rebuilt table does not have the key either
        obtain ⟨hj, k, w, he, hk⟩ := hfound'
        rw [AssocMap.contains_eq_false] at habsent
        have := habsent (k, w) (KsDs.mem_live.mpr ⟨j, by rw [hw'.length]; exact hj, _, he⟩)
        rw [hk] at this
        cases this
      · simp only [hfind']
        refine ⟨_, _, rfl, hw'.place hroom hplace' value, .inr (.inl ⟨rfl, ?_, ?_, hrel, hcap⟩)⟩
        · exact hplace.absent
        · exact (KsDs.live_place hw'.toProbing hplace' value).trans (hperm.cons _)

/-- **`ks_ds_get`** ends and answers the value of the key. -/
theorem ksDsGet_spec {t : KsDs K V} (hw : t.Wf cb) (key : K) :
    ksDsGet cb t key = some (AssocMap.lookup cb.eqv t.live key) := by
  unfold ksDsGet
  rcases ksDsFind_spec cb hw.toProbing hw.exists_empty key with ⟨i, hfound, hfind⟩ | ⟨i, hplace, hfind⟩
  · simp only [hfind]
    obtain ⟨hi, k, v, he, hk⟩ := hfound
    have hmem : (k, v) ∈ t.live := KsDs.mem_live.mpr ⟨i, by rw [hw.length]; exact hi, _, he⟩
    rw [he, AssocMap.lookup_eq_some cb.eqv_isEquiv hw.distinct hmem hk]
    rfl
  · simp only [hfind, AssocMap.lookup_eq_none hplace.absent]

/-- **`ks_ds_contains`** ends and says whether the key is there. -/
theorem ksDsContains_spec {t : KsDs K V} (hw : t.Wf cb) (key : K) :
    ksDsContains cb t key = some (AssocMap.contains cb.eqv t.live key) := by
  unfold ksDsContains
  rcases ksDsFind_spec cb hw.toProbing hw.exists_empty key with ⟨i, hfound, hfind⟩ | ⟨i, hplace, hfind⟩
  · simp only [hfind]
    obtain ⟨hi, k, v, he, hk⟩ := hfound
    have hmem : (k, v) ∈ t.live := KsDs.mem_live.mpr ⟨i, by rw [hw.length]; exact hi, _, he⟩
    rw [AssocMap.contains_eq_true.mpr ⟨_, hmem, hk⟩]
  · simp only [hfind, hplace.absent]

/-- **`ks_ds_remove`** ends, keeps the invariant, and drops the key if it is there. -/
theorem ksDsRemove_spec {t : KsDs K V} (hw : t.Wf cb) (key : K) :
    ∃ t', ksDsRemove cb t key = some (t', AssocMap.contains cb.eqv t.live key) ∧ t'.Wf cb ∧
      t'.live.Perm (AssocMap.erase cb.eqv t.live key) ∧ t'.capacity = t.capacity ∧
      ((AssocMap.contains cb.eqv t.live key = false ∧ t' = t) ∨
        ∃ p, cb.eqv p.1 key = true ∧ t'.released = t.released ++ [p] ∧
          (p :: t'.live).Perm t.live) := by
  unfold ksDsRemove
  rcases ksDsFind_spec cb hw.toProbing hw.exists_empty key with ⟨i, hfound, hfind⟩ | ⟨i, hplace, hfind⟩
  · obtain ⟨p, hlive, hk, hperm⟩ := KsDs.live_bury hw.toProbing hfound
    have hmem : p ∈ t.live := hperm.mem_iff.mp (List.mem_cons_self ..)
    simp only [hfind, ksDsRelease_of_live? hlive]
    refine ⟨_, ?_, hw.bury hfound (t.released ++ [p]), KsDs.live_bury_erase hw.toProbing hfound, rfl,
      .inr ⟨p, hk, rfl, hperm⟩⟩
    rw [AssocMap.contains_eq_true.mpr ⟨p, hmem, hk⟩]
  · simp only [hfind]
    refine ⟨t, by rw [hplace.absent], hw, ?_, rfl, .inl ⟨hplace.absent, rfl⟩⟩
    rw [AssocMap.erase_of_not_contains hplace.absent]

end

end Kessel
