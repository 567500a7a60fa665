import Kessel.Ds.Refine

/-!
# Kessel.Ds.Runs

What holds in every state a run of the hash table reaches, for any hash and any
`calloc` refused.

`ksDsStep_spec` says once what a call does to the contents, to the destroyed
pairs and to the capacity; the three results are invariants read off it:

* `ksDs_sound`: the counters count, an empty slot is left, every search ends,
  and no size computation wraps;
* `ksDs_destroys_once`: the pairs handed over are the pairs held and the pairs
  destroyed, each of them once;
* `ksDs_churn`: the capacity is bounded by the largest size so far, however
  many keys came and went.
-/

namespace Kessel

open Refinement LinearProbe

variable {K V : Type} {cb : KsDsCallbacks K}

/-! ## what a call hands over -/

/-- The key and the value a call passes to the table. -/
def KsDsOp.put? : KsDsOp K V → Option (K × V)
  | .put key value _ => some (key, value)
  | _ => none

/-- The key and the value a call hands over to the table. -/
def ksDsAccepted? : KsDsOp K V × KsDsAnswer V → Option (K × V)
  | (.put _ _ _, .put .error _) => none
  | (.put key value _, .put _ _) => some (key, value)
  | _ => none

/-- The key and the value of a failed call, which stay with the caller. -/
def ksDsRefused? : KsDsOp K V × KsDsAnswer V → Option (K × V)
  | (.put key value _, .put .error _) => some (key, value)
  | _ => none

/-! ## one call -/

/-- A pair that moves from the table to the destroyed pairs is still there. -/
theorem perm_of_destroyed {live live' released : List (K × V)} {p : K × V}
    (h : (p :: live').Perm live) : (live' ++ (released ++ [p])).Perm (live ++ released) := by
  rw [← List.append_assoc]
  exact (List.perm_append_singleton p _).trans (h.append_right _)

/-- **One call** ends and keeps the invariant; the pairs held and destroyed grow
by the pair handed over, and the capacity only grows, by doubling, when the live
keys need the room. -/
theorem ksDsStep_spec {t : KsDs K V} (hw : t.Wf cb) (op : KsDsOp K V) :
    ∃ t' answer, ksDsStep cb t op = some (t', answer) ∧ t'.Wf cb ∧
      (ksDsAccepted? (op, answer)).toList ++ (ksDsRefused? (op, answer)).toList =
        op.put?.toList ∧
      (t'.live ++ t'.released).Perm
        ((ksDsAccepted? (op, answer)).toList ++ (t.live ++ t.released)) ∧
      (t'.capacity = t.capacity ∨
        t'.capacity = 2 * t.capacity ∧ 7 * t.capacity < 10 * t'.size) := by
  cases op with
  | put k v grant =>
    obtain ⟨t', r, hput, hw', hcase⟩ := ksDsPut_spec hw k v grant
    refine ⟨t', .put r t.crowded, by rw [ksDsStep, hput]; rfl, hw', ?_⟩
    rcases hcase with ⟨rfl, -, -, hcap, p, hrel, hperm⟩ | ⟨rfl, -, hlive, hrel, hcap⟩ | ⟨rfl, -, rfl, -⟩
    · refine ⟨rfl, ?_, .inl hcap⟩
      rw [hrel]
      exact perm_of_destroyed hperm
    · have hsize : t'.size = t.size + 1 := by
        rw [hw'.size, hw.size, hlive.length_eq, List.length_cons]
      rw [← hsize] at hcap
      refine ⟨rfl, ?_, hcap⟩
      rw [hrel]
      exact hlive.append_right _
    · exact ⟨rfl, List.Perm.refl _, .inl rfl⟩
  | get k => exact ⟨t, _, by rw [ksDsStep, ksDsGet_spec hw]; rfl, hw, rfl, List.Perm.refl _, .inl rfl⟩
  | contains k =>
    exact ⟨t, _, by rw [ksDsStep, ksDsContains_spec hw]; rfl, hw, rfl, List.Perm.refl _, .inl rfl⟩
  | remove k =>
    obtain ⟨t', hremove, hw', -, hcap, hcase⟩ := ksDsRemove_spec hw k
    refine ⟨t', _, by rw [ksDsStep, hremove]; rfl, hw', rfl, ?_, .inl hcap⟩
    rcases hcase with ⟨-, rfl⟩ | ⟨p, -, hrel, hperm⟩
    · exact List.Perm.refl _
    · rw [hrel]
      exact perm_of_destroyed hperm
  | size => exact ⟨t, _, rfl, hw, rfl, List.Perm.refl _, .inl rfl⟩

/-! ## runs -/

/-- What relates the calls of a run, with their answers, to the table it reaches. -/
structure KsDs.Balanced (cb : KsDsCallbacks K) (calls : List (KsDsOp K V × KsDsAnswer V))
    (t : KsDs K V) : Prop where
  wf : t.Wf cb
  puts : (calls.filterMap ksDsAccepted? ++ calls.filterMap ksDsRefused?).Perm
    (calls.filterMap fun call => call.1.put?)
  balance : (t.live ++ t.released).Perm (calls.filterMap ksDsAccepted?)

theorem filterMap_append_singleton {α β : Type} (f : α → Option β) (l : List α) (a : α) :
    (l ++ [a]).filterMap f = l.filterMap f ++ (f a).toList := by
  rw [List.filterMap_append]
  cases h : f a <;> simp [h]

/-- **One call keeps the balance.** -/
theorem KsDs.Balanced.step {calls : List (KsDsOp K V × KsDsAnswer V)} {t : KsDs K V}
    (h : t.Balanced cb calls) (op : KsDsOp K V) :
    ∃ t' answer, ksDsStep cb t op = some (t', answer) ∧
      t'.Balanced cb (calls ++ [(op, answer)]) := by
  obtain ⟨t', answer, hstep, hw, hput, hperm, -⟩ := ksDsStep_spec h.wf op
  refine ⟨t', answer, hstep, hw, ?_, ?_⟩
  · simp only [filterMap_append_singleton]
    rw [← hput, List.append_assoc]
    exact ((List.perm_append_comm_assoc _ _ _).append_left _).trans
      (by rw [← List.append_assoc]; exact h.puts.append_right _)
  · rw [filterMap_append_singleton]
    exact hperm.trans ((h.balance.append_left _).trans List.perm_append_comm)

/-- Every run from `ks_ds_init` ends, in a balanced table. -/
theorem ksDs_run_balanced (cb : KsDsCallbacks K) (ops : List (KsDsOp K V)) :
    ∃ t answers, run (ksDsStep cb) ksDsInit ops = some (t, answers) ∧
      answers.length = ops.length ∧ t.Balanced cb (ops.zip answers) := by
  have hinit : (ksDsInit : KsDs K V).Balanced cb [] :=
    ⟨ksDsInit_wf, List.Perm.refl _, by
      rw [show (ksDsInit : KsDs K V).live = [] from KsDs.live_replicate]; rfl⟩
  exact run_history (fun _ _ op h => h.step op) ops hinit

/-! ## the representation -/

/-- Every search ends within one lap, at a slot of the array. -/
def KsDs.Searchable (cb : KsDsCallbacks K) (t : KsDs K V) : Prop :=
  ∀ key hash, ∃ index found, ksDsFind cb t key hash = some (index, found) ∧ index < t.capacity

/-- The representation invariant in the terms of the C struct. -/
structure KsDs.Sound (cb : KsDsCallbacks K) (t : KsDs K V) : Prop where
  length : t.entries.length = t.capacity
  pow : ∃ k, t.capacity = 2 ^ k
  eight_le : 8 ≤ t.capacity
  size : t.size = t.entries.countP KsDsEntry.isOccupied
  occupied : t.occupied = t.entries.countP fun e => !e.isEmpty
  size_le : t.size ≤ t.occupied
  load : 10 * t.occupied ≤ 7 * t.capacity
  exists_empty : ∃ i < t.capacity, (t.entry i).isEmpty = true
  searchable : t.Searchable cb
  occupied_fits : (t.occupied + 1) * 10 < 2 ^ 64
  size_fits : (t.size + 1) * 10 < 2 ^ 64
  limit_fits : t.capacity * 7 < 2 ^ 64
  double_fits : t.capacity * 2 < 2 ^ 64

/-- A table with an empty slot is searchable, whatever the hash of the key. -/
theorem KsDs.Probing.searchable {t : KsDs K V} (hp : t.Probing cb)
    (hempty : ∃ i < t.capacity, (t.entry i).isEmpty = true) : t.Searchable cb := by
  intro key hash
  have hhome : ksDsIndex hash t.capacity < t.capacity := ksDsIndex_lt hp.pow
  have hfree : ∃ i < t.capacity, t.cell cb key hash i = .free := by
    obtain ⟨i, hi, he⟩ := hempty
    exact ⟨i, hi, KsDs.cell_eq_free.mpr he⟩
  simp only [ksDsFind, ksDsFindLoop_eq_search cb hp.pow]
  rcases search_spec hhome hfree with ⟨D, -, -, hs⟩ | ⟨r, hv, -, hs⟩
  · exact ⟨_, _, hs, walk_lt (by omega) _ D⟩
  · exact ⟨_, _, hs, hv.lt⟩

/-- The live pairs are as many as the occupied slots. -/
theorem KsDs.live_length (t : KsDs K V) : t.live.length = t.entries.countP KsDsEntry.isOccupied := by
  rw [live, List.length_filterMap_eq_countP]
  refine List.countP_congr fun e _ => ?_
  cases e <;> simp [KsDsEntry.live?, KsDsEntry.isOccupied]

/-- A well-formed table is sound. -/
theorem KsDs.Wf.sound {t : KsDs K V} (hw : t.Wf cb) : t.Sound cb := by
  have hcap := hw.capacity_le
  have hload := hw.load
  have hsize := hw.size_le
  obtain ⟨k, hk⟩ := hw.pow
  exact
    { length := hw.length
      pow := ⟨k + 3, hk⟩
      eight_le := hw.eight_le
      size := by rw [hw.size, KsDs.live_length]
      occupied := hw.occupied
      size_le := hsize
      load := hload
      exists_empty := hw.exists_empty
      searchable := hw.searchable hw.exists_empty
      occupied_fits := by omega
      size_fits := by omega
      limit_fits := by omega
      double_fits := by omega }

/-! ### inside `ks_ds_rebuild` -/

/-- The table `ks_ds_rebuild` starts to fill: a new array with no entry. -/
def KsDs.emptied (t : KsDs K V) (capacity : Nat) : KsDs K V :=
  { t with entries := List.replicate capacity .empty, capacity, occupied := t.size }

/-- A rebuild can be stopped half-way. -/
theorem ksDsRebuildLoop_append (t : KsDs K V) (done rest : List (KsDsEntry K V)) :
    ksDsRebuildLoop cb t (done ++ rest) =
      (ksDsRebuildLoop cb t done).bind fun half => ksDsRebuildLoop cb half rest := by
  induction done generalizing t with
  | nil => rfl
  | cons e done ih =>
    cases e with
    | empty => exact ih t
    | tombstone => exact ih t
    | occupied h k v =>
      simp only [List.cons_append, ksDsRebuildLoop]
      cases ksDsFind cb t k h with
      | none => rfl
      | some r => exact ih _

/-- The half-filled table, after the entries `done` have been copied, is
searchable. -/
theorem ksDsRebuildLoop_half {t : KsDs K V} (hw : t.Wf cb) {capacity : Nat}
    (hcap : capacity = t.capacity ∨ capacity = 2 * t.capacity) {done rest : List (KsDsEntry K V)}
    (hsplit : t.entries = done ++ rest) :
    ∃ half, ksDsRebuildLoop cb (t.emptied capacity) done = some half ∧
      ksDsRebuildLoop cb (t.emptied capacity) t.entries = ksDsRebuildLoop cb half rest ∧
      half.capacity = capacity ∧ half.Searchable cb := by
  have h8 := hw.eight_le
  have hload := hw.load
  have hle := hw.size_le
  have hpow : ∃ k, capacity = 2 ^ (k + 3) := by
    obtain ⟨k, hk⟩ := hw.pow
    rcases hcap with rfl | rfl
    · exact ⟨k, hk⟩
    · exact ⟨k + 1, by rw [hk]; ring⟩
  have hlive : t.live = done.filterMap KsDsEntry.live? ++ rest.filterMap KsDsEntry.live? := by
    rw [KsDs.live, hsplit, List.filterMap_append]
  have hcount : (done.filterMap KsDsEntry.live?).length ≤ t.size := by
    rw [hw.size, hlive, List.length_append]
    omega
  have hroom : t.size < capacity := by omega
  have hnil : (t.emptied capacity).live = [] := KsDs.live_replicate
  obtain ⟨half, hloop, hp, hclean, hperm, hc, -⟩ :=
    ksDsRebuildLoop_spec done (t.emptied capacity) (KsDs.probing_replicate cb rfl hpow)
      (KsDs.clean_replicate rfl)
      (by
        rw [hnil, List.nil_append]
        have hd := hw.distinct
        rw [hlive] at hd
        exact (List.pairwise_append.mp hd).1)
      (fun h k v hm => hw.cached_of_mem (by rw [hsplit]; exact List.mem_append_left rest hm))
      (by
        rw [hnil]
        simpa [KsDs.emptied] using lt_of_le_of_lt hcount hroom)
  rw [hnil, List.nil_append] at hperm
  refine ⟨half, hloop, by rw [hsplit, ksDsRebuildLoop_append, hloop]; rfl, hc, hp.searchable ?_⟩
  refine KsDs.exists_empty hp.length ?_
  rw [hclean.used_eq, hperm.length_eq, hc]
  exact lt_of_le_of_lt hcount hroom

/-- **The representation invariant.**  In every state reached from `ks_ds_init`
the table is sound, and so it is after `ks_ds_prepare_insert`; the half-filled
tables of `ks_ds_rebuild`, at the same size and at twice the size, are
searchable. -/
theorem ksDs_sound (cb : KsDsCallbacks K) (ops : List (KsDsOp K V)) :
    ∃ t answers, run (ksDsStep cb) ksDsInit ops = some (t, answers) ∧ t.Sound cb ∧
      (∀ grant, ∃ t' ok, ksDsPrepareInsert cb t grant = some (t', ok) ∧ t'.Sound cb) ∧
      ∀ capacity, capacity = t.capacity ∨ capacity = 2 * t.capacity →
        ∀ done rest, t.entries = done ++ rest →
          ∃ half, ksDsRebuildLoop cb (t.emptied capacity) done = some half ∧
            ksDsRebuildLoop cb (t.emptied capacity) t.entries = ksDsRebuildLoop cb half rest ∧
            half.capacity = capacity ∧ half.Searchable cb := by
  obtain ⟨t, answers, hrun, -, hw, -⟩ := ksDs_run_balanced cb ops
  refine ⟨t, answers, hrun, hw.sound, fun grant => ?_,
    fun capacity hcap done rest hsplit => ksDsRebuildLoop_half hw hcap hsplit⟩
  rcases ksDsPrepareInsert_spec hw grant with ⟨hprep, -⟩ | ⟨t', hprep, hw', -⟩
  · exact ⟨t, false, hprep, hw.sound⟩
  · exact ⟨t', true, hprep, hw'.sound⟩

/-! ## ownership -/

/-- Rebuilding destroys nothing. -/
theorem ksDsRebuildLoop_released {es : List (KsDsEntry K V)} {t t' : KsDs K V}
    (h : ksDsRebuildLoop cb t es = some t') : t'.released = t.released := by
  induction es generalizing t with
  | nil =>
    cases h
    rfl
  | cons e es ih =>
    cases e with
    | empty => exact ih h
    | tombstone => exact ih h
    | occupied hash k v =>
      cases hfind : ksDsFind cb t k hash with
      | none =>
        simp only [ksDsRebuildLoop, hfind] at h
        cases h
      | some r =>
        simp only [ksDsRebuildLoop, hfind] at h
        have hrest := ih h
        exact hrest

/-- A rebuild releases nothing. -/
theorem ksDsRebuild_released {t t' : KsDs K V} {capacity : Nat} {grant ok : Bool}
    (h : ksDsRebuild cb t capacity grant = some (t', ok)) : t'.released = t.released := by
  unfold ksDsRebuild at h
  by_cases hno : grant = false ∨ capacity * ksDsEntrySize > Word.sizeMax
  · rw [if_pos hno] at h
    cases h
    rfl
  · rw [if_neg hno] at h
    cases hloop : ksDsRebuildLoop cb (t.emptied capacity) t.entries with
    | none =>
      rw [KsDs.emptied] at hloop
      simp only [hloop] at h
      cases h
    | some filled =>
      have hkept := ksDsRebuildLoop_released hloop
      rw [KsDs.emptied] at hloop
      simp only [hloop] at h
      cases h
      exact hkept

/-- Destroying a table releases its live pairs, in order. -/
theorem foldl_ksDsRelease (es : List (KsDsEntry K V)) (t : KsDs K V) :
    (es.foldl ksDsRelease t).released = t.released ++ es.filterMap KsDsEntry.live? := by
  induction es generalizing t with
  | nil => simp
  | cons e es ih =>
    rw [List.foldl_cons, ih]
    cases e <;> simp [ksDsRelease, KsDsEntry.live?, List.filterMap_cons]

/-- Destroying the table destroys the pairs it holds. -/
theorem ksDsDestroy_released (t : KsDs K V) : (ksDsDestroy t).released = t.released ++ t.live :=
  foldl_ksDsRelease t.entries t

/-- What is different in all pairs passed to the table stays so: no two pairs held
or destroyed share it, and no destroyed pair shares it with a refused one. -/
theorem KsDs.Balanced.distinct {calls : List (KsDsOp K V × KsDsAnswer V)} {t : KsDs K V}
    (h : t.Balanced cb calls) {γ : Type} (f : K × V → γ)
    (hf : ((calls.filterMap fun call => call.1.put?).map f).Nodup) :
    ((t.live ++ t.released).map f).Nodup ∧
      ∀ p ∈ calls.filterMap ksDsRefused?, f p ∉ t.released.map f := by
  have hkept := (h.puts.map f).nodup_iff.mpr hf
  rw [List.map_append, List.nodup_append] at hkept
  obtain ⟨haccepted, -, hdisjoint⟩ := hkept
  refine ⟨(h.balance.map f).nodup_iff.mpr haccepted, fun p hp hlog => ?_⟩
  obtain ⟨q, hq, heq⟩ := List.mem_map.mp hlog
  have hlogged : q ∈ calls.filterMap ksDsAccepted? :=
    h.balance.mem_iff.mp (List.mem_append_right _ hq)
  exact hdisjoint _ (List.mem_map_of_mem hlogged) _ (List.mem_map_of_mem hp) heq

/-- **Every key and value is destroyed once.**  When the keys and the values
passed to `ks_ds_put` are pairwise different, then in every state reached from
`ks_ds_init` the pairs handed over are those held and those destroyed, no key
and no value twice; what a failed call kept was not destroyed; a rebuild
destroys nothing; and `ks_ds_destroy` leaves every pair handed over destroyed. -/
theorem ksDs_destroys_once (cb : KsDsCallbacks K) (ops : List (KsDsOp K V))
    (hkeys : ((ops.filterMap KsDsOp.put?).map Prod.fst).Nodup)
    (hvalues : ((ops.filterMap KsDsOp.put?).map Prod.snd).Nodup) :
    ∃ t answers, run (ksDsStep cb) ksDsInit ops = some (t, answers) ∧
      answers.length = ops.length ∧
      (t.live ++ t.released).Perm ((ops.zip answers).filterMap ksDsAccepted?) ∧
      ((t.live ++ t.released).map Prod.fst).Nodup ∧
      ((t.live ++ t.released).map Prod.snd).Nodup ∧
      (∀ p ∈ (ops.zip answers).filterMap ksDsRefused?,
        p.1 ∉ t.released.map Prod.fst ∧ p.2 ∉ t.released.map Prod.snd) ∧
      (∀ capacity grant t' ok, ksDsRebuild cb t capacity grant = some (t', ok) →
        t'.released = t.released) ∧
      (ksDsDestroy t).released.Perm ((ops.zip answers).filterMap ksDsAccepted?) := by
  obtain ⟨t, answers, hrun, hlen, hbal⟩ := ksDs_run_balanced cb ops
  have hcalls : ((ops.zip answers).filterMap fun call => call.1.put?) = ops.filterMap KsDsOp.put? := by
    have hfst : (ops.zip answers).map Prod.fst = ops := List.map_fst_zip hlen.ge
    conv_rhs => rw [← hfst, List.filterMap_map]
    rfl
  rw [← hcalls] at hkeys hvalues
  obtain ⟨hkeysOnce, hkeysKept⟩ := hbal.distinct Prod.fst hkeys
  obtain ⟨hvaluesOnce, hvaluesKept⟩ := hbal.distinct Prod.snd hvalues
  refine ⟨t, answers, hrun, hlen, hbal.balance, hkeysOnce, hvaluesOnce,
    fun p hp => ⟨hkeysKept p hp, hvaluesKept p hp⟩, fun _ _ _ _ h => ksDsRebuild_released h, ?_⟩
  rw [ksDsDestroy_released]
  exact List.perm_append_comm.trans hbal.balance

/-- Inserting, replacing, removing, and failing to double a crowded table. -/
def crowdedCalls : List (KsDsOp Nat Nat) :=
  [.put 1 101 true, .put 2 102 true, .put 11 111 true, .remove 2, .put 3 103 true,
    .put 4 104 true, .put 5 105 true, .put 6 106 true, .put 7 107 false]

theorem ksDs_destroys_once_crowded :
    ∃ t answers, run (ksDsStep digitCallbacks) ksDsInit crowdedCalls = some (t, answers) ∧
      answers.length = crowdedCalls.length ∧
      (t.live ++ t.released).Perm ((crowdedCalls.zip answers).filterMap ksDsAccepted?) ∧
      ((t.live ++ t.released).map Prod.fst).Nodup ∧
      ((t.live ++ t.released).map Prod.snd).Nodup ∧
      (∀ p ∈ (crowdedCalls.zip answers).filterMap ksDsRefused?,
        p.1 ∉ t.released.map Prod.fst ∧ p.2 ∉ t.released.map Prod.snd) ∧
      (∀ capacity grant t' ok, ksDsRebuild digitCallbacks t capacity grant = some (t', ok) →
        t'.released = t.released) ∧
      (ksDsDestroy t).released.Perm ((crowdedCalls.zip answers).filterMap ksDsAccepted?) :=
  ksDs_destroys_once digitCallbacks crowdedCalls (by decide) (by decide)

/-! ## churn -/

/-- The largest size of the table in the course of a run. -/
def ksDsPeak (cb : KsDsCallbacks K) (t : KsDs K V) : List (KsDsOp K V) → Nat
  | [] => t.size
  | op :: ops =>
    max t.size (match ksDsStep cb t op with
      | none => 0
      | some (t', _) => ksDsPeak cb t' ops)

/-- The peak is the size of the table at some point of the run, and no size is
above it. -/
theorem ksDsPeak_le_iff {t : KsDs K V} (hw : t.Wf cb) (ops : List (KsDsOp K V)) (bound : Nat) :
    ksDsPeak cb t ops ≤ bound ↔ ∀ done rest u answers, ops = done ++ rest →
      run (ksDsStep cb) t done = some (u, answers) → u.size ≤ bound := by
  induction ops generalizing t with
  | nil =>
    constructor
    · intro h done rest u answers hsplit hrun
      obtain ⟨rfl, -⟩ := List.append_eq_nil_iff.mp hsplit.symm
      cases hrun
      exact h
    · exact fun h => h [] [] t [] rfl rfl
  | cons op ops ih =>
    obtain ⟨t', answer, hstep, hw', -⟩ := ksDsStep_spec hw op
    simp only [ksDsPeak, hstep, max_le_iff, ih hw']
    constructor
    · rintro ⟨hhead, htail⟩ done rest u answers hsplit hrun
      cases done with
      | nil =>
        cases hrun
        exact hhead
      | cons op' done =>
        obtain ⟨rfl, hops⟩ := List.cons.inj hsplit
        simp only [run, hstep] at hrun
        cases hrest : run (ksDsStep cb) t' done with
        | none =>
          simp only [hrest] at hrun
          cases hrun
        | some r =>
          simp only [hrest] at hrun
          cases hrun
          exact htail done rest _ _ hops hrest
    · intro h
      refine ⟨h [] (op :: ops) t [] rfl rfl, fun done rest u answers hsplit hrun => ?_⟩
      exact h (op :: done) rest u (answer :: answers) (by rw [hsplit]; rfl)
        (by simp only [run, hstep, hrun])

/-- The size is at most the peak. -/
theorem size_le_ksDsPeak (cb : KsDsCallbacks K) (t : KsDs K V) (ops : List (KsDsOp K V)) :
    t.size ≤ ksDsPeak cb t ops := by
  cases ops with
  | nil => exact le_refl _
  | cons op ops => exact le_max_left _ _

/-- The capacity is the initial one, or half of it was once too small for the
live keys. -/
def KsDs.Earned (t : KsDs K V) (peak : Nat) : Prop :=
  t.capacity = ksDsInitialCapacity ∨ 7 * (t.capacity / 2) < 10 * peak

theorem KsDs.Earned.mono {t : KsDs K V} {peak peak' : Nat} (h : t.Earned peak)
    (hle : peak ≤ peak') : t.Earned peak' :=
  h.imp id fun hlt => by omega

/-- A run keeps the capacity earned. -/
theorem ksDs_run_earned {t : KsDs K V} (hw : t.Wf cb) {peak : Nat} (h : t.Earned peak)
    (ops : List (KsDsOp K V)) :
    ∃ t' answers, run (ksDsStep cb) t ops = some (t', answers) ∧ t'.Wf cb ∧
      t'.Earned (max peak (ksDsPeak cb t ops)) := by
  induction ops generalizing t peak with
  | nil => exact ⟨t, [], rfl, hw, h.mono (le_max_left _ _)⟩
  | cons op ops ih =>
    obtain ⟨t₁, answer, hstep, hw₁, -, -, hcap⟩ := ksDsStep_spec hw op
    have hpeak := size_le_ksDsPeak cb t₁ ops
    have hearned : t₁.Earned (max peak t₁.size) := by
      rcases hcap with hsame | ⟨hdouble, hfull⟩
      · rw [KsDs.Earned, hsame]
        exact h.mono (le_max_left _ _)
      · right
        omega
    obtain ⟨t', answers, hrun, hw', hend⟩ := ih hw₁ hearned
    refine ⟨t', answer :: answers, by simp only [run, hstep, hrun], hw', hend.mono ?_⟩
    simp only [ksDsPeak, hstep]
    omega

/-- **Churn does not grow the table.**  In every state reached from `ks_ds_init`
the capacity is the initial one, or half of it was too small for the largest
size so far; so a bound on the number of live keys bounds the capacity, and an
insertion that only tombstones force to rebuild keeps it. -/
theorem ksDs_churn (cb : KsDsCallbacks K) (ops : List (KsDsOp K V)) :
    ∃ t answers, run (ksDsStep cb) ksDsInit ops = some (t, answers) ∧
      (t.capacity = 8 ∨ 7 * (t.capacity / 2) < 10 * ksDsPeak cb ksDsInit ops) ∧
      (∀ bound, (∀ done rest u us, ops = done ++ rest →
          run (ksDsStep cb) ksDsInit done = some (u, us) → u.size ≤ bound) →
        t.capacity = 8 ∨ 7 * t.capacity < 20 * bound) ∧
      (10 * (t.size + 1) ≤ 7 * t.capacity → ∀ grant, ∃ t' ok,
        ksDsPrepareInsert cb t grant = some (t', ok) ∧ t'.capacity = t.capacity) := by
  obtain ⟨t, answers, hrun, hw, hearned⟩ := ksDs_run_earned ksDsInit_wf (.inl rfl : ksDsInit.Earned 0) ops
  rw [Nat.zero_max] at hearned
  refine ⟨t, answers, hrun, hearned, fun bound hbound => ?_, fun hroom grant => ?_⟩
  · have hle := (ksDsPeak_le_iff ksDsInit_wf ops bound).mpr hbound
    obtain ⟨k, hk⟩ := hw.pow
    refine hearned.imp id fun hlt => ?_
    rw [pow_succ] at hk
    omega
  · rcases ksDsPrepareInsert_spec hw grant with ⟨hprep, -⟩ | ⟨t', hprep, -, -, -, -, -, hcap⟩
    · exact ⟨t, false, hprep, rfl⟩
    · exact ⟨t', true, hprep, by omega⟩

end Kessel
