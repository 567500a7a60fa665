import Kessel.Ds.Table

/-!
# Kessel.Ds.Rename

Other keys and values in the same slots.

The hash table looks at a key only through its callbacks, and never at a value.
So a map of keys that the callbacks do not notice (`Renames`), with any map of
values, goes through every function: the slots, the counters and the answers of
the two tables are the same.
-/

namespace Kessel

open Word

variable {K K' V V' : Type}

/-- The callbacks do not notice that a key is exchanged for its image. -/
structure Renames (cb : KsDsCallbacks K) (cb' : KsDsCallbacks K') (f : K → K') : Prop where
  hash : ∀ k, cb'.hash (f k) = cb.hash k
  equal : ∀ a b, cb'.equal (f a) (f b) = cb.equal a b

def KsDsEntry.map (f : K → K') (g : V → V') : KsDsEntry K V → KsDsEntry K' V'
  | .empty => .empty
  | .tombstone => .tombstone
  | .occupied hash k v => .occupied hash (f k) (g v)

def KsDs.map (f : K → K') (g : V → V') (t : KsDs K V) : KsDs K' V' where
  entries := t.entries.map (KsDsEntry.map f g)
  capacity := t.capacity
  size := t.size
  occupied := t.occupied
  released := t.released.map (Prod.map f g)

section
variable {f : K → K'} {g : V → V'} (t : KsDs K V)

@[simp] theorem KsDsEntry.map_empty : (.empty : KsDsEntry K V).map f g = .empty := rfl
@[simp] theorem KsDsEntry.map_tombstone : (.tombstone : KsDsEntry K V).map f g = .tombstone := rfl
@[simp] theorem KsDsEntry.map_occupied (hash : UInt64) (k : K) (v : V) :
    (.occupied hash k v : KsDsEntry K V).map f g = .occupied hash (f k) (g v) := rfl

@[simp] theorem KsDsEntry.isEmpty_map (e : KsDsEntry K V) : (e.map f g).isEmpty = e.isEmpty := by
  cases e <;> rfl

@[simp] theorem KsDsEntry.live?_map (e : KsDsEntry K V) :
    (e.map f g).live? = e.live?.map (Prod.map f g) := by
  cases e <;> rfl

@[simp] theorem KsDs.entry_map (i : Nat) : (t.map f g).entry i = (t.entry i).map f g := by
  simp only [KsDs.entry, KsDs.map, List.getD_eq_getElem?_getD, List.getElem?_map]
  cases t.entries[i]? <;> rfl

/-- Writing a slot. -/
theorem KsDs.map_set (i : Nat) (e : KsDsEntry K V) :
    ({ t with entries := t.entries.set i e } : KsDs K V).map f g =
      { t.map f g with entries := (t.map f g).entries.set i (e.map f g) } := by
  simp only [KsDs.map, List.map_set]

/-- Releasing an entry releases the renamed one. -/
theorem ksDsRelease_map (e : KsDsEntry K V) :
    ksDsRelease (t.map f g) (e.map f g) = (ksDsRelease t e).map f g := by
  cases e <;> simp [ksDsRelease, KsDs.map]

end

/-! ## the functions -/

section
variable {cb : KsDsCallbacks K} {cb' : KsDsCallbacks K'} {f : K → K'} {g : V → V'}
  (h : Renames cb cb' f) (t : KsDs K V)
include h

/-- The probe loop sees hashes and equality only, so it takes the same way. -/
theorem ksDsFindLoop_map (key : K) (hash : UInt64) (fuel index : Nat) (first : Option Nat) :
    ksDsFindLoop cb' (t.map f g) (f key) hash fuel index first =
      ksDsFindLoop cb t key hash fuel index first := by
  induction fuel generalizing index first with
  | zero => rfl
  | succ fuel ih =>
    unfold ksDsFindLoop
    rw [KsDs.entry_map]
    cases t.entry index with
    | empty => rfl
    | tombstone => exact ih _ _
    | occupied entryHash k v =>
      simp only [KsDsEntry.map_occupied, h.equal]
      split
      · rfl
      · exact ih _ _

/-- `ks_ds_find` finds the same slot. -/
theorem ksDsFind_map (key : K) (hash : UInt64) :
    ksDsFind cb' (t.map f g) (f key) hash = ksDsFind cb t key hash :=
  ksDsFindLoop_map h t key hash t.capacity _ none

/-- The entries of a rebuild arrive at the same slots. -/
theorem ksDsRebuildLoop_map (es : List (KsDsEntry K V)) :
    ksDsRebuildLoop cb' (t.map f g) (es.map (KsDsEntry.map f g)) =
      (ksDsRebuildLoop cb t es).map (KsDs.map f g) := by
  induction es generalizing t with
  | nil => rfl
  | cons e es ih =>
    cases e with
    | empty => exact ih t
    | tombstone => exact ih t
    | occupied hash k v =>
      simp only [List.map_cons, KsDsEntry.map_occupied, ksDsRebuildLoop, ksDsFind_map h]
      cases ksDsFind cb t k hash with
      | none => rfl
      | some found =>
        have hset := KsDs.map_set (f := f) (g := g) t found.1 (.occupied hash k v)
        exact (congrArg (fun t => ksDsRebuildLoop cb' t _) hset.symm).trans (ih _)

/-- `ks_ds_rebuild` commutes with the renaming. -/
theorem ksDsRebuild_map (capacity : Nat) (grant : Bool) :
    ksDsRebuild cb' (t.map f g) capacity grant =
      (ksDsRebuild cb t capacity grant).map (Prod.map (KsDs.map f g) id) := by
  unfold ksDsRebuild
  split
  · rfl
  · have hfresh : KsDs.map f g ⟨List.replicate capacity .empty, capacity, t.size, t.size, t.released⟩ =
        ⟨List.replicate capacity .empty, capacity, t.size, t.size, t.released.map (Prod.map f g)⟩ := by
      simp [KsDs.map]
    have hloop := ksDsRebuildLoop_map (g := g) h
      ⟨List.replicate capacity .empty, capacity, t.size, t.size, t.released⟩ t.entries
    rw [hfresh] at hloop
    simp only [KsDs.map, hloop]
    cases ksDsRebuildLoop cb _ t.entries <;> rfl

/-- `ks_ds_prepare_insert` commutes with the renaming. -/
theorem ksDsPrepareInsert_map (grant : Bool) :
    ksDsPrepareInsert cb' (t.map f g) grant =
      (ksDsPrepareInsert cb t grant).map (Prod.map (KsDs.map f g) id) := by
  unfold ksDsPrepareInsert
  simp only [ksDsRebuild_map h, apply_ite (Option.map (Prod.map (KsDs.map f g) id))]
  rfl

/-- `ks_ds_put` commutes with the renaming. -/
theorem ksDsPut_map (key : K) (value : V) (grant : Bool) :
    ksDsPut cb' (t.map f g) (f key) (g value) grant =
      (ksDsPut cb t key value grant).map (Prod.map (KsDs.map f g) id) := by
  unfold ksDsPut
  simp only [h.hash, ksDsFind_map h, ksDsPrepareInsert_map h]
  cases ksDsFind cb t key (cb.hash key) with
  | none => rfl
  | some place =>
    obtain ⟨index, found⟩ := place
    cases found with
    | true =>
      have hset (u : KsDs K V) :=
        KsDs.map_set (f := f) (g := g) u index (.occupied (cb.hash key) key value)
      simp only [KsDs.entry_map, ksDsRelease_map, Option.map_some, Prod.map_apply, hset, id]
      rfl
    | false =>
      dsimp only
      rcases ksDsPrepareInsert cb t grant with _ | ⟨u, _ | _⟩
      · rfl
      · rfl
      · simp only [Option.map_some, Prod.map_apply, id, ksDsFind_map h]
        cases ksDsFind cb u key (cb.hash key) with
        | none => rfl
        | some place =>
          simp only [KsDs.entry_map, KsDsEntry.isEmpty_map, Option.map_some, Prod.map_apply, id]
          simp only [KsDs.map, List.map_set, KsDsEntry.map_occupied]

/-- `ks_ds_get` finds the renamed value. -/
theorem ksDsGet_map (key : K) :
    ksDsGet cb' (t.map f g) (f key) = (ksDsGet cb t key).map (Option.map g) := by
  unfold ksDsGet
  simp only [h.hash, ksDsFind_map h]
  rcases ksDsFind cb t key (cb.hash key) with _ | ⟨index, _ | _⟩
  · rfl
  · rfl
  · simp only [KsDs.entry_map, KsDsEntry.live?_map, Option.map_some, Option.map_map]
    rfl

/-- `ks_ds_remove` commutes with the renaming. -/
theorem ksDsRemove_map (key : K) :
    ksDsRemove cb' (t.map f g) (f key) =
      (ksDsRemove cb t key).map (Prod.map (KsDs.map f g) id) := by
  unfold ksDsRemove
  simp only [h.hash, ksDsFind_map h]
  rcases ksDsFind cb t key (cb.hash key) with _ | ⟨index, _ | _⟩
  · rfl
  · rfl
  · simp only [KsDs.entry_map, ksDsRelease_map, Option.map_some, Prod.map_apply, id]
    simp only [KsDs.map, List.map_set, KsDsEntry.map_tombstone]

/-- So does a change of a value in place. -/
theorem ksDsUpdate_map (key : K) {w : V → V} {w' : V' → V'} (hw : ∀ v, g (w v) = w' (g v)) :
    ksDsUpdate cb' (t.map f g) (f key) w' = (ksDsUpdate cb t key w).map (KsDs.map f g) := by
  unfold ksDsUpdate
  simp only [h.hash, ksDsFind_map h]
  rcases ksDsFind cb t key (cb.hash key) with _ | ⟨index, _ | _⟩
  · rfl
  · rfl
  · simp only [KsDs.entry_map]
    cases t.entry index with
    | empty => rfl
    | tombstone => rfl
    | occupied hash k v =>
      simp only [KsDsEntry.map_occupied, Option.map_some]
      simp only [KsDs.map, List.map_set, KsDsEntry.map_occupied, hw]

end

/-! ## tables with their invariant -/

namespace KsDsTable
variable {cb : KsDsCallbacks K} {cb' : KsDsCallbacks K'} {f : K → K'} {g : V → V'}
  {t : KsDsTable cb V} {t' : KsDsTable cb' V'} (h : Renames cb cb' f) (ht : t'.table = t.table.map f g)
include h ht

/-- The two tables hold corresponding values. -/
theorem get_map (key : K) : t'.get (f key) = (t.get key).map g := by
  unfold get
  rw [ht, ksDsGet_map h]
  cases ksDsGet cb t.table key <;> rfl

/-- Corresponding puts keep the tables in correspondence, and answer the same. -/
theorem put_map (key : K) (value : V) (grant : Bool) :
    (t'.put (f key) (g value) grant).1.table = (t.put key value grant).1.table.map f g ∧
      (t'.put (f key) (g value) grant).2 = (t.put key value grant).2 := by
  have hput := put_eq t' (f key) (g value) grant
  rw [ht, ksDsPut_map h, put_eq, Option.map_some, Option.some.injEq, Prod.mk.injEq] at hput
  exact ⟨hput.1.symm, hput.2.symm⟩

/-- Corresponding removals do so too. -/
theorem remove_map (key : K) :
    (t'.remove (f key)).1.table = (t.remove key).1.table.map f g ∧
      (t'.remove (f key)).2 = (t.remove key).2 := by
  have hremove := remove_eq t' (f key)
  rw [ht, ksDsRemove_map h, remove_eq, Option.map_some, Option.some.injEq, Prod.mk.injEq] at hremove
  exact ⟨hremove.1.symm, hremove.2.symm⟩

/-- And so do corresponding changes in place. -/
theorem update_map (key : K) {w : V → V} {w' : V' → V'} (hw : ∀ v, g (w v) = w' (g v)) :
    (t'.update (f key) w').table = (t.update key w).table.map f g := by
  have hupdate := update_eq t' (f key) w'
  rw [ht, ksDsUpdate_map h _ _ hw, update_eq, Option.map_some, Option.some.injEq] at hupdate
  exact hupdate.symm

end KsDsTable

end Kessel
