import Kessel.Blocks
import Kessel.Ds.Rename
import Kessel.Ds.Runs

/-!
# Kessel.Ds.Held

The blocks of a hash table.

The keys and the values of the table are pointers, and its destroy callbacks are
`free`, as `ks_kv.c` has it.  Beside its pairs the table holds the array of its
entries, which `ks_ds_rebuild` exchanges for another one.

* `Owns.put`, `Owns.remove`, `Owns.destroy` — what each call does to the blocks.
* `Shows.get`, `Shows.put`, `Shows.remove` — the answers are those of the table
  whose keys and values are what the pointers point to.
-/

namespace Kessel

open Word

/-- A pointer, and what it points to. -/
structure KsPtr (α : Type) where
  block : Nat
  val : α

variable {α β : Type} {cb : KsDsCallbacks (KsPtr α)}

/-- A table with the block of `table->entries`, and the allocator. -/
structure KsDsHeld (cb : KsDsCallbacks (KsPtr α)) (β : Type) where
  table : KsDsTable cb (KsPtr β)
  array : Nat
  blocks : Blocks

/-! ## the functions -/

/-- The blocks that `ks_ds_release` frees. -/
def pairBlocks (p : KsPtr α × KsPtr β) : List Nat := [p.1.block, p.2.block]

/-- What has been released since. -/
def KsDs.releasedSince {K V : Type} (t' t : KsDs K V) : List (K × V) :=
  t'.released.drop t.released.length

/-- What `ks_ds_find` may read: the array, and the keys that are stored. -/
def KsDsHeld.probe (t : KsDsHeld cb β) : KsDsHeld cb β :=
  { t with blocks := t.blocks.touchAll (t.array :: t.table.live.map fun p => p.1.block) }

/-- The table after a call, with what the call has freed. -/
def KsDsHeld.after (t : KsDsHeld cb β) (table : KsDsTable cb (KsPtr β)) : KsDsHeld cb β :=
  { t with
    table
    blocks := t.blocks.freeAll ((table.table.releasedSince t.table.table).flatMap pairBlocks) }

/-- `ks_ds_rebuild`: a new array, and the old one is freed once it has been copied. -/
def ksDsRebuildHeld (t : KsDsHeld cb β) (capacity : Nat) (grant : Bool) : KsDsHeld cb β :=
  if grant = false ∨ capacity * ksDsEntrySize > sizeMax then t
  else
    let (blocks, array) := t.blocks.malloc
    { t with array, blocks := (blocks.touchAll [t.array, array]).free t.array }

/-- `ks_ds_prepare_insert` -/
def ksDsPrepareInsertHeld (t : KsDsHeld cb β) (grant : Bool) : KsDsHeld cb β :=
  let u := t.table.table
  if u64 (u64 (u.occupied + 1) * 10) ≤ u64 (u.capacity * 7) then t
  else if u64 (u64 (u.size + 1) * 10) > u64 (u.capacity * 7) then
    if u.capacity > sizeMax / 2 then t
    else ksDsRebuildHeld t (u64 (u.capacity * 2)) grant
  else ksDsRebuildHeld t u.capacity grant

/-- `ks_ds_put` up to its write: only a new key needs room. -/
def ksDsMakeRoom (t : KsDsHeld cb β) (key : KsPtr α) (grant : Bool) : KsDsHeld cb β :=
  match ksDsFind cb t.table.table key (cb.hash key) with
  | some (_, false) => (ksDsPrepareInsertHeld t.probe grant).probe
  | _ => t.probe

/-- `ks_ds_put` -/
def ksDsPutHeld (t : KsDsHeld cb β) (key : KsPtr α) (value : KsPtr β) (grant : Bool) :
    KsDsHeld cb β × KsDsPutResult :=
  let (table, result) := t.table.put key value grant
  ((ksDsMakeRoom t key grant).after table, result)

/-- `ks_ds_remove` -/
def ksDsRemoveHeld (t : KsDsHeld cb β) (key : KsPtr α) : KsDsHeld cb β × Bool :=
  let (table, removed) := t.table.remove key
  (t.probe.after table, removed)

/-- `ks_ds_get` -/
def ksDsGetHeld (t : KsDsHeld cb β) (key : KsPtr α) : KsDsHeld cb β × Option (KsPtr β) :=
  (t.probe, t.table.get key)

/-- A read of the value that `ks_ds_get` returned. -/
def KsDsHeld.touch (t : KsDsHeld cb β) (value : KsPtr β) : KsDsHeld cb β :=
  { t with blocks := t.blocks.touch value.block }

/-- A write to the value that `ks_ds_get` returned for `key`. -/
def KsDsHeld.write (t : KsDsHeld cb β) (key : KsPtr α) (value : KsPtr β) (f : β → β) :
    KsDsHeld cb β :=
  { t.touch value with table := t.table.update key fun p => { p with val := f p.val } }

/-- `ks_ds_init`, once its `calloc` has succeeded. -/
def ksDsInitHeld (blocks : Blocks) : KsDsHeld cb β :=
  let (blocks, array) := blocks.malloc
  ⟨.init, array, blocks⟩

/-- `ks_ds_destroy` -/
def ksDsDestroyHeld (t : KsDsHeld cb β) : Blocks :=
  let released := (ksDsDestroy t.table.table).releasedSince t.table.table
  (t.probe.blocks.freeAll (released.flatMap pairBlocks)).free t.array

namespace KsDsHeld

variable {t : KsDsHeld cb β} {key : KsPtr α} {value : KsPtr β} {xs : List Nat}

/-! ## what is owned -/

/-- The blocks of the table. -/
def owned (t : KsDsHeld cb β) : List Nat := t.array :: t.table.live.flatMap pairBlocks

/-- The table and its caller, who holds `xs`, have freed everything else. -/
def Owns (t : KsDsHeld cb β) (xs : List Nat) : Prop := t.blocks.Owns (xs ++ t.owned)

/-- Probing touches live blocks only. -/
theorem Owns.probe (h : t.Owns xs) : t.probe = t := by
  have hsub : (t.array :: t.table.live.map fun p => p.1.block) ⊆ xs ++ t.owned := by
    refine List.subset_append_of_subset_right _ (List.cons_subset_cons _ fun x hx => ?_)
    obtain ⟨p, hp, rfl⟩ := List.mem_map.mp hx
    exact List.mem_flatMap.mpr ⟨p, hp, by simp [pairBlocks]⟩
  rw [KsDsHeld.probe, Blocks.Owns.touchAll h hsub]

/-- A call that gets the pairs `added`, and releases some. -/
theorem Owns.after {table : KsDsTable cb (KsPtr β)} (added : List (KsPtr α × KsPtr β))
    (h : t.Owns (added.flatMap pairBlocks ++ xs))
    (hlive : (table.table.releasedSince t.table.table ++ table.live).Perm (added ++ t.table.live)) :
    (t.after table).Owns xs := by
  refine Blocks.Owns.freeAll (Blocks.Owns.perm h ?_)
  have hblocks := hlive.flatMap_right pairBlocks
  rw [List.flatMap_append, List.flatMap_append] at hblocks
  simp only [owned, KsDsHeld.after]
  rw [List.perm_iff_count] at hblocks ⊢
  intro x
  have hx := hblocks x
  simp only [List.count_append, List.count_cons] at hx ⊢
  omega

/-- A rebuild moves the blocks, and frees none. -/
theorem Owns.rebuild (h : t.Owns xs) (capacity : Nat) (grant : Bool) :
    (ksDsRebuildHeld t capacity grant).Owns xs ∧
      (ksDsRebuildHeld t capacity grant).table = t.table := by
  unfold ksDsRebuildHeld
  split_ifs
  · exact ⟨h, rfl⟩
  · have hnew := Blocks.Owns.malloc h
    have htouch : (t.blocks.malloc.1.touchAll [t.array, t.blocks.malloc.2]) = t.blocks.malloc.1 :=
      hnew.touchAll (by simp [owned])
    dsimp only
    rw [htouch]
    refine ⟨Blocks.Owns.free (Blocks.Owns.perm hnew ?_), rfl⟩
    simp only [owned, List.perm_iff_count]
    intro x
    simp only [List.count_append, List.count_cons]
    omega

/-- `ks_ds_prepare_insert` frees none either. -/
theorem Owns.prepareInsert (h : t.Owns xs) (grant : Bool) :
    (ksDsPrepareInsertHeld t grant).Owns xs ∧
      (ksDsPrepareInsertHeld t grant).table = t.table := by
  unfold ksDsPrepareInsertHeld
  dsimp only
  split_ifs
  · exact ⟨h, rfl⟩
  · exact ⟨h, rfl⟩
  · exact h.rebuild _ grant
  · exact h.rebuild _ grant

/-- Nor does making room for a key. -/
theorem Owns.makeRoom (h : t.Owns xs) (key : KsPtr α) (grant : Bool) :
    (ksDsMakeRoom t key grant).Owns xs ∧ (ksDsMakeRoom t key grant).table = t.table := by
  unfold ksDsMakeRoom
  rw [h.probe]
  split
  · obtain ⟨hroom, heq⟩ := h.prepareInsert grant
    rw [hroom.probe]
    exact ⟨hroom, heq⟩
  · exact ⟨h, rfl⟩

/-- **`ks_ds_put`** takes the key and the value over, unless it fails. -/
theorem Owns.put (h : t.Owns (key.block :: value.block :: xs)) (grant : Bool) :
    (ksDsPutHeld t key value grant).1.Owns
      (if (ksDsPutHeld t key value grant).2 = .error then key.block :: value.block :: xs else xs) := by
  obtain ⟨table', r, hput, -, hcases⟩ := ksDsPut_spec t.table.wf key value grant
  rw [KsDsTable.put_eq, Option.some.injEq, Prod.mk.injEq] at hput
  obtain ⟨rfl, rfl⟩ := hput
  obtain ⟨hroom, heq⟩ := h.makeRoom key grant
  change ((ksDsMakeRoom t key grant).after (t.table.put key value grant).1).Owns
    (if (t.table.put key value grant).2 = .error then key.block :: value.block :: xs else xs)
  rcases hcases with ⟨hr, -, -, -, p, hreleased, hlive⟩ | ⟨hr, -, hlive, hreleased, -⟩ |
    ⟨hr, -, hsame, -⟩
  · rw [hr, if_neg (by simp)]
    refine Owns.after [(key, value)] hroom ?_
    rw [heq, KsDs.releasedSince, hreleased, List.drop_left]
    exact hlive
  · rw [hr, if_neg (by simp)]
    refine Owns.after [(key, value)] hroom ?_
    rw [heq, KsDs.releasedSince, hreleased, List.drop_length]
    exact hlive
  · rw [hr, if_pos rfl]
    refine Owns.after [] hroom ?_
    rw [heq, KsDs.releasedSince, KsDsTable.live, hsame, List.drop_length]

/-- **`ks_ds_remove`** frees the key and the value that it removes. -/
theorem Owns.remove (h : t.Owns xs) (key : KsPtr α) : (ksDsRemoveHeld t key).1.Owns xs := by
  obtain ⟨table', hremove, -, -, -, hcases⟩ := ksDsRemove_spec t.table.wf key
  rw [KsDsTable.remove_eq, Option.some.injEq, Prod.mk.injEq] at hremove
  obtain ⟨rfl, -⟩ := hremove
  change (t.probe.after (t.table.remove key).1).Owns xs
  rw [h.probe]
  refine Owns.after [] h ?_
  rcases hcases with ⟨-, hsame⟩ | ⟨p, -, hreleased, hlive⟩
  · rw [KsDs.releasedSince, KsDsTable.live, hsame, List.drop_length]
  · rw [KsDs.releasedSince, hreleased, List.drop_left]
    exact hlive

/-- The value of a key is owned by the table. -/
theorem block_mem_owned (hget : t.table.get key = some value) : value.block ∈ t.owned := by
  rw [KsDsTable.get_eq] at hget
  obtain ⟨k, hmem, -⟩ := AssocMap.mem_of_lookup hget
  exact List.mem_cons_of_mem _ (List.mem_flatMap.mpr ⟨(k, value), hmem, by simp [pairBlocks]⟩)

/-- The value that `ks_ds_get` returns has not been freed. -/
theorem Owns.touch (h : t.Owns xs) (hget : t.table.get key = some value) : t.touch value = t := by
  rw [KsDsHeld.touch, Blocks.Owns.touch h (List.mem_append_right _ (block_mem_owned hget))]

/-- A change in place keeps the blocks. -/
theorem Owns.write (h : t.Owns xs) (hget : t.table.get key = some value) (f : β → β) :
    (t.write key value f).Owns xs := by
  rw [KsDsHeld.write, h.touch hget]
  obtain ⟨table', hupdate, -, -, -, hcases⟩ :=
    ksDsUpdate_spec t.table.wf key fun p : KsPtr β => { p with val := f p.val }
  rw [KsDsTable.update_eq, Option.some.injEq] at hupdate
  subst hupdate
  refine Blocks.Owns.perm h (List.Perm.append_left xs (List.Perm.cons t.array ?_))
  change (t.table.live.flatMap pairBlocks).Perm
    (KsDsTable.live (t.table.update key _) |>.flatMap pairBlocks)
  rcases hcases with ⟨-, hsame⟩ | ⟨k, v, -, -, hlive⟩
  · rw [KsDsTable.live, KsDsTable.live, hsame]
  · -- the pair that is written keeps its blocks
    have hblocks := hlive.flatMap_right pairBlocks
    exact ((List.perm_append_left_iff (pairBlocks (k, v))).mp hblocks).symm

/-- **`ks_ds_destroy`** frees everything that the table owns. -/
theorem Owns.destroy (h : t.Owns xs) : (ksDsDestroyHeld t).Owns xs := by
  unfold ksDsDestroyHeld
  rw [h.probe]
  refine Blocks.Owns.free (Blocks.Owns.freeAll (Blocks.Owns.perm h ?_))
  rw [KsDs.releasedSince, ksDsDestroy_released, List.drop_left, owned, KsDsTable.live]
  simp only [List.perm_iff_count]
  intro x
  simp only [List.count_append, List.count_cons]
  omega

/-- An empty table owns nothing. -/
theorem owns_init {blocks : Blocks} (h : blocks.Owns xs) :
    (ksDsInitHeld blocks : KsDsHeld cb β).Owns xs := by
  have hempty : (KsDsTable.init : KsDsTable cb (KsPtr β)).live = [] := KsDs.live_replicate
  refine Blocks.Owns.perm h.malloc ?_
  rw [owned, ksDsInitHeld, hempty]
  exact List.perm_append_singleton _ _ |>.symm

/-! ## what is shown -/

/-- The other table holds what the pointers of this one point to. -/
def Shows {cb' : KsDsCallbacks α} (t : KsDsHeld cb β) (u : KsDsTable cb' β) : Prop :=
  u.table = t.table.table.map KsPtr.val KsPtr.val

section
variable {cb' : KsDsCallbacks α} {u : KsDsTable cb' β} (hcb : Renames cb cb' KsPtr.val)
  (h : t.Shows u)
include hcb h

/-- The table of blocks finds what the table of values finds. -/
theorem Shows.get (key : KsPtr α) : u.get key.val = (t.table.get key).map KsPtr.val :=
  KsDsTable.get_map hcb h key

/-- It stores the same, and answers the same. -/
theorem Shows.put (key : KsPtr α) (value : KsPtr β) (grant : Bool) :
    (ksDsPutHeld t key value grant).1.Shows (u.put key.val value.val grant).1 ∧
      (ksDsPutHeld t key value grant).2 = (u.put key.val value.val grant).2 :=
  have hput := KsDsTable.put_map hcb h key value grant
  ⟨hput.1, hput.2.symm⟩

/-- It removes the same, and answers the same. -/
theorem Shows.remove (key : KsPtr α) :
    (ksDsRemoveHeld t key).1.Shows (u.remove key.val).1 ∧
      (ksDsRemoveHeld t key).2 = (u.remove key.val).2 :=
  have hremove := KsDsTable.remove_map hcb h key
  ⟨hremove.1, hremove.2.symm⟩

/-- A change in place is seen through the block. -/
theorem Shows.write (key : KsPtr α) (value : KsPtr β) (f : β → β) :
    (t.write key value f).Shows (u.update key.val f) :=
  KsDsTable.update_map hcb h key fun _ => rfl

end

end KsDsHeld

end Kessel
