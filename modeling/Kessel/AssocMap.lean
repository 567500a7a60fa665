import Mathlib.Tactic

/-!
# Kessel.AssocMap

Finite maps as association lists, with keys compared by an arbitrary Boolean
equivalence.  This is the abstract meaning of a keyed table: a list with no
two equivalent keys, read up to permutation.

Every lemma is stated so that a concrete table only has to exhibit the
permutation: the operations do not depend on the order of the list.
-/

namespace AssocMap

variable {K V : Type}

/-- `eqv` is an equivalence relation. -/
structure IsEquiv (eqv : K → K → Bool) : Prop where
  refl : ∀ a, eqv a a = true
  symm : ∀ {a b}, eqv a b = true → eqv b a = true
  trans : ∀ {a b c}, eqv a b = true → eqv b c = true → eqv a c = true

section
variable (eqv : K → K → Bool)

/-- No two entries have equivalent keys. -/
def Distinct (m : List (K × V)) : Prop := m.Pairwise fun a b => eqv a.1 b.1 = false

/-- The value of `k`. -/
def lookup (m : List (K × V)) (k : K) : Option V := (m.find? fun e => eqv e.1 k).map Prod.snd

/-- Is there an entry for `k`? -/
def contains (m : List (K × V)) (k : K) : Bool := m.any fun e => eqv e.1 k

/-- Drop the entry of `k`. -/
def erase (m : List (K × V)) (k : K) : List (K × V) := m.filter fun e => !eqv e.1 k

/-- Store `v` under `k`, replacing the entry of `k` if there is one. -/
def insert (m : List (K × V)) (k : K) (v : V) : List (K × V) := (k, v) :: erase eqv m k

end

variable {eqv : K → K → Bool}

/-! ## order does not matter -/

/-- Keys stay apart in any order. -/
theorem Distinct.perm {m m' : List (K × V)} (he : IsEquiv eqv) (hp : m.Perm m')
    (hd : Distinct eqv m) : Distinct eqv m' := by
  refine hp.pairwise hd fun {a b} hab => ?_
  by_contra hba
  rw [Bool.not_eq_false] at hba
  rw [he.symm hba] at hab
  cases hab

/-- The order does not matter to a membership test. -/
theorem contains_perm {m m' : List (K × V)} (hp : m.Perm m') (k : K) :
    contains eqv m k = contains eqv m' k := by
  rw [Bool.eq_iff_iff]
  simp only [contains, List.any_eq_true]
  exact ⟨fun ⟨e, hm, h⟩ => ⟨e, hp.mem_iff.mp hm, h⟩, fun ⟨e, hm, h⟩ => ⟨e, hp.mem_iff.mpr hm, h⟩⟩

theorem erase_perm {m m' : List (K × V)} (hp : m.Perm m') (k : K) :
    (erase eqv m k).Perm (erase eqv m' k) := hp.filter _

theorem insert_perm {m m' : List (K × V)} (hp : m.Perm m') (k : K) (v : V) :
    (insert eqv m k v).Perm (insert eqv m' k v) := (erase_perm hp k).cons _

/-! ## looking up -/

/-- A key is there when an entry has an equivalent one. -/
theorem contains_eq_true {m : List (K × V)} {k : K} :
    contains eqv m k = true ↔ ∃ e ∈ m, eqv e.1 k = true := by
  simp [contains]

theorem contains_eq_false {m : List (K × V)} {k : K} :
    contains eqv m k = false ↔ ∀ e ∈ m, eqv e.1 k = false := by
  simp [contains]

/-- In a map with distinct keys an entry is the one its key looks up. -/
theorem lookup_eq_some {m : List (K × V)} (he : IsEquiv eqv) (hd : Distinct eqv m) {k k' : K}
    {v : V} (hm : (k', v) ∈ m) (hk : eqv k' k = true) : lookup eqv m k = some v := by
  induction m with
  | nil => simp at hm
  | cons e m ih =>
    obtain ⟨hhead, htail⟩ := List.pairwise_cons.mp hd
    by_cases hek : eqv e.1 k = true
    · rcases List.mem_cons.mp hm with rfl | hm'
      · simp [lookup, hek]
      · have hcontra := hhead _ hm'
        rw [he.trans hek (he.symm hk)] at hcontra
        cases hcontra
    · rcases List.mem_cons.mp hm with rfl | hm'
      · exact absurd hk hek
      · have := ih htail hm'
        simpa [lookup, hek] using this

/-- A key that is not there has no value. -/
theorem lookup_eq_none {m : List (K × V)} {k : K} (h : contains eqv m k = false) :
    lookup eqv m k = none := by
  rw [contains_eq_false] at h
  simpa [lookup] using h

/-- The order does not matter to a lookup, while the keys are apart. -/
theorem lookup_perm {m m' : List (K × V)} (he : IsEquiv eqv) (hd : Distinct eqv m)
    (hp : m.Perm m') (k : K) : lookup eqv m k = lookup eqv m' k := by
  cases hc : contains eqv m k with
  | false => rw [lookup_eq_none hc, lookup_eq_none (by rw [← contains_perm hp, hc])]
  | true =>
    obtain ⟨⟨k', v⟩, hm, hk⟩ := contains_eq_true.mp hc
    rw [lookup_eq_some he hd hm hk, lookup_eq_some he (hd.perm he hp) (hp.mem_iff.mp hm) hk]

/-! ## storing and dropping -/

/-- Erasing a key that is not there changes nothing. -/
theorem erase_of_not_contains {m : List (K × V)} {k : K} (h : contains eqv m k = false) :
    erase eqv m k = m := by
  rw [contains_eq_false] at h
  rw [erase, List.filter_eq_self]
  intro e hm
  simp [h e hm]

/-- Dropping a key from a map drops exactly its one entry. -/
theorem erase_of_perm_cons {m rest : List (K × V)} (he : IsEquiv eqv) (hd : Distinct eqv m)
    {k k₀ : K} {v₀ : V} (hp : m.Perm ((k₀, v₀) :: rest)) (hk : eqv k₀ k = true) :
    (erase eqv m k).Perm rest := by
  have hd' : Distinct eqv ((k₀, v₀) :: rest) := hd.perm he hp
  obtain ⟨hhead, -⟩ := List.pairwise_cons.mp hd'
  have habs : contains eqv rest k = false := by
    rw [contains_eq_false]
    intro e hm
    by_contra hek
    rw [Bool.not_eq_false] at hek
    have hcontra := hhead e hm
    rw [he.trans hk (he.symm hek)] at hcontra
    cases hcontra
  have hsplit : erase eqv ((k₀, v₀) :: rest) k = erase eqv rest k := by
    simp [erase, hk]
  rw [← erase_of_not_contains habs, ← hsplit]
  exact erase_perm hp k

/-- Erasing keeps the keys apart. -/
theorem Distinct.erase {m : List (K × V)} (hd : Distinct eqv m) (k : K) :
    Distinct eqv (erase eqv m k) := List.Pairwise.filter _ hd

/-- An erased key is gone. -/
theorem not_contains_erase (he : IsEquiv eqv) (m : List (K × V)) {k k' : K} (hk : eqv k k' = true) :
    contains eqv (erase eqv m k) k' = false := by
  rw [contains_eq_false]
  intro e hm
  have hek : eqv e.1 k = false := by simpa using (List.mem_filter.mp hm).2
  by_contra h
  rw [Bool.not_eq_false] at h
  rw [he.trans h (he.symm hk)] at hek
  cases hek

/-- A new key may be put in front. -/
theorem Distinct.cons {m : List (K × V)} (he : IsEquiv eqv) (hd : Distinct eqv m) {k : K}
    (h : contains eqv m k = false) (v : V) : Distinct eqv ((k, v) :: m) := by
  refine List.pairwise_cons.mpr ⟨fun e hm => ?_, hd⟩
  rw [contains_eq_false] at h
  by_contra hke
  rw [Bool.not_eq_false] at hke
  have := h e hm
  rw [he.symm hke] at this
  cases this

/-- Inserting keeps the keys apart. -/
theorem Distinct.insert {m : List (K × V)} (he : IsEquiv eqv) (hd : Distinct eqv m) (k : K)
    (v : V) : Distinct eqv (insert eqv m k v) :=
  (hd.erase k).cons he (not_contains_erase he m (he.refl k)) v

/-! ## looking up after storing and dropping -/

theorem lookup_cons (e : K × V) (m : List (K × V)) (k : K) :
    lookup eqv (e :: m) k = if eqv e.1 k = true then some e.2 else lookup eqv m k := by
  unfold lookup
  rw [List.find?_cons]
  cases eqv e.1 k <;> rfl

/-- What is found after a key has been erased. -/
theorem lookup_erase (he : IsEquiv eqv) (m : List (K × V)) (k k' : K) :
    lookup eqv (erase eqv m k) k' = if eqv k k' = true then none else lookup eqv m k' := by
  split
  · next hk => exact lookup_eq_none (not_contains_erase he m hk)
  · next hk =>
    induction m with
    | nil => rfl
    | cons e m ih =>
      cases hek : eqv e.1 k with
      | true =>
        have hek' : ¬ eqv e.1 k' = true := fun h => hk (he.trans (he.symm hek) h)
        rw [lookup_cons, if_neg hek', ← ih]
        simp [erase, hek]
      | false =>
        have hcons : erase eqv (e :: m) k = e :: erase eqv m k := by simp [erase, hek]
        rw [hcons, lookup_cons, lookup_cons, ih]

/-- What is found after a key has been inserted. -/
theorem lookup_insert (he : IsEquiv eqv) (m : List (K × V)) (k k' : K) (v : V) :
    lookup eqv (insert eqv m k v) k' = if eqv k k' = true then some v else lookup eqv m k' := by
  rw [insert, lookup_cons, lookup_erase he]
  split <;> rfl

/-- A key is there when it has a value. -/
theorem lookup_isSome (m : List (K × V)) (k : K) :
    (lookup eqv m k).isSome = contains eqv m k := by
  cases hc : contains eqv m k with
  | false => rw [lookup_eq_none hc]; rfl
  | true =>
    induction m with
    | nil => simp [contains] at hc
    | cons e m ih =>
      rw [lookup_cons]
      split
      · rfl
      · next h => exact ih (by simpa [contains, h] using hc)

/-- The entry that a key looks up is an entry of the map. -/
theorem mem_of_lookup {m : List (K × V)} {k : K} {v : V} (h : lookup eqv m k = some v) :
    ∃ k', (k', v) ∈ m ∧ eqv k' k = true := by
  obtain ⟨e, hfind, rfl⟩ := Option.map_eq_some_iff.mp h
  exact ⟨e.1, List.mem_of_find?_eq_some hfind, by simpa using List.find?_some hfind⟩

/-! ## arrays of slots -/

/-- Writing one element of a list exchanges its contribution to a `filterMap`. -/
theorem filterMap_set_perm {α β : Type} (f : α → Option β) (l : List α) (i : Nat)
    (hi : i < l.length) (a : α) :
    ((f l[i]).toList ++ (l.set i a).filterMap f).Perm ((f a).toList ++ l.filterMap f) := by
  have hl : l = l.take i ++ l[i] :: l.drop (i + 1) := by simp
  have hset : l.set i a = l.take i ++ a :: l.drop (i + 1) := by
    rw [List.set_eq_take_append_cons_drop, if_pos hi]
  have hsplit : ∀ x : α, (l.take i ++ x :: l.drop (i + 1)).filterMap f =
      (l.take i).filterMap f ++ ((f x).toList ++ (l.drop (i + 1)).filterMap f) := by
    intro x
    rw [List.filterMap_append, List.filterMap_cons]
    cases f x <;> rfl
  have hfm : l.filterMap f =
      (l.take i).filterMap f ++ ((f l[i]).toList ++ (l.drop (i + 1)).filterMap f) :=
    (congrArg (List.filterMap f) hl).trans (hsplit _)
  rw [hset, hsplit, hfm, ← Multiset.coe_eq_coe]
  simp only [← Multiset.coe_add]
  abel

end AssocMap
