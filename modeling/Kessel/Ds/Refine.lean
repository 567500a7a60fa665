import Kessel.Ds.Wf
import Kessel.Refinement

/-!
# Kessel.Ds.Refine

The hash table is a finite map.

The abstract side is an association list (`Kessel.AssocMap`) whose keys are
compared by the table's equality callback; `KsDsSpec` says what each operation
answers and does to it.  The contents of the table are that list up to order
(`ksDsStep_simulates`), so whole runs of the table are runs of the map.
-/

namespace Kessel

open Refinement

variable {K V : Type}

/-- Callbacks that agree: keys that are equal have the same hash. -/
structure KsDsLawfulCallbacks (K : Type) extends KsDsCallbacks K where
  hash_eq : ∀ {a b}, equal a b = true → hash a = hash b

theorem KsDsLawfulCallbacks.eqv_eq_equal (cb : KsDsLawfulCallbacks K) :
    cb.toKsDsCallbacks.eqv = cb.equal := by
  funext a b
  rw [Bool.eq_iff_iff, KsDsCallbacks.eqv_iff]
  exact ⟨And.right, fun h => ⟨cb.hash_eq h, h⟩⟩

/-! ## operations and their answers -/

/-- A call of the table; `grant` says whether a `calloc` made by `put` succeeds. -/
inductive KsDsOp (K V : Type) where
  | put (key : K) (value : V) (grant : Bool)
  | get (key : K)
  | contains (key : K)
  | remove (key : K)
  | size
  deriving Repr

/-- What a call returns.  Beside the result of `put` stands whether the table was
crowded when it was called, that is, whether an insertion needs a new array. -/
inductive KsDsAnswer (V : Type) where
  | put (result : KsDsPutResult) (crowded : Bool)
  | get (value : Option V)
  | contains (found : Bool)
  | remove (found : Bool)
  | size (n : Nat)
  deriving DecidableEq, Repr

/-- One call of the table. -/
def ksDsStep (cb : KsDsCallbacks K) (t : KsDs K V) :
    KsDsOp K V → Option (KsDs K V × KsDsAnswer V)
  | .put key value grant => (ksDsPut cb t key value grant).map fun (t', r) => (t', .put r t.crowded)
  | .get key => (ksDsGet cb t key).map fun v => (t, .get v)
  | .contains key => (ksDsContains cb t key).map fun b => (t, .contains b)
  | .remove key => (ksDsRemove cb t key).map fun (t', b) => (t', .remove b)
  | .size => some (t, .size (ksDsSize t))

/-- What a finite map answers to each call, and what it becomes.  `put`
answers `error` only for an absent key in a crowded table, when the `calloc` is
refused or a bigger array would not fit the address space, and then changes
nothing. -/
inductive KsDsSpec (equal : K → K → Bool) :
    List (K × V) → KsDsOp K V → KsDsAnswer V → List (K × V) → Prop where
  | replaced {m k v grant crowded} : AssocMap.contains equal m k = true →
      KsDsSpec equal m (.put k v grant) (.put .replaced crowded) (AssocMap.insert equal m k v)
  | inserted {m k v grant crowded} : AssocMap.contains equal m k = false →
      KsDsSpec equal m (.put k v grant) (.put .inserted crowded) (AssocMap.insert equal m k v)
  | error {m k v grant} : AssocMap.contains equal m k = false →
      grant = false ∨ KsDs.AddressSpaceFull m.length →
      KsDsSpec equal m (.put k v grant) (.put .error true) m
  | get {m k} : KsDsSpec equal m (.get k) (.get (AssocMap.lookup equal m k)) m
  | contains {m k} : KsDsSpec equal m (.contains k) (.contains (AssocMap.contains equal m k)) m
  | remove {m k} : KsDsSpec equal m (.remove k) (.remove (AssocMap.contains equal m k))
      (AssocMap.erase equal m k)
  | size {m} : KsDsSpec equal m .size (.size m.length) m

/-- The table holds exactly the entries of the map. -/
def KsDs.Represents (cb : KsDsCallbacks K) (t : KsDs K V) (m : List (K × V)) : Prop :=
  t.Wf cb ∧ t.live.Perm m

/-- **One call** of the table is one call of the finite map. -/
theorem ksDsStep_simulates (cb : KsDsCallbacks K) :
    Simulates (fun _ _ _ => True) (ksDsStep cb) (KsDsSpec (V := V) cb.eqv)
      (fun _ : Unit => KsDs.Represents cb) := by
  rintro ⟨⟩ t m op ⟨⟩ ⟨hw, hperm⟩ -
  have hcontains : ∀ k, AssocMap.contains cb.eqv t.live k = AssocMap.contains cb.eqv m k :=
    AssocMap.contains_perm hperm
  cases op with
  | put k v grant =>
    obtain ⟨t', r, hput, hw', hcase⟩ := ksDsPut_spec hw k v grant
    have hstep : ksDsStep cb t (.put k v grant) = some (t', .put r t.crowded) := by
      rw [ksDsStep, hput]; rfl
    rcases hcase with ⟨rfl, hc, hp, -⟩ | ⟨rfl, hc, hp, -⟩ | ⟨rfl, hc, rfl, hfail⟩
    · exact ⟨t', _, _, hstep, .replaced (by rw [← hcontains]; exact hc), hw',
        hp.trans (AssocMap.insert_perm hperm k v)⟩
    · rw [hcontains] at hc
      refine ⟨t', _, _, hstep, .inserted hc, hw', ?_⟩
      rw [AssocMap.insert, AssocMap.erase_of_not_contains hc]
      exact hp.trans (hperm.cons _)
    · obtain ⟨hcrowded, hfail⟩ := hfail
      rw [hw.size, hperm.length_eq] at hfail
      rw [hcrowded] at hstep
      exact ⟨t', _, _, hstep, .error (by rw [← hcontains]; exact hc) hfail, hw, hperm⟩
  | get k =>
    have hlookup : AssocMap.lookup cb.eqv t.live k = AssocMap.lookup cb.eqv m k :=
      AssocMap.lookup_perm cb.eqv_isEquiv hw.distinct hperm k
    exact ⟨t, _, m, by rw [ksDsStep, ksDsGet_spec hw, hlookup]; rfl, .get, hw, hperm⟩
  | contains k =>
    exact ⟨t, _, m, by rw [ksDsStep, ksDsContains_spec hw, hcontains]; rfl, .contains, hw, hperm⟩
  | remove k =>
    obtain ⟨t', hremove, hw', hp, -⟩ := ksDsRemove_spec hw k
    exact ⟨t', _, _, by rw [ksDsStep, hremove, hcontains]; rfl, .remove, hw',
      hp.trans (AssocMap.erase_perm hperm k)⟩
  | size =>
    have hsize : ksDsSize t = m.length := by rw [ksDsSize, hw.size, hperm.length_eq]
    exact ⟨t, _, m, by rw [ksDsStep, hsize], .size, hw, hperm⟩

/-- **The hash table refines a finite map**: for every hash and every
equivalence whose equal keys have equal hashes, every run of calls from
`ks_ds_init`, with any `calloc` refused, ends, answers what the finite map
answers, and leaves the table with exactly the entries of the map, each key
once. -/
theorem ksDs_refines_finiteMap (cb : KsDsLawfulCallbacks K) (ops : List (KsDsOp K V)) :
    ∃ t answers m, run (ksDsStep cb.toKsDsCallbacks) ksDsInit ops = some (t, answers) ∧
      Runs (KsDsSpec cb.equal) [] ops answers m ∧ t.live.Perm m ∧
      AssocMap.Distinct cb.equal t.live := by
  have hinit : KsDs.Represents cb.toKsDsCallbacks (ksDsInit : KsDs K V) [] :=
    ⟨ksDsInit_wf, by rw [show (ksDsInit : KsDs K V).live = [] from KsDs.live_replicate]⟩
  obtain ⟨-, t, answers, m, hrun, hruns, hw, hperm⟩ :=
    (ksDsStep_simulates cb.toKsDsCallbacks).run (e := ()) ops hinit (admits_true ops)
  rw [cb.eqv_eq_equal] at hruns
  have hdistinct := hw.distinct
  rw [cb.eqv_eq_equal] at hdistinct
  exact ⟨t, answers, m, hrun, hruns, hperm, hdistinct⟩

/-- Keys are equal when they end in the same digit, and all hash alike. -/
def digitCallbacks : KsDsCallbacks Nat where
  hash _ := 0
  equal a b := a % 10 == b % 10
  isEquiv := ⟨by simp, fun h => by simpa using (beq_iff_eq.mp h).symm, fun h h' => by
    simpa using (beq_iff_eq.mp h).trans (beq_iff_eq.mp h')⟩

/-- Equal keys hash alike, and so do all others. -/
def digitLawfulCallbacks : KsDsLawfulCallbacks Nat where
  toKsDsCallbacks := digitCallbacks
  hash_eq _ := rfl

/-- Inserting, replacing under an equal key, removing and looking up. -/
def digitCalls : List (KsDsOp Nat Nat) :=
  [.put 1 101 true, .put 2 102 true, .put 11 111 true, .remove 12, .get 21, .contains 2, .size]

/-- The value of 11 is found under 21, the entry of 2 has been removed with 12. -/
theorem ksDs_refines_finiteMap_digits :
    ∃ t m, run (ksDsStep digitCallbacks) ksDsInit digitCalls =
        some (t, [.put .inserted false, .put .inserted false, .put .replaced false, .remove true,
          .get (some 111), .contains false, .size 1]) ∧
      Runs (KsDsSpec digitCallbacks.equal) [] digitCalls
        [.put .inserted false, .put .inserted false, .put .replaced false, .remove true,
          .get (some 111), .contains false, .size 1] m ∧
      t.live.Perm m ∧ AssocMap.Distinct digitCallbacks.equal t.live := by
  obtain ⟨t, answers, m, hrun, hruns, hperm, hdistinct⟩ :=
    ksDs_refines_finiteMap digitLawfulCallbacks digitCalls
  have hanswers : (run (ksDsStep digitCallbacks) ksDsInit digitCalls).map Prod.snd =
      some [.put .inserted false, .put .inserted false, .put .replaced false, .remove true,
        .get (some 111), .contains false, .size 1] := by decide +kernel
  rw [show run (ksDsStep digitCallbacks) ksDsInit digitCalls = _ from hrun, Option.map_some,
    Option.some.injEq] at hanswers
  subst hanswers
  exact ⟨t, m, hrun, hruns, hperm, hdistinct⟩

end Kessel
