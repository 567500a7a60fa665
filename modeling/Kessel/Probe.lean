import Mathlib.Tactic

/-!
# Kessel.Probe

Linear probing over a circular array of `n` cells, for any contents.

A search starts at the home cell of what it looks for and walks forward,
wrapping at `n`.  How a cell answers the search is its `Cell` classification:
a `free` cell ends the search, a `hit` ends it with success, a `reusable`
cell is remembered as a place for an insertion, and every `other` cell is
stepped over.

* `search_spec`: one free cell is enough for the search to end within `n`
  probes, and it ends at the first cell of its walk that is free or a hit;
* `Reach` is the probe-chain invariant of a stored element, `not_hit_of_reach`
  says an unsuccessful search rules out every reachable hit, and `Reach.mono`
  that filling free cells never breaks a chain.
-/

namespace LinearProbe

/-- How a cell answers one search. -/
inductive Cell where
  | free
  | reusable
  | hit
  | other
  deriving DecidableEq, Repr

/-- The cell `d` steps after the home cell `h`. -/
def walk (n h d : Nat) : Nat := (h + d) % n

/-- The search: at most `fuel` probes from cell `i`, remembering the first
reusable cell.  The answer is a cell and whether it is a hit; `none` says that
`fuel` probes did not end the search. -/
def search (n : Nat) (cell : Nat → Cell) : Nat → Nat → Option Nat → Option (Nat × Bool)
  | 0, _, _ => none
  | fuel + 1, i, first =>
    match cell i with
    | .free => some (first.getD i, false)
    | .reusable => search n cell fuel ((i + 1) % n) (first.or (some i))
    | .hit => some (i, true)
    | .other => search n cell fuel ((i + 1) % n) first

/-! ## the walk -/

theorem walk_zero {n h : Nat} (hh : h < n) : walk n h 0 = h := by
  simp [walk, Nat.mod_eq_of_lt hh]

/-- A walk stays within the ring. -/
theorem walk_lt {n : Nat} (hn : 0 < n) (h d : Nat) : walk n h d < n := Nat.mod_lt _ hn

/-- One more step of a walk. -/
theorem walk_succ (n h d : Nat) : (walk n h d + 1) % n = walk n h (d + 1) := by
  simp [walk, Nat.add_assoc]

/-- Two walks in a row are one. -/
theorem walk_walk (n h a d : Nat) : walk n (walk n h a) d = walk n h (a + d) := by
  rw [walk, walk, walk, Nat.mod_add_mod, Nat.add_assoc]

/-- Every cell is met by the walk within one lap. -/
theorem exists_walk_eq {n h i : Nat} (hh : h < n) (hi : i < n) : ∃ d < n, walk n h d = i := by
  by_cases hle : h ≤ i
  · exact ⟨i - h, by omega, by rw [walk, Nat.add_sub_cancel' hle, Nat.mod_eq_of_lt hi]⟩
  · refine ⟨i + n - h, by omega, ?_⟩
    rw [walk, show h + (i + n - h) = i + n by omega, Nat.add_mod_right, Nat.mod_eq_of_lt hi]

/-! ## where a search ends -/

/-- A cell that ends the search. -/
def Cell.stops (c : Cell) : Prop := c = .free ∨ c = .hit

/-- From step `d` of the walk, with no stopping cell before step `D`, a hit at
step `D` is found. -/
theorem search_hit (n : Nat) (cell : Nat → Cell) (h D : Nat) (hD : cell (walk n h D) = .hit)
    (fuel d : Nat) (first : Option Nat) (hd : d ≤ D) (hfuel : D - d < fuel)
    (hpre : ∀ e, d ≤ e → e < D → ¬ (cell (walk n h e)).stops) :
    search n cell fuel (walk n h d) first = some (walk n h D, true) := by
  induction fuel generalizing d first with
  | zero => omega
  | succ fuel ih =>
    rcases Nat.eq_or_lt_of_le hd with rfl | hlt
    · simp [search, hD]
    · have hstep := hpre d (le_refl d) hlt
      have hnext : ∀ f, search n cell fuel ((walk n h d + 1) % n) f = some (walk n h D, true) := by
        intro f
        rw [walk_succ]
        exact ih (d + 1) f (by omega) (by omega) (fun e h1 h2 => hpre e (by omega) h2)
      unfold search
      cases hc : cell (walk n h d) <;> simp_all [Cell.stops]

/-- From step `d` of the walk, with no stopping cell before step `D`, a free
cell at step `D` ends the search at the first reusable cell of the walk, or at
the free cell itself when there is none. -/
theorem search_free (n : Nat) (cell : Nat → Cell) (h D : Nat) (hD : cell (walk n h D) = .free)
    (fuel d : Nat) (first : Option Nat) (hd : d ≤ D) (hfuel : D - d < fuel)
    (hpre : ∀ e, d ≤ e → e < D → ¬ (cell (walk n h e)).stops) :
    ∃ r, search n cell fuel (walk n h d) first = some (r, false) ∧
      (first = some r ∨ first = none ∧ ∃ e, d ≤ e ∧ e ≤ D ∧ r = walk n h e ∧
        (e = D ∨ cell (walk n h e) = .reusable)) := by
  induction fuel generalizing d first with
  | zero => omega
  | succ fuel ih =>
    rcases Nat.eq_or_lt_of_le hd with rfl | hlt
    · cases first with
      | none =>
        exact ⟨walk n h d, by simp [search, hD], .inr ⟨rfl, d, le_refl _, le_refl _, rfl, .inl rfl⟩⟩
      | some f => exact ⟨f, by simp [search, hD], .inl rfl⟩
    · have hstep := hpre d (le_refl d) hlt
      have hrec := fun f => ih (d + 1) f (by omega) (by omega) (fun e h1 h2 => hpre e (by omega) h2)
      unfold search
      cases hc : cell (walk n h d) with
      | free => exact absurd (.inl hc) hstep
      | hit => exact absurd (.inr hc) hstep
      | other =>
        obtain ⟨r, hr, hplace⟩ := hrec first
        refine ⟨r, by simpa [walk_succ] using hr, ?_⟩
        rcases hplace with hf | ⟨hf, e, h1, h2, h3, h4⟩
        · exact .inl hf
        · exact .inr ⟨hf, e, by omega, h2, h3, h4⟩
      | reusable =>
        obtain ⟨r, hr, hplace⟩ := hrec (first.or (some (walk n h d)))
        refine ⟨r, by simpa [walk_succ] using hr, ?_⟩
        cases first with
        | some f => exact .inl (by simpa using hplace)
        | none =>
          have hrd : walk n h d = r := by simpa using hplace
          exact .inr ⟨rfl, d, le_refl d, hd, hrd.symm, .inr hc⟩

/-- The place an unsuccessful search answers: a free or reusable cell of the
walk with no free cell before it. -/
def Vacant (n : Nat) (cell : Nat → Cell) (h r : Nat) : Prop :=
  ∃ e < n, r = walk n h e ∧ (cell r = .free ∨ cell r = .reusable) ∧
    ∀ d < e, cell (walk n h d) ≠ .free

/-- No hit can be met by a walk that has not first met a free cell. -/
def NoHit (n : Nat) (cell : Nat → Cell) (h : Nat) : Prop :=
  ∃ D < n, cell (walk n h D) = .free ∧ ∀ d < D, cell (walk n h d) ≠ .hit

/-- **Searching ends.**  With one free cell, a search from a home cell `h` ends
within `n` probes: at a hit, or at a vacant cell when its walk has no hit. -/
theorem search_spec {n : Nat} {cell : Nat → Cell} {h : Nat} (hh : h < n)
    (hfree : ∃ i < n, cell i = .free) :
    (∃ D < n, cell (walk n h D) = .hit ∧ search n cell n h none = some (walk n h D, true)) ∨
    (∃ r, Vacant n cell h r ∧ NoHit n cell h ∧ search n cell n h none = some (r, false)) := by
  classical
  obtain ⟨i, hi, hci⟩ := hfree
  obtain ⟨d, hd, hdi⟩ := exists_walk_eq hh hi
  have hex : ∃ D, (cell (walk n h D)).stops := ⟨d, .inl (hdi ▸ hci)⟩
  -- `D` is the first step of the walk at a free cell or a hit
  obtain ⟨D, hD, hmin⟩ : ∃ D, (cell (walk n h D)).stops ∧ ∀ e < D, ¬ (cell (walk n h e)).stops :=
    ⟨Nat.find hex, Nat.find_spec hex, fun e he => Nat.find_min hex he⟩
  have hDn : D < n := by
    by_contra hge
    exact hmin d (by omega) (.inl (hdi ▸ hci))
  have hstart : search n cell n h none = search n cell n (walk n h 0) none := by rw [walk_zero hh]
  rcases hD with hD | hD
  · right
    obtain ⟨r, hr, hplace⟩ := search_free n cell h D hD n 0 none (Nat.zero_le _) (by omega)
      (fun e _ he => hmin e he)
    rcases hplace with hnone | ⟨-, e, -, heD, rfl, hcell⟩
    · cases hnone
    refine ⟨walk n h e, ⟨e, by omega, rfl, ?_, ?_⟩, ⟨D, hDn, hD, ?_⟩, by rw [hstart, hr]⟩
    · rcases hcell with rfl | hcell
      · exact .inl hD
      · exact .inr hcell
    · exact fun d' hd' hf => hmin d' (by omega) (.inl hf)
    · exact fun d' hd' hf => hmin d' hd' (.inr hf)
  · left
    exact ⟨D, hDn, hD, by
      rw [hstart, search_hit n cell h D hD n 0 none (Nat.zero_le _) (by omega)
        (fun e _ he => hmin e he)]⟩

/-! ## probe chains -/

/-- Cell `i` is reachable from its home `h`: the walk from `h` meets `i` before
any free cell. -/
def Reach (n : Nat) (free : Nat → Prop) (h i : Nat) : Prop :=
  ∃ d < n, walk n h d = i ∧ ∀ e < d, ¬ free (walk n h e)

/-- Filling cells keeps every chain. -/
theorem Reach.mono {n : Nat} {free free' : Nat → Prop} {h i : Nat} (hr : Reach n free h i)
    (hsub : ∀ j, free' j → free j) : Reach n free' h i := by
  obtain ⟨d, hd, hw, hpre⟩ := hr
  exact ⟨d, hd, hw, fun e he hf => hpre e he (hsub _ hf)⟩

/-- An unsuccessful search rules out a reachable hit. -/
theorem not_hit_of_reach {n : Nat} {cell : Nat → Cell} {h i : Nat} (hno : NoHit n cell h)
    (hr : Reach n (fun j => cell j = .free) h i) : cell i ≠ .hit := by
  obtain ⟨D, -, hD, hmiss⟩ := hno
  obtain ⟨d, -, rfl, hpre⟩ := hr
  rcases Nat.lt_trichotomy d D with hlt | rfl | hgt
  · exact hmiss d hlt
  · rw [hD]; decide
  · exact absurd hD (hpre D hgt)

/-- A vacant cell is reachable from the home cell of the search. -/
theorem Vacant.reach {n : Nat} {cell : Nat → Cell} {h r : Nat} (hv : Vacant n cell h r) :
    Reach n (fun j => cell j = .free) h r := by
  obtain ⟨e, he, rfl, -, hpre⟩ := hv
  exact ⟨e, he, rfl, hpre⟩

/-- What may be written lies within the ring. -/
theorem Vacant.lt {n : Nat} {cell : Nat → Cell} {h r : Nat} (hv : Vacant n cell h r) : r < n := by
  obtain ⟨e, he, rfl, -, -⟩ := hv
  exact walk_lt (by omega) h e

end LinearProbe
