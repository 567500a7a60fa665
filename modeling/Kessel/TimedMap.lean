import Mathlib.Data.Finset.Card
import Mathlib.Data.Set.Card

/-!
# Kessel.TimedMap

Maps whose entries may carry a deadline.

An entry is live while its deadline, if it has one, is still ahead; `view` is
what a reader of the map sees.  An implementation is free to keep or to drop the
entries nobody sees: `Covers now s m` says that `s` holds entries of `m` only,
and all those that are live at `now`.  It is a forward relation: time
(`Covers.mono`), equal updates (`Covers.update`) and dropping a dead entry
(`Covers.forget`) keep it.
-/

namespace TimedMap

variable {κ ν : Type}

/-- A value with the time from which it no longer exists, if any. -/
structure Entry (ν : Type) where
  value : ν
  deadline : Option Nat
  deriving DecidableEq, Repr

def Entry.live (now : Nat) (e : Entry ν) : Bool := e.deadline.all (now < ·)

/-- The entry a reader finds under `k` at time `now`. -/
def view (now : Nat) (m : κ → Option (Entry ν)) (k : κ) : Option (Entry ν) :=
  (m k).filter (Entry.live now)

/-- The map without the keys of `d`. -/
def drop [DecidableEq κ] (d : Finset κ) (m : κ → Option (Entry ν)) : κ → Option (Entry ν) :=
  fun k => if k ∈ d then none else m k

/-- `s` holds entries of `m` only, and all those that are live. -/
structure Covers (now : Nat) (s m : κ → Option (Entry ν)) : Prop where
  sound : ∀ k e, s k = some e → m k = some e
  complete : ∀ k e, m k = some e → e.live now = true → s k = some e

/-- An entry that is live was live before. -/
theorem Entry.live_mono {now later : Nat} {e : Entry ν} (hle : now ≤ later)
    (h : e.live later = true) : e.live now = true := by
  cases hd : e.deadline with
  | none => simp [live, hd]
  | some d =>
    simp only [live, hd, Option.all_some, decide_eq_true_eq] at h ⊢
    omega

/-- A reader sees the entries that are live. -/
theorem view_eq_some {now : Nat} {m : κ → Option (Entry ν)} {k : κ} {e : Entry ν} :
    view now m k = some e ↔ m k = some e ∧ e.live now = true := by
  simp [view, Option.filter_eq_some_iff]

namespace Covers

/-- A map covers itself. -/
theorem refl (now : Nat) (m : κ → Option (Entry ν)) : Covers now m m :=
  ⟨fun _ _ h => h, fun _ _ h _ => h⟩

/-- Time only kills entries. -/
theorem mono {now later : Nat} {s m : κ → Option (Entry ν)} (h : Covers now s m)
    (hle : now ≤ later) : Covers later s m :=
  ⟨h.sound, fun k e hm hlive => h.complete k e hm (Entry.live_mono hle hlive)⟩

/-- A reader cannot tell the two maps apart. -/
theorem view_eq {now : Nat} {s m : κ → Option (Entry ν)} (h : Covers now s m) (k : κ) :
    view now s k = view now m k := by
  apply Option.ext
  intro e
  rw [view_eq_some, view_eq_some]
  constructor
  · exact fun ⟨hs, hlive⟩ => ⟨h.sound k e hs, hlive⟩
  · exact fun ⟨hm, hlive⟩ => ⟨h.complete k e hm hlive, hlive⟩

/-- The same update on both sides. -/
theorem update [DecidableEq κ] {now : Nat} {s m : κ → Option (Entry ν)} (h : Covers now s m)
    (k : κ) (e : Option (Entry ν)) :
    Covers now (Function.update s k e) (Function.update m k e) := by
  constructor
  · intro k' e' hs
    by_cases hk : k' = k
    · rw [hk, Function.update_self] at hs ⊢
      exact hs
    · rw [Function.update_of_ne hk] at hs ⊢
      exact h.sound k' e' hs
  · intro k' e' hm hlive
    by_cases hk : k' = k
    · rw [hk, Function.update_self] at hm ⊢
      exact hm
    · rw [Function.update_of_ne hk] at hm ⊢
      exact h.complete k' e' hm hlive

/-- An entry that nobody sees may be dropped. -/
theorem forget [DecidableEq κ] {now : Nat} {s m : κ → Option (Entry ν)} (h : Covers now s m)
    {k : κ} (hdead : view now s k = none) : Covers now (Function.update s k none) m := by
  constructor
  · intro k' e' hs
    rw [Function.update_apply] at hs
    split at hs
    · cases hs
    · exact h.sound k' e' hs
  · intro k' e' hm hlive
    have hs := h.complete k' e' hm hlive
    rw [Function.update_apply, if_neg]
    · exact hs
    · intro heq
      have hview : view now s k = some e' := view_eq_some.mpr ⟨by rw [← heq]; exact hs, hlive⟩
      rw [hdead] at hview
      cases hview

/-- Entries that nobody sees may be put back on the right. -/
theorem of_drop [DecidableEq κ] {now : Nat} {s m : κ → Option (Entry ν)} {d : Finset κ}
    (h : Covers now s (drop d m)) (hdead : ∀ k ∈ d, view now m k = none) : Covers now s m := by
  constructor
  · intro k e hs
    have hd := h.sound k e hs
    simp only [drop] at hd
    split at hd
    · cases hd
    · exact hd
  · intro k e hm hlive
    apply h.complete k e _ hlive
    rw [drop, if_neg]
    · exact hm
    · intro hk
      have hview := view_eq_some.mpr ⟨hm, hlive⟩
      rw [hdead k hk] at hview
      cases hview

end Covers

/-! ## dropping keys one at a time -/

/-- Nothing is dropped. -/
theorem drop_empty [DecidableEq κ] (m : κ → Option (Entry ν)) : drop ∅ m = m := by
  funext k
  simp [drop]

/-- One more key is dropped. -/
theorem drop_update [DecidableEq κ] (d : Finset κ) (m : κ → Option (Entry ν)) (k : κ) :
    drop d (Function.update m k none) = drop (insert k d) m := by
  funext k'
  simp only [drop, Function.update_apply, Finset.mem_insert]
  by_cases h : k' = k <;> simp [h]

/-- A key that is taken away is not seen. -/
theorem view_update_none [DecidableEq κ] (now : Nat) (m : κ → Option (Entry ν)) (k k' : κ) :
    view now (Function.update m k none) k' = if k' = k then none else view now m k' := by
  rw [view, Function.update_apply]
  split
  · rfl
  · rfl

end TimedMap
