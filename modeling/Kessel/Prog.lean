import Mathlib.Tactic.Common

/-!
# Kessel.Prog

Programs that may fail or wait.

A program over a state either is done with a value, fails, or waits for
something that never comes; it has a state in each case.  `Ends` says what holds
at its end in the three cases, and has one rule for each way to build a program.
`iterate` is a loop with a bound on its turns; `Ends.iterate` is its rule, for an
invariant and a measure that keeps it from running out of turns.  This module
names no program.
-/

namespace Kessel

/-- How a program ends. -/
inductive Outcome (ε α : Type) where
  | done (a : α)
  | failed (e : ε)
  | blocked
  deriving DecidableEq, Repr

/-- A program over the state `σ` that may fail with an `ε`. -/
def Prog (σ ε α : Type) : Type := σ → Outcome ε α × σ

namespace Prog

variable {σ ε α β γ : Type}

/-- Run `x`, then `f` on its value. -/
def bind (x : Prog σ ε α) (f : α → Prog σ ε β) : Prog σ ε β := fun s =>
  match x s with
  | (.done a, s) => f a s
  | (.failed e, s) => (.failed e, s)
  | (.blocked, s) => (.blocked, s)

instance : Monad (Prog σ ε) where
  pure a := fun s => (.done a, s)
  bind := bind

/-- The state. -/
def get : Prog σ ε σ := fun s => (.done s, s)

/-- A new state. -/
def modify (f : σ → σ) : Prog σ ε Unit := fun s => (.done (), f s)

/-- Fail. -/
def fail (e : ε) : Prog σ ε α := fun s => (.failed e, s)

/-- Wait for ever. -/
def block : Prog σ ε α := fun s => (.blocked, s)

/-- Run `x` and go on when it fails. -/
def attempt (x : Prog σ ε α) : Prog σ ε (Except ε α) := fun s =>
  match x s with
  | (.done a, s) => (.done (.ok a), s)
  | (.failed e, s) => (.done (.error e), s)
  | (.blocked, s) => (.blocked, s)

/-- A loop of at most `n` turns: a turn begins the next one with a new value, or
leaves the loop. -/
def iterate (body : α → Prog σ ε (α ⊕ β)) : Nat → α → Prog σ ε β
  | 0, _ => block
  | n + 1, a => do
    match ← body a with
    | .inl a => iterate body n a
    | .inr b => pure b

/-- A loop with a bound that is taken from the state. -/
def loop (turns : σ → Nat) (body : Prog σ ε (Unit ⊕ β)) : Prog σ ε β := fun s =>
  iterate (fun _ => body) (turns s + 1) () s

/-! ### evaluation -/

section

variable {x : Prog σ ε α} {f : α → Prog σ ε β} {s s' : σ}

/-- A program goes on behind one that is done. -/
theorem bind_done {a : α} (h : x s = (.done a, s')) : (x >>= f) s = f a s' := by
  show bind x f s = _
  rw [bind, h]

/-- A program that fails ends what follows. -/
theorem bind_failed {e : ε} (h : x s = (.failed e, s')) : (x >>= f) s = (.failed e, s') := by
  show bind x f s = _
  rw [bind, h]

/-- A program that waits stops what follows. -/
theorem bind_blocked (h : x s = (.blocked, s')) : (x >>= f) s = (.blocked, s') := by
  show bind x f s = _
  rw [bind, h]

theorem get_bind (f : σ → Prog σ ε β) (s : σ) : (get >>= f) s = f s s := rfl

theorem modify_bind (g : σ → σ) (f : Unit → Prog σ ε β) (s : σ) : (modify g >>= f) s = f () (g s) :=
  rfl

/-- The last turn of a loop. -/
theorem loop_inr {turns : σ → Nat} {body : Prog σ ε (Unit ⊕ β)} {b : β}
    (h : body s = (.done (.inr b), s')) : loop turns body s = (.done b, s') := by
  rw [loop, iterate, bind_done h]
  rfl

end

end Prog

/-! ## what holds at the end -/

/-- What holds at the end: of the value, of the failure, or when it waits. -/
def Ends {σ ε α : Type} (good : α → σ → Prop) (bad : ε → σ → Prop) (wait : σ → Prop) :
    Outcome ε α × σ → Prop
  | (.done a, s) => good a s
  | (.failed e, s) => bad e s
  | (.blocked, s) => wait s

namespace Ends

variable {σ ε α β : Type} {good : α → σ → Prop} {good' : β → σ → Prop} {bad bad' : ε → σ → Prop}
  {wait wait' : σ → Prop} {s : σ}

/-- Ends may be described more weakly. -/
theorem mono {good' : α → σ → Prop} {r : Outcome ε α × σ} (h : Ends good bad wait r)
    (hgood : ∀ a s, good a s → good' a s) (hbad : ∀ e s, bad e s → bad' e s)
    (hwait : ∀ s, wait s → wait' s) : Ends good' bad' wait' r := by
  match r with
  | (.done a, s) => exact hgood a s h
  | (.failed e, s) => exact hbad e s h
  | (.blocked, s) => exact hwait s h

/-- A weaker postcondition of the value. -/
theorem imp {good' : α → σ → Prop} {r : Outcome ε α × σ} (h : Ends good bad wait r)
    (hgood : ∀ a s, good a s → good' a s) : Ends good' bad wait r :=
  h.mono hgood (fun _ _ h => h) fun _ h => h

/-- A program that returns ends well. -/
theorem pure {a : α} (h : good a s) : Ends good bad wait ((Pure.pure a : Prog σ ε α) s) := h

/-- A program that fails ends badly. -/
theorem fail {e : ε} (h : bad e s) : Ends good bad wait ((Prog.fail e : Prog σ ε α) s) := h

/-- **The rule of sequencing.** -/
theorem bind {x : Prog σ ε α} {f : α → Prog σ ε β} (hx : Ends good bad wait (x s))
    (hf : ∀ a s', good a s' → Ends good' bad wait (f a s')) : Ends good' bad wait ((x >>= f) s) := by
  show Ends good' bad wait (Prog.bind x f s)
  unfold Prog.bind
  match hxs : x s with
  | (.done a, s') =>
    rw [hxs] at hx
    exact hf a s' hx
  | (.failed e, s') =>
    rw [hxs] at hx
    exact hx
  | (.blocked, s') =>
    rw [hxs] at hx
    exact hx

/-- The state is read. -/
theorem get {f : σ → Prog σ ε β} (h : Ends good' bad wait (f s s)) :
    Ends good' bad wait (((Prog.get : Prog σ ε σ) >>= f) s) := h

/-- The state is changed. -/
theorem modify {g : σ → σ} {f : Unit → Prog σ ε β} (h : Ends good' bad wait (f () (g s))) :
    Ends good' bad wait (((Prog.modify g : Prog σ ε Unit) >>= f) s) := h

/-- **The rule of `attempt`**: what would fail ends well. -/
theorem attempt {x : Prog σ ε α} {good' : Except ε α → σ → Prop} (hx : Ends good bad wait (x s))
    (hgood : ∀ a s', good a s' → good' (.ok a) s') (hbad : ∀ e s', bad e s' → good' (.error e) s') :
    Ends good' bad' wait (x.attempt s) := by
  unfold Prog.attempt
  match hxs : x s with
  | (.done a, s') =>
    rw [hxs] at hx
    exact hgood a s' hx
  | (.failed e, s') =>
    rw [hxs] at hx
    exact hbad e s' hx
  | (.blocked, s') =>
    rw [hxs] at hx
    exact hx

/-- **Loops.**  An invariant that every turn keeps while the measure goes down. -/
theorem iterate {body : α → Prog σ ε (α ⊕ β)} (inv : α → σ → Prop) (measure : α → σ → Nat)
    (hbody : ∀ a s, inv a s → Ends
      (Sum.elim (fun a' s' => inv a' s' ∧ measure a' s' < measure a s) good') bad wait (body a s))
    {n : Nat} {a : α} (hinv : inv a s) (hn : measure a s < n) :
    Ends good' bad wait (Prog.iterate body n a s) := by
  induction n generalizing a s with
  | zero => omega
  | succ n ih =>
    rw [Prog.iterate]
    refine (hbody a s hinv).bind ?_
    rintro (a' | b) s' h
    · exact ih h.1 (by have := h.2; omega)
    · exact h

/-- **Loops over the state.** -/
theorem loop {body : Prog σ ε (Unit ⊕ β)} {turns : σ → Nat} (inv : σ → Prop)
    (hbody : ∀ s, inv s → Ends
      (Sum.elim (fun _ s' => inv s' ∧ turns s' < turns s) good') bad wait (body s))
    (hinv : inv s) : Ends good' bad wait (Prog.loop turns body s) :=
  iterate (fun _ => inv) (fun _ => turns) (fun _ => hbody) hinv (Nat.lt_succ_self _)

end Ends

end Kessel
