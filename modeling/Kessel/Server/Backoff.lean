import Kessel.Server.Process

/-!
# Kessel.Server.Backoff

The rest behind a failed `accept`.

When `accept` fails for another reason than that nobody waits (the process may
be out of descriptors), the event loop leaves the listener alone for ten
iterations, and serves its connections meanwhile.  `Resting` is the invariant,
with the number of iterations that have been started since.

* `ReachedAt.rests` — for ten iterations no descriptor and no buffer of a
  connection is taken, and then the listener is watched again.
-/

namespace Kessel

open CStr (ascii)
open Relation (ReflTransGen)

variable {cfg : KsConfig} {t t' : UInt64} {n : Nat} {refused : Nat → Prop}

/-! ## runs that count iterations -/

/-- Does the next step start an iteration? -/
def KsProcess.starts : KsProcess → Nat
  | .running _ ⟨_, .top⟩ _ => 1
  | _ => 0

/-- A run in which `n` iterations are started. -/
inductive KsProcess.Runs (refused : Nat → Prop) :
    Nat → UInt64 × KsProcess → UInt64 × KsProcess → Prop where
  | refl (p : UInt64 × KsProcess) : Runs refused 0 p p
  | step {n : Nat} {p q r : UInt64 × KsProcess} :
      Runs refused n p q → KsProcessStep refused q r → Runs refused (n + q.2.starts) p r

/-- A run from a state of the process. -/
theorem KsProcess.Runs.reachedAt {p q : UInt64 × KsProcess}
    (hrun : KsProcess.Runs refused n p q) (h : p.2.ReachedAt refused p.1) :
    q.2.ReachedAt refused q.1 := by
  induction hrun with
  | refl p => exact h
  | step _ hstep ih => exact (ih h).step hstep

/-! ## what only gives back -/

/-- Resetting a client gives back. -/
theorem clientResetHeld_taken (h : KsHeld) (slot : Nat) (c : KsClient) :
    (clientResetHeld h slot c).ledger.taken = h.ledger.taken ∧
      (clientResetHeld h slot c).offered = h.offered := by
  unfold clientResetHeld
  cases c.used with
  | false => exact ⟨rfl, rfl⟩
  | true => exact ⟨by simp [KsHeld.free, ksClose, KsHeld.give, Ledger.give_taken], rfl⟩

/-- A turn takes no descriptor and no buffer of a connection (what its commands
put into the store and the registry is not counted here), and leaves the rest as
it is. -/
theorem clientTurnHeld_rests {s : KsServer cfg} {i : Fin cfg.maxClients} (h : KsHeld) (hok : s.Ok)
    {readFds : Nat → Bool}
    (hopen : (s.clients i).used = true → readFds (s.clients i).fd = true →
      (s.clients i).closeAfterWrite = false) (writeFds : Nat → Bool) (turn : KsTurn) :
    (clientTurnHeld s h i readFds writeFds turn).1.acceptBackoffTicks = s.acceptBackoffTicks ∧
      (clientTurnHeld s h i readFds writeFds turn).2.ledger.taken = h.ledger.taken ∧
      (clientTurnHeld s h i readFds writeFds turn).2.offered = h.offered := by
  by_cases hused : (s.clients i).used = true
  · have hacts := turnEnd_acts hok hused (hopen hused) writeFds turn
    rw [clientTurnHeld, if_neg (not_not_intro hused)]
    generalize turnEnd s i readFds writeFds turn = r at *
    obtain ⟨s₁, shouldClose⟩ := r
    have hticks := (acted_of_acts hok hacts).acceptBackoffTicks
    cases shouldClose with
    | false => exact ⟨hticks, rfl, rfl⟩
    | true => exact ⟨hticks, clientResetHeld_taken h i (s₁.clients i)⟩
  · rw [clientTurnHeld, if_pos hused]
    exact ⟨rfl, rfl, rfl⟩

/-! ## the rest -/

/-- `n` iterations have been started since `accept` failed, and no descriptor and
no buffer has been taken since; `held₀` was held then. -/
inductive KsProcess.Resting (n : Nat) (held₀ : KsHeld) : KsProcess → Prop where
  | running {cfg : KsConfig} {loop : KsLoop cfg} {held : KsHeld} :
      loop.server.acceptBackoffTicks = 10 - n →
      held.ledger.taken = held₀.ledger.taken ∧ held.offered = held₀.offered →
      (∀ readFds writeFds, loop.phase = .selected readFds writeFds →
        readFds loop.server.listenFd = false) →
      Resting n held₀ (.running cfg loop held)
  | returned (result : Int) (held : KsHeld) : Resting n held₀ (.returned result held)

/-- The listener is watched when the rest is over, and by no connection. -/
theorem KsServer.Connected.watched_listenFd {s : KsServer cfg} (h : s.Connected) :
    s.WatchedForReading s.listenFd ↔ s.acceptBackoffTicks = 0 := by
  constructor
  · rintro (⟨hticks, -⟩ | ⟨i, hused, -, -, -, hfd⟩)
    · exact hticks
    · exact absurd hfd (h.listen i hused)
  · exact fun hticks => .inl ⟨hticks, rfl⟩

/-- **A step of a process that rests.** -/
theorem KsProcess.Resting.step {held₀ : KsHeld} {p p' : KsProcess} (h : p.Resting n held₀)
    (hinv : p.Inv refused t) (hstep : KsProcessStep refused (t, p) (t', p'))
    (hn : n + p.starts ≤ 10) :
    p'.Resting (n + p.starts) held₀ := by
  cases hstep with
  | interrupted _ _ s held hle =>
    cases h with
    | running hticks hheld hshut =>
      have hlast : (startIteration s t').acceptBackoffTicks = 10 - n - 1 := congrArg (· - 1) hticks
      exact .running (hlast.trans (Nat.sub_sub 10 n 1)) hheld (by simp)
  | select _ _ s held readFds writeFds hle hread hwrite =>
    cases h with
    | running hticks hheld hshut =>
      cases hinv with
      | running hloop hrun hacc =>
        have hlast : (startIteration s t').acceptBackoffTicks = 10 - n - 1 := congrArg (· - 1) hticks
        refine .running (hlast.trans (Nat.sub_sub 10 n 1)) hheld fun readFds' writeFds' hphase => ?_
        dsimp only at hphase hticks ⊢
        rw [listenFd_startIteration, ← (KsPhase.selected.inj hphase).1, Bool.eq_false_iff]
        -- the listener was not handed to `select`, which counted the rest down
        intro hset
        have hticks' := (hloop.reachable.connected hrun).watched_listenFd.mp (hread _ hset)
        dsimp only at hticks'
        have hstarts : n + 1 ≤ 10 := hn
        omega
  | accept _ s held readFds writeFds calls hfresh =>
    cases h with
    | running hticks hheld hshut =>
      have hidle : acceptPhaseHeld s held readFds calls = (s, held) := by
        have hready := hshut readFds writeFds rfl
        rw [acceptPhaseHeld, if_neg]
        simp [hready]
      rw [hidle]
      exact .running hticks hheld (by simp)
  | turn _ _ s held i readFds writeFds calls horderly =>
    cases h with
    | running hticks hheld hshut =>
      cases hinv with
      | running hloop hrun hacc =>
        obtain ⟨hconn, hreads⟩ := hloop.reachable.inv
        obtain ⟨hticks', htaken, hoffered⟩ := clientTurnHeld_rests held hconn.reached.ok
          (hreads i (le_refl _)) writeFds calls.turn
        exact .running (hticks'.trans hticks) ⟨htaken.trans hheld.1, hoffered.trans hheld.2⟩ (by simp)
  | next _ s held readFds writeFds =>
    cases h with
    | running hticks hheld hshut => exact .running hticks hheld (by simp)
  | stop _ s held => exact .returned 0 _
  | fail _ _ s held hle => exact .returned 1 _

/-- **A run of a process that rests.** -/
theorem KsProcess.Resting.runs {held₀ : KsHeld} {p q : UInt64 × KsProcess}
    (h : p.2.Resting 0 held₀) (hreached : p.2.ReachedAt refused p.1)
    (hrun : KsProcess.Runs refused n p q) (hn : n ≤ 10) : q.2.Resting n held₀ := by
  induction hrun with
  | refl p => exact h
  | step hrun hstep ih =>
    exact (ih h hreached (Nat.le_of_add_right_le hn)).step (hrun.reachedAt hreached).inv hstep hn

/-- **A failed `accept` is followed by a rest of ten iterations.**  Whatever the
connections do meanwhile, no descriptor and no buffer of a connection is taken,
and no connection is accepted; the listener is handed to `select` again when ten
iterations have been started, and not before. -/
theorem KsProcess.ReachedAt.rests {s : KsServer cfg} {held : KsHeld} {readFds writeFds : Nat → Bool}
    (h : KsProcess.ReachedAt refused t (.running cfg ⟨s, .selected readFds writeFds⟩ held))
    {calls : List KsAcceptCall} (hfresh : FreshCalls s held calls) (hticks : s.acceptBackoffTicks = 0)
    (hready : readFds s.listenFd = true)
    (hfailed : (acceptClientsHeld s held ksAcceptBudget calls).2.2 ≠ 0) {loop : KsLoop cfg}
    {held' : KsHeld}
    (hrun : KsProcess.Runs refused n
      (t, .running cfg ⟨(acceptPhaseHeld s held readFds calls).1, .turns 0 readFds writeFds⟩
        (acceptPhaseHeld s held readFds calls).2)
      (t', .running cfg loop held')) (hn : n ≤ 10) :
    held'.ledger.taken = (acceptPhaseHeld s held readFds calls).2.ledger.taken ∧
      held'.offered = (acceptPhaseHeld s held readFds calls).2.offered ∧
      (loop.phase = .top → (loop.server.WatchedForReading loop.server.listenFd ↔ n = 10)) := by
  have hreached := h.step (.accept t s held readFds writeFds calls hfresh)
  have hticks₀ : (acceptPhaseHeld s held readFds calls).1.acceptBackoffTicks = 10 := by
    rw [acceptPhaseHeld, if_pos ⟨hticks, hready⟩]
    generalize acceptClientsHeld s held ksAcceptBudget calls = r at *
    obtain ⟨s', held₁, result⟩ := r
    dsimp only at hfailed ⊢
    rw [if_pos hfailed]
  have hresting := KsProcess.Resting.runs (.running hticks₀ ⟨rfl, rfl⟩ (by simp)) hreached hrun hn
  cases hresting with
  | running hleft hheld hshut =>
    refine ⟨hheld.1, hheld.2, fun htop => ?_⟩
    cases (hrun.reachedAt hreached).inv with
    | running hloop hrunning hacc =>
      rw [(hloop.reachable.connected hrunning).watched_listenFd, hleft]
      omega

/-- Iterations in which `select` is interrupted. -/
theorem KsProcess.Runs.interrupted {m : Nat} {p : UInt64 × KsProcess} {s : KsServer cfg}
    {held : KsHeld} (hrun : KsProcess.Runs refused m p (t, .running cfg ⟨s, .top⟩ held)) (n : Nat) :
    KsProcess.Runs refused (m + n) p
      (t, .running cfg ⟨(fun s => startIteration s t)^[n] s, .top⟩ held) := by
  induction n with
  | zero => exact hrun
  | succ n ih =>
    rw [Function.iterate_succ_apply']
    exact ih.step (.interrupted t t _ held (UInt64.le_refl t))

/-- The listener and the connection are ready. -/
def soloReady (fd : Nat) : Bool := fd = 3 ∨ fd = 5

/-- The process with one connection, when the next `accept` has failed. -/
def soloRefused : KsServer soloConfig × KsHeld :=
  acceptPhaseHeld (startIteration soloServed.1 0) soloServed.2 soloReady [.error]

/-- What the connection sends in the same iteration. -/
def soloCommand : KsTurnCalls := ⟨[.bytes (ascii "SET k v\n") idle.env], [], idle.env⟩

/-- The process when its command has been served. -/
def soloBusy : KsServer soloConfig × KsHeld :=
  clientTurnHeld soloRefused.1 soloRefused.2 soloSlot soloReady (fun _ => false) soloCommand.turn

/-- The process nine iterations later, and the tenth one started. -/
def soloRested : KsServer soloConfig :=
  (fun s => startIteration s 0)^[10] soloBusy.1

/-- The turn in which the connection sets a key. -/
theorem orderly_soloCommand (refused : Nat → Prop) : soloCommand.turn.Orderly refused 0 0 := by
  refine KsTurn.orderly_constant (fun _ => rfl) (fun _ _ => rfl)
    ⟨0, ⟨UInt64.le_refl 0, ?_, ?_, ?_, ?_, ?_⟩, UInt64.le_refl 0⟩ <;> simp [idle, KsReadings.constant]

/-- The connection sets a key meanwhile, and the listener is watched again when
ten iterations have been started. -/
theorem rests_soloRested :
    requestsOf (soloBusy.1.clients soloSlot).history = [.command (ascii "SET k v\n")] ∧
      soloBusy.2.ledger.taken = soloRefused.2.ledger.taken ∧
      soloBusy.2.offered = soloRefused.2.offered ∧
      (soloRested.WatchedForReading soloRested.listenFd ↔ 10 = 10) := by
  have hready : ∀ fd, soloReady fd = true → soloServed.1.WatchedForReading fd := by
    intro fd hfd
    rcases of_decide_eq_true hfd with rfl | rfl
    · exact .inl ⟨by decide, by decide⟩
    · exact .inr ⟨soloSlot, by decide⟩
  have hselect := (reachedAt_soloServed fun _ => False).step (.select 0 0 soloServed.1 soloServed.2
    soloReady (fun _ => false) (UInt64.le_refl 0) hready (by simp))
  have hfresh : FreshCalls (startIteration soloServed.1 0) soloServed.2 [.error] := trivial
  have hturn := KsProcess.Runs.step (.refl (0, .running soloConfig
      ⟨soloRefused.1, .turns 0 soloReady fun _ => false⟩ soloRefused.2))
    (.turn 0 0 soloRefused.1 soloRefused.2 soloSlot _ _ soloCommand
      (orderly_soloCommand fun _ => False))
  have hnext := hturn.step (.next 0 soloBusy.1 soloBusy.2 _ _)
  obtain ⟨htaken, hoffered, hwatched⟩ :=
    KsProcess.ReachedAt.rests hselect hfresh (by decide) (by decide) (by decide)
      (hnext.interrupted 10) (by decide)
  exact ⟨by decide +kernel, htaken, hoffered, hwatched rfl⟩

end Kessel
