import Kessel.Config.Precedence
import Kessel.Server.Held
import Kessel.Server.Linear

/-!
# Kessel.Server.Process

The process (`main_server.c`, and `ks_server_run` from its first line to its
last).

A `KsProcess` runs the event loop or has returned.  It comes with the account of
everything it has taken from the kernel and the allocator; what they answer is
free, but for a descriptor that is open, which the kernel does not answer again.

* `ReachedAt.accounts` — while it runs, the process holds what its connections
  need and nothing else; when it returns, it has given everything back.
* `ReachedAt.counts` — every connection it was offered is counted.
-/

namespace Kessel

open CStr (ascii)
open Relation (ReflTransGen)

/-! ## `ks_server_run` -/

/-- What the calls in front of the event loop answer. -/
structure KsStartCalls where
  listen : KsListenCalls
  /-- the table of `ks_kv_init` -/
  store : Bool
  /-- `ks_pubsub_create` -/
  pubsub : Bool
  /-- `calloc(cfg->max_clients, sizeof(*clients))` -/
  registry : Bool
  /-- `time(NULL)` -/
  startedAt : Int64

/-- A process that runs the event loop, or has returned. -/
inductive KsProcess where
  | running (cfg : KsConfig) (loop : KsLoop cfg) (h : KsHeld)
  | returned (result : Int) (h : KsHeld)

/-- `ks_server_run`, up to its loop. -/
def ksServerRun (settings : KsSettings) (calls : KsStartCalls) (h : KsHeld) : KsProcess :=
  if hmax : 0 < settings.maxClients ∧ settings.maxClients < fdSetSize then
    match ksListen h settings.host calls.listen with
    | (h, none) => .returned 1 h
    | (h, some listenFd) =>
      if listenFd ≥ fdSetSize then .returned 1 (ksClose h listenFd)
      else if calls.store = false then .returned 1 (ksClose h listenFd)
      else
        let h := h.take .store
        if calls.pubsub = false then
          let h := h.give .store
          .returned 1 (ksClose h listenFd)
        else
          let h := h.take .pubsub
          if calls.registry = false then
            let h := h.give .pubsub
            let h := h.give .store
            .returned 1 (ksClose h listenFd)
          else
            let cfg : KsConfig := ⟨settings.maxClients, hmax.1, hmax.2⟩
            .running cfg ⟨ksServerInit cfg listenFd calls.startedAt, .top⟩ (h.take .registry)
  else .returned 1 h

/-- `main` of the server. -/
def ksServerMain (getenv : CStr → Option CStr) (argv : List CStr) (calls : KsStartCalls) :
    KsProcess :=
  match ksConfigLoad getenv ksConfigInit argv with
  | none => .returned 1 .init
  | some settings => ksServerRun settings calls .init

/-- A configuration that loads passes the check of `ks_server_run`: when the
system grants what it asks for, the process runs the event loop with it. -/
theorem ksServerMain_loaded {getenv : CStr → Option CStr} {argv : List CStr} {settings : KsSettings}
    (hload : ksConfigLoad getenv ksConfigInit argv = some settings) {calls : KsStartCalls}
    {h : KsHeld} {fd : Nat} (hlisten : ksListen .init settings.host calls.listen = (h, some fd))
    (hfd : fd < fdSetSize) (hstore : calls.store = true) (hpubsub : calls.pubsub = true)
    (hregistry : calls.registry = true) :
    ksServerMain getenv argv calls =
      .running (.ofLoaded hload) ⟨ksServerInit (.ofLoaded hload) fd calls.startedAt, .top⟩
        (((h.take .store).take .pubsub).take .registry) := by
  have hmax := ksConfigLoad_maxClients hload (by decide)
  unfold ksServerMain
  rw [hload]
  simp only [ksServerRun, dif_pos hmax, hlisten, if_neg (Nat.not_le.mpr hfd), hstore, hpubsub,
    hregistry]
  rfl

/-- What the sockets of a client answer in its turn, and what the commands get
that are processed after its output has been written. -/
structure KsTurnCalls where
  recvs : List KsRecvCall
  sends : List KsSendCall
  env : Nat → KsCommandEnv

def KsTurnCalls.turn (calls : KsTurnCalls) : KsTurn :=
  ⟨recvResults calls.recvs, sendResults calls.sends, calls.env⟩

/-- One phase of one iteration, from one time to another. -/
inductive KsProcessStep (refused : Nat → Prop) : UInt64 × KsProcess → UInt64 × KsProcess → Prop where
  | interrupted {cfg : KsConfig} (t now : UInt64) (s : KsServer cfg) (h : KsHeld) : t ≤ now →
      KsProcessStep refused (t, .running cfg ⟨s, .top⟩ h)
        (now, .running cfg ⟨startIteration s now, .top⟩ h)
  | select {cfg : KsConfig} (t now : UInt64) (s : KsServer cfg) (h : KsHeld)
      (readFds writeFds : Nat → Bool) : t ≤ now →
      (∀ fd, readFds fd = true → s.WatchedForReading fd) →
      (∀ fd, writeFds fd = true → s.WatchedForWriting fd) →
      KsProcessStep refused (t, .running cfg ⟨s, .top⟩ h)
        (now, .running cfg ⟨startIteration s now, .selected readFds writeFds⟩ h)
  | accept {cfg : KsConfig} (t : UInt64) (s : KsServer cfg) (h : KsHeld)
      (readFds writeFds : Nat → Bool) (calls : List KsAcceptCall) : FreshCalls s h calls →
      KsProcessStep refused (t, .running cfg ⟨s, .selected readFds writeFds⟩ h)
        (t, .running cfg ⟨(acceptPhaseHeld s h readFds calls).1, .turns 0 readFds writeFds⟩
          (acceptPhaseHeld s h readFds calls).2)
  | turn {cfg : KsConfig} (t t' : UInt64) (s : KsServer cfg) (h : KsHeld) (i : Fin cfg.maxClients)
      (readFds writeFds : Nat → Bool) (calls : KsTurnCalls) : calls.turn.Orderly refused t t' →
      KsProcessStep refused (t, .running cfg ⟨s, .turns i readFds writeFds⟩ h)
        (t', .running cfg
          ⟨(clientTurnHeld s h i readFds writeFds calls.turn).1, .turns (i + 1) readFds writeFds⟩
          (clientTurnHeld s h i readFds writeFds calls.turn).2)
  | next {cfg : KsConfig} (t : UInt64) (s : KsServer cfg) (h : KsHeld) (readFds writeFds : Nat → Bool) :
      KsProcessStep refused (t, .running cfg ⟨s, .turns cfg.maxClients readFds writeFds⟩ h)
        (t, .running cfg ⟨s, .top⟩ h)
  /-- a stop is requested -/
  | stop {cfg : KsConfig} (t : UInt64) (s : KsServer cfg) (h : KsHeld) :
      KsProcessStep refused (t, .running cfg ⟨s, .top⟩ h) (t, .returned 0 (serverEnd s h).2)
  /-- `select` fails -/
  | fail {cfg : KsConfig} (t now : UInt64) (s : KsServer cfg) (h : KsHeld) : t ≤ now →
      KsProcessStep refused (t, .running cfg ⟨s, .top⟩ h)
        (now, .returned 1 (serverEnd (startIteration s now) h).2)

/-- The states of a process, at the times they are reached, while the commands are
refused memory at the times `refused` only. -/
inductive KsProcess.ReachedAt (refused : Nat → Prop) : UInt64 → KsProcess → Prop where
  | start (t : UInt64) (getenv : CStr → Option CStr) (argv : List CStr) (calls : KsStartCalls) :
      ReachedAt refused t (ksServerMain getenv argv calls)
  | step {t t' : UInt64} {p p' : KsProcess} :
      ReachedAt refused t p → KsProcessStep refused (t, p) (t', p') → ReachedAt refused t' p'

/-! ## the account -/

variable {refused : Nat → Prop}

/-- What holds in every state of a process. -/
inductive KsProcess.Inv (refused : Nat → Prop) (t : UInt64) : KsProcess → Prop where
  | running {cfg : KsConfig} {loop : KsLoop cfg} {h : KsHeld} : loop.ReachableAt refused t →
      loop.phase ≠ .stopped → loop.server.Accounted h → Inv refused t (.running cfg loop h)
  | returned (result : Int) {h : KsHeld} : h.Owns ∅ → Inv refused t (.returned result h)

/-- **`ks_server_run`** accounts for what it takes before its loop. -/
theorem inv_ksServerRun (t : UInt64) (settings : KsSettings) (calls : KsStartCalls) :
    (ksServerRun settings calls .init).Inv refused t := by
  unfold ksServerRun
  by_cases hmax : 0 < settings.maxClients ∧ settings.maxClients < fdSetSize
  · rw [dif_pos hmax]
    have hfresh : ∀ fd, calls.listen.socket = some fd → .descriptor fd ∉ (∅ : Finset KsResource) := by
      simp
    have hlisten := ksListen_spec owns_init settings.host hfresh
    rcases hresult : ksListen KsHeld.init settings.host calls.listen with ⟨h, _ | listenFd⟩ <;>
      rw [hresult] at hlisten
    · exact .returned 1 hlisten.1
    have hlistener : h.Owns (insert (.descriptor listenFd) ∅) := hlisten.1
    have hoffered : h.offered = 0 := hlisten.2
    have hstore := hlistener.take (r := .store) (by simp) (by simp)
    have hpubsub := hstore.take (r := .pubsub) (by simp) (by simp)
    have hregistry := hpubsub.take (r := .registry) (by simp) (by simp)
    dsimp only
    by_cases hbig : listenFd ≥ fdSetSize
    · rw [if_pos hbig]
      exact .returned 1 (hlistener.close_insert (by simp))
    rw [if_neg hbig]
    by_cases hnostore : calls.store = false
    · rw [if_pos hnostore]
      exact .returned 1 (hlistener.close_insert (by simp))
    rw [if_neg hnostore]
    by_cases hnopubsub : calls.pubsub = false
    · rw [if_pos hnopubsub]
      exact .returned 1 ((hstore.give_insert (by simp)).close_insert (by simp))
    rw [if_neg hnopubsub]
    by_cases hnoregistry : calls.registry = false
    · rw [if_pos hnoregistry]
      exact .returned 1
        (((hpubsub.give_insert (by simp)).give_insert (by simp)).close_insert (by simp))
    rw [if_neg hnoregistry]
    refine .running (.init t listenFd calls.startedAt) (by simp) ⟨?_, fun fd hfd => ?_, ?_⟩
    · have howned : (ksServerInit ⟨settings.maxClients, hmax.1, hmax.2⟩ listenFd calls.startedAt).owned =
          insert .registry (insert .pubsub (insert .store (insert (.descriptor listenFd) ∅))) := by
        ext r
        simp [KsServer.mem_owned, ksServerInit, KsClient.free]
        tauto
      rw [howned]
      exact hregistry
    · obtain rfl : fd = listenFd := by
        simpa [KsServer.mem_owned, ksServerInit, KsClient.free] using hfd
      exact Nat.lt_of_not_le hbig
    · exact congrArg UInt64.ofNat hoffered.symm
  · rw [dif_neg hmax]
    exact .returned 1 owns_init

/-- **`main`** takes nothing itself. -/
theorem inv_ksServerMain (t : UInt64) (getenv : CStr → Option CStr) (argv : List CStr)
    (calls : KsStartCalls) : (ksServerMain getenv argv calls).Inv refused t := by
  unfold ksServerMain
  cases ksConfigLoad getenv ksConfigInit argv with
  | none => exact .returned 1 owns_init
  | some settings => exact inv_ksServerRun t settings calls

/-- An iteration takes nothing, and gives nothing back. -/
theorem KsServer.Accounted.startIteration {cfg : KsConfig} {s : KsServer cfg} {h : KsHeld}
    (h₀ : s.Accounted h) (now : UInt64) : (Kessel.startIteration s now).Accounted h := by
  refine h₀.of_eq (KsServer.owned_congr (listenFd_startIteration s now) fun j => ?_) rfl rfl
  rw [clients_startIteration]
  exact ⟨rfl, rfl⟩

/-- **Every phase keeps the account**, and is a phase of the loop. -/
theorem KsProcessStep.inv {t t' : UInt64} {p p' : KsProcess} (h : p.Inv refused t)
    (hstep : KsProcessStep refused (t, p) (t', p')) : p'.Inv refused t' := by
  cases hstep with
  | interrupted _ _ s held hle =>
    cases h with
    | running hloop hrun hacc =>
      exact .running (hloop.step (.interrupted t t' s hle)) (by simp) (hacc.startIteration t')
  | select _ _ s held readFds writeFds hle hread hwrite =>
    cases h with
    | running hloop hrun hacc =>
      exact .running (hloop.step (.select t t' s readFds writeFds hle hread hwrite)) (by simp)
        (hacc.startIteration t')
  | accept _ s held readFds writeFds calls hfresh =>
    cases h with
    | running hloop hrun hacc =>
      have hstep : KsTimedStep refused (t, ⟨s, .selected readFds writeFds⟩) _ :=
        .accept t s readFds writeFds (acceptResults calls) (hfresh.freshFds hacc)
      rw [← acceptPhaseHeld_eq s held] at hstep
      exact .running (hloop.step hstep) (by simp) (acceptPhaseHeld_accounted hacc readFds hfresh)
  | turn _ _ s held i readFds writeFds calls horderly =>
    cases h with
    | running hloop hrun hacc =>
      have hstep := KsTimedStep.turn t t' s i readFds writeFds calls.turn horderly
      rw [← clientTurnHeld_eq s held] at hstep
      obtain ⟨hconn, hreads⟩ := hloop.reachable.inv
      exact .running (hloop.step hstep) (by simp)
        (clientTurnHeld_accounted hacc hconn hreads writeFds calls.turn)
  | next _ s held readFds writeFds =>
    cases h with
    | running hloop hrun hacc =>
      exact .running (hloop.step (.next t s readFds writeFds)) (by simp) hacc
  | stop _ s held =>
    cases h with
    | running hloop hrun hacc =>
      exact .returned 0 (serverEnd_owns hacc.owns (hloop.reachable.connected hrun).disjoint)
  | fail _ _ s held hle =>
    cases h with
    | running hloop hrun hacc =>
      have hconn := (hloop.reachable.connected hrun).startIteration t'
      exact .returned 1 (serverEnd_owns (hacc.startIteration t').owns hconn.disjoint)

/-- **Every state of a process is accounted for.** -/
theorem KsProcess.ReachedAt.inv {t : UInt64} {p : KsProcess} (h : p.ReachedAt refused t) :
    p.Inv refused t := by
  induction h with
  | start t getenv argv calls => exact inv_ksServerMain t getenv argv calls
  | step _ hstep ih => exact hstep.inv ih

/-! ## what is held -/

/-- What `select` watches is held. -/
theorem KsServer.watched_mem_owned {cfg : KsConfig} {s : KsServer cfg} {fd : Nat}
    (h : s.WatchedForReading fd ∨ s.WatchedForWriting fd) : .descriptor fd ∈ s.owned := by
  rw [KsServer.descriptor_mem_owned]
  rcases h with (⟨-, rfl⟩ | ⟨i, hused, -, -, -, rfl⟩) | ⟨i, hused, -, -, rfl⟩
  · exact .inl rfl
  · exact .inr ⟨i, hused, rfl⟩
  · exact .inr ⟨i, hused, rfl⟩

/-- **Nothing is lost and nothing is given back twice.**  A process that runs holds
its listener, its store and its registries, and for every connection a descriptor
and two blocks, and nothing else; what `select` is handed is open, below
`FD_SETSIZE` and does not block.  A process that has returned, from wherever,
holds nothing: what it has taken it has given back, each thing as often as it was
taken. -/
theorem KsProcess.ReachedAt.accounts {t : UInt64} {p : KsProcess} (h : p.ReachedAt refused t) :
    (∀ cfg loop held, p = .running cfg loop held →
      loop.ReachableAt refused t ∧ held.ledger.Holds loop.server.owned ∧
        ∀ fd, loop.server.WatchedForReading fd ∨ loop.server.WatchedForWriting fd →
          .descriptor fd ∈ held.ledger.held ∧ fd ∈ held.nonblocking ∧ fd < fdSetSize) ∧
      ∀ result held, p = .returned result held →
        held.ledger.Holds ∅ ∧ held.ledger.taken.Perm held.ledger.given := by
  have hinv := h.inv
  refine ⟨?_, ?_⟩
  · rintro cfg loop held rfl
    cases hinv with
    | running hloop hrun hacc =>
      refine ⟨hloop, hacc.owns.holds, fun fd hfd => ?_⟩
      have hmem := KsServer.watched_mem_owned hfd
      exact ⟨hacc.owns.holds.held ▸ hmem, hacc.owns.nonblocking fd hmem, hacc.small fd hmem⟩
  · rintro result held rfl
    cases hinv with
    | returned _ howns => exact ⟨howns.holds, howns.holds.settled⟩

/-- A process for one connection. -/
def soloArgv : List CStr :=
  [.ofBytes (ascii "kessel"), .ofBytes (ascii "--max-clients"), .ofBytes (ascii "1")]

def soloConfig : KsConfig := ⟨1, by decide, by decide⟩

def soloCalls : KsStartCalls :=
  ⟨⟨some 3, true, true, true, true, ⟨true, true⟩⟩, true, true, true, 0⟩

def soloSlot : Fin soloConfig.maxClients := ⟨0, by decide⟩

/-- What it holds before its loop. -/
def soloHeld : KsHeld :=
  ⟨⟨{.registry, .pubsub, .store, .descriptor 3}, [.descriptor 3, .store, .pubsub, .registry], [], []⟩,
    {3}, 0⟩

/-- The process is ready for its loop. -/
theorem ksServerMain_solo : ksServerMain (fun _ => none) soloArgv soloCalls =
    .running soloConfig ⟨ksServerInit soloConfig 3 0, .top⟩ soloHeld := by
  have hload : ksConfigLoad (fun _ => none) ksConfigInit soloArgv =
      some { ksConfigInit with maxClients := 1 } := by decide
  rw [ksServerMain, hload]
  rfl

/-- The process when a connection has been accepted, and another one rejected
because there is no slot for it. -/
def soloAccepted : KsServer soloConfig × KsHeld :=
  acceptPhaseHeld (startIteration (ksServerInit soloConfig 3 0) 0) soloHeld (fun fd => fd = 3)
    [.interrupted, .ok 5 ⟨true, true⟩ fun _ => true, .ok 6 ⟨true, true⟩ fun _ => true]

/-- The process between two iterations, with one connection. -/
def soloServed : KsServer soloConfig × KsHeld :=
  clientTurnHeld soloAccepted.1 soloAccepted.2 soloSlot (fun fd => fd = 3) (fun _ => false) idle

/-- It has gone once through its loop. -/
theorem reachedAt_soloServed (refused : Nat → Prop) :
    KsProcess.ReachedAt refused 0 (.running soloConfig ⟨soloServed.1, .top⟩ soloServed.2) := by
  have hstart : KsProcess.ReachedAt refused 0 (ksServerMain (fun _ => none) soloArgv soloCalls) :=
    .start 0 (fun _ => none) soloArgv soloCalls
  rw [ksServerMain_solo] at hstart
  have hselect := hstart.step (.select 0 0 (ksServerInit soloConfig 3 0) soloHeld (fun fd => fd = 3)
    (fun _ => false) (UInt64.le_refl 0)
    (fun fd hfd => .inl ⟨rfl, of_decide_eq_true hfd⟩) (by simp))
  have haccept := hselect.step (.accept 0 _ _ _ _
    [.interrupted, .ok 5 ⟨true, true⟩ fun _ => true, .ok 6 ⟨true, true⟩ fun _ => true]
    ⟨by decide, fun _ _ => ⟨by decide, fun _ _ => trivial⟩⟩)
  have hturn := haccept.step (.turn 0 0 soloAccepted.1 soloAccepted.2 soloSlot _ _ ⟨[], [], idle.env⟩
    orderly_idle)
  exact hturn.step (.next 0 soloServed.1 soloServed.2 _ _)

/-- It has returned everything when it is stopped. -/
theorem accounts_soloServed :
    (serverEnd soloServed.1 soloServed.2).2.ledger.Holds ∅ ∧
      (serverEnd soloServed.1 soloServed.2).2.ledger.taken.Perm
        (serverEnd soloServed.1 soloServed.2).2.ledger.given :=
  (KsProcess.ReachedAt.accounts
    ((reachedAt_soloServed fun _ => False).step (.stop 0 soloServed.1 soloServed.2))).2 0 _ rfl

/-- **Every connection is counted.**  A descriptor that `ks_accept` has returned is
in use, was closed, or has been rejected, and `INFO` prints how many were
rejected. -/
theorem KsProcess.ReachedAt.counts {t : UInt64} {cfg : KsConfig} {loop : KsLoop cfg} {held : KsHeld}
    (h : KsProcess.ReachedAt refused t (.running cfg loop held)) :
    UInt64.ofNat held.offered =
      UInt64.ofNat (loop.server.usedSlots.card + loop.server.closed.length) +
        loop.server.metrics.rejectedConnections := by
  cases h.inv with
  | running hloop hrun hacc => rw [← hacc.offered, (hloop.running hrun).reached.countsConnections]

/-- Two connections were offered, and one of them rejected. -/
theorem counts_soloServed :
    soloServed.2.offered = 2 ∧ soloServed.1.metrics.rejectedConnections = 1 ∧
      UInt64.ofNat soloServed.2.offered =
        UInt64.ofNat (soloServed.1.usedSlots.card + soloServed.1.closed.length) +
          soloServed.1.metrics.rejectedConnections :=
  ⟨by decide, by decide, (reachedAt_soloServed fun _ => False).counts⟩

end Kessel
