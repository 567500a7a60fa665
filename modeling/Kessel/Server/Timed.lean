import Kessel.Protocol.Decode
import Kessel.Server.Run

/-!
# Kessel.Server.Timed

The event loop and its clock.

The readings of the store's clock are answers of the environment; here they do
not go backwards, within a command (`Orderly.read`), from one command to the
next, and from one step of the loop to the next.  Allocations are refused at the
times of a set `refused` only (`Orderly.heap`).  `KsTimedAct` is an act of a slot
at its time, and `KsTimedStep` a step of the loop.

* `clientTurn_timed` — a turn is a sequence of timed acts, then at most one
  close.
-/

namespace Kessel

open CStr (ascii)
open Relation (ReflTransGen)

variable {cfg : KsConfig} {i : Fin cfg.maxClients} {s s' : KsServer cfg} {t t' u : UInt64}
  {refused : Nat → Prop}

/-! ## what the environment answers -/

/-- The commands at any offsets read the clock in order, from `t` to `t'`, and
get their allocations at the times that are not `refused`. -/
structure Orderly (refused : Nat → Prop) (t : UInt64) (env : Nat → KsCommandEnv) (t' : UInt64) :
    Prop where
  le : t ≤ t'
  first : ∀ n, t ≤ (env n).clock.first
  read : ∀ n, (env n).clock.first ≤ (env n).clock.second
  last : ∀ n, (env n).clock.second ≤ t'
  next : ∀ m n, m < n → (env m).clock.second ≤ (env n).clock.first
  heap : ∀ n site, (env n).heap site = false → refused (env n).clock.second.toNat

/-- So do the commands that come with the results of `ks_recv`. -/
def RecvsOrderly (refused : Nat → Prop) (t : UInt64) : List KsRecv → UInt64 → Prop
  | [], t' => t ≤ t'
  | .ok _ env :: recvs, t' => ∃ u, Orderly refused t env u ∧ RecvsOrderly refused u recvs t'
  | _ :: recvs, t' => RecvsOrderly refused t recvs t'

/-- And so do those of a turn. -/
def KsTurn.Orderly (refused : Nat → Prop) (t : UInt64) (turn : KsTurn) (t' : UInt64) : Prop :=
  ∃ u, RecvsOrderly refused t turn.recvs u ∧ Kessel.Orderly refused u turn.env t'

/-- The commands of a read take time. -/
theorem RecvsOrderly.le {recvs : List KsRecv} (h : RecvsOrderly refused t recvs t') : t ≤ t' := by
  induction recvs generalizing t with
  | nil => exact h
  | cons recv recvs ih =>
    cases recv with
    | ok data env =>
      obtain ⟨u, henv, hrest⟩ := h
      exact UInt64.le_trans henv.le (ih hrest)
    | _ => exact ih h

/-- The commands may have begun earlier. -/
theorem Orderly.mono {env : Nat → KsCommandEnv} (h : Orderly refused t env t') (hu : u ≤ t) :
    Orderly refused u env t' :=
  ⟨UInt64.le_trans hu h.le, fun n => UInt64.le_trans hu (h.first n), h.read, h.last, h.next, h.heap⟩

/-- So may those of a read. -/
theorem RecvsOrderly.mono {recvs : List KsRecv} (h : RecvsOrderly refused t recvs t') (hu : u ≤ t) :
    RecvsOrderly refused u recvs t' := by
  induction recvs with
  | nil => exact UInt64.le_trans hu h
  | cons recv recvs ih =>
    cases recv with
    | ok data env =>
      obtain ⟨v, henv, hrest⟩ := h
      exact ⟨v, henv.mono hu, hrest⟩
    | _ => exact ih h

/-! ## acts -/

/-- What is done for the client of a slot, and when. -/
inductive KsTimedAct (refused : Nat → Prop) (i : Fin cfg.maxClients) :
    UInt64 × KsServer cfg → UInt64 × KsServer cfg → Prop where
  | command (t : UInt64) (s : KsServer cfg) (line : Nat) (text : List UInt8) (env : KsCommandEnv) :
      (s.clients i).used = true → (s.clients i).pendingLen < ksOutputHighWater →
      StrAt (s.clients i).input line text → text.length ≤ ksInputCap →
      t ≤ env.clock.first → env.clock.first ≤ env.clock.second →
      (∀ site, env.heap site = false → refused env.clock.second.toNat) →
      KsTimedAct refused i (t, s) (env.clock.second, (handleCommand s i line env).1)
  | answer (t : UInt64) (s : KsServer cfg) (request : KsRequest) (message : List UInt8) :
      (s.clients i).used = true → (s.clients i).pendingLen < ksOutputHighWater →
      message = request.message → (∀ line, request ≠ .command line) →
      KsTimedAct refused i (t, s)
        (t, s.setClient i (queueError ((s.clients i).log (.request request)) message).1)
  | write (t : UInt64) (s : KsServer cfg) (sends : List KsSend) :
      (s.clients i).used = true → (s.clients i).dropConnection = false →
      KsTimedAct refused i (t, s) (t, s.setClient i (writeClient (s.clients i) sends).1)
  | passive (t : UInt64) (s : KsServer cfg) (c : KsClient) :
      (s.clients i).used = true → (s.clients i).Passive c →
      KsTimedAct refused i (t, s) (t, s.setClient i c)

/-- A sequence of acts, from one time to another. -/
def KsTimedActs (refused : Nat → Prop) (i : Fin cfg.maxClients) (t : UInt64) (s : KsServer cfg)
    (t' : UInt64) (s' : KsServer cfg) : Prop :=
  ReflTransGen (KsTimedAct refused i) (t, s) (t', s')

/-- A timed act is an act. -/
theorem KsTimedAct.act {p q : UInt64 × KsServer cfg} (h : KsTimedAct refused i p q) :
    KsAct i p.2 q.2 := by
  cases h with
  | command t s line text env hused hp => exact .command s line env hused hp
  | answer t s request message hused hp hm => exact .answer s request message hused hp hm
  | write t s sends hused hd => exact .write s sends hused hd
  | passive t s c hused hpassive => exact .passive s c hused hpassive

/-- Timed acts are acts. -/
theorem KsTimedActs.acts (h : KsTimedActs refused i t s t' s') : ReflTransGen (KsAct i) s s' :=
  ReflTransGen.lift Prod.snd (fun _ _ => KsTimedAct.act) _ _ h

/-- What a sequence of timed acts does. -/
theorem KsTimedActs.acted (h : KsTimedActs refused i t s t' s') (hok : s.Ok) : Acted i s s' :=
  acted_of_acts hok h.acts

/-! ## one line -/

/-- A line that is answered without a command. -/
theorem timedActs_answer (refused : Nat → Prop) (h : s.Ok) (hused : (s.clients i).used = true)
    (hp : (s.clients i).pendingLen < ksOutputHighWater) {request : KsRequest}
    (hr : ∀ line, request ≠ .command line) {message : List UInt8} (hm : message = request.message) :
    ∃ c, queueError ((s.clients i).log (.request request)) message = (c, 0) ∧ c.Ok ∧
      c.used = true ∧ KsTimedActs refused i t s t (s.setClient i c) := by
  obtain ⟨c, hqueue, hok, hqueued⟩ := answer_spec (h.clients i) hp hm
  have hact : KsTimedAct refused i (t, s)
      (t, s.setClient i (queueError ((s.clients i).log (.request request)) message).1) :=
    .answer t s request message hused hp hm hr
  rw [hqueue] at hact
  exact ⟨c, hqueue, hok, hqueued.same.used.trans hused, .single hact⟩

/-- A passive change behind other acts. -/
theorem KsTimedActs.passive (h : KsTimedActs refused i t s t' (s'.setClient i c₀))
    (hused : c₀.used = true) {c : KsClient} (hpassive : c₀.Passive c) :
    KsTimedActs refused i t s t' (s'.setClient i c) := by
  have hact : KsTimedAct refused i (t', s'.setClient i c₀)
      (t', (s'.setClient i c₀).setClient i c) :=
    .passive _ _ _ (by simpa using hused) (by simpa using hpassive)
  rw [setClient_setClient] at hact
  exact h.tail hact

/-- A line that is passed to `handle_command`, with the byte behind it saved and
put back. -/
theorem timedActs_command (h : s.Ok) (hused : (s.clients i).used = true)
    (hp : (s.clients i).pendingLen < ksOutputHighWater) {line newline : Nat} (hle : line ≤ newline)
    (hin : newline < (s.clients i).inputLen)
    (hnul : ∀ k, line ≤ k → k ≤ newline → (s.clients i).input k ≠ 0) {env : KsCommandEnv}
    (ht : t ≤ env.clock.first) (hclock : env.clock.first ≤ env.clock.second)
    (hheap : ∀ site, env.heap site = false → refused env.clock.second.toNat)
    {r : KsServer cfg × Int}
    (hr : handleCommand (markLine s i (newline + 1)) i line env = r) :
    r.2 = 0 ∧ KsTimedActs refused i t s env.clock.second
      (if newline + 1 < (s.clients i).inputLen then
        r.1.setClient i { r.1.clients i with
          input := (r.1.clients i).input.set (newline + 1) ((s.clients i).input (newline + 1)) }
      else r.1) := by
  have hcap := (h.clients i).inputLen_le
  have hmark : KsTimedAct refused i (t, s) (t, markLine s i (newline + 1)) :=
    .passive t s _ hused ⟨rfl, rfl, rfl, rfl, rfl, rfl, rfl, hcap, [], by simp, by simp⟩
  have hok₁ := (acted_of_act h hmark.act).ok
  have hc₁ : (markLine s i (newline + 1)).clients i =
      { s.clients i with input := (s.clients i).input.set (newline + 1) 0 } := by simp [markLine]
  generalize markLine s i (newline + 1) = s₁ at *
  have hused₁ : (s₁.clients i).used = true := by rw [hc₁]; exact hused
  have hp₁ : (s₁.clients i).pendingLen < ksOutputHighWater := by rw [hc₁]; exact hp
  have hstr : (s₁.clients i).input.IsStr line (newline + 1 - line) := by
    rw [hc₁]
    exact isStr_line hle hnul
  have hlen : ((s₁.clients i).input.read line (newline + 1 - line)).length ≤ ksInputCap := by
    rw [Mem.length_read]
    omega
  have hact₂ : KsTimedAct refused i (t, s₁) (env.clock.second, r.1) := by
    rw [← hr]
    exact .command t s₁ line _ env hused₁ hp₁ (.of_isStr hstr) hlen ht hclock hheap
  have hcommand := handleCommand_spec hok₁ hp₁ line env
  rw [hr] at hcommand
  refine ⟨hcommand.result, ?_⟩
  have hrun : KsTimedActs refused i t s env.clock.second r.1 := (ReflTransGen.single hmark).tail hact₂
  split
  · have hrestore : KsTimedAct refused i (env.clock.second, r.1)
        (env.clock.second, r.1.setClient i { r.1.clients i with
          input := (r.1.clients i).input.set (newline + 1) ((s.clients i).input (newline + 1)) }) := by
      refine .passive _ _ _ (by rw [hcommand.same.used]; exact hused₁)
        ⟨rfl, rfl, rfl, rfl, rfl, rfl, rfl, ?_, [], by simp, by simp⟩
      rw [show (r.1.clients i).inputLen = (s₁.clients i).inputLen from hcommand.same.inputLen, hc₁]
      exact hcap
    exact hrun.tail hrestore
  · exact hrun

/-! ## `process_requests` -/

/-- Time goes on, and acts are done. -/
def TimedTo (refused : Nat → Prop) (i : Fin cfg.maxClients) (t : UInt64) (s : KsServer cfg) (t' : UInt64)
    (s' : KsServer cfg) : Prop :=
  ∃ u, u ≤ t' ∧ KsTimedActs refused i t s u s'

/-- Nothing is done. -/
theorem TimedTo.refl (h : t ≤ t') (s : KsServer cfg) : TimedTo refused i t s t' s := ⟨t, h, .refl⟩

/-- Acts are done in time. -/
theorem TimedTo.of_acts (hacts : KsTimedActs refused i t s u s') (h : u ≤ t') :
    TimedTo refused i t s t' s' :=
  ⟨u, h, hacts⟩

/-- Acts behind acts. -/
theorem TimedTo.head {s'' : KsServer cfg} (hacts : KsTimedActs refused i t s u s')
    (h : TimedTo refused i u s' t' s'') : TimedTo refused i t s t' s'' := by
  obtain ⟨v, hv, hrest⟩ := h
  exact ⟨v, hv, hacts.trans hrest⟩

/-- **The loop of `process_requests`** serves its lines one after the other. -/
theorem processLoop_timed (h : s.Ok) (hused : (s.clients i).used = true)
    {env : Nat → KsCommandEnv} (henv : Orderly refused t env t') (fuel consumed : Nat)
    (hu : ∀ n, consumed ≤ n → u ≤ (env n).clock.first) (hle : u ≤ t') :
    TimedTo refused i u s t' (processLoop i env fuel s consumed).1 := by
  induction fuel generalizing s consumed u with
  | zero => exact .refl hle s
  | succ fuel ih =>
    rw [processLoop]
    simp only
    split
    · exact .refl hle s
    next hmore =>
    split
    · exact .refl hle s
    next hp =>
    have hp : (s.clients i).pendingLen < ksOutputHighWater := by omega
    split
    · exact .refl hle s
    next newline hchr =>
    obtain ⟨hline, hlt, -, -⟩ := Mem.memchr_eq_some hchr
    generalize (if newline + 1 - consumed - 1 > 0 ∧ (s.clients i).input (newline + 1 - 2) = 13 then
      newline + 1 - consumed - 2 else newline + 1 - consumed - 1) = contentLen
    split
    · -- too large: an answer, and the end of the input
      have hm : ascii "request too large" = KsRequest.message .tooLarge := rfl
      obtain ⟨c, hqueue, hok, hcused, hacts⟩ :=
        timedActs_answer refused (t := u) h hused hp (by simp) hm
      rw [hqueue]
      exact .of_acts (hacts.passive hcused
        ⟨rfl, rfl, rfl, rfl, rfl, rfl, rfl, hok.inputLen_le, [], by simp, by simp⟩) hle
    · split
      · -- a NUL in the line
        have hm : ascii "invalid command" = KsRequest.message .rejected := rfl
        obtain ⟨c, hqueue, hok, hcused, hacts⟩ :=
          timedActs_answer refused (t := u) h hused hp (by simp) hm
        rw [hqueue]
        have hacted := hacts.acted h
        refine .head hacts (ih hacted.ok (hacted.used.trans hused) _ (fun n hn => ?_) hle)
        exact hu n (by omega)
      · next hnone =>
        have hnul (k : Nat) (hk : consumed ≤ k) (hk' : k ≤ newline) :
            (s.clients i).input k ≠ 0 := by
          intro hzero
          rw [Bool.not_eq_true, Option.isSome_eq_false_iff, Option.isNone_iff_eq_none,
            Mem.memchr_eq_none, Mem.mem_read] at hnone
          exact hnone ⟨k - consumed, by omega, by rw [Nat.add_sub_cancel' hk, hzero]⟩
        obtain ⟨hresult, hacts⟩ := timedActs_command h hused hp hline (by omega) hnul
          (hu consumed (le_refl _)) (henv.read consumed) (henv.heap consumed)
          (Eq.refl (handleCommand (markLine s i (newline + 1)) i consumed (env consumed)))
        have hacted := hacts.acted h
        change TimedTo refused i u s t'
          (if (handleCommand (markLine s i (newline + 1)) i consumed (env consumed)).2 ≠ 0 then _
          else _ : KsServer cfg × Nat × Int).1
        rw [if_neg (not_not_intro hresult)]
        refine .head hacts (ih hacted.ok (hacted.used.trans hused) _ (fun n hn => ?_)
          (henv.last consumed))
        exact henv.next consumed n (by omega)

/-- **`process_requests`.** -/
theorem processRequests_timed (h : s.Ok) (hused : (s.clients i).used = true)
    {env : Nat → KsCommandEnv} (henv : Orderly refused t env t') :
    TimedTo refused i t s t' (processRequests s i env).1 := by
  have hloop := processLoop_timed h hused henv (s.clients i).inputLen 0
    (fun n _ => henv.first n) henv.le
  have hspec := processLoop_spec h hused env (Nat.zero_le _) (by rw [Nat.zero_add])
  unfold processRequests
  generalize processLoop i env (s.clients i).inputLen s 0 = r at *
  obtain ⟨s', consumed, result⟩ := r
  have hresult : result = 0 := hspec.result
  obtain ⟨u, hu, hacts⟩ := hloop
  have hacted := hacts.acted h
  have hcap := (hacted.ok.clients i).inputLen_le
  simp only at hacts hacted hcap ⊢
  rw [if_neg (not_not_intro hresult)]
  split
  · refine .of_acts (hacts.tail (.passive u s' _ (hacted.used.trans hused) ?_)) hu
    exact ⟨rfl, rfl, rfl, rfl, rfl, rfl, rfl, (Nat.sub_le _ _).trans hcap, [], by simp, by simp⟩
  · exact .of_acts hacts hu

/-! ## `read_client` -/

/-- The end of the input. -/
theorem KsTimedActs.finish {c : KsClient} (h : KsTimedActs refused i t s u (s'.setClient i c))
    (hused : c.used = true) (hle : u ≤ t') : TimedTo refused i t s t' (s'.setClient i c.finish) :=
  .of_acts (h.passive hused ⟨rfl, rfl, rfl, rfl, rfl, rfl, rfl, Nat.zero_le _,
    [.discarded (c.input.read 0 c.inputLen)], rfl, by simp [KsEvent.active]⟩) hle

/-- What `read_client` looks at before it receives. -/
theorem timed_before (h : s.Ok) (hused : (s.clients i).used = true) (hle : t ≤ t')
    {r : KsServer cfg × Int}
    (hr : (s.clients i).pendingLen < ksOutputHighWater → (s.clients i).inputLen < ksInputCap →
      TimedTo refused i t s t' r.1) :
    TimedTo refused i t s t'
      (if (s.clients i).pendingLen ≥ ksOutputHighWater then (s, 0)
      else if (s.clients i).inputLen = ksInputCap then
        let (client, result) :=
          queueError ((s.clients i).log (.request .tooLarge)) (ascii "request too large")
        if result ≠ 0 then (s.setClient i client, -1) else (s.setClient i client.finish, 0)
      else r).1 := by
  by_cases hp : (s.clients i).pendingLen ≥ ksOutputHighWater
  · rw [if_pos hp]
    exact .refl hle s
  rw [if_neg hp]
  by_cases hfull : (s.clients i).inputLen = ksInputCap
  · have hm : ascii "request too large" = KsRequest.message .tooLarge := rfl
    obtain ⟨c, hqueue, -, hcused, hacts⟩ :=
      timedActs_answer refused (t := t) h hused (by omega) (by simp) hm
    rw [if_pos hfull, hqueue]
    exact hacts.finish hcused hle
  · rw [if_neg hfull]
    have hcap := (h.clients i).inputLen_le
    exact hr (by omega) (by omega)

/-- Bytes that arrive. -/
theorem receive_timed (h : s.Ok) (hused : (s.clients i).used = true) (data : List UInt8) :
    KsTimedAct refused i (t, s) (t, s.setClient i ((s.clients i).receive data)) := by
  have hcap := (h.clients i).inputLen_le
  have hlen : (data.take (ksInputCap - (s.clients i).inputLen)).length ≤
      ksInputCap - (s.clients i).inputLen := by
    rw [List.length_take]
    exact Nat.min_le_left _ _
  refine .passive t s _ hused ⟨rfl, rfl, rfl, rfl, rfl, rfl, rfl, ?_, [.received _], rfl,
    by simp [KsEvent.active]⟩
  simp only [KsClient.receive, KsClient.log_inputLen]
  omega

/-- **`read_client`.** -/
theorem readClient_timed (h : s.Ok) (hused : (s.clients i).used = true) {recvs : List KsRecv}
    (hrecvs : RecvsOrderly refused t recvs t') :
    TimedTo refused i t s t' (readClient s i recvs).1 := by
  induction recvs generalizing s t with
  | nil =>
    unfold readClient
    exact timed_before h hused hrecvs fun _ _ => .refl hrecvs s
  | cons recv recvs ih =>
    have hle := hrecvs.le
    unfold readClient
    refine timed_before h hused hle fun hp hroom => ?_
    have hpassive (e : KsEvent) (he : e.active = false ∧ e ≠ .dropped) :
        KsTimedAct refused i (t, s) (t, s.setClient i ((s.clients i).log e)) :=
      .passive t s _ hused ⟨rfl, rfl, rfl, rfl, rfl, rfl, rfl, by simpa using hroom.le, [e], rfl,
        by simpa using he⟩
    cases recv with
    | wouldBlock => exact .refl hle s
    | error => exact .of_acts (.single (hpassive .failed (by simp [KsEvent.active]))) hle
    | closed =>
      have heof := hpassive .eof (by simp [KsEvent.active])
      have hm : ascii "incomplete command" = KsRequest.message .incomplete := rfl
      dsimp only
      by_cases hempty : ((s.clients i).log .eof).inputLen ≠ 0
      · rw [if_pos hempty]
        have hok := (acted_of_act h heof.act).ok
        obtain ⟨c, hqueue, -, hcused, hacts⟩ :=
          timedActs_answer refused (i := i) (t := t) hok (by simpa using hused)
            (by simpa using hp) (by simp) hm
        rw [setClient_setClient] at hacts
        simp only [setClient_clients, Function.update_self] at hqueue
        rw [hqueue]
        exact KsTimedActs.finish (ReflTransGen.head heof hacts) hcused hle
      · rw [if_neg hempty]
        exact KsTimedActs.finish (.single heof) hused hle
    | ok data env =>
      obtain ⟨u, henv, hrest⟩ := hrecvs
      have hreceive := (receive_timed h hused data : KsTimedAct refused i (t, s) _)
      have hacted := acted_of_act h hreceive.act
      dsimp only
      generalize s.setClient i ((s.clients i).receive data) = s₁ at *
      have hused₁ := hacted.used.trans hused
      have hresult := (processRequests_spec hacted.ok hused₁ env).result
      obtain ⟨v, hv, hacts⟩ := processRequests_timed hacted.ok hused₁ henv
      generalize processRequests s₁ i env = r at *
      obtain ⟨s₂, result⟩ := r
      simp only at hresult hacts ⊢
      rw [if_neg (by simp [hresult])]
      have hacts : KsTimedActs refused i t s v s₂ := ReflTransGen.head hreceive hacts
      have hacted₂ := hacts.acted h
      split
      · exact .of_acts hacts (UInt64.le_trans hv hrest.le)
      · exact .head hacts (ih hacted₂.ok (hacted₂.used.trans hused) (hrest.mono hv))

/-! ## a turn -/

/-- The reading part of a turn. -/
theorem turnRead_timed (h : s.Ok) (hused : (s.clients i).used = true) (readable : Bool)
    {recvs : List KsRecv} (hrecvs : RecvsOrderly refused t recvs t') :
    TimedTo refused i t s t' (turnRead s i readable recvs).1 := by
  unfold turnRead
  cases readable with
  | false => exact .refl hrecvs.le s
  | true =>
    have hread := readClient_timed h hused hrecvs
    generalize readClient s i recvs = r at *
    exact hread

/-- The writing part of a turn. -/
theorem turnWrite_timed (refused : Nat → Prop) (hused : (s.clients i).used = true)
    (hd : (s.clients i).dropConnection = false) (writable : Bool) (sends : List KsSend) :
    KsTimedActs refused i t s t (turnWrite s i writable sends).1 := by
  unfold turnWrite
  cases writable with
  | false => exact .refl
  | true => exact .single (.write t s sends hused hd)

/-- The part of a turn that processes what was left over. -/
theorem turnProcess_timed (h : s.Ok) (hused : (s.clients i).used = true)
    {env : Nat → KsCommandEnv} (henv : Orderly refused t env t') :
    TimedTo refused i t s t' (turnProcess s i env).1 := by
  unfold turnProcess
  split
  · have hrequests := processRequests_timed h hused henv
    generalize processRequests s i env = r at *
    exact hrequests
  · exact .refl henv.le s

/-- **The turn of a client** is a sequence of acts, then at most one close. -/
theorem clientTurn_timed (h : s.Ok) (hused : (s.clients i).used = true) (readFds writeFds : Nat → Bool)
    {turn : KsTurn} (hturn : turn.Orderly refused t t') :
    ∃ s₁, TimedTo refused i t s t' s₁ ∧ (clientTurn s i readFds writeFds turn = s₁ ∨
      clientTurn s i readFds writeFds turn = closeClient s₁ i) := by
  obtain ⟨u, hrecvs, henv⟩ := hturn
  unfold clientTurn
  rw [if_neg (not_not_intro hused)]
  dsimp only
  obtain ⟨v, hv, hacts⟩ := turnRead_timed h hused (readFds (s.clients i).fd) hrecvs
  generalize turnRead s i (readFds (s.clients i).fd) turn.recvs = r at *
  obtain ⟨s₁, failed⟩ := r
  simp only at hacts ⊢
  have hacted := hacts.acted h
  have hend : v ≤ t' := UInt64.le_trans hv henv.le
  cases hstop : (s.clients i).dropConnection || failed with
  | true => exact ⟨s₁, .of_acts hacts hend, .inr (by simp)⟩
  | false =>
    have hd₁ : (s₁.clients i).dropConnection = false := by
      rw [hacted.dropConnection]
      exact (Bool.or_eq_false_iff.mp hstop).1
    simp only [Bool.false_eq_true, if_false]
    have hwrite := turnWrite_timed refused (t := v) (hacted.used.trans hused) hd₁
      (writeFds (s.clients i).fd) turn.sends
    generalize turnWrite s₁ i (writeFds (s.clients i).fd) turn.sends = r at *
    obtain ⟨s₂, failed'⟩ := r
    have hacts₂ : KsTimedActs refused i t s v s₂ := hacts.trans hwrite
    have hacted₂ := hacts₂.acted h
    simp only
    cases failed' with
    | true => exact ⟨s₂, .of_acts hacts₂ hend, .inr (by simp)⟩
    | false =>
      have hprocess := turnProcess_timed hacted₂.ok (hacted₂.used.trans hused) (henv.mono hv)
      simp only [Bool.false_eq_true, if_false]
      generalize turnProcess s₂ i turn.env = r at *
      obtain ⟨s₃, failed''⟩ := r
      simp only at hprocess ⊢
      refine ⟨s₃, .head hacts₂ hprocess, ?_⟩
      split
      · exact .inr rfl
      · exact .inl rfl

/-! ## the server, piece by piece -/

/-- What the server does, and when. -/
inductive KsTimedMove (refused : Nat → Prop) :
    UInt64 × KsServer cfg → UInt64 × KsServer cfg → Prop where
  | act {p q : UInt64 × KsServer cfg} {i : Fin cfg.maxClients} :
      KsTimedAct refused i p q → KsTimedMove refused p q
  | close (t : UInt64) (s : KsServer cfg) (i : Fin cfg.maxClients) :
      (s.clients i).used = true → KsTimedMove refused (t, s) (t, closeClient s i)
  | accept (t : UInt64) (s : KsServer cfg) (fd : Nat) (heap : KsHeap) :
      KsTimedMove refused (t, s) (t, acceptClient s fd heap)
  | iterate (t now : UInt64) (s : KsServer cfg) :
      t ≤ now → KsTimedMove refused (t, s) (now, startIteration s now)
  | backoff (t : UInt64) (s : KsServer cfg) (ticks : Nat) :
      KsTimedMove refused (t, s) (t, { s with acceptBackoffTicks := ticks })
  | wait (t t' : UInt64) (s : KsServer cfg) : t ≤ t' → KsTimedMove refused (t, s) (t', s)

/-- A sequence of moves. -/
def KsTimedMoves (refused : Nat → Prop) (t : UInt64) (s : KsServer cfg) (t' : UInt64)
    (s' : KsServer cfg) : Prop :=
  ReflTransGen (KsTimedMove refused) (t, s) (t', s')

/-- Time passes, or the server makes a step. -/
theorem KsTimedMove.step {p q : UInt64 × KsServer cfg} (h : KsTimedMove refused p q) :
    KsServerStep p.2 q.2 ∨ p.2 = q.2 := by
  cases h with
  | act hact => exact .inl (.act hact.act)
  | close t s i hused => exact .inl (.close s i hused)
  | accept t s fd heap => exact .inl (.accept s fd heap)
  | iterate t now s hle => exact .inl (.iterate s now)
  | backoff t s ticks => exact .inl (.backoff s ticks)
  | wait t t' s hle => exact .inr rfl

/-- A timed move leads to reachable states. -/
theorem KsTimedMove.reached {p q : UInt64 × KsServer cfg} (h : KsTimedMove refused p q)
    (hreached : p.2.Reached) : q.2.Reached := by
  rcases h.step with hstep | heq
  · exact .step hreached hstep
  · exact heq ▸ hreached

/-- A timed move only takes ids. -/
theorem KsTimedMove.accepted_le {p q : UInt64 × KsServer cfg} (h : KsTimedMove refused p q)
    (hok : p.2.Ok) : p.2.accepted ≤ q.2.accepted := by
  rcases h.step with hstep | heq
  · exact hstep.accepted_le hok
  · exact heq ▸ le_rfl

namespace KsTimedMoves

variable {s'' : KsServer cfg} {t'' : UInt64}

theorem refl (t : UInt64) (s : KsServer cfg) : KsTimedMoves refused t s t s := ReflTransGen.refl

theorem single (h : KsTimedMove refused (t, s) (t', s')) : KsTimedMoves refused t s t' s' :=
  ReflTransGen.single h

theorem trans (h : KsTimedMoves refused t s t' s')
    (h' : KsTimedMoves refused t' s' t'' s'') : KsTimedMoves refused t s t'' s'' :=
  ReflTransGen.trans h h'

theorem wait (hle : t ≤ t') (s : KsServer cfg) : KsTimedMoves refused t s t' s :=
  .single (.wait t t' s hle)

end KsTimedMoves

/-- **`accept_clients`.** -/
theorem acceptClients_moves (s : KsServer cfg) (budget : Nat) (accepts : List KsAccept) :
    KsTimedMoves refused t s t (acceptClients s budget accepts).1 := by
  induction budget generalizing s accepts with
  | zero => exact .refl t s
  | succ budget ih =>
    cases accepts with
    | nil => exact .refl t s
    | cons accept accepts =>
      cases accept with
      | ok fd heap => exact .trans (.single (.accept t s fd heap)) (ih _ accepts)
      | _ => exact .refl t s

/-- The phase that accepts. -/
theorem acceptPhase_moves (s : KsServer cfg) (readFds : Nat → Bool) (accepts : List KsAccept) :
    KsTimedMoves refused t s t (acceptPhase s readFds accepts) := by
  have hmoves : KsTimedMoves refused t s t (acceptClients s ksAcceptBudget accepts).1 :=
    acceptClients_moves s ksAcceptBudget accepts
  unfold acceptPhase
  split
  · generalize acceptClients s ksAcceptBudget accepts = r at *
    obtain ⟨s', result⟩ := r
    simp only at hmoves ⊢
    split
    · exact hmoves.trans (.single (.backoff t s' 10))
    · exact hmoves
  · exact .refl t s

/-- **The turn of a slot.** -/
theorem clientTurn_moves (h : s.Ok) (readFds writeFds : Nat → Bool) {turn : KsTurn}
    (hturn : turn.Orderly refused t t') :
    KsTimedMoves refused t s t' (clientTurn s i readFds writeFds turn) := by
  by_cases hused : (s.clients i).used = true
  · obtain ⟨s₁, ⟨u, hu, hacts⟩, heq⟩ := clientTurn_timed h hused readFds writeFds hturn
    have hmoves : KsTimedMoves refused t s t' s₁ :=
      .trans (ReflTransGen.mono (fun _ _ => .act) _ _ hacts) (.wait hu s₁)
    rcases heq with heq | heq <;> rw [heq]
    · exact hmoves
    · exact hmoves.trans (.single (.close t' s₁ i ((hacts.acted h).used.trans hused)))
  · have hsame : clientTurn s i readFds writeFds turn = s := by
      unfold clientTurn
      exact if_pos hused
    obtain ⟨u, hrecvs, henv⟩ := hturn
    rw [hsame]
    exact .wait (UInt64.le_trans hrecvs.le henv.le) s

/-! ## the event loop -/

/-- One phase of one iteration, from one time to another. -/
inductive KsTimedStep (refused : Nat → Prop) : UInt64 × KsLoop cfg → UInt64 × KsLoop cfg → Prop where
  | interrupted (t now : UInt64) (s : KsServer cfg) : t ≤ now →
      KsTimedStep refused (t, ⟨s, .top⟩) (now, ⟨startIteration s now, .top⟩)
  | select (t now : UInt64) (s : KsServer cfg) (readFds writeFds : Nat → Bool) : t ≤ now →
      (∀ fd, readFds fd = true → s.WatchedForReading fd) →
      (∀ fd, writeFds fd = true → s.WatchedForWriting fd) →
      KsTimedStep refused (t, ⟨s, .top⟩) (now, ⟨startIteration s now, .selected readFds writeFds⟩)
  | accept (t : UInt64) (s : KsServer cfg) (readFds writeFds : Nat → Bool)
      (accepts : List KsAccept) : FreshFds s accepts →
      KsTimedStep refused (t, ⟨s, .selected readFds writeFds⟩)
        (t, ⟨acceptPhase s readFds accepts, .turns 0 readFds writeFds⟩)
  | turn (t t' : UInt64) (s : KsServer cfg) (i : Fin cfg.maxClients) (readFds writeFds : Nat → Bool)
      (turn : KsTurn) : turn.Orderly refused t t' →
      KsTimedStep refused (t, ⟨s, .turns i readFds writeFds⟩)
        (t', ⟨clientTurn s i readFds writeFds turn, .turns (i + 1) readFds writeFds⟩)
  | next (t : UInt64) (s : KsServer cfg) (readFds writeFds : Nat → Bool) :
      KsTimedStep refused (t, ⟨s, .turns cfg.maxClients readFds writeFds⟩) (t, ⟨s, .top⟩)
  | stop (t : UInt64) (s : KsServer cfg) :
      KsTimedStep refused (t, ⟨s, .top⟩) (t, ⟨shutdown s, .stopped⟩)
  | fail (t now : UInt64) (s : KsServer cfg) : t ≤ now →
      KsTimedStep refused (t, ⟨s, .top⟩) (now, ⟨shutdown (startIteration s now), .stopped⟩)

/-- A timed step is a step of the loop. -/
theorem KsTimedStep.step {p q : UInt64 × KsLoop cfg} (h : KsTimedStep refused p q) :
    KsLoopStep p.2 q.2 := by
  cases h with
  | interrupted t now s hle => exact .interrupted s now
  | select t now s readFds writeFds hle hread hwrite => exact .select s now readFds writeFds hread hwrite
  | accept t s readFds writeFds accepts hfresh => exact .accept s readFds writeFds accepts hfresh
  | turn t t' s i readFds writeFds turn hturn => exact .turn s i readFds writeFds turn
  | next t s readFds writeFds => exact .next s readFds writeFds
  | stop t s => exact .stop s
  | fail t now s hle => exact .fail s now

/-- The states of the event loop, at the times they are reached, while the commands
are refused memory at the times `refused` only. -/
inductive KsLoop.ReachableAt (refused : Nat → Prop) : UInt64 → KsLoop cfg → Prop where
  | init (t : UInt64) (listenFd : Nat) (startedAt : Int64) :
      ReachableAt refused t ⟨ksServerInit cfg listenFd startedAt, .top⟩
  | step {t t' : UInt64} {l l' : KsLoop cfg} :
      ReachableAt refused t l → KsTimedStep refused (t, l) (t', l') → ReachableAt refused t' l'

/-- A timed run is a run of the loop. -/
theorem KsLoop.ReachableAt.reachable {l : KsLoop cfg} (h : l.ReachableAt refused t) : l.Reachable := by
  induction h with
  | init t listenFd startedAt => exact .init listenFd startedAt
  | step _ hstep ih => exact .step ih hstep.step

/-- **A step of the loop** is a sequence of moves; the last one also shuts the
server down. -/
theorem KsTimedStep.moves {l l' : KsLoop cfg} (h : l.Inv)
    (hstep : KsTimedStep refused (t, l) (t', l')) :
    ∃ s, KsTimedMoves refused t l.server t' s ∧ ((l'.phase ≠ .stopped ∧ l'.server = s) ∨
      (l'.phase = .stopped ∧ l'.server = shutdown s)) := by
  cases hstep with
  | interrupted _ _ s hle => exact ⟨_, .single (.iterate t t' s hle), .inl ⟨by simp, rfl⟩⟩
  | select _ _ s readFds writeFds hle hread hwrite =>
    exact ⟨_, .single (.iterate t t' s hle), .inl ⟨by simp, rfl⟩⟩
  | accept _ s readFds writeFds accepts hfresh =>
    exact ⟨_, acceptPhase_moves s readFds accepts, .inl ⟨by simp, rfl⟩⟩
  | turn _ _ s i readFds writeFds turn hturn =>
    exact ⟨_, clientTurn_moves h.1.reached.ok readFds writeFds hturn, .inl ⟨by simp, rfl⟩⟩
  | next _ s readFds writeFds => exact ⟨s, .refl t s, .inl ⟨by simp, rfl⟩⟩
  | stop _ s => exact ⟨s, .refl t s, .inr ⟨rfl, rfl⟩⟩
  | fail _ _ s hle => exact ⟨_, .single (.iterate t t' s hle), .inr ⟨rfl, rfl⟩⟩

/-- Nothing happens behind the loop. -/
theorem KsTimedStep.running {l l' : KsLoop cfg} (hstep : KsTimedStep refused (t, l) (t', l')) :
    l.phase ≠ .stopped := by
  cases hstep <;> simp

/-- The states of the server, at the times they are reached, while the commands are
refused memory at the times `refused` only. -/
inductive KsServer.ReachedAt (refused : Nat → Prop) : UInt64 → KsServer cfg → Prop where
  | init (t : UInt64) (listenFd : Nat) (startedAt : Int64) :
      ReachedAt refused t (ksServerInit cfg listenFd startedAt)
  | move {t t' : UInt64} {s s' : KsServer cfg} :
      ReachedAt refused t s → KsTimedMove refused (t, s) (t', s') → ReachedAt refused t' s'

/-- A timed run is a run of the server. -/
theorem KsServer.ReachedAt.reached (h : s.ReachedAt refused t) : s.Reached := by
  induction h with
  | init t listenFd startedAt => exact .init listenFd startedAt
  | move _ hmove ih => exact hmove.reached ih

/-- Moves from a state that has been reached. -/
theorem KsServer.ReachedAt.moves (h : s.ReachedAt refused t)
    (hmoves : KsTimedMoves refused t s t' s') :
    s'.ReachedAt refused t' := by
  unfold KsTimedMoves at hmoves
  generalize hq : (t', s') = q at hmoves
  induction hmoves generalizing t' s' with
  | refl =>
    cases hq
    exact h
  | @tail p q _ hmove ih =>
    subst hq
    exact .move (ih rfl) hmove

/-- A state of the loop is one of the server, which may have been shut down. -/
theorem KsLoop.ReachableAt.reachedAt {l : KsLoop cfg} (h : l.ReachableAt refused t) :
    ∃ s : KsServer cfg, s.ReachedAt refused t ∧ ((l.phase ≠ .stopped ∧ l.server = s) ∨
      (l.phase = .stopped ∧ l.server = shutdown s)) := by
  induction h with
  | init t listenFd startedAt => exact ⟨_, .init t listenFd startedAt, .inl ⟨by simp, rfl⟩⟩
  | @step t t' l l' hreach hstep ih =>
    obtain ⟨s, hs, hserver⟩ := ih
    obtain ⟨s', hmoves, hserver'⟩ := hstep.moves hreach.reachable.inv
    rcases hserver with ⟨-, rfl⟩ | ⟨hstopped, -⟩
    · exact ⟨s', hs.moves hmoves, hserver'⟩
    · exact absurd hstopped hstep.running

/-- While the loop runs, its server has been reached. -/
theorem KsLoop.ReachableAt.running {l : KsLoop cfg} (h : l.ReachableAt refused t)
    (hrun : l.phase ≠ .stopped) : l.server.ReachedAt refused t := by
  obtain ⟨s, hs, ⟨-, heq⟩ | ⟨hstop, -⟩⟩ := h.reachedAt
  · exact heq ▸ hs
  · exact absurd hstop hrun

end Kessel
