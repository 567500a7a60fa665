import Kessel.Server.Linear

/-!
# Kessel.Server.Info

`INFO` tells the truth.

`total_commands` is a counter beside the histories of the connections; every
command of every connection that there is or was is counted once
(`ReachedAt.counted`).  With the agreement of slots, registry and metrics
this makes each number that `INFO` prints the number it stands for.

* `ReachedAt.info_true` — the reply of an `INFO`, in any state of the server.
-/

namespace Kessel

open Broker CStr
open Relation (ReflTransGen)

variable {cfg : KsConfig} {i : Fin cfg.maxClients} {s s' : KsServer cfg} {t t' : UInt64}
  {refused : Nat → Prop}

/-! ## the commands, counted -/

/-- The commands of a history. -/
def commandCount (history : List KsEvent) : Nat := history.countP KsEvent.isCommand

/-- The commands of all connections. -/
def KsServer.commands (s : KsServer cfg) : Nat :=
  (∑ j, commandCount (s.clients j).history) + (s.closed.map commandCount).sum

/-- Every command is counted, and a free slot has had none. -/
structure KsServer.Counted (s : KsServer cfg) : Prop where
  total : s.metrics.totalCommands = UInt64.ofNat s.commands
  free : ∀ j, (s.clients j).used = false → (s.clients j).history = []

/-- One slot changes. -/
theorem sum_slot (f f' : Fin cfg.maxClients → Nat) (h : ∀ j, j ≠ i → f' j = f j) :
    (∑ j, f' j) + f i = (∑ j, f j) + f' i := by
  have hrest : ∑ j ∈ Finset.univ.erase i, f' j = ∑ j ∈ Finset.univ.erase i, f j :=
    Finset.sum_congr rfl fun j hj => h j (Finset.ne_of_mem_erase hj)
  have hf := Finset.add_sum_erase Finset.univ f (Finset.mem_univ i)
  have hf' := Finset.add_sum_erase Finset.univ f' (Finset.mem_univ i)
  omega

/-- Commands are counted by the history. -/
theorem KsClient.Grows.commandCount {c c' : KsClient} {n : Nat} (h : c.Grows n c') :
    Kessel.commandCount c'.history = Kessel.commandCount c.history + n := by
  obtain ⟨events, hhist, -, rfl⟩ := h
  rw [Kessel.commandCount, hhist, List.countP_append, Kessel.commandCount]

/-- An act counts its commands. -/
theorem KsTimedAct.counted (hok : s.Ok) (h : s.Counted) (hact : KsTimedAct refused i (t, s) (t', s')) :
    s'.Counted := by
  have hacted := acted_of_act hok hact.act
  have hprogress : ∃ n, Progress i n s s' ∧
      s'.metrics.totalCommands = s.metrics.totalCommands + UInt64.ofNat n := by
    cases hact with
    | command _ _ line text env hused hp =>
      have hhandled := handleCommand_spec hok hp line env
      exact ⟨1, hhandled.progress hok hused, by rw [hhandled.rest]; rfl⟩
    | answer _ _ request message hused hp hm hr =>
      have hnot : (KsEvent.request request).isCommand = false := by
        cases request with
        | command line => exact absurd rfl (hr line)
        | _ => rfl
      have hprogress := progress_answer hok hused hp hm
      rw [hnot] at hprogress
      exact ⟨0, hprogress, by simp⟩
    | write _ _ sends hused hd =>
      exact ⟨0, progress_setClient hused (.write (hok.clients i).toQueueOk sends), by simp⟩
    | passive _ _ c hused hp => exact ⟨0, progress_passive hused hp, by simp⟩
  obtain ⟨n, hprogress, htotal⟩ := hprogress
  refine ⟨?_, fun j hj => ?_⟩
  · have hsum := sum_slot (i := i) (fun j => commandCount (s.clients j).history)
      (fun j => commandCount (s'.clients j).history)
      fun j hj => (hprogress.others j hj).commandCount
    have hself := hprogress.self.commandCount
    rw [htotal, h.total, ← UInt64.ofNat_add, KsServer.commands, KsServer.commands, hacted.closed]
    congr 1
    omega
  · have hfree : (s.clients j).used = false := (hacted.slots j).1 ▸ hj
    rw [hprogress.unused j hfree]
    exact h.free j hfree

/-- A slot that is filled or emptied moves its commands at most to the closed
ones. -/
theorem KsServer.Counted.slot (h : s.Counted) {c : KsClient} (hnil : c.history = [])
    (hclients : s'.clients = Function.update s.clients i c)
    (htotal : s'.metrics.totalCommands = s.metrics.totalCommands)
    (hclosed : s'.closed = s.closed ++ [(s.clients i).history] ∨
      (s'.closed = s.closed ∧ (s.clients i).history = [])) : s'.Counted := by
  have hother (j : Fin cfg.maxClients) (hj : j ≠ i) : s'.clients j = s.clients j := by
    rw [hclients, Function.update_of_ne hj]
  have hself : s'.clients i = c := by rw [hclients, Function.update_self]
  refine ⟨?_, fun j hj => ?_⟩
  · have hsum := sum_slot (i := i) (fun j => commandCount (s.clients j).history)
      (fun j => commandCount (s'.clients j).history)
      fun j hj => congrArg (fun c => commandCount c.history) (hother j hj)
    have hzero : commandCount (s'.clients i).history = 0 := by
      rw [hself, hnil]
      rfl
    rw [htotal, h.total, KsServer.commands, KsServer.commands]
    congr 1
    rcases hclosed with hclosed | ⟨hclosed, hempty⟩
    · rw [hclosed, List.map_append, List.sum_append]
      simp only [List.map_cons, List.map_nil, List.sum_cons, List.sum_nil]
      omega
    · have hempty : commandCount (s.clients i).history = 0 := by
        rw [hempty]
        rfl
      rw [hclosed]
      omega
  · by_cases hji : j = i
    · rw [hji, hself, hnil]
    · rw [hother j hji] at hj ⊢
      exact h.free j hj

/-- Every move counts its commands. -/
theorem KsTimedMove.counted (hok : s.Ok) (h : s.Counted) (hmove : KsTimedMove refused (t, s) (t', s')) :
    s'.Counted := by
  cases hmove with
  | act hact => exact hact.counted hok h
  | close _ _ i hused =>
    refine h.slot rfl rfl ?_ (.inl rfl)
    simp only [closeClient, KsServer.resetClient, setClient_metrics]
    split <;> rfl
  | accept _ _ fd heap =>
    rcases acceptClient_cases s fd heap with heq | heq | ⟨slot, hfree, -, heq⟩ <;> rw [heq]
    · exact ⟨h.total, h.free⟩
    · exact ⟨h.total, h.free⟩
    · exact h.slot rfl rfl rfl (.inr ⟨rfl, h.free slot hfree⟩)
  | iterate _ now _ hle =>
    unfold startIteration
    generalize ksKvReap s.store ksReaperBudget t' = r
    exact ⟨h.total, h.free⟩
  | backoff _ _ ticks => exact ⟨h.total, h.free⟩
  | wait _ _ _ hle => exact h

/-- **Every command of every connection is counted once.** -/
theorem KsServer.ReachedAt.counted (h : s.ReachedAt refused t) : s.Counted := by
  induction h with
  | init t listenFd startedAt =>
    refine ⟨?_, fun j hj => rfl⟩
    simp [KsServer.commands, commandCount, ksServerInit, KsClient.free]
  | move hreached hmove ih => exact hmove.counted hreached.reached.ok ih

/-! ## `INFO` -/

/-- Each number of the text is what it stands for, the `INFO` itself included. -/
structure InfoTrue (s : KsServer cfg) (env : KsCommandEnv) (metrics : KsServerMetrics)
    (keys : Nat) (channels subscriptions : UInt64) : Prop where
  connectedClients : metrics.connectedClients.toNat = s.usedSlots.card
  totalConnections : metrics.totalConnections.toNat = s.usedSlots.card + s.closed.length
  rejectedConnections : metrics.rejectedConnections = s.metrics.rejectedConnections
  totalCommands : metrics.totalCommands = UInt64.ofNat (s.commands + 1)
  keys : {key | (s.store.liveAt env.clock.first key).isSome}.encard = keys
  channels : channels.toNat = {channel | s.pubsub.subscribersOf channel ≠ []}.ncard
  subscriptions :
    subscriptions.toNat = {p : CStr × UInt64 | p.2 ∈ s.pubsub.subscribersOf p.1}.ncard

/-- What `INFO` runs. -/
theorem runCommand_info {name : CStr} (hname : name.bytes = ascii "INFO") (env : KsCommandEnv) :
    runCommand s i name [] env = ({ s with store := (formatInfo s blank ksResponseCap env).1 },
      .response (formatInfo s blank ksResponseCap env).2.1
        (formatInfo s blank ksResponseCap env).2.2) := by
  unfold runCommand
  generalize formatInfo s blank ksResponseCap env = r
  obtain ⟨store, m, length⟩ := r
  simp only [hname]
  rw [if_neg (by decide), if_neg (by decide), if_neg (by decide), if_neg (by decide),
    if_neg (by decide), if_neg (by decide), if_neg (by decide), if_neg (by decide),
    if_neg (by decide), if_neg (by decide), if_neg (by decide), if_neg (by decide),
    if_neg (by decide), if_pos trivial, if_neg (by simp)]

/-- What `INFO` says. -/
theorem says_runCommand_info {name : CStr} (hname : name.bytes = ascii "INFO")
    (env : KsCommandEnv) :
    (runCommand s i name [] env).2.Says (.bulk (serverInfo s env)) := by
  have hlen : (serverInfo s env).length ≤ ksMaxRequest :=
    Nat.le_trans (Nat.le_of_lt (length_serverInfo s env)) (by decide)
  rw [runCommand_info hname, formatInfo_serverInfo]
  generalize serverInfo s env = text at *
  exact says_bulk hlen

/-- The registry counts its channels and its subscribers. -/
theorem KsPubsub.Represents.ncard {pubsub : KsPubsub} {m : Finset (CStr × UInt64)}
    (h : pubsub.Represents m) :
    pubsub.channelCount.toNat = {channel | pubsub.subscribersOf channel ≠ []}.ncard ∧
      pubsub.subscriptionCount.toNat =
        {p : CStr × UInt64 | p.2 ∈ pubsub.subscribersOf p.1}.ncard := by
  have hchannels : {channel | pubsub.subscribersOf channel ≠ []} = (m.image Prod.fst : Set CStr) := by
    ext channel
    exact h.mem_channels.symm.trans Finset.mem_coe.symm
  have hpairs : {p : CStr × UInt64 | p.2 ∈ pubsub.subscribersOf p.1} = (m : Set (CStr × UInt64)) := by
    ext p
    exact h.mem_iff.symm.trans Finset.mem_coe.symm
  rw [hchannels, hpairs, Set.ncard_coe_finset, Set.ncard_coe_finset]
  exact ⟨h.channelCount, h.subscriptionCount⟩

/-- **`INFO` tells the truth** in every state of the server, also in the middle of
a turn. -/
theorem KsServer.ReachedAt.info_true (h : s.ReachedAt refused t) (hlt : s.accepted < 2 ^ 64 - 1)
    (hused : (s.clients i).used = true) (hp : (s.clients i).pendingLen < ksOutputHighWater)
    {line : Nat} (env : KsCommandEnv) {name : CStr}
    (hparsed : parsedCommand (s.clients i).input line = some (name, []))
    (hname : name.bytes = ascii "INFO") :
    ∃ metrics keys channels subscriptions,
      InfoTrue s env metrics keys channels subscriptions ∧ (handleCommand s i line env).2 = 0 ∧
      ((handleCommand s i line env).1.clients i).history = (s.clients i).history ++
        [.request (.command (requestText (s.clients i).input line)),
          .queued (bulkFrame (infoText (infoUptime s.metrics.startedAt env.time).toInt metrics
            cfg.maxClients keys channels subscriptions))] := by
  have hok := h.reached.ok
  have hagrees := h.reached.agrees hlt
  obtain ⟨trace, b, -, hshows⟩ := h.shows hlt
  obtain ⟨hchannels, hsubscriptions⟩ := hshows.subscriptions.ncard
  refine ⟨{ s.metrics with totalCommands := s.metrics.totalCommands + 1 },
    (ksKvSize s.store env.clock.first).2, ksPubsubChannelCount s.pubsub,
    ksPubsubSubscriptionCount s.pubsub, ?_, (handleCommand_spec hok hp line env).result, ?_⟩
  · exact
      { connectedClients := hagrees.connected
        totalConnections := hagrees.total
        rejectedConnections := rfl
        totalCommands := by rw [UInt64.ofNat_add, ← h.counted.total]; rfl
        keys := (ksKvSize_live s.store env.clock.first).1
        channels := hchannels
        subscriptions := hsubscriptions }
  · have hbegin := hok.beginCommand ((hok.clients i).alive hp) line
    have hpublish : name.bytes ≠ ascii "PUBLISH" := by
      rw [hname]
      decide
    have htargets : commandTargets s.pubsub name [] = [] := if_neg hpublish
    have hran : Ran (beginCommand s i line) i name [] _ := runCommand_spec hbegin.store
      hbegin.pubsub (fun j => (hbegin.clients j).toQueueOk) (by simp) i env
    have hsaid := says_runCommand_info (s := beginCommand s i line) (i := i) hname env
    have hnotes (j : Fin cfg.maxClients) (_ : (s.clients j).used = true) :
        (offerAll s.clients (commandTargets s.pubsub name []) (publishFrame []) j).history =
          (s.clients j).history ++ ((fun _ => []) (s.clients j).id : List KsItem).map itemEvent := by
      rw [htargets, offerAll_nil, List.map_nil, List.append_nil]
    have hreplied : Replied s i _ _ (fun _ => []) _ :=
      (hran.replied hok hp (by simp) hsaid rfl hnotes hused).1
    have hself := hreplied.self
    have htext : serverInfo (beginCommand s i line) env = infoText _ _ _ _ _ _ := rfl
    rw [handleCommand_eq, hparsed]
    rw [htext] at hself
    exact hself

/-- A line that asks for the numbers. -/
def infoLine : Mem := blank.write 0 (ascii "INFO\n")

theorem info_true_acceptedServer :
    ∃ metrics keys channels subscriptions,
      InfoTrue (acceptedServer.withInput firstSlot infoLine) (idle.env 0) metrics keys channels
        subscriptions ∧
      (handleCommand (acceptedServer.withInput firstSlot infoLine) firstSlot 0 (idle.env 0)).2 = 0 ∧
      ((handleCommand (acceptedServer.withInput firstSlot infoLine) firstSlot 0
          (idle.env 0)).1.clients firstSlot).history =
        ((acceptedServer.withInput firstSlot infoLine).clients firstSlot).history ++
        [.request (.command (requestText
            ((acceptedServer.withInput firstSlot infoLine).clients firstSlot).input 0)),
          .queued (bulkFrame (infoText (infoUptime
            (acceptedServer.withInput firstSlot infoLine).metrics.startedAt
            (idle.env 0).time).toInt metrics pairConfig.maxClients keys channels subscriptions))] := by
  have hreached : acceptedServer.ReachedAt (fun _ => False) 0 :=
    (reachableAt_acceptedServer _).running (by simp)
  have hpassive : (acceptedServer.clients firstSlot).Passive
      { acceptedServer.clients firstSlot with input := infoLine } :=
    ⟨rfl, rfl, rfl, rfl, rfl, rfl, rfl, (hreached.reached.ok.clients firstSlot).inputLen_le, [],
      by simp, by simp⟩
  have hline : (acceptedServer.withInput firstSlot infoLine).ReachedAt (fun _ => False) 0 :=
    .move hreached (.act (.passive 0 _ _ (by decide) hpassive))
  have hparsed : parsedCommand ((acceptedServer.withInput firstSlot infoLine).clients firstSlot).input
      0 = some (⟨ascii "INFO", by decide⟩, []) := by
    rw [withInput_clients]
    exact parsedCommand_eq_some (strAt_blank (by decide) 0) (by decide)
  exact KsServer.ReachedAt.info_true hline (show acceptedServer.accepted < 2 ^ 64 - 1 by decide)
    (by decide) (by decide) (idle.env 0) hparsed rfl

end Kessel
