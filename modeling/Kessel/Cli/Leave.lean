import Kessel.Cli.Session

/-!
# Kessel.Cli.Leave

Leaving a subscription.

A `Dialogue` is what the client sends and all that the server sends.  The first
loop of `run_subscription` reads messages only: the first byte of what it renders
has been received before `UNSUBSCRIBE` is sent, so it is not the response to it.
The second loop reads up to that response.  `runSubscribeLine_inStep` puts this
together for `main`: when it comes back to the prompt, the client has read the
responses to all that it has sent, and nothing else but messages.
-/

namespace Kessel

open CStr (ascii)

/-- What the two sides of a subscription say. -/
structure Dialogue where
  subscribe : List UInt8
  unsubscribe : List UInt8
  reply : CliFrame
  messages : List CliFrame
  tail : List CliFrame
  unsubscribe_ne : unsubscribe ≠ []
  exchange : Exchange reply messages tail
  valid : ∀ f ∈ reply :: (messages ++ tail), f.Valid

namespace Dialogue

variable (d : Dialogue)

/-- The bytes of the server. -/
def total : List UInt8 := (d.reply :: (d.messages ++ d.tail)).flatMap CliFrame.encode

/-- The run is one of the server. -/
def Timely (log : List CliEvent) : Prop :=
  Kessel.Timely d.subscribe d.unsubscribe ((d.reply :: d.messages).flatMap CliFrame.encode).length log

def Broken (e : ResponseStatus) (c : Cli) : Prop :=
  Kessel.Broken d.subscribe d.unsubscribe d.total [] e c

def Stuck (c : Cli) : Prop := Kessel.Stuck d.subscribe d.unsubscribe c

/-- The client is between two frames, and `todo` is ahead: some of the messages, and
the response to `UNSUBSCRIBE`. -/
structure Ahead (todo : List CliFrame) (c : Cli) : Prop where
  session : Session d.subscribe d.unsubscribe d.total [] c
  ahead : c.ahead = todo.flatMap CliFrame.encode
  valid : ∀ f ∈ todo, f.Valid
  timely : d.Timely c.log → ∃ rest, rest <:+ d.messages ∧ todo = rest ++ d.tail

variable {d} {c c' : Cli} {todo : List CliFrame}

/-- The failures of a call from `start` on. -/
theorem restart {α : Type} {good : α → Cli → Prop} {start : List CliEvent}
    {r : Outcome ResponseStatus α × Cli}
    (h : Ends good (Kessel.Broken d.subscribe d.unsubscribe d.total start)
      (Kessel.Stuck d.subscribe d.unsubscribe) r) : Ends good d.Broken d.Stuck r :=
  h.mono (fun _ _ hgood => hgood)
    (fun _ _ hbad => ⟨hbad.1, fun hi => ⟨(hbad.2 hi).1.restart List.nil_prefix, (hbad.2 hi).2⟩⟩)
    fun _ hwait => hwait

/-- The session goes on from here. -/
theorem Ahead.here (h : d.Ahead todo c) :
    Session d.subscribe d.unsubscribe d.total c.log c := h.session.restart List.prefix_rfl

/-- Nothing has been read. -/
theorem Ahead.step (h : d.Ahead todo c) (h' : Session d.subscribe d.unsubscribe d.total c.log c')
    (hahead : c'.ahead = c.ahead) : d.Ahead todo c' :=
  ⟨h'.restart List.nil_prefix, hahead.trans h.ahead, h.valid, fun ht => h.timely (ht.before h'.log)⟩

/-- A frame has been read. -/
theorem Ahead.render {f : CliFrame} (h : d.Ahead (f :: todo) c) :
    Ends (fun kind c' => kind = f.kind ∧ Session d.subscribe d.unsubscribe d.total c.log c' ∧
        c'.ahead = todo.flatMap CliFrame.encode) d.Broken d.Stuck (renderResponse c) := by
  have hahead := h.ahead
  rw [List.flatMap_cons] at hahead
  refine (restart (renderResponse_spec feed_session h.here (h.valid f List.mem_cons_self) hahead)).imp ?_
  rintro kind c' ⟨hkind, hreads⟩
  exact ⟨hkind, hreads.inv, hreads.ahead⟩

/-- Reading a frame brings the client forward. -/
theorem Ahead.length_lt {f : CliFrame} (h : d.Ahead (f :: todo) c)
    (hahead : c'.ahead = todo.flatMap CliFrame.encode) : c'.ahead.length < c.ahead.length := by
  rw [hahead, h.ahead, List.flatMap_cons, List.length_append]
  have := List.length_pos_iff.mpr f.encode_ne_nil
  omega

/-- Looking at the flag reads nothing. -/
theorem Ahead.flag (h : d.Ahead todo c) :
    Ends (fun i c' => d.Ahead todo c' ∧ c'.unread = c.unread ∧ c'.interrupted = i ∧
      (c.interrupted = true → i = true)) d.Broken d.Stuck (subscriptionInterrupted c) := by
  refine (restart (subscriptionInterrupted_spec h.here)).imp ?_
  rintro i c' ⟨h', hheld, hi, hsticky, -⟩
  exact ⟨h.step h' hheld.ahead, hheld.unread, hi, hsticky⟩

/-- Waiting reads nothing, and ends early only when the flag is up. -/
theorem Ahead.wait (h : d.Ahead todo c) :
    Ends (fun _ c' => d.Ahead todo c' ∧ (c'.unread = [] → c'.interrupted = true)) d.Broken d.Stuck
      (waitForSubscriptionData c) := by
  refine (restart (waitForSubscriptionData_spec h.here)).imp ?_
  rintro _ c' ⟨h', hheld, hdone⟩
  exact ⟨h.step h' hheld.ahead, hdone⟩

/-- The `UNSUBSCRIBE` is sent once the flag is up. -/
theorem Ahead.send (h : d.Ahead todo c) :
    Ends (fun _ c' => d.Ahead todo c' ∧ (c.interrupted = true → c'.unsubscribeSent = true))
      d.Broken d.Stuck (sendPendingUnsubscribe c) := by
  refine (restart (sendPendingUnsubscribe_spec h.here)).imp ?_
  rintro _ c' ⟨h', hheld, hsent⟩
  exact ⟨h.step h' hheld.ahead, hsent⟩

/-! ## the first loop -/

/-- With bytes in the buffer before `UNSUBSCRIBE` is sent, a message is ahead. -/
theorem Ahead.message {rest : List CliFrame} (h : d.Ahead (rest ++ d.tail) c) (hunread : c.unread ≠ [])
    (hsent : c.unsubscribeSent = false) (htimely : d.Timely c.log) (hrest : rest <:+ d.messages) :
    rest ≠ [] := by
  rintro rfl
  have hnot : ¬ d.subscribe ++ d.unsubscribe <+: bytesSent c.log := by
    rw [h.session.sent, if_neg (by simp [hsent])]
    intro hpre
    have := hpre.length_le
    rw [List.length_append] at this
    exact d.unsubscribe_ne (List.eq_nil_of_length_eq_zero (by omega))
  have harrived := htimely c.log List.prefix_rfl hnot
  -- all that has arrived, and all that is to come
  have htotal := congrArg List.length h.session.arrived
  have hahead := congrArg List.length h.ahead
  have hpos := List.length_pos_iff.mpr hunread
  rw [List.length_append, total, List.flatMap_cons, List.flatMap_append, ← List.append_assoc,
    ← List.flatMap_cons, List.length_append] at htotal
  rw [Cli.ahead, List.length_append, List.length_append, List.nil_append] at hahead
  omega

/-- **The listening loop** ends with the flag up. -/
theorem listen_spec (h : d.Ahead todo c) :
    Ends (fun _ c' => (∃ todo', d.Ahead todo' c') ∧ c'.interrupted = true) d.Broken d.Stuck
      (listen false c) := by
  unfold listen
  refine Ends.loop (fun c' => ∃ todo', d.Ahead todo' c') ?_ ⟨todo, h⟩
  rintro c₀ ⟨todo, h₀⟩
  unfold listenTurn
  refine h₀.flag.bind ?_
  rintro i c₁ ⟨h₁, -, hi, -⟩
  split
  · next hraised => exact .pure ⟨⟨todo, h₁⟩, hi.trans (by simpa using hraised)⟩
  · refine h₁.wait.bind ?_
    rintro _ c₂ ⟨h₂, hdone⟩
    refine h₂.flag.bind ?_
    rintro i c₃ ⟨h₃, hunread, hi, hsticky⟩
    split
    · next hraised => exact .pure ⟨⟨todo, h₃⟩, hi.trans hraised⟩
    · next hlow =>
      have hbuffer : c₃.unread ≠ [] := by
        rw [hunread]
        exact fun hempty => hlow (hsticky (hdone hempty))
      have hunsent : c₃.unsubscribeSent = false := by
        by_contra hsent
        exact hlow (hi.symm.trans (h₃.session.flag (by simpa using hsent)))
      cases todo with
      | nil =>
        have hempty : c₃.ahead = [] := h₃.ahead
        rw [Cli.ahead, List.append_assoc, List.append_eq_nil_iff] at hempty
        exact absurd hempty.1 hbuffer
      | cons f todo =>
        refine h₃.render.bind ?_
        rintro _ c₄ ⟨-, h₄, hahead⟩
        refine .pure ⟨⟨todo, h₄.restart List.nil_prefix, hahead,
          fun g hg => h₃.valid g (List.mem_cons_of_mem f hg), fun htimely => ?_⟩, ?_⟩
        · -- in a run of the server the frame was a message
          have htimely₃ : d.Timely c₃.log := htimely.before h₄.log
          obtain ⟨rest, hrest, hsplit⟩ := h₃.timely htimely₃
          have hne := (hsplit ▸ h₃).message hbuffer hunsent htimely₃ hrest
          cases rest with
          | nil => exact absurd rfl hne
          | cons g rest => exact ⟨rest, (List.suffix_cons g rest).trans hrest, (List.cons.inj hsplit).2⟩
        · exact h₀.length_lt hahead

/-! ## the second loop -/

/-- The response to `UNSUBSCRIBE` has been read. -/
def Drained (d : Dialogue) (c : Cli) : Prop :=
  bytesSent c.log = d.subscribe ++ d.unsubscribe ∧
    (d.Timely c.log → ∃ unreply late, d.tail = unreply :: late ∧
      c.ahead = late.flatMap CliFrame.encode)

/-- What has been sent whole is all that is ever sent. -/
theorem sent_all {c c' : Cli} (h : bytesSent c.log = d.subscribe ++ d.unsubscribe)
    (h' : Session d.subscribe d.unsubscribe d.total c.log c') :
    bytesSent c'.log = d.subscribe ++ d.unsubscribe := by
  obtain ⟨more, hmore⟩ := h'.log
  refine List.IsPrefix.eq_of_length_le h'.sent_prefix ?_
  rw [← hmore, bytesSent_append, ← h, List.length_append]
  omega

/-- **The draining loop** ends when the reply to the `UNSUBSCRIBE` has been
rendered. -/
theorem drain_spec (h : d.Ahead todo c) (hsent : bytesSent c.log = d.subscribe ++ d.unsubscribe) :
    Ends (fun _ => d.Drained) d.Broken d.Stuck (drain c) := by
  unfold drain
  refine Ends.loop (fun c' => ∃ todo', d.Ahead todo' c' ∧
    bytesSent c'.log = d.subscribe ++ d.unsubscribe) ?_ ⟨todo, h, hsent⟩
  rintro c₀ ⟨todo, h₀, hsent₀⟩
  unfold drainTurn
  cases todo with
  | nil => exact (restart (renderResponse_nothing h₀.here h₀.ahead)).bind fun _ _ hf => hf.elim
  | cons f todo =>
    refine h₀.render.bind ?_
    rintro _ c₁ ⟨rfl, h₁, hahead⟩
    have hsent₁ := sent_all hsent₀ h₁
    split
    · next hkind =>
      refine .pure ⟨hsent₁, fun htimely => ?_⟩
      obtain ⟨rest, hrest, hsplit⟩ := h₀.timely (htimely.before h₁.log)
      -- the frame is no message
      cases rest with
      | nil => exact ⟨f, todo, hsplit.symm, hahead⟩
      | cons g rest =>
        have hg : g ∈ d.messages := hrest.subset List.mem_cons_self
        rw [(List.cons.inj hsplit).1, d.exchange.messages g hg] at hkind
        simp at hkind
    · next hkind =>
      refine .pure ⟨⟨todo, ⟨h₁.restart List.nil_prefix, hahead,
        fun g hg => h₀.valid g (List.mem_cons_of_mem f hg), fun htimely => ?_⟩, hsent₁⟩,
        h₀.length_lt hahead⟩
      obtain ⟨rest, hrest, hsplit⟩ := h₀.timely (htimely.before h₁.log)
      -- the frame is not the response to `UNSUBSCRIBE`
      cases rest with
      | nil =>
        rw [List.nil_append] at hsplit
        rcases d.exchange.tail with hnil | ⟨unreply, late, htail, hend, -⟩
        · rw [hnil] at hsplit
          exact absurd hsplit (by simp)
        · rw [htail] at hsplit
          rw [← (List.cons.inj hsplit).1] at hend
          exact absurd hend hkind
      | cons g rest => exact ⟨rest, (List.suffix_cons g rest).trans hrest, (List.cons.inj hsplit).2⟩

/-- **A subscription** is drained before it ends. -/
theorem runSubscription_spec (h : d.Ahead todo c) :
    Ends (fun _ => d.Drained) d.Broken d.Stuck (runSubscription false c) := by
  unfold runSubscription
  refine (listen_spec h).bind ?_
  rintro _ c₁ ⟨⟨todo₁, h₁⟩, hraised⟩
  refine h₁.flag.bind ?_
  rintro i c₂ ⟨h₂, -, hi, hsticky⟩
  rw [hsticky hraised] at hi ⊢
  rw [if_pos (by simp)]
  refine h₂.send.bind ?_
  rintro _ c₃ ⟨h₃, hsent⟩
  refine drain_spec h₃ ?_
  rw [h₃.session.sent, if_pos (hsent hi)]

/-! ## a line that subscribes -/

/-- What the client has read when it comes back to the prompt: the response to
`SUBSCRIBE`, and if it sent `UNSUBSCRIBE`, everything up to the response to it. -/
def InStep (d : Dialogue) (c : Cli) : Prop :=
  (bytesSent c.log = d.subscribe ∧ d.messages = [] ∧ c.ahead = d.tail.flatMap CliFrame.encode) ∨
    d.Drained c

/-- Nothing of a subscription is seen in what was sent and what is ahead. -/
theorem InStep.leave (h : d.InStep c) : d.InStep c.leave := h

/-- Behind a reply that grants it, a subscription is followed to its end. -/
theorem followSubscription_ok (h : d.Ahead (d.messages ++ d.tail) c) :
    Ends (fun status c' => bytesSent c'.log <+: d.subscribe ++ d.unsubscribe ∧
        (status = .ok () → d.InStep c')) (fun _ _ => False) d.Stuck
      (followSubscription (.ok d.reply.kind) c) := by
  have hrun {c' : Cli} (h' : d.Ahead (d.messages ++ d.tail) c') :
      Ends (fun status c'' => bytesSent c''.log <+: d.subscribe ++ d.unsubscribe ∧
        (status = .ok () → d.InStep c'')) (fun _ _ => False) d.Stuck
        ((runSubscription false).attempt c') := by
    refine (runSubscription_spec h').attempt ?_ ?_
    · exact fun _ c'' hdrained => ⟨hdrained.1 ▸ List.prefix_rfl, fun _ => .inr hdrained⟩
    · exact fun _ c'' hbad => ⟨hbad.1, fun heq => absurd heq (by simp)⟩
  unfold followSubscription
  by_cases hsimple : d.reply.kind = .simple
  · have hfollows : followsKind d.reply.kind c = (.done true, c) := by
      rw [followsKind, if_pos hsimple]
      rfl
    dsimp only
    rw [Prog.bind_done hfollows, if_pos rfl]
    exact hrun h
  · have hmessages : d.messages = [] := (d.exchange.reply.resolve_left hsimple).2
    obtain ⟨i, -, heq⟩ := subscriptionInterrupted_eq c
    have hfollows : followsKind d.reply.kind c =
        (.done i, { c with interrupted := i, signals := c.signals.tail }) := by
      rw [followsKind, if_neg hsimple, heq]
    have hflag := h.flag
    rw [heq] at hflag
    obtain ⟨h₁, -, -, -⟩ := hflag
    dsimp only
    rw [Prog.bind_done hfollows]
    cases i with
    | true =>
      rw [if_pos rfl]
      exact hrun h₁
    | false =>
      rw [if_neg (by simp)]
      refine ⟨h₁.session.sent_prefix, fun _ => .inl ⟨?_, hmessages, ?_⟩⟩
      · -- the flag is not raised, so nothing was sent
        rw [h₁.session.sent, if_neg fun hsent => absurd (h₁.session.flag hsent) (by simp)]
      · rw [h₁.ahead, hmessages, List.nil_append]

/-- The response to `SUBSCRIBE` has been read, or the call has failed. -/
def Replied (d : Dialogue) : Except ResponseStatus ResponseKind → Cli → Prop
  | .ok kind, c => kind = d.reply.kind ∧ d.Ahead (d.messages ++ d.tail) c
  | .error e, c => d.Broken e c

/-- The reply to the `SUBSCRIBE` is the first that is rendered. -/
theorem renderReply_spec (hsession : Session d.subscribe d.unsubscribe d.total [] c)
    (hahead : c.ahead = d.total) :
    Ends d.Replied (fun _ _ => False) d.Stuck (renderResponse.attempt c) := by
  have hvalid := List.forall_mem_cons.mp d.valid
  have hsplit : c.ahead = d.reply.encode ++ (d.messages ++ d.tail).flatMap CliFrame.encode := by
    rw [hahead, total, List.flatMap_cons]
  refine Ends.attempt (renderResponse_spec feed_session hsession hvalid.1 hsplit) ?_ ?_
  · rintro kind c' ⟨hkind, hreads⟩
    exact ⟨hkind, hreads.inv, hreads.ahead, hvalid.2, fun _ => ⟨d.messages, List.suffix_rfl, rfl⟩⟩
  · exact fun _ _ hbad => hbad

/-- A subscription is followed when it has been granted, and not otherwise. -/
theorem followSubscription_spec {status : Except ResponseStatus ResponseKind} (h : d.Replied status c) :
    Ends (fun status c' => bytesSent c'.log <+: d.subscribe ++ d.unsubscribe ∧
        (status = .ok () → d.InStep c')) (fun _ _ => False) d.Stuck
      (followSubscription status c) := by
  cases status with
  | error e =>
    refine (followSubscription_error h).imp ?_
    exact fun _ _ h' => ⟨h'.1, fun hok => absurd hok h'.2⟩
  | ok kind =>
    obtain ⟨rfl, hahead⟩ := h
    exact followSubscription_ok hahead

end Dialogue

/-! ## main -/

/-- A client at its prompt, with nothing to read; `log` begins there. -/
structure Cli.AtPrompt (c : Cli) : Prop where
  unread : c.unread = []
  wire : c.wire = []
  log : c.log = []

/-- More is written behind what was written. -/
theorem Wrote.append {data data' sent : List UInt8} {outcome : Outcome ResponseStatus Bool}
    (h : Wrote data' outcome sent) : Wrote (data ++ data') outcome (data ++ sent) := by
  cases h with
  | all => exact .all
  | failed h => exact .failed ((List.prefix_append_right_inj data).mpr h)
  | blocked h => exact .blocked ((List.prefix_append_right_inj data).mpr h)

/-- A command is sent as a line, whole, or up to where it failed. -/
theorem sendCommand_eq (line : List UInt8) (c : Cli) :
    ∃ outcome sends more, Wrote (commandSent line) outcome (bytesSent more) ∧
      bytesArrived more = [] ∧
      sendCommand line c = (outcome, { c with sends := sends, log := c.log ++ more }) := by
  obtain ⟨outcome, sends, more, hwrote, harrived, heq⟩ := writeAll_eq (line.take (commandLength line)) c
  unfold sendCommand commandSent
  generalize hsent : bytesSent more = sent at hwrote
  cases hwrote with
  | failed h =>
    refine ⟨.done false, sends, more, .failed ?_, harrived, ?_⟩
    · rw [hsent]
      exact h.trans (List.prefix_append _ _)
    · rw [Prog.bind_done heq]
      rfl
  | blocked h =>
    refine ⟨.blocked, sends, more, .blocked ?_, harrived, ?_⟩
    · rw [hsent]
      exact h.trans (List.prefix_append _ _)
    · rw [Prog.bind_blocked heq]
  | all =>
    obtain ⟨outcome, sends', more', hwrote', harrived', heq'⟩ :=
      writeAll_eq crlf { c with sends := sends, log := c.log ++ more }
    refine ⟨outcome, sends', more ++ more', ?_, ?_, ?_⟩
    · rw [bytesSent_append, hsent]
      exact hwrote'.append
    · rw [bytesArrived_append, harrived, harrived', List.append_nil]
    · rw [Prog.bind_done heq, if_pos rfl, heq', List.append_assoc]

/-- A line that subscribes, with what is said of the response to it and of what
follows. -/
theorem runSubscribeLine_spec {c : Cli} {line unsubscribe : List UInt8} {env : CliLineEnv}
    {replied : Except ResponseStatus ResponseKind → Cli → Prop} {inStep : Cli → Prop}
    (hc : c.AtPrompt)
    (hreply : ∀ c', Session (commandSent line) unsubscribe (c.recvs.flatMap CliRecv.arrived) [] c' →
      c'.ahead = c.recvs.flatMap CliRecv.arrived →
      Ends replied (fun _ _ => False) (Stuck (commandSent line) unsubscribe)
        (renderResponse.attempt c'))
    (hfollow : ∀ status c', replied status c' →
      Ends (fun status c'' => bytesSent c''.log <+: commandSent line ++ unsubscribe ∧
        (status = .ok () → inStep c'')) (fun _ _ => False) (Stuck (commandSent line) unsubscribe)
        (followSubscription status c'))
    (hleave : ∀ c', inStep c' → inStep c'.leave) :
    Ends (fun next c' => bytesSent c'.log <+: commandSent line ++ unsubscribe ∧
      (next = .prompt → inStep c')) (fun _ _ => False) (Stuck (commandSent line) unsubscribe)
      (runSubscribeLine line unsubscribe env c) := by
  have hnone : bytesSent (c.enter unsubscribe).cancel.log <+: commandSent line ++ unsubscribe := by
    have hlog : (c.enter unsubscribe).cancel.log = [] := hc.log
    rw [hlog]
    exact List.nil_prefix
  unfold runSubscribeLine
  refine .modify ?_
  split
  · obtain ⟨outcome, sends, more, hwrote, harrived, heq⟩ := sendCommand_eq line (c.enter unsubscribe)
    have hlog : (c.enter unsubscribe).log ++ more = more := by
      have hnil : (c.enter unsubscribe).log = [] := hc.log
      rw [hnil, List.nil_append]
    rw [hlog] at heq
    generalize hsent : bytesSent more = sent at hwrote
    have hpart (h : sent <+: commandSent line) :
        bytesSent more <+: commandSent line ++ unsubscribe := by
      rw [hsent]
      exact h.trans (List.prefix_append _ _)
    cases hwrote with
    | failed h =>
      rw [Prog.bind_done heq, if_neg (by simp)]
      exact .modify (.pure ⟨hpart h, fun hnext => absurd hnext (by simp)⟩)
    | blocked h =>
      rw [Prog.bind_blocked heq]
      exact hpart h
    | all =>
      rw [Prog.bind_done heq, if_pos rfl]
      have hsession : Session (commandSent line) unsubscribe (c.recvs.flatMap CliRecv.arrived) []
          { c.enter unsubscribe with sends := sends, log := more } := by
        refine ⟨rfl, rfl, hsent, fun h => absurd h (by simp [Cli.enter]), ?_, List.nil_prefix⟩
        rw [harrived]
        rfl
      have hahead : ({ c.enter unsubscribe with sends := sends, log := more } : Cli).ahead =
          c.recvs.flatMap CliRecv.arrived := by
        show c.unread ++ c.wire ++ c.recvs.flatMap CliRecv.arrived = _
        rw [hc.unread, hc.wire, List.nil_append, List.nil_append]
      refine (hreply _ hsession hahead).bind ?_
      intro status c₁ h₁
      refine (hfollow status c₁ h₁).bind ?_
      rintro status c₂ ⟨hpre, h₂⟩
      refine .modify (.pure ⟨hpre, fun hnext => hleave c₂ (h₂ ?_)⟩)
      match status with
      | .ok () => rfl
      | .error .interrupted => exact absurd hnext (by simp [nextOf])
      | .error .disconnected => exact absurd hnext (by simp [nextOf])
      | .error .ioError => exact absurd hnext (by simp [nextOf])
      | .error .protocolError => exact absurd hnext (by simp [nextOf])
  · exact .modify (.pure ⟨hnone, fun hnext => absurd hnext (by simp)⟩)

/-- The client has read the responses to all that it has sent: the first list is
what it has read, and nothing but messages is in the second. -/
inductive Settled (subscribe unsubscribe sent : List UInt8) : List CliFrame → List CliFrame → Prop where
  | refused {reply : CliFrame} (hsent : sent = subscribe) (exchange : Exchange reply [] []) :
      Settled subscribe unsubscribe sent [reply] []
  | ended {reply unreply : CliFrame} {messages later : List CliFrame}
      (hsent : sent = subscribe ++ unsubscribe)
      (exchange : Exchange reply messages (unreply :: later)) :
      Settled subscribe unsubscribe sent (reply :: (messages ++ [unreply])) later

/-- A subscription to a server that does not answer. -/
theorem runSubscribeLine_silent {c : Cli} {line unsubscribe : List UInt8} {env : CliLineEnv}
    (hc : c.AtPrompt) (hall : c.recvs.flatMap CliRecv.arrived = []) :
    Ends (fun next c' => bytesSent c'.log <+: commandSent line ++ unsubscribe ∧ (next = .prompt → False))
      (fun _ _ => False) (Stuck (commandSent line) unsubscribe)
      (runSubscribeLine line unsubscribe env c) := by
  refine @runSubscribeLine_spec c line unsubscribe env
    (fun status c' => ∃ e, status = .error e ∧
      Broken (commandSent line) unsubscribe (c.recvs.flatMap CliRecv.arrived) [] e c')
    (fun _ => False) hc ?_ ?_ fun _ hf => hf
  · intro c' hsession hahead
    refine (renderResponse_nothing hsession (hahead.trans hall)).attempt ?_ ?_
    · exact fun _ _ hf => hf.elim
    · exact fun e _ hbad => ⟨e, rfl, hbad⟩
  · rintro _ c' ⟨e, rfl, hbad⟩
    exact (followSubscription_error hbad).imp fun _ _ h => ⟨h.1, h.2⟩

/-- **Leaving a subscription keeps the client in step with the server.**  `UNSUBSCRIBE`
is sent at most once, whatever happens; and when the client comes back to its prompt,
it has read the responses to all that it has sent, and is between two frames. -/
theorem runSubscribeLine_inStep {c c' : Cli} {line argument : List UInt8} {env : CliLineEnv}
    {outcome : Outcome ResponseStatus CliNext} {s : SubscriptionServer} (hc : c.AtPrompt)
    (hrun : runSubscribeLine line (unsubscribeCommand argument) env c = (outcome, c'))
    (hserver : SubscriptionServer.Run (commandSent line) (unsubscribeCommand argument)
      (c'.log ++ c'.recvs.map fun r => .arrived r.arrived) s)
    (hall : c.recvs.flatMap CliRecv.arrived = s.answered.flatMap CliFrame.encode) :
    bytesSent c'.log <+: commandSent line ++ unsubscribeCommand argument ∧
      (outcome = .done .prompt → ∃ consumed later, s.answered = consumed ++ later ∧
        c'.ahead = later.flatMap CliFrame.encode ∧
        Settled (commandSent line) (unsubscribeCommand argument) (bytesSent c'.log) consumed later) := by
  have hne : unsubscribeCommand argument ≠ [] := by simp [unsubscribeCommand, crlf]
  generalize unsubscribeCommand argument = unsubscribe at *
  by_cases hnone : s.answered = []
  · have hspec := @runSubscribeLine_silent c line unsubscribe env hc (hall.trans (by rw [hnone]; rfl))
    rw [hrun] at hspec
    cases outcome with
    | done next => exact ⟨hspec.1, fun heq => (hspec.2 (Outcome.done.inj heq)).elim⟩
    | failed e => exact hspec.elim
    | blocked => exact ⟨hspec, fun heq => absurd heq (by simp)⟩
  · obtain ⟨reply, messages, tail, hexchange, hanswered, htail⟩ := hserver.exchange hnone
    let d : Dialogue := ⟨commandSent line, unsubscribe, reply, messages, tail, hne, hexchange,
      hanswered ▸ hserver.valid⟩
    have htotal : c.recvs.flatMap CliRecv.arrived = d.total := by rw [hall, hanswered]; rfl
    have hspec : Ends (fun next c' => bytesSent c'.log <+: commandSent line ++ unsubscribe ∧
        (next = .prompt → d.InStep c')) (fun _ _ => False) (Stuck (commandSent line) unsubscribe)
        (runSubscribeLine line unsubscribe env c) := by
      refine @runSubscribeLine_spec c line unsubscribe env d.Replied d.InStep hc ?_ ?_ fun _ h => h
      · intro c' hsession hahead
        exact Dialogue.renderReply_spec (htotal ▸ hsession) (htotal ▸ hahead)
      · exact fun _ _ h => Dialogue.followSubscription_spec h
    rw [hrun] at hspec
    cases outcome with
    | failed e => exact hspec.elim
    | blocked => exact ⟨hspec, fun heq => absurd heq (by simp)⟩
    | done next =>
      refine ⟨hspec.1, fun heq => ?_⟩
      -- nothing is sent behind the prompt
      have hsent : bytesSent (c'.log ++ c'.recvs.map fun r => .arrived r.arrived) = bytesSent c'.log := by
        rw [bytesSent_append, bytesSent_arrivals, List.append_nil]
      rcases hspec.2 (Outcome.done.inj heq) with ⟨hsub, hmessages, hahead⟩ | ⟨hboth, hdrained⟩
      · have hmessages' : messages = [] := hmessages
        have hsub' : bytesSent c'.log = commandSent line := hsub
        have hnil : tail = [] := by
          by_contra hne'
          have hlen := (htail hne').length_le
          rw [hsent, hsub', List.length_append] at hlen
          exact hne (List.eq_nil_of_length_eq_zero (by omega))
        rw [hmessages', hnil] at hexchange hanswered
        have hahead' : c'.ahead = tail.flatMap CliFrame.encode := hahead
        rw [hnil] at hahead'
        exact ⟨[reply], [], hanswered, hahead', .refused hsub' hexchange⟩
      · have htimely := (hserver.timely hexchange hanswered).before (List.prefix_append _ _)
        obtain ⟨unreply, late, hsplit, hahead⟩ := hdrained htimely
        have hsplit' : tail = unreply :: late := hsplit
        rw [hsplit'] at hexchange hanswered
        refine ⟨reply :: (messages ++ [unreply]), late, ?_, hahead, .ended hboth hexchange⟩
        rw [hanswered]
        simp

def roomMessage : CliFrame := .message (ascii "room") (ascii "a")

/-- A client that subscribes to `room`, and is interrupted when it has read `+OK`. -/
def interruptedClient : Cli :=
  { Cli.idle with
    signals := [false, false, true]
    polls := [.readable, .readable]
    recvs := [⟨(CliFrame.simple (ascii "OK")).encode, .data 5⟩,
      ⟨roomMessage.encode ++ (CliFrame.integer 0).encode, .data 99⟩]
    sends := [.sent 64, .sent 64, .sent 64] }

/-- What it records. -/
def interruptedLog : List CliEvent :=
  [.sent (ascii "SUBSCRIBE room"), .sent crlf, .arrived (CliFrame.simple (ascii "OK")).encode,
    .sent (unsubscribeCommand (ascii "room")),
    .arrived (roomMessage.encode ++ (CliFrame.integer 0).encode)]

/-- The server next to it. -/
def interruptedServer : SubscriptionServer :=
  ⟨.left false, ascii "SUBSCRIBE room" ++ crlf ++ unsubscribeCommand (ascii "room"),
    [.simple (ascii "OK"), roomMessage, .integer 0], []⟩

theorem interruptedServer_run : SubscriptionServer.Run (commandSent (ascii "SUBSCRIBE room"))
    (unsubscribeCommand (ascii "room")) interruptedLog interruptedServer := by
  have hsubscribe : SubscriptionServer.Run (commandSent (ascii "SUBSCRIBE room"))
      (unsubscribeCommand (ascii "room")) (interruptedLog.take 2)
      ⟨.waiting, ascii "SUBSCRIBE room" ++ crlf, [], []⟩ :=
    (SubscriptionServer.Run.start.sent _).sent _
  have hreply : SubscriptionServer.Run (commandSent (ascii "SUBSCRIBE room"))
      (unsubscribeCommand (ascii "room")) (interruptedLog.take 2)
      ⟨.serving true, ascii "SUBSCRIBE room" ++ crlf, [.simple (ascii "OK")],
        (CliFrame.simple (ascii "OK")).encode⟩ :=
    hsubscribe.answer (.subscribed (by decide +kernel)) (by decide +kernel)
  have harrived : SubscriptionServer.Run (commandSent (ascii "SUBSCRIBE room"))
      (unsubscribeCommand (ascii "room")) (interruptedLog.take 3)
      ⟨.serving true, ascii "SUBSCRIBE room" ++ crlf, [.simple (ascii "OK")], []⟩ :=
    hreply.arrived (List.append_nil _).symm
  have hmessage : SubscriptionServer.Run (commandSent (ascii "SUBSCRIBE room"))
      (unsubscribeCommand (ascii "room")) (interruptedLog.take 3)
      ⟨.serving true, ascii "SUBSCRIBE room" ++ crlf, [.simple (ascii "OK"), roomMessage],
        roomMessage.encode⟩ :=
    harrived.answer (.message _ _) (by decide +kernel)
  have hleft : SubscriptionServer.Run (commandSent (ascii "SUBSCRIBE room"))
      (unsubscribeCommand (ascii "room")) (interruptedLog.take 4)
      ⟨.left false, ascii "SUBSCRIBE room" ++ crlf ++ unsubscribeCommand (ascii "room"),
        [.simple (ascii "OK"), roomMessage, .integer 0],
        roomMessage.encode ++ (CliFrame.integer 0).encode⟩ :=
    (hmessage.sent _).answer (.unsubscribed true 0 (by decide +kernel)) (by decide +kernel)
  exact hleft.arrived (List.append_nil _).symm

/-- The run of the client. -/
def interruptedRun : Outcome ResponseStatus CliNext × Cli :=
  runSubscribeLine (ascii "SUBSCRIBE room") (unsubscribeCommand (ascii "room")) ⟨true, true, true⟩
    interruptedClient

theorem runSubscribeLine_inStep_interruptedClient :
    interruptedRun.1 = .done .prompt ∧
    ∃ consumed later, interruptedServer.answered = consumed ++ later ∧
      Settled (commandSent (ascii "SUBSCRIBE room")) (unsubscribeCommand (ascii "room"))
        (bytesSent interruptedRun.2.log) consumed later := by
  have hprompt : interruptedRun.1 = .done .prompt := by decide +kernel
  have hevents : (interruptedRun.2.log ++ interruptedRun.2.recvs.map fun r => .arrived r.arrived) =
      interruptedLog := by decide +kernel
  have hrun : runSubscribeLine (ascii "SUBSCRIBE room") (unsubscribeCommand (ascii "room"))
      ⟨true, true, true⟩ interruptedClient = (interruptedRun.1, interruptedRun.2) :=
    (Prod.eta interruptedRun).symm
  have h := runSubscribeLine_inStep ⟨rfl, rfl, rfl⟩ hrun (hevents ▸ interruptedServer_run)
    (by decide +kernel)
  obtain ⟨consumed, later, hsplit, -, hsettled⟩ := h.2 hprompt
  exact ⟨hprompt, consumed, later, hsplit, hsettled⟩

end Kessel
