import Kessel.Cli.Render

/-!
# Kessel.Cli.Peer

The server of a subscription, and the bytes in flight.

`SubscriptionServer.Run` is a run of a server next to a client: the events are
those that the client records, what it sends and what arrives at it, and between
them the server sends its responses.  It answers `SUBSCRIBE` and `UNSUBSCRIBE` in
the order in which they come, and sends messages to a subscriber at any time.
`Run.exchange` is the shape of all that it has sent, and `Run.timely` says which
part of it can be there while `UNSUBSCRIBE` has not been sent.
-/

namespace Kessel

open CStr (ascii)

/-! ## events -/

def CliEvent.sentData : CliEvent → List UInt8
  | .sent data => data
  | .arrived _ => []

def CliEvent.arrivedData : CliEvent → List UInt8
  | .sent _ => []
  | .arrived data => data

/-- All that the client has sent. -/
def bytesSent (log : List CliEvent) : List UInt8 := log.flatMap CliEvent.sentData

/-- All that has arrived at the client. -/
def bytesArrived (log : List CliEvent) : List UInt8 := log.flatMap CliEvent.arrivedData

@[simp] theorem bytesSent_nil : bytesSent [] = [] := rfl

@[simp] theorem bytesArrived_nil : bytesArrived [] = [] := rfl

@[simp] theorem bytesSent_append (log log' : List CliEvent) :
    bytesSent (log ++ log') = bytesSent log ++ bytesSent log' := List.flatMap_append

@[simp] theorem bytesArrived_append (log log' : List CliEvent) :
    bytesArrived (log ++ log') = bytesArrived log ++ bytesArrived log' := List.flatMap_append

@[simp] theorem bytesSent_sent (data : List UInt8) : bytesSent [.sent data] = data :=
  List.append_nil data

@[simp] theorem bytesArrived_sent (data : List UInt8) : bytesArrived [.sent data] = [] := rfl

@[simp] theorem bytesSent_arrived (data : List UInt8) : bytesSent [.arrived data] = [] := rfl

@[simp] theorem bytesArrived_arrived (data : List UInt8) : bytesArrived [.arrived data] = data :=
  List.append_nil data

/-- Nothing is sent by what is still to arrive. -/
theorem bytesSent_arrivals (recvs : List CliRecv) :
    bytesSent (recvs.map fun r => .arrived r.arrived) = [] := by
  rw [bytesSent, List.flatMap_map]
  exact List.flatMap_eq_nil_iff.mpr fun _ _ => rfl

/-! ## the server -/

/-- How far the server has come, and whether the client is subscribed. -/
inductive ServerPhase where
  | waiting
  | serving (subscribed : Bool)
  | left (subscribed : Bool)
  deriving DecidableEq, Repr

/-- The server: what it has received, its responses in order, and their bytes that
have not arrived. -/
structure SubscriptionServer where
  phase : ServerPhase
  received : List UInt8
  answered : List CliFrame
  inFlight : List UInt8

/-- What the server may send when it has received these bytes. -/
inductive Answers (subscribe unsubscribe received : List UInt8) :
    ServerPhase → CliFrame → ServerPhase → Prop where
  | subscribed (h : subscribe <+: received) :
      Answers subscribe unsubscribe received .waiting (.simple (ascii "OK")) (.serving true)
  | refused (text : List UInt8) (h : subscribe <+: received) :
      Answers subscribe unsubscribe received .waiting (.error text) (.serving false)
  | message (channel text : List UInt8) :
      Answers subscribe unsubscribe received (.serving true) (.message channel text) (.serving true)
  | unsubscribed (subscribed : Bool) (count : Int) (h : subscribe ++ unsubscribe <+: received) :
      Answers subscribe unsubscribe received (.serving subscribed) (.integer count) (.left false)
  | notUnsubscribed (subscribed : Bool) (text : List UInt8)
      (h : subscribe ++ unsubscribe <+: received) :
      Answers subscribe unsubscribe received (.serving subscribed) (.error text) (.left subscribed)
  | lateMessage (channel text : List UInt8) :
      Answers subscribe unsubscribe received (.left true) (.message channel text) (.left true)

namespace SubscriptionServer

/-- A run next to a client that records `log`. -/
inductive Run (subscribe unsubscribe : List UInt8) : List CliEvent → SubscriptionServer → Prop where
  | start : Run subscribe unsubscribe [] ⟨.waiting, [], [], []⟩
  | sent {log : List CliEvent} {s : SubscriptionServer} (data : List UInt8)
      (run : Run subscribe unsubscribe log s) :
      Run subscribe unsubscribe (log ++ [.sent data]) { s with received := s.received ++ data }
  | answer {log : List CliEvent} {s : SubscriptionServer} {f : CliFrame} {phase : ServerPhase}
      (run : Run subscribe unsubscribe log s)
      (answers : Answers subscribe unsubscribe s.received s.phase f phase) (valid : f.Valid) :
      Run subscribe unsubscribe log { s with
        phase := phase, answered := s.answered ++ [f], inFlight := s.inFlight ++ f.encode }
  | arrived {log : List CliEvent} {s : SubscriptionServer} {data rest : List UInt8}
      (run : Run subscribe unsubscribe log s) (flight : s.inFlight = data ++ rest) :
      Run subscribe unsubscribe (log ++ [.arrived data]) { s with inFlight := rest }

end SubscriptionServer

/-! ## the shape of a run -/

/-- The response to `SUBSCRIBE`, the messages up to the response to `UNSUBSCRIBE`,
and all that is sent from there on. -/
structure Exchange (reply : CliFrame) (messages tail : List CliFrame) : Prop where
  reply : reply.kind = .simple ∨ reply.kind = .error ∧ messages = []
  messages : ∀ f ∈ messages, f.kind = .array
  tail : tail = [] ∨ ∃ unreply late, tail = unreply :: late ∧
    (unreply.kind = .integer ∨ unreply.kind = .error) ∧ ∀ f ∈ late, f.kind = .array

/-- The responses of a server in a phase. -/
inductive Responses : ServerPhase → List CliFrame → Prop where
  | waiting : Responses .waiting []
  | serving {reply : CliFrame} {messages : List CliFrame} (subscribed : Bool)
      (exchange : Exchange reply messages [])
      (kind : reply.kind = if subscribed then .simple else .error) :
      Responses (.serving subscribed) (reply :: messages)
  | left {reply : CliFrame} {messages tail : List CliFrame} (subscribed : Bool)
      (exchange : Exchange reply messages tail) (tail_ne : tail ≠ []) :
      Responses (.left subscribed) (reply :: (messages ++ tail))

/-- A message may still be under way behind the reply. -/
theorem Exchange.late {reply f : CliFrame} {messages tail : List CliFrame}
    (h : Exchange reply messages tail) (htail : tail ≠ []) (hf : f.kind = .array) :
    Exchange reply messages (tail ++ [f]) := by
  obtain ⟨unreply, late, rfl, hkind, hlate⟩ := h.tail.resolve_left htail
  refine ⟨h.reply, h.messages, .inr ⟨unreply, late ++ [f], rfl, hkind, ?_⟩⟩
  intro g hg
  rcases List.mem_append.mp hg with hg | hg
  · exact hlate g hg
  · rw [List.mem_singleton.mp hg]
    exact hf

/-- The reply to the `UNSUBSCRIBE` ends the exchange. -/
theorem Exchange.ending {reply f : CliFrame} {messages : List CliFrame}
    (h : Exchange reply messages []) (hf : f.kind = .integer ∨ f.kind = .error) :
    Exchange reply messages [f] :=
  ⟨h.reply, h.messages, .inr ⟨f, [], rfl, hf, fun _ hg => absurd hg List.not_mem_nil⟩⟩

/-- A response keeps the shape. -/
theorem Responses.step {subscribe unsubscribe received : List UInt8} {phase phase' : ServerPhase}
    {f : CliFrame} {answered : List CliFrame} (h : Responses phase answered)
    (hf : Answers subscribe unsubscribe received phase f phase') :
    Responses phase' (answered ++ [f]) := by
  cases hf with
  | subscribed _ =>
    cases h
    exact .serving true ⟨.inl rfl, by simp, .inl rfl⟩ rfl
  | refused text _ =>
    cases h
    exact .serving false ⟨.inr ⟨rfl, rfl⟩, by simp, .inl rfl⟩ rfl
  | message channel text =>
    cases h with
    | serving _ exchange kind =>
      refine .serving true ⟨.inl kind, ?_, .inl rfl⟩ kind
      intro g hg
      rcases List.mem_append.mp hg with hg | hg
      · exact exchange.messages g hg
      · rw [List.mem_singleton.mp hg]
        rfl
  | unsubscribed subscribed count _ =>
    cases h with
    | serving _ exchange kind => exact .left false (exchange.ending (.inl rfl)) (by simp)
  | notUnsubscribed subscribed text _ =>
    cases h with
    | serving _ exchange kind => exact .left subscribed (exchange.ending (.inr rfl)) (by simp)
  | lateMessage channel text =>
    cases h with
    | left _ exchange tail_ne =>
      have hlate := exchange.late tail_ne (f := .message channel text) rfl
      rw [List.cons_append, List.append_assoc]
      exact .left true hlate (by simp)

namespace SubscriptionServer.Run

variable {subscribe unsubscribe : List UInt8} {log pre post : List CliEvent} {s : SubscriptionServer}

/-- The server has received what was sent. -/
theorem received (h : Run subscribe unsubscribe log s) : s.received = bytesSent log := by
  induction h with
  | start => rfl
  | sent data _ ih => simp [ih]
  | answer _ _ _ ih => exact ih
  | arrived _ _ ih => simp [ih]

/-- What has arrived and what is in flight is what was answered. -/
theorem flight (h : Run subscribe unsubscribe log s) :
    bytesArrived log ++ s.inFlight = s.answered.flatMap CliFrame.encode := by
  induction h with
  | start => rfl
  | sent data _ ih => simpa using ih
  | answer _ _ _ ih => simp [← ih]
  | arrived _ hflight ih => simp [← ih, hflight]

/-- Every answer is a valid frame. -/
theorem valid (h : Run subscribe unsubscribe log s) : ∀ f ∈ s.answered, f.Valid := by
  induction h with
  | start => simp
  | sent _ _ ih => exact ih
  | @answer _ s f _ _ _ hvalid ih =>
    intro g hg
    rcases List.mem_append.mp hg with hg | hg
    · exact ih g hg
    · rw [List.mem_singleton.mp hg]
      exact hvalid
  | arrived _ _ ih => exact ih

/-- The answers so far are those of the phase. -/
theorem answered (h : Run subscribe unsubscribe log s) : Responses s.phase s.answered := by
  induction h with
  | start => exact .waiting
  | sent _ _ ih => exact ih
  | answer _ hanswers _ ih => exact ih.step hanswers
  | arrived _ _ ih => exact ih

/-- The response to `UNSUBSCRIBE` is sent when the command has been received. -/
theorem left (h : Run subscribe unsubscribe log s) {subscribed : Bool}
    (hphase : s.phase = .left subscribed) : subscribe ++ unsubscribe <+: bytesSent log := by
  induction h generalizing subscribed with
  | start => cases hphase
  | sent data _ ih =>
    rw [bytesSent_append]
    exact (ih hphase).trans (List.prefix_append _ _)
  | answer run hanswers _ ih =>
    dsimp only at hphase
    subst hphase
    generalize hp : SubscriptionServer.phase _ = phase at hanswers
    cases hanswers with
    | unsubscribed _ _ hreceived => rwa [← run.received]
    | notUnsubscribed _ _ hreceived => rwa [← run.received]
    | lateMessage _ _ => exact ih hp
  | arrived _ _ ih =>
    rw [bytesSent_append, bytesSent_arrived, List.append_nil]
    exact ih hphase

/-- The server at an earlier event. -/
theorem before (h : Run subscribe unsubscribe log s) (hlog : log = pre ++ post) :
    ∃ s', Run subscribe unsubscribe pre s' ∧ s'.answered <+: s.answered := by
  induction h generalizing post with
  | start =>
    obtain ⟨rfl, -⟩ := List.nil_eq_append_iff.mp hlog
    exact ⟨_, .start, List.prefix_rfl⟩
  | @sent log s data run ih =>
    rcases List.eq_nil_or_concat' post with rfl | ⟨post, e, rfl⟩
    · rw [List.append_nil] at hlog
      exact ⟨_, hlog ▸ run.sent data, List.prefix_rfl⟩
    · rw [← List.append_assoc] at hlog
      exact ih (List.append_inj_left' hlog rfl)
  | answer _ _ _ ih =>
    obtain ⟨s', hrun, hpre⟩ := ih hlog
    exact ⟨s', hrun, hpre.trans (List.prefix_append _ _)⟩
  | @arrived log s data rest run hflight ih =>
    rcases List.eq_nil_or_concat' post with rfl | ⟨post, e, rfl⟩
    · rw [List.append_nil] at hlog
      exact ⟨_, hlog ▸ run.arrived hflight, List.prefix_rfl⟩
    · rw [← List.append_assoc] at hlog
      exact ih (List.append_inj_left' hlog rfl)

end SubscriptionServer.Run

/-- While `UNSUBSCRIBE` has not been sent, nothing behind `bound` bytes has
arrived. -/
def Timely (subscribe unsubscribe : List UInt8) (bound : Nat) (log : List CliEvent) : Prop :=
  ∀ pre, pre <+: log → ¬ subscribe ++ unsubscribe <+: bytesSent pre →
    (bytesArrived pre).length ≤ bound

/-- What was timely was timely before. -/
theorem Timely.before {subscribe unsubscribe : List UInt8} {bound : Nat} {pre log : List CliEvent}
    (h : Timely subscribe unsubscribe bound log) (hpre : pre <+: log) :
    Timely subscribe unsubscribe bound pre :=
  fun pre' hpre' => h pre' (hpre'.trans hpre)

/-- What a server has sent without an `UNSUBSCRIBE` comes before the response to
it. -/
theorem Responses.prefix_messages {phase : ServerPhase} {answered : List CliFrame} {reply : CliFrame}
    {messages tail : List CliFrame} (h : Responses phase answered)
    (hphase : ∀ subscribed, phase ≠ .left subscribed) (hexchange : Exchange reply messages tail)
    (hpre : answered <+: reply :: (messages ++ tail)) : answered <+: reply :: messages := by
  cases h with
  | waiting => exact List.nil_prefix
  | left subscribed _ _ => exact absurd rfl (hphase subscribed)
  | @serving reply' messages' _ exchange kind =>
    rw [List.cons_prefix_cons] at hpre ⊢
    refine ⟨hpre.1, ?_⟩
    rcases List.prefix_or_prefix_of_prefix hpre.2 (List.prefix_append messages tail) with h | h
    · exact h
    · obtain ⟨more, rfl⟩ := h
      -- a frame behind the messages would be one of them
      cases more with
      | nil => rw [List.append_nil]
      | cons f more =>
        have hf : f.kind = .array := exchange.messages f (by simp)
        have htail := (List.prefix_append_right_inj messages).mp hpre.2
        rcases hexchange.tail with rfl | ⟨unreply, late, rfl, hkind, -⟩
        · exact absurd (List.prefix_nil.mp htail) (by simp)
        · rw [← (List.cons_prefix_cons.mp htail).1, hf] at hkind
          simp at hkind

namespace SubscriptionServer.Run

variable {subscribe unsubscribe : List UInt8} {log : List CliEvent} {s : SubscriptionServer}
  {reply : CliFrame} {messages tail : List CliFrame}

/-- What has arrived while `UNSUBSCRIBE` has not been sent is the response to
`SUBSCRIBE` and messages. -/
theorem timely (h : Run subscribe unsubscribe log s) (hexchange : Exchange reply messages tail)
    (hanswered : s.answered = reply :: (messages ++ tail)) :
    Timely subscribe unsubscribe ((reply :: messages).flatMap CliFrame.encode).length log := by
  rintro pre ⟨post, hlog⟩ hsent
  obtain ⟨s', hrun, hpre⟩ := h.before hlog.symm
  rw [hanswered] at hpre
  have hphase (subscribed : Bool) : s'.phase ≠ .left subscribed := fun hleft => hsent (hrun.left hleft)
  obtain ⟨more, hmore⟩ := hrun.answered.prefix_messages hphase hexchange hpre
  have hflight := congrArg List.length hrun.flight
  rw [List.length_append] at hflight
  rw [← hmore, List.flatMap_append, List.length_append]
  omega

/-- All that a server sends. -/
theorem exchange (h : Run subscribe unsubscribe log s) (hne : s.answered ≠ []) :
    ∃ reply messages tail, Exchange reply messages tail ∧ s.answered = reply :: (messages ++ tail) ∧
      (tail ≠ [] → subscribe ++ unsubscribe <+: bytesSent log) := by
  have hanswered := h.answered
  generalize hphase : s.phase = phase at hanswered
  generalize s.answered = answered at hne hanswered
  cases hanswered with
  | waiting => exact absurd rfl hne
  | @serving reply messages _ exchange _ =>
    exact ⟨reply, messages, [], exchange, by rw [List.append_nil], fun htail => absurd rfl htail⟩
  | @left reply messages tail _ exchange _ =>
    exact ⟨reply, messages, tail, exchange, rfl, fun _ => h.left hphase⟩

end SubscriptionServer.Run

end Kessel
