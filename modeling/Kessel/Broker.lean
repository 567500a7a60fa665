import Kessel.TimedMap

/-!
# Kessel.Broker

A broker for any number of connections, one request at a time.

A `State` holds entries with deadlines, subscriptions, and what each connection
has seen (`Item`).  `Step` serves one request, whole: what is asked is granted
or refused (`Grants`), a published message goes to everybody of its audience who
has room, and the answer follows at once.  A request is refused because its
deadline is out of range, or because memory is short, and when that is the case
is a parameter (`Shortage`).  The only choice left to an implementation is who
has room.

* `Run.exchanges` — a connection sees its requests answered, each at once, in
  order;
* `Run.inbox` — a connection sees the messages that were published while it was
  subscribed, in the order of the run, each once;
* `Run.reads` — a connection reads the last value that was written.
-/

namespace Broker

open TimedMap

variable {κ ν χ ι ρ α : Type}

/-! ## what is asked and answered -/

/-- What a connection may ask for. -/
inductive Ask (κ ν χ : Type) where
  | set (key : κ) (value : ν) (seconds : Option Nat)
  | get (key : κ)
  | remove (key : κ)
  | contains (key : κ)
  | expire (key : κ) (seconds : Nat)
  | lifetime (key : κ)
  | subscribe (channel : χ)
  | unsubscribe (channel : χ)
  | publish (channel : χ) (message : ν)
  | census
  deriving DecidableEq, Repr

/-- What it is answered. -/
inductive Answer (ν : Type) where
  | done
  | refused
  | value (v : Option ν)
  | flag (b : Bool)
  | number (n : Int)
  | census (keys channels subscriptions : Nat)
  deriving DecidableEq, Repr

/-- The clock: how many ticks a second has, and the first time that cannot be
written down. -/
structure Scale where
  ticks : Nat
  limit : Nat
  deriving DecidableEq, Repr

/-- The deadline of an entry that is given so many seconds. -/
def Scale.deadline (sc : Scale) (now : Nat) : Option Nat → Option (Option Nat)
  | none => some none
  | some seconds =>
    if now + sc.ticks * seconds < sc.limit then some (some (now + sc.ticks * seconds)) else none

/-- The seconds left: -1 for an entry without a deadline, -2 for none. -/
def Scale.left (sc : Scale) (now : Nat) : Option (Entry ν) → Int
  | none => -2
  | some ⟨_, none⟩ => -1
  | some ⟨_, some d⟩ => if d ≤ now then -2 else ((d - now) / sc.ticks : Nat)

/-- How requests and answers are written. -/
structure Protocol (κ ν χ ρ α : Type) where
  /-- a request gets a fixed reply, or asks for something -/
  meaning : ρ → α ⊕ Ask κ ν χ
  /-- the replies that say an answer -/
  tells : Ask κ ν χ → Answer ν → α → Prop

/-! ## states -/

/-- What a connection sees. -/
inductive Item (ν χ ρ α : Type) where
  | asked (r : ρ)
  | told (a : α)
  | message (channel : χ) (m : ν)
  | dropped
  deriving DecidableEq, Repr

def Item.isDropped : Item ν χ ρ α → Bool
  | .dropped => true
  | _ => false

/-- A request, or its reply. -/
def Item.isExchange : Item ν χ ρ α → Bool
  | .asked _ => true
  | .told _ => true
  | _ => false

def Item.published : Item ν χ ρ α → Option (χ × ν)
  | .message channel m => some (channel, m)
  | _ => none

section

variable (r : ρ) (a : α) (channel : χ) (m : ν)

@[simp] theorem Item.isExchange_asked : (.asked r : Item ν χ ρ α).isExchange = true := rfl
@[simp] theorem Item.isExchange_told : (.told a : Item ν χ ρ α).isExchange = true := rfl
@[simp] theorem Item.isExchange_message :
    (.message channel m : Item ν χ ρ α).isExchange = false := rfl
@[simp] theorem Item.isExchange_dropped : (.dropped : Item ν χ ρ α).isExchange = false := rfl
@[simp] theorem Item.published_asked : (.asked r : Item ν χ ρ α).published = none := rfl
@[simp] theorem Item.published_told : (.told a : Item ν χ ρ α).published = none := rfl
@[simp] theorem Item.published_message :
    (.message channel m : Item ν χ ρ α).published = some (channel, m) := rfl
@[simp] theorem Item.published_dropped : (.dropped : Item ν χ ρ α).published = none := rfl
@[simp] theorem Item.isDropped_asked : (.asked r : Item ν χ ρ α).isDropped = false := rfl
@[simp] theorem Item.isDropped_told : (.told a : Item ν χ ρ α).isDropped = false := rfl
@[simp] theorem Item.isDropped_message :
    (.message channel m : Item ν χ ρ α).isDropped = false := rfl
@[simp] theorem Item.isDropped_dropped : (.dropped : Item ν χ ρ α).isDropped = true := rfl

end

/-- The connection has not been dropped. -/
def alive (log : List (Item ν χ ρ α)) : Bool := log.all fun i => !i.isDropped

/-- A broker. -/
structure State (κ ν χ ι ρ α : Type) where
  now : Nat
  entries : κ → Option (Entry ν)
  subscriptions : Finset (χ × ι)
  live : Finset ι
  ended : List ι
  log : ι → List (Item ν χ ρ α)

/-- Before the first connection. -/
def State.initial (now : Nat) : State κ ν χ ι ρ α := ⟨now, fun _ => none, ∅, ∅, [], fun _ => []⟩

/-- What happens, one thing after the other. -/
inductive Event (κ ν χ ι ρ α : Type) where
  | opened (x : ι)
  /-- a request and its reply, with what was asked and answered -/
  | served (x : ι) (request : ρ) (reply : α) (deed : Option (Ask κ ν χ × Answer ν))
  | closed (x : ι)
  deriving DecidableEq, Repr

section

variable [DecidableEq κ] [DecidableEq χ] [DecidableEq ι]

/-- The live subscribers of a channel. -/
def State.audience (s : State κ ν χ ι ρ α) (channel : χ) : Finset ι :=
  s.live.filter fun y => (channel, y) ∈ s.subscriptions ∧ alive (s.log y) = true

/-- A request of `x` and its reply, with what everybody sees in between. -/
def State.exchange (s : State κ ν χ ι ρ α) (x : ι) (request : ρ) (reply : α)
    (notes : ι → List (Item ν χ ρ α)) : State κ ν χ ι ρ α :=
  { s with log := fun y =>
      if y = x then s.log y ++ .asked request :: (notes y ++ [.told reply])
      else s.log y ++ notes y }

/-- What everybody sees of a message that `takers` have room for. -/
def State.notes (s : State κ ν χ ι ρ α) (channel : χ) (m : ν) (takers : Finset ι) (y : ι) :
    List (Item ν χ ρ α) :=
  if y ∈ takers then [.message channel m]
  else if y ∈ s.audience channel then [.dropped]
  else []

/-- When memory is short: at which time, and beside which entries and
subscriptions. -/
abbrev Shortage (κ ν χ ι : Type) := Nat → (κ → Option (Entry ν)) → Finset (χ × ι) → Prop

/-- What is answered to `x`, and what becomes of the entries and the
subscriptions.  Entries are looked up at one time, and deadlines counted from
another. -/
inductive Grants (sc : Scale) (scarce : Prop) (first second : Nat) (x : ι)
    (entries : κ → Option (Entry ν)) (subs : Finset (χ × ι)) :
    Ask κ ν χ → Answer ν → (κ → Option (Entry ν)) → Finset (χ × ι) → Prop where
  | set (key : κ) (value : ν) (seconds d : Option Nat) : sc.deadline second seconds = some d →
      Grants sc scarce first second x entries subs (.set key value seconds) .done
        (Function.update entries key (some ⟨value, d⟩)) subs
  | setRefused (key : κ) (value : ν) (seconds : Option Nat) :
      sc.deadline second seconds = none ∨ scarce →
      Grants sc scarce first second x entries subs (.set key value seconds) .refused entries subs
  | get (key : κ) :
      Grants sc scarce first second x entries subs (.get key)
        (.value ((view first entries key).map Entry.value)) entries subs
  | remove (key : κ) :
      Grants sc scarce first second x entries subs (.remove key)
        (.flag (view first entries key).isSome) (Function.update entries key none) subs
  | contains (key : κ) :
      Grants sc scarce first second x entries subs (.contains key)
        (.flag (view first entries key).isSome) entries subs
  | expireMissing (key : κ) (seconds : Nat) : view first entries key = none →
      Grants sc scarce first second x entries subs (.expire key seconds) (.flag false) entries subs
  | expire (key : κ) (seconds : Nat) (e : Entry ν) (d : Option Nat) :
      view first entries key = some e → sc.deadline second (some seconds) = some d →
      Grants sc scarce first second x entries subs (.expire key seconds) (.flag true)
        (Function.update entries key (some ⟨e.value, d⟩)) subs
  | expireRefused (key : κ) (seconds : Nat) (e : Entry ν) :
      view first entries key = some e → sc.deadline second (some seconds) = none →
      Grants sc scarce first second x entries subs (.expire key seconds) .refused entries subs
  | lifetime (key : κ) :
      Grants sc scarce first second x entries subs (.lifetime key)
        (.number (sc.left second (view first entries key))) entries subs
  | subscribe (channel : χ) :
      Grants sc scarce first second x entries subs (.subscribe channel) .done entries
        (insert (channel, x) subs)
  | subscribeRefused (channel : χ) : (channel, x) ∉ subs → scarce →
      Grants sc scarce first second x entries subs (.subscribe channel) .refused entries subs
  | unsubscribe (channel : χ) :
      Grants sc scarce first second x entries subs (.unsubscribe channel)
        (.flag (decide ((channel, x) ∈ subs))) entries (subs.erase (channel, x))
  | census (keys : Nat) : {k | (view first entries k).isSome}.encard = keys →
      Grants sc scarce first second x entries subs .census
        (.census keys (subs.image Prod.fst).card subs.card) entries subs

/-- One step. -/
inductive Step (sc : Scale) (short : Shortage κ ν χ ι) (p : Protocol κ ν χ ρ α) :
    State κ ν χ ι ρ α → Event κ ν χ ι ρ α → State κ ν χ ι ρ α → Prop where
  | opened (s : State κ ν χ ι ρ α) (x : ι) : x ∉ s.live → x ∉ s.ended →
      Step sc short p s (.opened x) { s with live := insert x s.live }
  | plain (s : State κ ν χ ι ρ α) (x : ι) (request : ρ) (reply : α) : x ∈ s.live →
      alive (s.log x) = true → p.meaning request = .inl reply →
      Step sc short p s (.served x request reply none) (s.exchange x request reply fun _ => [])
  | granted (s : State κ ν χ ι ρ α) (x : ι) (request : ρ) (reply : α) (ask : Ask κ ν χ)
      (answer : Answer ν) (first second : Nat) (entries : κ → Option (Entry ν))
      (subs : Finset (χ × ι)) : x ∈ s.live → alive (s.log x) = true →
      s.now ≤ first → first ≤ second → p.meaning request = .inr ask →
      Grants sc (short second s.entries s.subscriptions) first second x s.entries s.subscriptions
        ask answer entries subs →
      p.tells ask answer reply →
      Step sc short p s (.served x request reply (some (ask, answer)))
        { s.exchange x request reply (fun _ => []) with
          now := second
          entries := entries
          subscriptions := subs }
  | published (s : State κ ν χ ι ρ α) (x : ι) (request : ρ) (reply : α) (channel : χ) (m : ν)
      (takers : Finset ι) : x ∈ s.live → alive (s.log x) = true →
      p.meaning request = .inr (.publish channel m) → takers ⊆ s.audience channel →
      (x ∈ s.audience channel → x ∈ takers) →
      p.tells (.publish channel m) (.number takers.card) reply →
      Step sc short p s
        (.served x request reply (some (.publish channel m, .number takers.card)))
        (s.exchange x request reply (s.notes channel m takers))
  | closed (s : State κ ν χ ι ρ α) (x : ι) : x ∈ s.live →
      Step sc short p s (.closed x)
        { s with
          live := s.live.erase x
          ended := s.ended ++ [x]
          subscriptions := s.subscriptions.filter fun q => q.2 ≠ x }

/-- A run, with its events in order. -/
inductive Run (sc : Scale) (short : Shortage κ ν χ ι) (p : Protocol κ ν χ ρ α) :
    List (Event κ ν χ ι ρ α) → State κ ν χ ι ρ α → Prop where
  | initial (now : Nat) : Run sc short p [] (.initial now)
  | step {trace : List (Event κ ν χ ι ρ α)} {s s' : State κ ν χ ι ρ α} {e : Event κ ν χ ι ρ α} :
      Run sc short p trace s → Step sc short p s e s' → Run sc short p (trace ++ [e]) s'

/-- Some steps, with their events in order. -/
inductive Steps (sc : Scale) (short : Shortage κ ν χ ι) (p : Protocol κ ν χ ρ α) :
    State κ ν χ ι ρ α → List (Event κ ν χ ι ρ α) → State κ ν χ ι ρ α → Prop where
  | refl (s : State κ ν χ ι ρ α) : Steps sc short p s [] s
  | tail {s s' s'' : State κ ν χ ι ρ α} {trace : List (Event κ ν χ ι ρ α)}
      {e : Event κ ν χ ι ρ α} :
      Steps sc short p s trace s' → Step sc short p s' e s'' → Steps sc short p s (trace ++ [e]) s''

section

variable {sc : Scale} {short : Shortage κ ν χ ι} {p : Protocol κ ν χ ρ α}
  {s s' s'' : State κ ν χ ι ρ α} {trace trace' : List (Event κ ν χ ι ρ α)} {e : Event κ ν χ ι ρ α}

/-- One step, as a sequence. -/
theorem Step.steps (h : Step sc short p s e s') : Steps sc short p s [e] s' := .tail (.refl s) h

/-- One sequence of steps behind another. -/
theorem Steps.trans (h : Steps sc short p s trace s') (h' : Steps sc short p s' trace' s'') :
    Steps sc short p s (trace ++ trace') s'' := by
  induction h' with
  | refl => rwa [List.append_nil]
  | tail _ hstep ih => exact List.append_assoc .. ▸ .tail ih hstep

/-- A run goes on. -/
theorem Run.steps (h : Run sc short p trace s) (h' : Steps sc short p s trace' s') :
    Run sc short p (trace ++ trace') s' := by
  induction h' with
  | refl => rwa [List.append_nil]
  | tail _ hstep ih => exact List.append_assoc .. ▸ .step ih hstep

end

end

/-! ## what a connection sees, read off a run -/

/-- The requests of a connection and their replies. -/
def exchanges [DecidableEq ι] (x : ι) (trace : List (Event κ ν χ ι ρ α)) : List (ρ × α) :=
  trace.filterMap fun
    | .served y request reply _ => if y = x then some (request, reply) else none
    | _ => none

/-- What stands in the log of a connection for an exchange. -/
def spoken (exchange : ρ × α) : List (Item ν χ ρ α) := [.asked exchange.1, .told exchange.2]

/-- The channels of a connection, and the messages published on them so far. -/
structure Inbox (ν χ : Type) where
  channels : Finset χ
  messages : List (χ × ν)

/-- What a deed of `y` means for the inbox of `x`. -/
def Inbox.deed [DecidableEq χ] (b : Inbox ν χ) (mine : Bool) :
    Ask κ ν χ × Answer ν → Inbox ν χ
  | (.subscribe channel, .done) =>
    if mine then { b with channels := insert channel b.channels } else b
  | (.unsubscribe channel, _) =>
    if mine then { b with channels := b.channels.erase channel } else b
  | (.publish channel m, _) =>
    if channel ∈ b.channels then { b with messages := b.messages ++ [(channel, m)] } else b
  | _ => b

/-- What an event means for the inbox of `x`. -/
def Inbox.event [DecidableEq χ] [DecidableEq ι] (x : ι) (b : Inbox ν χ) :
    Event κ ν χ ι ρ α → Inbox ν χ
  | .served y _ _ (some deed) => b.deed (decide (y = x)) deed
  | .closed y => if y = x then { b with channels := ∅ } else b
  | _ => b

/-- The inbox of a connection at the end of a run. -/
def inbox [DecidableEq χ] [DecidableEq ι] (x : ι) (trace : List (Event κ ν χ ι ρ α)) :
    Inbox ν χ :=
  trace.foldl (Inbox.event x) ⟨∅, []⟩

section

variable {s s' : State κ ν χ ι ρ α}

/-- What is filtered out of a request, the notes and the reply. -/
theorem filter_exchange (r : ρ) (a : α) (notes : List (Item ν χ ρ α)) :
    (.asked r :: (notes ++ [.told a])).filter Item.isExchange =
      .asked r :: (notes.filter Item.isExchange ++ [.told a]) := by
  simp only [List.filter_cons, List.filter_append, Item.isExchange_asked, Item.isExchange_told,
    if_true, List.filter_nil]

/-- The messages of a log. -/
def messages (log : List (Item ν χ ρ α)) : List (χ × ν) := log.filterMap Item.published

/-- The messages of two logs. -/
theorem messages_append (log log' : List (Item ν χ ρ α)) :
    messages (log ++ log') = messages log ++ messages log' :=
  List.filterMap_append

/-- An exchange adds the messages of its notes. -/
theorem messages_exchange (r : ρ) (a : α) (notes : List (Item ν χ ρ α)) :
    messages (.asked r :: (notes ++ [.told a])) = messages notes := by
  rw [messages, List.filterMap_cons_none rfl, List.filterMap_append, List.filterMap_cons_none rfl,
    List.filterMap_nil, List.append_nil, messages]

theorem alive_append (log log' : List (Item ν χ ρ α)) :
    alive (log ++ log') = (alive log && alive log') :=
  List.all_append

/-- An exchange drops whom its notes drop. -/
theorem alive_exchange (r : ρ) (a : α) (notes : List (Item ν χ ρ α)) :
    alive (.asked r :: (notes ++ [.told a])) = alive notes := by
  simp only [alive, List.all_cons, List.all_append, List.all_nil, Item.isDropped_asked,
    Item.isDropped_told, Bool.not_false, Bool.true_and, Bool.and_true]

/-! ## states that are in order -/

/-- What holds in every state of a run. -/
structure State.Wf (s : State κ ν χ ι ρ α) : Prop where
  nodup : s.ended.Nodup
  disjoint : ∀ x ∈ s.live, x ∉ s.ended
  subscribed : ∀ q ∈ s.subscriptions, q.2 ∈ s.live
  silent : ∀ x, x ∉ s.live → x ∉ s.ended → s.log x = []

/-- A broker starts in order. -/
theorem State.wf_initial (now : Nat) : (State.initial now : State κ ν χ ι ρ α).Wf where
  nodup := .nil
  disjoint := by simp [initial]
  subscribed := by simp [initial]
  silent := fun _ _ _ => rfl

/-- The inbox says what a connection is subscribed to, and what it has seen; one
that has been dropped has seen a front of it. -/
structure State.Agrees (s : State κ ν χ ι ρ α) (x : ι) (b : Inbox ν χ) : Prop where
  channels : ∀ channel, channel ∈ b.channels ↔ (channel, x) ∈ s.subscriptions
  seen : messages (s.log x) <+: b.messages
  all : alive (s.log x) = true → messages (s.log x) = b.messages

/-- Another state, in which the connection has seen no other message. -/
theorem State.Agrees.quiet {x : ι} {b : Inbox ν χ} (h : s.Agrees x b) {b' : Inbox ν χ}
    (hchannels : ∀ channel, channel ∈ b'.channels ↔ (channel, x) ∈ s'.subscriptions)
    (hmessages : b'.messages = b.messages)
    (hlog : messages (s'.log x) = messages (s.log x))
    (halive : alive (s'.log x) = true → alive (s.log x) = true) : s'.Agrees x b' where
  channels := hchannels
  seen := by
    rw [hlog, hmessages]
    exact h.seen
  all := fun ha => by rw [hlog, hmessages, h.all (halive ha)]

variable [DecidableEq ι]

theorem exchanges_snoc (x : ι) (trace : List (Event κ ν χ ι ρ α)) (e : Event κ ν χ ι ρ α) :
    exchanges x (trace ++ [e]) = exchanges x trace ++ exchanges x [e] :=
  List.filterMap_append

/-- Everybody sees the notes, and the connection its request and reply around
them. -/
theorem State.messages_exchange (x y : ι) (request : ρ) (reply : α)
    (notes : ι → List (Item ν χ ρ α)) :
    messages ((s.exchange y request reply notes).log x) =
        messages (s.log x) ++ messages (notes x) ∧
      alive ((s.exchange y request reply notes).log x) = (alive (s.log x) && alive (notes x)) := by
  simp only [exchange]
  split
  · rw [messages_append, alive_append, Broker.messages_exchange, alive_exchange]
    exact ⟨rfl, rfl⟩
  · exact ⟨messages_append .., alive_append ..⟩

/-- What the connection itself sees of an exchange. -/
theorem State.exchange_log_self (x : ι) (request : ρ) (reply : α)
    (notes : ι → List (Item ν χ ρ α)) :
    (s.exchange x request reply notes).log x =
      s.log x ++ .asked request :: (notes x ++ [.told reply]) :=
  if_pos rfl

/-- What the others see of it. -/
theorem State.exchange_log_of_ne {x y : ι} (h : y ≠ x) (request : ρ) (reply : α)
    (notes : ι → List (Item ν χ ρ α)) :
    (s.exchange x request reply notes).log y = s.log y ++ notes y :=
  if_neg h

/-- An exchange of a live connection is seen by live connections only. -/
theorem State.Wf.exchange (h : s.Wf) {x : ι} (hx : x ∈ s.live) (request : ρ) (reply : α)
    {notes : ι → List (Item ν χ ρ α)} (hnotes : ∀ y, y ∉ s.live → notes y = []) :
    (s.exchange x request reply notes).Wf where
  nodup := h.nodup
  disjoint := h.disjoint
  subscribed := h.subscribed
  silent := by
    intro y hlive hended
    have hne : y ≠ x := fun heq => hlive (heq ▸ hx)
    rw [exchange_log_of_ne hne, hnotes y hlive, h.silent y hlive hended, List.nil_append]

variable [DecidableEq χ]

theorem inbox_snoc (x : ι) (trace : List (Event κ ν χ ι ρ α)) (e : Event κ ν χ ι ρ α) :
    inbox x (trace ++ [e]) = (inbox x trace).event x e := by
  simp [inbox]

/-- The audience of a channel is there, subscribed, and has not been dropped. -/
theorem State.mem_audience {channel : χ} {x : ι} :
    x ∈ s.audience channel ↔
      x ∈ s.live ∧ (channel, x) ∈ s.subscriptions ∧ alive (s.log x) = true := by
  simp [audience]

/-- Whoever sees something of a message is there. -/
theorem State.notes_eq_nil {channel : χ} {m : ν} {takers : Finset ι}
    (htakers : takers ⊆ s.audience channel) {x : ι} (hx : x ∉ s.audience channel) :
    s.notes channel m takers x = [] := by
  rw [notes, if_neg fun h => hx (htakers h), if_neg hx]

/-- What a connection sees of a message. -/
theorem State.Agrees.published {x y : ι} {b : Inbox ν χ} (hwf : s.Wf) (h : s.Agrees x b)
    (request : ρ) (reply : α) {channel : χ} {m : ν} {takers : Finset ι}
    (htakers : takers ⊆ s.audience channel) :
    (s.exchange y request reply (s.notes channel m takers)).Agrees x
      (if channel ∈ b.channels then { b with messages := b.messages ++ [(channel, m)] } else b) := by
  obtain ⟨hlog, halive'⟩ := s.messages_exchange x y request reply (s.notes channel m takers)
  by_cases haudience : x ∈ s.audience channel
  · obtain ⟨hlive, hsub, halive⟩ := mem_audience.mp haudience
    rw [if_pos ((h.channels channel).mpr hsub)]
    rw [h.all halive] at hlog
    by_cases htaken : x ∈ takers
    · -- the message has been seen
      rw [notes, if_pos htaken] at hlog
      exact ⟨h.channels, hlog ▸ List.prefix_rfl, fun _ => hlog⟩
    · -- the connection has been dropped instead
      rw [notes, if_neg htaken, if_pos haudience] at hlog halive'
      refine ⟨h.channels, ?_, fun ha => ?_⟩
      · exact (hlog.trans (List.append_nil _)) ▸ List.prefix_append ..
      · rw [halive'] at ha
        simp [alive] at ha
  · rw [s.notes_eq_nil htakers haudience] at hlog halive'
    have hlog' := hlog.trans (List.append_nil _)
    have hmono := fun ha => (Bool.and_eq_true _ _ ▸ halive'.symm.trans ha).1
    by_cases hsub : channel ∈ b.channels
    · -- it was subscribed and has been dropped before
      rw [if_pos hsub]
      refine ⟨h.channels, ?_, fun ha => ?_⟩
      · rw [hlog']
        exact h.seen.trans (List.prefix_append ..)
      · have hmem := (h.channels channel).mp hsub
        exact absurd (mem_audience.mpr ⟨hwf.subscribed _ hmem, hmem, hmono ha⟩) haudience
    · rw [if_neg hsub]
      exact h.quiet h.channels rfl hlog' hmono

variable [DecidableEq κ] {sc : Scale} {short : Shortage κ ν χ ι} {p : Protocol κ ν χ ρ α}
  {trace : List (Event κ ν χ ι ρ α)} {e : Event κ ν χ ι ρ α}

/-- Memory may be said to be scarcer than it is. -/
theorem Grants.mono {scarce scarce' : Prop} {first second : Nat} {x : ι}
    {entries entries' : κ → Option (Entry ν)} {subs subs' : Finset (χ × ι)} {ask : Ask κ ν χ}
    {answer : Answer ν}
    (h : Grants sc scarce first second x entries subs ask answer entries' subs')
    (hs : scarce → scarce') :
    Grants sc scarce' first second x entries subs ask answer entries' subs' := by
  cases h with
  | setRefused key value seconds hrefused => exact .setRefused key value seconds (hrefused.imp_right hs)
  | subscribeRefused channel hnew hrefused => exact .subscribeRefused channel hnew (hs hrefused)
  | set key value seconds d hd => exact .set key value seconds d hd
  | get key => exact .get key
  | remove key => exact .remove key
  | contains key => exact .contains key
  | expireMissing key seconds hnone => exact .expireMissing key seconds hnone
  | expire key seconds e d he hd => exact .expire key seconds e d he hd
  | expireRefused key seconds e he hd => exact .expireRefused key seconds e he hd
  | lifetime key => exact .lifetime key
  | subscribe channel => exact .subscribe channel
  | unsubscribe channel => exact .unsubscribe channel
  | census keys hkeys => exact .census keys hkeys

/-- Only the connection itself is put into the subscriptions. -/
theorem Grants.mem_subs {scarce : Prop} {first second : Nat} {x : ι}
    {entries entries' : κ → Option (Entry ν)} {subs subs' : Finset (χ × ι)} {ask : Ask κ ν χ}
    {answer : Answer ν}
    (h : Grants sc scarce first second x entries subs ask answer entries' subs') :
    ∀ q ∈ subs', q ∈ subs ∨ q.2 = x := by
  intro q hq
  cases h with
  | subscribe channel => grind
  | unsubscribe channel => exact .inl (Finset.mem_of_mem_erase hq)
  | _ => exact .inl hq

/-- **A step keeps the broker in order.** -/
theorem Step.wf (h : s.Wf) (hstep : Step sc short p s e s') : s'.Wf := by
  cases hstep with
  | opened x hlive hended =>
    refine ⟨h.nodup, ?_, ?_, ?_⟩
    · intro y hy
      rcases Finset.mem_insert.mp hy with rfl | hy
      · exact hended
      · exact h.disjoint y hy
    · exact fun q hq => Finset.mem_insert_of_mem (h.subscribed q hq)
    · exact fun y hy hended => h.silent y (fun hmem => hy (Finset.mem_insert_of_mem hmem)) hended
  | plain x request reply hx halive hmeaning => exact h.exchange hx request reply fun _ _ => rfl
  | granted x request reply ask answer first second entries subs hx halive hfirst hsecond hmeaning
      hgrants htells =>
    have hexchange : (s.exchange x request reply fun _ => []).Wf :=
      h.exchange hx request reply fun _ _ => rfl
    refine ⟨hexchange.nodup, hexchange.disjoint, ?_, hexchange.silent⟩
    intro q hq
    rcases hgrants.mem_subs q hq with hq | hq
    · exact h.subscribed q hq
    · exact hq ▸ hx
  | published x request reply channel m takers hx halive hmeaning htakers hself htells =>
    refine h.exchange hx request reply fun y hy => s.notes_eq_nil htakers fun hmem => ?_
    exact hy (State.mem_audience.mp hmem).1
  | closed x hx =>
    refine ⟨?_, ?_, ?_, ?_⟩
    · refine List.nodup_append.mpr ⟨h.nodup, by simp, ?_⟩
      intro y hy z hz heq
      rw [List.mem_singleton.mp hz] at heq
      exact h.disjoint x hx (heq ▸ hy)
    · intro y hy
      obtain ⟨hne, hy⟩ := Finset.mem_erase.mp hy
      simpa [hne] using h.disjoint y hy
    · intro q hq
      obtain ⟨hq, hne⟩ := Finset.mem_filter.mp hq
      exact Finset.mem_erase.mpr ⟨hne, h.subscribed q hq⟩
    · intro y hlive hended
      rw [List.mem_append, List.mem_singleton, not_or] at hended
      exact h.silent y (fun hmem => hlive (Finset.mem_erase.mpr ⟨hended.2, hmem⟩)) hended.1

/-- **Every state of a run is in order.** -/
theorem Run.wf (h : Run sc short p trace s) : s.Wf := by
  induction h with
  | initial now => exact State.wf_initial now
  | step hrun hstep ih => exact hstep.wf ih

/-! ## requests and replies -/

/-- The exchange of a step. -/
theorem Step.exchanges (hstep : Step sc short p s e s') (x : ι) :
    (s'.log x).filter Item.isExchange =
      (s.log x).filter Item.isExchange ++ (exchanges x [e]).flatMap spoken := by
  have hquiet (notes : ι → List (Item ν χ ρ α))
      (hnotes : ∀ y, (notes y).filter Item.isExchange = []) (y : ι) (request : ρ) (reply : α)
      (deed : Option (Ask κ ν χ × Answer ν)) :
      ((s.exchange y request reply notes).log x).filter Item.isExchange =
        (s.log x).filter Item.isExchange ++
          (Broker.exchanges x [.served y request reply deed]).flatMap spoken := by
    by_cases hx : x = y
    · subst hx
      rw [State.exchange_log_self, List.filter_append, filter_exchange, hnotes]
      simp [Broker.exchanges, spoken]
    · simp [State.exchange_log_of_ne hx, Broker.exchanges, hnotes, Ne.symm hx]
  cases hstep with
  | opened y hlive hended => simp [Broker.exchanges]
  | plain y request reply => exact hquiet (fun _ => []) (fun _ => rfl) y request reply none
  | granted y request reply => exact hquiet (fun _ => []) (fun _ => rfl) y request reply _
  | published y request reply channel m takers =>
    refine hquiet _ (fun z => ?_) y request reply _
    unfold State.notes
    split
    · simp
    · split <;> simp
  | closed y hy => simp [Broker.exchanges]

/-- **A connection sees its requests answered**: the requests and replies of its
log are those of the run, each request with its reply right behind it. -/
theorem Run.exchanges (h : Run sc short p trace s) (x : ι) :
    (s.log x).filter Item.isExchange = (exchanges x trace).flatMap spoken := by
  induction h with
  | initial now => rfl
  | step hrun hstep ih =>
    rw [hstep.exchanges, ih, exchanges_snoc, List.flatMap_append]

/-! ## messages -/

/-- What a deed other than a publication does to an inbox. -/
theorem Grants.inbox {scarce : Prop} {first second : Nat} {x y : ι}
    {entries entries' : κ → Option (Entry ν)} {subs subs' : Finset (χ × ι)} {ask : Ask κ ν χ}
    {answer : Answer ν} {b : Inbox ν χ}
    (h : Grants sc scarce first second y entries subs ask answer entries' subs')
    (hb : ∀ channel, channel ∈ b.channels ↔ (channel, x) ∈ subs) :
    (b.deed (decide (y = x)) (ask, answer)).messages = b.messages ∧
      ∀ channel, channel ∈ (b.deed (decide (y = x)) (ask, answer)).channels ↔
        (channel, x) ∈ subs' := by
  cases h with
  | subscribe channel =>
    by_cases hxy : y = x
    · simp [Inbox.deed, hxy, hb]
    · simp [Inbox.deed, hxy, hb, Ne.symm hxy]
  | unsubscribe channel =>
    by_cases hxy : y = x
    · simp [Inbox.deed, hxy, hb]
    · simp [Inbox.deed, hxy, hb, Ne.symm hxy]
  | _ => exact ⟨rfl, hb⟩

/-- The inbox of a step. -/
theorem Step.inbox (hwf : s.Wf) (hstep : Step sc short p s e s') {x : ι} {b : Inbox ν χ}
    (h : s.Agrees x b) : s'.Agrees x (b.event x e) := by
  have hquiet (y : ι) (request : ρ) (reply : α) :
      messages ((s.exchange y request reply fun _ => []).log x) = messages (s.log x) ∧
        (alive ((s.exchange y request reply fun _ => []).log x) = true →
          alive (s.log x) = true) := by
    obtain ⟨hlog, halive⟩ := s.messages_exchange x y request reply fun _ => []
    exact ⟨hlog.trans (List.append_nil _), fun ha => (Bool.and_eq_true _ _ ▸ halive.symm.trans ha).1⟩
  cases hstep with
  | opened y hlive hended => exact ⟨h.channels, h.seen, h.all⟩
  | plain y request reply => exact h.quiet h.channels rfl (hquiet ..).1 (hquiet ..).2
  | granted y request reply ask answer first second entries subs hy halive hfirst hsecond hmeaning
      hgrants htells =>
    have hdeed := hgrants.inbox h.channels
    exact h.quiet hdeed.2 hdeed.1 (hquiet y request reply).1 (hquiet y request reply).2
  | published y request reply channel m takers hy halive hmeaning htakers hself htells =>
    exact h.published hwf request reply htakers
  | closed y hy =>
    by_cases hxy : y = x
    · refine h.quiet (fun channel => ?_) ?_ rfl id <;> simp [Inbox.event, hxy]
    · refine h.quiet (fun channel => ?_) ?_ rfl id <;>
        simp [Inbox.event, hxy, h.channels, Ne.symm hxy]

/-- **A connection sees what was published while it was subscribed**, in the
order of the run, each message once; one that has been dropped has seen a front
of it. -/
theorem Run.inbox (h : Run sc short p trace s) (x : ι) : s.Agrees x (inbox x trace) := by
  induction h with
  | initial now =>
    exact ⟨by simp [Broker.inbox, State.initial], List.nil_prefix, fun _ => rfl⟩
  | step hrun hstep ih =>
    rw [inbox_snoc]
    exact hstep.inbox hrun.wf ih

/-- What is granted is what the request asks for. -/
theorem Step.meaning {x : ι} {request : ρ} {reply : α} {ask : Ask κ ν χ} {answer : Answer ν}
    (hstep : Step sc short p s (.served x request reply (some (ask, answer))) s') :
    p.meaning request = .inr ask := by
  cases hstep with
  | granted _ _ _ _ _ _ _ _ _ _ _ _ _ hmeaning => exact hmeaning
  | published _ _ _ _ _ _ _ _ hmeaning => exact hmeaning

/-- A connection that asks for no subscription gets no message. -/
theorem Run.inbox_eq_empty (h : Run sc short p trace s) {x : ι}
    (hnone : ∀ exchange ∈ Broker.exchanges x trace, ∀ channel,
      p.meaning exchange.1 ≠ .inr (.subscribe channel)) : Broker.inbox x trace = ⟨∅, []⟩ := by
  induction h with
  | initial now => rfl
  | @step trace s s' e hrun hstep ih =>
    rw [exchanges_snoc] at hnone
    rw [inbox_snoc, ih fun exchange he => hnone exchange (List.mem_append_left _ he)]
    cases e with
    | opened y => rfl
    | closed y => simp [Inbox.event]
    | served y request reply deed =>
      cases deed with
      | none => rfl
      | some deed =>
        obtain ⟨ask, answer⟩ := deed
        have hmeaning := hstep.meaning
        by_cases hy : y = x
        · have hask : ∀ channel, ask ≠ .subscribe channel := fun channel hask =>
            hnone (request, reply) (by simp [Broker.exchanges, hy]) channel (hask ▸ hmeaning)
          cases ask with
          | subscribe channel => exact absurd rfl (hask channel)
          | _ => cases answer <;> simp [Inbox.event, Inbox.deed]
        · cases ask <;> cases answer <;> simp [Inbox.event, Inbox.deed, hy]

/-! ## what is remembered -/

/-- What an event means for a key: its value, and whether it may run out. -/
def remember (key : κ) (w : Option (ν × Bool)) : Event κ ν χ ι ρ α → Option (ν × Bool)
  | .served _ _ _ (some (.set k v seconds, .done)) =>
    if k = key then some (v, seconds.isSome) else w
  | .served _ _ _ (some (.remove k, _)) => if k = key then none else w
  | .served _ _ _ (some (.expire k _, .flag true)) =>
    if k = key then w.map fun v => (v.1, true) else w
  | _ => w

/-- The last value of a key, and whether it may have run out. -/
def recalled (key : κ) (trace : List (Event κ ν χ ι ρ α)) : Option (ν × Bool) :=
  trace.foldl (remember key) none

/-- What is remembered of an entry. -/
def remembered (e : Entry ν) : ν × Bool := (e.value, e.deadline.isSome)

/-- A deadline is given to whom seconds are given. -/
theorem Scale.isSome_deadline {now : Nat} {seconds d : Option Nat}
    (h : sc.deadline now seconds = some d) : d.isSome = seconds.isSome := by
  cases seconds with
  | none => simp_all [deadline]
  | some n =>
    unfold deadline at h
    grind

/-- What a deed does to a key. -/
theorem Grants.recalled {scarce : Prop} {first second : Nat} {x : ι}
    {entries entries' : κ → Option (Entry ν)} {subs subs' : Finset (χ × ι)} {ask : Ask κ ν χ}
    {answer : Answer ν} {request : ρ} {reply : α}
    (h : Grants sc scarce first second x entries subs ask answer entries' subs') (key : κ) :
    (entries' key).map remembered =
      remember key ((entries key).map remembered)
        (.served x request reply (some (ask, answer)) : Event κ ν χ ι ρ α) := by
  have hupdate (k : κ) (e : Option (Entry ν)) : (Function.update entries k e key).map remembered =
      if k = key then e.map remembered else (entries key).map remembered := by
    by_cases hk : key = k
    · simp [hk]
    · simp [hk, Ne.symm hk]
  cases h with
  | set k v seconds d hd =>
    rw [hupdate]
    simp only [remember, Option.map_some, remembered, sc.isSome_deadline hd]
  | remove k => exact hupdate k none
  | expire k seconds e d hview hd =>
    have hentry : entries k = some e := (Option.filter_eq_some_iff.mp hview).1
    rw [hupdate]
    by_cases hk : k = key
    · subst hk
      simp [remember, hentry, remembered, sc.isSome_deadline hd]
    · simp [remember, hk]
  | _ => rfl

/-- What a step does to a key is what its event says. -/
theorem Step.recalled (hstep : Step sc short p s e s') (key : κ) :
    (s'.entries key).map remembered = remember key ((s.entries key).map remembered) e := by
  cases hstep with
  | granted x request reply ask answer first second entries subs hx halive hfirst hsecond hmeaning
      hgrants htells => exact hgrants.recalled key
  | _ => rfl

/-- The entries are what the run says about the keys. -/
theorem Run.recalled (h : Run sc short p trace s) (key : κ) :
    (s.entries key).map remembered = recalled key trace := by
  induction h with
  | initial now => rfl
  | step hrun hstep ih =>
    rw [hstep.recalled, ih, Broker.recalled, Broker.recalled, List.foldl_append, List.foldl_cons,
      List.foldl_nil]

/-- The step of an event in the middle of a run. -/
theorem Run.at (h : Run sc short p trace s) {before after : List (Event κ ν χ ι ρ α)}
    (heq : trace = before ++ e :: after) :
    ∃ s₁ s₂, Run sc short p before s₁ ∧ Step sc short p s₁ e s₂ := by
  induction h generalizing after with
  | initial now => simp at heq
  | @step trace s₁ s₂ e' hrun hstep ih =>
    rcases List.eq_nil_or_concat after with rfl | ⟨after, last, rfl⟩
    · obtain ⟨htrace, hlast⟩ := List.append_inj' heq rfl
      cases hlast
      exact ⟨s₁, s₂, htrace ▸ hrun, hstep⟩
    · rw [List.concat_eq_append, ← List.cons_append, ← List.append_assoc] at heq
      exact ih (List.append_inj' heq rfl).1

/-- What may be read of a key. -/
inductive MayRead : Option (ν × Bool) → Option ν → Prop where
  | absent : MayRead none none
  | present (v : ν) (lasting : Bool) : MayRead (some (v, lasting)) (some v)
  | over (v : ν) : MayRead (some (v, true)) none

/-- **A reader sees the last value that was written**, or nothing when it may
have run out. -/
theorem Run.reads (h : Run sc short p trace s) {before after : List (Event κ ν χ ι ρ α)} {x : ι}
    {request : ρ} {reply : α} {key : κ} {v : Option ν}
    (heq : trace = before ++ .served x request reply (some (.get key, .value v)) :: after) :
    MayRead (Broker.recalled key before) v := by
  obtain ⟨s₁, s₂, hrun, hstep⟩ := h.at heq
  have hkey := hrun.recalled key
  cases hstep with
  | granted _ _ _ _ _ first second entries subs hx halive hfirst hsecond hmeaning hgrants htells =>
    cases hgrants
    rw [← hkey, view]
    rcases s₁.entries key with _ | ⟨w, d⟩
    · exact .absent
    · cases hlive : Entry.live first ⟨w, d⟩ with
      | true =>
        rw [Option.filter_some_pos hlive]
        exact .present w d.isSome
      | false =>
        rw [Option.filter_some_neg (by simp [hlive])]
        cases d with
        | none => simp [Entry.live] at hlive
        | some d => exact .over w

end

end Broker
