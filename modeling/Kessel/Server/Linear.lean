import Kessel.Server.Simulate
import Kessel.Server.Totals

/-!
# Kessel.Server.Linear

One order explains what all connections see.

The server answers many connections at once, a piece at a time, and yet there is
one trace of the broker, whole requests one after the other, that agrees with
every connection: with its replies, with the messages it gets, and with what it
reads from the store.

* `ReachableAt.linearizable` — the trace only grows as the loop goes on;
* `ReachableAt.explained` — replies and messages;
* `ReachableAt.reads_last_write` — reads.
-/

namespace Kessel

open Broker CStr TimedMap
open Relation (ReflTransGen)

variable {cfg : KsConfig} {l l' : KsLoop cfg} {t t' : UInt64} {refused : Nat → Prop}

/-! ## runs of the loop -/

/-- A run from a reachable state. -/
theorem KsLoop.ReachableAt.path (h : l.ReachableAt refused t)
    (hpath : ReflTransGen (KsTimedStep refused) (t, l) (t', l')) : l'.ReachableAt refused t' := by
  generalize hq : (t', l') = q at hpath
  induction hpath generalizing t' l' with
  | refl =>
    cases hq
    exact h
  | @tail p q _ hstep ih =>
    subst hq
    exact .step (ih rfl) hstep

/-- A run of the loop is a sequence of moves; the last one may shut the server
down. -/
theorem KsLoop.ReachableAt.path_moves (h : l.ReachableAt refused t) (hrun : l.phase ≠ .stopped)
    (hpath : ReflTransGen (KsTimedStep refused) (t, l) (t', l')) :
    ∃ s, KsTimedMoves refused t l.server t' s ∧ ((l'.phase ≠ .stopped ∧ l'.server = s) ∨
      (l'.phase = .stopped ∧ l'.server = shutdown s)) := by
  have hpath' := hpath
  generalize hq : (t', l') = q at hpath
  induction hpath generalizing t' l' with
  | refl =>
    cases hq
    exact ⟨_, .refl t l.server, .inl ⟨hrun, rfl⟩⟩
  | @tail p q hbefore hstep ih =>
    obtain ⟨u, l₁⟩ := p
    subst hq
    obtain ⟨s₁, hmoves, hserver⟩ := ih hbefore rfl
    obtain ⟨s₂, hmoves', hserver'⟩ := hstep.moves (h.path hbefore).reachable.inv
    rcases hserver with ⟨-, rfl⟩ | ⟨hstopped, -⟩
    · exact ⟨s₂, hmoves.trans hmoves', hserver'⟩
    · exact absurd hstopped hstep.running

/-- The end of the loop is the end of its runs. -/
theorem KsTimedStep.path_stopped (hstop : l.phase = .stopped)
    (hpath : ReflTransGen (KsTimedStep refused) (t, l) (t', l')) : (t', l') = (t, l) := by
  rcases ReflTransGen.cases_head hpath with heq | ⟨⟨u, l₁⟩, hstep, -⟩
  · exact heq.symm
  · exact absurd hstop hstep.running

/-- Moves of the server, the last of which may have shut it down. -/
theorem KsTimedMoves.shown {s s' : KsServer cfg} {b : KsBroker}
    (hmoves : KsTimedMoves refused t s t' s') (h : ServerShows t s b) (hreached : s.Reached)
    (hserver : l'.server = s' ∨ l'.server = shutdown s')
    (hlt : l'.server.accepted < 2 ^ 64 - 1) : Simulated refused b t' l'.server := by
  have hend := (hmoves.accepted_le hreached).2
  rcases hserver with heq | heq <;> rw [heq] at hlt ⊢
  · exact hmoves.simulated h hreached hlt
  · rw [accepted_shutdown hend.ok] at hlt
    exact (hmoves.simulated h hreached hlt).trans fun b' hshows =>
      hshows.shutdown (hend.agrees hlt)

/-! ## a run -/

/-- A turn whose commands all read the clock at `t` and get what they allocate. -/
theorem KsTurn.orderly_constant {turn : KsTurn} (hturn : ∀ n, (turn.env n).clock = .constant t)
    (hheap : ∀ n site, (turn.env n).heap site = true)
    (hrecvs : RecvsOrderly refused t turn.recvs t) : turn.Orderly refused t t := by
  refine ⟨t, hrecvs, UInt64.le_refl t, ?_, ?_, ?_, ?_, ?_⟩ <;>
    simp [hturn, hheap, KsReadings.constant]

/-- A turn in which nothing happens. -/
theorem orderly_idle : idle.Orderly refused 0 0 :=
  KsTurn.orderly_constant (fun _ => rfl) (fun _ _ => rfl) (UInt64.le_refl 0)

/-- An iteration at one time. -/
theorem path_iteration (s : KsServer pairConfig) {readFds writeFds : Nat → Bool}
    (hread : ∀ fd, readFds fd = true → s.WatchedForReading fd)
    (hwrite : ∀ fd, writeFds fd = true → s.WatchedForWriting fd) {accepts : List KsAccept}
    (hfresh : FreshFds (startIteration s 0) accepts) {t₀ t₁ : KsTurn} (h₀ : t₀.Orderly refused 0 0)
    (h₁ : t₁.Orderly refused 0 0) :
    ReflTransGen (KsTimedStep refused) (0, ⟨s, .top⟩)
      (0, ⟨iteration s readFds writeFds accepts t₀ t₁, .top⟩) := by
  refine .tail (.tail (.tail (.tail (.single (.select 0 0 s readFds writeFds (UInt64.le_refl 0)
    hread hwrite)) (.accept 0 _ readFds writeFds accepts hfresh))
    (.turn 0 0 _ firstSlot readFds writeFds t₀ h₀))
    (.turn 0 0 _ secondSlot readFds writeFds t₁ h₁)) ?_
  exact .next 0 _ readFds writeFds

/-- The connection has been accepted. -/
theorem reachableAt_acceptedServer (refused : Nat → Prop) :
    KsLoop.ReachableAt refused 0 ⟨acceptedServer, .top⟩ := by
  refine KsLoop.ReachableAt.path (.init 0 3 0) (path_iteration _ (fun fd hfd => ?_) (by simp) ?_
    orderly_idle orderly_idle)
  · obtain rfl : fd = 3 := by simpa using hfd
    exact .inl ⟨rfl, rfl⟩
  · refine ⟨⟨by decide, fun j hj => ?_⟩, trivial⟩
    rw [clients_startIteration] at hj
    cases hj

/-- It sends a text, and what the text asks for is served in the same turn. -/
theorem path_received (refused : Nat → Prop) (text : List UInt8) :
    ReflTransGen (KsTimedStep refused) (0, ⟨acceptedServer, .top⟩)
      (0, ⟨iteration acceptedServer (fun fd => fd = 5) (fun _ => false) []
        { idle with recvs := [.ok text idle.env] } idle, .top⟩) := by
  refine path_iteration _ (fun fd hfd => ?_) (by simp) (show FreshFds _ [] from trivial)
    (KsTurn.orderly_constant (fun _ => rfl) (fun _ _ => rfl) ?_) orderly_idle
  · obtain rfl : fd = 5 := by simpa using hfd
    exact .inr ⟨firstSlot, by decide⟩
  · refine ⟨0, ⟨UInt64.le_refl 0, ?_, ?_, ?_, ?_, ?_⟩, UInt64.le_refl 0⟩ <;>
      simp [idle, KsReadings.constant]

/-- It subscribes. -/
theorem path_subscribedServer (refused : Nat → Prop) :
    ReflTransGen (KsTimedStep refused) (0, ⟨acceptedServer, .top⟩)
      (0, ⟨subscribedServer, .top⟩) :=
  path_received refused (ascii "SUBSCRIBE c\n")

/-- It has subscribed. -/
theorem reachableAt_subscribedServer (refused : Nat → Prop) :
    KsLoop.ReachableAt refused 0 ⟨subscribedServer, .top⟩ :=
  (reachableAt_acceptedServer refused).path (path_subscribedServer refused)

/-! ## one order -/

/-- **The server is linearizable.**  Every state of the loop shows a state of the
broker that is reached by whole requests, one after the other; and as the loop
goes on, by any interleaving of its connections, that order only grows.  The
broker goes without memory at the times at which the allocator refuses it, and
when there is no address left. -/
theorem KsLoop.ReachableAt.linearizable (h : l.ReachableAt refused t)
    (hpath : ReflTransGen (KsTimedStep refused) (t, l) (t', l'))
    (hlt : l'.server.accepted < 2 ^ 64 - 1) :
    ∃ trace events b b',
      Run ksScale (ksShort refused) ksProtocol trace b ∧ ServerShows t l.server b ∧
      Run ksScale (ksShort refused) ksProtocol (trace ++ events) b' ∧
      ServerShows t' l'.server b' := by
  by_cases hstop : l.phase = .stopped
  · cases KsTimedStep.path_stopped hstop hpath
    obtain ⟨trace, b, hrun, hshows⟩ := h.shows hlt
    exact ⟨trace, [], b, b, hrun, hshows, (List.append_nil trace).symm ▸ hrun, hshows⟩
  · have hreached := (h.reachable.connected hstop).reached
    obtain ⟨s, hmoves, hserver⟩ := h.path_moves hstop hpath
    have hle : s.accepted = l'.server.accepted := by
      rcases hserver with ⟨-, heq⟩ | ⟨-, heq⟩ <;> rw [heq]
      exact (accepted_shutdown (hmoves.accepted_le hreached).2.ok).symm
    have hbefore := (hmoves.accepted_le hreached).1
    obtain ⟨trace, b, hrun, hshows⟩ := h.shows (by omega)
    obtain ⟨events, b', hsteps, hshows'⟩ :=
      hmoves.shown hshows hreached (hserver.imp And.right And.right) hlt
    exact ⟨trace, events, b, b', hrun, hshows, hrun.steps hsteps, hshows'⟩

/-- A run in which every allocation is granted: no request is refused for want of
memory. -/
theorem linearizable_subscribedServer :
    ∃ trace events b b',
      Run ksScale (ksShort fun _ => False) ksProtocol trace b ∧ ServerShows 0 acceptedServer b ∧
      Run ksScale (ksShort fun _ => False) ksProtocol (trace ++ events) b' ∧
      ServerShows 0 subscribedServer b' := by
  have h := KsLoop.ReachableAt.linearizable (reachableAt_acceptedServer fun _ => False)
    (path_subscribedServer _) subscribedServer_ready.1
  dsimp only at h
  exact h

/-! ## what a connection sees -/

/-- The trace explains what the connection `x` has seen: its requests and their
replies, each reply next to its request, and the messages that were published
while it was subscribed; one that has been dropped has seen a front of these. -/
def Explained (trace : List KsBrokerEvent) (history : List KsEvent) (x : UInt64) : Prop :=
  ∃ log, LogShows history log ∧
    log.filter Item.isExchange = (exchanges x trace).flatMap spoken ∧
    messages log <+: (inbox x trace).messages ∧
    (.dropped ∉ history → messages log = (inbox x trace).messages)

/-- A log that shows a history explains it. -/
theorem LogShows.explainedBy {trace : List KsBrokerEvent} {b : KsBroker}
    (hrun : Run ksScale (ksShort refused) ksProtocol trace b) {history : List KsEvent} {x : UInt64}
    (h : LogShows history (b.log x)) : Explained trace history x := by
  have hinbox := hrun.inbox x
  exact ⟨b.log x, h, hrun.exchanges x, hinbox.seen, fun halive => hinbox.all (h.alive.mpr halive)⟩

/-- **One order explains every connection** there is or was: what each has been
answered, and which messages it has got. -/
theorem KsLoop.ReachableAt.explained (h : l.ReachableAt refused t)
    (hlt : l.server.accepted < 2 ^ 64 - 1) :
    ∃ trace b, Run ksScale (ksShort refused) ksProtocol trace b ∧ ServerShows t l.server b ∧
      (∀ i, (l.server.clients i).used = true →
        Explained trace (l.server.clients i).history (l.server.clients i).id ∧
        ∀ channel, channel ∈ (inbox (l.server.clients i).id trace).channels ↔
          (l.server.clients i).id ∈ l.server.pubsub.subscribersOf channel) ∧
      b.ended.Nodup ∧ List.Forall₂ (Explained trace) l.server.closed b.ended := by
  obtain ⟨trace, b, hrun, hshows⟩ := h.shows hlt
  refine ⟨trace, b, hrun, hshows, fun i hused => ⟨(hshows.logs i hused).explainedBy hrun, ?_⟩,
    hshows.wf.nodup, hshows.closed.imp fun _ _ hlog => hlog.explainedBy hrun⟩
  intro channel
  rw [(hrun.inbox _).channels, hshows.subscriptions.mem_iff]

/-- The connection that subscribed has seen its reply. -/
theorem explained_subscribedServer :
    ∃ trace b, Run ksScale (ksShort fun _ => False) ksProtocol trace b ∧
      ServerShows 0 subscribedServer b ∧
      (∀ i, (subscribedServer.clients i).used = true →
        Explained trace (subscribedServer.clients i).history (subscribedServer.clients i).id ∧
        ∀ channel, channel ∈ (inbox (subscribedServer.clients i).id trace).channels ↔
          (subscribedServer.clients i).id ∈ subscribedServer.pubsub.subscribersOf channel) ∧
      b.ended.Nodup ∧ List.Forall₂ (Explained trace) subscribedServer.closed b.ended := by
  have h := KsLoop.ReachableAt.explained (reachableAt_subscribedServer fun _ => False)
    subscribedServer_ready.1
  dsimp only at h
  exact h

/-! ## what a connection reads -/

/-- The frame of a value. -/
def valueFrame : Option (List UInt8) → CliFrame
  | some value => .bulk value
  | none => .nil

/-- What `GET` is answered. -/
theorem get_answered {trace before after : List KsBrokerEvent} {b : KsBroker} {x : UInt64}
    {request : KsRequest} {reply : CliFrame} {deed : Option (KsAsk × KsAnswer)} {key : CStr}
    (hrun : Run ksScale (ksShort refused) ksProtocol trace b)
    (heq : trace = before ++ .served x request reply deed :: after)
    (hmeaning : requestMeaning request = .inr (.get key)) :
    ∃ v, MayRead (recalled key before) v ∧ reply = valueFrame v := by
  obtain ⟨s₁, s₂, -, hstep⟩ := hrun.at heq
  have hask {ask : KsAsk} (h : ksProtocol.meaning request = .inr ask) : ask = .get key :=
    Sum.inr.inj (h.symm.trans hmeaning)
  cases hstep with
  | plain _ _ _ hlive halive hplain => exact absurd (hmeaning.symm.trans hplain) (by simp)
  | granted _ _ _ ask answer first second entries subs hlive halive hfirst hsecond hgranted hgrants
      htells =>
    obtain rfl := hask hgranted
    cases hgrants with
    | get =>
      refine ⟨_, hrun.reads heq, ?_⟩
      generalize (view first s₁.entries key).map Entry.value = v at htells
      cases htells <;> rfl
  | published _ _ _ channel m takers hlive halive hpublish => exact absurd (hask hpublish) (by simp)

/-- **A `GET` reads the last value that was written**, by whichever connection,
or nothing when its lifetime may be over. -/
theorem KsLoop.ReachableAt.reads_last_write (h : l.ReachableAt refused t)
    (hlt : l.server.accepted < 2 ^ 64 - 1) :
    ∃ trace b, Run ksScale (ksShort refused) ksProtocol trace b ∧ ServerShows t l.server b ∧
      ∀ before after x request reply deed key,
        trace = before ++ .served x request reply deed :: after →
        requestMeaning request = .inr (.get key) →
        ∃ v, MayRead (recalled key before) v ∧ reply = valueFrame v := by
  obtain ⟨trace, b, hrun, hshows⟩ := h.shows hlt
  exact ⟨trace, b, hrun, hshows, fun _ _ _ _ _ _ _ heq hmeaning => get_answered hrun heq hmeaning⟩

/-! ## a run with a write and a read -/

/-- A history in which every request is followed by one frame: the frames are the
replies of the exchanges. -/
theorem exchanges_of_alternating {log : List KsItem} {pairs : List (KsRequest × List UInt8)}
    {xs : List (KsRequest × CliFrame)}
    (hevents : log.map itemEvent = pairs.flatMap fun p => [.request p.1, .queued p.2])
    (hxs : log.filter Item.isExchange = xs.flatMap spoken) :
    xs.map (fun x => (x.1, x.2.encode)) = pairs := by
  induction pairs generalizing log xs with
  | nil =>
    obtain rfl : log = [] := List.map_eq_nil_iff.mp hevents
    cases xs with
    | nil => rfl
    | cons x xs => cases hxs
  | cons p pairs ih =>
    obtain ⟨request, data⟩ := p
    obtain ⟨asked, log, rfl, hasked, htail⟩ := List.map_eq_cons_iff.mp hevents
    obtain ⟨told, log, rfl, htold, hrest⟩ := List.map_eq_cons_iff.mp htail
    cases asked <;> cases hasked
    cases xs with
    | nil => cases hxs
    | cons x xs =>
      cases told with
      | told f =>
        obtain rfl : f.encode = data := KsEvent.queued.inj htold
        have hxs : [.asked request, .told f] ++ log.filter Item.isExchange =
            spoken x ++ xs.flatMap spoken := hxs
        obtain ⟨hx, hreplies⟩ := List.append_inj hxs rfl
        cases hx
        rw [List.map_cons, ih hrest hreplies]
      | message channel m =>
        -- a message in the place of the reply would leave the request without one
        have hfirst : log.filter Item.isExchange = .told x.2 :: xs.flatMap spoken :=
          (List.cons.inj hxs).2
        cases pairs with
        | nil =>
          obtain rfl : log = [] := List.map_eq_nil_iff.mp hrest
          cases hfirst
        | cons q pairs =>
          obtain ⟨asked, log, rfl, hasked, -⟩ := List.map_eq_cons_iff.mp hrest
          cases asked <;> cases hasked
          cases hfirst
      | _ => cases htold

/-- An exchange of a connection stands in the trace. -/
theorem served_of_mem_exchanges {trace : List KsBrokerEvent} {x : UInt64} {request : KsRequest}
    {reply : CliFrame} (h : (request, reply) ∈ exchanges x trace) :
    ∃ before after deed, trace = before ++ .served x request reply deed :: after := by
  obtain ⟨e, he, heq⟩ := List.mem_filterMap.mp h
  obtain ⟨before, after, rfl⟩ := List.append_of_mem he
  cases e with
  | served y r f deed =>
    simp only [Option.ite_none_right_eq_some, Option.some.injEq, Prod.mk.injEq] at heq
    obtain ⟨rfl, rfl, rfl⟩ := heq
    exact ⟨before, after, deed, rfl⟩
  | _ => cases heq

/-- The first connection sets a key and gets it. -/
def storedServer : KsServer pairConfig :=
  iteration acceptedServer (fun fd => fd = 5) (fun _ => false) []
    { idle with recvs := [.ok (ascii "SET k v\nGET k\n") idle.env] } idle

/-- The connection has set the key, and got it. -/
theorem reachableAt_storedServer (refused : Nat → Prop) :
    KsLoop.ReachableAt refused 0 ⟨storedServer, .top⟩ :=
  (reachableAt_acceptedServer refused).path (path_received refused (ascii "SET k v\nGET k\n"))

/-- Its requests and what was queued for them. -/
def storedExchanges : List (KsRequest × List UInt8) :=
  [(.command (ascii "SET k v\n"), ascii "+OK\r\n"),
    (.command (ascii "GET k\n"), ascii "$1\r\nv\r\n")]

/-- It has seen both replies. -/
theorem storedServer_seen : storedServer.accepted < 2 ^ 64 - 1 ∧
    (storedServer.clients firstSlot).used = true ∧ (storedServer.clients firstSlot).id = 1 ∧
    (storedServer.clients firstSlot).history.filter KsEvent.seen =
      storedExchanges.flatMap fun p => [.request p.1, .queued p.2] := by
  decide +kernel

/-- The frame says the value. -/
theorem eq_of_encode_valueFrame {v : Option (List UInt8)}
    (h : (valueFrame v).encode = ascii "$1\r\nv\r\n") : v = some (ascii "v") := by
  have hlen := congrArg List.length h
  rcases v with - | - | ⟨c, - | ⟨d, value⟩⟩
  · exact absurd h (by decide)
  · exact absurd h (by decide)
  · have hbytes : (ascii "$1\r\n" ++ [c]) ++ crlf = (ascii "$1\r\n" ++ ascii "v") ++ crlf := h
    exact congrArg some (List.append_cancel_left (List.append_cancel_right hbytes))
  · have hdigits := length_decimal_pos (c :: d :: value).length
    have hframe : (ascii "$1\r\nv\r\n").length = 7 := by decide
    simp only [valueFrame, CliFrame.encode, length_bulkFrame, hframe, List.length_cons] at hlen hdigits
    omega

/-- The `GET` of the connection stands in the trace, behind a `SET` of the value
that it is answered. -/
theorem reads_last_write_storedServer :
    ∃ trace b, Run ksScale (ksShort fun _ => False) ksProtocol trace b ∧
      ServerShows 0 storedServer b ∧
      ∃ before after deed, trace = before ++
          .served 1 (.command (ascii "GET k\n")) (.bulk (ascii "v")) deed :: after ∧
        MayRead (recalled (.ofBytes (ascii "k")) before) (some (ascii "v")) := by
  obtain ⟨hlt, hused, hid, hseen⟩ := storedServer_seen
  obtain ⟨trace, b, hrun, hshows, hreads⟩ :=
    KsLoop.ReachableAt.reads_last_write (reachableAt_storedServer fun _ => False) hlt
  dsimp only at hshows
  have hlog := hshows.logs firstSlot hused
  rw [hid] at hlog
  have hexchanges := exchanges_of_alternating (hlog.events.symm.trans hseen) (hrun.exchanges 1)
  have hmem : (KsRequest.command (ascii "GET k\n"), ascii "$1\r\nv\r\n") ∈
      (exchanges 1 trace).map fun x => (x.1, x.2.encode) := by
    rw [hexchanges]
    exact List.mem_cons_of_mem _ (List.mem_singleton_self _)
  obtain ⟨⟨request, reply⟩, hserved, heq⟩ := List.mem_map.mp hmem
  obtain ⟨rfl, hreply⟩ := Prod.mk.inj heq
  obtain ⟨before, after, deed, htrace⟩ := served_of_mem_exchanges hserved
  obtain ⟨v, hread, rfl⟩ := hreads before after 1 _ reply deed (.ofBytes (ascii "k")) htrace
    (by decide +kernel)
  obtain rfl := eq_of_encode_valueFrame hreply
  exact ⟨trace, b, hrun, hshows, before, after, deed, htrace, hread⟩

end Kessel
