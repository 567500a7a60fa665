import Kessel.Cli.Stream
import Kessel.Server.Linear

/-!
# Kessel.Server.Printed

From the server to the screen.

What the server queues for a connection is the log of the broker, frame by frame,
and what it sends is a front of that.  `renderResponse` reads these frames.

* `ReachableAt.printed` — a client prints every whole frame that has been sent to
  it, in order.
-/

namespace Kessel

open Broker CStr

variable {cfg : KsConfig} {l : KsLoop cfg} {t : UInt64} {refused : Nat → Prop}

/-! ## the frames of a log -/

/-- The frame of an item. -/
def itemFrame : KsItem → Option CliFrame
  | .told f => some f
  | .message channel m => some (.message channel.bytes m)
  | _ => none

/-- The frames of a log. -/
def logFrames (log : List KsItem) : List CliFrame := log.filterMap itemFrame

/-- What is queued is seen. -/
theorem queuedBytes_filter (history : List KsEvent) :
    queuedBytes (history.filter KsEvent.seen) = queuedBytes history := by
  induction history with
  | nil => rfl
  | cons e history ih =>
    unfold queuedBytes at ih ⊢
    cases e <;> simp [List.filter_cons, KsEvent.seen, ih]

/-- What is queued for a connection is its log, frame by frame. -/
theorem LogShows.queuedBytes {history : List KsEvent} {log : List KsItem}
    (h : LogShows history log) :
    Kessel.queuedBytes history = (logFrames log).flatMap CliFrame.encode := by
  rw [← queuedBytes_filter, h.events]
  clear h
  induction log with
  | nil => rfl
  | cons item log ih =>
    unfold Kessel.queuedBytes logFrames at ih ⊢
    cases item <;> simp [List.filterMap_cons, itemEvent, itemFrame, ih]

/-- The frames of a log are valid. -/
theorem LogShows.valid {history : List KsEvent} {log : List KsItem} (h : LogShows history log) :
    ∀ f ∈ logFrames log, f.Valid := by
  intro f hf
  obtain ⟨item, hitem, hframe⟩ := List.mem_filterMap.mp hf
  have hread := h.readable item hitem
  cases item with
  | asked r => cases hframe
  | told f' => exact Option.some.inj hframe ▸ hread.1
  | message channel m =>
    have hlen : channel.length + m.length ≤ ksMaxRequest := hread
    rw [← Option.some.inj hframe]
    rw [CStr.length] at hlen
    simp only [CliFrame.Valid, ksMaxRequest, kesselCliMaxLine] at hlen ⊢
    omega
  | dropped => cases hframe

/-- A connection of the loop has been sent a front of what was queued for it. -/
theorem KsLoop.Reachable.conserved (h : l.Reachable) {i : Fin cfg.maxClients}
    (hused : (l.server.clients i).used = true) : (l.server.clients i).Conserved := by
  rcases h.cases with ⟨-, hconn⟩ | ⟨-, s, hconn, heq⟩
  · exact hconn.reached.conserved.clients i
  · rw [heq, clients_shutdown hconn.reached.ok i] at hused
    split at hused
    · cases hused
    · next hfree => exact absurd hused hfree

/-- A client that gets the bytes, in whatever chunks, prints each whole frame of the
log in them. -/
def Prints (sent : List UInt8) (log : List KsItem) : Prop :=
  ∀ (frames : List CliFrame) (chunks : List (List UInt8)) (c : Cli),
    frames <+: logFrames log → frames.flatMap CliFrame.encode <+: sent → Streaming c →
    c.unread = [] → c.recvs = chunks.map chunkRecv → chunks.flatten = sent →
    ∃ c', renderResponses frames.length c = (.done (frames.map CliFrame.kind), c') ∧
      c'.stdout = c.stdout ++ frames.flatMap CliFrame.rendered ∧
      frames.flatMap CliFrame.encode ++ c'.ahead = sent

/-- **A client prints what the server has said to it**: what is sent is the log of
the connection, frame by frame, and each whole frame that has been sent is
printed, in whatever chunks it arrives. -/
theorem KsLoop.ReachableAt.printed (h : l.ReachableAt refused t)
    (hlt : l.server.accepted < 2 ^ 64 - 1) :
    ∃ trace b, Run ksScale (ksShort refused) ksProtocol trace b ∧ ServerShows t l.server b ∧
      ∀ i, (l.server.clients i).used = true →
        sentBytes (l.server.clients i).history ++ (l.server.clients i).pending =
          (logFrames (b.log (l.server.clients i).id)).flatMap CliFrame.encode ∧
        Prints (sentBytes (l.server.clients i).history) (b.log (l.server.clients i).id) := by
  obtain ⟨trace, b, hrun, hshows⟩ := h.shows hlt
  refine ⟨trace, b, hrun, hshows, fun i hused =>
    ⟨(h.reachable.conserved hused).trans (hshows.logs i hused).queuedBytes, ?_⟩⟩
  intro frames chunks c hframes hsent hc hunread hrecvs hchunks
  have hvalid (f : CliFrame) (hf : f ∈ frames) : f.Valid :=
    (hshows.logs i hused).valid f (hframes.subset hf)
  obtain ⟨rest, hrest⟩ := hsent
  have hahead : c.ahead = frames.flatMap CliFrame.encode ++ rest := by
    rw [hrest, ← hchunks, Cli.ahead, hunread, hc.wire, hrecvs, List.flatMap_map]
    exact List.flatMap_id
  have hspec := renderResponses_spec feed_streaming hc hvalid hahead
  generalize renderResponses frames.length c = r at *
  obtain ⟨outcome, c'⟩ := r
  cases outcome with
  | done kinds =>
    obtain ⟨rfl, hreads⟩ := hspec
    exact ⟨c', rfl, hreads.stdout, by rw [hreads.ahead, hrest]⟩
  | failed e => exact hspec.elim
  | blocked => exact hspec.elim

/-- The connection that subscribed prints its reply. -/
theorem printed_subscribedServer :
    ∃ trace b, Run ksScale (ksShort fun _ => False) ksProtocol trace b ∧
      ServerShows 0 subscribedServer b ∧
      ∀ i, (subscribedServer.clients i).used = true →
        sentBytes (subscribedServer.clients i).history ++ (subscribedServer.clients i).pending =
          (logFrames (b.log (subscribedServer.clients i).id)).flatMap CliFrame.encode ∧
        Prints (sentBytes (subscribedServer.clients i).history)
          (b.log (subscribedServer.clients i).id) := by
  have h := KsLoop.ReachableAt.printed (reachableAt_subscribedServer fun _ => False)
    subscribedServer_ready.1
  dsimp only at h
  exact h

end Kessel
