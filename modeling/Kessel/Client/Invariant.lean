import Kessel.Client

/-!
# Kessel.Client.Invariant

What holds of one connection at all times.

`KsClient.Ok`: the queue and the input are in bounds, a client whose
`drop_connection` is set has its output at the high-water mark, and its history
is `Quiet`: after `dropped` no command is dispatched, nothing is queued and
nothing is sent.
-/

namespace Kessel

/-- The events that a dead connection must not have. -/
def KsEvent.active : KsEvent → Bool
  | .request _ => true
  | .queued _ => true
  | .sent _ => true
  | _ => false

/-- Nothing active happens after `dropped`. -/
def Quiet (history : List KsEvent) : Prop :=
  ∀ before after, history = before ++ .dropped :: after → ∀ e ∈ after, e.active = false

/-- Nothing was dropped, so nothing is behind it. -/
theorem quiet_nil : Quiet [] := by
  intro before after h
  simp at h

/-- A history without a drop is quiet. -/
theorem quiet_of_not_mem {history : List KsEvent} (h : .dropped ∉ history) : Quiet history := by
  rintro before after rfl
  simp at h

/-- A history stays quiet when a passive event is added, or when the connection
has not been dropped. -/
theorem Quiet.snoc {history : List KsEvent} (h : Quiet history) {e : KsEvent}
    (he : e.active = false ∨ .dropped ∉ history) : Quiet (history ++ [e]) := by
  intro before after heq e' he'
  rcases List.eq_nil_or_concat after with rfl | ⟨after', last, rfl⟩
  · simp at he'
  · rw [List.concat_eq_append, ← List.cons_append, ← List.append_assoc] at heq
    obtain ⟨hhist, hlast⟩ := List.append_inj' heq rfl
    have hin : .dropped ∈ history := by rw [hhist]; simp
    rw [List.concat_eq_append, List.mem_append, List.mem_singleton] at he'
    rcases he' with he' | rfl
    · exact h before after' hhist e' he'
    · rw [List.cons.injEq] at hlast
      rw [← hlast.1]
      exact he.resolve_right (not_not_intro hin)

/-- Passive events never disturb. -/
theorem Quiet.append {history : List KsEvent} (h : Quiet history) {events : List KsEvent}
    (he : ∀ e ∈ events, e.active = false) : Quiet (history ++ events) := by
  induction events generalizing history with
  | nil => simpa using h
  | cons e events ih =>
    obtain ⟨hhead, htail⟩ := List.forall_mem_cons.mp he
    rw [List.append_cons]
    exact ih (h.snoc (.inl hhead)) htail

/-- The invariant of a connection. -/
structure KsClient.Ok (c : KsClient) : Prop extends c.QueueOk where
  inputLen_le : c.inputLen ≤ ksInputCap
  dead : c.dropConnection = true → ksOutputHighWater ≤ c.pendingLen
  dropped : .dropped ∈ c.history ↔ c.dropConnection = true
  quiet : Quiet c.history

namespace KsClient

variable {c c' : KsClient}

/-- A free slot is in order. -/
theorem ok_free : KsClient.free.Ok where
  offset_le := le_refl _
  len_le := Nat.zero_le _
  inputLen_le := Nat.zero_le _
  dead := by simp [free]
  dropped := by simp [free]
  quiet := quiet_nil

/-- A connection below the high-water mark is alive. -/
theorem Ok.alive (h : c.Ok) (hp : c.pendingLen < ksOutputHighWater) : c.dropConnection = false := by
  rw [Bool.eq_false_iff]
  intro hd
  have := h.dead hd
  omega

/-- A client that is not to be closed was not dropped. -/
theorem Ok.not_dropped (h : c.Ok) (hd : c.dropConnection = false) : .dropped ∉ c.history := by
  rw [h.dropped, hd]
  simp

/-- A connection that goes on living, with one more event. -/
theorem Ok.step (h : c.Ok) (hq : c'.QueueOk) (hin : c'.inputLen ≤ ksInputCap)
    (hdrop : c'.dropConnection = c.dropConnection) {e : KsEvent}
    (hhist : c'.history = c.history ++ [e]) (he : e ≠ .dropped)
    (hactive : e.active = false ∨ c.dropConnection = false)
    (hlen : c.dropConnection = true → c.pendingLen ≤ c'.pendingLen) : c'.Ok where
  toQueueOk := hq
  inputLen_le := hin
  dead := by
    rw [hdrop]
    intro hd
    exact (h.dead hd).trans (hlen hd)
  dropped := by
    rw [hhist, hdrop, List.mem_append, List.mem_singleton, h.dropped]
    constructor
    · rintro (hd | rfl)
      · exact hd
      · exact absurd rfl he
    · exact .inl
  quiet := by
    rw [hhist]
    exact h.quiet.snoc (hactive.imp (fun h => h) h.not_dropped)

/-- A connection with the same history. -/
theorem Ok.same (h : c.Ok) (hq : c'.QueueOk) (hin : c'.inputLen ≤ ksInputCap)
    (hdrop : c'.dropConnection = c.dropConnection) (hhist : c'.history = c.history)
    (hlen : c.dropConnection = true → c.pendingLen ≤ c'.pendingLen) : c'.Ok where
  toQueueOk := hq
  inputLen_le := hin
  dead := by
    rw [hdrop]
    intro hd
    exact (h.dead hd).trans (hlen hd)
  dropped := by rw [hhist, hdrop, h.dropped]
  quiet := by
    rw [hhist]
    exact h.quiet

/-- Whatever happens to a client that is not dropped may be logged. -/
theorem Ok.log (h : c.Ok) {e : KsEvent} (he : e ≠ .dropped)
    (hactive : e.active = false ∨ c.dropConnection = false) : (c.log e).Ok :=
  h.step ⟨h.offset_le, h.len_le⟩ h.inputLen_le rfl rfl he hactive fun _ => le_refl _

/-- The input may change. -/
theorem Ok.setInput (h : c.Ok) (m : Mem) {n : Nat} (hn : n ≤ ksInputCap) (closing : Bool) :
    KsClient.Ok { c with input := m, inputLen := n, closeAfterWrite := closing } :=
  h.same ⟨h.offset_le, h.len_le⟩ hn rfl rfl fun _ => le_refl _

/-- Queueing keeps a living connection in order, whether the buffer fits or not. -/
theorem Ok.queue (h : c.Ok) (hd : c.dropConnection = false) (data : List UInt8) :
    (clientQueue c data).1.Ok := by
  obtain ⟨c', hq, hsame, hcase⟩ := clientQueue_spec h.toQueueOk data
  have hin : c'.inputLen ≤ ksInputCap := by
    rw [hsame.inputLen]
    exact h.inputLen_le
  have hlen : c.dropConnection = true → c.pendingLen ≤ c'.pendingLen := by simp [hd]
  rcases hcase with ⟨-, heq, -, hhist⟩ | ⟨-, heq, -, hhist⟩
  · rw [heq]
    exact h.step hq hin hsame.dropConnection hhist (by simp) (.inr hd) hlen
  · rw [heq]
    exact h.same hq hin hsame.dropConnection hhist hlen

/-- Writing keeps a living connection in order. -/
theorem Ok.write (h : c.Ok) (hd : c.dropConnection = false) (sends : List KsSend) :
    (writeClient c sends).1.Ok := by
  obtain ⟨hq, hsame, events, hhist, hevents, -⟩ := writeClient_spec h.toQueueOk sends
  have hnot : .dropped ∉ (writeClient c sends).1.history := by
    rw [hhist, List.mem_append, not_or]
    refine ⟨h.not_dropped hd, fun hmem => ?_⟩
    rcases hevents _ hmem with ⟨data, heq⟩ | heq <;> cases heq
  exact
    { toQueueOk := hq
      inputLen_le := by rw [hsame.inputLen]; exact h.inputLen_le
      dead := by simp [hsame.dropConnection, hd]
      dropped := by simp [hnot, hsame.dropConnection, hd]
      quiet := quiet_of_not_mem hnot }

end KsClient

end Kessel
