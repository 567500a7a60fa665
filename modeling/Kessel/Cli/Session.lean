import Kessel.Cli.Peer
import Kessel.Cli.Stream

/-!
# Kessel.Cli.Session

The client while `subscription_active` is set, in any environment.

`Session` is what holds between two calls: `UNSUBSCRIBE` has been sent whole or
not at all, and it was sent because the flag is raised.  A call that does not
succeed leaves at most a part of the command sent (`Broken`, `Stuck`), and one
that is interrupted finds the buffer empty and the deadline passed.
`feed_session` gives the functions of the reader and of rendering for it, whatever
the scripts of the system are.
-/

namespace Kessel

/-! ## system calls -/

/-- Looking at the flag may find it up, and changes nothing else. -/
theorem subscriptionInterrupted_eq (c : Cli) :
    ∃ i, (c.interrupted = true → i = true) ∧
      subscriptionInterrupted c = (.done i, { c with interrupted := i, signals := c.signals.tail }) :=
  ⟨c.interrupted || c.signals.headD false, fun h => by rw [h]; rfl, rfl⟩

/-- The clock is missing, or it does not go back. -/
theorem clockGettime_eq (c : Cli) :
    (c.hasClock = false ∧ clockGettime c = (.done none, c)) ∨
      ∃ now ticks, c.hasClock = true ∧ c.now ≤ now ∧
        clockGettime c = (.done (some now), { c with now := now, ticks := ticks }) := by
  unfold clockGettime
  by_cases h : c.hasClock = true
  · rw [if_pos h]
    exact .inr ⟨c.now + c.ticks.headD 0, c.ticks.tail, h, Nat.le_add_right _ _, rfl⟩
  · rw [if_neg h]
    exact .inl ⟨by simpa using h, rfl⟩

/-- What `write_all` has sent when it ends. -/
inductive Wrote (data : List UInt8) : Outcome ResponseStatus Bool → List UInt8 → Prop where
  | all : Wrote data (.done true) data
  | failed {sent : List UInt8} (h : sent <+: data) : Wrote data (.done false) sent
  | blocked {sent : List UInt8} (h : sent <+: data) : Wrote data .blocked sent

/-- A part of the data has been sent. -/
theorem Wrote.part {data sent : List UInt8} {outcome : Outcome ResponseStatus Bool} (n : Nat)
    (h : Wrote (data.drop n) outcome sent) : Wrote data outcome (data.take n ++ sent) := by
  have hpre {sent : List UInt8} (hsent : sent <+: data.drop n) : data.take n ++ sent <+: data := by
    rw [← List.prefix_append_right_inj (data.take n), List.take_append_drop] at hsent
    exact hsent
  cases h with
  | all =>
    rw [List.take_append_drop]
    exact .all
  | failed h => exact .failed (hpre h)
  | blocked h => exact .blocked (hpre h)

/-- What is written is written whole, or up to where it failed. -/
theorem writeAllLoop_eq (data : List UInt8) (c : Cli) (sends : List CliSend) :
    ∃ outcome sends' more, Wrote data outcome (bytesSent more) ∧ bytesArrived more = [] ∧
      writeAllLoop data c sends = (outcome, { c with sends := sends', log := c.log ++ more }) := by
  induction sends generalizing data c with
  | nil =>
    unfold writeAllLoop
    split
    · next h => exact ⟨.done true, [], [], by rw [h]; exact .all, rfl, by simp⟩
    · exact ⟨.blocked, [], [], .blocked List.nil_prefix, rfl, by simp⟩
  | cons send sends ih =>
    unfold writeAllLoop
    split
    · next h => exact ⟨.done true, send :: sends, [], by rw [h]; exact .all, rfl, by simp⟩
    · cases send with
      | sent n =>
        obtain ⟨outcome, sends', more, hwrote, harrived, heq⟩ :=
          ih (data.drop (max n 1)) { c with log := c.log ++ [.sent (data.take (max n 1))] }
        refine ⟨outcome, sends', .sent (data.take (max n 1)) :: more, hwrote.part _, harrived, ?_⟩
        dsimp only
        rw [heq]
        simp
      | eintr => exact ih data c
      | failed => exact ⟨.done false, sends, [], .failed List.nil_prefix, rfl, by simp⟩

/-- So it is by `write_all`. -/
theorem writeAll_eq (data : List UInt8) (c : Cli) :
    ∃ outcome sends more, Wrote data outcome (bytesSent more) ∧ bytesArrived more = [] ∧
      writeAll data c = (outcome, { c with sends := sends, log := c.log ++ more }) :=
  writeAllLoop_eq data c c.sends

/-! ## what holds in a session -/

/-- A client that has sent `subscribe`, for the arrival of `total`, and is behind
`start`. -/
structure Session (subscribe unsubscribe total : List UInt8) (start : List CliEvent) (c : Cli) :
    Prop where
  active : c.active = true
  command : c.unsubscribe = some unsubscribe
  sent : bytesSent c.log = if c.unsubscribeSent then subscribe ++ unsubscribe else subscribe
  flag : c.unsubscribeSent = true → c.interrupted = true
  arrived : bytesArrived c.log ++ c.recvs.flatMap CliRecv.arrived = total
  log : start <+: c.log

/-- The deadline for the response to `UNSUBSCRIBE` has passed, with nothing to
read. -/
structure Cli.TimedOut (c : Cli) : Prop where
  unread : c.unread = []
  sent : c.unsubscribeSent = true
  late : c.hasClock = true → c.deadline ≤ c.now

/-- A call has failed. -/
def Broken (subscribe unsubscribe total : List UInt8) (start : List CliEvent) (e : ResponseStatus)
    (c : Cli) : Prop :=
  bytesSent c.log <+: subscribe ++ unsubscribe ∧
    (e = .interrupted → Session subscribe unsubscribe total start c ∧ c.TimedOut)

/-- A call waits for ever. -/
def Stuck (subscribe unsubscribe : List UInt8) (c : Cli) : Prop :=
  bytesSent c.log <+: subscribe ++ unsubscribe

/-- What the calls around `recv` leave as it is. -/
structure Held (c c' : Cli) : Prop where
  unread : c'.unread = c.unread
  wire : c'.wire = c.wire
  recvs : c'.recvs = c.recvs
  stdout : c'.stdout = c.stdout
  polls : c'.polls.length ≤ c.polls.length

theorem Held.refl (c : Cli) : Held c c := ⟨rfl, rfl, rfl, rfl, le_rfl⟩

/-- What is held on to is held on to in a row. -/
theorem Held.trans {c c' c'' : Cli} (h : Held c c') (h' : Held c' c'') : Held c c'' :=
  ⟨h'.unread.trans h.unread, h'.wire.trans h.wire, h'.recvs.trans h.recvs,
    h'.stdout.trans h.stdout, h'.polls.trans h.polls⟩

/-- What lies ahead of the reader is the same. -/
theorem Held.ahead {c c' : Cli} (h : Held c c') : c'.ahead = c.ahead := by
  rw [Cli.ahead, Cli.ahead, h.unread, h.wire, h.recvs]

section

variable {subscribe unsubscribe total : List UInt8} {start : List CliEvent} {c : Cli}

/-- What was sent is a front of both commands. -/
theorem Session.sent_prefix (h : Session subscribe unsubscribe total start c) :
    bytesSent c.log <+: subscribe ++ unsubscribe := by
  rw [h.sent]
  split
  · exact List.prefix_rfl
  · exact List.prefix_append _ _

/-- A session can be looked at from later on. -/
theorem Session.restart (h : Session subscribe unsubscribe total start c) {start' : List CliEvent}
    (hstart : start' <+: c.log) : Session subscribe unsubscribe total start' c :=
  ⟨h.active, h.command, h.sent, h.flag, h.arrived, hstart⟩

/-- An error is not an interrupt. -/
theorem Session.broken (h : Session subscribe unsubscribe total start c) {e : ResponseStatus}
    (he : e ≠ .interrupted) : Broken subscribe unsubscribe total start e c :=
  ⟨h.sent_prefix, fun hi => absurd hi he⟩

/-- The flag is looked at. -/
theorem subscriptionInterrupted_spec (h : Session subscribe unsubscribe total start c) :
    Ends (fun i c' => Session subscribe unsubscribe total start c' ∧ Held c c' ∧ c'.interrupted = i ∧
        (c.interrupted = true → i = true) ∧ c'.unsubscribeSent = c.unsubscribeSent)
      (Broken subscribe unsubscribe total start) (Stuck subscribe unsubscribe)
      (subscriptionInterrupted c) := by
  obtain ⟨i, hi, heq⟩ := subscriptionInterrupted_eq c
  rw [heq]
  exact ⟨⟨h.active, h.command, h.sent, fun hsent => hi (h.flag hsent), h.arrived, h.log⟩,
    ⟨rfl, rfl, rfl, rfl, le_rfl⟩, rfl, hi, rfl⟩

/-- `UNSUBSCRIBE` is sent when the flag is raised. -/
theorem sendPendingUnsubscribe_spec (h : Session subscribe unsubscribe total start c) :
    Ends (fun _ c' => Session subscribe unsubscribe total start c' ∧ Held c c' ∧
        (c.interrupted = true → c'.unsubscribeSent = true))
      (Broken subscribe unsubscribe total start) (Stuck subscribe unsubscribe)
      (sendPendingUnsubscribe c) := by
  unfold sendPendingUnsubscribe
  refine (subscriptionInterrupted_spec h).bind ?_
  rintro i c₁ ⟨h₁, hheld, hi, hsticky, -⟩
  refine .get ?_
  split
  · next hnone =>
    refine .pure ⟨h₁, hheld, fun hraised => ?_⟩
    rcases hnone with hlow | hsent
    · exact absurd (hsticky hraised) hlow
    · exact hsent
  · next hpending =>
    have hraised : i = true := by
      by_contra hlow
      exact hpending (.inl hlow)
    have hunsent : c₁.unsubscribeSent = false := by
      by_contra hsent
      exact hpending (.inr (by simpa using hsent))
    have hsent₁ := h₁.sent
    rw [if_neg (by simp [hunsent])] at hsent₁
    rw [h₁.command]
    dsimp only
    obtain ⟨outcome, sends, more, hwrote, harrived, heq⟩ := writeAll_eq unsubscribe c₁
    have hpart {e : ResponseStatus} (he : e ≠ .interrupted) (hmore : bytesSent more <+: unsubscribe) :
        Broken subscribe unsubscribe total start e
          { c₁ with sends := sends, log := c₁.log ++ more } := by
      refine ⟨?_, fun hi => absurd hi he⟩
      rw [bytesSent_append, hsent₁, List.prefix_append_right_inj]
      exact hmore
    generalize hmoreSent : bytesSent more = sent at hwrote
    cases hwrote with
    | failed hpre =>
      rw [Prog.bind_done heq, if_neg (by simp)]
      exact .fail (hpart (by simp) (hmoreSent ▸ hpre))
    | blocked hpre =>
      rw [Prog.bind_blocked heq]
      exact (hpart (e := .ioError) (by simp) (hmoreSent ▸ hpre)).1
    | all =>
      -- the command has been sent
      rw [Prog.bind_done heq, if_pos rfl, Prog.modify_bind]
      have h₂ : Session subscribe unsubscribe total start
          { c₁ with sends := sends, log := c₁.log ++ more, unsubscribeSent := true } := by
        refine ⟨h₁.active, h₁.command, ?_, fun _ => hi.trans hraised, ?_,
          h₁.log.trans (List.prefix_append _ _)⟩
        · rw [if_pos rfl, bytesSent_append, hsent₁, hmoreSent]
        · rw [bytesArrived_append, harrived, List.append_nil]
          exact h₁.arrived
      rcases clockGettime_eq
        { c₁ with sends := sends, log := c₁.log ++ more, unsubscribeSent := true }
        with ⟨-, hclock⟩ | ⟨now, ticks, -, -, hclock⟩
      · rw [Prog.bind_done hclock]
        exact .fail (h₂.broken (by simp))
      · rw [Prog.bind_done hclock]
        exact ⟨⟨h₂.active, h₂.command, h₂.sent, h₂.flag, h₂.arrived, h₂.log⟩,
          hheld.trans ⟨rfl, rfl, rfl, rfl, le_rfl⟩, fun _ => rfl⟩

/-- The deadline is looked at. -/
theorem unsubscribeLate_spec (h : Session subscribe unsubscribe total start c) :
    Ends (fun late c' => Session subscribe unsubscribe total start c' ∧ Held c c' ∧
        (late = true → c'.unsubscribeSent = true ∧ (c'.hasClock = true → c'.deadline ≤ c'.now)))
      (Broken subscribe unsubscribe total start) (Stuck subscribe unsubscribe)
      (unsubscribeLate c) := by
  unfold unsubscribeLate
  refine .get ?_
  split
  · next hsent =>
    unfold deadlineReached
    rcases clockGettime_eq c with ⟨hnone, hclock⟩ | ⟨now, ticks, -, -, hclock⟩
    · rw [Prog.bind_done hclock]
      exact .pure ⟨h, .refl c, fun _ => ⟨hsent, fun hsome => by simp [hnone] at hsome⟩⟩
    · rw [Prog.bind_done hclock]
      refine .get (.pure ⟨⟨h.active, h.command, h.sent, h.flag, h.arrived, h.log⟩,
        ⟨rfl, rfl, rfl, rfl, le_rfl⟩, fun hlate => ⟨hsent, fun _ => ?_⟩⟩)
      simpa using hlate
  · exact .pure ⟨h, .refl c, fun hlate => absurd hlate (by simp)⟩

/-- **`poll`** lets the server go on, and reads nothing. -/
theorem poll_spec (h : Session subscribe unsubscribe total start c) :
    Ends (fun _ c' => Session subscribe unsubscribe total start c' ∧ Held c c' ∧
        c'.polls.length < c.polls.length)
      (Broken subscribe unsubscribe total start) (Stuck subscribe unsubscribe) (poll c) := by
  cases hp : c.polls with
  | nil =>
    rw [poll_nil hp]
    exact h.sent_prefix
  | cons result polls =>
    rw [poll_cons hp]
    have hlt : polls.length < c.polls.length := by rw [hp]; exact Nat.lt_succ_self _
    exact ⟨⟨h.active, h.command, h.sent, h.flag, h.arrived, h.log⟩, ⟨rfl, rfl, rfl, rfl, hlt.le⟩,
      Nat.lt_succ_self _⟩

/-- What `fill_reader` does before it receives. -/
theorem readyToReceive_spec (h : Session subscribe unsubscribe total start c) (hunread : c.unread = []) :
    Ends (fun _ c' => Session subscribe unsubscribe total start c' ∧ Held c c' ∧
        c'.polls.length < c.polls.length)
      (Broken subscribe unsubscribe total start) (Stuck subscribe unsubscribe)
      (readyToReceive c) := by
  unfold readyToReceive
  refine .get ?_
  rw [if_pos h.active]
  unfold awaitReadable
  refine (sendPendingUnsubscribe_spec h).bind ?_
  rintro _ c₁ ⟨h₁, hheld₁, -⟩
  refine (unsubscribeLate_spec h₁).bind ?_
  rintro late c₂ ⟨h₂, hheld₂, hlate⟩
  have hheld := hheld₁.trans hheld₂
  split
  · next hl =>
    obtain ⟨hsent, hdeadline⟩ := hlate hl
    exact .fail ⟨h₂.sent_prefix, fun _ => ⟨h₂, hheld.unread.trans hunread, hsent, hdeadline⟩⟩
  · refine (poll_spec h₂).bind ?_
    rintro result c₃ ⟨h₃, hheld₃, hpolls⟩
    have hdone : Session subscribe unsubscribe total start c₃ ∧ Held c c₃ ∧
        c₃.polls.length < c.polls.length :=
      ⟨h₃, hheld.trans hheld₃, hpolls.trans_le hheld.polls⟩
    cases result with
    | timeout => exact .pure hdone
    | eintr => exact .pure hdone
    | failed => exact .fail (h₃.broken (by simp))
    | notReadable => exact .fail (h₃.broken (by simp))
    | readable => exact .pure hdone

/-- A `recv` into the empty buffer. -/
theorem recv_spec (h : Session subscribe unsubscribe total start c) (hunread : c.unread = []) :
    Ends (Sum.elim
        (fun _ c' => Session subscribe unsubscribe total start c' ∧ c'.unread = [] ∧
          c'.ahead = c.ahead ∧ c'.stdout = c.stdout ∧ c'.polls = c.polls ∧
            c'.recvs.length < c.recvs.length)
        (fun _ c' => Reads (Session subscribe unsubscribe total start) c c.ahead [] c' ∧
          c'.unread ≠ []))
      (Broken subscribe unsubscribe total start) (Stuck subscribe unsubscribe) (recv c) := by
  rw [recv]
  cases hr : c.recvs with
  | nil => exact h.sent_prefix
  | cons r recvs =>
    -- the bytes that have arrived are on the wire
    have h₁ : Session subscribe unsubscribe total start
        { c with recvs := recvs, wire := c.wire ++ r.arrived, log := c.log ++ [.arrived r.arrived] } := by
      refine ⟨h.active, h.command, ?_, h.flag, ?_, h.log.trans (List.prefix_append _ _)⟩
      · rw [bytesSent_append, bytesSent_arrived, List.append_nil]
        exact h.sent
      · have harrived := h.arrived
        rw [hr, List.flatMap_cons, ← List.append_assoc] at harrived
        rw [bytesArrived_append, bytesArrived_arrived]
        exact harrived
    have hahead : c.ahead = c.wire ++ r.arrived ++ recvs.flatMap CliRecv.arrived := by
      rw [Cli.ahead, hunread, hr, List.flatMap_cons, List.nil_append, List.append_assoc]
    have htake {n : Nat} (hn : 0 < n) (hwire : c.wire ++ r.arrived ≠ []) :
        Reads (Session subscribe unsubscribe total start) c c.ahead []
          { c with
            recvs := recvs, wire := (c.wire ++ r.arrived).drop n,
            log := c.log ++ [.arrived r.arrived], unread := (c.wire ++ r.arrived).take n } ∧
          (c.wire ++ r.arrived).take n ≠ [] := by
      refine ⟨⟨⟨h₁.active, h₁.command, h₁.sent, h₁.flag, h₁.arrived, h₁.log⟩, ?_, by simp⟩, ?_⟩
      · rw [Cli.ahead, List.take_append_drop, hahead]
      · rw [Ne, List.take_eq_nil_iff, not_or]
        exact ⟨Nat.pos_iff_ne_zero.mp hn, hwire⟩
    dsimp only
    cases r.result with
    | eintr =>
      refine ⟨h₁, hunread, ?_, rfl, rfl, Nat.lt_succ_self _⟩
      rw [hahead, Cli.ahead]
      simp only [hunread, List.nil_append]
    | failed => exact h₁.broken (by simp)
    | closed =>
      dsimp only
      split
      · exact h₁.broken (by simp)
      · next hwire => exact htake (by decide) hwire
    | data n =>
      dsimp only
      split
      · exact h₁.sent_prefix
      · next hwire =>
        refine htake ?_ hwire
        have : 0 < cliBufferSize := by decide
        omega

/-- A fill keeps what is ahead. -/
theorem fillReader_session (h : Session subscribe unsubscribe total start c) (hunread : c.unread = []) :
    Ends (fun _ c' => Reads (Session subscribe unsubscribe total start) c c.ahead [] c' ∧
        c'.unread ≠ [])
      (Broken subscribe unsubscribe total start) (Stuck subscribe unsubscribe) (fillReader c) := by
  unfold fillReader
  refine Ends.loop (fun c' => Session subscribe unsubscribe total start c' ∧ c'.unread = [] ∧
    c'.ahead = c.ahead ∧ c'.stdout = c.stdout) ?_ ⟨h, hunread, rfl, rfl⟩
  rintro c₁ ⟨h₁, hunread₁, hahead₁, hstdout₁⟩
  unfold fillTurn
  refine (readyToReceive_spec h₁ hunread₁).bind ?_
  rintro ready c₂ ⟨h₂, hheld, hpolls⟩
  have hunread₂ : c₂.unread = [] := hheld.unread.trans hunread₁
  have hahead₂ : c₂.ahead = c.ahead := hheld.ahead.trans hahead₁
  have hstdout₂ : c₂.stdout = c.stdout := hheld.stdout.trans hstdout₁
  split
  · refine (recv_spec h₂ hunread₂).imp ?_
    rintro (_ | _) c₃ h₃
    · obtain ⟨h₃, hunread₃, hahead₃, hstdout₃, hpolls₃, hrecvs₃⟩ := h₃
      refine ⟨⟨h₃, hunread₃, hahead₃.trans hahead₂, hstdout₃.trans hstdout₂⟩, ?_⟩
      rw [hheld.recvs] at hrecvs₃
      rw [hpolls₃]
      omega
    · obtain ⟨hreads, hunread₃⟩ := h₃
      refine ⟨⟨hreads.inv, hreads.ahead.trans hahead₂, ?_⟩, hunread₃⟩
      rw [hreads.stdout, hstdout₂]
  · refine .pure ⟨⟨h₂, hunread₂, hahead₂, hstdout₂⟩, ?_⟩
    rw [hheld.recvs]
    omega

/-- The environment feeds a session. -/
theorem feed_session : Feed (Session subscribe unsubscribe total start)
    (Session subscribe unsubscribe total start) (Broken subscribe unsubscribe total start)
    (Stuck subscribe unsubscribe) where
  fill _ h hunread _ := fillReader_session h hunread
  ready _ h _ := h
  take _ _ h _ _ := ⟨h.active, h.command, h.sent, h.flag, h.arrived, h.log⟩
  print _ _ h := ⟨h.active, h.command, h.sent, h.flag, h.arrived, h.log⟩
  write c text h := by
    unfold writeOut
    split
    · exact ⟨⟨h.active, h.command, h.sent, h.flag, h.arrived, h.log⟩, rfl, rfl⟩
    · exact ⟨h.sent_prefix, fun hi => absurd hi (by simp)⟩

/-- A response when a fill does not succeed. -/
theorem renderResponse_fails {bad : ResponseStatus → Cli → Prop} {wait : Cli → Prop}
    (hunread : c.unread = []) (hfill : Ends (fun _ _ => False) bad wait (fillReader c)) :
    Ends (fun _ _ => False) bad wait (renderResponse c) := by
  have hrefill : refill c = fillReader c := by
    unfold refill
    rw [Prog.get_bind, if_pos hunread]
  have hbyte : Ends (fun _ _ => False) bad wait (readByte c) := by
    unfold readByte
    exact (hrefill ▸ hfill).bind fun _ _ hf => hf.elim
  unfold renderResponse
  exact hbyte.bind fun _ _ hf => hf.elim

/-- Nothing is ahead of the client. -/
theorem renderResponse_nothing (h : Session subscribe unsubscribe total start c) (hahead : c.ahead = []) :
    Ends (fun _ _ => False) (Broken subscribe unsubscribe total start) (Stuck subscribe unsubscribe)
      (renderResponse c) := by
  have hunread : c.unread = [] := by
    rw [Cli.ahead, List.append_assoc, List.append_eq_nil_iff] at hahead
    exact hahead.1
  refine renderResponse_fails hunread ((fillReader_session h hunread).imp ?_)
  rintro _ c' ⟨hreads, hunread'⟩
  have hahead' := hreads.ahead.trans hahead
  rw [Cli.ahead, List.append_assoc, List.append_eq_nil_iff] at hahead'
  exact hunread' hahead'.1

/-- The deadline has still passed. -/
theorem unsubscribeLate_timedOut (hlate : c.TimedOut) :
    ∃ now ticks, c.now ≤ now ∧
      unsubscribeLate c = (.done true, { c with now := now, ticks := ticks }) := by
  unfold unsubscribeLate deadlineReached
  rw [Prog.get_bind, if_pos hlate.sent]
  rcases clockGettime_eq c with ⟨-, hclock⟩ | ⟨now, ticks, hsome, hle, hclock⟩
  · rw [Prog.bind_done hclock]
    exact ⟨c.now, c.ticks, le_rfl, rfl⟩
  · have hdeadline : c.deadline ≤ now := (hlate.late hsome).trans hle
    refine ⟨now, ticks, hle, ?_⟩
    rw [Prog.bind_done hclock, ← decide_eq_true hdeadline]
    rfl

/-- When the server is late, looking at the flag changes nothing. -/
theorem subscriptionInterrupted_timedOut (h : Session subscribe unsubscribe total start c)
    (hlate : c.TimedOut) :
    Ends (fun _ c' => Session subscribe unsubscribe total start c' ∧ c'.TimedOut)
      (Broken subscribe unsubscribe total start) (Stuck subscribe unsubscribe)
      (subscriptionInterrupted c) := by
  obtain ⟨i, hi, heq⟩ := subscriptionInterrupted_eq c
  rw [heq]
  exact ⟨⟨h.active, h.command, h.sent, fun hsent => hi (h.flag hsent), h.arrived, h.log⟩,
    hlate.unread, hlate.sent, hlate.late⟩

/-- Nor does another `UNSUBSCRIBE`. -/
theorem sendPendingUnsubscribe_timedOut (h : Session subscribe unsubscribe total start c)
    (hlate : c.TimedOut) :
    Ends (fun _ c' => Session subscribe unsubscribe total start c' ∧ c'.TimedOut)
      (Broken subscribe unsubscribe total start) (Stuck subscribe unsubscribe)
      (sendPendingUnsubscribe c) := by
  unfold sendPendingUnsubscribe
  refine (subscriptionInterrupted_timedOut h hlate).bind ?_
  rintro i c₁ ⟨h₁, hlate₁⟩
  refine .get ?_
  rw [if_pos (.inr hlate₁.sent)]
  exact .pure ⟨h₁, hlate₁⟩

/-- A late server ends the filling. -/
theorem fillTurn_timedOut (h : Session subscribe unsubscribe total start c) (hlate : c.TimedOut) :
    Ends (fun _ _ => False) (Broken subscribe unsubscribe total start) (Stuck subscribe unsubscribe)
      (fillTurn c) := by
  have hready : Ends (fun _ _ => False) (Broken subscribe unsubscribe total start)
      (Stuck subscribe unsubscribe) (readyToReceive c) := by
    unfold readyToReceive
    refine .get ?_
    rw [if_pos h.active]
    unfold awaitReadable
    refine (sendPendingUnsubscribe_timedOut h hlate).bind ?_
    rintro _ c₁ ⟨h₁, hlate₁⟩
    obtain ⟨now, ticks, hle, hlater⟩ := unsubscribeLate_timedOut hlate₁
    rw [Prog.bind_done hlater, if_pos rfl]
    exact .fail ⟨h₁.sent_prefix, fun _ =>
      ⟨⟨h₁.active, h₁.command, h₁.sent, h₁.flag, h₁.arrived, h₁.log⟩, hlate₁.unread, hlate₁.sent,
        fun hsome => (hlate₁.late hsome).trans hle⟩⟩
  unfold fillTurn
  exact hready.bind fun _ _ hf => hf.elim

/-- When the deadline has passed, the next response is interrupted as well. -/
theorem renderResponse_timedOut (h : Session subscribe unsubscribe total start c) (hlate : c.TimedOut) :
    Ends (fun _ _ => False) (Broken subscribe unsubscribe total start) (Stuck subscribe unsubscribe)
      (renderResponse c) := by
  refine renderResponse_fails hlate.unread ?_
  unfold fillReader
  refine Ends.loop (fun c' => Session subscribe unsubscribe total start c' ∧ c'.TimedOut) ?_ ⟨h, hlate⟩
  rintro c₁ ⟨h₁, hlate₁⟩
  exact (fillTurn_timedOut h₁ hlate₁).imp fun _ _ hf => hf.elim

/-- The wait for data is over when there is some, or when the flag is raised. -/
theorem waitForSubscriptionData_spec (h : Session subscribe unsubscribe total start c) :
    Ends (fun _ c' => Session subscribe unsubscribe total start c' ∧ Held c c' ∧
        (c'.unread = [] → c'.interrupted = true))
      (Broken subscribe unsubscribe total start) (Stuck subscribe unsubscribe)
      (waitForSubscriptionData c) := by
  unfold waitForSubscriptionData
  refine Ends.loop (fun c' => Session subscribe unsubscribe total start c' ∧ Held c c') ?_ ⟨h, .refl c⟩
  rintro c₁ ⟨h₁, hheld₁⟩
  have hover : Ends (fun stop c' => Session subscribe unsubscribe total start c' ∧ Held c₁ c' ∧
      (stop = true → c'.unread = [] → c'.interrupted = true))
      (Broken subscribe unsubscribe total start) (Stuck subscribe unsubscribe) (waitOver c₁) := by
    unfold waitOver
    refine .get ?_
    split
    · refine (subscriptionInterrupted_spec h₁).imp ?_
      rintro i c₂ ⟨h₂, hheld₂, hi, -, -⟩
      exact ⟨h₂, hheld₂, fun hstop _ => hi.trans hstop⟩
    · next hunread => exact .pure ⟨h₁, .refl c₁, fun _ hempty => absurd hempty hunread⟩
  unfold waitTurn
  refine hover.bind ?_
  rintro stop c₂ ⟨h₂, hheld₂, hstop⟩
  have hheld := hheld₁.trans hheld₂
  split
  · next hs => exact .pure ⟨h₂, hheld, hstop hs⟩
  · refine (poll_spec h₂).bind ?_
    rintro result c₃ ⟨h₃, hheld₃, hpolls⟩
    have hagain : (Session subscribe unsubscribe total start c₃ ∧ Held c c₃) ∧
        c₃.polls.length < c₁.polls.length :=
      ⟨⟨h₃, hheld.trans hheld₃⟩, hpolls.trans_le hheld₂.polls⟩
    cases result with
    | timeout => exact .pure hagain
    | eintr => exact .pure hagain
    | readable => exact .pure hagain
    | failed => exact .fail (h₃.broken (by simp))
    | notReadable => exact .fail (h₃.broken (by simp))

/-- After an interrupted response the subscription is interrupted as well. -/
theorem runSubscription_timedOut (h : Session subscribe unsubscribe total start c)
    (hlate : c.TimedOut) :
    Ends (fun _ _ => False) (Broken subscribe unsubscribe total start) (Stuck subscribe unsubscribe)
      (runSubscription true c) := by
  have hlisten : Ends (fun _ c' => Session subscribe unsubscribe total start c' ∧ c'.TimedOut)
      (Broken subscribe unsubscribe total start) (Stuck subscribe unsubscribe) (listen true c) := by
    unfold listen
    refine Ends.loop (fun c' => Session subscribe unsubscribe total start c' ∧ c'.TimedOut) ?_
      ⟨h, hlate⟩
    rintro c₁ ⟨h₁, hlate₁⟩
    unfold listenTurn
    refine (subscriptionInterrupted_timedOut h₁ hlate₁).bind ?_
    intro i c₂ h₂
    rw [if_pos (by simp)]
    exact .pure h₂
  unfold runSubscription
  refine hlisten.bind ?_
  rintro _ c₁ ⟨h₁, hlate₁⟩
  refine (subscriptionInterrupted_timedOut h₁ hlate₁).bind ?_
  rintro i c₂ ⟨h₂, hlate₂⟩
  rw [if_pos (by simp)]
  refine (sendPendingUnsubscribe_timedOut h₂ hlate₂).bind ?_
  rintro _ c₃ ⟨h₃, hlate₃⟩
  unfold drain
  refine Ends.loop (fun c' => Session subscribe unsubscribe total start c' ∧ c'.TimedOut) ?_
    ⟨h₃, hlate₃⟩
  rintro c₄ ⟨h₄, hlate₄⟩
  unfold drainTurn
  exact (renderResponse_timedOut h₄ hlate₄).bind fun _ _ hf => hf.elim

/-- A response that was not read does not lead to the prompt. -/
theorem followSubscription_error {e : ResponseStatus} (h : Broken subscribe unsubscribe total start e c) :
    Ends (fun status c' => bytesSent c'.log <+: subscribe ++ unsubscribe ∧ status ≠ .ok ())
      (fun _ _ => False) (Stuck subscribe unsubscribe) (followSubscription (.error e) c) := by
  have hother : Ends (fun status c' => bytesSent c'.log <+: subscribe ++ unsubscribe ∧
      status ≠ .ok ()) (fun _ _ => False) (Stuck subscribe unsubscribe)
      ((pure (.error e) : CliProg (Except ResponseStatus Unit)) c) :=
    .pure ⟨h.1, by simp⟩
  cases e with
  | interrupted =>
    obtain ⟨hsession, hlate⟩ := h.2 rfl
    refine (runSubscription_timedOut hsession hlate).attempt ?_ ?_
    · exact fun _ _ hf => hf.elim
    · exact fun _ c' hbad => ⟨hbad.1, by simp⟩
  | disconnected => exact hother
  | ioError => exact hother
  | protocolError => exact hother

end

end Kessel
