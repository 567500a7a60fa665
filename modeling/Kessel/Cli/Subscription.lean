import Kessel.Cli.Stream

/-!
# Kessel.Cli.Subscription

A subscription that nobody interrupts.

The loop of `wait_for_subscription_data` ends for a buffer that is not empty, and
nothing in it fills the buffer: `waitForSubscriptionData_returns` says that it
returns by the first `poll` that finds the socket readable exactly when it did not
have to wait at all.  So `run_subscription` renders the messages up to the first
one behind which the buffer is empty, and polls for ever there;
`runSubscription_stalls` says which runs render all of them.
-/

namespace Kessel

open CStr

/-! ## the wait -/

/-- The wait is over by the first `poll` that finds the socket readable. -/
def Cli.ReturnsWhenReadable (c : Cli) : Prop :=
  ∃ c' seen, waitForSubscriptionData c = (.done (), c') ∧ c.polls = seen ++ c'.polls ∧
    CliPoll.readable ∉ seen.dropLast

/-- There is no wait while there are bytes unread. -/
theorem waitForSubscriptionData_unread {c : Cli} (h : c.unread ≠ []) :
    waitForSubscriptionData c = (.done (), c) := by
  have hover : waitOver c = (.done true, c) := by
    unfold waitOver
    rw [Prog.get_bind, if_neg h]
    rfl
  have hturn : waitTurn c = (.done (.inr ()), c) := by
    unfold waitTurn
    rw [Prog.bind_done hover, if_pos rfl]
    rfl
  exact Prog.loop_inr hturn

/-- What stays as it is while the client waits with an empty buffer. -/
structure Waiting (c c' : Cli) : Prop where
  unread : c'.unread = []
  uninterrupted : c'.Uninterrupted
  polls : ∀ p ∈ c'.polls, p = .timeout ∨ p = .eintr ∨ p = .readable
  stdout : c'.stdout = c.stdout

/-- With an empty buffer it polls for ever. -/
theorem waitForSubscriptionData_empty {c : Cli} (hunread : c.unread = []) (h : c.Uninterrupted)
    (hpolls : ∀ p ∈ c.polls, p = .timeout ∨ p = .eintr ∨ p = .readable) :
    Ends (fun _ _ => False) (fun _ _ => False) (fun c' => c'.polls = [] ∧ c'.stdout = c.stdout)
      (waitForSubscriptionData c) := by
  unfold waitForSubscriptionData
  refine Ends.loop (Waiting c) ?_ ⟨hunread, h, hpolls, rfl⟩
  intro c₁ h₁
  have hover : waitOver c₁ = (.done false, c₁.looked) := by
    unfold waitOver
    rw [Prog.get_bind, if_pos h₁.unread]
    exact h₁.uninterrupted.subscriptionInterrupted
  unfold waitTurn
  rw [Prog.bind_done hover, if_neg (by simp)]
  cases hp : c₁.polls with
  | nil =>
    rw [Prog.bind_blocked (@poll_nil c₁.looked hp)]
    exact ⟨hp, h₁.stdout⟩
  | cons result polls =>
    have hwait : Waiting c { c₁.looked with polls := polls } ∧ polls.length < (result :: polls).length :=
      ⟨⟨h₁.unread, h₁.uninterrupted.looked, fun p hmem => h₁.polls p (by simp [hp, hmem]), h₁.stdout⟩,
        Nat.lt_succ_self _⟩
    rw [Prog.bind_done (@poll_cons c₁.looked result polls hp)]
    -- every result but an error begins another turn
    rcases h₁.polls result (by simp [hp]) with rfl | rfl | rfl
    · exact hwait
    · exact hwait
    · exact hwait

/-- A wait returns when there are bytes unread, and never otherwise, not even when
there is something to read. -/
theorem waitForSubscriptionData_returns {c : Cli} (h : c.Uninterrupted)
    (hpolls : ∀ p ∈ c.polls, p = .timeout ∨ p = .eintr ∨ p = .readable) :
    c.ReturnsWhenReadable ↔ c.unread ≠ [] := by
  constructor
  · rintro ⟨c', seen, hdone, -⟩ hunread
    have hempty := waitForSubscriptionData_empty hunread h hpolls
    rw [hdone] at hempty
    exact hempty
  · intro hunread
    exact ⟨c, [], waitForSubscriptionData_unread hunread, rfl, by simp⟩

/-! ## a subscribed client -/

/-- The `recv` that finds the connection closed. -/
def closedRecv : CliRecv := ⟨[], .closed⟩

/-- A subscribed client that nobody interrupts, to which the bytes of the server
come in chunks; then the server closes the connection. -/
structure Cli.Subscribed (c : Cli) (chunks : List (List UInt8)) : Prop where
  active : c.active = true
  polled : c.Polled
  writes : ∀ w ∈ c.writes, w = true
  wire : c.wire = []
  sizes : ∀ chunk ∈ chunks, IsChunk chunk
  recvs : c.recvs = chunks.map chunkRecv ++ [closedRecv]

/-- What lies ahead is what is unread, and the chunks. -/
theorem Cli.Subscribed.ahead {c : Cli} {chunks : List (List UInt8)} (h : c.Subscribed chunks) :
    c.ahead = c.unread ++ chunks.flatten := by
  rw [Cli.ahead, h.wire, h.recvs, List.append_nil, List.flatMap_append, List.flatMap_map]
  simp [closedRecv, chunkRecv, List.flatMap_id']

/-- A subscription does not look at the buffer and the output. -/
theorem Cli.Subscribed.output {c : Cli} {chunks : List (List UInt8)} (h : c.Subscribed chunks)
    (unread : List UInt8) {writes : List Bool} (hwrites : ∀ w ∈ writes, w = true)
    (stdout : List UInt8) :
    ({ c with unread := unread, writes := writes, stdout := stdout } : Cli).Subscribed chunks :=
  ⟨h.active, h.polled.output unread writes stdout, hwrites, h.wire, h.sizes, h.recvs⟩

/-- The flag is looked at. -/
theorem Cli.Subscribed.looked {c : Cli} {chunks : List (List UInt8)} (h : c.Subscribed chunks) :
    c.looked.Subscribed chunks :=
  ⟨h.active, ⟨h.polled.quiet.looked, h.polled.polls, h.polled.enough⟩, h.writes, h.wire, h.sizes,
    h.recvs⟩

/-- `j` of the chunks have been received since the buffer held `unread`, and
`taken` has been read. -/
structure Tracked (unread : List UInt8) (chunks : List (List UInt8)) (j : Nat) (taken : List UInt8)
    (c : Cli) : Prop where
  subscribed : c.Subscribed (chunks.drop j)
  le : j ≤ chunks.length
  taken : taken ++ c.unread = unread ++ (chunks.take j).flatten

/-- A byte has been read of every chunk that was received. -/
def Tracks (unread : List UInt8) (chunks : List (List UInt8)) (c : Cli) : Prop :=
  ∃ j taken, Tracked unread chunks j taken c ∧
    ∀ i < j, (unread ++ (chunks.take i).flatten).length < taken.length

/-- Every byte before the last chunk has been read. -/
def TracksFilled (unread : List UInt8) (chunks : List (List UInt8)) (c : Cli) : Prop :=
  ∃ j taken, Tracked unread chunks j taken c ∧
    ∀ i < j, (unread ++ (chunks.take i).flatten).length ≤ taken.length

/-- A fill takes the next of the chunks. -/
theorem fillReader_tracks {unread : List UInt8} {chunks : List (List UInt8)} {c : Cli}
    (hc : Tracks unread chunks c) (hunread : c.unread = []) (hahead : c.ahead ≠ []) :
    Ends (fun _ c' => Reads (TracksFilled unread chunks) c c.ahead [] c' ∧ c'.unread ≠ [])
      (fun _ _ => False) (fun _ => False) (fillReader c) := by
  obtain ⟨j, taken, htracked, hread⟩ := hc
  have hsub := htracked.subscribed
  have hj : j < chunks.length := by
    rw [hsub.ahead, hunread, List.nil_append] at hahead
    refine Nat.lt_of_le_of_ne htracked.le fun heq => hahead ?_
    rw [heq, List.drop_length]
    rfl
  rw [List.drop_eq_getElem_cons hj] at hsub
  have hchunk := hsub.sizes chunks[j] List.mem_cons_self
  refine (fillReader_chunk hsub.wire hsub.recvs hchunk fun _ => hsub.polled).imp ?_
  intro _ c' h
  have hsub' : c'.Subscribed (chunks.drop (j + 1)) :=
    ⟨h.active.trans hsub.active, h.polled (h.active.trans hsub.active),
      by rw [h.writes]; exact hsub.writes, h.wire, fun chunk hmem => hsub.sizes chunk (List.mem_cons_of_mem _ hmem), h.recvs⟩
  have htaken : taken = unread ++ (chunks.take j).flatten := by
    rw [← htracked.taken, hunread, List.append_nil]
  refine ⟨⟨⟨j + 1, taken, ⟨hsub', hj, ?_⟩, ?_⟩, ?_, by rw [h.stdout, List.append_nil]⟩, ?_⟩
  · rw [htaken, h.unread, List.take_succ_eq_append_getElem hj, List.flatten_concat, List.append_assoc]
  · intro i hi
    rcases Nat.lt_succ_iff_lt_or_eq.mp hi with hi | rfl
    · exact (hread i hi).le
    · rw [htaken]
  · rw [hsub'.ahead, hsub.ahead, h.unread, hunread]
    rfl
  · rw [h.unread]
    exact List.length_pos_iff.mp hchunk.1

/-- Chunks feed the reader. -/
theorem feed_tracks (unread : List UInt8) (chunks : List (List UInt8)) :
    Feed (Tracks unread chunks) (TracksFilled unread chunks) (fun _ _ => False) (fun _ => False) where
  fill _ hc hunread hahead := fillReader_tracks hc hunread hahead
  ready c hc _ := by
    obtain ⟨j, taken, htracked, hread⟩ := hc
    exact ⟨j, taken, htracked, fun i hi => (hread i hi).le⟩
  take c n hc hunread hn := by
    obtain ⟨j, taken, htracked, hread⟩ := hc
    refine ⟨j, taken ++ c.unread.take n, ⟨htracked.subscribed.output _ htracked.subscribed.writes _,
      htracked.le, ?_⟩, fun i hi => ?_⟩
    · rw [List.append_assoc, List.take_append_drop]
      exact htracked.taken
    · have hpos : 0 < (c.unread.take n).length := by
        rw [List.length_take]
        have := List.length_pos_iff.mpr hunread
        omega
      have hlen : (taken ++ c.unread.take n).length = taken.length + (c.unread.take n).length :=
        List.length_append
      have := hread i hi
      omega
  print c text hc := by
    obtain ⟨j, taken, htracked, hread⟩ := hc
    exact ⟨j, taken, ⟨htracked.subscribed.output _ htracked.subscribed.writes _, htracked.le,
      htracked.taken⟩, hread⟩
  write c text hc := by
    obtain ⟨j, taken, htracked, hread⟩ := hc
    have hwrites := htracked.subscribed.writes
    refine writeOut_spec hwrites text ⟨j, taken, ⟨htracked.subscribed.output _
      (fun w hw => hwrites w (List.mem_of_mem_tail hw)) _, htracked.le, htracked.taken⟩, hread⟩

/-! ## the run -/

/-- No chunk ends between two of the frames, or before the first. -/
def Unbroken (unread : List UInt8) (chunks : List (List UInt8)) (frames : List CliFrame) : Prop :=
  ∀ k < frames.length, ∀ j ≤ chunks.length,
    unread ++ (chunks.take j).flatten ≠ (frames.take k).flatMap CliFrame.encode

/-- With nothing unread the first frame is behind a break. -/
theorem unbroken_nil (chunks : List (List UInt8)) (frames : List CliFrame) :
    Unbroken [] chunks frames ↔ frames = [] := by
  constructor
  · intro h
    by_contra hne
    exact h 0 (List.length_pos_iff.mpr hne) 0 (Nat.zero_le _) rfl
  · rintro rfl k hk
    exact absurd hk (Nat.not_lt_zero k)

/-- Behind the first frame, with `j` more chunks received. -/
theorem unbroken_cons {unread unread' : List UInt8} {chunks : List (List UInt8)} {f : CliFrame}
    {frames : List CliFrame} {j : Nat} (hunread : unread ≠ []) (hj : j ≤ chunks.length)
    (htaken : f.encode ++ unread' = unread ++ (chunks.take j).flatten)
    (hread : ∀ i < j, (unread ++ (chunks.take i).flatten).length < f.encode.length) :
    Unbroken unread chunks (f :: frames) ↔ Unbroken unread' (chunks.drop j) frames := by
  -- the bytes received with `i` chunks behind the `j`
  have hbehind (i : Nat) : unread ++ (chunks.take (j + i)).flatten =
      f.encode ++ (unread' ++ ((chunks.drop j).take i).flatten) := by
    rw [List.take_add, List.flatten_append, ← List.append_assoc, ← htaken, List.append_assoc]
  constructor
  · intro h k hk i hi heq
    rw [List.length_drop] at hi
    refine h (k + 1) (Nat.succ_lt_succ hk) (j + i) (by omega) ?_
    rw [hbehind, heq, List.take_succ_cons, List.flatMap_cons]
  · intro h k hk i hi heq
    cases k with
    | zero => exact hunread (List.append_eq_nil_iff.mp heq).1
    | succ k =>
      rw [List.take_succ_cons, List.flatMap_cons] at heq
      -- the last byte of the frame came with the last of the `j` chunks
      have hji : j ≤ i := by
        by_contra hlt
        have := hread i (Nat.lt_of_not_le hlt)
        rw [heq, List.length_append] at this
        omega
      obtain ⟨m, rfl⟩ := Nat.exists_eq_add_of_le hji
      rw [hbehind] at heq
      refine h k (Nat.lt_of_succ_lt_succ hk) m ?_ (List.append_cancel_left heq)
      rw [List.length_drop]
      omega

/-- The client has rendered the frames before `todo`, and `chunks'` are to come. -/
structure Listening (c : Cli) (chunks : List (List UInt8)) (frames : List CliFrame)
    (chunks' : List (List UInt8)) (todo : List CliFrame) (c' : Cli) : Prop where
  subscribed : c'.Subscribed chunks'
  ahead : c'.ahead = todo.flatMap CliFrame.encode
  rendered : ∃ rendered, frames = rendered ++ todo ∧
    c'.stdout = c.stdout ++ rendered.flatMap CliFrame.rendered
  unbroken : Unbroken c.unread chunks frames ↔ Unbroken c'.unread chunks' todo

namespace Listening

variable {c c' : Cli} {chunks chunks' : List (List UInt8)} {frames todo : List CliFrame}

/-- Looking at the flag does not end the listening. -/
theorem looked (h : Listening c chunks frames chunks' todo c') :
    Listening c chunks frames chunks' todo c'.looked :=
  ⟨h.subscribed.looked, h.ahead, h.rendered, h.unbroken⟩

/-- The client has rendered everything exactly when no frame is left. -/
theorem stdout_eq (h : Listening c chunks frames chunks' todo c') :
    c'.stdout = c.stdout ++ frames.flatMap CliFrame.rendered ↔ todo = [] := by
  obtain ⟨rendered, hsplit, hstdout⟩ := h.rendered
  rw [hstdout, hsplit, List.flatMap_append, List.append_right_inj, List.self_eq_append_right,
    List.flatMap_eq_nil_iff]
  constructor
  · intro hnil
    cases todo with
    | nil => rfl
    | cons f todo => exact absurd (hnil f List.mem_cons_self) f.rendered_ne_nil
  · rintro rfl f hf
    exact absurd hf List.not_mem_nil

/-- With an empty buffer the client polls for ever. -/
theorem stalls (h : Listening c chunks frames chunks' todo c') (hunread : c'.unread = []) :
    Ends (fun _ _ => False) (fun _ _ => False)
      (fun c'' => c''.polls = [] ∧ (c''.stdout = c.stdout ++ frames.flatMap CliFrame.rendered ↔
        Unbroken c.unread chunks frames)) (waitForSubscriptionData c') := by
  have hpolled := h.subscribed.polled
  refine (waitForSubscriptionData_empty hunread hpolled.quiet.1 hpolled.polls).mono
    (fun _ _ hf => hf) (fun _ _ hf => hf) ?_
  rintro c'' ⟨hpolls, hstdout⟩
  refine ⟨hpolls, ?_⟩
  rw [hstdout, h.stdout_eq, h.unbroken, hunread, unbroken_nil]

/-- With another buffer it renders a frame. -/
theorem renders {f : CliFrame} (h : Listening c chunks frames chunks' (f :: todo) c') (hvalid : f.Valid)
    (hunread : c'.unread ≠ []) :
    Ends (fun _ c'' => (∃ chunks'', Listening c chunks frames chunks'' todo c'') ∧
      c''.ahead.length < c'.ahead.length) (fun _ _ => False) (fun _ => False)
      (renderResponse c') := by
  have hstart : Tracks c'.unread chunks' c' :=
    ⟨0, [], ⟨h.subscribed, Nat.zero_le _, by simp⟩, fun i hi => absurd hi (Nat.not_lt_zero i)⟩
  have hahead := h.ahead
  rw [List.flatMap_cons] at hahead
  refine (renderResponse_spec (feed_tracks c'.unread chunks') hstart hvalid hahead).imp ?_
  rintro _ c'' ⟨-, ⟨j, taken, htracked, hread⟩, hahead', hstdout⟩
  -- what has been read is the frame
  have htaken : taken = f.encode := by
    have hall : f.encode ++ todo.flatMap CliFrame.encode = taken ++ todo.flatMap CliFrame.encode := by
      rw [← hahead, h.subscribed.ahead, ← hahead', htracked.subscribed.ahead, ← List.append_assoc,
        htracked.taken, List.append_assoc, ← List.flatten_append, List.take_append_drop]
    exact (List.append_cancel_right hall).symm
  rw [htaken] at htracked hread
  obtain ⟨rendered, hsplit, hstdout'⟩ := h.rendered
  refine ⟨⟨chunks'.drop j, htracked.subscribed, hahead', ⟨rendered ++ [f], ?_, ?_⟩, ?_⟩, ?_⟩
  · rw [hsplit, List.append_assoc]
    rfl
  · rw [hstdout, hstdout', List.flatMap_append, List.append_assoc]
    simp
  · rw [h.unbroken, unbroken_cons hunread htracked.le htracked.taken hread]
  · rw [hahead, hahead', List.length_append]
    have := List.length_pos_iff.mpr f.encode_ne_nil
    omega

end Listening

/-- Once everything has been read the client listens for ever. -/
theorem listen_stalls {c : Cli} {chunks : List (List UInt8)} {frames : List CliFrame}
    (h : c.Subscribed chunks) (hvalid : ∀ f ∈ frames, f.Valid)
    (hahead : c.ahead = frames.flatMap CliFrame.encode) :
    Ends (fun _ _ => False) (fun _ _ => False)
      (fun c' => c'.polls = [] ∧ (c'.stdout = c.stdout ++ frames.flatMap CliFrame.rendered ↔
        Unbroken c.unread chunks frames)) (listen false c) := by
  unfold listen
  refine Ends.loop
    (fun c' => ∃ chunks' todo, Listening c chunks frames chunks' todo c') ?_
    ⟨chunks, frames, h, hahead, ⟨[], rfl, by simp⟩, Iff.rfl⟩
  rintro c₁ ⟨chunks₁, todo, h₁⟩
  have hlooked := h₁.looked
  unfold listenTurn
  rw [Prog.bind_done h₁.subscribed.polled.quiet.1.subscriptionInterrupted, if_neg (by simp)]
  by_cases hunread : c₁.unread = []
  · exact (hlooked.stalls hunread).bind fun _ _ hf => hf.elim
  · rw [Prog.bind_done (waitForSubscriptionData_unread (c := c₁.looked) hunread),
      Prog.bind_done hlooked.subscribed.polled.quiet.1.subscriptionInterrupted, if_neg (by simp)]
    cases todo with
    | nil =>
      have hempty : c₁.ahead = [] := h₁.ahead
      rw [Cli.ahead, List.append_assoc, List.append_eq_nil_iff] at hempty
      exact absurd hempty.1 hunread
    | cons f todo =>
      have hf : f ∈ frames := by
        obtain ⟨rendered, hsplit, -⟩ := h₁.rendered
        rw [hsplit]
        simp
      refine ((hlooked.looked.renders (hvalid f hf) hunread).mono (fun _ _ h₂ => h₂)
        (fun _ _ hf => hf) fun _ hf => hf.elim).bind ?_
      rintro _ c₂ ⟨⟨chunks₂, h₂⟩, hlt⟩
      exact .pure ⟨⟨chunks₂, todo, h₂⟩, hlt⟩

/-- **A subscription that nobody interrupts never ends.**  It polls for ever, and has
rendered all the frames exactly when no chunk ended between two of them. -/
theorem runSubscription_stalls {c : Cli} {chunks : List (List UInt8)} {frames : List CliFrame}
    (h : c.Subscribed chunks) (hvalid : ∀ f ∈ frames, f.Valid)
    (hahead : c.ahead = frames.flatMap CliFrame.encode) :
    Ends (fun _ _ => False) (fun _ _ => False)
      (fun c' => c'.polls = [] ∧ (c'.stdout = c.stdout ++ frames.flatMap CliFrame.rendered ↔
        Unbroken c.unread chunks frames)) (runSubscription false c) := by
  unfold runSubscription
  exact (listen_stalls h hvalid hahead).bind fun _ _ hf => hf.elim

/-- **Progress.**  The wait returns by the first `poll` that finds the socket
readable exactly when the buffer is not empty; and no subscription in which the
server closes the connection behind the frames comes to an end, whatever the buffer
holds. -/
theorem subscription_progress {c : Cli} (h : c.Uninterrupted)
    (hpolls : ∀ p ∈ c.polls, p = .timeout ∨ p = .eintr ∨ p = .readable) :
    (CliPoll.readable ∈ c.polls → (c.ReturnsWhenReadable ↔ c.unread ≠ [])) ∧
    ∀ (chunks : List (List UInt8)) (frames : List CliFrame), c.Subscribed chunks →
      (∀ f ∈ frames, f.Valid) → c.ahead = frames.flatMap CliFrame.encode →
      ((runSubscription false c).2.stdout = c.stdout ++ frames.flatMap CliFrame.rendered ↔
          Unbroken c.unread chunks frames) ∧
        (runSubscription false c).1 = .blocked ∧ (runSubscription false c).2.polls = [] := by
  refine ⟨fun _ => waitForSubscriptionData_returns h hpolls, ?_⟩
  intro chunks frames hsub hvalid hahead
  have hrun := runSubscription_stalls hsub hvalid hahead
  match hr : runSubscription false c with
  | (.done _, c') =>
    rw [hr] at hrun
    exact hrun.elim
  | (.failed _, c') =>
    rw [hr] at hrun
    exact hrun.elim
  | (.blocked, c') =>
    rw [hr] at hrun
    exact ⟨hrun.2, rfl, hrun.1⟩

/-- A client that has the beginning of a message in its buffer; the rest of it comes
with the message behind it. -/
def overlappingMessages : Cli :=
  { Cli.idle with
    unread := (CliFrame.message (ascii "room") (ascii "a")).encode.take 9
    active := true
    polls := [.readable, .timeout, .readable, .timeout]
    recvs := [chunkRecv ((CliFrame.message (ascii "room") (ascii "a")).encode.drop 9 ++
      (CliFrame.message (ascii "room") (ascii "b")).encode), closedRecv] }

theorem subscription_progress_overlappingMessages :
    (overlappingMessages.ReturnsWhenReadable ↔ overlappingMessages.unread ≠ []) ∧
    (runSubscription false overlappingMessages).2.stdout =
      ascii "message room a\nmessage room b\n" ∧
    (runSubscription false overlappingMessages).1 = .blocked := by
  have h := @subscription_progress overlappingMessages ⟨rfl, by decide⟩ (by decide)
  have hrun := h.2 [(CliFrame.message (ascii "room") (ascii "a")).encode.drop 9 ++
      (CliFrame.message (ascii "room") (ascii "b")).encode]
    [.message (ascii "room") (ascii "a"), .message (ascii "room") (ascii "b")]
    ⟨rfl, ⟨⟨⟨rfl, by decide⟩, rfl⟩, by decide, by decide⟩, by decide, rfl, by decide +kernel, rfl⟩
    (by decide +kernel) (by decide +kernel)
  refine ⟨h.1 (by decide), ?_, hrun.2.1⟩
  exact hrun.1.mpr (by unfold Unbroken; decide +kernel)

/-- A client that has read the response to `SUBSCRIBE`, and then gets a message. -/
def laterMessage : Cli :=
  { Cli.idle with
    active := true
    polls := [.timeout, .readable, .readable]
    recvs := [chunkRecv (CliFrame.message (ascii "room") (ascii "a")).encode, closedRecv] }

theorem laterMessage_stalls :
    CliPoll.readable ∈ laterMessage.polls ∧ ¬ laterMessage.ReturnsWhenReadable ∧
    (runSubscription false laterMessage).1 ≠ .failed .disconnected ∧
    (runSubscription false laterMessage).2.stdout = [] := by
  have hwait : (waitForSubscriptionData laterMessage).1 = .blocked := by decide +kernel
  refine ⟨by decide, ?_, by decide +kernel, by decide +kernel⟩
  rintro ⟨c', seen, hdone, -⟩
  rw [hdone] at hwait
  exact absurd hwait (by simp)

end Kessel
