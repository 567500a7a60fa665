import Kessel.Cli.Render

/-!
# Kessel.Cli.Stream

A stream of responses in any chunks.

The bytes of the server reach the client in the results of `recv`, which may cut
a response anywhere.  `renderResponses_stream` says that the client renders the
responses all the same, one for each call, whether it is subscribed or not.
-/

namespace Kessel

open CStr

/-- Without another answer `poll` blocks. -/
theorem poll_nil {c : Cli} (h : c.polls = []) : poll c = (.blocked, c) := by
  rw [poll]
  simp only [h]

/-- `poll` answers what comes next. -/
theorem poll_cons {c : Cli} {result : CliPoll} {polls : List CliPoll} (h : c.polls = result :: polls) :
    poll c = (.done result, { c with polls := polls }) := by
  rw [poll]
  simp only [h]

/-! ## a client that nobody interrupts -/

/-- The flag of the subscription is not raised, and will not be. -/
def Cli.Uninterrupted (c : Cli) : Prop := c.interrupted = false ∧ ∀ s ∈ c.signals, s = false

/-- Nor has the subscription been ended. -/
def Cli.Quiet (c : Cli) : Prop := c.Uninterrupted ∧ c.unsubscribeSent = false

/-- The client when the flag has been looked at. -/
def Cli.looked (c : Cli) : Cli := { c with signals := c.signals.tail }

namespace Cli.Uninterrupted

variable {c : Cli}

/-- A client that looks at its flag stays uninterrupted. -/
theorem looked (h : c.Uninterrupted) : c.looked.Uninterrupted :=
  ⟨h.1, fun s hs => h.2 s (List.mem_of_mem_tail hs)⟩

/-- The flag is read. -/
theorem subscriptionInterrupted (h : c.Uninterrupted) :
    Kessel.subscriptionInterrupted c = (.done false, c.looked) := by
  have hhead : c.signals.headD false = false := by
    cases hs : c.signals with
    | nil => rfl
    | cons s signals => exact h.2 s (by simp [hs])
  rw [Kessel.subscriptionInterrupted, h.1, hhead, Cli.looked]
  simp [← h.1]

end Cli.Uninterrupted

namespace Cli.Quiet

variable {c : Cli}

/-- And it stays quiet. -/
theorem looked (h : c.Quiet) : c.looked.Quiet := ⟨h.1.looked, h.2⟩

/-- A quiet client sends no `UNSUBSCRIBE`. -/
theorem sendPendingUnsubscribe (h : c.Quiet) :
    Kessel.sendPendingUnsubscribe c = (.done (), c.looked) := by
  unfold Kessel.sendPendingUnsubscribe
  rw [Prog.bind_done h.1.subscriptionInterrupted, Prog.get_bind, if_pos (by simp)]
  rfl

/-- And it is never late. -/
theorem unsubscribeLate (h : c.Quiet) : Kessel.unsubscribeLate c = (.done false, c) := by
  unfold Kessel.unsubscribeLate
  rw [Prog.get_bind, if_neg (by simp [h.2])]
  rfl

end Cli.Quiet

/-- A turn of `fill_reader` outside a subscription. -/
theorem fillTurn_inactive {c : Cli} (h : c.active = false) : fillTurn c = recv c := by
  have hready : readyToReceive c = (.done true, c) := by
    unfold readyToReceive
    rw [Prog.get_bind, if_neg (by simp [h])]
    rfl
  unfold fillTurn
  rw [Prog.bind_done hready, if_pos rfl]

section

variable {c : Cli} {polls : List CliPoll} (hactive : c.active = true) (h : c.Quiet)
include hactive h

/-- A turn of `fill_reader` in a subscription that nobody interrupts, up to its
`poll`. -/
theorem fillTurn_quiet :
    fillTurn c = (poll >>= fun result => match result with
      | .timeout => pure (.inl ())
      | .eintr => pure (.inl ())
      | .failed => Prog.fail .ioError
      | .notReadable => Prog.fail .ioError
      | .readable => recv : CliProg (Unit ⊕ Unit)) c.looked := by
  have hready : readyToReceive c = awaitReadable c := by
    unfold readyToReceive
    rw [Prog.get_bind, if_pos hactive]
  have hlate := h.looked.unsubscribeLate
  unfold fillTurn
  cases hp : c.polls with
  | nil =>
    have hpoll : poll c.looked = (.blocked, c.looked) := poll_nil hp
    have hwait : awaitReadable c = (.blocked, c.looked) := by
      unfold awaitReadable
      rw [Prog.bind_done h.sendPendingUnsubscribe, Prog.bind_done hlate, if_neg (by simp)]
      exact Prog.bind_blocked hpoll
    rw [Prog.bind_blocked (hready.trans hwait), Prog.bind_blocked hpoll]
  | cons result polls =>
    have hpoll : poll c.looked = (.done result, { c.looked with polls := polls }) := poll_cons hp
    have hwait : awaitReadable c = (match result with
        | .timeout => pure false
        | .eintr => pure false
        | .failed => Prog.fail .ioError
        | .notReadable => Prog.fail .ioError
        | .readable => pure true : CliProg Bool) { c.looked with polls := polls } := by
      unfold awaitReadable
      rw [Prog.bind_done h.sendPendingUnsubscribe, Prog.bind_done hlate, if_neg (by simp)]
      exact Prog.bind_done hpoll
    rw [Prog.bind_done hpoll]
    cases result with
    | timeout => rw [Prog.bind_done (hready.trans hwait), if_neg (by simp)]
    | eintr => rw [Prog.bind_done (hready.trans hwait), if_neg (by simp)]
    | failed => rw [Prog.bind_failed (hready.trans hwait)]; rfl
    | notReadable => rw [Prog.bind_failed (hready.trans hwait)]; rfl
    | readable => rw [Prog.bind_done (hready.trans hwait), if_pos rfl]

end

/-! ## chunks -/

/-- A `recv` that returns a chunk which has just arrived. -/
def chunkRecv (chunk : List UInt8) : CliRecv := ⟨chunk, .data chunk.length⟩

/-- A result of `recv`. -/
def IsChunk (chunk : List UInt8) : Prop := 0 < chunk.length ∧ chunk.length ≤ cliBufferSize

instance (chunk : List UInt8) : Decidable (IsChunk chunk) := inferInstanceAs (Decidable (_ ∧ _))

/-- `poll` does not fail, and reports every `recv`. -/
structure Cli.Polled (c : Cli) : Prop where
  quiet : c.Quiet
  polls : ∀ p ∈ c.polls, p = .timeout ∨ p = .eintr ∨ p = .readable
  enough : c.recvs.length ≤ c.polls.count .readable

/-- `poll` does not look at the buffer and the output. -/
theorem Cli.Polled.output {c : Cli} (h : c.Polled) (unread : List UInt8) (writes : List Bool)
    (stdout : List UInt8) :
    ({ c with unread := unread, writes := writes, stdout := stdout } : Cli).Polled :=
  ⟨h.quiet, h.polls, h.enough⟩

/-- A client that gets its bytes in chunks and can print, subscribed or not. -/
structure Streaming (c : Cli) : Prop where
  writes : ∀ w ∈ c.writes, w = true
  wire : c.wire = []
  chunks : ∃ chunks : List (List UInt8),
    (∀ chunk ∈ chunks, IsChunk chunk) ∧ c.recvs = chunks.map chunkRecv
  polled : c.active = true → c.Polled

/-- What a fill keeps while it waits. -/
structure Filling (c c' : Cli) : Prop where
  unread : c'.unread = c.unread
  wire : c'.wire = c.wire
  recvs : c'.recvs = c.recvs
  stdout : c'.stdout = c.stdout
  active : c'.active = c.active
  writes : c'.writes = c.writes
  polled : c'.active = true → c'.Polled

/-- A chunk has been received. -/
structure Received (c : Cli) (chunk : List UInt8) (recvs : List CliRecv) (c' : Cli) : Prop where
  unread : c'.unread = chunk
  wire : c'.wire = []
  recvs : c'.recvs = recvs
  stdout : c'.stdout = c.stdout
  active : c'.active = c.active
  writes : c'.writes = c.writes
  polled : c'.active = true → c'.Polled

/-- The `recv` at the end of a fill. -/
theorem recv_chunk {c c' : Cli} {chunk : List UInt8} {recvs : List CliRecv} (hwire : c.wire = [])
    (hrecvs : c.recvs = chunkRecv chunk :: recvs) (hchunk : IsChunk chunk)
    (h : c'.wire = c.wire ∧ c'.recvs = c.recvs ∧ c'.stdout = c.stdout ∧ c'.active = c.active ∧
      c'.writes = c.writes)
    (hpolled : c'.active = true → c'.Quiet ∧
      (∀ p ∈ c'.polls, p = .timeout ∨ p = .eintr ∨ p = .readable) ∧
        recvs.length ≤ c'.polls.count .readable) :
    Ends (Sum.elim (fun _ _ => False) (fun _ => Received c chunk recvs)) (fun _ _ => False)
      (fun _ => False) (recv c') := by
  obtain ⟨hwire', hrecvs', hstdout, hactive, hwrites⟩ := h
  obtain ⟨hpos, hle⟩ := hchunk
  have hne : chunk ≠ [] := List.length_pos_iff.mp hpos
  have hn : min (max chunk.length 1) cliBufferSize = chunk.length := by omega
  rw [recv]
  simp only [hrecvs', hrecvs, hwire', hwire, chunkRecv, List.nil_append, if_neg hne, hn,
    List.take_length, List.drop_length]
  refine ⟨rfl, rfl, rfl, hstdout, hactive, hwrites, fun hact => ?_⟩
  obtain ⟨hquiet, hpolls, henough⟩ := hpolled hact
  exact ⟨hquiet, hpolls, henough⟩

/-- **A fill takes the next chunk.** -/
theorem fillReader_chunk {c : Cli} {chunk : List UInt8} {recvs : List CliRecv} (hwire : c.wire = [])
    (hrecvs : c.recvs = chunkRecv chunk :: recvs) (hchunk : IsChunk chunk)
    (hpolled : c.active = true → c.Polled) :
    Ends (fun _ => Received c chunk recvs) (fun _ _ => False) (fun _ => False) (fillReader c) := by
  unfold fillReader
  refine Ends.loop (Filling c) ?_ ⟨rfl, rfl, rfl, rfl, rfl, rfl, hpolled⟩
  intro c₁ h₁
  have hlen : c₁.recvs.length = recvs.length + 1 := by rw [h₁.recvs, hrecvs, List.length_cons]
  by_cases hactive : c₁.active = true
  · obtain ⟨hquiet, hpolls, henough⟩ := h₁.polled hactive
    rw [fillTurn_quiet hactive hquiet]
    cases hp : c₁.polls with
    | nil =>
      rw [hp, List.count_nil] at henough
      omega
    | cons result polls =>
      rw [Prog.bind_done (@poll_cons c₁.looked result polls hp)]
      rw [hp] at hpolls henough
      rw [List.forall_mem_cons] at hpolls
      have hquiet' : ({ c₁.looked with polls := polls } : Cli).Quiet := hquiet.looked
      -- a turn that waits again
      have hagain (hresult : result ≠ .readable) :
          Filling c { c₁.looked with polls := polls } ∧
            polls.length + c₁.recvs.length < (result :: polls).length + c₁.recvs.length := by
        rw [List.count_cons_of_ne (by simpa using hresult)] at henough
        refine ⟨⟨h₁.unread, h₁.wire, h₁.recvs, h₁.stdout, h₁.active, h₁.writes,
          fun _ => ⟨hquiet', hpolls.2, henough⟩⟩, ?_⟩
        rw [List.length_cons]
        omega
      rcases hpolls.1 with rfl | rfl | rfl
      · exact hagain (by simp)
      · exact hagain (by simp)
      · rw [List.count_cons_self] at henough
        refine (@recv_chunk c { c₁.looked with polls := polls } chunk recvs hwire hrecvs hchunk
          ⟨h₁.wire, h₁.recvs, h₁.stdout, h₁.active, h₁.writes⟩
          fun _ => ⟨hquiet', hpolls.2, by rw [hlen] at henough; exact Nat.le_of_succ_le_succ henough⟩).imp
          ?_
        rintro (_ | _) c' h'
        · exact h'.elim
        · exact h'
  · rw [fillTurn_inactive (by simpa using hactive)]
    refine (recv_chunk hwire hrecvs hchunk ⟨h₁.wire, h₁.recvs, h₁.stdout, h₁.active, h₁.writes⟩
      fun hact => absurd hact hactive).imp ?_
    rintro (_ | _) c' h'
    · exact h'.elim
    · exact h'

/-- **`fill_reader`** makes bytes available while the stream lasts. -/
theorem fillReader_streaming {c : Cli} (hc : Streaming c) (hunread : c.unread = [])
    (hahead : c.ahead ≠ []) :
    Ends (fun _ c' => Reads Streaming c c.ahead [] c' ∧ c'.unread ≠ []) (fun _ _ => False)
      (fun _ => False) (fillReader c) := by
  obtain ⟨chunks, hchunks, heq⟩ := hc.chunks
  have haheadc : c.ahead = c.recvs.flatMap CliRecv.arrived := by
    rw [Cli.ahead, hunread, hc.wire, List.nil_append, List.nil_append]
  cases chunks with
  | nil =>
    rw [haheadc, heq] at hahead
    exact absurd rfl hahead
  | cons chunk chunks =>
    rw [List.forall_mem_cons] at hchunks
    refine (fillReader_chunk hc.wire heq hchunks.1 hc.polled).imp ?_
    intro _ c' h
    refine ⟨⟨⟨?_, h.wire, ⟨chunks, hchunks.2, h.recvs⟩, h.polled⟩, ?_, by rw [h.stdout, List.append_nil]⟩,
      ?_⟩
    · rw [h.writes]
      exact hc.writes
    · rw [haheadc, heq, Cli.ahead, h.unread, h.wire, h.recvs]
      simp [chunkRecv]
    · rw [h.unread]
      exact List.length_pos_iff.mp hchunks.1.1

/-- Output that succeeds. -/
theorem writeOut_spec {inv : Cli → Prop} {bad : ResponseStatus → Cli → Prop} {wait : Cli → Prop}
    {c : Cli} (hwrites : ∀ w ∈ c.writes, w = true) (text : List UInt8)
    (hinv : inv { c with writes := c.writes.tail, stdout := c.stdout ++ text }) :
    Ends (fun _ => Reads inv c c.ahead text) bad wait (writeOut text c) := by
  have hwrite : c.writes.headD true = true := by
    cases hw : c.writes with
    | nil => rfl
    | cons w writes => exact hwrites w (by simp [hw])
  rw [writeOut, if_pos hwrite]
  exact ⟨hinv, rfl, rfl⟩

/-- Chunks feed the client. -/
theorem feed_streaming : Feed Streaming Streaming (fun _ _ => False) (fun _ => False) where
  fill _ hc hunread hahead := fillReader_streaming hc hunread hahead
  ready _ hc _ := hc
  take c n hc _ _ := ⟨hc.writes, hc.wire, hc.chunks,
    fun hact => (hc.polled hact).output (c.unread.drop n) c.writes c.stdout⟩
  print c text hc := ⟨hc.writes, hc.wire, hc.chunks,
    fun hact => (hc.polled hact).output c.unread c.writes (c.stdout ++ text)⟩
  write c text hc := writeOut_spec hc.writes text
    ⟨fun w hw => hc.writes w (List.mem_of_mem_tail hw), hc.wire, hc.chunks,
      fun hact => (hc.polled hact).output c.unread c.writes.tail (c.stdout ++ text)⟩

/-! ## the responses of the server -/

/-- The server formats a response, at the start of a buffer. -/
def CliFrame.format (f : CliFrame) (m : Mem) (cap : Nat) : Mem × Nat :=
  match f with
  | .simple text => ksFmtSimple m 0 cap text
  | .error text => ksFmtError m 0 cap text
  | .integer value => ksFmtInt m 0 cap value
  | .bulk data => ksFmtBulk m 0 cap data
  | .nil => ksFmtNil m 0 cap
  | .message channel text => formatPubsubMessage m cap channel text

/-- The bytes that the server sends for a response, from a buffer that is large
enough. -/
def CliFrame.MadeBy (f : CliFrame) (bytes : List UInt8) : Prop :=
  ∃ (m : Mem) (cap : Nat), f.encode.length < cap ∧
    bytes = (f.format m cap).1.read 0 (f.format m cap).2

/-- Every frame is written by its formatter. -/
theorem CliFrame.format_formatted {f : CliFrame} (m : Mem) {cap : Nat} (h : f.encode.length < cap) :
    Formatted m 0 f.encode (f.format m cap) := by
  cases f with
  | simple text => exact ksFmtSimple_formatted m 0 text (by rwa [← length_simpleFrame])
  | error text => exact ksFmtError_formatted m 0 text (by rwa [← length_errorFrame])
  | integer value => exact ksFmtInt_formatted m 0 value (by rwa [← length_intFrame])
  | bulk data => exact ksFmtBulk_formatted m 0 data (by rwa [← length_bulkFrame])
  | nil => exact ksFmtNil_formatted m 0 h
  | message channel text => exact formatPubsubMessage_formatted m h

/-- What a formatter writes is the frame. -/
theorem CliFrame.MadeBy.eq {f : CliFrame} {bytes : List UInt8} (h : f.MadeBy bytes) :
    bytes = f.encode := by
  obtain ⟨m, cap, hcap, rfl⟩ := h
  have hformat := CliFrame.format_formatted m hcap
  rw [hformat.length, hformat.bytes]

/-- Successive calls of `render_response`. -/
def renderResponses : Nat → CliProg (List ResponseKind)
  | 0 => pure []
  | n + 1 => do
    let kind ← renderResponse
    let kinds ← renderResponses n
    pure (kind :: kinds)

/-- Calls that read the responses ahead of the client. -/
theorem renderResponses_spec {inv filled : Cli → Prop} {bad : ResponseStatus → Cli → Prop}
    {wait : Cli → Prop} (hfeed : Feed inv filled bad wait) {c : Cli} (hinv : inv c)
    {frames : List CliFrame} {rest : List UInt8} (hvalid : ∀ f ∈ frames, f.Valid)
    (hahead : c.ahead = frames.flatMap CliFrame.encode ++ rest) :
    Ends (fun kinds c' => kinds = frames.map CliFrame.kind ∧
      Reads inv c rest (frames.flatMap CliFrame.rendered) c') bad wait
      (renderResponses frames.length c) := by
  induction frames generalizing c with
  | nil =>
    have hrest : c.ahead = rest := hahead
    exact .pure ⟨rfl, hrest ▸ .refl hinv⟩
  | cons f frames ih =>
    rw [List.forall_mem_cons] at hvalid
    rw [List.flatMap_cons, List.append_assoc] at hahead
    rw [List.length_cons, renderResponses]
    refine (renderResponse_spec hfeed hinv hvalid.1 hahead).bind ?_
    rintro _ c₁ ⟨rfl, h₁⟩
    refine (ih h₁.inv hvalid.2 h₁.ahead).bind ?_
    rintro _ c₂ ⟨rfl, h₂⟩
    rw [List.map_cons, List.flatMap_cons]
    exact .pure ⟨rfl, h₁.trans h₂⟩

/-- The formatters write the frames, one after the other. -/
theorem madeBy_flatten {frames : List CliFrame} {bytes : List (List UInt8)}
    (h : List.Forall₂ CliFrame.MadeBy frames bytes) :
    bytes = frames.map CliFrame.encode := by
  induction h with
  | nil => rfl
  | cons hhead _ ih => rw [List.map_cons, hhead.eq, ih]

/-- **The client decodes every stream that the server encodes**, however it is cut
into chunks: each call renders one response, and after the last one nothing is
left. -/
theorem renderResponses_stream {c : Cli} {frames : List CliFrame}
    {bytes chunks : List (List UInt8)} (hvalid : ∀ f ∈ frames, f.Valid)
    (hbytes : List.Forall₂ CliFrame.MadeBy frames bytes) (hc : Streaming c) (hunread : c.unread = [])
    (hrecvs : c.recvs = chunks.map chunkRecv) (hsplit : chunks.flatten = bytes.flatten) {n : Nat}
    (hn : n ≤ frames.length) :
    ∃ c', renderResponses n c = (.done ((frames.take n).map CliFrame.kind), c') ∧
      c'.stdout = c.stdout ++ (frames.take n).flatMap CliFrame.rendered ∧
      c'.ahead = (bytes.drop n).flatten := by
  have hahead : c.ahead = bytes.flatten := by
    rw [Cli.ahead, hunread, hc.wire, hrecvs, ← hsplit, List.flatMap_map]
    exact List.flatMap_id
  have hparts : bytes.flatten =
      (frames.take n).flatMap CliFrame.encode ++ (bytes.drop n).flatten := by
    have htake : (frames.take n).flatMap CliFrame.encode = (bytes.take n).flatten := by
      rw [madeBy_flatten hbytes, ← List.map_take, List.flatMap_def]
    rw [htake, ← List.flatten_append, List.take_append_drop]
  have hspec := renderResponses_spec feed_streaming hc
    (fun f hf => hvalid f (List.mem_of_mem_take hf)) (hahead.trans hparts)
  rw [List.length_take, Nat.min_eq_left hn] at hspec
  generalize renderResponses n c = r at *
  obtain ⟨outcome, c'⟩ := r
  cases outcome with
  | done kinds =>
    obtain ⟨rfl, hreads⟩ := hspec
    exact ⟨c', rfl, hreads.stdout, hreads.ahead⟩
  | failed e => exact hspec.elim
  | blocked => exact hspec.elim

/-- Two responses, cut in the middle of the first and of the second. -/
def okMessage : List (List UInt8) :=
  [CliFrame.simple (ascii "OK"), .message (ascii "room") (ascii "a\r\n$")].map fun f =>
    (f.format blank 100).1.read 0 (f.format blank 100).2

def okMessageChunks : List (List UInt8) :=
  [okMessage.flatten.take 3, (okMessage.flatten.drop 3).take 9, okMessage.flatten.drop 12]

theorem renderResponses_stream_okMessage :
    ∃ c', renderResponses 2 { Cli.idle with recvs := okMessageChunks.map chunkRecv } =
        (.done [.simple, .array], c') ∧
      c'.stdout = ascii "OK\nmessage room a\r\n$\n" ∧ c'.ahead = [] :=
  @renderResponses_stream { Cli.idle with recvs := okMessageChunks.map chunkRecv }
    [.simple (ascii "OK"), .message (ascii "room") (ascii "a\r\n$")] okMessage okMessageChunks
    (by simp only [List.forall_mem_cons]
        exact ⟨by decide, by decide, by simp⟩)
    (.cons ⟨blank, 100, by decide, rfl⟩ (.cons ⟨blank, 100, by decide, rfl⟩ .nil))
    ⟨by simp [Cli.idle], rfl, ⟨okMessageChunks, by decide, rfl⟩, by simp [Cli.idle]⟩ rfl rfl
    (by decide) 2 (by decide)

end Kessel
