import Kessel.Cli.Arguments
import Kessel.Cli.Peer
import Kessel.Cli.Stream

/-!
# Kessel.Cli.Main

`main` of the client, from its arguments to its exit code.

A session reads one line after the other and goes on with it as `runLine` says.
`sentLines` are the lines that get as far as the server.  `Answering` is a client
outside a subscription whose system does what it is asked: it sends, it delivers
what arrives in chunks, it prints.

* `mainLoop_spec` — such a client sends its lines, and prints one response for
  each of them.
-/

namespace Kessel

open CStr

/-! ## `main` -/

/-- The loop of `main`, for the lines that `input_read` returns before it returns
`NULL`; `error` is `ferror(stdin)` then. -/
def mainLoop (error : Bool) : List (List UInt8 × CliLineEnv) → CliProg Nat
  | [] => pure (if error then 1 else 0)
  | (line, env) :: lines => do
    match ← runLine line env with
    | .prompt => mainLoop error lines
    | .exit code => pure code

/-- What `main` gets from outside: whether `connect_to_server` and `input_init`
succeed, and its input. -/
structure CliMainEnv where
  connected : Bool
  input : Bool
  lines : List (List UInt8 × CliLineEnv)
  error : Bool

/-- `main`: the exit code. -/
def cliMain (argv : List CStr) (env : CliMainEnv) : CliProg Nat :=
  match cliParseArgs argv with
  | .help => pure 0
  | .invalid => pure 1
  | .run _ =>
    if env.connected = false then pure 1
    else if env.input = false then pure 1
    else mainLoop env.error env.lines

/-! ## the lines that are sent -/

/-- The line is neither empty nor too long. -/
def Sendable (line : List UInt8) : Bool :=
  0 < commandLength line && commandLength line ≤ kesselCliMaxLine

/-- The lines that `main` sends: up to `EXIT`, and of these the sendable ones. -/
def sentLines (lines : List (List UInt8)) : List (List UInt8) :=
  (lines.takeWhile fun line => !isExitCommand line).filter Sendable

/-- What `main` returns behind these lines: `EXIT` ends it before `error` is
looked at. -/
def endCode (error : Bool) (lines : List (List UInt8)) : Nat :=
  if error ∧ ∀ line ∈ lines, isExitCommand line = false then 1 else 0

/-- The client does not take the line for a subscription. -/
def Plain (line : List UInt8) : Prop :=
  ∀ memory, (copySubscribeArgument line memory).1 = .notCommand

/-- What `main` does with a line that is no subscription. -/
theorem runLine_plain {line : List UInt8} (hplain : Plain line) (env : CliLineEnv) :
    runLine line env =
      if isExitCommand line then pure (.exit 0)
      else if Sendable line then runCommandLine line
      else pure .prompt := by
  have hcopy := hplain env.argumentMemory
  unfold runLine Sendable
  by_cases hexit : isExitCommand line = true
  · rw [if_pos hexit, if_pos hexit]
  rw [if_neg hexit, if_neg hexit]
  by_cases hempty : commandLength line = 0
  · rw [if_pos hempty, hempty]
    rfl
  rw [if_neg hempty]
  by_cases hlong : commandLength line > kesselCliMaxLine
  · rw [if_pos hlong, if_neg (by simp; omega)]
  rw [if_neg hlong, if_pos (by simp; omega)]
  rcases hresult : copySubscribeArgument line env.argumentMemory with ⟨status, argument⟩
  rw [hresult] at hcopy
  obtain rfl : status = .notCommand := hcopy
  rfl

/-! ## sending -/

def CliSend.isSent : CliSend → Bool
  | .sent _ => true
  | _ => false

/-- `send` does not fail, and takes at least `left` more bytes. -/
structure Cli.CanSend (c : Cli) (left : Nat) : Prop where
  sends : .failed ∉ c.sends
  enough : left ≤ c.sends.countP CliSend.isSent

/-- **`write_all`** sends everything. -/
theorem writeAllLoop_all (data : List UInt8) (c : Cli) {sends : List CliSend} {left : Nat}
    (hsends : .failed ∉ sends) (henough : data.length + left ≤ sends.countP CliSend.isSent) :
    ∃ sends' log, writeAllLoop data c sends =
        (.done true, { c with sends := sends', log := c.log ++ log }) ∧
      bytesSent log = data ∧ .failed ∉ sends' ∧ left ≤ sends'.countP CliSend.isSent := by
  induction sends generalizing data c with
  | nil =>
    rw [List.countP_nil] at henough
    have hnil : data = [] := List.length_eq_zero_iff.mp (by omega)
    subst hnil
    exact ⟨[], [], by simp [writeAllLoop], rfl, hsends, by omega⟩
  | cons send sends ih =>
    rw [writeAllLoop.eq_def]
    dsimp only
    by_cases hnil : data = []
    · subst hnil
      exact ⟨send :: sends, [], by simp, rfl, hsends, by simpa using henough⟩
    rw [if_neg hnil]
    have hlater : .failed ∉ sends := fun h => hsends (List.mem_cons_of_mem _ h)
    cases send with
    | failed => exact absurd List.mem_cons_self hsends
    | eintr =>
      rw [List.countP_cons_of_neg (by simp [CliSend.isSent])] at henough
      exact ih data c hlater henough
    | sent n =>
      have hpos := List.length_pos_iff.mpr hnil
      rw [List.countP_cons_of_pos rfl] at henough
      obtain ⟨sends', log, heq, hdata, hfailed, hleft⟩ :=
        ih (data.drop (max n 1)) { c with log := c.log ++ [.sent (data.take (max n 1))] } hlater
          (by rw [List.length_drop]; omega)
      refine ⟨sends', .sent (data.take (max n 1)) :: log, ?_, ?_, hfailed, hleft⟩
      · refine heq.trans ?_
        simp
      · rw [← List.singleton_append, bytesSent_append, bytesSent_sent, hdata]
        exact List.take_append_drop _ data

/-! ## a client whose system does what it is asked -/

/-- The client is outside a subscription, has sent `sent` and can send `left` bytes
more; what arrives comes in chunks, and it can print. -/
structure Answering (sent : List UInt8) (left : Nat) (c : Cli) : Prop where
  streaming : Streaming c
  active : c.active = false
  canSend : c.CanSend left
  sent : bytesSent c.log = sent

section
variable {sent data rest : List UInt8} {left : Nat} {c : Cli}

/-- What is written to a server that answers arrives whole. -/
theorem Answering.writeAll (h : Answering sent (data.length + left) c) :
    ∃ c', Kessel.writeAll data c = (.done true, c') ∧ Answering (sent ++ data) left c' ∧
      c'.ahead = c.ahead ∧ c'.stdout = c.stdout := by
  obtain ⟨sends', log, heq, hdata, hfailed, hleft⟩ :=
    writeAllLoop_all data c h.canSend.sends h.canSend.enough
  refine ⟨_, heq, ⟨⟨h.streaming.writes, h.streaming.wire, h.streaming.chunks, ?_⟩, h.active,
    ⟨hfailed, hleft⟩, ?_⟩, rfl, rfl⟩
  · intro hactive
    exact absurd h.active (by simp [show c.active = true from hactive])
  · rw [bytesSent_append, h.sent, hdata]

/-- A fill takes the next chunk. -/
theorem fillReader_answering (h : Answering sent left c) (hunread : c.unread = [])
    (hahead : c.ahead ≠ []) :
    Ends (fun _ c' => Reads (Answering sent left) c c.ahead [] c' ∧ c'.unread ≠ []) (fun _ _ => False)
      (fun _ => False) (fillReader c) := by
  obtain ⟨chunks, hchunks, heq⟩ := h.streaming.chunks
  have hwire := h.streaming.wire
  cases chunks with
  | nil =>
    rw [Cli.ahead, hunread, hwire, heq] at hahead
    exact absurd rfl hahead
  | cons chunk chunks =>
    rw [List.forall_mem_cons] at hchunks
    obtain ⟨hpos, hle⟩ := hchunks.1
    have hne : chunk ≠ [] := List.length_pos_iff.mp hpos
    have hn : min (max chunk.length 1) cliBufferSize = chunk.length := by omega
    have hturn : fillTurn c = (.done (.inr ()), { c with
        unread := chunk
        wire := []
        recvs := chunks.map chunkRecv
        log := c.log ++ [.arrived chunk] }) := by
      rw [fillTurn_inactive h.active, recv, heq]
      simp only [List.map_cons, chunkRecv, hwire, List.nil_append, if_neg hne, hn, List.take_length,
        List.drop_length]
    unfold fillReader
    rw [Prog.loop_inr hturn]
    refine ⟨⟨⟨⟨h.streaming.writes, rfl, ⟨chunks, hchunks.2, rfl⟩, ?_⟩, h.active, ?_, ?_⟩, ?_, ?_⟩, hne⟩
    · intro hactive
      exact absurd h.active (by simp [show c.active = true from hactive])
    · exact ⟨h.canSend.sends, h.canSend.enough⟩
    · rw [bytesSent_append, h.sent]
      exact List.append_nil sent
    · rw [Cli.ahead, Cli.ahead, hunread, hwire, heq]
      simp [chunkRecv]
    · exact (List.append_nil c.stdout).symm

/-- Such a system feeds the client. -/
theorem feed_answering : Feed (Answering sent left) (Answering sent left) (fun _ _ => False)
    (fun _ => False) where
  fill _ h hunread hahead := fillReader_answering h hunread hahead
  ready _ h _ := h
  take c n h _ _ := ⟨⟨h.streaming.writes, h.streaming.wire, h.streaming.chunks,
    fun hact => (h.streaming.polled hact).output (c.unread.drop n) c.writes c.stdout⟩, h.active,
    ⟨h.canSend.sends, h.canSend.enough⟩, h.sent⟩
  print c text h := ⟨⟨h.streaming.writes, h.streaming.wire, h.streaming.chunks,
    fun hact => (h.streaming.polled hact).output c.unread c.writes (c.stdout ++ text)⟩, h.active,
    ⟨h.canSend.sends, h.canSend.enough⟩, h.sent⟩
  write c text h := writeOut_spec h.streaming.writes text
    ⟨⟨fun w hw => h.streaming.writes w (List.mem_of_mem_tail hw), h.streaming.wire,
      h.streaming.chunks,
      fun hact => (h.streaming.polled hact).output c.unread c.writes.tail (c.stdout ++ text)⟩,
      h.active, ⟨h.canSend.sends, h.canSend.enough⟩, h.sent⟩

/-! ## one line -/

/-- **`send_command`** sends the line with a CRLF. -/
theorem sendCommand_answering {line : List UInt8}
    (h : Answering sent ((commandSent line).length + left) c) :
    ∃ c', sendCommand line c = (.done true, c') ∧ Answering (sent ++ commandSent line) left c' ∧
      c'.ahead = c.ahead ∧ c'.stdout = c.stdout := by
  have hlength : (commandSent line).length + left =
      (line.take (commandLength line)).length + (crlf.length + left) := by
    rw [commandSent, List.length_append]
    omega
  rw [hlength] at h
  obtain ⟨c₁, heq₁, h₁, hahead₁, hstdout₁⟩ := h.writeAll
  obtain ⟨c₂, heq₂, h₂, hahead₂, hstdout₂⟩ := h₁.writeAll
  rw [List.append_assoc] at h₂
  refine ⟨c₂, ?_, h₂, hahead₂.trans hahead₁, hstdout₂.trans hstdout₁⟩
  unfold sendCommand
  rw [Prog.bind_done heq₁, if_pos rfl]
  exact heq₂

/-- **A line that is sent** is answered by the next response. -/
theorem runCommandLine_spec {line : List UInt8} {f : CliFrame}
    (h : Answering sent ((commandSent line).length + left) c) (hvalid : f.Valid)
    (hahead : c.ahead = f.encode ++ rest) :
    Ends (fun next c' => next = .prompt ∧
        Reads (Answering (sent ++ commandSent line) left) c rest f.rendered c')
      (fun _ _ => False) (fun _ => False) (runCommandLine line c) := by
  obtain ⟨c₁, hsend, h₁, hahead₁, hstdout₁⟩ := sendCommand_answering h
  unfold runCommandLine
  rw [Prog.bind_done hsend, if_pos rfl]
  have hresponse : Ends (fun status c' => status = .ok f.kind ∧
      Reads (Answering (sent ++ commandSent line) left) c₁ rest f.rendered c')
      (fun _ _ => False) (fun _ => False) (renderResponse.attempt c₁) := by
    refine (renderResponse_spec feed_answering h₁ hvalid (hahead₁.trans hahead)).attempt ?_
      fun _ _ h => h.elim
    rintro kind c' ⟨rfl, hreads⟩
    exact ⟨rfl, hreads⟩
  refine hresponse.bind ?_
  rintro status c' ⟨rfl, hreads⟩
  refine .pure ⟨rfl, hreads.inv, hreads.ahead, ?_⟩
  rw [hreads.stdout, hstdout₁]

/-- Nothing is left to arrive. -/
theorem Answering.exhausted (h : Answering sent left c) (hahead : c.ahead = []) :
    c.unread = [] ∧ c.recvs = [] := by
  obtain ⟨chunks, hchunks, hrecvs⟩ := h.streaming.chunks
  simp only [Cli.ahead, List.append_eq_nil_iff, List.flatMap_eq_nil_iff] at hahead
  refine ⟨hahead.1.1, ?_⟩
  cases chunks with
  | nil => exact hrecvs
  | cons chunk chunks =>
    have hpos := (hchunks chunk List.mem_cons_self).1
    have hnil : chunk = [] := hahead.2 (chunkRecv chunk) (by simp [hrecvs])
    rw [hnil] at hpos
    exact absurd hpos (by simp)

/-- A line is sent also when no response comes; the client waits for it. -/
theorem runCommandLine_waits {line : List UInt8}
    (h : Answering sent ((commandSent line).length + left) c) (hahead : c.ahead = []) :
    Ends (fun _ _ => False) (fun _ _ => False)
      (fun c' => bytesSent c'.log = sent ++ commandSent line ∧ c'.stdout = c.stdout)
      (runCommandLine line c) := by
  obtain ⟨c', hsend, h', hahead', hstdout⟩ := sendCommand_answering h
  obtain ⟨hunread, hrecvs⟩ := h'.exhausted (hahead'.trans hahead)
  have hturn : fillTurn c' = (.blocked, c') := by
    rw [fillTurn_inactive h'.active, recv, hrecvs]
  have hfill : fillReader c' = (.blocked, c') := by
    unfold fillReader Prog.loop
    rw [Prog.iterate, Prog.bind_blocked hturn]
  have hrefill : refill c' = (.blocked, c') := by
    unfold refill
    rw [Prog.get_bind, if_pos hunread, hfill]
  have hresponse : renderResponse.attempt c' = (.blocked, c') := by
    unfold renderResponse readByte Prog.attempt
    rw [Prog.bind_blocked (Prog.bind_blocked hrefill)]
  unfold runCommandLine
  rw [Prog.bind_done hsend, if_pos rfl, Prog.bind_blocked hresponse]
  exact ⟨h'.sent, hstdout⟩

/-! ## a session -/

/-- Lines before an `EXIT`: the client sends them, in order, prints one response
for each of them, and goes on with what comes behind. -/
theorem mainLoop_front {good : Nat → Cli → Prop} {bad : ResponseStatus → Cli → Prop} {wait : Cli → Prop}
    {error : Bool} {front back : List (List UInt8 × CliLineEnv)} (hplain : ∀ l ∈ front, Plain l.1)
    (hexit : ∀ l ∈ front, isExitCommand l.1 = false) {frames : List CliFrame}
    (hframes : frames.length = ((front.map Prod.fst).filter Sendable).length)
    (hvalid : ∀ f ∈ frames, f.Valid)
    (h : Answering sent ((((front.map Prod.fst).filter Sendable).flatMap commandSent).length + left) c)
    (hahead : c.ahead = frames.flatMap CliFrame.encode ++ rest)
    (hback : ∀ c',
      Reads (Answering (sent ++ ((front.map Prod.fst).filter Sendable).flatMap commandSent) left)
        c rest (frames.flatMap CliFrame.rendered) c' →
      Ends good bad wait (mainLoop error back c')) :
    Ends good bad wait (mainLoop error (front ++ back) c) := by
  induction front generalizing sent frames c with
  | nil =>
    obtain rfl := List.length_eq_zero_iff.mp hframes
    refine hback c ⟨?_, hahead, (List.append_nil _).symm⟩
    simpa using h
  | cons l front ih =>
    obtain ⟨line, env⟩ := l
    rw [List.forall_mem_cons] at hplain hexit
    rw [List.cons_append, mainLoop, runLine_plain hplain.1, if_neg (by simp [hexit.1])]
    rw [List.map_cons] at hframes h hback
    by_cases hsendable : Sendable line = true
    · rw [List.filter_cons_of_pos hsendable] at hframes h hback
      obtain ⟨f, frames, rfl⟩ := List.exists_cons_of_length_eq_add_one hframes
      rw [List.forall_mem_cons] at hvalid
      rw [List.flatMap_cons, List.length_append, Nat.add_assoc] at h
      rw [List.flatMap_cons, List.append_assoc] at hahead
      rw [if_pos hsendable]
      have hline := runCommandLine_spec h hvalid.1 hahead
      refine (hline.mono (fun _ _ h => h) (fun _ _ h => h.elim) fun _ h => h.elim).bind ?_
      rintro next c' ⟨rfl, hreads⟩
      refine ih hplain.2 hexit.2 (Nat.succ.inj hframes) hvalid.2 hreads.inv hreads.ahead ?_
      intro c'' hlater
      refine hback c'' ⟨?_, hlater.ahead, ?_⟩
      · rw [List.flatMap_cons, ← List.append_assoc]
        exact hlater.inv
      · rw [hlater.stdout, hreads.stdout, List.flatMap_cons, List.append_assoc]
    · rw [List.filter_cons_of_neg hsendable] at hframes h hback
      rw [if_neg hsendable]
      exact ih hplain.2 hexit.2 hframes hvalid h hahead hback

/-- The lines before an `EXIT`. -/
theorem exists_front (lines : List (List UInt8 × CliLineEnv)) :
    ∃ front back, lines = front ++ back ∧ (∀ l ∈ front, isExitCommand l.1 = false) ∧
      (front.map Prod.fst).filter Sendable = sentLines (lines.map Prod.fst) ∧
      (back = [] ∨ ∃ l lines, back = l :: lines ∧ isExitCommand l.1 = true) := by
  refine ⟨lines.takeWhile fun l => !isExitCommand l.1, lines.dropWhile fun l => !isExitCommand l.1,
    List.takeWhile_append_dropWhile.symm, fun l hl => ?_, ?_, ?_⟩
  · simpa using List.mem_takeWhile_imp hl
  · rw [sentLines, List.takeWhile_map]
    rfl
  · cases hback : lines.dropWhile fun l => !isExitCommand l.1 with
    | nil => exact .inl rfl
    | cons l back =>
      have hl := List.head_dropWhile_not (p := fun l : List UInt8 × CliLineEnv => !isExitCommand l.1)
        (l := lines) (by simp [hback])
      simp only [hback, List.head_cons, Bool.not_eq_false'] at hl
      exact .inr ⟨l, back, rfl, hl⟩

/-- **A session.**  When a response has arrived for each of its lines, the client
has sent the lines and printed the responses, in order, and returns. -/
theorem mainLoop_spec {error : Bool} {lines : List (List UInt8 × CliLineEnv)}
    (hplain : ∀ l ∈ lines, Plain l.1) {frames : List CliFrame}
    (hframes : frames.length = (sentLines (lines.map Prod.fst)).length)
    (hvalid : ∀ f ∈ frames, f.Valid)
    (h : Answering sent (((sentLines (lines.map Prod.fst)).flatMap commandSent).length + left) c)
    (hahead : c.ahead = frames.flatMap CliFrame.encode ++ rest) :
    Ends (fun code c' => code = endCode error (lines.map Prod.fst) ∧
        Reads (Answering (sent ++ (sentLines (lines.map Prod.fst)).flatMap commandSent) left) c rest
          (frames.flatMap CliFrame.rendered) c')
      (fun _ _ => False) (fun _ => False) (mainLoop error lines c) := by
  obtain ⟨front, back, hlines, hexit, hsent, hback⟩ := exists_front lines
  rw [← hsent] at hframes h ⊢
  have hfront : ∀ l ∈ front, Plain l.1 := fun l hl => hplain l (by simp [hlines, hl])
  rw [hlines]
  refine mainLoop_front hfront hexit hframes hvalid h hahead fun c' hreads => ?_
  rcases hback with rfl | ⟨l, back, rfl, hl⟩
  · refine .pure ⟨?_, hreads⟩
    have hall : ∀ line ∈ (front ++ []).map Prod.fst, isExitCommand line = false := by
      simpa using hexit
    rw [endCode, if_congr (and_iff_left hall) rfl rfl]
  · have hnot : ¬ ∀ line ∈ (front ++ l :: back).map Prod.fst, isExitCommand line = false :=
      fun h => by simp [h l.1 (by simp)] at hl
    have hplain' := hplain l (by simp [hlines])
    rw [mainLoop, runLine_plain hplain', if_pos hl]
    refine .pure ⟨?_, hreads⟩
    rw [endCode, if_neg (by tauto)]

/-- A reply belongs to a line that is sent. -/
theorem exists_nth_sendable {front : List (List UInt8 × CliLineEnv)} {n : Nat}
    (h : n < ((front.map Prod.fst).filter Sendable).length) :
    ∃ before l after, front = before ++ l :: after ∧
      n = ((before.map Prod.fst).filter Sendable).length ∧ Sendable l.1 = true := by
  induction front generalizing n with
  | nil => exact absurd h (by simp)
  | cons l front ih =>
    by_cases hsendable : Sendable l.1 = true
    · rw [List.map_cons, List.filter_cons_of_pos hsendable, List.length_cons] at h
      cases n with
      | zero => exact ⟨[], l, front, rfl, rfl, hsendable⟩
      | succ n =>
        obtain ⟨before, x, after, rfl, rfl, hx⟩ := ih (Nat.lt_of_succ_lt_succ h)
        exact ⟨l :: before, x, after, rfl, by simp [hsendable], hx⟩
    · rw [List.map_cons, List.filter_cons_of_neg hsendable] at h
      obtain ⟨before, x, after, rfl, rfl, hx⟩ := ih h
      exact ⟨l :: before, x, after, rfl, by simp [hsendable], hx⟩

/-- When responses are missing, the client has sent the lines up to the one whose
response is missing, has printed the responses there are, and waits. -/
theorem mainLoop_waits {error : Bool} {lines : List (List UInt8 × CliLineEnv)}
    (hplain : ∀ l ∈ lines, Plain l.1) {frames : List CliFrame}
    (hframes : frames.length < (sentLines (lines.map Prod.fst)).length)
    (hvalid : ∀ f ∈ frames, f.Valid)
    (h : Answering sent (((sentLines (lines.map Prod.fst)).flatMap commandSent).length + left) c)
    (hahead : c.ahead = frames.flatMap CliFrame.encode) :
    Ends (fun _ _ => False) (fun _ _ => False)
      (fun c' => bytesSent c'.log =
          sent ++ ((sentLines (lines.map Prod.fst)).take (frames.length + 1)).flatMap commandSent ∧
        c'.stdout = c.stdout ++ frames.flatMap CliFrame.rendered)
      (mainLoop error lines c) := by
  obtain ⟨front, back, rfl, hexit, hsent, -⟩ := exists_front lines
  rw [← hsent] at hframes h ⊢
  -- the line whose response is missing
  obtain ⟨before, l, after, rfl, hbefore, hsendable⟩ := exists_nth_sendable hframes
  have hfilter : ((before ++ l :: after).map Prod.fst).filter Sendable =
      (before.map Prod.fst).filter Sendable ++ l.1 :: (after.map Prod.fst).filter Sendable := by
    rw [List.map_append, List.filter_append, List.map_cons, List.filter_cons_of_pos hsendable]
  have htake : (((before ++ l :: after).map Prod.fst).filter Sendable).take (frames.length + 1) =
      (before.map Prod.fst).filter Sendable ++ [l.1] := by
    rw [hfilter, hbefore, List.take_length_add_append]
    rfl
  rw [htake]
  rw [hfilter, List.flatMap_append, List.flatMap_cons, List.length_append, List.length_append,
    Nat.add_assoc, Nat.add_assoc] at h
  rw [List.append_assoc, List.cons_append]
  refine mainLoop_front (fun l hl => hplain l (by simp [hl])) (fun l hl => hexit l (by simp [hl]))
    hbefore hvalid h (hahead.trans (List.append_nil _).symm) fun c' hreads => ?_
  rw [mainLoop, runLine_plain (hplain l (by simp)), if_neg (by simp [hexit l (by simp)]),
    if_pos hsendable]
  refine Ends.bind (runCommandLine_waits hreads.inv hreads.ahead |>.mono (fun _ _ h => h)
    (fun _ _ h => h) fun c'' hwait => ?_) fun _ _ h => h.elim
  rw [List.flatMap_append, ← List.append_assoc, hwait.1, hwait.2, hreads.stdout]
  exact ⟨by simp, rfl⟩

end

end Kessel
