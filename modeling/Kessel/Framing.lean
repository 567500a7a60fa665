import Kessel.Client

/-!
# Kessel.Framing

What a byte stream asks for.

`requestStream S` is the sequence of requests of a client that sends `S` and
closes: `S` is cut behind each newline, a line that is too long ends the
sequence, and so does an unterminated tail.  Nothing here knows how the bytes
arrive; `Framed` relates the stream to a connection that has taken some of it.
-/

namespace Kessel

/-! ## the requests of a stream -/

/-- The length of a line without its newline and without one carriage return
before it. -/
def contentLength (seg : List UInt8) : Nat :=
  if seg.getLast? = some 13 then seg.length - 1 else seg.length

/-- What a line asks for, its newline cut off. -/
def lineRequest (seg : List UInt8) : KsRequest :=
  if contentLength seg > ksMaxRequest then .tooLarge
  else if 0 ∈ seg then .rejected
  else .command (seg ++ [10])

/-- What is left when the client closes behind an unterminated tail. -/
def tailRequests (tail : List UInt8) : List KsRequest :=
  if tail = [] then [] else if ksInputCap ≤ tail.length then [.tooLarge] else [.incomplete]

/-- The requests of a stream, behind the bytes `seg` of a line. -/
def streamFrom (seg : List UInt8) : List UInt8 → List KsRequest
  | [] => tailRequests seg
  | b :: bs =>
    if b = 10 then
      if lineRequest seg = .tooLarge then [.tooLarge] else lineRequest seg :: streamFrom [] bs
    else streamFrom (seg ++ [b]) bs

/-- The requests of a client that sends a stream and closes. -/
def requestStream (stream : List UInt8) : List KsRequest := streamFrom [] stream

/-- The requests of the complete lines of a stream, behind the bytes `seg` of a
line. -/
def linesFrom (seg : List UInt8) : List UInt8 → List KsRequest
  | [] => []
  | b :: bs =>
    if b = 10 then
      if lineRequest seg = .tooLarge then [.tooLarge] else lineRequest seg :: linesFrom [] bs
    else linesFrom (seg ++ [b]) bs

/-- The requests of the complete lines of a stream. -/
def lineRequests (stream : List UInt8) : List KsRequest := linesFrom [] stream

/-! ## step equations -/

/-- Bytes that are not newlines are collected. -/
theorem streamFrom_append {seg bs : List UInt8} (h : 10 ∉ bs) (rest : List UInt8) :
    streamFrom seg (bs ++ rest) = streamFrom (seg ++ bs) rest := by
  induction bs generalizing seg with
  | nil => simp
  | cons b bs ih =>
    rw [List.mem_cons, not_or] at h
    rw [List.cons_append, streamFrom, if_neg (Ne.symm h.1), ih h.2, List.append_assoc]
    rfl

/-- A line, and the stream behind it. -/
theorem requestStream_line {seg : List UInt8} (h : 10 ∉ seg) (rest : List UInt8) :
    requestStream (seg ++ 10 :: rest) =
      if lineRequest seg = .tooLarge then [.tooLarge]
      else lineRequest seg :: requestStream rest := by
  rw [requestStream, streamFrom_append h, List.nil_append, streamFrom, if_pos rfl, requestStream]

/-- What is left when the stream ends without a line feed. -/
theorem requestStream_tail {seg : List UInt8} (h : 10 ∉ seg) :
    requestStream seg = tailRequests seg := by
  have happend := @streamFrom_append [] seg h []
  rwa [List.append_nil, List.nil_append] at happend

@[simp] theorem requestStream_nil : requestStream [] = [] := rfl

/-- At most one byte in front of the line feed is no content. -/
theorem contentLength_ge (seg : List UInt8) : seg.length - 1 ≤ contentLength seg := by
  unfold contentLength
  split <;> omega

/-- A line that fills the input buffer is too large, whatever comes behind it. -/
theorem streamFrom_full {seg : List UInt8} (h : ksInputCap ≤ seg.length) (rest : List UInt8) :
    streamFrom seg rest = [.tooLarge] := by
  induction rest generalizing seg with
  | nil =>
    have hne : seg ≠ [] := by
      rintro rfl
      simp [ksInputCap] at h
    rw [streamFrom, tailRequests, if_neg hne, if_pos h]
  | cons b rest ih =>
    rw [streamFrom]
    split
    · have hlarge : lineRequest seg = .tooLarge := by
        have hge := contentLength_ge seg
        rw [lineRequest, if_pos (by rw [ksInputCap] at h; omega)]
      rw [if_pos hlarge]
    · exact ih (by rw [List.length_append]; omega)

/-- A line that fills the buffer is too large, whatever follows. -/
theorem requestStream_full {seg : List UInt8} (hline : 10 ∉ seg) (h : ksInputCap ≤ seg.length)
    (rest : List UInt8) : requestStream (seg ++ rest) = [.tooLarge] := by
  rw [requestStream, streamFrom_append hline]
  exact streamFrom_full h rest

/-! ## the end of a sequence -/

/-- A line is complete. -/
theorem lineRequest_ne_incomplete (seg : List UInt8) : lineRequest seg ≠ .incomplete := by
  unfold lineRequest
  split
  · simp
  · split <;> simp

/-- A line feed completes a request. -/
theorem streamFrom_snoc_ne_nil (seg bs : List UInt8) : streamFrom seg (bs ++ [10]) ≠ [] := by
  induction bs generalizing seg with
  | nil =>
    rw [List.nil_append, streamFrom, if_pos rfl]
    split <;> simp
  | cons b bs ih =>
    rw [List.cons_append, streamFrom]
    split
    · split <;> simp
    · exact ih _

/-- `request too large` and `incomplete command` end the sequence. -/
theorem streamFrom_ends {seg bs : List UInt8} {before after : List KsRequest} {request : KsRequest}
    (h : streamFrom seg bs = before ++ request :: after)
    (hend : request = .tooLarge ∨ request = .incomplete) : after = [] := by
  induction bs generalizing seg before with
  | nil =>
    rw [streamFrom, tailRequests] at h
    have hlen := congrArg List.length h
    split at hlen
    · simp at hlen
    · split at hlen <;> simp at hlen <;> exact List.eq_nil_of_length_eq_zero (by omega)
  | cons b bs ih =>
    rw [streamFrom] at h
    by_cases hb : b = 10
    · rw [if_pos hb] at h
      by_cases hlarge : lineRequest seg = .tooLarge
      · rw [if_pos hlarge] at h
        have hlen := congrArg List.length h
        simp only [List.length_append, List.length_cons, List.length_nil] at hlen
        exact List.eq_nil_of_length_eq_zero (by omega)
      · rw [if_neg hlarge] at h
        cases before with
        | nil =>
          rw [List.nil_append, List.cons.injEq] at h
          rcases hend with rfl | rfl
          · exact absurd h.1 hlarge
          · exact absurd h.1 (lineRequest_ne_incomplete seg)
        | cons r before =>
          rw [List.cons_append, List.cons.injEq] at h
          exact ih h.2
    · rw [if_neg hb] at h
      exact ih h

/-! ## complete lines -/

/-- Bytes that are not newlines complete no line. -/
theorem linesFrom_append {seg bs : List UInt8} (h : 10 ∉ bs) (rest : List UInt8) :
    linesFrom seg (bs ++ rest) = linesFrom (seg ++ bs) rest := by
  induction bs generalizing seg with
  | nil => simp
  | cons b bs ih =>
    rw [List.mem_cons, not_or] at h
    rw [List.cons_append, linesFrom, if_neg (Ne.symm h.1), ih h.2, List.append_assoc]
    rfl

/-- A line that is not too large, and the lines behind it. -/
theorem lineRequests_line {seg : List UInt8} (h : 10 ∉ seg) (hlarge : lineRequest seg ≠ .tooLarge)
    (rest : List UInt8) :
    lineRequests (seg ++ 10 :: rest) = lineRequest seg :: lineRequests rest := by
  rw [lineRequests, linesFrom_append h, List.nil_append, linesFrom, if_pos rfl, if_neg hlarge,
    lineRequests]

/-- The requests of a stream begin with those of its complete lines; behind them
stands what its last line becomes, unless a line is too large. -/
theorem streamFrom_lines (seg bs : List UInt8) :
    (∀ rest, streamFrom seg (bs ++ rest) = linesFrom seg bs) ∨
      ∃ tail, ∀ rest, streamFrom seg (bs ++ rest) = linesFrom seg bs ++ streamFrom tail rest := by
  induction bs generalizing seg with
  | nil => exact .inr ⟨seg, fun _ => rfl⟩
  | cons b bs ih =>
    simp only [List.cons_append, streamFrom, linesFrom]
    by_cases hb : b = 10
    · simp only [if_pos hb]
      by_cases hlarge : lineRequest seg = .tooLarge
      · exact .inl fun _ => by rw [if_pos hlarge, if_pos hlarge]
      · simp only [if_neg hlarge, List.cons_append, List.cons.injEq, true_and]
        exact ih []
    · simp only [if_neg hb]
      exact ih (seg ++ [b])

/-- A newline completes a line. -/
theorem streamFrom_newline (seg : List UInt8) : streamFrom seg [10] = [lineRequest seg] := by
  rw [streamFrom, if_pos rfl]
  split
  · next hlarge => rw [hlarge]
  · rfl

/-- What was served of a stream are the requests of its complete lines, when what
is left is a line that is not complete. -/
theorem eq_lineRequests {stream left : List UInt8} {served : List KsRequest}
    (h : ∀ rest, requestStream (stream ++ rest) = served ++ requestStream (left ++ rest))
    (hleft : 10 ∉ left) (hroom : left.length < ksInputCap) : served = lineRequests stream := by
  have hline : requestStream (left ++ [10]) = [lineRequest left] := by
    rw [requestStream, streamFrom_append hleft, List.nil_append, streamFrom_newline]
  have hnewline := h [10]
  rw [hline] at hnewline
  rcases streamFrom_lines [] stream with hall | ⟨tail, htail⟩
  · -- then the sequence would go on behind its end
    have hend := h []
    rw [requestStream, hall, List.append_nil, requestStream_tail hleft] at hend
    rw [requestStream, hall, hend, List.append_cancel_left_eq, tailRequests] at hnewline
    split at hnewline
    · cases hnewline
    · rw [if_neg (by omega)] at hnewline
      exact absurd (List.cons.inj hnewline).1.symm (lineRequest_ne_incomplete left)
  · rw [requestStream, htail, streamFrom_newline] at hnewline
    exact (List.append_inj' hnewline rfl).1.symm

/-! ## the requests of a connection -/

/-- The bytes that `ks_recv` returned. -/
def receivedBytes (history : List KsEvent) : List UInt8 :=
  history.flatMap fun
    | .received data => data
    | _ => []

/-- The requests that were served. -/
def requestsOf (history : List KsEvent) : List KsRequest :=
  history.filterMap fun
    | .request r => some r
    | _ => none

/-- Does the event leave the byte stream alone? -/
def KsEvent.unframed : KsEvent → Bool
  | .received _ => false
  | .eof => false
  | .request _ => false
  | .discarded _ => false
  | _ => true

@[simp] theorem receivedBytes_append (h h' : List KsEvent) :
    receivedBytes (h ++ h') = receivedBytes h ++ receivedBytes h' :=
  List.flatMap_append ..

@[simp] theorem requestsOf_append (h h' : List KsEvent) :
    requestsOf (h ++ h') = requestsOf h ++ requestsOf h' :=
  List.filterMap_append ..

/-- Events that are no framing receive nothing. -/
theorem receivedBytes_unframed {events : List KsEvent} (h : ∀ e ∈ events, e.unframed = true) :
    receivedBytes events = [] := by
  rw [receivedBytes, List.flatMap_eq_nil_iff]
  intro e he
  have hframe := h e he
  cases e <;> first | rfl | cases hframe

/-- Nor do they make a request. -/
theorem requestsOf_unframed {events : List KsEvent} (h : ∀ e ∈ events, e.unframed = true) :
    requestsOf events = [] := by
  rw [requestsOf, List.filterMap_eq_nil_iff]
  intro e he
  have hframe := h e he
  cases e <;> first | rfl | cases hframe

/-- A history that has served every request of its stream: no stream that the
client may have sent has any other. -/
def Finished (history : List KsEvent) : Prop :=
  ∀ rest, (.eof ∈ history → rest = []) →
    requestStream (receivedBytes history ++ rest) = requestsOf history

/-- The bytes of the input buffer from an offset on. -/
def KsClient.inputFrom (c : KsClient) (offset : Nat) : List UInt8 :=
  c.input.read offset (c.inputLen - offset)

/-- The requests served so far and those of the bytes from `offset` on are the
requests of the stream. -/
def KsClient.FramedFrom (c : KsClient) (offset : Nat) : Prop :=
  .eof ∉ c.history ∧ ∀ rest, requestStream (receivedBytes c.history ++ rest) =
    requestsOf c.history ++ requestStream (c.inputFrom offset ++ rest)

/-- The input buffer of a connection holds what has to be served next. -/
structure KsClient.Framed (c : KsClient) : Prop where
  reading : c.closeAfterWrite = false → c.FramedFrom 0
  closing : c.closeAfterWrite = true → c.inputLen = 0 ∧ Finished c.history
  discarded : ∀ data, .discarded data ∈ c.history → 10 ∉ data

/-- The requests served so far are a front of those of the stream. -/
theorem KsClient.Framed.served {c : KsClient} (h : c.Framed) (rest : List UInt8)
    (heof : .eof ∈ c.history → rest = []) :
    requestsOf c.history <+: requestStream (receivedBytes c.history ++ rest) := by
  cases hclosing : c.closeAfterWrite with
  | true => rw [(h.closing hclosing).2 rest heof]
  | false =>
    rw [(h.reading hclosing).2 rest]
    exact List.prefix_append _ _

/-- Events of the output change nothing. -/
theorem Finished.append {history events : List KsEvent} (h : Finished history)
    (he : ∀ e ∈ events, e.unframed = true) : Finished (history ++ events) := by
  have heof : .eof ∉ events := fun hmem => by simpa [KsEvent.unframed] using he _ hmem
  intro rest hrest
  rw [receivedBytes_append, requestsOf_append, receivedBytes_unframed he, requestsOf_unframed he,
    List.append_nil, List.append_nil]
  exact h rest fun hmem => hrest (List.mem_append_left _ hmem)

/-- Events that are no framing leave the framing as it is. -/
theorem KsClient.FramedFrom.append {c c' : KsClient} {offset : Nat} (h : c.FramedFrom offset)
    {events : List KsEvent} (hhist : c'.history = c.history ++ events)
    (he : ∀ e ∈ events, e.unframed = true)
    (hinput : c'.inputFrom offset = c.inputFrom offset) : c'.FramedFrom offset := by
  have heof : .eof ∉ events := fun hmem => by simpa [KsEvent.unframed] using he _ hmem
  refine ⟨?_, fun rest => ?_⟩
  · rw [hhist, List.mem_append, not_or]
    exact ⟨h.1, heof⟩
  · rw [hhist, receivedBytes_append, requestsOf_append, receivedBytes_unframed he,
      requestsOf_unframed he, List.append_nil, List.append_nil, hinput]
    exact h.2 rest

/-- Only what lies behind the offset matters. -/
theorem KsClient.FramedFrom.of_eq {c c' : KsClient} {offset offset' : Nat}
    (h : c.FramedFrom offset) (hhist : c'.history = c.history)
    (hinput : c'.inputFrom offset' = c.inputFrom offset) : c'.FramedFrom offset' := by
  rw [FramedFrom, hhist, hinput]
  exact h

/-- The same, for the whole input. -/
theorem KsClient.Framed.append {c c' : KsClient} (h : c.Framed) {events : List KsEvent}
    (hhist : c'.history = c.history ++ events) (he : ∀ e ∈ events, e.unframed = true)
    (hclosing : c'.closeAfterWrite = c.closeAfterWrite) (hinput : c'.input = c.input)
    (hlen : c'.inputLen = c.inputLen) : c'.Framed where
  reading := by
    rw [hclosing]
    intro hopen
    exact (h.reading hopen).append hhist he (by rw [inputFrom, inputFrom, hinput, hlen])
  closing := by
    rw [hclosing, hlen, hhist]
    intro hopen
    exact ⟨(h.closing hopen).1, (h.closing hopen).2.append he⟩
  discarded := by
    intro data hmem
    rw [hhist, List.mem_append] at hmem
    rcases hmem with hmem | hmem
    · exact h.discarded data hmem
    · simpa [KsEvent.unframed] using he _ hmem

/-! ## one line more -/

/-- The next line of the input, up to its newline. -/
structure LineAt (c : KsClient) (line newline : Nat) : Prop where
  le : line ≤ newline
  lt : newline < c.inputLen
  ends : c.input newline = 10
  first : 10 ∉ c.input.read line (newline - line)

/-- The input from a line on is the line, its line feed and the rest. -/
theorem LineAt.inputFrom_eq {c : KsClient} {line newline : Nat} (h : LineAt c line newline) :
    c.inputFrom line =
      c.input.read line (newline - line) ++ 10 :: c.inputFrom (newline + 1) := by
  obtain ⟨hle, hlt, hends, -⟩ := h
  have hsplit : newline - line ≤ c.inputLen - line := by omega
  have hrest : c.inputLen - line - (newline - line) = c.inputLen - (newline + 1) + 1 := by omega
  rw [KsClient.inputFrom, Mem.read_split _ hsplit, Nat.add_sub_cancel' hle, hrest, Mem.read_succ,
    hends, KsClient.inputFrom]

/-- Only the bytes of the input matter. -/
theorem inputFrom_congr {c c' : KsClient} {offset : Nat} (hlen : c'.inputLen = c.inputLen)
    (h : ∀ k, offset ≤ k → k < c.inputLen → c'.input k = c.input k) :
    c'.inputFrom offset = c.inputFrom offset := by
  rw [KsClient.inputFrom, KsClient.inputFrom, hlen]
  exact Mem.read_congr fun k hk => h _ (by omega) (by omega)

/-- What a history says about the stream when one more request is served. -/
theorem requestsOf_served (history : List KsEvent) (request : KsRequest) {events : List KsEvent}
    (he : ∀ e ∈ events, e.unframed = true) :
    receivedBytes (history ++ .request request :: events) = receivedBytes history ∧
      requestsOf (history ++ .request request :: events) = requestsOf history ++ [request] := by
  have hreceived := receivedBytes_unframed he
  have hrequests := requestsOf_unframed he
  rw [List.append_cons, receivedBytes_append, receivedBytes_append, requestsOf_append,
    requestsOf_append, hreceived, hrequests]
  simp [receivedBytes, requestsOf]

/-- Serving a request does not end the input. -/
theorem eof_not_mem_served {history events : List KsEvent} (h : .eof ∉ history)
    (request : KsRequest) (he : ∀ e ∈ events, e.unframed = true) :
    .eof ∉ history ++ .request request :: events := by
  have heof : .eof ∉ events := fun hmem => by simpa [KsEvent.unframed] using he _ hmem
  simp [h, heof]

/-- A line that has been served and does not end the sequence. -/
theorem KsClient.FramedFrom.line {c c' : KsClient} {line newline : Nat} (h : c.FramedFrom line)
    (hat : LineAt c line newline)
    (hrequest : lineRequest (c.input.read line (newline - line)) ≠ .tooLarge)
    {events : List KsEvent}
    (hhist : c'.history =
      c.history ++ .request (lineRequest (c.input.read line (newline - line))) :: events)
    (he : ∀ e ∈ events, e.unframed = true)
    (hinput : c'.inputFrom (newline + 1) = c.inputFrom (newline + 1)) :
    c'.FramedFrom (newline + 1) := by
  obtain ⟨hreceived, hrequests⟩ :=
    requestsOf_served c.history (lineRequest (c.input.read line (newline - line))) he
  rw [← hhist] at hreceived hrequests
  refine ⟨?_, fun rest => ?_⟩
  · rw [hhist]
    exact eof_not_mem_served h.1 _ he
  · rw [hreceived, hrequests, h.2 rest, hat.inputFrom_eq, List.append_assoc, List.cons_append,
      requestStream_line hat.first, if_neg hrequest, hinput, List.append_assoc]
    rfl

/-- A line that is too large ends the sequence. -/
theorem KsClient.FramedFrom.tooLarge {c c' : KsClient} {line newline : Nat} (h : c.FramedFrom line)
    (hat : LineAt c line newline)
    (hrequest : lineRequest (c.input.read line (newline - line)) = .tooLarge)
    {events : List KsEvent} (hhist : c'.history = c.history ++ .request .tooLarge :: events)
    (he : ∀ e ∈ events, e.unframed = true) : Finished c'.history := by
  obtain ⟨hreceived, hrequests⟩ := requestsOf_served c.history .tooLarge he
  rw [← hhist] at hreceived hrequests
  intro rest _
  rw [hreceived, hrequests, h.2 rest, hat.inputFrom_eq, List.append_assoc, List.cons_append,
    requestStream_line hat.first, if_pos hrequest]

/-! ## bytes, and the end of them -/

/-- The input is as long as the counter says. -/
theorem KsClient.length_inputFrom_zero (c : KsClient) : (c.inputFrom 0).length = c.inputLen := by
  simp [inputFrom]

/-- Bytes that arrive go behind those that are there. -/
theorem KsClient.Framed.received {c c' : KsClient} (h : c.Framed) (hopen : c.closeAfterWrite = false)
    {data : List UInt8} (hhist : c'.history = c.history ++ [.received data])
    (hclosing : c'.closeAfterWrite = false) (hinput : c'.inputFrom 0 = c.inputFrom 0 ++ data) :
    c'.Framed where
  reading := by
    intro _
    obtain ⟨heof, hstream⟩ := h.reading hopen
    refine ⟨by simp [hhist, heof], fun rest => ?_⟩
    have hdata : receivedBytes [.received data] = data := by simp [receivedBytes]
    have hnone : requestsOf [.received data] = [] := rfl
    rw [hhist, receivedBytes_append, requestsOf_append, hdata, hnone, List.append_nil,
      List.append_assoc, hstream (data ++ rest), hinput, List.append_assoc]
  closing := by simp [hclosing]
  discarded := by
    intro data' hmem
    rw [hhist] at hmem
    exact h.discarded data' (by simpa using hmem)

/-- The end of the input, when nothing is left to serve in the bytes thrown away. -/
theorem KsClient.Framed.finish {c c' : KsClient} (h : c.Framed) (hline : 10 ∉ c.inputFrom 0)
    {events : List KsEvent}
    (hhist : c'.history = c.history ++ events ++ [.discarded (c.inputFrom 0)])
    (hevents : ∀ data, .discarded data ∉ events) (hclosing : c'.closeAfterWrite = true)
    (hlen : c'.inputLen = 0)
    (hend : ∀ rest, (.eof ∈ events → rest = []) →
      requestStream (receivedBytes c.history ++ receivedBytes events ++ rest) =
        requestsOf c.history ++ requestsOf events) : c'.Framed where
  reading := by simp [hclosing]
  closing := by
    intro _
    refine ⟨hlen, fun rest hrest => ?_⟩
    have hnone : receivedBytes [.discarded (c.inputFrom 0)] = [] := rfl
    have hnone' : requestsOf [.discarded (c.inputFrom 0)] = [] := rfl
    rw [hhist, receivedBytes_append, receivedBytes_append, requestsOf_append, requestsOf_append,
      hnone, hnone', List.append_nil, List.append_nil]
    exact hend rest fun hmem => hrest (by simp [hhist, hmem])
  discarded := by
    intro data hmem
    rw [hhist] at hmem
    simp only [List.mem_append, List.mem_singleton] at hmem
    rcases hmem with (hmem | hmem) | hmem
    · exact h.discarded data hmem
    · exact absurd hmem (hevents data)
    · rw [KsEvent.discarded.inj hmem]
      exact hline

/-- A full buffer without a line ends the sequence. -/
theorem KsClient.Framed.full {c c' : KsClient} (h : c.Framed) (hopen : c.closeAfterWrite = false)
    (hline : 10 ∉ c.inputFrom 0) (hfull : c.inputLen = ksInputCap) {f : List UInt8}
    (hhist : c'.history =
      c.history ++ [.request .tooLarge, .queued f] ++ [.discarded (c.inputFrom 0)])
    (hclosing : c'.closeAfterWrite = true) (hlen : c'.inputLen = 0) : c'.Framed := by
  have hstream := (h.reading hopen).2
  refine h.finish hline hhist (by simp) hclosing hlen fun rest _ => ?_
  have hcap : ksInputCap ≤ (c.inputFrom 0).length := by rw [c.length_inputFrom_zero, hfull]
  have hnone : receivedBytes [.request .tooLarge, .queued f] = [] := rfl
  rw [hnone, List.append_nil, hstream rest, requestStream_full hline hcap]
  rfl

/-- A stream that ends. -/
theorem KsClient.Framed.eof {c c' : KsClient} (h : c.Framed) (hopen : c.closeAfterWrite = false)
    (hline : 10 ∉ c.inputFrom 0) (hroom : c.inputLen < ksInputCap) {f : List UInt8}
    (hhist : c'.history = c.history ++
      (.eof :: if c.inputLen ≠ 0 then [.request .incomplete, .queued f] else []) ++
        [.discarded (c.inputFrom 0)])
    (hclosing : c'.closeAfterWrite = true) (hlen : c'.inputLen = 0) : c'.Framed := by
  have hstream := (h.reading hopen).2
  have hlength := c.length_inputFrom_zero
  refine h.finish hline hhist (by split <;> simp) hclosing hlen fun rest hrest => ?_
  obtain rfl := hrest (by simp)
  by_cases hempty : c.inputLen = 0
  · have hnil : c.inputFrom 0 = [] := List.eq_nil_of_length_eq_zero (by omega)
    have hend := hstream []
    rw [hnil, List.append_nil] at hend
    simpa [hempty, receivedBytes, requestsOf] using hend
  · have hne : c.inputFrom 0 ≠ [] := by
      intro hnil
      rw [hnil] at hlength
      exact hempty hlength.symm
    have hend := hstream []
    rw [List.append_nil, List.append_nil, requestStream_tail hline, tailRequests, if_neg hne,
      if_neg (by omega)] at hend
    simpa [hempty, receivedBytes, requestsOf] using hend

/-- A connection whose input is open has not come to the end of its sequence. -/
theorem KsClient.FramedFrom.not_ended {c : KsClient} {offset : Nat} (h : c.FramedFrom offset)
    {request : KsRequest} (hend : request = .tooLarge ∨ request = .incomplete) :
    request ∉ requestsOf c.history := by
  intro hmem
  obtain ⟨before, after, heq⟩ := List.append_of_mem hmem
  have hstream := h.2 [10]
  rw [heq, List.append_assoc, List.cons_append] at hstream
  have hnil := streamFrom_ends hstream hend
  exact streamFrom_snoc_ne_nil [] (c.inputFrom offset) (List.append_eq_nil_iff.mp hnil).2

/-- A free slot has received nothing. -/
theorem framed_free : KsClient.free.Framed where
  reading := fun _ => ⟨by simp [KsClient.free], fun rest => rfl⟩
  closing := by simp [KsClient.free]
  discarded := by simp [KsClient.free]

end Kessel
