import Kessel.Framing
import Kessel.Server.Step

/-!
# Kessel.Server.Requests

`process_requests`.

`processLoop_cases` is one turn of its loop: it stops, or it serves the next
line of the input exactly as `lineRequest` says, and nothing but the issuer's
own line is touched.  What the whole loop does follows by induction on it.
-/

namespace Kessel

open CStr (ascii)
open Relation (ReflTransGen)
open Mem (AgreeOutside)

variable {cfg : KsConfig} {i : Fin cfg.maxClients} {s s' : KsServer cfg}

/-! ## one line -/

/-- A carriage return in front of the line feed is no content. -/
theorem contentLength_read (m : Mem) (p n : Nat) :
    contentLength (m.read p n) = if n > 0 ∧ m (p + n - 1) = 13 then n - 1 else n := by
  cases n with
  | zero => simp [contentLength]
  | succ n =>
    have hlast : (m.read p (n + 1)).getLast? = some (m (p + n)) := by
      rw [Mem.read_add, Mem.read_succ, Mem.read_zero, List.getLast?_concat]
    simp [contentLength, hlast, Nat.add_sub_assoc]

/-- The line of the input that ends in a newline has been served as `request`. -/
structure LineDone (i : Fin cfg.maxClients) (request : KsRequest) (stop : Nat)
    (s s' : KsServer cfg) : Prop where
  acts : ReflTransGen (KsAct i) s s'
  closing : (s'.clients i).closeAfterWrite =
    (decide (request = .tooLarge) || (s.clients i).closeAfterWrite)
  inputLen : (s'.clients i).inputLen = (s.clients i).inputLen
  agree : ∀ k, stop ≤ k → k < (s.clients i).inputLen →
    (s'.clients i).input k = (s.clients i).input k
  history : ∃ events, (s'.clients i).history = (s.clients i).history ++ .request request :: events ∧
    ∀ e ∈ events, ∃ data, e = .queued data

/-- An answer that is not a command's. -/
theorem lineDone_answer (h : s.Ok) (hused : (s.clients i).used = true)
    (hp : (s.clients i).pendingLen < ksOutputHighWater) (request : KsRequest)
    (hr : request ≠ .tooLarge) {message : List UInt8} (hm : message = request.message)
    (stop : Nat) :
    (queueError ((s.clients i).log (.request request)) message).2 = 0 ∧
      LineDone i request stop s
        (s.setClient i (queueError ((s.clients i).log (.request request)) message).1) := by
  have hact : KsAct i s
      (s.setClient i (queueError ((s.clients i).log (.request request)) message).1) :=
    .answer s request message hused hp hm
  obtain ⟨c', hqueue, -, hqueued⟩ := answer_spec (h.clients i) hp hm
  rw [hqueue] at hact ⊢
  refine ⟨rfl, .single hact, ?_, ?_, ?_, ?_⟩
  · simpa [hr] using hqueued.same.closeAfterWrite
  · simpa using hqueued.same.inputLen
  · intro k _ _
    simpa using congrFun hqueued.same.input k
  · refine ⟨[.queued (errorFrame message)], ?_, by simp⟩
    simp [hqueued.history]

/-- A line that is too large: an answer, and the end of the input. -/
theorem lineDone_tooLarge (h : s.Ok) (hused : (s.clients i).used = true)
    (hp : (s.clients i).pendingLen < ksOutputHighWater) {message : List UInt8}
    (hm : message = KsRequest.message .tooLarge) (stop : Nat) :
    (queueError ((s.clients i).log (.request .tooLarge)) message).2 = 0 ∧
      LineDone i .tooLarge stop s (s.setClient i
        { (queueError ((s.clients i).log (.request .tooLarge)) message).1 with
          closeAfterWrite := true }) := by
  have hact : KsAct i s
      (s.setClient i (queueError ((s.clients i).log (.request .tooLarge)) message).1) :=
    .answer s .tooLarge message hused hp hm
  obtain ⟨c', hqueue, hok, hqueued⟩ := answer_spec (h.clients i) hp hm
  rw [hqueue] at hact ⊢
  have hclose : KsAct i (s.setClient i c') (s.setClient i { c' with closeAfterWrite := true }) := by
    have hpassive : KsClient.Passive c' { c' with closeAfterWrite := true } :=
      ⟨rfl, rfl, rfl, rfl, rfl, rfl, rfl, hok.inputLen_le, [], by simp, by simp⟩
    have hact' : KsAct i (s.setClient i c')
        ((s.setClient i c').setClient i { c' with closeAfterWrite := true }) :=
      .passive _ _ (by simpa [hused] using hqueued.same.used) (by simpa using hpassive)
    rwa [setClient_setClient] at hact'
  refine ⟨rfl, (ReflTransGen.single hact).tail hclose, by simp, ?_, ?_, ?_⟩
  · simpa using hqueued.same.inputLen
  · intro k _ _
    simpa using congrFun hqueued.same.input k
  · refine ⟨[.queued (errorFrame message)], ?_, by simp⟩
    simp [hqueued.history]

/-- The bytes of a dispatched line, as `handle_command` finds them. -/
theorem isStr_line {m : Mem} {line newline : Nat} (hle : line ≤ newline)
    (hnul : ∀ k, line ≤ k → k ≤ newline → m k ≠ 0) :
    (m.set (newline + 1) 0).IsStr line (newline + 1 - line) := by
  constructor
  · intro k hk
    rw [Mem.set_of_ne _ _ (by omega)]
    exact hnul _ (by omega) (by omega)
  · rw [Nat.add_sub_cancel' (by omega), Mem.set_same]

/-- The line that is parsed has its line feed. -/
theorem read_line {m : Mem} {line newline : Nat} (hle : line ≤ newline) (hten : m newline = 10) :
    (m.set (newline + 1) 0).read line (newline + 1 - line) =
      m.read line (newline - line) ++ [10] := by
  rw [Mem.read_set_of_notin _ _ (by omega), show newline + 1 - line = newline - line + 1 by omega,
    Mem.read_add, Nat.add_sub_cancel' hle, Mem.read_succ, hten, Mem.read_zero]

/-- The server with a NUL behind the line of a client. -/
def markLine (s : KsServer cfg) (i : Fin cfg.maxClients) (stop : Nat) : KsServer cfg :=
  s.setClient i { s.clients i with input := (s.clients i).input.set stop 0 }

/-- A line that is passed to `handle_command`: it gets exactly its bytes, and
the byte behind it comes back. -/
theorem lineDone_command (h : s.Ok) (hused : (s.clients i).used = true)
    (hp : (s.clients i).pendingLen < ksOutputHighWater) {line newline : Nat} (hle : line ≤ newline)
    (hin : newline < (s.clients i).inputLen) (hten : (s.clients i).input newline = 10)
    (hnul : ∀ k, line ≤ k → k ≤ newline → (s.clients i).input k ≠ 0) {env : KsCommandEnv}
    {r : KsServer cfg × Int}
    (hr : handleCommand (markLine s i (newline + 1)) i line env = r) :
    r.2 = 0 ∧
      LineDone i (.command ((s.clients i).input.read line (newline - line) ++ [10])) (newline + 1) s
        (if newline + 1 < (s.clients i).inputLen then
          r.1.setClient i { r.1.clients i with
            input := (r.1.clients i).input.set (newline + 1) ((s.clients i).input (newline + 1)) }
        else r.1) := by
  have hcap := (h.clients i).inputLen_le
  -- the NUL behind the line
  have hmark : KsAct i s (markLine s i (newline + 1)) :=
    .passive s _ hused ⟨rfl, rfl, rfl, rfl, rfl, rfl, rfl, hcap, [], by simp, by simp⟩
  have hok₁ := (acted_of_act h hmark).ok
  have hc₁ : (markLine s i (newline + 1)).clients i =
      { s.clients i with input := (s.clients i).input.set (newline + 1) 0 } := by simp [markLine]
  generalize markLine s i (newline + 1) = s₁ at *
  have hused₁ : (s₁.clients i).used = true := by rw [hc₁]; exact hused
  have hp₁ : (s₁.clients i).pendingLen < ksOutputHighWater := by rw [hc₁]; exact hp
  have hcommand := handleCommand_spec hok₁ hp₁ line env
  rw [hr] at hcommand
  have hact₂ : KsAct i s₁ r.1 := by
    rw [← hr]
    exact .command s₁ line env hused₁ hp₁
  have hstr : (s₁.clients i).input.IsStr line (newline + 1 - line) := by
    rw [hc₁]
    exact isStr_line hle hnul
  have htext : requestText (s₁.clients i).input line =
      (s.clients i).input.read line (newline - line) ++ [10] := by
    rw [requestText, Mem.cstr_bytes hstr (by omega), hc₁]
    exact read_line hle hten
  have hagree : AgreeOutside line (newline + 1) (s₁.clients i).input (r.1.clients i).input := by
    have hparse := ksParseLine_agree hstr
    rw [Nat.add_sub_cancel' (by omega)] at hparse
    rw [hcommand.same.input]
    exact hparse
  have hinput₁ : (s₁.clients i).input = (s.clients i).input.set (newline + 1) 0 := by rw [hc₁]
  have hlen : (r.1.clients i).inputLen = (s.clients i).inputLen := by
    rw [hcommand.same.inputLen, KsClient.parse, hc₁]
    rfl
  have hclosing : (r.1.clients i).closeAfterWrite = (s.clients i).closeAfterWrite := by
    rw [hcommand.same.closeAfterWrite, KsClient.parse, hc₁]
    rfl
  have hhist := hcommand.history
  rw [htext, hc₁] at hhist
  refine ⟨hcommand.result, ?_⟩
  split
  · next hmore =>
    -- the saved byte
    have hrestore : KsAct i r.1 (r.1.setClient i { r.1.clients i with
        input := (r.1.clients i).input.set (newline + 1) ((s.clients i).input (newline + 1)) }) :=
      .passive _ _ (by rw [hcommand.same.used]; exact hused₁)
        ⟨rfl, rfl, rfl, rfl, rfl, rfl, rfl, by rw [hlen]; exact hcap, [], by simp, by simp⟩
    refine ⟨((ReflTransGen.single hmark).tail hact₂).tail hrestore, by simpa using hclosing,
      by simpa using hlen, ?_, by simpa using hhist⟩
    intro k hk _
    simp only [setClient_clients, Function.update_self]
    by_cases heq : k = newline + 1
    · rw [heq, Mem.set_same]
    · rw [Mem.set_of_ne _ _ heq, hagree k (by omega), hinput₁, Mem.set_of_ne _ _ heq]
  · next hlast =>
    refine ⟨(ReflTransGen.single hmark).tail hact₂, by simpa using hclosing, hlen, ?_, hhist⟩
    intro k hk hkin
    omega

/-! ## one turn of the loop -/

/-- **One turn of the loop of `process_requests`.**  It stops, because there is
no line to serve or no room for its answer, or it serves the next line. -/
theorem processLoop_cases (h : s.Ok) (hused : (s.clients i).used = true)
    (env : Nat → KsCommandEnv) (fuel consumed : Nat) :
    (processLoop i env (fuel + 1) s consumed = (s, consumed, 0) ∧
      (ksOutputHighWater ≤ (s.clients i).pendingLen ∨ 10 ∉ (s.clients i).inputFrom consumed)) ∨
    ∃ newline s', LineAt (s.clients i) consumed newline ∧
      LineDone i (lineRequest ((s.clients i).input.read consumed (newline - consumed)))
        (newline + 1) s s' ∧
      processLoop i env (fuel + 1) s consumed =
        if lineRequest ((s.clients i).input.read consumed (newline - consumed)) = .tooLarge then
          (s', (s.clients i).inputLen, 0)
        else processLoop i env fuel s' (newline + 1) := by
  rw [processLoop]
  simp only
  by_cases hmore : consumed < (s.clients i).inputLen
  case neg =>
    have hempty : (s.clients i).inputLen - consumed = 0 := by omega
    exact .inl ⟨by rw [if_pos hmore], .inr (by simp [KsClient.inputFrom, hempty])⟩
  rw [if_neg (not_not_intro hmore)]
  by_cases hp : (s.clients i).pendingLen < ksOutputHighWater
  case neg =>
    rw [if_pos (by omega)]
    exact .inl ⟨rfl, .inl (by omega)⟩
  rw [if_neg (by omega)]
  cases hchr : (s.clients i).input.memchr consumed ((s.clients i).inputLen - consumed) 10 with
  | none => exact .inl ⟨rfl, .inr (Mem.memchr_eq_none.mp hchr)⟩
  | some newline =>
    obtain ⟨hle, hlt, hten, hfirst⟩ := Mem.memchr_eq_some hchr
    have hin : newline < (s.clients i).inputLen := by omega
    have hlen : newline + 1 - consumed = newline - consumed + 1 := by omega
    have hcontent : (if newline + 1 - consumed - 1 > 0 ∧ (s.clients i).input (newline + 1 - 2) = 13
        then newline + 1 - consumed - 2 else newline + 1 - consumed - 1) =
        contentLength ((s.clients i).input.read consumed (newline - consumed)) := by
      rw [contentLength_read, hlen, Nat.add_sub_cancel' hle]
      simp
    have hline : (s.clients i).input.read consumed (newline + 1 - consumed) =
        (s.clients i).input.read consumed (newline - consumed) ++ [10] := by
      rw [hlen, Mem.read_add, Nat.add_sub_cancel' hle, Mem.read_succ, hten, Mem.read_zero]
    refine .inr ⟨newline, ?_⟩
    simp only [hcontent]
    by_cases hlarge : contentLength ((s.clients i).input.read consumed (newline - consumed)) >
        ksMaxRequest
    · have hrequest : lineRequest ((s.clients i).input.read consumed (newline - consumed)) =
          .tooLarge := by rw [lineRequest, if_pos hlarge]
      have hm : ascii "request too large" = KsRequest.message .tooLarge := rfl
      obtain ⟨hresult, hdone⟩ := lineDone_tooLarge h hused hp hm (newline + 1)
      have hkept := hdone.inputLen
      generalize hq : queueError ((s.clients i).log (.request .tooLarge))
        (ascii "request too large") = q at *
      simp only [setClient_clients, Function.update_self] at hkept
      refine ⟨_, ⟨hle, hin, hten, hfirst⟩, by rw [hrequest]; exact hdone, ?_⟩
      rw [if_pos hlarge, if_pos hrequest, if_neg (by simpa using hresult)]
      exact Prod.ext rfl (Prod.ext hkept rfl)
    · rw [if_neg hlarge]
      by_cases hnul : 0 ∈ (s.clients i).input.read consumed (newline - consumed)
      · have hrequest : lineRequest ((s.clients i).input.read consumed (newline - consumed)) =
            .rejected := by rw [lineRequest, if_neg hlarge, if_pos hnul]
        have hsome : ((s.clients i).input.memchr consumed (newline + 1 - consumed) 0).isSome := by
          rw [Option.isSome_iff_ne_none, Ne, Mem.memchr_eq_none, hline]
          simp [hnul]
        have hm : ascii "invalid command" = KsRequest.message .rejected := rfl
        obtain ⟨hresult, hdone⟩ := lineDone_answer h hused hp .rejected (by simp) hm (newline + 1)
        refine ⟨_, ⟨hle, hin, hten, hfirst⟩, by rw [hrequest]; exact hdone, ?_⟩
        rw [if_pos hsome, if_neg (by simpa using hresult), if_neg (by rw [hrequest]; simp)]
      · have hrequest : lineRequest ((s.clients i).input.read consumed (newline - consumed)) =
            .command ((s.clients i).input.read consumed (newline - consumed) ++ [10]) := by
          rw [lineRequest, if_neg hlarge, if_neg hnul]
        have hnone : (s.clients i).input.memchr consumed (newline + 1 - consumed) 0 = none := by
          rw [Mem.memchr_eq_none, hline]
          simp [hnul]
        have hnul' (k : Nat) (hk : consumed ≤ k) (hk' : k ≤ newline) :
            (s.clients i).input k ≠ 0 := by
          intro hzero
          have hmem := Mem.memchr_eq_none.mp hnone
          rw [Mem.mem_read] at hmem
          exact hmem ⟨k - consumed, by omega, by rw [Nat.add_sub_cancel' hk, hzero]⟩
        obtain ⟨hresult, hdone⟩ := lineDone_command h hused hp hle hin hten hnul'
          (Eq.refl (handleCommand (markLine s i (newline + 1)) i consumed (env consumed)))
        refine ⟨_, ⟨hle, hin, hten, hfirst⟩, by rw [hrequest]; exact hdone, ?_⟩
        have hlast : ¬ lineRequest ((s.clients i).input.read consumed (newline - consumed)) =
            .tooLarge := by rw [hrequest]; simp
        rw [if_neg hlast, if_neg (by simp [hnone])]
        exact if_neg (not_not_intro hresult)

/-! ## the loop -/

/-- What a line does is a sequence of acts. -/
theorem LineDone.ok {request : KsRequest} {stop : Nat} (h : s.Ok)
    (hdone : LineDone i request stop s s') : Acted i s s' := acted_of_acts h hdone.acts

/-- The events of an answer say nothing about the stream. -/
theorem unframed_of_queued {events : List KsEvent} (h : ∀ e ∈ events, ∃ data, e = .queued data) :
    ∀ e ∈ events, e.unframed = true := by
  intro e he
  obtain ⟨data, rfl⟩ := h e he
  rfl

/-- What the loop of `process_requests` leaves: it stops with the input open,
and then there is no line to serve or no room for an answer, or with the end of
the sequence. -/
def LoopExit (c : KsClient) (consumed : Nat) : Prop :=
  (c.closeAfterWrite = false ∧ c.FramedFrom consumed ∧
    (ksOutputHighWater ≤ c.pendingLen ∨ 10 ∉ c.inputFrom consumed)) ∨
  (c.closeAfterWrite = true ∧ consumed = c.inputLen ∧ Finished c.history)

/-- The loop of `process_requests`, from an offset. -/
structure LoopDone (i : Fin cfg.maxClients) (consumed : Nat) (s : KsServer cfg)
    (r : KsServer cfg × Nat × Int) : Prop where
  result : r.2.2 = 0
  acts : ReflTransGen (KsAct i) s r.1
  inputLen : (r.1.clients i).inputLen = (s.clients i).inputLen
  le : consumed ≤ r.2.1
  le_inputLen : r.2.1 ≤ (s.clients i).inputLen
  same : r.2.1 = consumed → r.1 = s
  discarded : ∀ data, .discarded data ∈ (r.1.clients i).history →
    .discarded data ∈ (s.clients i).history
  exit : (s.clients i).closeAfterWrite = false → (s.clients i).FramedFrom consumed →
    LoopExit (r.1.clients i) r.2.1

/-- A loop that stops at once. -/
theorem loopDone_stop {consumed : Nat} (hle : consumed ≤ (s.clients i).inputLen)
    (hexit : ksOutputHighWater ≤ (s.clients i).pendingLen ∨ 10 ∉ (s.clients i).inputFrom consumed) :
    LoopDone i consumed s (s, consumed, 0) where
  result := rfl
  acts := .refl
  inputLen := rfl
  le := le_refl _
  le_inputLen := hle
  same := fun _ => rfl
  discarded := fun _ => id
  exit := fun hopen hframed => .inl ⟨hopen, hframed, hexit⟩

/-- Serving a line discards nothing. -/
theorem LineDone.discarded {request : KsRequest} {stop : Nat} (hdone : LineDone i request stop s s')
    {data : List UInt8} (h : .discarded data ∈ (s'.clients i).history) :
    .discarded data ∈ (s.clients i).history := by
  obtain ⟨events, hhist, hevents⟩ := hdone.history
  rw [hhist, List.mem_append, List.mem_cons] at h
  rcases h with h | h | h
  · exact h
  · cases h
  · obtain ⟨data', heq⟩ := hevents _ h
    cases heq

/-- **The loop of `process_requests`** serves lines until it stops, and never
fails. -/
theorem processLoop_spec (h : s.Ok) (hused : (s.clients i).used = true)
    (env : Nat → KsCommandEnv) {fuel consumed : Nat} (hle : consumed ≤ (s.clients i).inputLen)
    (hfuel : (s.clients i).inputLen ≤ consumed + fuel) :
    LoopDone i consumed s (processLoop i env fuel s consumed) := by
  induction fuel generalizing s consumed with
  | zero =>
    have hempty : (s.clients i).inputLen - consumed = 0 := by omega
    exact loopDone_stop hle (.inr (by simp [KsClient.inputFrom, hempty]))
  | succ fuel ih =>
    rcases processLoop_cases h hused env fuel consumed with
      ⟨hstop, hexit⟩ | ⟨newline, s', hat, hdone, hnext⟩
    · rw [hstop]
      exact loopDone_stop hle hexit
    rw [hnext]
    have hbefore := hat.le
    have hin := hat.lt
    have hacted := hdone.ok h
    obtain ⟨events, hhist, hevents⟩ := hdone.history
    have hunframed := unframed_of_queued hevents
    by_cases hlarge : lineRequest ((s.clients i).input.read consumed (newline - consumed)) = .tooLarge
    · rw [if_pos hlarge]
      exact
        { result := rfl
          acts := hdone.acts
          inputLen := hdone.inputLen
          le := hle
          le_inputLen := le_refl _
          same := fun heq => by simp only at heq; omega
          discarded := fun data => hdone.discarded
          exit := by
            intro _ hframed
            rw [hlarge] at hhist
            refine .inr ⟨?_, hdone.inputLen.symm, hframed.tooLarge hat hlarge hhist hunframed⟩
            simpa [hlarge] using hdone.closing }
    · rw [if_neg hlarge]
      have hrest := ih hacted.ok (by rw [hacted.used, hused])
        (show newline + 1 ≤ (s'.clients i).inputLen by rw [hdone.inputLen]; omega)
        (by rw [hdone.inputLen]; omega)
      exact
        { result := hrest.result
          acts := hdone.acts.trans hrest.acts
          inputLen := hrest.inputLen.trans hdone.inputLen
          le := by have := hrest.le; omega
          le_inputLen := by rw [← hdone.inputLen]; exact hrest.le_inputLen
          same := fun heq => by have := hrest.le; omega
          discarded := fun data hmem => hdone.discarded (hrest.discarded data hmem)
          exit := by
            intro hopen hframed
            refine hrest.exit (by simpa [hlarge, hopen] using hdone.closing) ?_
            exact hframed.line hat hlarge hhist hunframed
              (inputFrom_congr hdone.inputLen hdone.agree) }

/-! ## `process_requests` -/

/-- What `process_requests` leaves of a connection. -/
structure RequestsDone (i : Fin cfg.maxClients) (s : KsServer cfg) (r : KsServer cfg × Int) : Prop where
  result : r.2 = 0
  acts : ReflTransGen (KsAct i) s r.1
  inputLen : (r.1.clients i).inputLen ≤ (s.clients i).inputLen
  same : (r.1.clients i).inputLen = (s.clients i).inputLen → r.1 = s
  framed : (s.clients i).closeAfterWrite = false → (s.clients i).Framed → (r.1.clients i).Framed
  drained : (s.clients i).closeAfterWrite = false → (s.clients i).Framed →
    (r.1.clients i).closeAfterWrite = false →
    ksOutputHighWater ≤ (r.1.clients i).pendingLen ∨ 10 ∉ (r.1.clients i).inputFrom 0

/-- The bytes that are left move to the front. -/
theorem inputFrom_move (c : KsClient) (consumed : Nat) :
    KsClient.inputFrom { c with
      input := c.input.move 0 consumed (c.inputLen - consumed)
      inputLen := c.inputLen - consumed } 0 = c.inputFrom consumed := by
  simp only [KsClient.inputFrom, Nat.sub_zero]
  exact Mem.read_move _ _ _ _

/-- **`process_requests`** serves the lines of the input, while the output is
below the mark. -/
theorem processRequests_spec (h : s.Ok) (hused : (s.clients i).used = true)
    (env : Nat → KsCommandEnv) : RequestsDone i s (processRequests s i env) := by
  have hloop := processLoop_spec h hused env (Nat.zero_le _) (by rw [Nat.zero_add])
  unfold processRequests
  generalize processLoop i env (s.clients i).inputLen s 0 = r at *
  obtain ⟨s', consumed, result⟩ := r
  obtain ⟨hresult, hacts, hlen, -, hle, hsame, hdiscarded, hexit⟩ := hloop
  simp only at hresult hacts hlen hle hsame hdiscarded hexit ⊢
  rw [if_neg (by simp [hresult])]
  by_cases hnone : consumed = 0
  · -- nothing was served
    rw [if_neg (by omega)]
    obtain rfl := hsame hnone
    subst hnone
    exact
      { result := rfl
        acts := .refl
        inputLen := le_refl _
        same := fun _ => rfl
        framed := fun _ hframed => hframed
        drained := by
          intro hopen hframed _
          rcases hexit hopen (hframed.reading hopen) with ⟨-, -, hdrained⟩ | ⟨hclosed, -, -⟩
          · exact hdrained
          · rw [hopen] at hclosed
            cases hclosed }
  · rw [if_pos (by omega)]
    have hacted := acted_of_acts h hacts
    have hcap := (hacted.ok.clients i).inputLen_le
    have hmove := inputFrom_move (s'.clients i) consumed
    generalize hc : ({ s'.clients i with
      input := (s'.clients i).input.move 0 consumed ((s'.clients i).inputLen - consumed)
      inputLen := (s'.clients i).inputLen - consumed } : KsClient) = c at *
    have hact : KsAct i s' (s'.setClient i c) := by
      refine .passive s' c (by rw [hacted.used, hused]) ?_
      rw [← hc]
      exact ⟨rfl, rfl, rfl, rfl, rfl, rfl, rfl, (Nat.sub_le _ _).trans hcap, [], by simp, by simp⟩
    have hclen : c.inputLen = (s'.clients i).inputLen - consumed := by rw [← hc]
    have hchist : c.history = (s'.clients i).history := by rw [← hc]
    have hcclosing : c.closeAfterWrite = (s'.clients i).closeAfterWrite := by rw [← hc]
    have hcpending : c.pendingLen = (s'.clients i).pendingLen := by rw [← hc]; rfl
    exact
      { result := rfl
        acts := hacts.tail hact
        inputLen := by simp only [setClient_clients, Function.update_self]; omega
        same := by
          intro heq
          simp only [setClient_clients, Function.update_self] at heq
          omega
        framed := by
          intro hopen hframed
          simp only [setClient_clients, Function.update_self]
          rcases hexit hopen (hframed.reading hopen) with
            ⟨hopen', hframed', -⟩ | ⟨hclosed, hall, hfinished⟩
          · refine ⟨fun _ => ?_, ?_, ?_⟩
            · exact hframed'.of_eq hchist hmove
            · rw [hcclosing, hopen']
              simp
            · rw [hchist]
              exact fun data hmem => hframed.discarded data (hdiscarded data hmem)
          · refine ⟨?_, fun _ => ⟨by omega, by rw [hchist]; exact hfinished⟩, ?_⟩
            · rw [hcclosing, hclosed]
              simp
            · rw [hchist]
              exact fun data hmem => hframed.discarded data (hdiscarded data hmem)
        drained := by
          simp only [setClient_clients, Function.update_self]
          intro hopen hframed hopen'
          rw [hcclosing] at hopen'
          rcases hexit hopen (hframed.reading hopen) with ⟨-, -, hdrained⟩ | ⟨hclosed, -, -⟩
          · rw [hcpending, hmove]
            exact hdrained
          · rw [hopen'] at hclosed
            cases hclosed }

end Kessel
