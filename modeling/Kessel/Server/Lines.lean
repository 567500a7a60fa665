import Kessel.Server.Publish

/-!
# Kessel.Server.Lines

A line in a turn.

`processRequests_line` is `process_requests` on an input buffer that holds one
line, and behind it what has to wait.  A line that publishes fans out, whether
its turn has just received it (`clientTurn_publishes`) or it has waited until the
output was sent (`clientTurn_resumes`).
-/

namespace Kessel

open CStr (ascii)

variable {cfg : KsConfig}

/-! ## one line in a turn -/

/-- A request that is dispatched when it arrives with a newline behind it. -/
structure IsBody (body : List UInt8) : Prop where
  newline : 10 ∉ body
  noNul : 0 ∉ body
  fits : body.length ≤ ksMaxRequest

/-- A connection that waits for its client. -/
structure KsClient.Waits (c : KsClient) : Prop where
  used : c.used = true
  alive : c.dropConnection = false
  opened : c.closeAfterWrite = false
  empty : c.inputLen = 0
  room : c.pendingLen < ksOutputHighWater

section

variable {s : KsServer cfg} {i : Fin cfg.maxClients} {body rest : List UInt8}

/-- The front of the input, as a line. -/
theorem lineAt_of_inputFrom {c : KsClient} (hbody : IsBody body)
    (hinput : c.inputFrom 0 = body ++ 10 :: rest) :
    LineAt c 0 body.length ∧ c.input.read 0 body.length = body ∧
      c.inputLen = body.length + 1 + rest.length ∧ c.inputFrom (body.length + 1) = rest := by
  have hlen : c.inputLen = body.length + 1 + rest.length := by
    rw [← KsClient.length_inputFrom_zero, hinput, List.length_append, List.length_cons]
    omega
  have hsplit : c.inputFrom 0 = c.input.read 0 body.length ++
      (c.input body.length :: c.inputFrom (body.length + 1)) := by
    rw [KsClient.inputFrom, KsClient.inputFrom, Mem.read_split _ (show body.length ≤ _ by omega),
      Nat.zero_add, ← Mem.read_succ]
    congr 2
    omega
  rw [hinput] at hsplit
  obtain ⟨hread, htail⟩ := List.append_inj hsplit (by simp)
  obtain ⟨hten, hrest⟩ := List.cons.inj htail
  exact ⟨⟨Nat.zero_le _, by omega, hten.symm, by rw [Nat.sub_zero, ← hread]; exact hbody.newline⟩,
    hread.symm, hlen, hrest.symm⟩

/-- The first newline of a range is found. -/
theorem LineAt.memchr {c : KsClient} {line newline : Nat} (h : LineAt c line newline) :
    c.input.memchr line (c.inputLen - line) 10 = some newline := by
  obtain ⟨hle, hlt, hends, hfirst⟩ := h
  cases hchr : c.input.memchr line (c.inputLen - line) 10 with
  | none =>
    refine absurd (Mem.mem_read.mpr ⟨newline - line, by omega, ?_⟩) (Mem.memchr_eq_none.mp hchr)
    rw [Nat.add_sub_cancel' hle, hends]
  | some k =>
    obtain ⟨hle', -, hends', hfirst'⟩ := Mem.memchr_eq_some hchr
    rcases Nat.lt_trichotomy k newline with hlt' | heq | hlt'
    · refine absurd (Mem.mem_read.mpr ⟨k - line, by omega, ?_⟩) hfirst
      rw [Nat.add_sub_cancel' hle', hends']
    · rw [heq]
    · refine absurd (Mem.mem_read.mpr ⟨newline - line, by omega, ?_⟩) hfirst'
      rw [Nat.add_sub_cancel' hle, hends]

/-- Such a line is dispatched, and `handle_command` finds it in front of a NUL. -/
theorem IsBody.dispatched {c : KsClient} (hbody : IsBody body)
    (hinput : c.inputFrom 0 = body ++ 10 :: rest) :
    Dispatched c 0 body.length ∧ StrAt (c.input.set (body.length + 1) 0) 0 (body ++ [10]) := by
  obtain ⟨hat, hread, hlen, -⟩ := lineAt_of_inputFrom hbody hinput
  have hline : c.input.read 0 (body.length + 1) = body ++ [10] := by
    rw [Mem.read_add, hread, Nat.zero_add, Mem.read_succ, hat.ends, Mem.read_zero]
  have hnul : 0 ∉ body ++ [10] := by simp [hbody.noNul]
  refine ⟨⟨by omega, hat.memchr, ?_, ?_⟩, ?_⟩
  · have hfits := hbody.fits
    rw [contentLen]
    split <;> omega
  · rw [Mem.memchr_eq_none, Nat.sub_zero, hline]
    exact hnul
  · refine .of_read (n := body.length + 1) ?_ hnul ?_
    · rw [Mem.read_set_of_notin _ _ (by omega), hline]
    · rw [Nat.zero_add, Mem.set_same]

/-- The loop of `process_requests` stops when nothing is left or when the output
is at the high-water mark. -/
theorem processLoop_stop {consumed : Nat}
    (h : (s.clients i).inputLen ≤ consumed ∨ ksOutputHighWater ≤ (s.clients i).pendingLen)
    (env : Nat → KsCommandEnv) (fuel : Nat) :
    processLoop i env fuel s consumed = (s, consumed, 0) := by
  cases fuel with
  | zero => rfl
  | succ fuel =>
    rw [processLoop]
    dsimp only
    split
    · rfl
    · next hmore => rw [if_pos (h.resolve_left (by omega))]

/-- A line is passed to `handle_command`, and what is behind it waits when nothing
is left or when the output has reached the high-water mark. -/
theorem processRequests_line (h : s.Ok) (hused : (s.clients i).used = true)
    (hp : (s.clients i).pendingLen < ksOutputHighWater) (hbody : IsBody body)
    (hinput : (s.clients i).inputFrom 0 = body ++ 10 :: rest) (env : Nat → KsCommandEnv)
    {s' : KsServer cfg} (hs' : (handleCommand (markLine s i (body.length + 1)) i 0 (env 0)).1 = s')
    (hstop : rest = [] ∨ ksOutputHighWater ≤ (s'.clients i).pendingLen) :
    ∃ m, processRequests s i env =
        (s'.setClient i { s'.clients i with input := m, inputLen := rest.length }, 0) ∧
      m.read 0 rest.length = rest := by
  obtain ⟨hat, -, hlen, hrest⟩ := lineAt_of_inputFrom hbody hinput
  obtain ⟨hdispatched, hstr⟩ := hbody.dispatched hinput
  have hnul (k : Nat) (hk : 0 ≤ k) (hk' : k ≤ body.length) : (s.clients i).input k ≠ 0 := by
    have hne := hstr.isStr.1 k (by rw [List.length_append, List.length_singleton]; omega)
    rwa [Nat.zero_add, Mem.set_of_ne _ _ (by omega)] at hne
  obtain ⟨hresult, hdone⟩ := lineDone_command h hused hp (Nat.zero_le _) hat.lt hat.ends hnul
    (Eq.refl (handleCommand (markLine s i (body.length + 1)) i 0 (env 0)))
  generalize hr : handleCommand (markLine s i (body.length + 1)) i 0 (env 0) = r at *
  subst hs'
  obtain ⟨fuel, hfuel⟩ : ∃ fuel, (s.clients i).inputLen = fuel + 1 :=
    ⟨_, by rw [hlen, Nat.add_right_comm]⟩
  have hloop := processLoop_dispatched hdispatched hp env fuel
  rw [hr] at hloop
  dsimp only at hloop
  rw [if_neg (not_not_intro hresult)] at hloop
  have hlen' := hdone.inputLen
  have hrest' := inputFrom_congr hlen' hdone.agree
  have hsame : ∃ m, (if body.length + 1 < (s.clients i).inputLen then
      r.1.setClient i { r.1.clients i with
        input := (r.1.clients i).input.set (body.length + 1) ((s.clients i).input (body.length + 1)) }
      else r.1) = r.1.setClient i { r.1.clients i with input := m } := by
    split
    · exact ⟨_, rfl⟩
    · exact ⟨(r.1.clients i).input, by simp [KsServer.setClient]⟩
  obtain ⟨m, hm⟩ := hsame
  rw [hm] at hloop hlen' hrest'
  simp only [setClient_clients, Function.update_self, KsClient.inputFrom, hlen] at hlen' hrest'
  have hbehind : m.read (body.length + 1) rest.length = rest := by
    rw [KsClient.inputFrom, hlen, Nat.add_sub_cancel_left] at hrest
    rwa [hlen', Nat.add_sub_cancel_left, hrest] at hrest'
  refine ⟨m.move 0 (body.length + 1) rest.length, ?_, by rw [Mem.read_move, hbehind]⟩
  have hend : processLoop i env fuel (r.1.setClient i { r.1.clients i with input := m })
      (body.length + 1) = (r.1.setClient i { r.1.clients i with input := m }, body.length + 1, 0) := by
    refine processLoop_stop ?_ env fuel
    simp only [setClient_clients, Function.update_self]
    refine hstop.imp (fun hnil => ?_) id
    rw [hlen', hnil, List.length_nil]
  rw [hend] at hloop
  unfold processRequests
  rw [hfuel, hloop]
  simp only [setClient_clients, Function.update_self, setClient_setClient, hlen']
  rw [if_neg (by simp), if_pos (by omega), Nat.add_sub_cancel_left]

/-! ## one message in a turn -/

/-- A line that publishes a message to a channel. -/
structure Publishes (body : List UInt8) (channel message : CStr) : Prop extends IsBody body where
  reads : readLine (body ++ [10]) = some (ascii "PUBLISH", [channel.bytes, message.bytes])

variable {channel message : CStr} {r : KsServer cfg × Int}

/-- A passive change leaves the receivers of a message. -/
theorem receivers_passive {c : KsClient} (hc : (s.clients i).Passive c) (f : List UInt8) :
    receivers (s.setClient i c) channel f = receivers s channel f := by
  ext j
  rw [mem_receivers, mem_receivers, setClient_clients, setClient_pubsub]
  by_cases hj : j = i
  · rw [hj, Function.update_self, hc.used, hc.id, KsClient.takes, KsClient.takes, KsClient.pendingLen,
      KsClient.pendingLen, hc.dropConnection, hc.outputLen, hc.outputOffset]
  · rw [Function.update_of_ne hj]

/-- A message is for the same receivers whatever its issuer has in its input. -/
theorem FansOut.passive {c : KsClient} (hc : (s.clients i).Passive c)
    (hclosing : c.closeAfterWrite = (s.clients i).closeAfterWrite)
    (h : FansOut (s.setClient i c) i channel message r) : FansOut s i channel message r := by
  obtain ⟨hreply, hissuer, htaken, hfull, hothers, hpubsub, hstore⟩ := h
  have hpending : c.pending = (s.clients i).pending := by
    rw [KsClient.pending, KsClient.pending, KsClient.pendingLen, KsClient.pendingLen, hc.output,
      hc.outputLen, hc.outputOffset]
  have hother (j : Fin cfg.maxClients) (hj : j ≠ i) : (s.setClient i c).clients j = s.clients j :=
    Function.update_of_ne hj _ _
  rw [receivers_passive hc, setClient_clients, Function.update_self, hpending] at hreply
  rw [setClient_clients, Function.update_self, hc.used, hc.fd, hc.id, hc.dropConnection,
    hclosing] at hissuer
  exact
    { reply := hreply
      issuer := hissuer
      taken := fun j hj hmem => by
        rw [← receivers_passive hc] at hmem
        simpa only [hother j hj] using htaken j hj hmem
      full := fun j hj => by simpa only [hother j hj, setClient_pubsub] using hfull j hj
      others := fun j hj => by simpa only [hother j hj, setClient_pubsub] using hothers j hj
      pubsub := hpubsub
      store := hstore }

/-- The input of the publisher may change behind a publication. -/
theorem FansOut.setInput (h : FansOut s i channel message r) (m : Mem) (n : Nat) :
    FansOut s i channel message
      (r.1.setClient i { r.1.clients i with input := m, inputLen := n }, 0) := by
  obtain ⟨hreply, hissuer, htaken, hfull, hothers, hpubsub, hstore⟩ := h
  have hother (j : Fin cfg.maxClients) (hj : j ≠ i) :
      (r.1.setClient i { r.1.clients i with input := m, inputLen := n }).clients j = r.1.clients j :=
    Function.update_of_ne hj _ _
  exact
    { reply := by rw [setClient_clients, Function.update_self]; exact hreply
      issuer := by rw [setClient_clients, Function.update_self]; exact hissuer
      taken := fun j hj => by simpa only [hother j hj] using htaken j hj
      full := fun j hj => by simpa only [hother j hj] using hfull j hj
      others := fun j hj => by simpa only [hother j hj] using hothers j hj
      pubsub := hpubsub
      store := hstore }

/-- A line that publishes is served, and what is behind it waits. -/
theorem processRequests_publishes (h : s.Ok) (hagrees : s.Agrees) (hused : (s.clients i).used = true)
    (hp : (s.clients i).pendingLen < ksOutputHighWater) (hline : Publishes body channel message)
    (hinput : (s.clients i).inputFrom 0 = body ++ 10 :: rest) (env : Nat → KsCommandEnv)
    (hstop : ∀ r, FansOut s i channel message r →
      rest = [] ∨ ksOutputHighWater ≤ (r.1.clients i).pendingLen) :
    FansOut s i channel message (processRequests s i env) ∧ (processRequests s i env).2 = 0 ∧
      ((processRequests s i env).1.clients i).inputFrom 0 = rest := by
  have hstr := (hline.toIsBody.dispatched hinput).2
  have hmark : (s.clients i).Passive
      { s.clients i with input := (s.clients i).input.set (body.length + 1) 0 } :=
    ⟨rfl, rfl, rfl, rfl, rfl, rfl, rfl, (h.clients i).inputLen_le, [], by simp, by simp⟩
  have hact : KsAct i s (markLine s i (body.length + 1)) := .passive s _ hused hmark
  have hinput₁ : ((markLine s i (body.length + 1)).clients i).input =
      (s.clients i).input.set (body.length + 1) 0 := by simp [markLine]
  have hp₁ : ((markLine s i (body.length + 1)).clients i).pendingLen < ksOutputHighWater := by
    rw [markLine, setClient_clients, Function.update_self]
    exact hp
  have hparsed : parsedCommand ((markLine s i (body.length + 1)).clients i).input 0 =
      some (⟨ascii "PUBLISH", by decide⟩, [channel, message]) := by
    rw [hinput₁]
    exact parsedCommand_eq_some hstr hline.reads
  have hacted := acted_of_act h hact
  have hfans := (handleCommand_fansOut hacted.ok (hacted.agrees hagrees hused) hp₁ (env 0) hparsed
    rfl).passive hmark rfl
  obtain ⟨m, heq, hrest⟩ := processRequests_line h hused hp hline.toIsBody hinput env rfl
    (hstop _ hfans)
  rw [heq]
  refine ⟨hfans.setInput m rest.length, rfl, ?_⟩
  rw [setClient_clients, Function.update_self]
  exact hrest

/-- What arrives in an empty buffer stands in it alone. -/
theorem KsClient.inputFrom_receive {c : KsClient} (hempty : c.inputLen = 0) {data : List UInt8}
    (hlen : data.length ≤ ksInputCap) : (c.receive data).inputFrom 0 = data := by
  rw [KsClient.inputFrom, KsClient.receive, hempty, List.take_of_length_le (by omega)]
  simp only [KsClient.log_input, KsClient.log_inputLen, Nat.zero_add, Nat.sub_zero]
  exact Mem.read_write _ _ _

/-- A read that gets bytes once, and serves them. -/
theorem readClient_once (hp : (s.clients i).pendingLen < ksOutputHighWater)
    (hroom : (s.clients i).inputLen < ksInputCap) {data : List UInt8} {env : Nat → KsCommandEnv}
    {s' : KsServer cfg}
    (hdone : processRequests (s.setClient i ((s.clients i).receive data)) i env = (s', 0))
    (hopen : (s'.clients i).closeAfterWrite = false) (hroom' : (s'.clients i).inputLen < ksInputCap) :
    readClient s i [.ok data env] = (s', 0) := by
  rw [readClient, if_neg (not_le.mpr hp), if_neg hroom.ne]
  simp only [hdone, hopen, Bool.false_eq_true, if_false]
  rw [if_neg (not_not_intro rfl), readClient]
  split
  · rfl
  · rw [if_neg hroom'.ne]

/-- A turn that reads, and has nothing to write or to serve behind that. -/
theorem clientTurn_read (hused : (s.clients i).used = true)
    (hd : (s.clients i).dropConnection = false) {readFds writeFds : Nat → Bool}
    (hread : readFds (s.clients i).fd = true) (hwrite : writeFds (s.clients i).fd = false)
    {t : KsTurn} {s' : KsServer cfg} (hdone : readClient s i t.recvs = (s', 0))
    (hopen : (s'.clients i).closeAfterWrite = false)
    (hstop : (s'.clients i).inputLen = 0 ∨ ksOutputHighWater ≤ (s'.clients i).pendingLen) :
    clientTurn s i readFds writeFds t = s' := by
  have hprocess : turnProcess s' i t.env = (s', false) := by
    refine if_neg ?_
    rintro ⟨hpos, hlow⟩
    exact hstop.elim (fun hnil => by omega) (not_le.mpr hlow)
  unfold clientTurn
  rw [if_neg (not_not_intro hused)]
  simp [turnRead, turnWrite, hread, hdone, hwrite, hd, hopen, hprocess]

/-- A turn in which a line arrives that publishes. -/
theorem clientTurn_publishes (h : s.Ok) (hagrees : s.Agrees) (hwaits : (s.clients i).Waits)
    (hline : Publishes body channel message) (hcap : body.length + 1 + rest.length < ksInputCap)
    {readFds writeFds : Nat → Bool} (hread : readFds (s.clients i).fd = true)
    (hwrite : writeFds (s.clients i).fd = false) {t : KsTurn} {env : Nat → KsCommandEnv}
    (ht : t.recvs = [.ok (body ++ 10 :: rest) env])
    (hstop : ∀ r, FansOut s i channel message r →
      rest = [] ∨ ksOutputHighWater ≤ (r.1.clients i).pendingLen) :
    FansOut s i channel message (clientTurn s i readFds writeFds t, 0) ∧
      Acted i s (clientTurn s i readFds writeFds t) ∧
      ((clientTurn s i readFds writeFds t).clients i).inputFrom 0 = rest := by
  obtain ⟨hused, hd, hopen, hempty, hroom⟩ := hwaits
  have hcapacity : (s.clients i).inputLen < ksInputCap := by
    rw [hempty]
    decide
  have hpassive := KsClient.passive_receive hcapacity.le (body ++ 10 :: rest)
  have hacted := acted_of_act h (.passive s _ hused hpassive)
  have hopen₁ : ((s.clients i).receive (body ++ 10 :: rest)).closeAfterWrite =
      (s.clients i).closeAfterWrite := rfl
  have hlen : (body ++ 10 :: rest).length ≤ ksInputCap := by
    rw [List.length_append, List.length_cons]
    omega
  have hinput := KsClient.inputFrom_receive hempty hlen
  have hc : (s.setClient i ((s.clients i).receive (body ++ 10 :: rest))).clients i =
      (s.clients i).receive (body ++ 10 :: rest) := Function.update_self _ _ _
  obtain ⟨hfans, hresult, hrest⟩ := processRequests_publishes hacted.ok (hacted.agrees hagrees hused)
    (hacted.used.trans hused) (by rw [hc]; exact hroom) hline (by rw [hc]; exact hinput) env
    (fun r hr => hstop r (hr.passive hpassive hopen₁))
  have hacted' := hacted.trans
    (acted_of_acts hacted.ok (processRequests_spec hacted.ok (hacted.used.trans hused) env).acts)
  generalize hr : processRequests (s.setClient i ((s.clients i).receive (body ++ 10 :: rest))) i env =
    r at *
  obtain ⟨s₂, result⟩ := r
  obtain rfl : result = 0 := hresult
  have hfans' := hfans.passive hpassive hopen₁
  have hopen₂ : (s₂.clients i).closeAfterWrite = false := hfans'.issuer.2.2.2.1.trans hopen
  have hlen₂ : (s₂.clients i).inputLen = rest.length := by
    rw [← KsClient.length_inputFrom_zero, hrest]
  have hreads : readClient s i t.recvs = (s₂, 0) := by
    rw [ht]
    exact readClient_once hroom hcapacity hr hopen₂ (by omega)
  have hturn := clientTurn_read hused hd hread hwrite hreads hopen₂
    ((hstop _ hfans').imp_left fun hnil => by rw [hlen₂, hnil, List.length_nil])
  rw [hturn]
  exact ⟨hfans', hacted', hrest⟩

/-- A socket that takes everything. -/
theorem writeClient_all {c : KsClient} {n : Nat} (hn : c.pendingLen ≤ n)
    (hopen : c.closeAfterWrite = false) :
    (writeClient c [.ok n]).1.pendingLen = 0 ∧ (writeClient c [.ok n]).2 = 0 := by
  rw [KsClient.pendingLen] at hn
  rw [writeClient]
  split
  · next hpending =>
    rw [Nat.min_eq_right hn, writeClient, if_neg]
    · exact ⟨rfl, by simp [hopen]⟩
    · rw [KsClient.log]
      dsimp only
      omega
  · exact ⟨rfl, by simp [hopen]⟩

/-- A turn in which the output of a connection is sent and a line is served that
has waited. -/
theorem clientTurn_resumes (h : s.Ok) (hagrees : s.Agrees) (hused : (s.clients i).used = true)
    (hd : (s.clients i).dropConnection = false) (hopen : (s.clients i).closeAfterWrite = false)
    (hline : Publishes body channel message) (hinput : (s.clients i).inputFrom 0 = body ++ [10])
    {readFds writeFds : Nat → Bool} (hread : readFds (s.clients i).fd = false)
    (hwrite : writeFds (s.clients i).fd = true) {t : KsTurn} {n : Nat} (ht : t.sends = [.ok n])
    (hn : (s.clients i).pendingLen ≤ n) :
    ∃ c, (s.clients i).SameConn c ∧ c.pendingLen = 0 ∧
      FansOut (s.setClient i c) i channel message (clientTurn s i readFds writeFds t, 0) := by
  have hact : KsAct i s (s.setClient i (writeClient (s.clients i) [.ok n]).1) := .write s _ hused hd
  have hacted := acted_of_act h hact
  obtain ⟨-, hsame, -⟩ := writeClient_spec (h.clients i).toQueueOk [.ok n]
  obtain ⟨hsent, hresult⟩ := writeClient_all hn hopen
  generalize hw : writeClient (s.clients i) [.ok n] = w at *
  obtain ⟨c, result⟩ := w
  obtain rfl : result = 0 := hresult
  simp only at hact hacted hsame hsent
  have hc : (s.setClient i c).clients i = c := Function.update_self _ _ _
  have hinput' : ((s.setClient i c).clients i).inputFrom 0 = body ++ 10 :: [] := by
    rw [hc, KsClient.inputFrom, hsame.input, hsame.inputLen]
    exact hinput
  have hp : ((s.setClient i c).clients i).pendingLen < ksOutputHighWater := by
    rw [hc, hsent]
    decide
  obtain ⟨hfans, hresult', -⟩ := processRequests_publishes hacted.ok (hacted.agrees hagrees hused)
    (hacted.used.trans hused) hp hline hinput' t.env fun _ _ => .inl rfl
  refine ⟨c, hsame, hsent, ?_⟩
  generalize hr : processRequests (s.setClient i c) i t.env = r at *
  obtain ⟨s₂, result⟩ := r
  obtain rfl : result = 0 := hresult'
  have hopen₂ : (s₂.clients i).closeAfterWrite = false :=
    hfans.issuer.2.2.2.1.trans (by rw [hc, hsame.closeAfterWrite, hopen])
  have hprocess : turnProcess (s.setClient i c) i t.env = (s₂, false) := by
    have hpos : ((s.setClient i c).clients i).inputLen > 0 := by
      rw [← KsClient.length_inputFrom_zero, hinput']
      simp
    rw [turnProcess, if_pos ⟨hpos, hp⟩, hr]
    rfl
  have hturn : clientTurn s i readFds writeFds t = s₂ := by
    unfold clientTurn
    rw [if_neg (not_not_intro hused)]
    simp [turnRead, turnWrite, hread, hwrite, hd, ht, hw, hprocess, hopen₂]
  rw [hturn]
  exact hfans

end

/-- A word is published. -/
theorem publishes_word {word : List UInt8} (hne : word ≠ [])
    (hplain : ∀ c ∈ word, isSeparator c = false ∧ c ≠ 34 ∧ c ≠ 0 ∧ isCrlf c = false)
    (hlen : word.length + 10 ≤ ksMaxRequest) :
    Publishes (ascii "PUBLISH c " ++ word) (.ofBytes (ascii "c")) (.ofBytes word) := by
  have hnul : 0 ∉ word := fun hmem => (hplain 0 hmem).2.2.1 rfl
  have hnewline : 10 ∉ word := fun hmem => absurd (hplain 10 hmem).2.2.2 (by decide)
  have hfits : (ascii "PUBLISH c " ++ word).length ≤ ksMaxRequest := by
    rw [List.length_append, show (ascii "PUBLISH c ").length = 10 from rfl]
    omega
  have htrim : trimmed ((ascii "PUBLISH c " ++ word) ++ [10]) = ascii "PUBLISH c " ++ word := by
    rw [trimmed_append _ (by simp [isCrlf]), trimmed, List.rdropWhile_eq_self_iff]
    intro hnil
    rw [List.getLast_append_of_ne_nil _ hne, (hplain _ (List.getLast_mem hne)).2.2.2]
    simp
  refine ⟨⟨?_, ?_, hfits⟩, readLine_eq_some.mpr ⟨?_, by rwa [htrim], ascii "PUBLISH", ?_, rfl⟩⟩
  · rw [List.mem_append]
    exact not_or.mpr ⟨by decide, hnewline⟩
  · rw [List.mem_append]
    exact not_or.mpr ⟨by decide, hnul⟩
  · rw [List.length_append, List.length_singleton]
    omega
  · rw [htrim]
    have hword : IsToken word word := .word hne fun c hc => ⟨(hplain c hc).1, (hplain c hc).2.1⟩
    have hspace : Separators (ascii " ") := by simp [Separators, isSeparator, ascii]
    have hlast : Tokens word [word] := by
      simpa using Tokens.cons hword (show Separators [] by simp [Separators]) (.inr rfl) .nil
    have hchannel : Tokens (ascii "c" ++ (ascii " " ++ word)) [ascii "c", word] :=
      .cons (.word (by decide) (by decide +kernel)) hspace (.inl (by decide)) hlast
    have hname : Tokens (ascii "PUBLISH" ++ (ascii " " ++ (ascii "c" ++ (ascii " " ++ word))))
        [ascii "PUBLISH", ascii "c", word] :=
      .cons (.word (by decide) (by decide +kernel)) hspace (.inl (by decide)) hchannel
    have hsplit : ascii "PUBLISH c " ++ word =
        ascii "PUBLISH" ++ (ascii " " ++ (ascii "c" ++ (ascii " " ++ word))) := by
      simp only [← List.append_assoc]
      rfl
    have hone : (CStr.ofBytes (ascii "c")).bytes = ascii "c" := CStr.bytes_ofBytes (by decide)
    rw [hsplit, CStr.bytes_ofBytes hnul, hone]
    exact ⟨[], _, (List.nil_append _).symm, by simp [Separators], hname, by decide, by simp [ksMaxArgs]⟩

end Kessel
