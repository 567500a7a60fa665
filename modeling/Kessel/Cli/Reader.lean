import Kessel.Cli

/-!
# Kessel.Cli.Reader

What the functions of the reader do with the bytes ahead of the client.

They are proved once, from what `Feed` says about the system: a buffer is filled
from the bytes ahead, and the client may take unread bytes and write output.  The
invariant, what holds between a fill and the first byte that is taken, and what
may be wrong when a call fails or waits, are those of the module that uses them.
-/

namespace Kessel

open CStr (ascii)

/-- The client has read up to `rest` and printed `text`, and keeps an invariant. -/
structure Reads (inv : Cli → Prop) (c : Cli) (rest text : List UInt8) (c' : Cli) : Prop where
  inv : inv c'
  ahead : c'.ahead = rest
  stdout : c'.stdout = c.stdout ++ text

/-- The system feeds the client: while bytes are ahead of it, a fill succeeds,
fails with `bad` or waits with `wait`.  A fill is followed by a take. -/
structure Feed (inv filled : Cli → Prop) (bad : ResponseStatus → Cli → Prop) (wait : Cli → Prop) :
    Prop where
  fill : ∀ c, inv c → c.unread = [] → c.ahead ≠ [] →
    Ends (fun _ c' => Reads filled c c.ahead [] c' ∧ c'.unread ≠ []) bad wait (fillReader c)
  ready : ∀ c, inv c → c.unread ≠ [] → filled c
  take : ∀ c n, filled c → c.unread ≠ [] → 0 < n → inv { c with unread := c.unread.drop n }
  print : ∀ c text, inv c → inv { c with stdout := c.stdout ++ text }
  write : ∀ c text, inv c → Ends (fun _ => Reads inv c c.ahead text) bad wait (writeOut text c)

section

variable {inv filled : Cli → Prop} {bad : ResponseStatus → Cli → Prop} {wait : Cli → Prop}
  {c c' : Cli} {rest rest' text text' : List UInt8}

/-- Nothing is read. -/
theorem Reads.refl (h : inv c) : Reads inv c c.ahead [] c := ⟨h, rfl, by simp⟩

/-- One reading behind another. -/
theorem Reads.trans (h : Reads filled c rest text c') {c'' : Cli}
    (h' : Reads inv c' rest' text' c'') : Reads inv c rest' (text ++ text') c'' :=
  ⟨h'.inv, h'.ahead, by rw [h'.stdout, h.stdout, List.append_assoc]⟩

/-- Reading without printing. -/
theorem Reads.trans_nil (h : Reads filled c rest [] c') {c'' : Cli}
    (h' : Reads inv c' rest' text c'') : Reads inv c rest' text c'' := by
  simpa using h.trans h'

variable (hfeed : Feed inv filled bad wait)
include hfeed

/-- A refill makes bytes available, and reads none. -/
theorem refill_spec (hinv : inv c) (hahead : c.ahead ≠ []) :
    Ends (fun _ c' => Reads filled c c.ahead [] c' ∧ c'.unread ≠ []) bad wait (refill c) := by
  unfold refill
  refine .get ?_
  split
  · next hempty => exact hfeed.fill c hinv hempty hahead
  · next hunread => exact .pure ⟨.refl (hfeed.ready c hinv hunread), hunread⟩

/-- Bytes taken from the buffer. -/
theorem takeUnread_spec (hfilled : filled c) (hunread : c.unread ≠ []) {n : Nat} (hn : 0 < n) :
    Ends (fun bytes c' => bytes = c.unread.take n ∧ Reads inv c (c.ahead.drop bytes.length) [] c')
      bad wait (takeUnread n c) := by
  have hdrop : c.ahead.drop (c.unread.take n).length =
      c.unread.drop n ++ c.wire ++ c.recvs.flatMap CliRecv.arrived := by
    rw [Cli.ahead, List.append_assoc, List.append_assoc, List.length_take,
      List.drop_append_of_le_length (by omega)]
    congr 1
    rcases Nat.le_total n c.unread.length with hn | hn
    · rw [Nat.min_eq_left hn]
    · rw [Nat.min_eq_right hn, List.drop_length, List.drop_eq_nil_of_le hn]
  exact ⟨rfl, hfeed.take c n hfilled hunread hn, hdrop.symm, by simp⟩

/-- **`read_byte`** reads one byte. -/
theorem readByte_spec (hinv : inv c) {b : UInt8} (hahead : c.ahead = b :: rest) :
    Ends (fun byte c' => byte = b ∧ Reads inv c rest [] c') bad wait (readByte c) := by
  unfold readByte
  refine (refill_spec hfeed hinv (by simp [hahead])).bind ?_
  rintro - c₁ ⟨h₁, hunread⟩
  refine (takeUnread_spec hfeed h₁.inv hunread one_pos).bind ?_
  rintro bytes c₂ ⟨rfl, h₂⟩
  -- the buffer holds the first of the bytes ahead
  cases hbuffer : c₁.unread with
  | nil => exact absurd hbuffer hunread
  | cons d unread =>
    have hd : d :: (unread ++ c₁.wire ++ c₁.recvs.flatMap CliRecv.arrived) = b :: rest := by
      rw [← hahead, ← h₁.ahead, Cli.ahead, hbuffer]
      rfl
    obtain ⟨rfl, hrest⟩ := List.cons.inj hd
    rw [hbuffer, h₁.ahead, hahead] at h₂
    exact .pure ⟨rfl, h₁.trans_nil h₂⟩

/-- **`read_exact`** reads as many bytes as it is asked for. -/
theorem readExact_spec (hinv : inv c) {x : List UInt8} (hahead : c.ahead = x ++ rest) :
    Ends (fun output c' => output = x ∧ Reads inv c rest [] c') bad wait (readExact x.length c) := by
  unfold readExact
  refine Ends.iterate
    (fun p c' => ∃ todo, p.2 ++ todo = x ∧ todo.length = p.1 ∧ Reads inv c (todo ++ rest) [] c')
    (fun p _ => p.1) ?_ ⟨x, rfl, rfl, hahead ▸ .refl hinv⟩ (Nat.lt_succ_self _)
  rintro ⟨length, output⟩ c₁ ⟨todo, hsplit, hlen, h₁⟩
  dsimp only at hsplit hlen ⊢
  split
  · next hdone =>
    have hnil : todo = [] := List.eq_nil_of_length_eq_zero (hlen.trans hdone)
    rw [hnil, List.append_nil] at hsplit
    rw [hnil, List.nil_append] at h₁
    exact .pure ⟨hsplit, h₁⟩
  · next hmore =>
    have hne : todo ≠ [] := fun hnil => hmore (by rw [← hlen, hnil]; rfl)
    refine (refill_spec hfeed h₁.inv (by simp [h₁.ahead, hne])).bind ?_
    rintro - c₂ ⟨h₂, hunread⟩
    refine (takeUnread_spec hfeed h₂.inv hunread (Nat.pos_of_ne_zero hmore)).bind ?_
    rintro chunk c₃ ⟨rfl, h₃⟩
    -- the chunk is the beginning of what is missing
    have hpos : 0 < (c₂.unread.take length).length := by
      rw [List.length_take]
      have := List.length_pos_iff.mpr hunread
      omega
    have hle : (c₂.unread.take length).length ≤ todo.length := by
      rw [List.length_take, hlen]
      omega
    have hchunk : c₂.unread.take length = todo.take (c₂.unread.take length).length := by
      have hpre : c₂.unread.take length <+: todo ++ rest := by
        rw [← h₁.ahead, ← h₂.ahead, Cli.ahead, List.append_assoc]
        exact (List.take_prefix _ _).trans (List.prefix_append _ _)
      exact List.prefix_iff_eq_take.mp (List.prefix_of_prefix_length_le hpre
        (List.prefix_append _ _) hle)
    generalize c₂.unread.take length = chunk at *
    refine .pure ⟨⟨todo.drop chunk.length, ?_, ?_, ?_⟩, ?_⟩
    · rw [List.append_assoc]
      nth_rewrite 1 [hchunk]
      rw [List.take_append_drop]
      exact hsplit
    · rw [List.length_drop, hlen]
    · rw [h₂.ahead, h₁.ahead, List.drop_append_of_le_length hle] at h₃
      exact (h₁.trans_nil h₂).trans_nil h₃
    · dsimp only
      omega

/-- A header line, of a size that its buffer holds. -/
theorem readHeader_spec (hinv : inv c) {header : List UInt8} {capacity : Nat} (hten : 10 ∉ header)
    (hcapacity : header.length + 1 < capacity) (hahead : c.ahead = header ++ (crlf ++ rest)) :
    Ends (fun out c' => out = .ofBytes header ∧ Reads inv c rest [] c') bad wait
      (readHeader capacity c) := by
  unfold readHeader
  refine Ends.iterate
    (fun output c' => ∃ todo, output ++ todo = header ++ [13] ∧
      Reads inv c (todo ++ 10 :: rest) [] c')
    (fun output _ => header.length + 1 - output.length) ?_
    ⟨header ++ [13], rfl, by rw [List.append_assoc]; exact hahead ▸ .refl hinv⟩
    (show header.length + 1 - 0 < capacity + 1 by omega)
  rintro output c₁ ⟨todo, hsplit, h₁⟩
  cases todo with
  | nil =>
    -- the newline
    rw [List.append_nil] at hsplit
    refine (readByte_spec hfeed h₁.inv h₁.ahead).bind ?_
    rintro byte c₂ ⟨rfl, h₂⟩
    rw [if_pos rfl, hsplit, List.getLast?_concat, if_pos rfl, List.dropLast_concat]
    exact .pure ⟨rfl, h₁.trans_nil h₂⟩
  | cons b todo =>
    refine (readByte_spec hfeed h₁.inv h₁.ahead).bind ?_
    rintro byte c₂ ⟨rfl, h₂⟩
    have hbyte : byte ≠ 10 := by
      have hmem : byte ∈ header ++ [13] := by
        rw [← hsplit]
        simp
      rcases List.mem_append.mp hmem with hmem | hmem
      · exact fun heq => hten (heq ▸ hmem)
      · rw [List.mem_singleton.mp hmem]
        decide
    have hlen := congrArg List.length hsplit
    simp only [List.length_append, List.length_cons, List.length_nil] at hlen
    rw [if_neg hbyte, if_neg (by omega)]
    refine .pure ⟨⟨todo, by simpa using hsplit, h₁.trans_nil h₂⟩, ?_⟩
    simp only [List.length_append, List.length_cons, List.length_nil]
    omega

/-- Printing reads nothing. -/
theorem printOut_spec (hinv : inv c) (text : List UInt8) :
    Ends (fun _ => Reads inv c c.ahead text) bad wait (printOut text c) :=
  ⟨hfeed.print c text hinv, rfl, rfl⟩

/-- The payload of a bulk string. -/
theorem renderPayload_spec (hinv : inv c) {x : List UInt8} (hahead : c.ahead = x ++ rest) :
    Ends (fun _ => Reads inv c rest x) bad wait (renderPayload x.length c) := by
  unfold renderPayload
  refine Ends.iterate
    (fun remaining c' => ∃ done todo, done ++ todo = x ∧ todo.length = remaining ∧
      Reads inv c (todo ++ rest) done c')
    (fun remaining _ => remaining) ?_ ⟨[], x, rfl, rfl, hahead ▸ .refl hinv⟩ (Nat.lt_succ_self _)
  rintro remaining c₁ ⟨done, todo, hsplit, hlen, h₁⟩
  dsimp only
  split
  · next hdone =>
    have hnil : todo = [] := List.eq_nil_of_length_eq_zero (hlen.trans hdone)
    rw [hnil, List.append_nil] at hsplit
    rw [hnil, List.nil_append, hsplit] at h₁
    exact .pure h₁
  · next hmore =>
    have hchunk : (todo.take (min remaining cliBufferSize)).length = min remaining cliBufferSize := by
      rw [List.length_take]
      omega
    have hahead₁ : c₁.ahead = todo.take (min remaining cliBufferSize) ++
        (todo.drop (min remaining cliBufferSize) ++ rest) := by
      rw [← List.append_assoc, List.take_append_drop, h₁.ahead]
    have hread := readExact_spec hfeed h₁.inv hahead₁
    rw [hchunk] at hread
    refine hread.bind ?_
    rintro output c₂ ⟨rfl, h₂⟩
    refine (hfeed.write c₂ _ h₂.inv).bind ?_
    rintro - c₃ h₃
    rw [h₂.ahead] at h₃
    refine .pure ⟨⟨done ++ todo.take (min remaining cliBufferSize),
      todo.drop (min remaining cliBufferSize), ?_, ?_, h₁.trans (h₂.trans_nil h₃)⟩, ?_⟩
    · rw [List.append_assoc, List.take_append_drop, hsplit]
    · rw [List.length_drop, hlen]
    · have : 0 < cliBufferSize := by decide
      omega

/-- **`readTerminator`** reads a line end. -/
theorem readTerminator_spec (hinv : inv c) (hahead : c.ahead = crlf ++ rest) :
    Ends (fun _ => Reads inv c rest []) bad wait (readTerminator c) := by
  unfold readTerminator
  refine (readExact_spec hfeed hinv hahead).bind ?_
  rintro terminator c' ⟨rfl, h⟩
  rw [if_pos rfl]
  exact .pure h

end

end Kessel
