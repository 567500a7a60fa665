import Kessel.Cli.Reader
import Kessel.Server.Deliver

/-!
# Kessel.Cli.Render

The client renders what the server formats.

`CliFrame` is a response; `CliFrame.encode` is its frame and `CliFrame.rendered`
what the client prints for it.  `renderResponse_spec` is one response, read from
the bytes ahead of the client, and `renderResponses_stream` a whole stream of
them in any chunks.
-/

namespace Kessel

open CStr

/-! ## numbers -/

/-- The digits of a number. -/
theorem isDigit_ofNat {d : Nat} (h : d < 10) :
    isDigit (UInt8.ofNat (48 + d)) = true ∧ (UInt8.ofNat (48 + d)).toNat = 48 + d := by
  interval_cases d <;> decide

/-- The value of one more digit. -/
theorem digitsValue_append (ds : List UInt8) (c : UInt8) :
    digitsValue (ds ++ [c]) = 10 * digitsValue ds + (c.toNat - 48) := by
  rw [digitsValue, List.foldl_append]
  rfl

/-- The value of the digits of a number. -/
theorem digitsValue_digits {ds : List Nat} (h : ∀ d ∈ ds, d < 10) :
    digitsValue (ds.reverse.map fun d => UInt8.ofNat (48 + d)) = Nat.ofDigits 10 ds := by
  induction ds with
  | nil => rfl
  | cons d ds ih =>
    rw [List.forall_mem_cons] at h
    rw [List.reverse_cons, List.map_append, List.map_singleton, digitsValue_append, ih h.2,
      (isDigit_ofNat h.1).2, Nat.ofDigits_cons]
    omega

/-- A number is written with digits. -/
theorem isDigit_decimal (n : Nat) : ∀ c ∈ decimal n, isDigit c = true := by
  unfold decimal
  split
  · simp [ascii, isDigit]
  · intro c hc
    obtain ⟨d, hd, rfl⟩ := List.mem_map.mp hc
    exact (isDigit_ofNat (Nat.digits_lt_base (by decide) (List.mem_reverse.mp hd))).1

/-- A number is read back from its digits. -/
theorem digitsValue_decimal (n : Nat) : digitsValue (decimal n) = n := by
  unfold decimal
  split
  · next h => rw [h]; decide
  · rw [digitsValue_digits fun d hd => Nat.digits_lt_base (by decide) hd, Nat.ofDigits_digits]

theorem decimal_ne_nil (n : Nat) : decimal n ≠ [] := List.length_pos_iff.mp (length_decimal_pos n)

/-- `strtoll` reads a number that `%lld` has written. -/
theorem strtoll_decimalInt {v : Int} (h : -2 ^ 63 ≤ v ∧ v < 2 ^ 63) :
    strtoll (decimalInt v) = some (v, []) := by
  have hdigits := isDigit_decimal v.natAbs
  have hvalue := digitsValue_decimal v.natAbs
  have hne := decimal_ne_nil v.natAbs
  unfold decimalInt
  generalize decimal v.natAbs = ds at *
  obtain ⟨htake, hdrop⟩ := takeWhile_isDigit hdigits
  split
  · next hneg =>
    have hsign : (ascii "-" ++ ds).dropWhile isSpace = 45 :: ds := rfl
    rw [strtoll, hsign]
    simp only [htake, hdrop, if_neg hne, hvalue, if_true]
    rw [if_neg (by omega), show -((v.natAbs : Nat) : Int) = v by omega]
  · next hpos =>
    cases ds with
    | nil => exact absurd rfl hne
    | cons c ds =>
      obtain ⟨hspace, hplus, hminus, -⟩ := isDigit_plain (hdigits c List.mem_cons_self)
      have hskip : (c :: ds).dropWhile isSpace = c :: ds := by
        rw [List.dropWhile_cons_of_neg (by simp [hspace])]
      rw [strtoll, hskip]
      dsimp only
      -- the first digit is no sign
      split
      · next hcons => exact absurd (List.cons.inj hcons).1 hminus
      · next hcons => exact absurd (List.cons.inj hcons).1 hplus
      · simp only [htake, hdrop, if_neg hne, hvalue, Bool.false_eq_true, if_false]
        rw [if_neg (by omega), show ((v.natAbs : Nat) : Int) = v by omega]

/-- The bytes of a number are digits, behind a sign. -/
theorem mem_decimalInt {v : Int} {c : UInt8} (h : c ∈ decimalInt v) : c ≠ 10 ∧ c ≠ 0 := by
  unfold decimalInt at h
  have hdecimal (hc : c ∈ decimal v.natAbs) : c ≠ 10 ∧ c ≠ 0 :=
    (isDigit_plain (isDigit_decimal _ c hc)).2.2.2
  split at h
  · rcases List.mem_append.mp h with hc | hc
    · rw [List.mem_singleton.mp (show c ∈ [45] from hc)]
      decide
    · exact hdecimal hc
  · exact hdecimal h

/-- **`parse_integer`** reads back every signed 64-bit number. -/
theorem parseInteger_decimalInt {v : Int} (h : -2 ^ 63 ≤ v ∧ v < 2 ^ 63) :
    parseInteger (.ofBytes (decimalInt v)) = some v := by
  have hbytes : (CStr.ofBytes (decimalInt v)).bytes = decimalInt v :=
    bytes_ofBytes fun hzero => (mem_decimalInt hzero).2 rfl
  have hne : decimalInt v ≠ [] := by
    unfold decimalInt
    split <;> simp [decimal_ne_nil]
  rw [parseInteger, hbytes, if_neg hne, strtoll_decimalInt h]
  rfl

/-- A natural number has no sign. -/
theorem decimalInt_natCast (n : Nat) : decimalInt n = decimal n := by
  rw [decimalInt, if_neg (by omega), Int.natAbs_natCast]

/-- The length of a bulk frame is read back. -/
theorem parseInteger_decimal {n : Nat} (h : n ≤ kesselCliMaxLine) :
    parseInteger (.ofBytes (decimal n)) = some (n : Int) := by
  rw [← decimalInt_natCast]
  refine parseInteger_decimalInt ?_
  rw [kesselCliMaxLine] at h
  omega

/-- A header line ends where it ends. -/
theorem mem_decimal {n : Nat} {c : UInt8} (h : c ∈ decimal n) : c ≠ 10 ∧ c ≠ 0 :=
  (isDigit_plain (isDigit_decimal n c h)).2.2.2

/-! ## responses -/

/-- A response of the server. -/
inductive CliFrame where
  | simple (text : List UInt8)
  | error (text : List UInt8)
  | integer (value : Int)
  | bulk (data : List UInt8)
  | nil
  | message (channel text : List UInt8)
  deriving DecidableEq, Repr

namespace CliFrame

/-- The frame of a response. -/
def encode : CliFrame → List UInt8
  | .simple text => simpleFrame text
  | .error text => errorFrame text
  | .integer value => intFrame value
  | .bulk data => bulkFrame data
  | .nil => nilFrame
  | .message channel text => messageFrame channel text

def kind : CliFrame → ResponseKind
  | .simple _ => .simple
  | .error _ => .error
  | .integer _ => .integer
  | .bulk _ => .bulk
  | .nil => .bulk
  | .message _ _ => .array

/-- What the client prints for a response. -/
def rendered : CliFrame → List UInt8
  | .simple text => text ++ [10]
  | .error text => ascii "(error) " ++ (ascii "ERR " ++ text) ++ [10]
  | .integer value => ascii "(integer) " ++ decimalInt value ++ [10]
  | .bulk data => data ++ [10]
  | .nil => ascii "(nil)\n"
  | .message channel text => ascii "message" ++ ([32] ++ channel ++ ([32] ++ text)) ++ [10]

/-- The texts are lines of C strings, and everything has a size that the client
takes. -/
def Valid : CliFrame → Prop
  | .simple text => 10 ∉ text ∧ 0 ∉ text ∧ text.length ≤ 65000
  | .error text => 10 ∉ text ∧ 0 ∉ text ∧ text.length ≤ 65000
  | .integer value => -2 ^ 63 ≤ value ∧ value < 2 ^ 63
  | .bulk data => data.length ≤ kesselCliMaxLine
  | .nil => True
  | .message channel text => channel.length ≤ kesselCliMaxLine ∧ text.length ≤ kesselCliMaxLine

instance (f : CliFrame) : Decidable f.Valid :=
  match f with
  | .simple _ => inferInstanceAs (Decidable (_ ∧ _ ∧ _))
  | .error _ => inferInstanceAs (Decidable (_ ∧ _ ∧ _))
  | .integer _ => inferInstanceAs (Decidable (_ ∧ _))
  | .bulk _ => inferInstanceAs (Decidable (_ ≤ _))
  | .nil => inferInstanceAs (Decidable True)
  | .message _ _ => inferInstanceAs (Decidable (_ ∧ _))

/-- Something is printed for every frame. -/
theorem rendered_ne_nil (f : CliFrame) : f.rendered ≠ [] := by
  cases f <;> simp [rendered, ascii]

/-- Every frame has bytes. -/
theorem encode_ne_nil (f : CliFrame) : f.encode ≠ [] := by
  cases f <;> simp [encode, simpleFrame, errorFrame, intFrame, bulkFrame, nilFrame,
    messageFrame, arrayHeader, ascii]

end CliFrame

/-- The items of an array from the `i`th on, as they are printed. -/
def itemsText (i : Nat) : List (List UInt8) → List UInt8
  | [] => []
  | data :: items => ((if i > 0 then [32] else []) ++ data) ++ itemsText (i + 1) items

section

variable {inv filled : Cli → Prop} {bad : ResponseStatus → Cli → Prop} {wait : Cli → Prop} {c : Cli}
  {rest : List UInt8}

/-- The header of a bulk string. -/
theorem bulkLength_spec (hinv : inv c) {n : Nat} (h : n ≤ kesselCliMaxLine) :
    Ends (fun length c' => length = (n : Int) ∧ Reads inv c c.ahead [] c') bad wait
      (bulkLength (.ofBytes (decimal n)) c) := by
  rw [bulkLength, parseInteger_decimal h]
  dsimp only
  rw [if_neg (by omega)]
  exact .pure ⟨rfl, .refl hinv⟩

variable (hfeed : Feed inv filled bad wait)
include hfeed

/-- A bulk string behind its header. -/
theorem renderData_spec (hinv : inv c) {data : List UInt8}
    (hahead : c.ahead = data ++ (crlf ++ rest)) :
    Ends (fun _ => Reads inv c rest data) bad wait
      ((renderPayload data.length >>= fun _ => readTerminator) c) := by
  refine (renderPayload_spec hfeed hinv hahead).bind ?_
  intro _ c₁ h₁
  refine (readTerminator_spec hfeed h₁.inv h₁.ahead).imp ?_
  intro _ c₂ h₂
  simpa using h₁.trans h₂

/-- **`render_bulk`** prints the payload, and reads its line end. -/
theorem renderBulk_spec (hinv : inv c) {data : List UInt8} (hlen : data.length ≤ kesselCliMaxLine)
    (hahead : c.ahead = data ++ (crlf ++ rest)) :
    Ends (fun _ => Reads inv c rest (data ++ [10])) bad wait
      (renderBulk (.ofBytes (decimal data.length)) c) := by
  unfold renderBulk
  refine (bulkLength_spec hinv hlen).bind ?_
  rintro _ c₁ ⟨rfl, h₁⟩
  rw [if_neg (by omega), Int.toNat_natCast]
  refine (renderPayload_spec hfeed h₁.inv (h₁.ahead.trans hahead)).bind ?_
  intro _ c₂ h₂
  refine (readTerminator_spec hfeed h₂.inv h₂.ahead).bind ?_
  intro _ c₃ h₃
  refine (hfeed.write c₃ [10] h₃.inv).imp ?_
  intro _ c₄ h₄
  rw [h₃.ahead] at h₄
  exact h₁.trans_nil (h₂.trans (h₃.trans_nil h₄))

/-- An item of an array, with the space before it. -/
theorem renderItem_spec (hinv : inv c) (i : Nat) {data : List UInt8}
    (hlen : data.length ≤ kesselCliMaxLine) (hahead : c.ahead = bulkFrame data ++ rest) :
    Ends (fun _ => Reads inv c rest ((if i > 0 then [32] else []) ++ data)) bad wait
      (renderItem i c) := by
  have hsplit : bulkFrame data ++ rest =
      36 :: (decimal data.length ++ (crlf ++ (data ++ (crlf ++ rest)))) := by
    simp [bulkFrame, ascii]
  have hheader : (decimal data.length).length + 1 < 32 := by
    have := length_decimal_request (show data.length ≤ ksMaxRequest from hlen)
    omega
  rw [hsplit] at hahead
  unfold renderItem
  refine (readByte_spec hfeed hinv hahead).bind ?_
  rintro _ c₁ ⟨rfl, h₁⟩
  rw [if_pos rfl]
  refine (readHeader_spec hfeed h₁.inv (fun hc => (mem_decimal hc).1 rfl) hheader h₁.ahead).bind ?_
  rintro _ c₂ ⟨rfl, h₂⟩
  refine (bulkLength_spec h₂.inv hlen).bind ?_
  rintro _ c₃ ⟨rfl, h₃⟩
  -- the space between two items
  have hspace : Ends (fun _ => Reads inv c₃ c₃.ahead (if i > 0 then [32] else [])) bad wait
      (renderSpace i c₃) := by
    unfold renderSpace
    split
    · exact hfeed.write c₃ [32] h₃.inv
    · exact .pure (.refl h₃.inv)
  refine hspace.bind ?_
  intro _ c₄ h₄
  have hlength : ((data.length : Nat) : Int) ≠ -1 := by omega
  rw [if_neg hlength, Int.toNat_natCast]
  have hdata : c₄.ahead = data ++ (crlf ++ rest) := by rw [h₄.ahead, h₃.ahead, h₂.ahead]
  refine (renderData_spec hfeed h₄.inv hdata).imp ?_
  intro _ c₅ h₅
  exact h₁.trans_nil (h₂.trans_nil (h₃.trans_nil (h₄.trans h₅)))

/-- A header that the header of a response holds. -/
theorem readHeader_response (hinv : inv c) {header : List UInt8} (hten : 10 ∉ header)
    (hlen : header.length ≤ 65004) (hahead : c.ahead = header ++ (crlf ++ rest)) :
    Ends (fun out c' => out = .ofBytes header ∧ Reads inv c rest [] c') bad wait
      (readHeader (kesselCliMaxLine + 1) c) :=
  readHeader_spec hfeed hinv hten (by rw [kesselCliMaxLine]; omega) hahead

/-- **The loop of `render_array`** prints the items, numbered. -/
theorem renderItems_spec (hinv : inv c) (i : Nat) {items : List (List UInt8)}
    (hlen : ∀ data ∈ items, data.length ≤ kesselCliMaxLine)
    (hahead : c.ahead = items.flatMap bulkFrame ++ rest) :
    Ends (fun _ => Reads inv c rest (itemsText i items)) bad wait
      (renderItems i items.length c) := by
  induction items generalizing c i with
  | nil =>
    have hrest : c.ahead = rest := hahead
    exact .pure (hrest ▸ .refl hinv)
  | cons data items ih =>
    rw [List.forall_mem_cons] at hlen
    rw [List.flatMap_cons, List.append_assoc] at hahead
    rw [List.length_cons, renderItems]
    refine (renderItem_spec hfeed hinv i hlen.1 hahead).bind ?_
    intro _ c₁ h₁
    refine (ih h₁.inv (i + 1) hlen.2 h₁.ahead).imp ?_
    intro _ c₂ h₂
    exact h₁.trans h₂

/-- The array of a message behind its header. -/
theorem renderMessage_spec (hinv : inv c) {channel text : List UInt8}
    (hchannel : channel.length ≤ kesselCliMaxLine) (htext : text.length ≤ kesselCliMaxLine)
    (hahead : c.ahead = [ascii "message", channel, text].flatMap bulkFrame ++ rest) :
    Ends (fun _ => Reads inv c rest (CliFrame.message channel text).rendered) bad wait
      (renderArray (.ofBytes (decimal 3)) c) := by
  have hlen : ∀ data ∈ [ascii "message", channel, text], data.length ≤ kesselCliMaxLine := by
    simp only [List.forall_mem_cons]
    exact ⟨by decide, hchannel, htext, by simp⟩
  rw [renderArray, parseInteger_decimal (by decide)]
  dsimp only
  rw [if_neg (by decide)]
  refine (renderItems_spec hfeed hinv 0 hlen hahead).bind ?_
  intro _ c₁ h₁
  refine (hfeed.write c₁ [10] h₁.inv).imp ?_
  intro _ c₂ h₂
  rw [h₁.ahead] at h₂
  simpa [itemsText, CliFrame.rendered] using h₁.trans h₂

/-- The first byte and the header of a response. -/
theorem renderResponse_header (hinv : inv c) {type : UInt8} {header : List UInt8}
    {good : ResponseKind → Cli → Prop} (hten : 10 ∉ header) (hlen : header.length ≤ 65004)
    (hahead : c.ahead = type :: (header ++ (crlf ++ rest)))
    (h : ∀ c', Reads inv c rest [] c' → Ends good bad wait (renderKind type (.ofBytes header) c')) :
    Ends good bad wait (renderResponse c) := by
  unfold renderResponse
  refine (readByte_spec hfeed hinv hahead).bind ?_
  rintro _ c₁ ⟨rfl, h₁⟩
  refine (readHeader_response hfeed h₁.inv hten hlen h₁.ahead).bind ?_
  rintro _ c₂ ⟨rfl, h₂⟩
  exact h c₂ (h₁.trans_nil h₂)

/-- A response whose header is printed. -/
theorem printOut_kind {c' : Cli} (h : Reads inv c rest [] c') (text : List UInt8) (kind : ResponseKind) :
    Ends (fun k c'' => k = kind ∧ Reads inv c rest text c'') bad wait
      ((printOut text >>= fun _ => pure kind) c') := by
  refine (printOut_spec hfeed h.inv text).bind ?_
  intro _ c'' h'
  rw [h.ahead] at h'
  exact .pure ⟨rfl, h.trans_nil h'⟩

/-- **One response.** -/
theorem renderResponse_spec (hinv : inv c) {f : CliFrame} (hvalid : f.Valid)
    (hahead : c.ahead = f.encode ++ rest) :
    Ends (fun kind c' => kind = f.kind ∧ Reads inv c rest f.rendered c') bad wait
      (renderResponse c) := by
  cases f with
  | simple text =>
    obtain ⟨hten, hnul, hlen⟩ := hvalid
    have hsplit : (CliFrame.simple text).encode ++ rest = 43 :: (text ++ (crlf ++ rest)) := by
      simp [CliFrame.encode, simpleFrame, ascii]
    refine renderResponse_header hfeed hinv hten (by omega) (hahead.trans hsplit) ?_
    intro c' h
    rw [renderKind, if_pos rfl, bytes_ofBytes hnul]
    exact printOut_kind hfeed h _ _
  | error text =>
    obtain ⟨hten, hnul, hlen⟩ := hvalid
    have hsplit : (CliFrame.error text).encode ++ rest =
        45 :: (ascii "ERR " ++ text ++ (crlf ++ rest)) := by
      simp [CliFrame.encode, errorFrame, ascii]
    have hten' : 10 ∉ ascii "ERR " ++ text := by
      rw [List.mem_append, not_or]
      exact ⟨by decide, hten⟩
    have hnul' : 0 ∉ ascii "ERR " ++ text := by
      rw [List.mem_append, not_or]
      exact ⟨by decide, hnul⟩
    have hlen' : (ascii "ERR " ++ text).length ≤ 65004 := by
      rw [List.length_append, show (ascii "ERR ").length = 4 by decide]
      omega
    refine renderResponse_header hfeed hinv hten' hlen' (hahead.trans hsplit) ?_
    intro c' h
    rw [renderKind, if_neg (by decide), if_pos rfl, bytes_ofBytes hnul']
    exact printOut_kind hfeed h _ _
  | integer value =>
    have hsplit : (CliFrame.integer value).encode ++ rest =
        58 :: (decimalInt value ++ (crlf ++ rest)) := by
      simp [CliFrame.encode, intFrame, ascii]
    have hlen : (decimalInt value).length ≤ 65004 := by
      have hdigits : (decimalInt value).length ≤ 19 + 1 :=
        length_decimalInt_le (by decide) (by have := hvalid.1; have := hvalid.2; omega)
      omega
    refine renderResponse_header hfeed hinv (fun hc => (mem_decimalInt hc).1 rfl) hlen
      (hahead.trans hsplit) ?_
    intro c' h
    rw [renderKind, if_neg (by decide), if_neg (by decide), if_pos rfl, parseInteger_decimalInt hvalid]
    exact printOut_kind hfeed h _ _
  | bulk data =>
    have hsplit : (CliFrame.bulk data).encode ++ rest =
        36 :: (decimal data.length ++ (crlf ++ (data ++ (crlf ++ rest)))) := by
      simp [CliFrame.encode, bulkFrame, ascii]
    have hlen : (decimal data.length).length ≤ 65004 := by
      have := length_decimal_request (show data.length ≤ ksMaxRequest from hvalid)
      omega
    refine renderResponse_header hfeed hinv (fun hc => (mem_decimal hc).1 rfl) hlen
      (hahead.trans hsplit) ?_
    intro c' h
    rw [renderKind, if_neg (by decide), if_neg (by decide), if_neg (by decide), if_pos rfl]
    refine (renderBulk_spec hfeed h.inv hvalid h.ahead).bind ?_
    intro _ c'' h'
    exact .pure ⟨rfl, h.trans_nil h'⟩
  | nil =>
    have hsplit : CliFrame.nil.encode ++ rest = 36 :: (decimalInt (-1) ++ (crlf ++ rest)) := by
      simp [CliFrame.encode, nilFrame, ascii, decimalInt, decimal]
    refine renderResponse_header hfeed hinv (by decide) (by decide) (hahead.trans hsplit) ?_
    intro c' h
    rw [renderKind, if_neg (by decide), if_neg (by decide), if_neg (by decide), if_pos rfl,
      renderBulk, bulkLength, parseInteger_decimalInt (by decide)]
    exact printOut_kind hfeed h _ _
  | message channel text =>
    have hsplit : (CliFrame.message channel text).encode ++ rest = 42 :: (decimal 3 ++ (crlf ++
        ([ascii "message", channel, text].flatMap bulkFrame ++ rest))) := by
      simp [CliFrame.encode, messageFrame, arrayHeader, ascii]
    refine renderResponse_header hfeed hinv (by decide) (by decide) (hahead.trans hsplit) ?_
    intro c' h
    rw [renderKind, if_neg (by decide), if_neg (by decide), if_neg (by decide), if_neg (by decide),
      if_pos rfl]
    refine (renderMessage_spec hfeed h.inv hvalid.1 hvalid.2 h.ahead).bind ?_
    intro _ c'' h'
    exact .pure ⟨rfl, h.trans_nil h'⟩

end

end Kessel
