import Kessel.Protocol.Bounds
import Kessel.Server.Deliver

/-!
# Kessel.Server.Message

The frame of a published message at the limits of its buffer.

`format_pubsub_message` writes four frames one behind another, each into the
room the ones before have left.  `formatPubsubMessage_allOrNothing` says that
the four together are again all or nothing; `formatters_safe` collects
what holds of every formatter, with no size computation wrapping.
-/

namespace Kessel

open CStr (ascii)
open Word
open Checked (sizeAdd sizeSub sizeAdd_of_le sizeSub_of_le)

/-! ## `format_pubsub_message` -/

/-- **`format_pubsub_message`** writes its frame whole, or nothing. -/
theorem formatPubsubMessage_allOrNothing (m : Mem) (cap : Nat) (channel message : List UInt8) :
    AllOrNothing m 0 cap (messageFrame channel message)
      (formatPubsubMessage m cap channel message) := by
  have f₁ : AllOrNothing m 0 cap (arrayHeader 3) (ksFmtArrayHeader m 0 cap 3) :=
    (formatLine_allOrEmpty m 0 cap (by decide)).toAllOrNothing
  unfold formatPubsubMessage
  generalize ksFmtArrayHeader m 0 cap 3 = a₁ at *
  obtain ⟨m₁, offset⟩ := a₁
  simp only
  by_cases h₁ : offset = 0
  · rw [if_pos h₁, messageFrame, List.append_assoc, List.append_assoc]
    exact f₁.append_of_failed h₁ _
  rw [if_neg h₁]
  have f₂ := f₁.append h₁ (by
    rw [Nat.zero_add]
    exact (ksFmtBulk_allOrEmpty m₁ offset (cap - offset) (ascii "message")).toAllOrNothing)
  generalize ksFmtBulk m₁ offset (cap - offset) (ascii "message") = a₂ at *
  obtain ⟨m₂, written⟩ := a₂
  simp only at f₂ ⊢
  by_cases h₂ : written = 0
  · rw [if_pos h₂] at f₂ ⊢
    rw [messageFrame, List.append_assoc]
    exact f₂.append_of_failed rfl _
  rw [if_neg h₂] at f₂ ⊢
  have f₃ := f₂.append (by simp only; omega) (by
    rw [Nat.zero_add]
    exact (ksFmtBulk_allOrEmpty m₂ (offset + written) (cap - (offset + written)) channel).toAllOrNothing)
  generalize ksFmtBulk m₂ (offset + written) (cap - (offset + written)) channel = a₃ at *
  obtain ⟨m₃, written'⟩ := a₃
  simp only at f₃ ⊢
  by_cases h₃ : written' = 0
  · rw [if_pos h₃] at f₃ ⊢
    exact f₃.append_of_failed rfl _
  rw [if_neg h₃] at f₃ ⊢
  have f₄ := f₃.append (by simp only; omega) (by
    rw [Nat.zero_add]
    exact (ksFmtBulk_allOrEmpty m₃ (offset + written + written')
      (cap - (offset + written + written')) message).toAllOrNothing)
  exact f₄

/-! ### its size computations -/

/-- `format_pubsub_message`, with every size computation checked. -/
def Checked.formatPubsubMessage (response : Mem) (capacity : Nat) (channel message : List UInt8) :
    Option (Mem × Nat) :=
  (Checked.ksFmtArrayHeader response 0 capacity 3).bind fun (response, offset) =>
    if offset = 0 then some (response, 0)
    else
      (sizeSub capacity offset).bind fun room =>
        (Checked.ksFmtBulk response offset room (ascii "message")).bind fun (response, written) =>
          if written = 0 then some (response, 0)
          else
            (sizeAdd offset written).bind fun offset =>
              (sizeSub capacity offset).bind fun room =>
                (Checked.ksFmtBulk response offset room channel).bind fun (response, written) =>
                  if written = 0 then some (response, 0)
                  else
                    (sizeAdd offset written).bind fun offset =>
                      (sizeSub capacity offset).bind fun room =>
                        (Checked.ksFmtBulk response offset room message).bind
                          fun (response, written) =>
                            if written = 0 then some (response, 0)
                            else (sizeAdd offset written).map fun length => (response, length)

/-- The sizes of a message are computed without overflow. -/
theorem Checked.formatPubsubMessage_eq (m : Mem) {cap : Nat} {channel message : List UInt8}
    (hcap : cap ≤ sizeMax) (hchannel : channel.length ≤ sizeMax) (hmessage : message.length ≤ sizeMax) :
    Checked.formatPubsubMessage m cap channel message =
      some (Kessel.formatPubsubMessage m cap channel message) := by
  have hkind : (ascii "message").length ≤ sizeMax := by
    unfold sizeMax
    decide
  have hheader : Checked.ksFmtArrayHeader m 0 cap 3 = some (Kessel.ksFmtArrayHeader m 0 cap 3) :=
    Checked.formatLine_eq m 0 cap (by decide)
  have f₁ : AllOrNothing m 0 cap (arrayHeader 3) (Kessel.ksFmtArrayHeader m 0 cap 3) :=
    (formatLine_allOrEmpty m 0 cap (by decide)).toAllOrNothing
  unfold Checked.formatPubsubMessage Kessel.formatPubsubMessage
  rw [hheader, Option.bind_some]
  generalize Kessel.ksFmtArrayHeader m 0 cap 3 = a₁ at *
  obtain ⟨m₁, offset⟩ := a₁
  simp only
  by_cases h₁ : offset = 0
  · rw [if_pos h₁, if_pos h₁]
  have hlt₁ := f₁.lt_cap h₁
  simp only at hlt₁
  rw [if_neg h₁, if_neg h₁, sizeSub_of_le (by omega), Option.bind_some,
    Checked.ksFmtBulk_eq m₁ offset (by omega) hkind, Option.bind_some]
  have f₂ := ksFmtBulk_allOrEmpty m₁ offset (cap - offset) (ascii "message")
  generalize Kessel.ksFmtBulk m₁ offset (cap - offset) (ascii "message") = a₂ at *
  obtain ⟨m₂, written⟩ := a₂
  simp only
  by_cases h₂ : written = 0
  · rw [if_pos h₂, if_pos h₂]
  have hlt₂ := f₂.lt_cap h₂
  simp only at hlt₂
  rw [if_neg h₂, if_neg h₂, sizeAdd_of_le (by omega), Option.bind_some, sizeSub_of_le (by omega),
    Option.bind_some, Checked.ksFmtBulk_eq m₂ (offset + written) (by omega) hchannel, Option.bind_some]
  have f₃ := ksFmtBulk_allOrEmpty m₂ (offset + written) (cap - (offset + written)) channel
  generalize Kessel.ksFmtBulk m₂ (offset + written) (cap - (offset + written)) channel = a₃ at *
  obtain ⟨m₃, written'⟩ := a₃
  simp only
  by_cases h₃ : written' = 0
  · rw [if_pos h₃, if_pos h₃]
  have hlt₃ := f₃.lt_cap h₃
  simp only at hlt₃
  rw [if_neg h₃, if_neg h₃, sizeAdd_of_le (by omega), Option.bind_some, sizeSub_of_le (by omega),
    Option.bind_some, Checked.ksFmtBulk_eq m₃ (offset + written + written') (by omega) hmessage,
    Option.bind_some]
  have f₄ := ksFmtBulk_allOrEmpty m₃ (offset + written + written')
    (cap - (offset + written + written')) message
  generalize Kessel.ksFmtBulk m₃ (offset + written + written')
    (cap - (offset + written + written')) message = a₄ at *
  obtain ⟨m₄, written''⟩ := a₄
  simp only
  by_cases h₄ : written'' = 0
  · rw [if_pos h₄, if_pos h₄]
  have hlt₄ := f₄.lt_cap h₄
  simp only at hlt₄
  rw [if_neg h₄, if_neg h₄, sizeAdd_of_le (by omega)]
  rfl

/-! ## every formatter -/

/-- What holds of the formatters for the `cap` bytes at `dst`: each is all or
nothing, and none of its size computations wraps. -/
structure FormattersSafe (m : Mem) (dst cap : Nat) : Prop where
  simple : ∀ s : CStr, s.length < 2 ^ 31 - 16 →
    Checked.ksFmtSimple m dst cap s.bytes = some (ksFmtSimple m dst cap s.bytes) ∧
      AllOrEmpty m dst cap (simpleFrame s.bytes) (ksFmtSimple m dst cap s.bytes)
  error : ∀ msg : CStr, msg.length < 2 ^ 31 - 16 →
    Checked.ksFmtError m dst cap msg.bytes = some (ksFmtError m dst cap msg.bytes) ∧
      AllOrEmpty m dst cap (errorFrame msg.bytes) (ksFmtError m dst cap msg.bytes)
  int : ∀ v : Int64,
    Checked.ksFmtInt m dst cap v.toInt = some (ksFmtInt m dst cap v.toInt) ∧
      AllOrEmpty m dst cap (intFrame v.toInt) (ksFmtInt m dst cap v.toInt)
  bulk : ∀ s : List UInt8, s.length ≤ sizeMax →
    Checked.ksFmtBulk m dst cap s = some (ksFmtBulk m dst cap s) ∧
      AllOrEmpty m dst cap (bulkFrame s) (ksFmtBulk m dst cap s)
  nil : AllOrEmpty m dst cap nilFrame (ksFmtNil m dst cap)
  arrayHeader : ∀ count ≤ sizeMax,
    Checked.ksFmtArrayHeader m dst cap count = some (ksFmtArrayHeader m dst cap count) ∧
      AllOrEmpty m dst cap (arrayHeader count) (ksFmtArrayHeader m dst cap count)
  pubsubMessage : ∀ (channel : CStr) (message : List UInt8), channel.length ≤ sizeMax →
    message.length ≤ sizeMax →
      Checked.formatPubsubMessage m cap channel.bytes message =
          some (formatPubsubMessage m cap channel.bytes message) ∧
        AllOrNothing m 0 cap (messageFrame channel.bytes message)
          (formatPubsubMessage m cap channel.bytes message)

/-- **The formatters are all or nothing and never overrun**, for every buffer,
every text whose length is an `int` with the rest of its line, every integer and
every payload: a frame is written with its NUL exactly when both fit. -/
theorem formatters_safe (m : Mem) (dst : Nat) {cap : Nat} (hcap : cap ≤ sizeMax) :
    FormattersSafe m dst cap where
  simple s hs := by
    have hlen := length_simpleFrame s.bytes
    rw [CStr.length] at hs
    exact ⟨Checked.formatLine_eq m dst cap (show (simpleFrame s.bytes).length < 2 ^ 31 by omega),
      formatLine_allOrEmpty m dst cap (show 0 < (simpleFrame s.bytes).length by omega)⟩
  error msg hmsg := by
    have hlen := length_errorFrame msg.bytes
    rw [CStr.length] at hmsg
    exact ⟨Checked.formatLine_eq m dst cap (show (errorFrame msg.bytes).length < 2 ^ 31 by omega),
      formatLine_allOrEmpty m dst cap (show 0 < (errorFrame msg.bytes).length by omega)⟩
  int v := by
    have hlen := length_intFrame v.toInt
    have hdigits : (decimalInt v.toInt).length ≤ 20 := by
      have hlow := v.le_toInt
      have hhigh := v.toInt_lt
      exact length_decimalInt_le (by decide) (by omega)
    exact ⟨Checked.formatLine_eq m dst cap (show (intFrame v.toInt).length < 2 ^ 31 by omega),
      formatLine_allOrEmpty m dst cap (show 0 < (intFrame v.toInt).length by omega)⟩
  bulk s hs := ⟨Checked.ksFmtBulk_eq m dst hcap hs, ksFmtBulk_allOrEmpty m dst cap s⟩
  nil := ksFmtNil_allOrEmpty m dst cap
  arrayHeader count hcount := by
    have hlen := length_arrayHeader count
    have hdigits : (decimal count).length ≤ 20 :=
      length_decimal_le (by decide) (by unfold sizeMax at hcount; omega)
    exact ⟨Checked.formatLine_eq m dst cap
        (show (Kessel.arrayHeader count).length < 2 ^ 31 by omega),
      formatLine_allOrEmpty m dst cap (show 0 < (Kessel.arrayHeader count).length by omega)⟩
  pubsubMessage channel message hchannel hmessage :=
    ⟨Checked.formatPubsubMessage_eq m hcap hchannel hmessage,
      formatPubsubMessage_allOrNothing m cap channel.bytes message⟩

/-- A buffer of six bytes, room for `+OK` and no more. -/
theorem formatters_safe_six : FormattersSafe blank 0 6 :=
  formatters_safe blank 0 (by unfold sizeMax; decide)

end Kessel
