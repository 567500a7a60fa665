import Kessel.Broker
import Kessel.Cli.Render
import Kessel.Server.Publish

/-!
# Kessel.Server.Service

What the server is for: a broker whose requests are lines and whose replies are
frames.

`commandMeaning` says what each command asks for, `KsTells` which frame says an
answer, and `ksProtocol` puts them together.  `KsReply.Says` is a reply that is
one frame, whole.
-/

namespace Kessel

open Broker CStr

/-! ## what is asked for -/

abbrev KsAsk := Ask CStr (List UInt8) CStr
abbrev KsAnswer := Answer (List UInt8)

/-- The clock of the store, in milliseconds. -/
def ksScale : Scale := ⟨1000, 2 ^ 64⟩

/-- What a request is: a fixed reply, or something that is asked for. -/
abbrev KsMeaning := CliFrame ⊕ KsAsk

def arityError (command : String) : CliFrame :=
  .error (ascii "wrong number of arguments to '" ++ ascii command ++ ascii "'")

def nullary (command : String) (m : KsMeaning) : List CStr → KsMeaning
  | [] => m
  | _ => .inl (arityError command)

def unary (command : String) (m : CStr → KsMeaning) : List CStr → KsMeaning
  | [a] => m a
  | _ => .inl (arityError command)

def binary (command : String) (m : CStr → CStr → KsMeaning) : List CStr → KsMeaning
  | [a, b] => m a b
  | _ => .inl (arityError command)

def ternary (command : String) (m : CStr → CStr → CStr → KsMeaning) : List CStr → KsMeaning
  | [a, b, c] => m a b c
  | _ => .inl (arityError command)

section

variable {command : String} {args : List CStr}

/-- The meaning of a command without arguments, given some. -/
theorem nullary_of_ne {m : KsMeaning} (h : args ≠ []) :
    nullary command m args = .inl (arityError command) := by
  unfold nullary
  split
  · exact absurd rfl h
  · rfl

/-- The meaning of a command with one argument, given another number of them. -/
theorem unary_of_ne {m : CStr → KsMeaning} (h : ∀ a, args ≠ [a]) :
    unary command m args = .inl (arityError command) := by
  unfold unary
  split
  · exact absurd rfl (h _)
  · rfl

/-- The meaning of a command with two arguments, given another number of them. -/
theorem binary_of_ne {m : CStr → CStr → KsMeaning} (h : ∀ a b, args ≠ [a, b]) :
    binary command m args = .inl (arityError command) := by
  unfold binary
  split
  · exact absurd rfl (h _ _)
  · rfl

/-- The meaning of a command with three arguments, given another number. -/
theorem ternary_of_ne {m : CStr → CStr → CStr → KsMeaning} (h : ∀ a b c, args ≠ [a, b, c]) :
    ternary command m args = .inl (arityError command) := by
  unfold ternary
  split
  · exact absurd rfl (h _ _ _)
  · rfl

end

def invalidTime : CliFrame := .error (ascii "invalid expire time")

/-- A value with a lifetime, which must be positive. -/
def setexMeaning (key seconds value : CStr) : KsMeaning :=
  match parseSeconds seconds with
  | none => .inl invalidTime
  | some n => if n ≤ 0 then .inl invalidTime else .inr (.set key value.bytes (some n.toNat))

/-- A lifetime; one that is over removes the key. -/
def expireMeaning (key seconds : CStr) : KsMeaning :=
  match parseSeconds seconds with
  | none => .inl invalidTime
  | some n => if n ≤ 0 then .inr (.remove key) else .inr (.expire key n.toNat)

def subscribeMeaning (channel : CStr) : KsMeaning :=
  if channel.bytes = [] then .inl (.error (ascii "invalid channel")) else .inr (.subscribe channel)

/-- What a command asks for. -/
def commandMeaning (name : CStr) (args : List CStr) : KsMeaning :=
  if name.bytes = ascii "PING" then nullary "PING" (.inl (.simple (ascii "PONG"))) args
  else if name.bytes = ascii "ECHO" then unary "ECHO" (fun text => .inl (.bulk text.bytes)) args
  else if name.bytes = ascii "HELP" then nullary "HELP" (.inl (.bulk helpText)) args
  else if name.bytes = ascii "SET" then
    binary "SET" (fun key value => .inr (.set key value.bytes none)) args
  else if name.bytes = ascii "GET" then unary "GET" (fun key => .inr (.get key)) args
  else if name.bytes = ascii "DEL" then unary "DEL" (fun key => .inr (.remove key)) args
  else if name.bytes = ascii "EXISTS" then unary "EXISTS" (fun key => .inr (.contains key)) args
  else if name.bytes = ascii "SETEX" then ternary "SETEX" setexMeaning args
  else if name.bytes = ascii "EXPIRE" then binary "EXPIRE" expireMeaning args
  else if name.bytes = ascii "TTL" then unary "TTL" (fun key => .inr (.lifetime key)) args
  else if name.bytes = ascii "SUBSCRIBE" then unary "SUBSCRIBE" subscribeMeaning args
  else if name.bytes = ascii "UNSUBSCRIBE" then
    unary "UNSUBSCRIBE" (fun channel => .inr (.unsubscribe channel)) args
  else if name.bytes = ascii "PUBLISH" then
    binary "PUBLISH" (fun channel message => .inr (.publish channel message.bytes)) args
  else if name.bytes = ascii "INFO" then nullary "INFO" (.inr .census) args
  else .inl (.error (ascii "unknown command"))

/-- The meaning of `PUBLISH`. -/
theorem commandMeaning_publish {name : CStr} (hname : name.bytes = ascii "PUBLISH")
    (args : List CStr) :
    commandMeaning name args =
      binary "PUBLISH" (fun channel message => .inr (.publish channel message.bytes)) args := by
  unfold commandMeaning
  simp only [hname]
  rw [if_neg (by decide), if_neg (by decide), if_neg (by decide), if_neg (by decide),
    if_neg (by decide), if_neg (by decide), if_neg (by decide), if_neg (by decide),
    if_neg (by decide), if_neg (by decide), if_neg (by decide), if_neg (by decide), if_pos trivial]

/-- What a request of the stream asks for. -/
def requestMeaning : KsRequest → KsMeaning
  | .command line =>
    match readLine line with
    | none => .inl (.error (ascii "invalid command"))
    | some (name, args) => commandMeaning (.ofBytes name) (args.map .ofBytes)
  | request => .inl (.error request.message)

/-! ## what is answered -/

def flagFrame (b : Bool) : CliFrame := .integer (if b then 1 else 0)

/-- The frame that says an answer. -/
inductive KsTells : KsAsk → KsAnswer → CliFrame → Prop where
  | stored (key : CStr) (value : List UInt8) (seconds : Option Nat) :
      KsTells (.set key value seconds) .done (.simple (ascii "OK"))
  | notStored (key : CStr) (value : List UInt8) (seconds : Option Nat) :
      KsTells (.set key value seconds) .refused (.error (ascii "unable to store value"))
  | found (key : CStr) (value : List UInt8) : KsTells (.get key) (.value (some value)) (.bulk value)
  | missing (key : CStr) : KsTells (.get key) (.value none) .nil
  | removed (key : CStr) (b : Bool) : KsTells (.remove key) (.flag b) (flagFrame b)
  | contained (key : CStr) (b : Bool) : KsTells (.contains key) (.flag b) (flagFrame b)
  | expires (key : CStr) (seconds : Nat) (b : Bool) :
      KsTells (.expire key seconds) (.flag b) (flagFrame b)
  | outOfRange (key : CStr) (seconds : Nat) : KsTells (.expire key seconds) .refused invalidTime
  | left (key : CStr) (n : Int) : KsTells (.lifetime key) (.number n) (.integer n)
  | subscribed (channel : CStr) : KsTells (.subscribe channel) .done (.simple (ascii "OK"))
  | notSubscribed (channel : CStr) :
      KsTells (.subscribe channel) .refused (.error (ascii "unable to subscribe"))
  | unsubscribed (channel : CStr) (b : Bool) :
      KsTells (.unsubscribe channel) (.flag b) (flagFrame b)
  | published (channel : CStr) (message : List UInt8) (n : Int) :
      KsTells (.publish channel message) (.number n) (.integer n)
  | counted (uptime : Int) (metrics : KsServerMetrics) (maxClients keys channels subs : Nat) :
      KsTells .census (.census keys channels subs)
        (.bulk (infoText uptime metrics maxClients keys (UInt64.ofNat channels)
          (UInt64.ofNat subs)))

def ksProtocol : Protocol CStr (List UInt8) CStr KsRequest CliFrame := ⟨requestMeaning, KsTells⟩

/-! ## frames -/

/-- The reply is the frame, which a client can read. -/
structure KsReply.Says (f : CliFrame) (reply : KsReply) : Prop where
  valid : f.Valid
  answers : ∀ channel text, f ≠ .message channel text
  sends : reply.Sends f.encode

/-- An error says its message. -/
theorem says_error {message : List UInt8}
    (h : message.length < 249 ∧ 10 ∉ message ∧ 0 ∉ message) :
    (KsReply.error message).Says (.error message) where
  valid := ⟨h.2.1, h.2.2, by omega⟩
  answers := by simp
  sends := by
    have hlen := length_errorFrame message
    exact ⟨rfl, by simp only [CliFrame.encode]; omega⟩

/-- The arity error says the name of the command. -/
theorem says_wrongArity {command : String}
    (h : (ascii command).length ≤ 64 ∧ 10 ∉ ascii command ∧ 0 ∉ ascii command) :
    (wrongArity command).Says (arityError command) := by
  have hlead : (ascii "wrong number of arguments to '").length = 30 := by decide
  have hquote : (ascii "'").length = 1 := by decide
  have hlead' : 10 ∉ ascii "wrong number of arguments to '" ∧
    0 ∉ ascii "wrong number of arguments to '" := by decide
  have hquote' : 10 ∉ ascii "'" ∧ 0 ∉ ascii "'" := by decide
  refine says_error ⟨?_, ?_, ?_⟩
  · simp only [List.length_append, hlead, hquote]
    omega
  · simp [h.2.1, hlead'.1, hquote'.1]
  · simp [h.2.2, hlead'.2, hquote'.2]

/-- A simple reply says its text. -/
theorem says_simple {text : List UInt8} (h : text.length ≤ 64 ∧ 10 ∉ text ∧ 0 ∉ text) :
    (respond (ksFmtSimple · · · text)).Says (.simple text) where
  valid := ⟨h.2.1, h.2.2, by omega⟩
  answers := by simp
  sends := by
    have hformat := ksFmtSimple_formatted blank 0 text
      (show text.length + 3 < ksResponseCap by simp only [ksResponseCap, ksMaxRequest]; omega)
    exact ⟨hformat.length, hformat.bytes⟩

/-- `OK` says so. -/
theorem says_ok : (respond (ksFmtSimple · · · (ascii "OK"))).Says (.simple (ascii "OK")) :=
  says_simple (by decide)

/-- A number says itself, when a signed 64-bit number holds it. -/
theorem says_int {v : Int} (h : -2 ^ 63 ≤ v ∧ v < 2 ^ 63) :
    (respond (ksFmtInt · · · v)).Says (.integer v) where
  valid := h
  answers := by simp
  sends := sends_int (by omega)

/-- A flag says 1 or 0. -/
theorem says_flag (b : Bool) :
    (respond (ksFmtInt · · · (if b then 1 else 0))).Says (flagFrame b) :=
  says_int (by cases b <;> decide)

/-- A bulk frame says its text. -/
theorem says_bulk {text : List UInt8} (h : text.length ≤ ksMaxRequest) :
    (respond (ksFmtBulk · · · text)).Says (.bulk text) where
  valid := h
  answers := by simp
  sends := by
    have hdigits := length_decimal_request h
    have hformat := ksFmtBulk_formatted blank 0 text
      (show (decimal text.length).length + text.length + 5 < ksResponseCap by
        simp only [ksResponseCap]; omega)
    exact ⟨hformat.length, hformat.bytes⟩

/-- The nil reply says that there is nothing. -/
theorem says_nil : (respond ksFmtNil).Says .nil where
  valid := trivial
  answers := by simp
  sends := by
    have hformat := ksFmtNil_formatted blank 0 (show 6 ≤ ksResponseCap by decide)
    exact ⟨hformat.length, hformat.bytes⟩

end Kessel
