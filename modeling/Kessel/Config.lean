import Kessel.Cli.Line

/-!
# Kessel.Config

The configuration of the server (`ks_config.c`): defaults, the `KESSEL_*`
variables of the environment and the command line; and `valid_port` of the
client, the same check in another program.

The four settings are treated alike, so `KsSetting` names them: each has an
option, a variable, and a check that stores the value it accepts.  A function
that returns -1 answers `none`.
-/

namespace Kessel

open CStr (ascii)

/-! ## `strtol` and `strtoul` -/

/-- What a conversion answers: the value, the text at `*end`, and whether `errno`
is `ERANGE`. -/
structure KsConverted (α : Type) where
  value : α
  rest : List UInt8
  outOfRange : Bool
  deriving DecidableEq, Repr

/-- Whether there is a minus sign, and the text behind the sign, if any. -/
def splitSign : List UInt8 → Bool × List UInt8
  | 45 :: rest => (true, rest)
  | 43 :: rest => (false, rest)
  | text => (false, text)

/-- What a decimal conversion reads: whether there is a minus sign, the digits,
and the text behind them; `none` when there is no digit. -/
def subjectSequence (text : List UInt8) : Option (Bool × List UInt8 × List UInt8) :=
  let (negative, text) := splitSign (text.dropWhile isSpace)
  if text.takeWhile isDigit = [] then none
  else some (negative, text.takeWhile isDigit, text.dropWhile isDigit)

/-- The integer of a sign and digits. -/
def signedValue (negative : Bool) (ds : List UInt8) : Int :=
  if negative then -(digitsValue ds : Int) else digitsValue ds

/-- `strtol(text, &end, 10)`, with a `long` of 64 bits. -/
def strtol (text : List UInt8) : KsConverted Int :=
  match subjectSequence text with
  | none => ⟨0, text, false⟩
  | some (negative, ds, rest) =>
    let value := signedValue negative ds
    if value < -2 ^ 63 then ⟨-2 ^ 63, rest, true⟩
    else if 2 ^ 63 ≤ value then ⟨2 ^ 63 - 1, rest, true⟩
    else ⟨value, rest, false⟩

/-- `strtoul(text, &end, 10)`: only the digits are checked against the range, and
a minus sign negates their value modulo 2⁶⁴. -/
def strtoul (text : List UInt8) : KsConverted Nat :=
  match subjectSequence text with
  | none => ⟨0, text, false⟩
  | some (negative, ds, rest) =>
    if 2 ^ 64 ≤ digitsValue ds then ⟨2 ^ 64 - 1, rest, true⟩
    else ⟨if negative then (2 ^ 64 - digitsValue ds) % 2 ^ 64 else digitsValue ds, rest, false⟩

/-! ## the checks -/

/-- `parse_port` -/
def parsePort (s : CStr) : Option UInt16 :=
  let c := strtol s.bytes
  if c.outOfRange ∨ c.rest = s.bytes ∨ c.rest ≠ [] ∨ c.value < 1 ∨ c.value > 65535 then none
  else some (UInt16.ofNat c.value.toNat)

/-- `parse_max_clients` -/
def parseMaxClients (s : CStr) : Option Nat :=
  let c := strtoul s.bytes
  if c.outOfRange ∨ c.rest = s.bytes ∨ c.rest ≠ [] ∨ c.value < 1 ∨ c.value > 1023 then none
  else some c.value

/-- `valid_port` of the client. -/
def validPort (port : CStr) : Bool :=
  if port.bytes = [] then false
  else
    let c := strtoul port.bytes
    !c.outOfRange && c.rest = [] && 1 ≤ c.value && c.value ≤ 65535

/-- `0 == strcasecmp(s, name)` -/
def equalIgnoringCase (s : CStr) (name : List UInt8) : Bool :=
  s.bytes.map tolower = name.map tolower

/-- `parse_log_level` -/
def parseLogLevel (s : CStr) : Option Int :=
  if equalIgnoringCase s (ascii "DEBUG") then some 3
  else if equalIgnoringCase s (ascii "INFO") then some 2
  else if equalIgnoringCase s (ascii "WARN") then some 1
  else if equalIgnoringCase s (ascii "ERROR") then some 0
  else none

/-! ## settings -/

/-- `ks_config_t`, with every field. -/
structure KsSettings where
  host : CStr
  port : UInt16
  logLevel : Int
  maxClients : Nat
  deriving DecidableEq, Repr

/-- `ks_config_init` -/
def ksConfigInit : KsSettings where
  host := ⟨ascii "0.0.0.0", by decide⟩
  port := 7070
  logLevel := 2
  maxClients := 256

/-- `apply_host`, for a value that is not `NULL`. -/
def applyHost (cfg : KsSettings) (value : CStr) : Option KsSettings :=
  if value.bytes = [] then none else some { cfg with host := value }

/-- The settings. -/
inductive KsSetting where
  | host
  | port
  | logLevel
  | maxClients
  deriving DecidableEq, Repr

namespace KsSetting

/-- The option of the command line. -/
def option : KsSetting → CStr
  | .host => ⟨ascii "--host", by decide⟩
  | .port => ⟨ascii "--port", by decide⟩
  | .logLevel => ⟨ascii "--log", by decide⟩
  | .maxClients => ⟨ascii "--max-clients", by decide⟩

/-- The variable of the environment. -/
def variableName : KsSetting → CStr
  | .host => ⟨ascii "KESSEL_HOST", by decide⟩
  | .port => ⟨ascii "KESSEL_PORT", by decide⟩
  | .logLevel => ⟨ascii "KESSEL_LOG_LEVEL", by decide⟩
  | .maxClients => ⟨ascii "KESSEL_MAX_CLIENTS", by decide⟩

/-- Check a value and store it. -/
def apply : KsSetting → KsSettings → CStr → Option KsSettings
  | .host, cfg, value => applyHost cfg value
  | .port, cfg, value => (parsePort value).map fun port => { cfg with port }
  | .logLevel, cfg, value => (parseLogLevel value).map fun logLevel => { cfg with logLevel }
  | .maxClients, cfg, value => (parseMaxClients value).map fun maxClients => { cfg with maxClients }

/-- The `strcmp` chain of `ks_config_from_argv`. -/
def ofOption (arg : CStr) : Option KsSetting :=
  if arg = option .host then some .host
  else if arg = option .port then some .port
  else if arg = option .logLevel then some .logLevel
  else if arg = option .maxClients then some .maxClients
  else none

end KsSetting

/-! ## the environment -/

/-- One `getenv` of `config_from_env` and what is done with its value. -/
def applyVariable (getenv : CStr → Option CStr) (x : KsSetting) (use : Bool) (cfg : KsSettings) :
    Option KsSettings :=
  match getenv x.variableName with
  | none => some cfg
  | some value => if use then x.apply cfg value else some cfg

/-- `config_from_env` -/
def configFromEnv (getenv : CStr → Option CStr) (cfg : KsSettings)
    (useHost usePort useLogLevel useMaxClients : Bool) : Option KsSettings :=
  (applyVariable getenv .host useHost cfg).bind fun cfg =>
    (applyVariable getenv .port usePort cfg).bind fun cfg =>
      (applyVariable getenv .logLevel useLogLevel cfg).bind fun cfg =>
        applyVariable getenv .maxClients useMaxClients cfg

/-! ## the command line -/

/-- `has_argument`: does the name stand at any position behind `argv[0]`? -/
def hasArgument (argv : List CStr) (name : CStr) : Bool := (argv.drop 1).any fun arg => arg = name

/-- The loop of `ks_config_from_argv`, over the arguments that are left. -/
def configFromArgs (cfg : KsSettings) : List CStr → Option KsSettings
  | [] => some cfg
  -- an option without its value is an unknown argument
  | [_] => none
  | arg :: value :: rest =>
    match KsSetting.ofOption arg with
    | none => none
    | some x => (x.apply cfg value).bind fun cfg => configFromArgs cfg rest

/-- `ks_config_from_argv` -/
def ksConfigFromArgv (cfg : KsSettings) (argv : List CStr) : Option KsSettings :=
  configFromArgs cfg (argv.drop 1)

/-- `ks_config_load` -/
def ksConfigLoad (getenv : CStr → Option CStr) (cfg : KsSettings) (argv : List CStr) :
    Option KsSettings :=
  let useHost := !hasArgument argv (KsSetting.option .host)
  let usePort := !hasArgument argv (KsSetting.option .port)
  let useLogLevel := !hasArgument argv (KsSetting.option .logLevel)
  let useMaxClients := !hasArgument argv (KsSetting.option .maxClients)
  (configFromEnv getenv cfg useHost usePort useLogLevel useMaxClients).bind fun cfg =>
    ksConfigFromArgv cfg argv

end Kessel
