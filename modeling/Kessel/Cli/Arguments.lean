import Kessel.Config.Numbers

/-!
# Kessel.Cli.Arguments

`parse_args` of the client, and the command lines it accepts.

A command line is a list of options with their values (`Spells`); `--help` may
stand for an option, where it ends the scan.  As in `ks_config.c` the last value
of an option counts, but only that one is checked.

* `cliParseArgs_spec` — the two forms of a command line that is not refused.
-/

namespace Kessel

open CStr (ascii)

/-- `cli_config_t` -/
structure CliConfig where
  host : CStr
  port : CStr
  deriving DecidableEq, Repr

/-- The defaults of `parse_args`. -/
def CliConfig.default : CliConfig where
  host := .ofBytes (ascii "127.0.0.1")
  port := .ofBytes (ascii "7070")

/-- How `parse_args` ends: with 0 and a configuration, with 1, or with -1. -/
inductive CliArgs where
  | run (config : CliConfig)
  | help
  | invalid
  deriving DecidableEq, Repr

/-- The checks behind the loop of `parse_args`. -/
def checkConfig (config : CliConfig) : CliArgs :=
  if config.host.bytes = [] then .invalid
  else if validPort config.port = false then .invalid
  else .run config

/-- The loop of `parse_args`. -/
def parseArgsLoop : List CStr → CliConfig → CliArgs
  | [], config => checkConfig config
  -- no option has its value here
  | [arg], _ => if arg.bytes = ascii "--help" then .help else .invalid
  | arg :: value :: argv, config =>
    if arg.bytes = ascii "--help" then .help
    else if arg.bytes = ascii "-h" ∨ arg.bytes = ascii "--host" then
      parseArgsLoop argv { config with host := value }
    else if arg.bytes = ascii "-p" ∨ arg.bytes = ascii "--port" then
      parseArgsLoop argv { config with port := value }
    else .invalid

/-- `parse_args` -/
def cliParseArgs (argv : List CStr) : CliArgs := parseArgsLoop (argv.drop 1) .default

/-! ## command lines -/

inductive CliOption where
  | host
  | port
  deriving DecidableEq, Repr

def CliOption.names : CliOption → List (List UInt8)
  | .host => [ascii "-h", ascii "--host"]
  | .port => [ascii "-p", ascii "--port"]

/-- The arguments are these options, each with its value. -/
inductive Spells : List (CliOption × CStr) → List CStr → Prop where
  | nil : Spells [] []
  | cons {option : CliOption} {name value : CStr} {options : List (CliOption × CStr)}
      {args : List CStr} (hname : name.bytes ∈ option.names) (h : Spells options args) :
      Spells ((option, value) :: options) (name :: value :: args)

/-- The last value of each option. -/
def CliConfig.withOptions (config : CliConfig) (options : List (CliOption × CStr)) : CliConfig where
  host := (options.reverse.lookup .host).getD config.host
  port := (options.reverse.lookup .port).getD config.port

/-- Store one option. -/
def CliConfig.store (config : CliConfig) (option : CliOption) (value : CStr) : CliConfig :=
  match option with
  | .host => { config with host := value }
  | .port => { config with port := value }

/-- A later value of an option replaces an earlier one. -/
theorem CliConfig.withOptions_cons (config : CliConfig) (option : CliOption) (value : CStr)
    (options : List (CliOption × CStr)) :
    config.withOptions ((option, value) :: options) =
      (config.store option value).withOptions options := by
  have hport : (CliOption.port == CliOption.host) = false := rfl
  have hhost : (CliOption.host == CliOption.port) = false := rfl
  unfold withOptions
  rw [List.reverse_cons, List.lookup_append, List.lookup_append]
  cases option with
  | host => cases options.reverse.lookup .host <;> simp [store, List.lookup_cons, hport]
  | port => cases options.reverse.lookup .port <;> simp [store, List.lookup_cons, hhost]

/-- A turn of the loop: no option has a name in common with another, or with
`--help`. -/
theorem parseArgsLoop_option {option : CliOption} {name : CStr} (hname : name.bytes ∈ option.names)
    (value : CStr) (args : List CStr) (config : CliConfig) :
    parseArgsLoop (name :: value :: args) config = parseArgsLoop args (config.store option value) := by
  rw [parseArgsLoop]
  cases option with
  | host =>
    have hbytes : name.bytes = ascii "-h" ∨ name.bytes = ascii "--host" := by
      simpa [CliOption.names] using hname
    have hhelp : name.bytes ≠ ascii "--help" := by
      rcases hbytes with h | h <;> rw [h] <;> decide
    rw [if_neg hhelp, if_pos hbytes, CliConfig.store]
  | port =>
    have hbytes : name.bytes = ascii "-p" ∨ name.bytes = ascii "--port" := by
      simpa [CliOption.names] using hname
    have hothers : name.bytes ≠ ascii "--help" ∧
        ¬ (name.bytes = ascii "-h" ∨ name.bytes = ascii "--host") := by
      rcases hbytes with h | h <;> rw [h] <;> decide
    rw [if_neg hothers.1, if_neg hothers.2, if_pos hbytes, CliConfig.store]

/-- Options are stored one after the other. -/
theorem parseArgsLoop_append {options : List (CliOption × CStr)} {args : List CStr}
    (h : Spells options args) (rest : List CStr) (config : CliConfig) :
    parseArgsLoop (args ++ rest) config = parseArgsLoop rest (config.withOptions options) := by
  induction h generalizing config with
  | nil => rfl
  | cons hname h ih =>
    rw [List.cons_append, List.cons_append, parseArgsLoop_option hname, ih,
      CliConfig.withOptions_cons]

/-- Every list of arguments is options up to its end, to `--help`, or to something
that is refused. -/
theorem spells_or (args : List CStr) :
    ∃ options front rest, Spells options front ∧ args = front ++ rest ∧
      (rest = [] ∨ (∃ arg more, rest = arg :: more ∧ arg.bytes = ascii "--help") ∨
        ∀ config, parseArgsLoop rest config = .invalid) := by
  induction args using List.twoStepInduction with
  | nil => exact ⟨[], [], [], .nil, rfl, .inl rfl⟩
  | singleton arg =>
    refine ⟨[], [], [arg], .nil, rfl, .inr ?_⟩
    by_cases hhelp : arg.bytes = ascii "--help"
    · exact .inl ⟨arg, [], rfl, hhelp⟩
    · exact .inr fun config => by simp [parseArgsLoop, hhelp]
  | cons_cons arg value args ih _ =>
    by_cases hhelp : arg.bytes = ascii "--help"
    · exact ⟨[], [], _, .nil, rfl, .inr (.inl ⟨arg, value :: args, rfl, hhelp⟩)⟩
    by_cases hoption : ∃ option : CliOption, arg.bytes ∈ option.names
    · obtain ⟨option, hname⟩ := hoption
      obtain ⟨options, front, rest, hspells, rfl, hrest⟩ := ih
      exact ⟨(option, value) :: options, arg :: value :: front, rest, .cons hname hspells, rfl, hrest⟩
    · refine ⟨[], [], _, .nil, rfl, .inr (.inr fun config => ?_)⟩
      have hhost : ¬ (arg.bytes = ascii "-h" ∨ arg.bytes = ascii "--host") :=
        fun h => hoption ⟨.host, by simpa [CliOption.names] using h⟩
      have hport : ¬ (arg.bytes = ascii "-p" ∨ arg.bytes = ascii "--port") :=
        fun h => hoption ⟨.port, by simpa [CliOption.names] using h⟩
      rw [parseArgsLoop, if_neg hhelp, if_neg hhost, if_neg hport]

/-! ## what is accepted -/

/-- The check of a configuration asks for no help. -/
theorem checkConfig_ne_help (config : CliConfig) : checkConfig config ≠ .help := by
  unfold checkConfig
  split_ifs <;> simp

/-- A configuration runs when its host is not empty and its port is valid. -/
theorem checkConfig_eq_run {config config' : CliConfig} :
    checkConfig config = .run config' ↔
      config = config' ∧ config.host.bytes ≠ [] ∧ validPort config.port = true := by
  unfold checkConfig
  split_ifs with hhost hport
  · simp [hhost]
  · simp [hport]
  · simp [hhost, hport]

/-- The ports that are accepted. -/
theorem validPort_iff {s : CStr} : validPort s = true ↔ ∃ z : Int, Denotes s.bytes z ∧
    z.natAbs < 2 ^ 64 ∧ 1 ≤ z % 2 ^ 64 ∧ z % 2 ^ 64 ≤ 65535 := by
  constructor
  · intro h
    by_cases hz : ∃ z, Denotes s.bytes z
    · obtain ⟨z, hz⟩ := hz
      exact ⟨z, hz, (validPort_of_denotes hz).mp h⟩
    · rw [(rejected_of_not_denotes hz).2.2] at h
      cases h
  · rintro ⟨z, hz, hrange⟩
    exact (validPort_of_denotes hz).mpr hrange

/-- **The command lines of `parse_args`.**  A configuration is what options make
of the defaults, with a host, and a port that spells an integer from 1 to 65535
or one that `strtoul` takes for such an integer; help is what `--help` asks for
in the place of an option, whatever stands behind it. -/
theorem cliParseArgs_spec (argv : List CStr) :
    (∀ config, cliParseArgs argv = .run config ↔ ∃ options, Spells options (argv.drop 1) ∧
      config = CliConfig.default.withOptions options ∧ config.host.bytes ≠ [] ∧
      ∃ z : Int, Denotes config.port.bytes z ∧ z.natAbs < 2 ^ 64 ∧ 1 ≤ z % 2 ^ 64 ∧
        z % 2 ^ 64 ≤ 65535) ∧
    (cliParseArgs argv = .help ↔ ∃ options front arg rest, Spells options front ∧
      argv.drop 1 = front ++ arg :: rest ∧ arg.bytes = ascii "--help") := by
  have hhelp : ∀ {options front arg rest}, Spells options front → arg.bytes = ascii "--help" →
      parseArgsLoop (front ++ arg :: rest) .default = .help := by
    intro options front arg rest hspells harg
    rw [parseArgsLoop_append hspells]
    cases rest <;> simp [parseArgsLoop, harg]
  have hend : ∀ {options args}, Spells options args →
      parseArgsLoop args .default = checkConfig (CliConfig.default.withOptions options) := by
    intro options args hspells
    rw [← List.append_nil args, parseArgsLoop_append hspells, parseArgsLoop]
  unfold cliParseArgs
  constructor
  · intro config
    simp only [← validPort_iff]
    constructor
    · intro hrun
      obtain ⟨options, front, rest, hspells, hargs, rfl | ⟨arg, more, rfl, harg⟩ | hinvalid⟩ :=
        spells_or (argv.drop 1)
      · rw [List.append_nil] at hargs
        rw [hargs, hend hspells, checkConfig_eq_run] at hrun
        obtain ⟨rfl, hhost, hport⟩ := hrun
        exact ⟨options, hargs ▸ hspells, rfl, hhost, hport⟩
      · rw [hargs, hhelp hspells harg] at hrun
        cases hrun
      · rw [hargs, parseArgsLoop_append hspells, hinvalid] at hrun
        cases hrun
    · rintro ⟨options, hspells, rfl, hhost, hport⟩
      rw [hend hspells, checkConfig_eq_run]
      exact ⟨rfl, hhost, hport⟩
  · constructor
    · intro hrun
      obtain ⟨options, front, rest, hspells, hargs, rfl | ⟨arg, more, rfl, harg⟩ | hinvalid⟩ :=
        spells_or (argv.drop 1)
      · rw [List.append_nil] at hargs
        rw [hargs, hend hspells] at hrun
        exact absurd hrun (checkConfig_ne_help _)
      · exact ⟨options, front, arg, more, hspells, hargs, harg⟩
      · rw [hargs, parseArgsLoop_append hspells, hinvalid] at hrun
        cases hrun
    · rintro ⟨options, front, arg, rest, hspells, hargs, harg⟩
      rw [hargs, hhelp hspells harg]

/-- In the place of a value `--help` is a value. -/
example : cliParseArgs [.ofBytes (ascii "kessel-cli"), .ofBytes (ascii "-h"), .ofBytes (ascii "--help")] =
    .run ⟨.ofBytes (ascii "--help"), .ofBytes (ascii "7070")⟩ := by
  decide

end Kessel
