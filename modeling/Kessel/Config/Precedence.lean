import Kessel.Config

/-!
# Kessel.Config.Precedence

Which of its sources a setting takes its value from.

A setting is a lens of `KsSettings` with a check (`KsSetting.get`, `set` and
`parse`), and storing a list of settings one after the other leaves in each the
last of its values (`applyAll_eq_some`).  Both scans of `ks_config_load` are such
a list, so `ksConfigLoad_eq_some` says what it makes of every environment and
every command line; `ksConfigLoad_precedence_iff` compares this with the order
of precedence that is asked for.
-/

namespace Kessel

namespace KsSetting

/-! ## a setting as a field -/

/-- The type of the field. -/
abbrev Value : KsSetting → Type
  | .host => CStr
  | .port => UInt16
  | .logLevel => Int
  | .maxClients => Nat

/-- The value that a text stands for. -/
def parse : (x : KsSetting) → CStr → Option x.Value
  | .host, s => if s.bytes = [] then none else some s
  | .port, s => parsePort s
  | .logLevel, s => parseLogLevel s
  | .maxClients, s => parseMaxClients s

/-- The field. -/
def get : (x : KsSetting) → KsSettings → x.Value
  | .host, cfg => cfg.host
  | .port, cfg => cfg.port
  | .logLevel, cfg => cfg.logLevel
  | .maxClients, cfg => cfg.maxClients

def set : (x : KsSetting) → KsSettings → x.Value → KsSettings
  | .host, cfg, v => { cfg with host := v }
  | .port, cfg, v => { cfg with port := v }
  | .logLevel, cfg, v => { cfg with logLevel := v }
  | .maxClients, cfg, v => { cfg with maxClients := v }

/-- A setting is checked, then stored. -/
theorem apply_eq (x : KsSetting) (cfg : KsSettings) (value : CStr) :
    x.apply cfg value = (x.parse value).map (x.set cfg) := by
  cases x with
  | host =>
    simp only [apply, applyHost, parse]
    split <;> rfl
  | _ => rfl

/-- A setting that is set has the value. -/
@[simp] theorem get_set_self (x : KsSetting) (cfg : KsSettings) (v : x.Value) :
    x.get (x.set cfg v) = v := by
  cases x <;> rfl

/-- Another setting has the value that it had. -/
theorem get_set_of_ne {x y : KsSetting} (h : y ≠ x) (cfg : KsSettings) (v : x.Value) :
    y.get (x.set cfg v) = y.get cfg := by
  cases x <;> cases y <;> first | exact absurd rfl h | rfl

/-- Settings are the same when all their values are. -/
theorem ext {cfg cfg' : KsSettings} (h : ∀ x : KsSetting, x.get cfg = x.get cfg') : cfg = cfg' := by
  have hhost : cfg.host = cfg'.host := h .host
  have hport : cfg.port = cfg'.port := h .port
  have hlog : cfg.logLevel = cfg'.logLevel := h .logLevel
  have hmax : cfg.maxClients = cfg'.maxClients := h .maxClients
  cases cfg
  cases cfg'
  simp_all

/-- The settings with given values. -/
def ofValues (f : (x : KsSetting) → x.Value) : KsSettings :=
  ⟨f .host, f .port, f .logLevel, f .maxClients⟩

/-- The settings with given values have them. -/
@[simp] theorem get_ofValues (f : (x : KsSetting) → x.Value) (x : KsSetting) :
    x.get (ofValues f) = f x := by
  cases x <;> rfl

/-- The option of a setting is spelled as it is read. -/
theorem ofOption_option (x : KsSetting) : ofOption x.option = some x := by
  cases x <;> decide

/-- What is read as a setting is its option. -/
theorem eq_option_of_ofOption {arg : CStr} {x : KsSetting} (h : ofOption arg = some x) :
    arg = x.option := by
  unfold ofOption at h
  split_ifs at h with h₁ h₂ h₃ h₄ <;> cases h <;> assumption

end KsSetting

/-! ## settings one after the other -/

/-- Check and store a list of settings in turn. -/
def applyAll (cfg : KsSettings) (pairs : List (KsSetting × CStr)) : Option KsSettings :=
  pairs.foldlM (fun cfg p => p.1.apply cfg p.2) cfg

/-- The value of the last pair of a setting. -/
def lastValue (pairs : List (KsSetting × CStr)) (x : KsSetting) : Option CStr :=
  ((pairs.filter fun p => p.1 = x).getLast?).map Prod.snd

/-- The last value of a setting, pair by pair. -/
theorem lastValue_cons (p : KsSetting × CStr) (pairs : List (KsSetting × CStr)) (x : KsSetting) :
    lastValue (p :: pairs) x = (lastValue pairs x).or (if p.1 = x then some p.2 else none) := by
  unfold lastValue
  by_cases hx : p.1 = x
  · rw [List.filter_cons_of_pos (by simpa using hx), List.getLast?_cons, if_pos hx]
    cases (pairs.filter fun p => p.1 = x).getLast? <;> rfl
  · rw [List.filter_cons_of_neg (by simpa using hx), if_neg hx, Option.or_none]

/-- A setting has no value when no pair gives it one. -/
theorem lastValue_eq_none {pairs : List (KsSetting × CStr)} {x : KsSetting} :
    lastValue pairs x = none ↔ ∀ p ∈ pairs, p.1 ≠ x := by
  simp [lastValue]

/-- The last value of a setting is one of the pairs. -/
theorem mem_of_lastValue {pairs : List (KsSetting × CStr)} {x : KsSetting} {value : CStr}
    (h : lastValue pairs x = some value) : (x, value) ∈ pairs := by
  obtain ⟨⟨y, v⟩, hlast, rfl⟩ := Option.map_eq_some_iff.mp h
  have hmem := List.mem_filter.mp (List.mem_of_getLast? hlast)
  obtain rfl : y = x := by simpa using hmem.2
  exact hmem.1

/-- Every value passes the check of its setting. -/
def Valid (pairs : List (KsSetting × CStr)) : Prop := ∀ p ∈ pairs, (p.1.parse p.2).isSome = true

/-- **Storing settings**: all must be valid, and the last value of each is left. -/
theorem applyAll_eq_some {cfg cfg' : KsSettings} {pairs : List (KsSetting × CStr)} :
    applyAll cfg pairs = some cfg' ↔ Valid pairs ∧
      ∀ x : KsSetting, x.get cfg' = ((lastValue pairs x).bind x.parse).getD (x.get cfg) := by
  induction pairs generalizing cfg with
  | nil =>
    constructor
    · intro h
      cases h
      exact ⟨by simp [Valid], fun x => rfl⟩
    · rintro ⟨-, h⟩
      exact congrArg some (KsSetting.ext fun x => (h x).symm)
  | cons p pairs ih =>
    obtain ⟨y, value⟩ := p
    have hstep : applyAll cfg ((y, value) :: pairs) =
        (y.apply cfg value).bind fun cfg => applyAll cfg pairs := rfl
    have hvalid : Valid ((y, value) :: pairs) ↔ (y.parse value).isSome = true ∧ Valid pairs :=
      List.forall_mem_cons
    rw [hstep, hvalid, y.apply_eq]
    cases hparse : y.parse value with
    | none => simp
    | some v =>
      simp only [Option.map_some, Option.bind_some, Option.isSome_some, true_and, ih]
      refine and_congr_right fun hpairs => forall_congr' fun x => ?_
      rw [lastValue_cons]
      cases hlast : lastValue pairs x with
      | some w =>
        -- a later pair decides
        obtain ⟨u, hu⟩ := Option.isSome_iff_exists.mp (hpairs _ (mem_of_lastValue hlast))
        simp only at hu
        simp [hu]
      | none =>
        by_cases hx : y = x
        · subst hx
          simp [hparse]
        · simp [hx, KsSetting.get_set_of_ne (Ne.symm hx)]

/-- Valid pairs can be applied. -/
theorem exists_applyAll {pairs : List (KsSetting × CStr)} (h : Valid pairs) (cfg : KsSettings) :
    ∃ cfg', applyAll cfg pairs = some cfg' :=
  ⟨KsSetting.ofValues fun x => ((lastValue pairs x).bind x.parse).getD (x.get cfg),
    applyAll_eq_some.mpr ⟨h, KsSetting.get_ofValues _⟩⟩

/-- Pairs are applied in order. -/
theorem applyAll_append (cfg : KsSettings) (pairs more : List (KsSetting × CStr)) :
    applyAll cfg (pairs ++ more) = (applyAll cfg pairs).bind fun cfg => applyAll cfg more :=
  List.foldlM_append

/-- A later value wins. -/
theorem lastValue_append (pairs more : List (KsSetting × CStr)) (x : KsSetting) :
    lastValue (pairs ++ more) x = (lastValue more x).or (lastValue pairs x) := by
  induction pairs with
  | nil => simp [lastValue]
  | cons p pairs ih => rw [List.cons_append, lastValue_cons, ih, lastValue_cons, Option.or_assoc]

/-! ## the environment -/

/-- The variable of a setting, when it is used and set. -/
def variablePair (getenv : CStr → Option CStr) (use : KsSetting → Bool) (x : KsSetting) :
    List (KsSetting × CStr) :=
  if use x then ((getenv x.variableName).map fun value => (x, value)).toList else []

/-- A variable that is used is a pair. -/
theorem applyVariable_eq (getenv : CStr → Option CStr) (use : KsSetting → Bool) (x : KsSetting)
    (cfg : KsSettings) :
    applyVariable getenv x (use x) cfg = applyAll cfg (variablePair getenv use x) := by
  unfold applyVariable variablePair
  cases getenv x.variableName with
  | none => cases use x <;> rfl
  | some value =>
    cases use x with
    | false => rfl
    | true =>
      simp [applyAll]

/-- The settings `config_from_env` stores, in its order. -/
def envPairs (getenv : CStr → Option CStr) (use : KsSetting → Bool) : List (KsSetting × CStr) :=
  variablePair getenv use .host ++ variablePair getenv use .port ++
    variablePair getenv use .logLevel ++ variablePair getenv use .maxClients

/-- `config_from_env` applies the pairs of the variables that are used. -/
theorem configFromEnv_eq (getenv : CStr → Option CStr) (use : KsSetting → Bool) (cfg : KsSettings) :
    configFromEnv getenv cfg (use .host) (use .port) (use .logLevel) (use .maxClients) =
      applyAll cfg (envPairs getenv use) := by
  simp only [configFromEnv, applyVariable_eq, envPairs, applyAll_append, Option.bind_assoc]

/-- A variable gives its own setting a value, if it is used and set. -/
theorem mem_variablePair {getenv : CStr → Option CStr} {use : KsSetting → Bool} {x : KsSetting}
    {p : KsSetting × CStr} : p ∈ variablePair getenv use x ↔
      use x = true ∧ p.1 = x ∧ getenv x.variableName = some p.2 := by
  unfold variablePair
  cases use x with
  | false => simp
  | true =>
    simp only [if_true, Option.mem_toList, Option.map_eq_some_iff, true_and]
    constructor
    · rintro ⟨value, hvalue, rfl⟩
      exact ⟨rfl, hvalue⟩
    · rintro ⟨rfl, hvalue⟩
      exact ⟨p.2, hvalue, rfl⟩

/-- The value that a variable gives. -/
theorem lastValue_variablePair (getenv : CStr → Option CStr) (use : KsSetting → Bool)
    (x y : KsSetting) : lastValue (variablePair getenv use y) x =
      if y = x ∧ use x = true then getenv x.variableName else none := by
  by_cases hx : y = x
  · subst hx
    unfold variablePair
    cases use y with
    | false => simp [lastValue]
    | true => cases getenv y.variableName <;> simp [lastValue]
  · have hnone : lastValue (variablePair getenv use y) x = none :=
      lastValue_eq_none.mpr fun p hp => by rw [(mem_variablePair.mp hp).2.1]; exact hx
    rw [hnone, if_neg fun h => hx h.1]

/-- Each setting is stored once, from its variable. -/
theorem lastValue_envPairs (getenv : CStr → Option CStr) (use : KsSetting → Bool) (x : KsSetting) :
    lastValue (envPairs getenv use) x = if use x = true then getenv x.variableName else none := by
  simp only [envPairs, lastValue_append, lastValue_variablePair]
  cases x <;> simp

/-- The variables are valid when those that are used can be parsed. -/
theorem valid_envPairs {getenv : CStr → Option CStr} {use : KsSetting → Bool} :
    Valid (envPairs getenv use) ↔ ∀ x value, use x = true → getenv x.variableName = some value →
      (x.parse value).isSome = true := by
  constructor
  · intro h x value huse hvalue
    have hin : (x, value) ∈ variablePair getenv use x := mem_variablePair.mpr ⟨huse, rfl, hvalue⟩
    refine h (x, value) ?_
    simp only [envPairs, List.mem_append]
    cases x <;> simp [hin]
  · intro h p hp
    have hused : use p.1 = true ∧ getenv p.1.variableName = some p.2 := by
      simp only [envPairs, List.mem_append, mem_variablePair] at hp
      rcases hp with ((⟨huse, hx, hv⟩ | ⟨huse, hx, hv⟩) | ⟨huse, hx, hv⟩) | ⟨huse, hx, hv⟩
      all_goals
        rw [hx]
        exact ⟨huse, hv⟩
    exact h p.1 p.2 hused.1 hused.2

/-! ## the command line -/

/-- The arguments that spell a list of options with their values. -/
def spelled (pairs : List (KsSetting × CStr)) : List CStr :=
  pairs.flatMap fun p => [p.1.option, p.2]

theorem spelled_cons (x : KsSetting) (value : CStr) (pairs : List (KsSetting × CStr)) :
    spelled ((x, value) :: pairs) = x.option :: value :: spelled pairs := rfl

theorem applyAll_cons (cfg : KsSettings) (x : KsSetting) (value : CStr)
    (pairs : List (KsSetting × CStr)) : applyAll cfg ((x, value) :: pairs) =
      (x.apply cfg value).bind fun cfg => applyAll cfg pairs := rfl

/-- The loop of `ks_config_from_argv` stores the pairs of the command line. -/
theorem configFromArgs_eq_some {cfg cfg' : KsSettings} {args : List CStr} :
    configFromArgs cfg args = some cfg' ↔
      ∃ pairs, args = spelled pairs ∧ applyAll cfg pairs = some cfg' := by
  induction cfg, args using configFromArgs.induct with
  | case1 cfg =>
    constructor
    · exact fun h => ⟨[], rfl, h⟩
    · rintro ⟨pairs, hpairs, h⟩
      cases pairs with
      | nil => exact h
      | cons p pairs => cases hpairs
  | case2 cfg arg =>
    constructor
    · intro h
      cases h
    · rintro ⟨pairs, hpairs, -⟩
      cases pairs <;> cases hpairs
  | case3 cfg arg value rest hunknown =>
    rw [configFromArgs, hunknown]
    constructor
    · intro h
      cases h
    · rintro ⟨pairs, hpairs, -⟩
      cases pairs with
      | nil => cases hpairs
      | cons p pairs =>
        obtain ⟨y, w⟩ := p
        rw [spelled_cons] at hpairs
        rw [(List.cons.inj hpairs).1, y.ofOption_option] at hunknown
        cases hunknown
  | case4 cfg arg value rest x hknown ih =>
    rw [configFromArgs, hknown]
    simp only [Option.bind_eq_some_iff, ih]
    constructor
    · rintro ⟨cfg₁, hfirst, pairs, rfl, hrest⟩
      refine ⟨(x, value) :: pairs, ?_, ?_⟩
      · rw [spelled_cons, KsSetting.eq_option_of_ofOption hknown]
      · rw [applyAll_cons, hfirst]
        exact hrest
    · rintro ⟨pairs, hpairs, h⟩
      cases pairs with
      | nil => cases hpairs
      | cons p pairs =>
        obtain ⟨y, w⟩ := p
        rw [spelled_cons] at hpairs
        obtain ⟨harg, hpairs⟩ := List.cons.inj hpairs
        obtain ⟨rfl, rfl⟩ := List.cons.inj hpairs
        rw [harg, y.ofOption_option] at hknown
        cases hknown
        rw [applyAll_cons] at h
        obtain ⟨cfg₁, hfirst, hrest⟩ := Option.bind_eq_some_iff.mp h
        exact ⟨cfg₁, hfirst, pairs, rfl, hrest⟩

/-- A command line spells one list of pairs only. -/
theorem spelled_inj {pairs pairs' : List (KsSetting × CStr)} (h : spelled pairs = spelled pairs') :
    pairs = pairs' := by
  induction pairs generalizing pairs' with
  | nil =>
    cases pairs' with
    | nil => rfl
    | cons p pairs' => cases h
  | cons p pairs ih =>
    cases pairs' with
    | nil => cases h
    | cons p' pairs' =>
      obtain ⟨x, v⟩ := p
      obtain ⟨x', v'⟩ := p'
      rw [spelled_cons, spelled_cons] at h
      obtain ⟨hoption, htail⟩ := List.cons.inj h
      obtain ⟨rfl, hrest⟩ := List.cons.inj htail
      have hx : some x = some x' := by rw [← x.ofOption_option, hoption, x'.ofOption_option]
      cases hx
      rw [ih hrest]

/-! ## loading -/

/-- The value of the variable of a setting, unless its option stands somewhere on
the command line. -/
def usedVariable (getenv : CStr → Option CStr) (argv : List CStr) (x : KsSetting) : Option CStr :=
  if hasArgument argv x.option then none else getenv x.variableName

/-- **`ks_config_load`** on every command line and environment. -/
theorem ksConfigLoad_eq_some {getenv : CStr → Option CStr} {cfg cfg' : KsSettings}
    {argv : List CStr} : ksConfigLoad getenv cfg argv = some cfg' ↔
      ∃ pairs, argv.drop 1 = spelled pairs ∧ Valid pairs ∧
        (∀ x value, usedVariable getenv argv x = some value → (x.parse value).isSome = true) ∧
        ∀ x : KsSetting, x.get cfg' = ((lastValue pairs x).bind x.parse).getD
          (((usedVariable getenv argv x).bind x.parse).getD (x.get cfg)) := by
  have henv := configFromEnv_eq getenv (fun x => !hasArgument argv x.option) cfg
  have hused : ∀ x, lastValue (envPairs getenv fun x => !hasArgument argv x.option) x =
      usedVariable getenv argv x := by
    intro x
    rw [lastValue_envPairs, usedVariable]
    cases hasArgument argv x.option <;> rfl
  have hvalid : Valid (envPairs getenv fun x => !hasArgument argv x.option) ↔
      ∀ x value, usedVariable getenv argv x = some value → (x.parse value).isSome = true := by
    rw [valid_envPairs]
    refine forall_congr' fun x => forall_congr' fun value => ?_
    unfold usedVariable
    cases hasArgument argv x.option <;> simp
  simp only [ksConfigLoad, henv, ksConfigFromArgv, Option.bind_eq_some_iff, configFromArgs_eq_some]
  constructor
  · rintro ⟨cfg₁, hfirst, pairs, hargs, hlast⟩
    obtain ⟨henvironment, hget₁⟩ := applyAll_eq_some.mp hfirst
    obtain ⟨hpairs, hget⟩ := applyAll_eq_some.mp hlast
    refine ⟨pairs, hargs, hpairs, hvalid.mp henvironment, fun x => ?_⟩
    rw [hget, hget₁, hused]
  · rintro ⟨pairs, hargs, hpairs, henvironment, hget⟩
    obtain ⟨cfg₁, hfirst⟩ := exists_applyAll (hvalid.mpr henvironment) cfg
    have hget₁ := (applyAll_eq_some.mp hfirst).2
    refine ⟨cfg₁, hfirst, pairs, hargs, applyAll_eq_some.mpr ⟨hpairs, fun x => ?_⟩⟩
    rw [hget, hget₁, hused]

/-- `parse_max_clients` accepts numbers from 1 to below `FD_SETSIZE`. -/
theorem parseMaxClients_range {s : CStr} {n : Nat} (h : parseMaxClients s = some n) :
    0 < n ∧ n < fdSetSize := by
  rw [parseMaxClients] at h
  split_ifs at h with hbad
  cases h
  unfold fdSetSize
  omega

/-- A loaded configuration is one that `ks_server_run` accepts. -/
theorem ksConfigLoad_maxClients {getenv : CStr → Option CStr} {cfg cfg' : KsSettings}
    {argv : List CStr} (hload : ksConfigLoad getenv cfg argv = some cfg')
    (h : 0 < cfg.maxClients ∧ cfg.maxClients < fdSetSize) :
    0 < cfg'.maxClients ∧ cfg'.maxClients < fdSetSize := by
  obtain ⟨pairs, -, -, -, hget⟩ := ksConfigLoad_eq_some.mp hload
  have hstored : ∀ {s? : Option CStr} {before : Nat}, 0 < before ∧ before < fdSetSize →
      0 < (s?.bind parseMaxClients).getD before ∧ (s?.bind parseMaxClients).getD before < fdSetSize := by
    intro s? before hbefore
    cases hparse : s?.bind parseMaxClients with
    | none => exact hbefore
    | some n =>
      obtain ⟨s, -, hs⟩ := Option.bind_eq_some_iff.mp hparse
      exact parseMaxClients_range hs
  rw [show cfg'.maxClients = _ from hget .maxClients]
  exact hstored (hstored h)

/-- The configuration `main` runs the server with, once it is loaded. -/
def KsConfig.ofLoaded {getenv : CStr → Option CStr} {cfg : KsSettings} {argv : List CStr}
    (h : ksConfigLoad getenv ksConfigInit argv = some cfg) : KsConfig where
  maxClients := cfg.maxClients
  positive := (ksConfigLoad_maxClients h (by decide)).1
  below := (ksConfigLoad_maxClients h (by decide)).2

/-! ## precedence -/

/-- What loading should do: the command line is made of options with valid
values, every variable of a setting without a pair is unset or valid, and each
setting is the value of its last pair, else of its variable, else as it was. -/
def LoadsInOrder (getenv : CStr → Option CStr) (cfg : KsSettings) (argv : List CStr)
    (cfg' : KsSettings) : Prop :=
  ∃ pairs, argv.drop 1 = spelled pairs ∧ Valid pairs ∧
    (∀ x value, (∀ p ∈ pairs, p.1 ≠ x) → getenv x.variableName = some value →
      (x.parse value).isSome = true) ∧
    ∀ x : KsSetting, x.get cfg' =
      (((lastValue pairs x).or (getenv x.variableName)).bind x.parse).getD (x.get cfg)

/-- A host is spelled like the option of a setting that has no pair, and hides
its variable, which would have failed or made a difference; nothing else is
wrong. -/
structure HostHidesVariable (getenv : CStr → Option CStr) (cfg : KsSettings) (argv : List CStr)
    (pairs : List (KsSetting × CStr)) : Prop where
  spelled : argv.drop 1 = spelled pairs
  valid : Valid pairs
  others : ∀ x value, (∀ p ∈ pairs, p.1 ≠ x) → (.host, x.option) ∉ pairs →
    getenv x.variableName = some value → (x.parse value).isSome = true
  hidden : ∃ x value, (∀ p ∈ pairs, p.1 ≠ x) ∧ (.host, x.option) ∈ pairs ∧
    getenv x.variableName = some value ∧ x.parse value ≠ some (x.get cfg)

/-- Only a host may be spelled like an option. -/
theorem eq_host_of_parse_option {x y : KsSetting} (h : (x.parse y.option).isSome = true) :
    x = .host := by
  revert h
  cases x <;> cases y <;> first | exact fun _ => rfl | decide

/-- Where `has_argument` finds the option of a setting. -/
theorem hasArgument_iff {argv : List CStr} {pairs : List (KsSetting × CStr)}
    (hargs : argv.drop 1 = spelled pairs) (hvalid : Valid pairs) (x : KsSetting) :
    hasArgument argv x.option = true ↔ (∃ p ∈ pairs, p.1 = x) ∨ (.host, x.option) ∈ pairs := by
  simp only [hasArgument, List.any_eq_true, decide_eq_true_eq, exists_eq_right, hargs, Kessel.spelled,
    List.mem_flatMap, List.mem_cons, List.not_mem_nil, or_false]
  constructor
  · rintro ⟨⟨y, value⟩, hp, hoption | hvalue⟩
    · have hx : some x = some y := by rw [← x.ofOption_option, hoption, y.ofOption_option]
      cases hx
      exact .inl ⟨_, hp, rfl⟩
    · simp only at hvalue
      subst hvalue
      have hhost := hvalid _ hp
      obtain rfl := eq_host_of_parse_option hhost
      exact .inr hp
  · rintro (⟨p, hp, rfl⟩ | hp)
    · exact ⟨p, hp, .inl rfl⟩
    · exact ⟨_, hp, .inr rfl⟩

section

variable {getenv : CStr → Option CStr} {cfg : KsSettings} {argv : List CStr}
  {pairs : List (KsSetting × CStr)}

/-- An option that stands behind `--host` hides the variable. -/
theorem usedVariable_of_hidden (hargs : argv.drop 1 = spelled pairs) (hvalid : Valid pairs)
    {x : KsSetting} (h : (.host, x.option) ∈ pairs) : usedVariable getenv argv x = none := by
  rw [usedVariable, if_pos ((hasArgument_iff hargs hvalid x).mpr (.inr h))]

/-- A variable is used when nothing on the command line looks like its option. -/
theorem usedVariable_of_plain (hargs : argv.drop 1 = spelled pairs) (hvalid : Valid pairs)
    {x : KsSetting} (hpair : ∀ p ∈ pairs, p.1 ≠ x) (h : (.host, x.option) ∉ pairs) :
    usedVariable getenv argv x = getenv x.variableName := by
  refine if_neg fun hfound => ?_
  rcases (hasArgument_iff hargs hvalid x).mp hfound with ⟨p, hp, hx⟩ | hhost
  · exact hpair p hp hx
  · exact h hhost

/-- A used variable belongs to a setting whose option stands nowhere. -/
theorem of_usedVariable (hargs : argv.drop 1 = spelled pairs) (hvalid : Valid pairs)
    {x : KsSetting} {value : CStr} (h : usedVariable getenv argv x = some value) :
    (∀ p ∈ pairs, p.1 ≠ x) ∧ (.host, x.option) ∉ pairs ∧ getenv x.variableName = some value := by
  have hfound : ¬ hasArgument argv x.option = true := by
    intro hfound
    rw [usedVariable, if_pos hfound] at h
    cases h
  rw [usedVariable, if_neg hfound] at h
  rw [hasArgument_iff hargs hvalid, not_or, not_exists] at hfound
  exact ⟨fun p hp hx => hfound.1 p ⟨hp, hx⟩, hfound.2, h⟩

/-- A hidden variable that repeats the value from before is as good as used. -/
theorem value_in_order (hargs : argv.drop 1 = spelled pairs) (hvalid : Valid pairs)
    (hhidden : ∀ (x : KsSetting) (value : CStr), (∀ p ∈ pairs, p.1 ≠ x) →
      (.host, x.option) ∈ pairs → getenv x.variableName = some value →
        x.parse value = some (x.get cfg)) (x : KsSetting) :
    ((lastValue pairs x).bind x.parse).getD
        (((usedVariable getenv argv x).bind x.parse).getD (x.get cfg)) =
      (((lastValue pairs x).or (getenv x.variableName)).bind x.parse).getD (x.get cfg) := by
  cases hlast : lastValue pairs x with
  | some value =>
    obtain ⟨v, hv⟩ := Option.isSome_iff_exists.mp (hvalid _ (mem_of_lastValue hlast))
    simp only at hv
    simp [hv]
  | none =>
    have hpair := lastValue_eq_none.mp hlast
    by_cases hhost : (KsSetting.host, x.option) ∈ pairs
    · rw [usedVariable_of_hidden hargs hvalid hhost]
      cases hvar : getenv x.variableName with
      | none => rfl
      | some value => simp [hhidden x value hpair hhost hvar]
    · rw [usedVariable_of_plain hargs hvalid hpair hhost]
      rfl

end

/-- **Precedence**: loading takes arguments before variables before what was
there, unless a host is spelled like the option of a setting without a pair and
so hides a variable that matters. -/
theorem ksConfigLoad_precedence_iff (getenv : CStr → Option CStr) (cfg : KsSettings)
    (argv : List CStr) :
    (∀ cfg', ksConfigLoad getenv cfg argv = some cfg' ↔ LoadsInOrder getenv cfg argv cfg') ↔
      ¬ ∃ pairs, HostHidesVariable getenv cfg argv pairs := by
  constructor
  · rintro hprecedence ⟨pairs, h⟩
    -- the load succeeds, and leaves the hidden setting as it was
    have henvironment : ∀ x value, usedVariable getenv argv x = some value →
        (x.parse value).isSome = true := by
      intro x value hused
      obtain ⟨hpair, hhost, hvar⟩ := of_usedVariable h.spelled h.valid hused
      exact h.others x value hpair hhost hvar
    have hload : ksConfigLoad getenv cfg argv = some (KsSetting.ofValues fun x =>
        ((lastValue pairs x).bind x.parse).getD
          (((usedVariable getenv argv x).bind x.parse).getD (x.get cfg))) :=
      ksConfigLoad_eq_some.mpr ⟨pairs, h.spelled, h.valid, henvironment, KsSetting.get_ofValues _⟩
    obtain ⟨pairs', hargs', -, hvariables, hget⟩ := (hprecedence _).mp hload
    obtain rfl := spelled_inj (hargs'.symm.trans h.spelled)
    obtain ⟨x, value, hpair, hhost, hvar, hdiffers⟩ := h.hidden
    obtain ⟨v, hv⟩ := Option.isSome_iff_exists.mp (hvariables x value hpair hvar)
    have hx := hget x
    rw [KsSetting.get_ofValues, lastValue_eq_none.mpr hpair,
      usedVariable_of_hidden h.spelled h.valid hhost, hvar] at hx
    simp only [Option.bind_none, Option.getD_none, Option.none_or, Option.bind_some, hv,
      Option.getD_some] at hx
    rw [hx] at hdiffers
    exact hdiffers hv
  · intro hno cfg'
    -- what is hidden makes no difference, once the rest is valid
    have hhidden : ∀ pairs, argv.drop 1 = spelled pairs → Valid pairs →
        (∀ x value, (∀ p ∈ pairs, p.1 ≠ x) → (.host, x.option) ∉ pairs →
          getenv x.variableName = some value → (x.parse value).isSome = true) →
        ∀ (x : KsSetting) (value : CStr), (∀ p ∈ pairs, p.1 ≠ x) → (.host, x.option) ∈ pairs →
          getenv x.variableName = some value → x.parse value = some (x.get cfg) := by
      intro pairs hargs hvalid hothers x value hpair hhost hvar
      by_contra hdiffers
      exact hno ⟨pairs, hargs, hvalid, hothers, x, value, hpair, hhost, hvar, hdiffers⟩
    rw [ksConfigLoad_eq_some, LoadsInOrder]
    constructor
    · rintro ⟨pairs, hargs, hvalid, henvironment, hget⟩
      have hsame := hhidden pairs hargs hvalid fun x value hpair hhost hvar =>
        henvironment x value (by rw [usedVariable_of_plain hargs hvalid hpair hhost, hvar])
      refine ⟨pairs, hargs, hvalid, fun x value hpair hvar => ?_, fun x => ?_⟩
      · by_cases hhost : (KsSetting.host, x.option) ∈ pairs
        · rw [hsame x value hpair hhost hvar]
          rfl
        · exact henvironment x value
            (by rw [usedVariable_of_plain hargs hvalid hpair hhost, hvar])
      · rw [hget, value_in_order hargs hvalid hsame]
    · rintro ⟨pairs, hargs, hvalid, hvariables, hget⟩
      have hsame := hhidden pairs hargs hvalid fun x value hpair _ hvar =>
        hvariables x value hpair hvar
      refine ⟨pairs, hargs, hvalid, fun x value hused => ?_, fun x => ?_⟩
      · obtain ⟨hpair, -, hvar⟩ := of_usedVariable hargs hvalid hused
        exact hvariables x value hpair hvar
      · rw [hget, value_in_order hargs hvalid hsame]

/-- Only `KESSEL_PORT` is set, to 9000. -/
def portVariable (name : CStr) : Option CStr :=
  if name = KsSetting.variableName .port then some (.ofBytes (CStr.ascii "9000")) else none

/-- `kessel --host --port` -/
def hostNamedPort : List CStr :=
  [.ofBytes (CStr.ascii "kessel"), KsSetting.option .host, KsSetting.option .port]

/-- The variable is not used, though no argument sets the port. -/
theorem ksConfigLoad_hostNamedPort :
    ksConfigLoad portVariable ksConfigInit hostNamedPort =
        some { ksConfigInit with host := KsSetting.option .port } ∧
      ¬ ∀ cfg', ksConfigLoad portVariable ksConfigInit hostNamedPort = some cfg' ↔
        LoadsInOrder portVariable ksConfigInit hostNamedPort cfg' := by
  have hload : ksConfigLoad portVariable ksConfigInit hostNamedPort =
      some { ksConfigInit with host := KsSetting.option .port } := by decide
  refine ⟨hload, fun h => ?_⟩
  obtain ⟨pairs, hargs, -, -, hget⟩ := (h _).mp hload
  obtain rfl : [(KsSetting.host, KsSetting.option .port)] = pairs := spelled_inj hargs
  have hport := hget .port
  revert hport
  decide

end Kessel
