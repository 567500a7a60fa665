import Mathlib.Tactic

/-!
# Kessel.Refinement

Runs of a deterministic machine against a nondeterministic specification.

A machine takes an input to a new state and an output, or fails; a
specification relates a state, an input, an output and a new state.
`Simulates.run` is the only induction: a relation re-established by every step
turns every run of the machine into a run of the specification with the same
outputs, and the machine never fails.  An environment `env` restricts the
inputs (for instance to a clock that does not go backwards).

`run_history` is the same induction without a specification: an invariant that
relates the past of a run, its inputs with their outputs, to the state reached.
-/

namespace Refinement

variable {σ μ ι ω τ : Type}

/-- Feed a list of inputs to the machine and collect the outputs. -/
def run (step : σ → ι → Option (σ × ω)) : σ → List ι → Option (σ × List ω)
  | s, [] => some (s, [])
  | s, i :: is =>
    match step s i with
    | none => none
    | some (s', o) =>
      match run step s' is with
      | none => none
      | some (s'', os) => some (s'', o :: os)

/-- The runs of a specification. -/
inductive Runs (spec : μ → ι → ω → μ → Prop) : μ → List ι → List ω → μ → Prop where
  | nil (m : μ) : Runs spec m [] [] m
  | cons {m m' m'' : μ} {i : ι} {o : ω} {is : List ι} {os : List ω} :
      spec m i o m' → Runs spec m' is os m'' → Runs spec m (i :: is) (o :: os) m''

/-- The inputs are among those the environment may send. -/
def Admits (env : τ → ι → τ → Prop) : τ → List ι → Prop
  | _, [] => True
  | e, i :: is => ∃ e', env e i e' ∧ Admits env e' is

/-- An environment that allows everything allows every list of inputs. -/
theorem admits_true (is : List ι) : Admits (fun (_ : Unit) _ _ => True) () is := by
  induction is with
  | nil => trivial
  | cons i is ih => exact ⟨(), trivial, ih⟩

/-- Every step of the machine is a step of the specification, for the states
related by `R` and the inputs the environment allows. -/
def Simulates (env : τ → ι → τ → Prop) (step : σ → ι → Option (σ × ω))
    (spec : μ → ι → ω → μ → Prop) (R : τ → σ → μ → Prop) : Prop :=
  ∀ e s m i e', R e s m → env e i e' →
    ∃ s' o m', step s i = some (s', o) ∧ spec m i o m' ∧ R e' s' m'

/-- **Forward simulation**, from steps to runs. -/
theorem Simulates.run {env : τ → ι → τ → Prop} {step : σ → ι → Option (σ × ω)}
    {spec : μ → ι → ω → μ → Prop} {R : τ → σ → μ → Prop} (hsim : Simulates env step spec R)
    (is : List ι) {e : τ} {s : σ} {m : μ} (hR : R e s m) (henv : Admits env e is) :
    ∃ e' s' os m', run step s is = some (s', os) ∧ Runs spec m is os m' ∧ R e' s' m' := by
  induction is generalizing e s m with
  | nil => exact ⟨e, s, [], m, rfl, .nil m, hR⟩
  | cons i is ih =>
    obtain ⟨e₁, hi, his⟩ := henv
    obtain ⟨s₁, o, m₁, hstep, hspec, hR₁⟩ := hsim e s m i e₁ hR hi
    obtain ⟨e', s', os, m', hrun, hruns, hR'⟩ := ih hR₁ his
    exact ⟨e', s', o :: os, m', by simp only [Refinement.run, hstep, hrun], .cons hspec hruns, hR'⟩

/-- **An invariant of histories**, from steps to runs: what every step adds to
the past and does to the state keeps it, so the machine never fails and it holds
of the past and the state of every run. -/
theorem run_history {step : σ → ι → Option (σ × ω)} {I : List (ι × ω) → σ → Prop}
    (hstep : ∀ past s i, I past s → ∃ s' o, step s i = some (s', o) ∧ I (past ++ [(i, o)]) s')
    (is : List ι) {past : List (ι × ω)} {s : σ} (hI : I past s) :
    ∃ s' os, run step s is = some (s', os) ∧ os.length = is.length ∧ I (past ++ is.zip os) s' := by
  induction is generalizing past s with
  | nil => exact ⟨s, [], rfl, rfl, by simpa using hI⟩
  | cons i is ih =>
    obtain ⟨s₁, o, hone, hI₁⟩ := hstep past s i hI
    obtain ⟨s', os, hrun, hlen, hI'⟩ := ih hI₁
    refine ⟨s', o :: os, by simp only [run, hone, hrun], by simp [hlen], ?_⟩
    simpa using hI'

end Refinement
