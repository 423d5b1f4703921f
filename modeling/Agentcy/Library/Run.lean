import Mathlib.Data.List.Basic
import Mathlib.Order.Basic

/-!
# Runs of a deterministic step function

A run applies a step function to a list of inputs.  The rules below carry a
property of one step to whole runs, also when the step keeps it only under a
condition on the state before it.
-/

namespace Agentcy.Library

universe u v w

variable {σ : Type u} {ε : Type v}

def run (step : σ → ε → σ) (state : σ) (events : List ε) : σ :=
  events.foldl step state

@[simp]
theorem run_nil (step : σ → ε → σ) (state : σ) :
    run step state [] = state :=
  rfl

@[simp]
theorem run_cons
    (step : σ → ε → σ) (state : σ) (event : ε) (events : List ε) :
    run step state (event :: events) =
      run step (step state event) events :=
  rfl

theorem run_append
    (step : σ → ε → σ) (state : σ) (first second : List ε) :
    run step state (first ++ second) =
      run step (run step state first) second :=
  List.foldl_append

/-- Every step of the run meets a condition on the state it starts from. -/
def EveryStep
    (step : σ → ε → σ) (meets : σ → ε → Prop) : σ → List ε → Prop
  | _, [] => True
  | state, event :: events =>
      meets state event ∧ EveryStep step meets (step state event) events

theorem everyStep_iff_split
    (step : σ → ε → σ) (meets : σ → ε → Prop)
    (state : σ) (events : List ε) :
    EveryStep step meets state events ↔
      ∀ before event after,
        events = before ++ event :: after →
          meets (run step state before) event := by
  induction events generalizing state with
  | nil =>
      simp [EveryStep]
  | cons head tail inductionHypothesis =>
      simp only [EveryStep, inductionHypothesis]
      constructor
      · rintro ⟨here, later⟩ before event after split
        cases before with
        | nil =>
            obtain ⟨rfl, rfl⟩ := List.cons.inj split
            exact here
        | cons first rest =>
            obtain ⟨rfl, tailSplit⟩ := List.cons.inj split
            exact later rest event after tailSplit
      · intro everywhere
        refine ⟨everywhere [] head tail rfl, ?_⟩
        intro before event after split
        exact everywhere (head :: before) event after (by simp [split])

/-- An invariant kept by every step that meets its condition holds after
every run whose steps all meet theirs. -/
theorem run_invariant
    {step : σ → ε → σ} {meets : σ → ε → Prop} (Inv : σ → Prop)
    (keeps : ∀ state event,
      Inv state → meets state event → Inv (step state event))
    {state : σ} {events : List ε}
    (initial : Inv state) (every : EveryStep step meets state events) :
    Inv (run step state events) := by
  induction events generalizing state with
  | nil =>
      exact initial
  | cons event events inductionHypothesis =>
      exact
        inductionHypothesis (keeps state event initial every.1) every.2

/-- The rule for steps that keep the invariant unconditionally. -/
theorem run_invariant_always
    {step : σ → ε → σ} (Inv : σ → Prop)
    (keeps : ∀ state event, Inv state → Inv (step state event))
    {state : σ} (events : List ε) (initial : Inv state) :
    Inv (run step state events) := by
  induction events generalizing state with
  | nil =>
      exact initial
  | cons event events inductionHypothesis =>
      exact inductionHypothesis (keeps state event initial)

/-- A measure that no step lowers is not lowered by a run. -/
theorem run_le
    {α : Type w} [Preorder α] {step : σ → ε → σ} (measure : σ → α)
    (raises : ∀ state event, measure state ≤ measure (step state event))
    (state : σ) (events : List ε) :
    measure state ≤ measure (run step state events) := by
  induction events generalizing state with
  | nil =>
      exact le_refl _
  | cons event events inductionHypothesis =>
      exact
        le_trans (raises state event)
          (inductionHypothesis (step state event))

theorem everyStep_of_forall_mem
    {step : σ → ε → σ} {meets : ε → Prop} (state : σ)
    {events : List ε} (all : ∀ event ∈ events, meets event) :
    EveryStep step (fun _ event => meets event) state events := by
  rw [everyStep_iff_split]
  intro before event after split
  apply all
  simp [split]

/-- Every state of the run, the first one included, has the property. -/
def EveryState (step : σ → ε → σ) (holds : σ → Prop) : σ → List ε → Prop
  | state, [] => holds state
  | state, event :: events =>
      holds state ∧ EveryState step holds (step state event) events

/-- What an invariant implies holds in every state of a run whose steps all
meet their condition. -/
theorem everyState_of_invariant
    {step : σ → ε → σ} {meets : σ → ε → Prop} {holds : σ → Prop}
    (Inv : σ → Prop)
    (keeps : ∀ state event,
      Inv state → meets state event → Inv (step state event))
    (implies : ∀ state, Inv state → holds state)
    {state : σ} {events : List ε}
    (initial : Inv state) (every : EveryStep step meets state events) :
    EveryState step holds state events := by
  induction events generalizing state with
  | nil =>
      exact implies state initial
  | cons event events inductionHypothesis =>
      exact
        ⟨implies state initial,
          inductionHypothesis (keeps state event initial every.1) every.2⟩

theorem everyState_iff_prefixes
    (step : σ → ε → σ) (holds : σ → Prop)
    (state : σ) (events : List ε) :
    EveryState step holds state events ↔
      ∀ before after, events = before ++ after →
        holds (run step state before) := by
  induction events generalizing state with
  | nil =>
      constructor
      · intro here before after split
        obtain ⟨rfl, _⟩ := List.append_eq_nil_iff.mp split.symm
        exact here
      · intro everywhere
        exact everywhere [] [] rfl
  | cons head tail inductionHypothesis =>
      simp only [EveryState, inductionHypothesis]
      constructor
      · rintro ⟨here, later⟩ before after split
        cases before with
        | nil =>
            exact here
        | cons first rest =>
            obtain ⟨rfl, tailSplit⟩ := List.cons.inj split
            exact later rest after tailSplit
      · intro everywhere
        refine ⟨everywhere [] (head :: tail) rfl, ?_⟩
        intro before after split
        exact everywhere (head :: before) after (by simp [split])

theorem everyStep_after_of_everyState
    {step : σ → ε → σ} {holds : σ → Prop} {state : σ} {events : List ε}
    (every : EveryState step holds state events) :
    EveryStep step (fun before event => holds (step before event))
      state events := by
  induction events generalizing state with
  | nil =>
      trivial
  | cons event events inductionHypothesis =>
      refine ⟨?_, inductionHypothesis every.2⟩
      cases events with
      | nil => exact every.2
      | cons _ _ => exact every.2.1

/-- If, from a good state, an allowed step ends in a state with the property
exactly when it meets its condition, then a run of allowed steps has the
property throughout exactly when all its steps meet theirs. -/
theorem everyState_iff_everyStep_of_allowed
    {step : σ → ε → σ} {holds : σ → Prop} {allows meets : σ → ε → Prop}
    (Good : σ → Prop) (sound : ∀ state, Good state → holds state)
    (decides : ∀ state event, Good state → allows state event →
      (holds (step state event) ↔ meets state event))
    (keeps : ∀ state event, Good state → allows state event →
      holds (step state event) → Good (step state event))
    {state : σ} {events : List ε} (initial : Good state)
    (allowed : EveryStep step allows state events) :
    EveryState step holds state events ↔
      EveryStep step meets state events := by
  induction events generalizing state with
  | nil =>
      exact ⟨fun _ => trivial, fun _ => sound state initial⟩
  | cons event events inductionHypothesis =>
      constructor
      · intro every
        have after := (everyStep_after_of_everyState every).1
        exact
          ⟨(decides state event initial allowed.1).mp after,
            (inductionHypothesis (keeps state event initial allowed.1 after)
              allowed.2).mp every.2⟩
      · rintro ⟨here, later⟩
        have after := (decides state event initial allowed.1).mpr here
        exact
          ⟨sound state initial,
            (inductionHypothesis (keeps state event initial allowed.1 after)
              allowed.2).mpr later⟩

/-- The rule for steps that are all allowed. -/
theorem everyState_iff_everyStep
    {step : σ → ε → σ} {holds : σ → Prop} {meets : σ → ε → Prop}
    (Good : σ → Prop) (sound : ∀ state, Good state → holds state)
    (decides : ∀ state event,
      Good state → (holds (step state event) ↔ meets state event))
    (keeps : ∀ state event,
      Good state → holds (step state event) → Good (step state event))
    {state : σ} (events : List ε) (initial : Good state) :
    EveryState step holds state events ↔
      EveryStep step meets state events := by
  have allowed : EveryStep step (fun _ _ => True) state events := by
    rw [everyStep_iff_split]
    intro _ _ _ _
    trivial
  exact
    everyState_iff_everyStep_of_allowed Good sound
      (fun state event good _ => decides state event good)
      (fun state event good _ => keeps state event good) initial allowed

/-- If the steps from good states do as they should exactly when they meet a
condition, and then lead to good states, then so do all steps of a run. -/
theorem everyStep_iff_of_invariant
    {step : σ → ε → σ} {does meets : σ → ε → Prop} (Good : σ → Prop)
    (decides : ∀ state event,
      Good state → (does state event ↔ meets state event))
    (keeps : ∀ state event,
      Good state → meets state event → Good (step state event))
    {state : σ} (events : List ε) (initial : Good state) :
    EveryStep step does state events ↔
      EveryStep step meets state events := by
  induction events generalizing state with
  | nil =>
      exact Iff.rfl
  | cons event events inductionHypothesis =>
      constructor
      · rintro ⟨here, later⟩
        have met := (decides state event initial).mp here
        exact
          ⟨met,
            (inductionHypothesis (keeps state event initial met)).mp
              later⟩
      · rintro ⟨met, later⟩
        exact
          ⟨(decides state event initial).mpr met,
            (inductionHypothesis (keeps state event initial met)).mpr
              later⟩

section Absorbing

variable {ω : Type w}

/-- Once the observation is final, the rest of the run does not change it. -/
def Absorbing
    (step : σ → ε → σ) (observe : σ → ω) (final : ω → Prop)
    (state : σ) (events : List ε) : Prop :=
  ∀ before middle after,
    events = before ++ middle ++ after →
      final (observe (run step state before)) →
        observe (run step state (before ++ middle)) =
          observe (run step state before)

/-- Absorption is a property of the single steps: it holds of a run exactly
when no step of the run moves a final observation. -/
theorem absorbing_iff_everyStep
    (step : σ → ε → σ) (observe : σ → ω) (final : ω → Prop)
    (state : σ) (events : List ε) :
    Absorbing step observe final state events ↔
      EveryStep step
        (fun current event =>
          final (observe current) →
            observe (step current event) = observe current)
        state events := by
  rw [everyStep_iff_split]
  constructor
  · intro absorbing before event after split finished
    have moved :=
      absorbing before [event] after (by simpa using split) finished
    simpa [run_append] using moved
  · intro still before middle after split finished
    induction middle generalizing before with
    | nil =>
        simp
    | cons event rest inductionHypothesis =>
        have here :
            observe (run step state (before ++ [event])) =
              observe (run step state before) := by
          simpa [run_append] using
            still before event (rest ++ after) (by simpa using split)
              finished
        have later :=
          inductionHypothesis (before ++ [event])
            (by simpa using split) (here ▸ finished)
        rw [← here, ← later]
        simp

end Absorbing

/-! ## Runs that an error ends -/

/-- The state before the step that fails, with its error, or the last one. -/
def runUntilError
    {α : Type w} (step : σ → ε → Except α σ) :
    σ → List ε → σ × Option α
  | state, [] => (state, none)
  | state, event :: events =>
      match step state event with
      | .ok later => runUntilError step later events
      | .error error => (state, some error)

theorem runUntilError_invariant
    {α : Type w} {step : σ → ε → Except α σ} (Inv : σ → Prop)
    (keeps : ∀ state event later,
      Inv state → step state event = .ok later → Inv later)
    {state : σ} (events : List ε) (initial : Inv state) :
    Inv (runUntilError step state events).1 := by
  induction events generalizing state with
  | nil =>
      exact initial
  | cons event events inductionHypothesis =>
      unfold runUntilError
      cases taken : step state event with
      | error error =>
          exact initial
      | ok later =>
          exact
            inductionHypothesis (keeps state event later initial taken)

end Agentcy.Library
