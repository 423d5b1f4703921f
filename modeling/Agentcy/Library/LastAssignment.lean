import Agentcy.Library.Run

/-!
# The last assignment

The events of a run assign a cell or leave it alone.  What the cell holds in
the end is what the last event that assigned it has put there.
-/

namespace Agentcy.Library

universe u v w

variable {σ : Type u} {ε : Type v} {α : Type w}

/-- The event of this split assigns the cell, and none after it does. -/
structure LastAssignment
    (step : σ → ε → σ) (assigned : σ → ε → Option (Option α)) (state : σ)
    (value : Option α) (before : List ε) (event : ε) (after : List ε) :
    Prop where
  assigns : assigned (run step state before) event = some value
  keeps : EveryStep step (fun current later => assigned current later = none)
    (run step state (before ++ [event])) after

variable {step : σ → ε → σ} {assigned : σ → ε → Option (Option α)}

section Cell

variable {cell : σ → Option α}
  (effect : ∀ state event,
    cell (step state event) = (assigned state event).getD (cell state))

include effect

theorem cell_of_kept
    {state : σ} {events : List ε}
    (keeps : EveryStep step
      (fun current event => assigned current event = none) state events) :
    cell (run step state events) = cell state := by
  induction events generalizing state with
  | nil =>
      rfl
  | cons event rest inductionHypothesis =>
      rw [run_cons, inductionHypothesis keeps.2, effect, keeps.1]
      rfl

theorem LastAssignment.cell_eq
    {state : σ} {value : Option α} {before : List ε} {event : ε}
    {after : List ε}
    (last : LastAssignment step assigned state value before event after) :
    cell (run step state (before ++ event :: after)) = value := by
  have whole : before ++ event :: after = before ++ [event] ++ after := by
    simp
  rw [whole, run_append, cell_of_kept effect last.keeps, run_append,
    run_cons, run_nil, effect, last.assigns]
  rfl

omit effect in
/-- Either no event assigns the cell, or one of them is the last to do so. -/
theorem kept_or_lastAssignment
    (step : σ → ε → σ) (assigned : σ → ε → Option (Option α)) (state : σ)
    (events : List ε) :
    EveryStep step (fun current event => assigned current event = none)
        state events ∨
      ∃ value before event after, events = before ++ event :: after ∧
        LastAssignment step assigned state value before event after := by
  induction events generalizing state with
  | nil =>
      exact Or.inl trivial
  | cons event rest inductionHypothesis =>
      rcases inductionHypothesis (step state event) with
        keeps | ⟨value, before, last, after, whole, isLast⟩
      · cases assigns : assigned state event with
        | none =>
            exact Or.inl ⟨assigns, keeps⟩
        | some value =>
            exact Or.inr ⟨value, [], event, rest, rfl, assigns, keeps⟩
      · refine Or.inr ⟨value, event :: before, last, after, ?_, ?_⟩
        · rw [whole, List.cons_append]
        · exact ⟨isLast.assigns, isLast.keeps⟩

/-- A cell that is empty at first holds a value exactly if the last assignment
has put it there. -/
theorem cell_eq_some_iff
    {state : σ} (empty : cell state = none) {events : List ε} {value : α} :
    cell (run step state events) = some value ↔
      ∃ before event after, events = before ++ event :: after ∧
        LastAssignment step assigned state (some value) before event
          after := by
  constructor
  · intro holds
    rcases kept_or_lastAssignment step assigned state events with
      keeps | ⟨found, before, event, after, rfl, last⟩
    · rw [cell_of_kept effect keeps, empty] at holds
      cases holds
    · rw [last.cell_eq effect] at holds
      rw [holds] at last
      exact ⟨before, event, after, rfl, last⟩
  · rintro ⟨before, event, after, rfl, last⟩
    exact last.cell_eq effect

end Cell

end Agentcy.Library
