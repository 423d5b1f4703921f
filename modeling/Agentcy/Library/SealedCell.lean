import Mathlib.Data.List.Induction
import Agentcy.Library.Run

/-!
# A cell that is written until it is sealed

A cell comes into being with a value, is overwritten any number of times, and
may be sealed while its value allows it.  Whatever is asked of it afterwards,
its value stays.
-/

namespace Agentcy.Library

universe u

inductive SealedCell (α : Type u) where
  | unborn
  | live (value : α)
  | closed (value : α)

inductive CellCall (α : Type u) where
  | create (value : α)
  | write (value : α)
  | close

namespace SealedCell

variable {α : Type u}

/-- The value that can still be overwritten. -/
def live? : SealedCell α → Option α
  | live value => some value
  | _ => none

def closed? : SealedCell α → Option α
  | closed value => some value
  | _ => none

variable (final : α → Bool)

/-- Calls that do not fit the state of the cell are refused. -/
def step : SealedCell α → CellCall α → SealedCell α
  | unborn, .create value => live value
  | live _, .write value => live value
  | live value, .close => if final value then closed value else live value
  | cell, _ => cell

variable {final}

theorem run_closed (value : α) (calls : List (CellCall α)) :
    run (step final) (closed value) calls = closed value := by
  induction calls with
  | nil =>
      rfl
  | cons call rest inductionHypothesis =>
      rw [run_cons]
      cases call with
      | create _ =>
          exact inductionHypothesis
      | write _ =>
          exact inductionHypothesis
      | close =>
          exact inductionHypothesis

theorem step_closed_cases {cell : SealedCell α} {call : CellCall α}
    {value : α} (isClosed : step final cell call = closed value) :
    cell = closed value ∨
      (cell = live value ∧ call = .close ∧ final value = true) := by
  cases cell with
  | unborn =>
      cases call with
      | create _ =>
          cases isClosed
      | write _ =>
          cases isClosed
      | close =>
          cases isClosed
  | live current =>
      cases call with
      | create _ =>
          cases isClosed
      | write _ =>
          cases isClosed
      | close =>
          rw [step] at isClosed
          split at isClosed
          · rename_i isFinal
            cases isClosed
            exact Or.inr ⟨rfl, rfl, isFinal⟩
          · cases isClosed
  | closed kept =>
      refine Or.inl ?_
      cases call with
      | create _ =>
          exact isClosed
      | write _ =>
          exact isClosed
      | close =>
          exact isClosed

/-- A closed cell has been closed by one call of the run, with the value that
it had then. -/
theorem exists_close
    {calls : List (CellCall α)} {value : α}
    (isClosed : run (step final) unborn calls = closed value) :
    ∃ before after, calls = before ++ .close :: after ∧
      run (step final) unborn before = live value ∧ final value = true := by
  induction calls using List.reverseRecOn with
  | nil =>
      cases isClosed
  | append_singleton earlier call inductionHypothesis =>
      rw [run_append, run_cons, run_nil] at isClosed
      rcases step_closed_cases isClosed with already | ⟨alive, rfl, isFinal⟩
      · obtain ⟨before, after, rfl, state⟩ := inductionHypothesis already
        refine ⟨before, after ++ [call], ?_, state⟩
        rw [List.append_assoc, List.cons_append]
      · exact ⟨earlier, [], rfl, alive, isFinal⟩

end SealedCell

end Agentcy.Library
