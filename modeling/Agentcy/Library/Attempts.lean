import Mathlib.Data.Nat.Basic
import Mathlib.Logic.Basic

/-!
# Repeated attempts

An operation that may fail is attempted again while its failure is one that
may be repeated and attempts are left.  The result of the last attempt is the
result of all of them.
-/

namespace Agentcy.Library

universe u v w

variable {State : Type u} {Failure : Type v} {Result : Type w}

/-- How many attempts were made, and what the last one left. -/
structure Attempts
    (State : Type u) (Failure : Type v) (Result : Type w) where
  made : Nat
  state : State
  result : Except Failure Result

def repeats
    (repeatable : Failure → Bool) : Except Failure Result → Bool
  | .error failure => repeatable failure
  | .ok _ => false

/-- An attempt, and so many more at most. -/
def attempt
    (repeatable : Failure → Bool)
    (operation : State → State × Except Failure Result) :
    Nat → State → Attempts State Failure Result
  | 0, before =>
      let tried := operation before
      ⟨1, tried.1, tried.2⟩
  | more + 1, before =>
      let tried := operation before
      if repeats repeatable tried.2 then
        let later := attempt repeatable operation more tried.1
        { later with made := later.made + 1 }
      else
        ⟨1, tried.1, tried.2⟩

section Operation

variable {repeatable : Failure → Bool}
variable {operation : State → State × Except Failure Result}

/-- A result that is not repeated is the only one. -/
theorem attempt_of_not_repeats
    (more : Nat) {before : State}
    (settled : repeats repeatable (operation before).2 = false) :
    attempt repeatable operation more before =
      ⟨1, (operation before).1, (operation before).2⟩ := by
  cases more with
  | zero =>
      rfl
  | succ more =>
      rw [attempt]
      dsimp only
      rw [settled, if_neg Bool.false_ne_true]

theorem attempt_of_repeats
    (more : Nat) {before : State}
    (again : repeats repeatable (operation before).2 = true) :
    attempt repeatable operation (more + 1) before =
      let later :=
        attempt repeatable operation more (operation before).1
      { later with made := later.made + 1 } := by
  rw [attempt]
  dsimp only
  rw [again, if_pos rfl]

theorem made_pos (more : Nat) (before : State) :
    0 < (attempt repeatable operation more before).made := by
  cases more with
  | zero =>
      exact Nat.one_pos
  | succ more =>
      rw [attempt]
      dsimp only
      split
      · exact Nat.succ_pos _
      · exact Nat.one_pos

/-- Where one attempt was made it is the operation itself. -/
theorem attempt_of_made_eq_one
    {more : Nat} {before : State}
    (single : (attempt repeatable operation more before).made = 1) :
    attempt repeatable operation more before =
      ⟨1, (operation before).1, (operation before).2⟩ := by
  cases more with
  | zero =>
      rfl
  | succ more =>
      cases again : repeats repeatable (operation before).2 with
      | false =>
          exact attempt_of_not_repeats _ again
      | true =>
          rw [attempt_of_repeats more again] at single
          have later :
              0 < (attempt repeatable operation more
                (operation before).1).made :=
            made_pos more (operation before).1
          dsimp only at single
          omega

end Operation

section Tape

/-- The operation whose invocations have these outcomes, in this order.  Its
state is the number of invocations. -/
def invoke
    (outcomes : Nat → Except Failure Result) (invoked : Nat) :
    Nat × Except Failure Result :=
  (invoked + 1, outcomes invoked)

variable (repeatable : Failure → Bool)
variable (outcomes : Nat → Except Failure Result)

/-- The attempts stop at this invocation: all before it are repeated, and it
is the last one allowed or is not repeated. -/
structure StopsAt (more index : Nat) : Prop where
  allowed : index ≤ more
  before : ∀ earlier < index,
    repeats repeatable (outcomes earlier) = true
  ends : index = more ∨ repeats repeatable (outcomes index) = false

theorem exists_stopsAt (more : Nat) :
    ∃ index, StopsAt repeatable outcomes more index := by
  induction more with
  | zero =>
      refine ⟨0, Nat.le_refl _, ?_, Or.inl rfl⟩
      intro earlier bound
      exact absurd bound (Nat.not_lt_zero _)
  | succ more inductionHypothesis =>
      obtain ⟨index, stops⟩ := inductionHypothesis
      cases again : repeats repeatable (outcomes index) with
      | false =>
          exact ⟨index, Nat.le_succ_of_le stops.allowed, stops.before,
            Or.inr again⟩
      | true =>
          have last : index = more := by
            rcases stops.ends with last | settled
            · exact last
            · rw [again] at settled
              cases settled
          subst last
          refine ⟨index + 1, Nat.le_refl _, ?_, Or.inl rfl⟩
          intro earlier bound
          rcases Nat.lt_succ_iff_lt_or_eq.mp bound with before | here
          · exact stops.before earlier before
          · rwa [here]

variable {repeatable outcomes}

/-- The attempts from some invocation on, where they stop. -/
theorem attempt_invoke_from
    {more start index : Nat} (allowed : index ≤ more)
    (before : ∀ earlier < index,
      repeats repeatable (outcomes (start + earlier)) = true)
    (ends : index = more ∨
      repeats repeatable (outcomes (start + index)) = false) :
    attempt repeatable (invoke outcomes) more start =
      ⟨index + 1, start + index + 1, outcomes (start + index)⟩ := by
  induction index generalizing more start with
  | zero =>
      rcases ends with last | settled
      · subst last
        rfl
      · exact attempt_of_not_repeats more settled
  | succ index inductionHypothesis =>
      obtain ⟨rest, rfl⟩ : ∃ rest, more = rest + 1 :=
        ⟨more - 1, by omega⟩
      have again : repeats repeatable (outcomes start) = true :=
        before 0 (Nat.succ_pos index)
      have moved : ∀ earlier,
          start + 1 + earlier = start + (earlier + 1) := by
        intro earlier
        omega
      have later :
          attempt repeatable (invoke outcomes) rest (start + 1) =
            ⟨index + 1, start + 1 + index + 1,
              outcomes (start + 1 + index)⟩ := by
        apply inductionHypothesis (by omega)
        · intro earlier bound
          rw [moved]
          exact before (earlier + 1) (by omega)
        · rw [moved]
          rcases ends with last | settled
          · exact Or.inl (by omega)
          · exact Or.inr settled
      have first : repeats repeatable (invoke outcomes start).2 = true :=
        again
      rw [attempt_of_repeats rest first, invoke, later, moved]

theorem attempt_invoke
    {more index : Nat} (stops : StopsAt repeatable outcomes more index) :
    attempt repeatable (invoke outcomes) more 0 =
      ⟨index + 1, index + 1, outcomes index⟩ := by
  have run :
      attempt repeatable (invoke outcomes) more 0 =
        ⟨index + 1, 0 + index + 1, outcomes (0 + index)⟩ :=
    attempt_invoke_from stops.allowed (by simpa using stops.before)
      (by simpa using stops.ends)
  simpa using run

end Tape

end Agentcy.Library
