import Mathlib.Data.Option.Basic
import Mathlib.Data.Nat.Basic

/-!
# Chains

An item may have a successor, which may have one again.  Where every successor
is smaller by some measure the chain ends.
-/

namespace Agentcy.Library

universe u

variable {α : Type u}

/-- The item that is reached after `length` links; the link out of the item
number `index` is made by `next index`. -/
def chain (next : Nat → α → Option α) : Nat → α → Nat → Option α
  | _, item, 0 => some item
  | index, item, length + 1 =>
      (next index item).bind fun successor =>
        chain next (index + 1) successor length

/-- The last link of a chain. -/
theorem chain_succ
    (next : Nat → α → Option α) (index : Nat) (start : α) (length : Nat) :
    chain next index start (length + 1) =
      (chain next index start length).bind (next (index + length)) := by
  induction length generalizing index start with
  | zero =>
      simp [chain]
  | succ length inductionHypothesis =>
      rw [chain, chain, Option.bind_assoc]
      congr 1
      funext successor
      rw [inductionHypothesis, Nat.add_right_comm, Nat.add_assoc]

theorem chain_invariant
    {next : Nat → α → Option α} {holds : α → Prop}
    (kept : ∀ index item successor, holds item →
      next index item = some successor → holds successor)
    {index : Nat} {start : α} (holdsFirst : holds start) :
    ∀ {length : Nat} {item : α}, chain next index start length = some item →
      holds item := by
  intro length
  induction length generalizing index start with
  | zero =>
      intro item reached
      rwa [← Option.some.inj reached]
  | succ length inductionHypothesis =>
      intro item reached
      obtain ⟨successor, made, later⟩ := Option.bind_eq_some_iff.mp reached
      exact inductionHypothesis (kept index start successor holdsFirst made)
        later

/-- The chain reaches its last item after a number of links that the measure
bounds. -/
theorem exists_last_of_chain
    {next : Nat → α → Option α} (measure : α → Nat)
    (decreases : ∀ index item successor,
      next index item = some successor → measure successor < measure item)
    (index : Nat) (start : α) :
    ∃ links ≤ measure start, ∃ last,
      chain next index start links = some last ∧
        next (index + links) last = none ∧
          ∀ length, (chain next index start length).isSome = true ↔
            length ≤ links := by
  induction bound : measure start using Nat.strong_induction_on
    generalizing index start with
  | h size inductionHypothesis =>
      subst bound
      cases made : next index start with
      | none =>
          refine ⟨0, Nat.zero_le _, start, rfl, made, ?_⟩
          intro length
          cases length with
          | zero => simp [chain]
          | succ length => simp [chain, made]
      | some successor =>
          have smaller := decreases index start successor made
          obtain ⟨links, short, last, reached, ends, reachable⟩ :=
            inductionHypothesis _ smaller (index + 1) successor rfl
          refine ⟨links + 1, by omega, last, ?_, ?_, ?_⟩
          · rw [chain, made]
            exact reached
          · rwa [Nat.add_right_comm, Nat.add_assoc] at ends
          · intro length
            cases length with
            | zero => simp [chain]
            | succ length =>
                rw [chain, made, Option.bind_some, reachable]
                omega

end Agentcy.Library
