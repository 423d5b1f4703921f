import Mathlib.Logic.Function.Basic
import Mathlib.Data.List.Basic

/-!
# A keyed store shared by several owners

Each call works on the one cell that its key names and gets an answer that
depends on that cell alone.  Owners whose keys are separate do not notice each
other: what an owner is answered in an interleaving is what it is answered
when it makes its own calls alone.
-/

namespace Agentcy.Library

universe u v w x

/-- A call on one cell: the cell before it, the cell after it and the
answer. -/
structure KeyedCall (κ : Type u) (α : Type v) (ι : Type w) (ρ : Type x) where
  owner : ι
  key : κ
  act : Option α → Option α × ρ

namespace KeyedCall

variable {κ : Type u} {α : Type v} {ι : Type w} {ρ : Type x}

/-- No key of a call of `owner` is the key of another owner's call. -/
def Separate (owner : ι) (calls : List (KeyedCall κ α ι ρ)) : Prop :=
  ∀ mine ∈ calls, mine.owner = owner →
    ∀ other ∈ calls, other.owner ≠ owner → mine.key ≠ other.key

theorem Separate.tail
    {owner : ι} {call : KeyedCall κ α ι ρ}
    {rest : List (KeyedCall κ α ι ρ)}
    (separate : Separate owner (call :: rest)) : Separate owner rest := by
  intro mine mineMember mineOwner other otherMember otherOwner
  exact
    separate mine (List.mem_cons_of_mem _ mineMember) mineOwner other
      (List.mem_cons_of_mem _ otherMember) otherOwner

variable [DecidableEq κ]

/-- The store after a call. -/
def perform
    (store : κ → Option α) (call : KeyedCall κ α ι ρ) : κ → Option α :=
  Function.update store call.key (call.act (store call.key)).1

variable [DecidableEq ι]

/-- What `owner` is answered in a sequence of calls. -/
def answers (owner : ι) :
    (κ → Option α) → List (KeyedCall κ α ι ρ) → List ρ
  | _, [] => []
  | store, call :: rest =>
      if call.owner = owner then
        (call.act (store call.key)).2 ::
          answers owner (perform store call) rest
      else
        answers owner (perform store call) rest

/-- The calls that `owner` makes. -/
def callsOf (owner : ι) (calls : List (KeyedCall κ α ι ρ)) :
    List (KeyedCall κ α ι ρ) :=
  calls.filter fun call => call.owner = owner

theorem answers_eq_of_agree
    {owner : ι} {calls : List (KeyedCall κ α ι ρ)}
    (separate : Separate owner calls) {shared alone : κ → Option α}
    (agree : ∀ call ∈ calls, call.owner = owner →
      shared call.key = alone call.key) :
    answers owner shared calls =
      answers owner alone (callsOf owner calls) := by
  induction calls generalizing shared alone with
  | nil =>
      rfl
  | cons call rest inductionHypothesis =>
      by_cases mine : call.owner = owner
      · have here := agree call List.mem_cons_self mine
        rw [callsOf, List.filter_cons_of_pos (by simpa using mine),
          answers, answers, if_pos mine, if_pos mine, here]
        congr 1
        apply inductionHypothesis separate.tail
        intro later member laterOwner
        have before :=
          agree later (List.mem_cons_of_mem _ member) laterOwner
        by_cases same : later.key = call.key
        · simp [perform, same, here]
        · simp [perform, same, before]
      · rw [callsOf, List.filter_cons_of_neg (by simpa using mine),
          answers, if_neg mine]
        apply inductionHypothesis separate.tail
        intro later member laterOwner
        have apart : later.key ≠ call.key :=
          separate later (List.mem_cons_of_mem _ member) laterOwner call
            List.mem_cons_self mine
        rw [perform, Function.update_of_ne apart]
        exact agree later (List.mem_cons_of_mem _ member) laterOwner

/-- With separate keys the other owners' calls cannot be noticed. -/
theorem answers_callsOf
    {owner : ι} (store : κ → Option α)
    {calls : List (KeyedCall κ α ι ρ)}
    (separate : Separate owner calls) :
    answers owner store calls =
      answers owner store (callsOf owner calls) :=
  answers_eq_of_agree separate fun _ _ _ => rfl

end KeyedCall

end Agentcy.Library
