import Mathlib.Data.List.Induction
import Agentcy.Library.Run

/-!
# Collecting items into full batches

Items are collected until the collection is full; the collection is then
handed on as a batch, and collecting starts again from nothing.  When being
full is kept by adding items, how many batches come out is a question about
prefixes of the item list.
-/

namespace Agentcy.Library

universe u

variable {α : Type u}

/-- The batches handed on so far, and the items collected since. -/
structure Collected (α : Type u) where
  batches : List (List α) := []
  pending : List α := []

variable (full : List α → Prop) [DecidablePred full]

def collect (collected : Collected α) (item : α) : Collected α :=
  let pending := collected.pending ++ [item]
  if full pending then
    ⟨collected.batches ++ [pending], []⟩
  else
    ⟨collected.batches, pending⟩

def batchesOf (items : List α) : List (List α) :=
  (run (collect full) {} items).batches

theorem collect_of_full
    {collected : Collected α} {item : α}
    (filled : full (collected.pending ++ [item])) :
    collect full collected item =
      ⟨collected.batches ++ [collected.pending ++ [item]], []⟩ :=
  if_pos filled

theorem collect_of_not_full
    {collected : Collected α} {item : α}
    (notYet : ¬ full (collected.pending ++ [item])) :
    collect full collected item =
      ⟨collected.batches, collected.pending ++ [item]⟩ :=
  if_neg notYet

/-- Earlier batches stay where they are. -/
theorem run_collect_batches
    (batches : List (List α)) (pending items : List α) :
    (run (collect full) ⟨batches, pending⟩ items).batches =
      batches ++ (run (collect full) ⟨[], pending⟩ items).batches := by
  induction items generalizing batches pending with
  | nil =>
      simp
  | cons item rest inductionHypothesis =>
      rw [run_cons, run_cons]
      by_cases filled : full (pending ++ [item])
      · rw [collect_of_full full filled, collect_of_full full filled,
          inductionHypothesis (batches ++ [pending ++ [item]]),
          inductionHypothesis ([] ++ [pending ++ [item]])]
        simp
      · rw [collect_of_not_full full filled,
          collect_of_not_full full filled]
        exact inductionHypothesis batches (pending ++ [item])

/-- Every batch is full. -/
theorem full_of_mem_batchesOf
    {items : List α} {batch : List α}
    (member : batch ∈ batchesOf full items) : full batch := by
  have allFull :
      ∀ batch ∈ (run (collect full) {} items).batches, full batch := by
    refine
      run_invariant_always
        (fun collected : Collected α =>
          ∀ batch ∈ collected.batches, full batch)
        ?_ items (by simp)
    intro collected item old batch inBatches
    by_cases filled : full (collected.pending ++ [item])
    · rw [collect_of_full full filled] at inBatches
      rcases List.mem_append.mp inBatches with before | new
      · exact old batch before
      · rw [List.mem_singleton.mp new]
        exact filled
    · rw [collect_of_not_full full filled] at inBatches
      exact old batch inBatches
  exact allFull batch member

/-- What was collected since the last batch is not full. -/
theorem not_full_pending
    (notEmpty : ¬ full []) (items : List α) :
    ¬ full (run (collect full) {} items).pending := by
  refine
    run_invariant_always
      (fun collected : Collected α => ¬ full collected.pending)
      ?_ items notEmpty
  intro collected item _
  by_cases filled : full (collected.pending ++ [item])
  · rw [collect_of_full full filled]
    exact notEmpty
  · rw [collect_of_not_full full filled]
    exact filled

section Growing

variable (grows : ∀ first second, full first → full (first ++ second))

include grows

theorem run_collect_of_not_full
    (collected : Collected α) (items : List α)
    (notYet : ¬ full (collected.pending ++ items)) :
    run (collect full) collected items =
      ⟨collected.batches, collected.pending ++ items⟩ := by
  induction items generalizing collected with
  | nil =>
      simp
  | cons item rest inductionHypothesis =>
      have openHere : ¬ full (collected.pending ++ [item]) := by
        intro filled
        have whole := grows _ rest filled
        rw [List.append_assoc] at whole
        exact notYet whole
      rw [run_cons, collect_of_not_full full openHere,
        inductionHypothesis _ (by simpa using notYet)]
      simp

theorem batchesOf_of_not_full
    {items : List α} (notYet : ¬ full items) :
    batchesOf full items = [] := by
  rw [batchesOf, run_collect_of_not_full full grows {} _ notYet]

theorem batchesOf_of_first_batch
    {first rest : List α} {last : α}
    (notYet : ¬ full first) (filled : full (first ++ [last])) :
    batchesOf full (first ++ last :: rest) =
      (first ++ [last]) :: batchesOf full rest := by
  rw [batchesOf, run_append,
    run_collect_of_not_full full grows {} _ notYet, run_cons,
    collect_of_full full filled, run_collect_batches]
  rfl

omit [DecidablePred full] grows in
/-- Full items are full at some point for the first time. -/
theorem exists_first_batch
    (empty : ¬ full []) {items : List α} (filled : full items) :
    ∃ first last rest, items = first ++ last :: rest ∧
      ¬ full first ∧ full (first ++ [last]) := by
  induction items using List.reverseRecOn with
  | nil =>
      exact absurd filled empty
  | append_singleton items item inductionHypothesis =>
      by_cases earlier : full items
      · obtain ⟨first, last, rest, split, notYet, filledFirst⟩ :=
          inductionHypothesis earlier
        exact
          ⟨first, last, rest ++ [item], by simp [split], notYet,
            filledFirst⟩
      · exact ⟨items, item, [], rfl, earlier, filled⟩

theorem batchesOf_eq_nil_iff
    (empty : ¬ full []) (items : List α) :
    batchesOf full items = [] ↔ ¬ full items := by
  constructor
  · intro nothing filled
    obtain ⟨first, last, rest, split, notYet, filledFirst⟩ :=
      exists_first_batch full empty filled
    rw [split, batchesOf_of_first_batch full grows notYet filledFirst]
      at nothing
    cases nothing
  · exact batchesOf_of_not_full full grows

/-- Exactly one batch comes out when the items are full at some point for
the first time, and what follows is not full by itself. -/
theorem batchesOf_length_eq_one_iff
    (empty : ¬ full []) (items : List α) :
    (batchesOf full items).length = 1 ↔
      ∃ first last rest, items = first ++ last :: rest ∧
        ¬ full first ∧ full (first ++ [last]) ∧ ¬ full rest := by
  constructor
  · intro one
    have filled : full items := by
      by_contra notYet
      rw [batchesOf_of_not_full full grows notYet] at one
      cases one
    obtain ⟨first, last, rest, split, notYet, filledFirst⟩ :=
      exists_first_batch full empty filled
    refine ⟨first, last, rest, split, notYet, filledFirst, ?_⟩
    rw [split, batchesOf_of_first_batch full grows notYet filledFirst,
      List.length_cons, Nat.add_eq_right,
      List.length_eq_zero_iff] at one
    exact (batchesOf_eq_nil_iff full grows empty rest).mp one
  · rintro ⟨first, last, rest, split, notYet, filledFirst, openRest⟩
    rw [split, batchesOf_of_first_batch full grows notYet filledFirst,
      batchesOf_of_not_full full grows openRest]
    rfl

end Growing

end Agentcy.Library
