import Mathlib.Data.List.ReduceOption
import Agentcy.Library.Run
import Agentcy.Runs.EvaluationSequences

/-!
# The walk along a sequence's candidates

`advance_evaluation_sequence` gets the stored sequence and later upserts the
whole document with the cursor moved on.  Between the two, other callers may
get and upsert the same document.
-/

namespace Agentcy.Runs

open Agentcy.Library

universe u

variable {ι : Type u}

/-- One access to the store that a caller makes. -/
inductive SequenceAccess (ι : Type u) where
  | get (caller : ι)
  | upsert (caller : ι)

/-- A call between its two accesses: the document that it got, and the
candidate that it will return. -/
structure PendingAdvance where
  doc : EvaluationSequence
  candidate : Candidate
  deriving DecidableEq

/-- The stored document, the calls under way, and what the finished ones have
returned. -/
structure Walk (ι : Type u) where
  stored : Option EvaluationSequence
  pending : ι → Option PendingAdvance := fun _ => none
  answers : List (Option (Candidate × Nat)) := []

namespace Walk

def initial (sequence : EvaluationSequence) : Walk ι where
  stored := some sequence

variable [DecidableEq ι]

/-- The part of a call up to its upsert.  It returns at once when there is no
document or no further candidate. -/
def get (walk : Walk ι) (caller : ι) : Walk ι :=
  let returnNone : Walk ι :=
    { walk with
      pending := Function.update walk.pending caller none
      answers := walk.answers ++ [none] }
  match walk.stored with
  | none => returnNone
  | some doc =>
      match doc.candidates[doc.currentIndex + 1]? with
      | none => returnNone
      | some candidate =>
          { walk with
            pending :=
              Function.update walk.pending caller
                (some ⟨doc, candidate⟩) }

/-- The upsert of a call, with which it returns. -/
def upsert (walk : Walk ι) (caller : ι) : Walk ι :=
  match walk.pending caller with
  | none => walk
  | some call =>
      let nextIndex := call.doc.currentIndex + 1
      { stored := some { call.doc with currentIndex := nextIndex }
        pending := Function.update walk.pending caller none
        answers := walk.answers ++ [some (call.candidate, nextIndex)] }

def step (walk : Walk ι) : SequenceAccess ι → Walk ι
  | .get caller => walk.get caller
  | .upsert caller => walk.upsert caller

end Walk

/-- A call whose two accesses follow each other is the call of the store. -/
theorem get_upsert_eq_advanceCell
    [DecidableEq ι] (walk : Walk ι) (caller : ι) :
    ((walk.get caller).upsert caller).stored =
        (advanceCell walk.stored).1 ∧
      ((walk.get caller).upsert caller).answers =
        walk.answers ++ [(advanceCell walk.stored).2] := by
  unfold Walk.get
  cases stored : walk.stored with
  | none =>
      simp [Walk.upsert, advanceCell]
  | some doc =>
      cases next : doc.candidates[doc.currentIndex + 1]? with
      | none =>
          simp [Walk.upsert, advanceCell, next]
      | some candidate =>
          simp [Walk.upsert, advanceCell, next]

/-- What the calls on a sequence are to return, in the order in which they
return. -/
structure InTurn
    (sequence : EvaluationSequence)
    (answers : List (Option (Candidate × Nat))) : Prop where
  inOrder : ∀ k answer, answers.reduceOption[k]? = some answer →
    sequence.candidates[sequence.currentIndex + (k + 1)]? =
        some answer.1 ∧
      answer.2 = sequence.currentIndex + (k + 1)
  once : (answers.reduceOption.map Prod.snd).Nodup
  noneIffExhausted : ∀ before answer after,
    answers = before ++ answer :: after →
      (answer = none ↔
        sequence.candidates.length ≤
          sequence.currentIndex + (before.reduceOption.length + 1))

/-- The document that an upsert replaces is the one that its call got. -/
def Unchanged (walk : Walk ι) : SequenceAccess ι → Prop
  | .get _ => True
  | .upsert caller =>
      ∀ call, walk.pending caller = some call →
        walk.stored = some call.doc

section InTurn

variable {sequence : EvaluationSequence}
variable {answers : List (Option (Candidate × Nat))}

theorem inTurn_nil : InTurn sequence [] := by
  constructor
  · intro k answer found
    cases found
  · exact List.nodup_nil
  · intro before answer after split
    simp at split

/-- The number of the answer that comes after those returned so far. -/
def nextTurn
    (sequence : EvaluationSequence)
    (answers : List (Option (Candidate × Nat))) : Nat :=
  sequence.currentIndex + (answers.reduceOption.length + 1)

theorem noneIffExhausted_concat
    (inTurn : InTurn sequence answers)
    {last : Option (Candidate × Nat)}
    (exhausted : last = none ↔
      sequence.candidates.length ≤ nextTurn sequence answers)
    (before : List (Option (Candidate × Nat)))
    (answer : Option (Candidate × Nat))
    (after : List (Option (Candidate × Nat)))
    (split : answers ++ [last] = before ++ answer :: after) :
    answer = none ↔
      sequence.candidates.length ≤
        sequence.currentIndex + (before.reduceOption.length + 1) := by
  rcases List.eq_nil_or_concat after with rfl | ⟨front, final, rfl⟩
  · obtain ⟨rfl, sameLast⟩ :=
      List.append_inj' split (by simp)
    obtain ⟨rfl, _⟩ := List.cons.inj sameLast
    exact exhausted
  · have earlier : answers = before ++ answer :: front := by
      have regrouped :
          answers ++ [last] = (before ++ answer :: front) ++ [final] := by
        simpa using split
      exact (List.append_inj' regrouped (by simp)).1
    exact inTurn.noneIffExhausted before answer front earlier

theorem inTurn_concat_none
    (inTurn : InTurn sequence answers)
    (exhausted :
      sequence.candidates.length ≤ nextTurn sequence answers) :
    InTurn sequence (answers ++ [none]) := by
  have same : (answers ++ [none]).reduceOption = answers.reduceOption := by
    simp [List.reduceOption_append]
  constructor
  · rw [same]
    exact inTurn.inOrder
  · rw [same]
    exact inTurn.once
  · exact noneIffExhausted_concat inTurn (by simp [exhausted])

theorem snd_lt_nextTurn
    (inTurn : InTurn sequence answers)
    {answer : Candidate × Nat} (member : answer ∈ answers.reduceOption) :
    answer.2 < nextTurn sequence answers := by
  obtain ⟨k, found⟩ := List.mem_iff_getElem?.mp member
  have place := (inTurn.inOrder k answer found).2
  have inside := (List.getElem?_eq_some_iff.mp found).1
  unfold nextTurn
  omega

theorem inTurn_concat_some
    (inTurn : InTurn sequence answers) {candidate : Candidate}
    (next :
      sequence.candidates[nextTurn sequence answers]? = some candidate) :
    InTurn sequence
      (answers ++ [some (candidate, nextTurn sequence answers)]) := by
  have grown :
      (answers ++
          [some (candidate, nextTurn sequence answers)]).reduceOption =
        answers.reduceOption ++
          [(candidate, nextTurn sequence answers)] := by
    simp [List.reduceOption_append]
  constructor
  · intro k answer found
    rw [grown] at found
    by_cases old : k < answers.reduceOption.length
    · rw [List.getElem?_append_left old] at found
      exact inTurn.inOrder k answer found
    · rw [List.getElem?_append_right (by omega)] at found
      have last : k = answers.reduceOption.length := by
        have inside := (List.getElem?_eq_some_iff.mp found).1
        rw [List.length_singleton] at inside
        omega
      rw [last, Nat.sub_self] at found
      obtain rfl := Option.some.inj found
      rw [last]
      exact ⟨next, rfl⟩
  · rw [grown, List.map_append, List.nodup_append]
    refine ⟨inTurn.once, List.nodup_singleton _, ?_⟩
    intro place member final isFinal
    obtain ⟨answer, answerMember, rfl⟩ := List.mem_map.mp member
    obtain rfl := List.mem_singleton.mp isFinal
    have earlier := snd_lt_nextTurn inTurn answerMember
    exact Nat.ne_of_lt earlier
  · have more := (List.getElem?_eq_some_iff.mp next).1
    exact
      noneIffExhausted_concat inTurn
        (by simp only [reduceCtorEq, false_iff]; omega)

theorem place_of_inTurn_concat
    {candidate : Candidate} {place : Nat}
    (inTurn : InTurn sequence (answers ++ [some (candidate, place)])) :
    place = nextTurn sequence answers := by
  have last :=
    inTurn.inOrder answers.reduceOption.length (candidate, place)
      (by simp [List.reduceOption_append])
  exact last.2

end InTurn

/-! ## One access -/

/-- While the answers are in turn, the stored cursor counts them, and a call
under way has got the document at that cursor or at an earlier one. -/
structure Walking
    (sequence : EvaluationSequence) (walk : Walk ι) : Prop where
  answered : InTurn sequence walk.answers
  stored : walk.stored =
    some
      { sequence with
        currentIndex :=
          sequence.currentIndex + walk.answers.reduceOption.length }
  pending : ∀ caller call, walk.pending caller = some call →
    ∃ earlier ≤ walk.answers.reduceOption.length,
      call.doc =
          { sequence with
            currentIndex := sequence.currentIndex + earlier } ∧
        sequence.candidates[sequence.currentIndex + (earlier + 1)]? =
          some call.candidate

theorem walking_initial (sequence : EvaluationSequence) :
    Walking sequence (Walk.initial sequence : Walk ι) where
  answered := inTurn_nil
  stored := rfl
  pending := by
    intro caller call absent
    cases absent

section Access

variable [DecidableEq ι]
variable {sequence : EvaluationSequence} {walk : Walk ι}

theorem walking_get (walking : Walking sequence walk) (caller : ι) :
    Walking sequence (walk.get caller) := by
  unfold Walk.get
  rw [walking.stored]
  dsimp only
  have place :
      sequence.currentIndex + walk.answers.reduceOption.length + 1 =
        nextTurn sequence walk.answers := by
    unfold nextTurn
    omega
  rw [place]
  cases next : sequence.candidates[nextTurn sequence walk.answers]? with
  | none =>
      have same :
          (walk.answers ++ [none]).reduceOption =
            walk.answers.reduceOption := by
        simp [List.reduceOption_append]
      constructor
      · exact
          inTurn_concat_none walking.answered
            (List.getElem?_eq_none_iff.mp next)
      · dsimp only
        rw [same]
      · intro other call holds
        dsimp only at holds ⊢
        rw [same]
        by_cases mine : other = caller
        · rw [mine, Function.update_self] at holds
          cases holds
        · rw [Function.update_of_ne mine] at holds
          exact walking.pending other call holds
  | some candidate =>
      constructor
      · exact walking.answered
      · rfl
      · intro other call holds
        dsimp only at holds ⊢
        by_cases mine : other = caller
        · rw [mine, Function.update_self] at holds
          obtain rfl := Option.some.inj holds
          exact
            ⟨walk.answers.reduceOption.length, le_refl _, rfl, next⟩
        · rw [Function.update_of_ne mine] at holds
          exact walking.pending other call holds

/-- An upsert returns the candidate after the document that its call got:
the next in turn exactly when that document is still stored. -/
theorem inTurn_upsert_iff
    (walking : Walking sequence walk) (caller : ι) :
    InTurn sequence (walk.upsert caller).answers ↔
      Unchanged walk (.upsert caller) := by
  unfold Walk.upsert Unchanged
  cases holds : walk.pending caller with
  | none =>
      constructor
      · intro _ call absent
        rw [holds] at absent
        cases absent
      · intro _
        exact walking.answered
  | some call =>
      obtain ⟨earlier, bound, doc, candidate⟩ :=
        walking.pending caller call holds
      dsimp only
      constructor
      · intro inTurn other same
        rw [holds] at same
        obtain rfl := Option.some.inj same
        have place := place_of_inTurn_concat inTurn
        rw [doc] at place
        unfold nextTurn at place
        dsimp only at place
        have current : earlier = walk.answers.reduceOption.length := by
          omega
        rw [walking.stored, doc, current]
      · intro unchanged
        have stored := unchanged call holds
        rw [walking.stored, doc, Option.some.injEq,
          EvaluationSequence.mk.injEq] at stored
        have current : earlier = walk.answers.reduceOption.length := by
          omega
        rw [current] at doc candidate
        rw [doc]
        exact inTurn_concat_some walking.answered candidate

theorem walking_upsert
    (walking : Walking sequence walk) {caller : ι}
    (after : InTurn sequence (walk.upsert caller).answers) :
    Walking sequence (walk.upsert caller) := by
  have unchanged := (inTurn_upsert_iff walking caller).mp after
  revert after
  unfold Walk.upsert
  cases holds : walk.pending caller with
  | none =>
      intro _
      exact walking
  | some call =>
      intro after
      have stored := unchanged call holds
      rw [walking.stored] at stored
      have grown :
          (walk.answers ++
              [some (call.candidate,
                call.doc.currentIndex + 1)]).reduceOption.length =
            walk.answers.reduceOption.length + 1 := by
        simp [List.reduceOption_append]
      constructor
      · exact after
      · dsimp only
        rw [grown, ← Option.some.inj stored]
        rfl
      · intro other pending otherHolds
        dsimp only at otherHolds ⊢
        rw [grown]
        by_cases mine : other = caller
        · rw [mine, Function.update_self] at otherHolds
          cases otherHolds
        · rw [Function.update_of_ne mine] at otherHolds
          obtain ⟨earlier, bound, facts⟩ :=
            walking.pending other pending otherHolds
          exact ⟨earlier, by omega, facts⟩

end Access

/-- In an interleaving of any calls, the answers are in turn throughout
exactly when every upsert finds the document that its call got. -/
theorem walk_in_turn_iff
    [DecidableEq ι] (sequence : EvaluationSequence)
    (accesses : List (SequenceAccess ι)) :
    EveryState Walk.step (fun walk => InTurn sequence walk.answers)
        (Walk.initial sequence) accesses ↔
      EveryStep Walk.step Unchanged (Walk.initial sequence) accesses := by
  apply everyState_iff_everyStep (Walking sequence)
  · intro walk walking
    exact walking.answered
  · intro walk access walking
    cases access with
    | get caller =>
        exact
          ⟨fun _ => trivial,
            fun _ => (walking_get walking caller).answered⟩
    | upsert caller =>
        exact inTurn_upsert_iff walking caller
  · intro walk access walking after
    cases access with
    | get caller =>
        exact walking_get walking caller
    | upsert caller =>
        exact walking_upsert walking after
  · exact walking_initial sequence

/-- Two callers get the sequence before either upserts it: both return the
second candidate. -/
theorem overlapping_advances_repeat_candidate :
    ¬ EveryState Walk.step
      (fun walk =>
        InTurn (sequenceOf ⟨"alice", "t", "plan-1"⟩ ["a", "b", "c"])
          walk.answers)
      (Walk.initial
        (sequenceOf ⟨"alice", "t", "plan-1"⟩ ["a", "b", "c"]))
      [.get 1, .get 2, .upsert 1, .upsert 2] := by
  intro every
  have twice := every.2.2.2.2.once
  revert twice
  decide

end Agentcy.Runs
