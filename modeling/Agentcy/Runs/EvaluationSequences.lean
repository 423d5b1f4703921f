import Mathlib.Data.List.ReduceOption
import Agentcy.Library.KeyedStore
import Agentcy.Runs.EphemeralStore

/-!
# Evaluation sequences of several runs

A sequence is stored under the user, the task and the plan it was built for.
The run it was built for is a field of the sequence and not a part of the key,
so that runs which look up one plan share the sequence and its cursor.
-/

namespace Agentcy.Runs

open Agentcy.Library

/-- What a stored sequence is called by. -/
structure SequenceName where
  username : String
  taskId : String
  planId : String
  deriving DecidableEq

def SequenceName.key (name : SequenceName) : String :=
  evalSeqKey name.username name.taskId name.planId

/-- A call of `save_evaluation_sequence` or `advance_evaluation_sequence`. -/
inductive SequenceCall where
  | save (username : String) (sequence : EvaluationSequence)
  | advance (name : SequenceName)

namespace SequenceCall

def name : SequenceCall → SequenceName
  | .save username sequence =>
      ⟨username, sequence.taskId, sequence.planId⟩
  | .advance name => name

end SequenceCall

/-- A call made on behalf of a run. -/
structure RunCall where
  runId : String
  call : SequenceCall

/-- What the advances of one run return in an interleaving of the calls of
all runs. -/
def returned (runId : String) :
    Stores → List RunCall → List (Option (Candidate × Nat))
  | _, [] => []
  | stores, ⟨_, .save username sequence⟩ :: rest =>
      returned runId (stores.saveEvaluationSequence username sequence) rest
  | stores, ⟨caller, .advance name⟩ :: rest =>
      let advanced :=
        stores.advanceEvaluationSequence name.username name.taskId
          name.planId
      if caller = runId then
        advanced.2 :: returned runId advanced.1 rest
      else
        returned runId advanced.1 rest

/-- The calls that one run makes. -/
def callsOfRun (runId : String) (calls : List RunCall) : List RunCall :=
  calls.filter fun made => made.runId = runId

/-- The cursor step of `advance_evaluation_sequence` on the stored value. -/
def advanceCell :
    Option EvaluationSequence →
      Option EvaluationSequence × Option (Candidate × Nat)
  | none => (none, none)
  | some sequence =>
      match sequence.candidates[sequence.currentIndex + 1]? with
      | none => (some sequence, none)
      | some candidate =>
          (some { sequence with currentIndex := sequence.currentIndex + 1 },
            some (candidate, sequence.currentIndex + 1))

/-- A save answers nothing, an advance answers what it returns. -/
def RunCall.keyed (made : RunCall) :
    KeyedCall String EvaluationSequence String
      (Option (Option (Candidate × Nat))) where
  owner := made.runId
  key := made.call.name.key
  act :=
    match made.call with
    | .save _ sequence => fun _ => (some sequence, none)
    | .advance _ => fun cell =>
        ((advanceCell cell).1, some (advanceCell cell).2)

theorem advanceEvaluationSequence_eq
    (stores : Stores) (name : SequenceName) :
    stores.advanceEvaluationSequence name.username name.taskId
        name.planId =
      ({ stores with
          sequences :=
            Function.update stores.sequences name.key
              (advanceCell (stores.sequences name.key)).1 },
        (advanceCell (stores.sequences name.key)).2) := by
  unfold Stores.advanceEvaluationSequence SequenceName.key
  dsimp only
  cases stored :
      stores.sequences
        (evalSeqKey name.username name.taskId name.planId) with
  | none =>
      simp only [advanceCell]
      rw [← stored, Function.update_eq_self]
  | some sequence =>
      simp only [advanceCell]
      cases sequence.candidates[sequence.currentIndex + 1]? with
      | none =>
          simp only
          rw [← stored, Function.update_eq_self]
      | some candidate =>
          rfl

theorem returned_eq_answers
    (runId : String) (stores : Stores) (calls : List RunCall) :
    returned runId stores calls =
      (KeyedCall.answers runId stores.sequences
        (calls.map RunCall.keyed)).reduceOption := by
  induction calls generalizing stores with
  | nil =>
      rfl
  | cons made rest inductionHypothesis =>
      obtain ⟨caller, call⟩ := made
      cases call with
      | save username sequence =>
          rw [returned, inductionHypothesis, List.map_cons,
            KeyedCall.answers]
          by_cases mine : caller = runId
          · simp [RunCall.keyed, mine, KeyedCall.perform,
              Stores.saveEvaluationSequence, SequenceCall.name,
              SequenceName.key]
          · simp [RunCall.keyed, mine, KeyedCall.perform,
              Stores.saveEvaluationSequence, SequenceCall.name,
              SequenceName.key]
      | advance name =>
          rw [returned, advanceEvaluationSequence_eq,
            inductionHypothesis, List.map_cons, KeyedCall.answers]
          by_cases mine : caller = runId
          · simp [RunCall.keyed, mine, KeyedCall.perform,
              SequenceCall.name]
          · simp [RunCall.keyed, mine, KeyedCall.perform,
              SequenceCall.name]

theorem callsOf_keyed (runId : String) (calls : List RunCall) :
    KeyedCall.callsOf runId (calls.map RunCall.keyed) =
      (callsOfRun runId calls).map RunCall.keyed := by
  rw [KeyedCall.callsOf, callsOfRun, List.filter_map]
  rfl

/-- A run whose keys no other run calls is not interfered with. -/
theorem returned_callsOfRun
    (runId : String) (stores : Stores) {calls : List RunCall}
    (separate : ∀ mine ∈ calls, mine.runId = runId →
      ∀ other ∈ calls, other.runId ≠ runId →
        mine.call.name.key ≠ other.call.name.key) :
    returned runId stores calls =
      returned runId stores (callsOfRun runId calls) := by
  rw [returned_eq_answers, returned_eq_answers, ← callsOf_keyed,
    KeyedCall.answers_callsOf]
  intro mine mineMember mineOwner other otherMember otherOwner
  obtain ⟨madeHere, hereMember, rfl⟩ := List.mem_map.mp mineMember
  obtain ⟨madeThere, thereMember, rfl⟩ := List.mem_map.mp otherMember
  exact
    separate madeHere hereMember mineOwner madeThere thereMember
      otherOwner

/-- All calls are made by one of the two runs, each under a name that the run
uses. -/
def CallsUnder
    (names : String → SequenceName → Prop) (first second : String)
    (calls : List RunCall) : Prop :=
  ∀ made ∈ calls,
    (made.runId = first ∨ made.runId = second) ∧
      names made.runId made.call.name

/-- Whatever the stores hold and however the two runs interleave their calls,
the first one is returned what it would be returned alone. -/
def Undisturbed
    (names : String → SequenceName → Prop)
    (first second : String) : Prop :=
  ∀ stores calls, CallsUnder names first second calls →
    returned first stores calls =
      returned first stores (callsOfRun first calls)

/-- Two sequences saved under one key, of which the later one is walked. -/
def sequenceOf (name : SequenceName) (bidders : List String) :
    EvaluationSequence where
  taskId := name.taskId
  pipelineId := ""
  planId := name.planId
  candidates := bidders.map fun bidder => { bidderId := bidder }

def saveUnder (name : SequenceName) (bidders : List String) :
    SequenceCall :=
  .save name.username (sequenceOf name bidders)

/-- Each run saves a sequence of its own under the shared key, and the first
run then advances. -/
def overwritten (first second : String) (mine theirs : SequenceName) :
    List RunCall :=
  [⟨first, saveUnder mine ["a", "b"]⟩,
    ⟨second, saveUnder theirs ["c", "d"]⟩,
    ⟨first, .advance mine⟩]

theorem returned_overwritten
    (first second : String) (stores : Stores)
    {mine theirs : SequenceName} (sameKey : mine.key = theirs.key) :
    returned first stores (overwritten first second mine theirs) =
      [some ({ bidderId := "d" }, 1)] := by
  simp only [SequenceName.key] at sameKey
  simp [overwritten, returned, saveUnder, sequenceOf,
    Stores.saveEvaluationSequence, Stores.nextCandidate?, sameKey]

theorem returned_alone
    {first second : String} (different : first ≠ second)
    (stores : Stores) (mine theirs : SequenceName) :
    returned first stores
        (callsOfRun first (overwritten first second mine theirs)) =
      [some ({ bidderId := "b" }, 1)] := by
  simp [overwritten, callsOfRun, different.symm, returned, saveUnder,
    sequenceOf, Stores.saveEvaluationSequence, Stores.nextCandidate?]

theorem disturbed_of_sameKey
    {names : String → SequenceName → Prop} {first second : String}
    (different : first ≠ second) {mine theirs : SequenceName}
    (usesMine : names first mine) (usesTheirs : names second theirs)
    (sameKey : mine.key = theirs.key) :
    ¬ Undisturbed names first second := by
  intro undisturbed
  have callers :
      CallsUnder names first second
        (overwritten first second mine theirs) := by
    intro made member
    simp only [overwritten, List.mem_cons, List.not_mem_nil,
      or_false] at member
    rcases member with rfl | rfl | rfl
    · exact ⟨Or.inl rfl, usesMine⟩
    · exact ⟨Or.inr rfl, usesTheirs⟩
    · exact ⟨Or.inl rfl, usesMine⟩
  have equal := undisturbed { runs := fun _ => none } _ callers
  rw [returned_overwritten first second _ sameKey,
    returned_alone different] at equal
  revert equal
  decide

theorem undisturbed_of_separate
    {names : String → SequenceName → Prop} {first second : String}
    (separate : ∀ mine theirs, names first mine → names second theirs →
      mine.key ≠ theirs.key) :
    Undisturbed names first second := by
  intro stores calls callers
  apply returned_callsOfRun
  intro mine mineMember mineRun other otherMember otherRun
  have usesMine := (callers mine mineMember).2
  have usesTheirs := (callers other otherMember).2
  rw [mineRun] at usesMine
  rw [(callers other otherMember).1.resolve_left otherRun] at usesTheirs
  exact separate _ _ usesMine usesTheirs

/-- Two runs leave each other's evaluation sequences alone in every
interleaving exactly when no two names they use have one key. -/
theorem sequences_undisturbed_iff
    (names : String → SequenceName → Prop) (first second : String)
    (different : first ≠ second) :
    Undisturbed names first second ↔
      ∀ mine theirs, names first mine → names second theirs →
        mine.key ≠ theirs.key := by
  constructor
  · intro undisturbed mine theirs usesMine usesTheirs sameKey
    exact
      disturbed_of_sameKey different usesMine usesTheirs sameKey
        undisturbed
  · exact undisturbed_of_separate

/-- The names of a run whose sequences are built with a plan of its own. -/
def plannedNames (runId : String) (name : SequenceName) : Prop :=
  name = ⟨"alice", "t", "plan-of-" ++ runId⟩

theorem planned_sequences_undisturbed :
    Undisturbed plannedNames "run-1" "run-2" := by
  apply
    (sequences_undisturbed_iff plannedNames "run-1" "run-2"
      (by decide)).mpr
  rintro mine theirs rfl rfl
  decide

/-- The names under which the inline resolution of a pipeline saves: the plan
is the pipeline, whichever run it is made for. -/
def resolvedNames
    (username pipelineId : String) (tasks : List String)
    (_runId : String) (name : SequenceName) : Prop :=
  name.username = username ∧ name.planId = pipelineId ∧
    name.taskId ∈ tasks

/-- Two runs of one pipeline with inline resolution disturb each other as
soon as one task is resolved. -/
theorem resolved_sequences_undisturbed_iff
    (username pipelineId : String) (tasks : List String)
    {first second : String} (different : first ≠ second) :
    Undisturbed (resolvedNames username pipelineId tasks) first second ↔
      tasks = [] := by
  constructor
  · intro undisturbed
    by_contra resolves
    obtain ⟨taskId, member⟩ := List.exists_mem_of_ne_nil tasks resolves
    exact
      disturbed_of_sameKey different
        (show resolvedNames username pipelineId tasks first
          ⟨username, taskId, pipelineId⟩ from ⟨rfl, rfl, member⟩)
        ⟨rfl, rfl, member⟩ rfl undisturbed
  · rintro rfl
    apply undisturbed_of_separate
    rintro mine theirs ⟨_, _, member⟩ _
    exact absurd member List.not_mem_nil

theorem one_pipeline_disturbed :
    ¬ Undisturbed (resolvedNames "alice" "pipe-1" ["t"]) "run-1"
      "run-2" := by
  intro undisturbed
  have nothing :=
    (resolved_sequences_undisturbed_iff "alice" "pipe-1" ["t"]
      (by decide)).mp undisturbed
  revert nothing
  decide

end Agentcy.Runs
