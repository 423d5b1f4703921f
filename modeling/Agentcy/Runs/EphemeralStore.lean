import Mathlib.Logic.Function.Basic
import Agentcy.Runs.PipelineRunModel

/-!
# The hot stores a run touches

Run documents live in the ephemeral bucket under one key each; evaluation
sequences and contract awards live in the graph-marker collection.  Both are
plain key-value stores: a read returns the whole document, a write replaces
it, and no write is conditional on what was read.
-/

namespace Agentcy.Runs

/-- One bidder of an evaluation sequence. -/
structure Candidate where
  bidderId : String
  serviceName : Option String := none
  bidScore : ℚ := 0
  bidId : Option String := none
  cfpId : Option String := none
  deriving DecidableEq

structure EvaluationSequence where
  taskId : String
  pipelineId : String
  pipelineRunId : Option String := none
  planId : String
  cfpId : Option String := none
  candidates : List Candidate := []
  currentIndex : Nat := 0
  deriving DecidableEq

structure ContractAward where
  username : String
  taskId : String
  bidderId : String
  bidId : Option String := none
  cfpId : Option String := none
  pipelineId : Option String := none
  pipelineRunId : Option String := none
  status : String := "awarded"
  deriving DecidableEq

/-- The documents that run handling reads and writes. -/
structure Stores where
  runs : String → Option RunDoc
  sequences : String → Option EvaluationSequence := fun _ => none
  awards : List ContractAward := []

def runKey (username pipelineId runId : String) : String :=
  "pipeline_run::" ++ username ++ "::" ++ pipelineId ++ "::" ++ runId

/-- Key of the run document that a task event is about. -/
def TaskState.runKey (task : TaskState) : String :=
  Runs.runKey task.username task.pipelineId task.pipelineRunId

def evalSeqKey (username taskId planId : String) : String :=
  "eval_seq::" ++ username ++ "::" ++ taskId ++ "::" ++ planId

namespace Stores

def readRun (stores : Stores) (key : String) : Option RunDoc :=
  stores.runs key

def updateRun (stores : Stores) (key : String) (doc : RunDoc) : Stores :=
  { stores with runs := Function.update stores.runs key (some doc) }

def addContractAward (stores : Stores) (award : ContractAward) : Stores :=
  { stores with awards := stores.awards ++ [award] }

def saveEvaluationSequence
    (stores : Stores) (username : String)
    (sequence : EvaluationSequence) : Stores :=
  { stores with
    sequences :=
      Function.update stores.sequences
        (evalSeqKey username sequence.taskId sequence.planId)
        (some sequence) }

/-- Move the cursor of a stored sequence to its next candidate, which comes
back with its index; an exhausted or absent sequence stays as it is. -/
def advanceEvaluationSequence
    (stores : Stores) (username taskId planId : String) :
    Stores × Option (Candidate × Nat) :=
  let key := evalSeqKey username taskId planId
  match stores.sequences key with
  | none => (stores, none)
  | some sequence =>
      let nextIndex := sequence.currentIndex + 1
      match sequence.candidates[nextIndex]? with
      | none => (stores, none)
      | some candidate =>
          ({ stores with
              sequences :=
                Function.update stores.sequences key
                  (some { sequence with currentIndex := nextIndex }) },
            some (candidate, nextIndex))

/-- The candidate that `advanceEvaluationSequence` would move to. -/
def nextCandidate?
    (stores : Stores) (username taskId planId : String) :
    Option (Candidate × Nat) :=
  (stores.sequences (evalSeqKey username taskId planId)).bind
    fun sequence =>
      (sequence.candidates[sequence.currentIndex + 1]?).map
        fun candidate => (candidate, sequence.currentIndex + 1)

@[simp]
theorem readRun_updateRun_self
    (stores : Stores) (key : String) (doc : RunDoc) :
    (stores.updateRun key doc).readRun key = some doc := by
  simp [readRun, updateRun]

theorem readRun_updateRun_other
    (stores : Stores) {tested key : String} (doc : RunDoc)
    (different : tested ≠ key) :
    (stores.updateRun key doc).readRun tested = stores.readRun tested := by
  simp [readRun, updateRun, different]

@[simp]
theorem readRun_addContractAward
    (stores : Stores) (award : ContractAward) (key : String) :
    (stores.addContractAward award).readRun key = stores.readRun key :=
  rfl

@[simp]
theorem advanceEvaluationSequence_snd
    (stores : Stores) (username taskId planId : String) :
    (stores.advanceEvaluationSequence username taskId planId).2 =
      stores.nextCandidate? username taskId planId := by
  unfold advanceEvaluationSequence nextCandidate?
  cases stored : stores.sequences (evalSeqKey username taskId planId) with
  | none =>
      simp only [stored, Option.bind_none]
  | some sequence =>
      cases found : sequence.candidates[sequence.currentIndex + 1]? with
      | none =>
          simp only [stored, found, Option.bind_some, Option.map_none]
      | some candidate =>
          simp only [stored, found, Option.bind_some, Option.map_some]

@[simp]
theorem readRun_advanceEvaluationSequence
    (stores : Stores) (username taskId planId key : String) :
    ((stores.advanceEvaluationSequence username taskId planId).1).readRun
        key = stores.readRun key := by
  unfold advanceEvaluationSequence
  dsimp only
  split
  · rfl
  · split <;> rfl

end Stores

end Agentcy.Runs
