import Mathlib.Data.Rat.Defs
import Agentcy.Library.OrderedMap

/-!
# Pipeline-run documents

The records of `pipeline_run_model.py` and of the hot bucket.  A stored run
document is the dump of a `PipelineRun` together with the keys that other
writers put next to it, of which the tracker reads `plan_id`; the record type
`PipelineRun` ignores those keys when it validates a document.
-/

namespace Agentcy.Runs

open Agentcy.Library

abbrev Timestamp := Int

inductive Json where
  | null
  | bool (value : Bool)
  | number (value : ℚ)
  | text (value : String)
  | array (items : List Json)
  | object (fields : List (String × Json))

instance : Inhabited Json :=
  ⟨.null⟩

inductive PipelineStatus where
  | running
  | completed
  | failed
  | idle
  deriving DecidableEq, Repr

namespace PipelineStatus

def IsTerminal (status : PipelineStatus) : Prop :=
  status = .completed ∨ status = .failed

instance (status : PipelineStatus) : Decidable status.IsTerminal :=
  inferInstanceAs (Decidable (_ ∨ _))

end PipelineStatus

inductive TaskStatus where
  | pending
  | running
  | completed
  | failed
  | idle
  deriving DecidableEq, Repr

/-- State of one task of a run; it is also the event a forwarder reports. -/
structure TaskState where
  status : TaskStatus
  attempts : Int := 0
  error : Option String := none
  result : Option String := none
  outputRef : Option String := none
  isFinalTask : Option Bool := some false
  startedAt : Timestamp := 0
  started : Timestamp := 0
  lastUpdated : Timestamp := 0
  pipelineRunId : String
  taskId : String
  username : String
  pipelineConfigId : Option String := none
  pipelineId : String := ""
  serviceName : String := ""
  data : OrderedMap String Json := .empty

def TaskState.markedFinal (task : TaskState) : Bool :=
  task.isFinalTask.getD false

structure Metadata where
  region : String
  environment : String
  extraInfo : String

structure PipelineRun where
  pipelineRunId : String
  pipelineId : String
  status : PipelineStatus
  tasks : OrderedMap String TaskState
  startedAt : Option Timestamp := none
  finishedAt : Option Timestamp := none
  triggeredBy : String
  metadata : Option Metadata := none
  pipelineConfigId : Option String := none
  finalTaskIds : List String := []
  paused : Bool := false
  pauseReason : Option String := none
  pauseContext : Option (OrderedMap String Json) := some .empty
  pausedAt : Option Timestamp := none
  resumedAt : Option Timestamp := none

/-- A run document as it lies in the hot bucket: the fields of the run and
the keys that the run model does not know. -/
structure RunDoc where
  run : PipelineRun
  planId : Option String := none
  planRevision : Option Int := none
  extra : OrderedMap String Json := .empty

/-- Dumping a run writes the fields of the model and nothing else. -/
def PipelineRun.modelDump (run : PipelineRun) : RunDoc where
  run := run

def RunDoc.taskStatus? (doc : RunDoc) (taskId : String) :
    Option TaskStatus :=
  (doc.run.tasks.get? taskId).map TaskState.status

structure TaskMeta where
  availableServices : Option String := none
  service : Option String := none
  description : Option String := none
  isEntry : Bool := false
  isFinalTask : Bool := false
  inferredOutputs : List String := []

/-- The parts of a stored pipeline configuration that run handling reads. -/
structure PipelineConfigDoc where
  taskDict : OrderedMap String TaskMeta := .empty
  taskOutputs : Option (OrderedMap String (List String)) := none
  taskGraph : Option (OrderedMap String (List String)) := none
  executionOrder : Option (List String) := none

/-- The run document of a fresh run: every configured task pending, the
flagged ones final. -/
def seedInitialRun
    (username pipelineId runId : String) (cfg : PipelineConfigDoc)
    (pipelineConfigId : Option String) (now : Timestamp) : PipelineRun where
  pipelineRunId := runId
  pipelineId := pipelineId
  pipelineConfigId := pipelineConfigId
  status := .running
  tasks := cfg.taskDict.mapValues fun taskId taskMeta =>
    { status := .pending
      startedAt := now
      started := now
      lastUpdated := now
      taskId := taskId
      username := username
      pipelineId := pipelineId
      pipelineRunId := runId
      pipelineConfigId := pipelineConfigId
      serviceName := taskMeta.availableServices.getD ""
      isFinalTask := some taskMeta.isFinalTask }
  startedAt := some now
  finishedAt := none
  triggeredBy := username
  metadata := none
  finalTaskIds :=
    (cfg.taskDict.entries.filter fun entry => entry.2.isFinalTask).map
      Prod.fst

end Agentcy.Runs
