import Mathlib.Logic.Function.Basic
import Agentcy.Broker.RabbitConfig

/-!
# Pipelines and their stored documents

A pipeline is stored as two documents under two keys: the pipeline document,
and the generated `pipeline_config` document.  Both hold the broker entries of
the pipeline.
-/

namespace Agentcy.PipelineStore

open Agentcy.Broker

/-- The inputs of a task, as far as they are read. -/
structure TaskInputs where
  dependencies : Option (List String) := none
  deriving DecidableEq

structure Task where
  id : String
  name : String
  availableServices : String
  action : String
  isEntry : Bool
  description : Option String := none
  inputs : Option TaskInputs := none
  isFinalTask : Bool
  deriving DecidableEq

/-- A task of the example shop; every task runs on the one service. -/
def shopTask
    (id : String) (dependencies : List String) (isFinalTask : Bool) :
    Task where
  id := id
  name := id
  availableServices := "shop"
  action := id
  isEntry := dependencies.isEmpty
  inputs := some ⟨some dependencies⟩
  isFinalTask := isFinalTask

structure DAGConfig where
  tasks : List Task
  deriving DecidableEq

structure RetryPolicy where
  maxRetries : Int
  backoffStrategy : String
  deriving DecidableEq

structure ErrorHandling where
  retryPolicy : RetryPolicy
  onFailure : String
  deriving DecidableEq

/-- The fields of a `PipelineConfig` other than `dag`; times are ISO
strings. -/
structure PipelineMeta where
  pipelineId : String
  authors : Option (List String) := some []
  createdAt : Option String := none
  updatedAt : Option String := none
  vhost : String
  name : String
  description : Option String := none
  pipelineName : String
  lastUpdated : String
  version : Int := 1
  errorHandling : ErrorHandling
  finalTaskIds : List String := []
  deriving DecidableEq

structure PipelineConfig extends PipelineMeta where
  dag : DAGConfig
  deriving DecidableEq

def Task.dependencies (task : Task) : List String :=
  (task.inputs.bind TaskInputs.dependencies).getD []

def deriveFinalTaskIds (dag : DAGConfig) : List String :=
  let allIds := dag.tasks.map Task.id
  let dependedOn := dag.tasks.flatMap Task.dependencies
  let leaves := allIds.filter fun taskId => !dependedOn.contains taskId
  let flagged := (dag.tasks.filter Task.isFinalTask).map Task.id
  allIds.filter fun taskId =>
    leaves.contains taskId || flagged.contains taskId

/-- What `parse_graph` and `generate_rabbitmq_config` add to the metadata of
a pipeline, as far as the store reads it. -/
structure Wiring where
  rabbitmqConfigs : List RabbitConfig
  rabbitmqTopology : String
  rabbitmqYamlManifest : String
  deriving DecidableEq

/-- The body of a `pipeline_config` document. -/
structure FinalConfig extends PipelineMeta, Wiring
  deriving DecidableEq

structure PipelineDocument extends PipelineConfig where
  rabbitmqConfigs : List RabbitConfig
  deriving DecidableEq

/-- The REST endpoint stores a stub, `update` a full document. -/
inductive StoredPipeline where
  | stub (pipelineId pipelineName createdAt lastUpdated : String)
      (version : Int)
  | full (document : PipelineDocument)
  deriving DecidableEq

def StoredPipeline.rabbitmqConfigs? :
    StoredPipeline → Option (List RabbitConfig)
  | .stub .. => none
  | .full document => some document.rabbitmqConfigs

def docKey (username pipelineId : String) : String :=
  "pipeline::" ++ username ++ "::" ++ pipelineId

def cfgKey (username pipelineId : String) : String :=
  "pipeline_config::" ++ username ++ "::" ++ pipelineId

structure Collections where
  pipelines : String → Option StoredPipeline
  configs : String → Option FinalConfig

namespace Collections

/-- The result is `none` also where the store raises a 404. -/
def getFinalConfig
    (stored : Collections) (username pipelineId : String) :
    Option FinalConfig :=
  stored.configs (cfgKey username pipelineId)

def read
    (stored : Collections) (username pipelineId : String) :
    Option StoredPipeline :=
  stored.pipelines (docKey username pipelineId)

def upsertPipeline
    (stored : Collections) (key : String) (document : PipelineDocument) :
    Collections :=
  { stored with
    pipelines :=
      Function.update stored.pipelines key (some (.full document)) }

def upsertConfig
    (stored : Collections) (key : String) (finalCfg : FinalConfig) :
    Collections :=
  { stored with
    configs := Function.update stored.configs key (some finalCfg) }

end Collections

/-- The two documents of one pipeline. -/
structure DocumentPair where
  pipeline : Option StoredPipeline
  config : Option FinalConfig
  deriving DecidableEq

def Collections.pair
    (stored : Collections) (username pipelineId : String) :
    DocumentPair where
  pipeline := stored.read username pipelineId
  config := stored.getFinalConfig username pipelineId

/-- Both documents hold the same broker entries. -/
def DocumentPair.Agrees (pair : DocumentPair) : Prop :=
  pair.pipeline.bind StoredPipeline.rabbitmqConfigs? =
    pair.config.map fun finalCfg => finalCfg.rabbitmqConfigs

instance (pair : DocumentPair) : Decidable pair.Agrees :=
  inferInstanceAs (Decidable (_ = _))

end Agentcy.PipelineStore
