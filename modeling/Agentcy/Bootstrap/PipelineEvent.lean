import Mathlib.Logic.Function.Basic
import Agentcy.Library.Run
import Agentcy.Runs.PipelineRunModel

/-!
# Starting a run in the agent processes

`Runner.launch` publishes a seed message to the entry queue of the run and a
`pipeline_started` event to all agents.  Both end in `on_pipeline_event`, which
creates the consumers of a run once and then forwards the entry tasks of its
own service.
-/

namespace Agentcy.Bootstrap

open Agentcy.Library
open Agentcy.Runs

/-- The data of a pipeline event, as far as the callback reads it. -/
structure PipelineEvent where
  event : Option String := none
  username : Option String := none
  pipelineId : Option String := none
  pipelineRunId : Option String := none
  pipelineConfigId : Option String := none
  taskId : Option String := none
  deriving DecidableEq

structure EntryMessage where
  pipelineId : String
  username : String
  pipelineRunId : String
  pipelineConfigId : String := "default_pipeline_config"
  deriving DecidableEq

inductive BootAction where
  | createConsumers (username pipelineId runId : String)
  | forwardEntry (entry : EntryMessage) (toTask : String)
  deriving DecidableEq

/-- Lifecycle events other than `pipeline_started` are skipped. -/
def PipelineEvent.bootstraps (event : PipelineEvent) : Bool :=
  match event.event with
  | none => true
  | some name => name = "" || name = "pipeline_started"

def entryTasks (cfg : PipelineConfigDoc) : List String :=
  (cfg.taskDict.entries.filter fun entry => entry.2.isEntry).map Prod.fst

def entryService (cfg : PipelineConfigDoc) (taskId : String) : String :=
  ((cfg.taskDict.get? taskId).bind TaskMeta.availableServices).getD ""

/-- Entry messages for the entry tasks that belong to this service. -/
def forwardEntries
    (cfg : PipelineConfigDoc) (serviceName : String)
    (entry : EntryMessage) : List BootAction :=
  ((entryTasks cfg).filter fun taskId =>
    entryService cfg taskId = serviceName).map (.forwardEntry entry)

/-- The callback of an agent process: the runs it has bootstrapped before and
after, and what it does.  Only the creation of consumers asks whether the run
was bootstrapped.  A configuration that cannot be loaded ends the callback. -/
def onPipelineEvent
    (finalConfig : String → String → Option PipelineConfigDoc)
    (serviceName : String) (bootstrapped : List String)
    (event : PipelineEvent) : List String × List BootAction :=
  match event.bootstraps, event.username, event.pipelineId,
    event.pipelineRunId with
  | true, some username, some pipelineId, some runId =>
      let alreadyBootstrapped := bootstrapped.contains runId
      let created :=
        if alreadyBootstrapped then []
        else [.createConsumers username pipelineId runId]
      let remembered :=
        if alreadyBootstrapped then bootstrapped
        else runId :: bootstrapped
      if event.taskId.isSome then
        (remembered, created)
      else
        match finalConfig username pipelineId with
        | none => (remembered, created)
        | some cfg =>
            let entry : EntryMessage :=
              { pipelineId := pipelineId
                username := username
                pipelineRunId := runId
                pipelineConfigId :=
                  event.pipelineConfigId.getD pipelineId }
            (remembered, created ++ forwardEntries cfg serviceName entry)
  | _, _, _, _ => (bootstrapped, [])

/-- An event delivered at the process of a service. -/
structure Delivered where
  service : String
  event : PipelineEvent

/-- One process for a service: the runs it has bootstrapped, and the actions
of all processes so far. -/
structure Processes where
  bootstrapped : String → List String := fun _ => []
  actions : List BootAction := []

def Processes.deliver
    (finalConfig : String → String → Option PipelineConfigDoc)
    (processes : Processes) (delivered : Delivered) : Processes :=
  let handled :=
    onPipelineEvent finalConfig delivered.service
      (processes.bootstrapped delivered.service) delivered.event
  { bootstrapped :=
      Function.update processes.bootstrapped delivered.service handled.1
    actions := processes.actions ++ handled.2 }

structure RunRef where
  username : String
  pipelineId : String
  runId : String
  configId : String
  deriving DecidableEq

/-- The seed in the entry queue of the run. -/
def RunRef.seed (run : RunRef) : PipelineEvent where
  username := some run.username
  pipelineId := some run.pipelineId
  pipelineRunId := some run.runId
  pipelineConfigId := some run.configId

/-- The kickoff event for all agents. -/
def RunRef.started (run : RunRef) : PipelineEvent :=
  { run.seed with event := some "pipeline_started" }

/-- The action executes the entry task for the run. -/
def RunRef.executes
    (run : RunRef) (toTask : String) (action : BootAction) : Bool :=
  match action with
  | .createConsumers _ _ _ => false
  | .forwardEntry entry task =>
      task = toTask && entry.username = run.username &&
        entry.pipelineId = run.pipelineId &&
        entry.pipelineRunId = run.runId

/-- The event makes a process forward the entry tasks of the run. -/
def RunRef.bootedBy (run : RunRef) (event : PipelineEvent) : Bool :=
  event.bootstraps && event.username = some run.username &&
    event.pipelineId = some run.pipelineId &&
    event.pipelineRunId = some run.runId && event.taskId.isNone

def executions
    (run : RunRef) (toTask : String) (processes : Processes) : Nat :=
  processes.actions.countP (run.executes toTask)

end Agentcy.Bootstrap
