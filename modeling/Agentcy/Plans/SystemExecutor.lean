import Agentcy.Library.PyText
import Agentcy.Plans.PlanDrafts
import Mathlib.Data.List.MinMax

/-!
# The system executor

The executor runs the tasks of a plan, in simulation or by asking for their
services to be started, and reports on them.  Before that it asks the latest
ethics check and the latest human approval of the plan, where the environment
requires them.  Durations and the metadata of outcomes are left out.
-/

namespace Agentcy.Plans

open Agentcy.Library

/-- What the executor finds outside the store. -/
structure ExecutorSetup where
  python : PyBuiltins
  /-- `EXECUTION_REQUIRE_ETHICS`. -/
  requireEthics : Option String := none
  /-- `EXECUTION_REQUIRE_HUMAN`. -/
  requireHuman : Option String := none
  /-- `SYSTEM_EXECUTION_MODE`. -/
  executionMode : Option String := none
  rabbitConfigured : Bool := false
  /-- The entries of the service store, each with its document. -/
  services : Option (List (Fields × Fields)) := none
  /-- The agent registry. -/
  registry : Option (String → Option Fields) := none
  /-- Why publishing a start command fails, if it does. -/
  publishError : String → Option String := fun _ => none

structure ExecutionOutcome where
  taskId : String
  agentId : Json
  success : Bool
  error : Option String

structure ExecutionReport where
  planId : String
  pipelineRunId : Option String
  outcomes : List ExecutionOutcome
  successRate : Rat

/-- A command that asks for the service of a task to be started. -/
structure StartTask where
  taskId : String
  serviceName : String
  runtime : Json
  artifact : Fields

inductive ExecutionMode where
  | simulate
  | launch
  deriving DecidableEq

structure ExecutionResult where
  report : ExecutionReport
  started : List StartTask
  blockReason : Option String := none

/-- `str(item.get(field) or "")`. -/
def timestampText (python : PyBuiltins) (field : String)
    (item : Fields) : String :=
  let value := item.get field
  if value.truthy then value.pyStr python else ""

/-- `_latest_by_timestamp`: the first of the items with the greatest text. -/
def latestByTimestamp (python : PyBuiltins) (items : List Fields)
    (field : String) : Option Fields :=
  items.argmax (timestampText python field)

/-- The items of a listing, or else the copy of the latest record. -/
def listOrLatest (items : List Fields) (latest : Option Fields) :
    List Fields :=
  if items.isEmpty then latest.toList else items

/-- A gate that reads records of a plan is closed by a latest record that does
not approve. -/
def gateCloses (python : PyBuiltins) (required : Bool)
    (items : List Fields) (field : String) : Bool :=
  required &&
    match latestByTimestamp python items field with
    | none => false
    | some latest =>
        !latest.isEmpty && !(latest.get "approved").truthy

def ExecutorSetup.ethicsRequired (setup : ExecutorSetup) : Bool :=
  decide (setup.requireEthics.getD "1" ≠ "0")

def ExecutorSetup.humanRequired (setup : ExecutorSetup) : Bool :=
  decide (setup.requireHuman.getD "0" = "1")

/-- `_truthy`. -/
def truthyText (python : PyBuiltins) : Json → Bool
  | .bool value => value
  | .null => false
  | value =>
      python.lower (PyText.strip (value.pyStr python)) ∈
        ["1", "true", "yes", "y"]

/-- `first or second`. -/
def orElse (first second : Json) : Json :=
  if first.truthy then first else second

/-- A value as a dict; anything else counts as the empty one. -/
def dictOrEmpty : Json → Fields
  | .dict fields => fields
  | _ => []

def taskMetadata (task : Fields) : Fields :=
  dictOrEmpty (task.get "metadata")

/-- `_resolve_mode`. -/
def ExecutorSetup.resolveMode (setup : ExecutorSetup) : ExecutionMode :=
  let raw :=
    setup.python.lower (PyText.strip (setup.executionMode.getD "auto"))
  if raw ∈ ["simulate", "stub"] then .simulate
  else if raw ∈ ["launch", "real"] then .launch
  else if !setup.rabbitConfigured || setup.services.isNone then .simulate
  else .launch

/-- `_resolve_service_name`. -/
def ExecutorSetup.resolveServiceName (setup : ExecutorSetup)
    (task : Fields) : Option String :=
  let named :=
    orElse (task.get "service_name")
      ((taskMetadata task).get "service_name")
  if named.truthy then some (named.pyStr setup.python)
  else
    let agentId := task.get "assigned_agent"
    if agentId.truthy then do
      let registry ← setup.registry
      let entry ← registry (agentId.pyStr setup.python)
      let service := entry.get "service_name"
      if service.truthy then some (service.pyStr setup.python) else none
    else none

/-- The document of the service that goes by a name; of several entries the
last one counts. -/
def ExecutorSetup.serviceDoc? (setup : ExecutorSetup) (name : String) :
    Option Fields := do
  let services ← setup.services
  let entry ← services.reverse.find? fun service =>
    (service.1.get "service_name").truthy &&
      (service.1.get "service_id").truthy &&
      decide ((service.1.get "service_name").pyStr setup.python = name)
  return entry.2

/-- `text.rsplit(":", 1)`, if there is a colon. -/
def rsplitColon? (text : String) : Option (String × String) :=
  let back := text.toList.reverse
  let tag := back.takeWhile (· ≠ ':')
  match back.dropWhile (· ≠ ':') with
  | [] => none
  | _ :: repo =>
      some (String.ofList repo.reverse, String.ofList tag.reverse)

/-- `_resolve_runtime_and_artifact`: the runtime, and the artifact or the
reason why there is none. -/
def resolveRuntimeAndArtifact (python : PyBuiltins) (task : Fields)
    (serviceDoc : Option Fields) : Json × Except String Fields :=
  let metadata := taskMetadata task
  let service := serviceDoc.getD []
  let runtime :=
    orElse (orElse (task.get "runtime") (metadata.get "runtime"))
      (service.get "runtime")
  let artifact :=
    orElse (orElse (task.get "artifact") (metadata.get "artifact"))
      (service.get "artifact")
  let imageTag :=
    orElse (service.get "image_tag") (metadata.get "image_tag")
  let isContainer := runtime.pyEq (.str "container")
  let artifact : Json :=
    match artifact with
    | .null =>
        if isContainer && imageTag.truthy then
          .str (imageTag.pyStr python)
        else .null
    | given => given
  match artifact with
  | .str text =>
      if isContainer then
        match rsplitColon? text with
        | some (repo, tag) =>
            (runtime, .ok [("repo", .str repo), ("tag", .str tag)])
        | none => (runtime, .error "container_artifact_missing_tag")
      else
        (runtime, .ok [("kind", .str "entry"), ("entry", .str text)])
  | .dict fields => (runtime, .ok fields)
  | _ => (runtime, .error "artifact_unavailable")

/-- The parts of the message that say which tasks are to fail. -/
structure Overrides where
  failTaskIds : List Json
  executionOverrides : Fields

/-- The message or the task itself asks for the task to fail. -/
def forceFails (python : PyBuiltins) (overrides : Overrides)
    (task : Fields) : Bool :=
  let taskId := task.get "task_id"
  let changes :=
    match taskId with
    | .str text => dictOrEmpty (overrides.executionOverrides.get text)
    | _ => []
  let unsuccessful :=
    match changes.get "success" with
    | .bool false => true
    | _ => false
  unsuccessful || truthyText python (changes.get "force_fail") ||
    truthyText python (task.get "simulate_failure") ||
    truthyText python ((taskMetadata task).get "force_fail") ||
    overrides.failTaskIds.any fun failed => failed.pyEq taskId

def failedOutcome (python : PyBuiltins) (task : Fields)
    (error : String) : ExecutionOutcome where
  taskId := (task.get "task_id").pyStr python
  agentId := task.get "assigned_agent"
  success := false
  error := some error

/-- What becomes of a task in launch mode: an outcome right away, or a
command. -/
def ExecutorSetup.launchTask (setup : ExecutorSetup)
    (overrides : Overrides) (task : Fields) :
    ExecutionOutcome ⊕ StartTask :=
  match setup.resolveServiceName task with
  | none => .inl (failedOutcome setup.python task "service_name_unresolved")
  | some serviceName =>
      match resolveRuntimeAndArtifact setup.python task
          (setup.serviceDoc? serviceName) with
      | (_, .error reason) => .inl (failedOutcome setup.python task reason)
      | (runtime, .ok artifact) =>
          if forceFails setup.python overrides task then
            .inl (failedOutcome setup.python task "forced_failure")
          else
            .inr
              { taskId := (task.get "task_id").pyStr setup.python
                serviceName := serviceName
                runtime := orElse runtime (.str "python_plugin")
                artifact := artifact }

/-- The outcomes of the tasks that have none yet: a task whose command was not
published is a failure. -/
def ExecutorSetup.launchOutcomes (setup : ExecutorSetup)
    (publishError : String → Option String) :
    List ExecutionOutcome → List Fields → List ExecutionOutcome
  | outcomes, [] => outcomes
  | outcomes, task :: tasks =>
      let taskId := (task.get "task_id").pyStr setup.python
      if outcomes.any fun outcome => decide (outcome.taskId = taskId) then
        setup.launchOutcomes publishError outcomes tasks
      else
        let error := publishError taskId
        setup.launchOutcomes publishError
          (outcomes ++
            [{ taskId := taskId
               agentId := task.get "assigned_agent"
               success := error.isNone
               error := error }])
          tasks

def ExecutorSetup.launch (setup : ExecutorSetup) (overrides : Overrides)
    (tasks : List Fields) : List ExecutionOutcome × List StartTask :=
  let named := tasks.filter fun task => (task.get "task_id").truthy
  let launched := named.map (setup.launchTask overrides)
  let commands := launched.filterMap Sum.getRight?
  let publishError : String → Option String := fun taskId =>
    if commands.any (fun command => decide (command.taskId = taskId)) then
      if setup.rabbitConfigured then setup.publishError taskId
      else some "rabbit_not_configured"
    else none
  (setup.launchOutcomes publishError (launched.filterMap Sum.getLeft?)
      tasks,
    commands.filter fun command => (publishError command.taskId).isNone)

def simulateTask (python : PyBuiltins) (overrides : Overrides)
    (task : Fields) : ExecutionOutcome :=
  let fails := forceFails python overrides task
  { taskId := (task.get "task_id").pyStr python
    agentId := task.get "assigned_agent"
    success := !fails
    error := if fails then some "simulated_failure" else none }

def successRate (outcomes : List ExecutionOutcome) : Rat :=
  if outcomes.isEmpty then 0
  else
    (outcomes.countP fun outcome => outcome.success : Rat) /
      outcomes.length

/-! ## The executor -/

/-- `run`, once the plan's draft is loaded.  A closed gate leaves an empty
report. -/
def ExecutorSetup.run (setup : ExecutorSetup) (draft : PlanDraft)
    (pipelineRunId : Option String) (overrides : Overrides)
    (tasks ethicsChecks humanApprovals : List Fields) : ExecutionResult :=
  let empty : ExecutionReport := ⟨draft.planId, pipelineRunId, [], 0⟩
  if gateCloses setup.python setup.ethicsRequired ethicsChecks
      "checked_at" then
    { report := empty
      started := []
      blockReason := some "ethics_rejected" }
  else if gateCloses setup.python setup.humanRequired humanApprovals
      "decided_at" then
    { report := empty
      started := []
      blockReason := some "human_rejected" }
  else
    let (outcomes, started) :=
      match setup.resolveMode with
      | .launch => setup.launch overrides tasks
      | .simulate =>
          ((tasks.filter fun task => (task.get "task_id").truthy).map
            (simulateTask setup.python overrides), [])
    { report :=
        ⟨draft.planId, pipelineRunId, outcomes, successRate outcomes⟩
      started := started }

end Agentcy.Plans
