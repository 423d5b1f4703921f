import Agentcy.Parser.ConfigParser
import Agentcy.PipelineStore.Documents
import Agentcy.Topology.Skeleton

/-!
# The topology compiler

`compile_skeleton_to_pipeline` turns a skeleton into the dictionary of a
`PipelineCreate`.  A step without dependencies gets no `inputs`, and the parser
asks the `inputs` of every task for its dependencies: no skeleton that is a DAG
is ever accepted.
-/

namespace Agentcy.Topology

open Agentcy.Library
open Agentcy.Parser (SetOrder parseGraph)
open Agentcy.PipelineStore (RetryPolicy ErrorHandling)

structure WorkflowStep where
  stepId : String
  description : String
  inferredCapabilities : List String
  inferredTags : List String
  dependencies : List String
  isEntry : Bool
  isFinal : Bool

def skeletonStepToWorkflowStep (step : SkeletonStep) : WorkflowStep where
  stepId := step.stepId
  description := step.description
  inferredCapabilities := step.requiredCapabilities
  inferredTags := step.requiredTags
  dependencies := step.dependencies
  isEntry := step.isEntry
  isFinal := step.isFinal

structure TemplateMatch where
  templateName : Json
  confidence : Rat

/-- The floating-point part of the matching: the score of a template, the
rounding of confidences, and the text of their mean.  Every template has a
score, as the API validates templates before it stores them. -/
structure Scoring where
  scoreTemplateForStep : WorkflowStep → Fields → Rat
  round : Rat → Rat
  qualityText : List Rat → String

section Matching

variable (scoring : Scoring)

def matchStepToTemplates
    (templates : List Fields) (minScore : Rat) (step : WorkflowStep) :
    List TemplateMatch :=
  let scored := templates.filterMap fun template =>
    let enabled := (OrderedMap.lookupEntries "enabled" template).getD
      (.bool true)
    let score := scoring.scoreTemplateForStep step template
    if enabled.truthy ∧ minScore ≤ score then
      some {
        templateName := (OrderedMap.lookupEntries "name" template).getD
          (.str "")
        confidence := scoring.round score }
    else none
  scored.insertionSort fun first second =>
    second.confidence ≤ first.confidence

def bestMatches
    (steps : List WorkflowStep) (templates : List Fields)
    (minScore : Rat) : OrderedMap String (Option TemplateMatch) :=
  .ofList (steps.map fun step =>
    (step.stepId,
      (matchStepToTemplates scoring templates minScore step).head?))

def matchQualityScore
    (best : OrderedMap String (Option TemplateMatch)) : String :=
  scoring.qualityText (best.values.map fun found =>
    (found.map TemplateMatch.confidence).getD 0)

end Matching

/-- A task of the compiled dictionary. -/
structure CompiledTask where
  id : String
  name : String
  availableServices : Json
  action : String
  isEntry : Bool
  isFinalTask : Bool
  description : String
  inputs : Option Fields

/-- The compiled dictionary. -/
structure CompiledPipeline where
  name : String
  vhost : String
  pipelineName : String
  description : String
  tasks : List CompiledTask
  errorHandling : Fields

def retryHandling
    (maxRetries : Int) (backoffStrategy onFailure : String) : Fields :=
  [("retry_policy", .dict
      [("max_retries", .int maxRetries),
        ("backoff_strategy", .str backoffStrategy)]),
    ("on_failure", .str onFailure)]

def errorHandlingForCriticality (criticality : String) : Fields :=
  if criticality = "high" then retryHandling 5 "exponential" "escalate"
  else if criticality = "medium" then retryHandling 3 "exponential" "retry"
  else retryHandling 1 "linear" "skip"

/-- `{"dependencies": [...]} if step.dependencies else None`. -/
def compiledInputs (dependencies : List String) : Option Fields :=
  if dependencies.isEmpty then none
  else some [("dependencies", .list (dependencies.map Json.str))]

def compileStep
    (found : OrderedMap String (Option TemplateMatch))
    (step : SkeletonStep) : CompiledTask where
  id := step.stepId
  name := step.name
  availableServices :=
    match (found.get? step.stepId).join with
    | some best => best.templateName
    | none => .str (step.role ++ "-service")
  action := "process"
  isEntry := step.isEntry
  isFinalTask := step.isFinal
  description := if step.description = "" then step.name
    else step.description
  inputs := compiledInputs step.dependencies

def compileSkeletonToPipeline
    (scoring : Scoring) (skeleton : TopologySkeleton)
    (template : BusinessTemplate) (agentTemplates : List Fields)
    (vhost : String) : CompiledPipeline :=
  let found := bestMatches scoring
    (skeleton.steps.map skeletonStepToWorkflowStep) agentTemplates 0
  { name := template.workflowClass ++ "_" ++
      (skeleton.skeletonId.take 8).toString
    vhost := vhost
    pipelineName := "topology_" ++ template.workflowClass
    description := "Auto-generated from topology skeleton '" ++
      skeleton.name ++ "'. Match quality: " ++
      matchQualityScore scoring found ++ "."
    tasks := skeleton.steps.map (compileStep found)
    errorHandling :=
      match skeleton.defaultErrorHandling with
      | some (field :: rest) => field :: rest
      | _ => errorHandlingForCriticality template.decisionCriticality }

structure CreateTask where
  id : String
  name : String
  availableServices : String
  action : String
  isEntry : Bool
  isFinalTask : Bool
  description : Option String
  inputs : Option Fields

/-- A DAG of the creation model, with the check of its validator. -/
structure CreateDag where
  tasks : List CreateTask
  mustHaveAtLeastOneFinal : tasks.any CreateTask.isFinalTask = true

structure PipelineCreate where
  vhost : String
  name : String
  description : Option String
  pipelineName : String
  dag : CreateDag
  errorHandling : ErrorHandling

def validateTask (task : CompiledTask) : Option CreateTask :=
  match task.availableServices with
  | .str services => some {
      id := task.id
      name := task.name
      availableServices := services
      action := task.action
      isEntry := task.isEntry
      isFinalTask := task.isFinalTask
      description := some task.description
      inputs := task.inputs }
  | _ => none

/-- `PipelineCreate.model_validate`; the coercions of the error handling are
left open. -/
def modelValidate (errorHandling? : Fields → Option ErrorHandling)
    (compiled : CompiledPipeline) : Option PipelineCreate :=
  match compiled.tasks.mapM validateTask,
      errorHandling? compiled.errorHandling with
  | some tasks, some errorHandling =>
      if anyFinal : tasks.any CreateTask.isFinalTask = true then some {
        vhost := compiled.vhost
        name := compiled.name
        description := some compiled.description
        pipelineName := compiled.pipelineName
        dag := ⟨tasks, anyFinal⟩
        errorHandling := errorHandling }
      else none
  | _, _ => none

/-- `dag.model_dump()`, with the keys that the parser reads. -/
def CreateDag.modelDump (dag : CreateDag) : List Parser.Task :=
  dag.tasks.map fun task => {
    id := task.id
    name := task.name
    availableServices := task.availableServices
    inputs := task.inputs }

end Agentcy.Topology
