import Agentcy.Library.Dag
import Agentcy.Library.PyJson

/-!
# Topology skeletons

The models of the topology library: abstract steps, the rules that change them
under a condition on the business template, and the skeleton that holds both.
-/

namespace Agentcy.Topology

open Agentcy.Library

structure SkeletonStep where
  stepId : String
  role : String
  name : String
  description : String := ""
  requiredCapabilities : List String := []
  requiredTags : List String := []
  isEntry : Bool := false
  isFinal : Bool := false
  dependencies : List String := []
  coordinationMode : Option String := none

def SkeletonStep.node (step : SkeletonStep) : Dag.Node String where
  id := step.stepId
  dependencies := step.dependencies

inductive Operator where
  | eq
  | neq
  | isIn
  | gte
  | lte
  deriving DecidableEq

structure MutationCondition where
  field : String
  operator : Operator := .eq
  value : Json := .null

inductive ActionType where
  | insertAfter
  | insertBefore
  | remove
  | modifyField
  deriving DecidableEq

structure MutationAction where
  actionType : ActionType
  targetStepId : String
  step : Option SkeletonStep := none
  fieldPath : Option String := none
  fieldValue : Json := .null

structure MutationRule where
  ruleId : String
  name : String
  conditions : List MutationCondition := []
  actions : List MutationAction := []
  priority : Int := 0

structure TopologySkeleton where
  skeletonId : String
  name : String
  workflowClass : String
  steps : List SkeletonStep := []
  mutationRules : List MutationRule := []
  defaultErrorHandling : Option Fields := none

/-- The steps have distinct identifiers, depend on one another only, and have
no cycle. -/
def TopologySkeleton.IsDag (skeleton : TopologySkeleton) : Prop :=
  Dag.IsDag (skeleton.steps.map SkeletonStep.node)

structure BusinessTemplate where
  templateId : String
  workflowClass : String
  decisionCriticality : String := "medium"
  complianceStrictness : String := "none"
  humanApprovalRequired : Bool := false
  throughputPriority : String := "balanced"
  integrationTypes : List String := []
  volumePerDay : Nat := 0
  industry : Option String := none
  description : Option String := none
  experimentMode : Bool := false
  createdAt : String

/-- A value of `model_dump()`, which keeps times as `datetime` objects. -/
inductive Dumped where
  | json (value : Json)
  | datetime (moment : String)

def optionalStr : Option String → Json
  | none => .null
  | some text => .str text

def BusinessTemplate.modelDump (template : BusinessTemplate) :
    List (String × Dumped) :=
  [("template_id", .json (.str template.templateId)),
    ("workflow_class", .json (.str template.workflowClass)),
    ("decision_criticality", .json (.str template.decisionCriticality)),
    ("compliance_strictness", .json (.str template.complianceStrictness)),
    ("human_approval_required",
      .json (.bool template.humanApprovalRequired)),
    ("throughput_priority", .json (.str template.throughputPriority)),
    ("integration_types",
      .json (.list (template.integrationTypes.map Json.str))),
    ("volume_per_day", .json (.int template.volumePerDay)),
    ("industry", .json (optionalStr template.industry)),
    ("description", .json (optionalStr template.description)),
    ("experiment_mode", .json (.bool template.experimentMode)),
    ("created_at", .datetime template.createdAt)]

end Agentcy.Topology
