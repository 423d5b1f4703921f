import Agentcy.Topology.Compiler
import Agentcy.Topology.MutationDag
import Agentcy.Topology.RuntimePolicy

/-!
# The topology orchestrator

`generate_pipeline_from_template` adjusts the business template to the runtime
policy, takes the best skeleton for it, mutates and compiles the skeleton, and
records in the metadata of the pipeline what it was generated from.
-/

namespace Agentcy.Topology

open Agentcy.Library

/-- `_apply_policy_to_template`. -/
def applyPolicyToTemplate
    (template : BusinessTemplate) (policy : PolicyState) :
    BusinessTemplate :=
  let raised :=
    if policy.topologyVariantBias = .highSafety ∧
        template.complianceStrictness = "none" then "moderate"
    else template.complianceStrictness
  { template with
    decisionCriticality :=
      if policy.topologyVariantBias = .highSafety ∧
          template.decisionCriticality = "low" then "medium"
      else template.decisionCriticality
    complianceStrictness :=
      match policy.verificationMode with
      | .stricter => "strict"
      | .minimal =>
          if template.complianceStrictness = "strict" then "moderate"
          else raised
      | .normal => raised
    -- However critical the decisions of the template are.
    humanApprovalRequired :=
      template.humanApprovalRequired &&
        !decide (policy.humanGateBias = .later) }

/-- The skeleton without the given rules. -/
def TopologySkeleton.withoutRules
    (skeleton : TopologySkeleton) (ruleIds : List String) :
    TopologySkeleton :=
  { skeleton with
    mutationRules :=
      skeleton.mutationRules.filter fun rule => rule.ruleId ∉ ruleIds }

/-- `_apply_policy_to_skeleton`. -/
def applyPolicyToSkeleton
    (skeleton : TopologySkeleton) (policy : PolicyState) :
    TopologySkeleton :=
  if policy.mutationSuppression.isEmpty ∧
      policy.mutationEscalation.isEmpty then skeleton
  else skeleton.withoutRules policy.mutationSuppression

def textOf? : Json → Option String
  | .str text => some text
  | _ => none

def textsOf? : Json → Option (List String)
  | .list items => items.mapM textOf?
  | _ => none

def flagOf? : Json → Option Bool
  | .bool value => some value
  | _ => none

def optionalTextOf? : Json → Option (Option String)
  | .null => some none
  | .str text => some (some text)
  | _ => none

/-- The step, unless a rule has given one of its fields a value of another
type. -/
def StepObject.typed? (step : StepObject) : Option SkeletonStep := do
  let stepId ← textOf? step.stepId
  let role ← textOf? (Fields.get step.attributes "role")
  let name ← textOf? (Fields.get step.attributes "name")
  let description ← textOf? (Fields.get step.attributes "description")
  let requiredCapabilities ←
    textsOf? (Fields.get step.attributes "required_capabilities")
  let requiredTags ←
    textsOf? (Fields.get step.attributes "required_tags")
  let isEntry ← flagOf? (Fields.get step.attributes "is_entry")
  let isFinal ← flagOf? (Fields.get step.attributes "is_final")
  let dependencies ← textsOf? step.dependencies
  let coordinationMode ←
    optionalTextOf? (Fields.get step.attributes "coordination_mode")
  return {
    stepId, role, name, description, requiredCapabilities, requiredTags,
    isEntry, isFinal, dependencies, coordinationMode }

structure SkeletonCandidate where
  skeleton : TopologySkeleton
  score : Rat
  matchDetails : List (String × Rat)

structure TopologyMetadata where
  skeletonId : String
  skeletonName : String
  workflowClass : String
  retrievalScore : Rat
  matchDetails : List (String × Rat)
  mutationsApplied : List String
  topologySignature : String
  variantId : Option String
  businessTemplate : BusinessTemplate

/-- A generated pipeline.  The skeleton is the one that the mutations were
applied to, and the steps are those that were compiled, one task for each; the
dictionary is left open where a rule has changed the type of a field. -/
structure GeneratedPipeline where
  skeleton : TopologySkeleton
  steps : List StepObject
  compiled : Option CompiledPipeline
  metadata : TopologyMetadata

def buildTopologySignature
    (skeletonId : String) (mutationsApplied : List String) : String :=
  if mutationsApplied.isEmpty then skeletonId
  else skeletonId ++ "::" ++
    String.intercalate "+"
      (mutationsApplied.insertionSort fun first second => first ≤ second)

/-- What the orchestrator is given besides the template and the policy.  The
retrieval is left open: the candidates, best first, for a template and a
minimal score. -/
structure Generation where
  topologyPriorEnabled : Bool
  retrieveSkeletons : BusinessTemplate → Rat → List SkeletonCandidate
  minScore : Rat
  agentTemplates : List Fields
  vhost : String
  scoring : Scoring
  inherited : String → Bool
  floats : FloatOrder

/-- The two random draws of an experiment. -/
structure Draw where
  baseline : Bool
  choice : Nat

section

variable (generation : Generation)

/-- `_build_pipeline`. -/
def buildPipeline
    (skeleton : TopologySkeleton) (template : BusinessTemplate)
    (candidate : SkeletonCandidate) (variantId : Option String) :
    Except MutationError GeneratedPipeline := do
  let (steps, applied) ←
    applyMutations generation.inherited generation.floats template
      skeleton
  return {
    skeleton := skeleton
    steps := steps
    compiled :=
      (steps.mapM StepObject.typed?).map fun typed =>
        compileSkeletonToPipeline generation.scoring
          { skeleton with steps := typed } template
          generation.agentTemplates generation.vhost
    metadata := {
      skeletonId := skeleton.skeletonId
      skeletonName := skeleton.name
      workflowClass := template.workflowClass
      retrievalScore := candidate.score
      matchDetails := candidate.matchDetails
      mutationsApplied := applied
      topologySignature :=
        buildTopologySignature skeleton.skeletonId applied
      variantId := variantId
      businessTemplate := template } }

/-- `_generate_experiment_variant`. -/
def generateExperimentVariant
    (draw : Draw) (skeleton : TopologySkeleton)
    (template : BusinessTemplate) (candidate : SkeletonCandidate) :
    Except MutationError GeneratedPipeline := do
  let active ←
    matchingRules generation.floats template skeleton.mutationRules
  match active[draw.choice % active.length]? with
  | none =>
      buildPipeline generation skeleton template candidate
        (some "baseline")
  | some skipped =>
      if draw.baseline then
        buildPipeline generation skeleton template candidate
          (some "baseline")
      else
        buildPipeline generation (skeleton.withoutRules [skipped.ruleId])
          template candidate (some ("skip_" ++ skipped.ruleId))

/-- `generate_pipeline_from_template`. -/
def generatePipelineFromTemplate
    (draw : Draw) (template : BusinessTemplate) (policy : PolicyState) :
    Except MutationError (Option GeneratedPipeline) :=
  if generation.topologyPriorEnabled then
    let effective := applyPolicyToTemplate template policy
    let candidates :=
      generation.retrieveSkeletons effective generation.minScore
    let fallback :=
      generation.retrieveSkeletons
        { effective with workflowClass := "generic" } 0
    match (candidates.head?).or fallback.head? with
    | none => .ok none
    | some best => do
        let skeleton := applyPolicyToSkeleton best.skeleton policy
        if effective.experimentMode ∧ ¬ skeleton.mutationRules.isEmpty then
          return some (← generateExperimentVariant generation draw
            skeleton effective best)
        else
          return some (← buildPipeline generation skeleton effective best
            none)
  else .ok none

end

end Agentcy.Topology
