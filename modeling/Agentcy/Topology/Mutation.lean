import Agentcy.Library.Run
import Agentcy.Topology.Skeleton

/-!
# The mutation engine

`apply_mutations` runs the actions of the rules that match the business
template, by falling priority, over a copy of the steps.  Assignments to a
step are not validated, so that a step is a dictionary of attributes while the
rules are applied.
-/

namespace Agentcy.Topology

open Agentcy.Library

inductive MutationError where
  | overflow
  | python (error : PyError)

section Conditions

/-- `float(first) >= float(second)`, where a value that is no number makes it
false and an integer that no float can hold raises. -/
structure FloatOrder where
  atLeast : Json → Json → Except MutationError Bool

def resolveParts : Dumped → List String → Dumped
  | current, [] => current
  | .json (.dict fields), part :: rest =>
      resolveParts (.json (Fields.get fields part)) rest
  | _, _ :: _ => .json .null

def resolveField (dumped : List (String × Dumped)) (fieldPath : String) :
    Dumped :=
  match fieldPath.splitOn "." with
  | [] => .json .null
  | part :: rest =>
      match dumped.find? fun field => decide (field.1 = part) with
      | none => resolveParts (.json .null) rest
      | some field => resolveParts field.2 rest

def evaluateCondition
    (floats : FloatOrder) (condition : MutationCondition)
    (template : BusinessTemplate) : Except MutationError Bool :=
  let expected := condition.value
  match condition.operator,
      resolveField template.modelDump condition.field with
  | .eq, .json actual => .ok (actual.pyEq expected)
  | .eq, .datetime _ => .ok false
  | .neq, .json actual => .ok (!actual.pyEq expected)
  | .neq, .datetime _ => .ok true
  | .isIn, .json (.list items) => .ok (items.any (·.pyEq expected))
  | .isIn, _ => .ok false
  | .gte, .json actual => floats.atLeast actual expected
  | .gte, .datetime _ => .ok false
  | .lte, .json actual => floats.atLeast expected actual
  | .lte, .datetime _ => .ok false

/-- `all(...)`, which stops at the first condition that fails. -/
def allConditions
    (floats : FloatOrder) (template : BusinessTemplate) :
    List MutationCondition → Except MutationError Bool
  | [] => .ok true
  | condition :: rest => do
      if ← evaluateCondition floats condition template then
        allConditions floats template rest
      else
        return false

end Conditions

/-- The attributes of a step. -/
structure StepObject where
  attributes : Fields

def SkeletonStep.toObject (step : SkeletonStep) : StepObject where
  attributes :=
    [("step_id", .str step.stepId), ("role", .str step.role),
      ("name", .str step.name), ("description", .str step.description),
      ("required_capabilities",
        .list (step.requiredCapabilities.map Json.str)),
      ("required_tags", .list (step.requiredTags.map Json.str)),
      ("is_entry", .bool step.isEntry), ("is_final", .bool step.isFinal),
      ("dependencies", .list (step.dependencies.map Json.str)),
      ("coordination_mode", optionalStr step.coordinationMode)]

namespace StepObject

def stepId (step : StepObject) : Json :=
  Fields.get step.attributes "step_id"

def dependencies (step : StepObject) : Json :=
  Fields.get step.attributes "dependencies"

def setattr (step : StepObject) (name : String) (value : Json) :
    StepObject where
  attributes := Fields.set step.attributes name value

def setDependencies (step : StepObject) (items : List Json) : StepObject :=
  step.setattr "dependencies" (.list items)

end StepObject

/-- `text in value`, which on a string asks for a substring. -/
def contains (text : String) : Json → Except PyError Bool
  | .list items => .ok (items.any (·.pyEq (.str text)))
  | .dict fields => .ok (fields.any fun field => decide (field.1 = text))
  | .str whole => .ok (decide (text.toList <:+: whole.toList))
  | _ => .error .typeError

def findStepIndex (steps : List StepObject) (stepId : String) :
    Option Nat :=
  steps.findIdx? fun step => step.stepId.pyEq (.str stepId)

/-- The first branch of `_rewire_after_insert`, for one step: what depended on
the target now depends on the new step. -/
def rewireDependent (targetId newId : String) (step : StepObject) :
    Except PyError StepObject := do
  if step.stepId.pyEq (.str newId) then
    return step
  if ← contains targetId step.dependencies then
    let dependencies ← step.dependencies.iterate
    return step.setDependencies (dependencies.map fun dependency =>
      if dependency.pyEq (.str targetId) then .str newId else dependency)
  else
    return step

def insertStepAfter
    (steps : List StepObject) (targetIdx : Nat) (targetId : String)
    (newStep : SkeletonStep) : Except PyError (List StepObject) :=
  let linked :=
    if targetId ∈ newStep.dependencies then newStep
    else { newStep with
      dependencies := newStep.dependencies ++ [targetId] }
  (steps.insertIdx (targetIdx + 1) linked.toObject).mapM
    (rewireDependent targetId newStep.stepId)

/-- The target is looked up again once the new step is in the list. -/
def insertStepBefore
    (steps : List StepObject) (targetIdx : Nat) (targetId : String)
    (newStep : SkeletonStep) : Except PyError (List StepObject) :=
  let inserted := steps.insertIdx targetIdx newStep.toObject
  match findStepIndex inserted targetId with
  | none => .ok inserted
  | some foundIdx =>
      match inserted[foundIdx]? with
      | none => .ok inserted
      | some targetStep => do
          let inherited ← targetStep.dependencies.iterate
          return (inserted.modify targetIdx
              (StepObject.setDependencies · inherited)).modify foundIdx
            (StepObject.setDependencies · [.str newStep.stepId])

/-- One step of the loop of `remove`: dependencies on the removed step become
dependencies on its dependencies. -/
def rewireRemoved (targetId : String) (removedDeps : List Json)
    (step : StepObject) : Except PyError StepObject := do
  if ← contains targetId step.dependencies then
    let dependencies ← step.dependencies.iterate
    let distinct ← Json.distinctItems
      ((dependencies.filter fun dependency =>
        !dependency.pyEq (.str targetId)) ++ removedDeps)
    return step.setDependencies (distinct.map Prod.snd)
  else
    return step

def removeStep
    (steps : List StepObject) (targetIdx : Nat) (targetId : String) :
    Except PyError (List StepObject) :=
  match steps[targetIdx]? with
  | none => .ok steps
  | some removed => do
      let removedDeps ← removed.dependencies.iterate
      let rewired ← steps.mapM (rewireRemoved targetId removedDeps)
      return rewired.eraseIdx targetIdx

section Actions

-- The attributes that a step has besides its fields and that pydantic refuses
-- to assign.  An attribute with a leading underscore is not one of them: it is
-- set by `object.__setattr__`, which leaves the fields as they are, unless it
-- is `__dict__` or `__class__`, which no rule is taken to name.
variable (inherited : String → Bool)

def modifyField
    (steps : List StepObject) (targetIdx : Nat) (fieldPath : String)
    (fieldValue : Json) : Except PyError (List StepObject) :=
  match steps[targetIdx]? with
  | none => .ok steps
  | some step =>
      if step.attributes.any fun field => decide (field.1 = fieldPath) then
        .ok (steps.modify targetIdx
          (StepObject.setattr · fieldPath fieldValue))
      else if inherited fieldPath then .error .valueError
      else .ok steps

def applyAction
    (steps : List StepObject) (action : MutationAction) :
    Except PyError (List StepObject) :=
  match findStepIndex steps action.targetStepId with
  | none => .ok steps
  | some targetIdx =>
      match action.actionType, action.step, action.fieldPath with
      | .insertAfter, some newStep, _ =>
          insertStepAfter steps targetIdx action.targetStepId newStep
      | .insertBefore, some newStep, _ =>
          insertStepBefore steps targetIdx action.targetStepId newStep
      | .remove, _, _ => removeStep steps targetIdx action.targetStepId
      | .modifyField, _, some fieldPath =>
          modifyField inherited steps targetIdx fieldPath action.fieldValue
      | _, _, _ => .ok steps

/-- One action on the steps, unless an earlier one raised. -/
def applyStep
    (current : Except MutationError (List StepObject))
    (action : MutationAction) : Except MutationError (List StepObject) := do
  (applyAction inherited (← current) action).mapError MutationError.python

variable (floats : FloatOrder) (template : BusinessTemplate)

def applyRules :
    List MutationRule → List StepObject →
      Except MutationError (List StepObject × List String)
  | [], steps => .ok (steps, [])
  | rule :: rest, steps => do
      if ← allConditions floats template rule.conditions then
        let changed ← run (applyStep inherited) (.ok steps) rule.actions
        let (final, applied) ← applyRules rest changed
        return (final, rule.ruleId :: applied)
      else
        applyRules rest steps

/-- The steps of the mutated skeleton, with the rules that were applied. -/
def applyMutations (skeleton : TopologySkeleton) :
    Except MutationError (List StepObject × List String) :=
  applyRules inherited floats template
    (skeleton.mutationRules.insertionSort fun first second =>
      second.priority ≤ first.priority)
    (skeleton.steps.map SkeletonStep.toObject)

end Actions

end Agentcy.Topology
