import Agentcy.Topology.HumanGates
import Agentcy.Topology.MutationOrder

/-!
# Typed mutations

The engine assigns to the attributes of a step whatever a rule says.  Where
every assignment has the type of the field, the engine never raises: its
actions are functions on skeleton steps, and every mutated skeleton compiles.
-/

namespace Agentcy.Topology

open Agentcy.Library

theorem textsOf?_map_str (texts : List String) :
    textsOf? (.list (texts.map Json.str)) = some texts := by
  unfold textsOf?
  induction texts with
  | nil =>
      rfl
  | cons text rest inductionHypothesis =>
      dsimp only at inductionHypothesis ⊢
      rw [List.map_cons, List.mapM_cons, inductionHypothesis]
      rfl

theorem optionalTextOf?_optionalStr (text : Option String) :
    optionalTextOf? (optionalStr text) = some text := by
  cases text with
  | none => rfl
  | some text => rfl

/-- Reading the object of a step gives the step back. -/
theorem typed?_toObject (step : SkeletonStep) :
    step.toObject.typed? = some step := by
  have capabilities :
      textsOf? (Fields.get step.toObject.attributes
        "required_capabilities") = some step.requiredCapabilities :=
    textsOf?_map_str _
  have tags :
      textsOf? (Fields.get step.toObject.attributes "required_tags") =
        some step.requiredTags :=
    textsOf?_map_str _
  have dependencies :
      textsOf? step.toObject.dependencies = some step.dependencies :=
    textsOf?_map_str _
  have mode :
      optionalTextOf? (Fields.get step.toObject.attributes
        "coordination_mode") = some step.coordinationMode :=
    optionalTextOf?_optionalStr _
  unfold StepObject.typed?
  rw [capabilities, tags, dependencies, mode]
  rfl

theorem mapM_typed?_toObject (steps : List SkeletonStep) :
    (steps.map SkeletonStep.toObject).mapM StepObject.typed? =
      some steps := by
  induction steps with
  | nil =>
      rfl
  | cons step rest inductionHypothesis =>
      rw [List.map_cons, List.mapM_cons, inductionHypothesis,
        typed?_toObject]
      rfl

def SkeletonStep.dependOn (step : SkeletonStep)
    (dependencies : List String) : SkeletonStep :=
  { step with dependencies := dependencies }

/-- The new step as it is put behind its target. -/
def SkeletonStep.linkedTo (newStep : SkeletonStep) (targetId : String) :
    SkeletonStep :=
  if targetId ∈ newStep.dependencies then newStep
  else newStep.dependOn (newStep.dependencies ++ [targetId])

def SkeletonStep.redirect (targetId newId : String)
    (step : SkeletonStep) : SkeletonStep :=
  if step.stepId = newId then step
  else step.dependOn (step.node.redirect targetId newId).dependencies

def findStep (steps : List SkeletonStep) (stepId : String) : Option Nat :=
  steps.findIdx? fun step => decide (step.stepId = stepId)

def insertAfter (steps : List SkeletonStep) (targetIdx : Nat)
    (targetId : String) (newStep : SkeletonStep) : List SkeletonStep :=
  (steps.insertIdx (targetIdx + 1) (newStep.linkedTo targetId)).map
    (SkeletonStep.redirect targetId newStep.stepId)

def insertBefore (steps : List SkeletonStep) (targetIdx : Nat)
    (targetId : String) (newStep : SkeletonStep) : List SkeletonStep :=
  let inserted := steps.insertIdx targetIdx newStep
  match findStep inserted targetId with
  | none => inserted
  | some foundIdx =>
      match inserted[foundIdx]? with
      | none => inserted
      | some target =>
          (inserted.modify targetIdx
              (SkeletonStep.dependOn · target.dependencies)).modify foundIdx
            (SkeletonStep.dependOn · [newStep.stepId])

def removeAt (steps : List SkeletonStep) (targetIdx : Nat)
    (targetId : String) : List SkeletonStep :=
  match steps[targetIdx]? with
  | none => steps
  | some removed =>
      (steps.map fun step => step.dependOn
        (step.node.bypass targetId removed.dependencies).dependencies
        ).eraseIdx targetIdx

/-- The step with a value assigned to a field, where the value fits. -/
def SkeletonStep.assign (fieldPath : String) (value : Json)
    (step : SkeletonStep) : SkeletonStep :=
  ((step.toObject.setattr fieldPath value).typed?).getD step

/-- What an action makes of typed steps. -/
def editSteps (steps : List SkeletonStep) (action : MutationAction) :
    List SkeletonStep :=
  match findStep steps action.targetStepId with
  | none => steps
  | some targetIdx =>
      match action.actionType, action.step, action.fieldPath with
      | .insertAfter, some newStep, _ =>
          insertAfter steps targetIdx action.targetStepId newStep
      | .insertBefore, some newStep, _ =>
          insertBefore steps targetIdx action.targetStepId newStep
      | .remove, _, _ => removeAt steps targetIdx action.targetStepId
      | .modifyField, _, some fieldPath =>
          steps.modify targetIdx
            (SkeletonStep.assign fieldPath action.fieldValue)
      | _, _, _ => steps

def textFields : List String := ["step_id", "role", "name", "description"]

def textListFields : List String :=
  ["required_capabilities", "required_tags", "dependencies"]

def flagFields : List String := ["is_entry", "is_final"]

/-- The value has the type of the field.  A name that is no field is not one
of the other attributes of a step either, so that nothing is assigned. -/
inductive Fits (inherited : String → Bool) : String → Json → Prop where
  | text {field : String} (isText : field ∈ textFields) (value : String) :
      Fits inherited field (.str value)
  | texts {field : String} (isTexts : field ∈ textListFields)
      (values : List String) :
      Fits inherited field (.list (values.map Json.str))
  | flag {field : String} (isFlag : field ∈ flagFields) (value : Bool) :
      Fits inherited field (.bool value)
  | mode (value : Option String) :
      Fits inherited "coordination_mode" (optionalStr value)
  | unknown {field : String} (value : Json)
      (noField : field ∉ textFields ++ textListFields ++ flagFields ++
        ["coordination_mode"])
      (noAttribute : inherited field = false) :
      Fits inherited field value

/-- What the action assigns fits the field. -/
def MutationAction.WellTyped (inherited : String → Bool)
    (action : MutationAction) : Prop :=
  action.actionType = .modifyField →
    ∀ field, action.fieldPath = some field →
      Fits inherited field action.fieldValue

def IsField (step : StepObject) (field : String) : Prop :=
  step.attributes.any (fun entry => decide (entry.1 = field)) = true

theorem assign_of_setattr
    {step changed : SkeletonStep} {field : String} {value : Json}
    (same : step.toObject.setattr field value = changed.toObject) :
    step.assign field value = changed := by
  rw [SkeletonStep.assign, same, typed?_toObject]
  rfl

/-- A name that is no field is not read. -/
theorem typed?_setattr_unknown
    (step : StepObject) {field : String} (value : Json)
    (noField : field ∉ textFields ++ textListFields ++ flagFields ++
      ["coordination_mode"]) :
    (step.setattr field value).typed? = step.typed? := by
  have read (name : String)
      (isField : name ∈ textFields ++ textListFields ++ flagFields ++
        ["coordination_mode"]) :
      Fields.get (step.setattr field value).attributes name =
        Fields.get step.attributes name := by
    apply Fields.get_set_other
    intro same
    exact noField (same ▸ isField)
  unfold StepObject.typed? StepObject.stepId StepObject.dependencies
  rw [read "step_id" (by decide), read "role" (by decide),
    read "name" (by decide), read "description" (by decide),
    read "required_capabilities" (by decide),
    read "required_tags" (by decide), read "is_entry" (by decide),
    read "is_final" (by decide), read "dependencies" (by decide),
    read "coordination_mode" (by decide)]

theorem not_isField_of_unknown
    (step : SkeletonStep) {field : String}
    (noField : field ∉ textFields ++ textListFields ++ flagFields ++
      ["coordination_mode"]) :
    ¬ IsField step.toObject field := by
  intro isField
  obtain ⟨entry, member, same⟩ := List.any_eq_true.mp isField
  apply noField
  rw [← of_decide_eq_true same]
  have among : entry.1 ∈ step.toObject.attributes.map Prod.fst :=
    List.mem_map_of_mem member
  have known : ∀ name ∈ step.toObject.attributes.map Prod.fst,
      name ∈ textFields ++ textListFields ++ flagFields ++
        ["coordination_mode"] := by
    change ∀ name ∈ ["step_id", "role", "name", "description",
      "required_capabilities", "required_tags", "is_entry", "is_final",
      "dependencies", "coordination_mode"], _
    decide
  exact known _ among

/-- A value that fits is either assigned to a field, which gives a typed step
again, or to no attribute at all. -/
theorem setattr_toObject
    {inherited : String → Bool} {field : String} {value : Json}
    (fits : Fits inherited field value) :
    (∀ step : SkeletonStep, IsField step.toObject field ∧
        step.toObject.setattr field value =
          (step.assign field value).toObject) ∨
      (inherited field = false ∧ ∀ step : SkeletonStep,
        ¬ IsField step.toObject field ∧ step.assign field value = step) := by
  have assigned (changed : SkeletonStep → SkeletonStep)
      (isField : ∀ step : SkeletonStep, IsField step.toObject field)
      (same : ∀ step : SkeletonStep,
        step.toObject.setattr field value = (changed step).toObject)
      (step : SkeletonStep) :
      IsField step.toObject field ∧
        step.toObject.setattr field value =
          (step.assign field value).toObject :=
    ⟨isField step, by rw [assign_of_setattr (same step)]; exact same step⟩
  cases fits with
  | text isText text =>
      left
      simp only [textFields, List.mem_cons, List.not_mem_nil, or_false]
        at isText
      rcases isText with rfl | rfl | rfl | rfl
      · exact assigned (fun step => { step with stepId := text })
          (fun _ => rfl) fun _ => rfl
      · exact assigned (fun step => { step with role := text })
          (fun _ => rfl) fun _ => rfl
      · exact assigned (fun step => { step with name := text })
          (fun _ => rfl) fun _ => rfl
      · exact assigned (fun step => { step with description := text })
          (fun _ => rfl) fun _ => rfl
  | texts isTexts texts =>
      left
      simp only [textListFields, List.mem_cons, List.not_mem_nil,
        or_false] at isTexts
      rcases isTexts with rfl | rfl | rfl
      · exact assigned
          (fun step => { step with requiredCapabilities := texts })
          (fun _ => rfl) fun _ => rfl
      · exact assigned (fun step => { step with requiredTags := texts })
          (fun _ => rfl) fun _ => rfl
      · exact assigned (SkeletonStep.dependOn · texts)
          (fun _ => rfl) fun _ => rfl
  | flag isFlag marked =>
      left
      simp only [flagFields, List.mem_cons, List.not_mem_nil, or_false]
        at isFlag
      rcases isFlag with rfl | rfl
      · exact assigned (fun step => { step with isEntry := marked })
          (fun _ => rfl) fun _ => rfl
      · exact assigned (fun step => { step with isFinal := marked })
          (fun _ => rfl) fun _ => rfl
  | mode text =>
      exact Or.inl (assigned
        (fun step => { step with coordinationMode := text })
        (fun _ => rfl) fun _ => rfl)
  | unknown value noField noAttribute =>
      refine Or.inr ⟨noAttribute, fun step =>
        ⟨not_isField_of_unknown step noField, ?_⟩⟩
      rw [SkeletonStep.assign, typed?_setattr_unknown _ _ noField,
        typed?_toObject]
      rfl

/-! ## The engine on typed steps -/

theorem setDependencies_toObject
    (step : SkeletonStep) (dependencies : List String) :
    step.toObject.setDependencies (dependencies.map Json.str) =
      (step.dependOn dependencies).toObject :=
  rfl

theorem rewireDependent_toObject
    (targetId newId : String) (step : SkeletonStep) :
    rewireDependent targetId newId step.toObject =
      .ok (step.redirect targetId newId).toObject := by
  have depicts := depicts_toObject step
  have redirected : (step.node.dependencies.map Json.str).map
      (fun dependency => if dependency.pyEq (.str targetId) then
        Json.str newId else dependency) =
      (step.node.redirect targetId newId).dependencies.map Json.str := by
    rw [Dag.Node.redirect, List.map_map, List.map_map]
    apply List.map_congr_left
    intro dependency _
    simp only [Function.comp, pyEq_str, decide_eq_true_eq]
    split <;> rfl
  unfold rewireDependent
  rw [depicts.stepId_pyEq, depicts.contains, depicts.iterate]
  by_cases isNew : step.stepId = newId
  · have sameNode : step.node.id = newId := isNew
    rw [SkeletonStep.redirect, if_pos isNew, decide_eq_true sameNode]
    rfl
  · have otherNode : step.node.id ≠ newId := isNew
    rw [SkeletonStep.redirect, if_neg isNew, decide_eq_false otherNode]
    by_cases named : targetId ∈ step.node.dependencies
    · rw [decide_eq_true named, ← setDependencies_toObject, ← redirected]
      rfl
    · rw [decide_eq_false named, Dag.redirect_of_not_mem named]
      rfl

theorem rewireRemoved_toObject
    (targetId : String) (removedDeps : List String)
    (step : SkeletonStep) :
    rewireRemoved targetId (removedDeps.map Json.str) step.toObject =
      .ok (step.dependOn
        (step.node.bypass targetId removedDeps).dependencies).toObject := by
  have depicts := depicts_toObject step
  have containsTarget := depicts.contains targetId
  have filtered : (step.node.dependencies.map Json.str).filter
      (fun dependency => !dependency.pyEq (.str targetId)) =
      (step.node.dependencies.filter fun dependency =>
        decide (dependency ≠ targetId)).map Json.str := by
    rw [List.filter_map]
    congr 1
    apply List.filter_congr
    intro dependency _
    simp [pyEq_str]
  have distinct := distinctItems_strings
    ((step.node.dependencies.filter fun dependency =>
      decide (dependency ≠ targetId)) ++ removedDeps)
  rw [List.map_append, ← filtered] at distinct
  unfold rewireRemoved
  rw [Dag.Node.bypass]
  refine bind_eq_ok.mpr ⟨_, containsTarget, ?_⟩
  by_cases named : targetId ∈ step.node.dependencies
  · rw [if_pos named, if_pos (decide_eq_true named)]
    refine bind_eq_ok.mpr ⟨_, depicts.iterate,
      bind_eq_ok.mpr ⟨_, distinct, ?_⟩⟩
    rw [List.map_map]
    rfl
  · rw [if_neg named, decide_eq_false named]
    rfl

theorem mapM_toObject
    {change : StepObject → Except PyError StepObject}
    {changed : SkeletonStep → SkeletonStep}
    (changes : ∀ step : SkeletonStep,
      change step.toObject = .ok (changed step).toObject)
    (steps : List SkeletonStep) :
    (steps.map SkeletonStep.toObject).mapM change =
      .ok ((steps.map changed).map SkeletonStep.toObject) := by
  induction steps with
  | nil =>
      rfl
  | cons step rest inductionHypothesis =>
      rw [List.map_cons, List.mapM_cons, changes, inductionHypothesis]
      rfl

theorem findStepIndex_toObject
    (steps : List SkeletonStep) (stepId : String) :
    findStepIndex (steps.map SkeletonStep.toObject) stepId =
      findStep steps stepId := by
  rw [findStepIndex, findStep, List.findIdx?_map]
  congr 1
  funext step
  exact (depicts_toObject step).stepId_pyEq stepId

theorem modify_toObject
    {change : StepObject → StepObject}
    {changed : SkeletonStep → SkeletonStep}
    (changes : ∀ step : SkeletonStep,
      change step.toObject = (changed step).toObject)
    (steps : List SkeletonStep) (index : Nat) :
    (steps.map SkeletonStep.toObject).modify index change =
      (steps.modify index changed).map SkeletonStep.toObject := by
  induction steps generalizing index with
  | nil =>
      cases index <;> rfl
  | cons step rest inductionHypothesis =>
      cases index with
      | zero =>
          rw [List.map_cons, List.modify_zero_cons,
            List.modify_zero_cons, changes]
          rfl
      | succ index =>
          rw [List.map_cons, List.modify_succ_cons,
            List.modify_succ_cons, inductionHypothesis]
          rfl

theorem modify_setDependencies
    (steps : List SkeletonStep) (index : Nat)
    (dependencies : List String) :
    (steps.map SkeletonStep.toObject).modify index
        (StepObject.setDependencies · (dependencies.map Json.str)) =
      (steps.modify index (SkeletonStep.dependOn · dependencies)).map
        SkeletonStep.toObject :=
  modify_toObject
    (fun step => setDependencies_toObject step dependencies) steps index

section Engine

variable (steps : List SkeletonStep) (targetIdx : Nat)
  (targetId : String) (newStep : SkeletonStep)

theorem insertStepAfter_toObject :
    insertStepAfter (steps.map SkeletonStep.toObject) targetIdx targetId
        newStep =
      .ok ((insertAfter steps targetIdx targetId newStep).map
        SkeletonStep.toObject) := by
  rw [insertAfter, ← mapM_toObject
    (rewireDependent_toObject targetId newStep.stepId),
    List.map_insertIdx]
  rfl

theorem insertStepBefore_toObject :
    insertStepBefore (steps.map SkeletonStep.toObject) targetIdx targetId
        newStep =
      .ok ((insertBefore steps targetIdx targetId newStep).map
        SkeletonStep.toObject) := by
  rw [insertStepBefore, insertBefore, ← List.map_insertIdx,
    findStepIndex_toObject]
  cases findStep (steps.insertIdx targetIdx newStep) targetId with
  | none =>
      rfl
  | some foundIdx =>
      dsimp only
      rw [List.getElem?_map]
      cases (steps.insertIdx targetIdx newStep)[foundIdx]? with
      | none =>
          rfl
      | some target =>
          dsimp only [Option.map]
          rw [(depicts_toObject target).iterate,
            ← modify_setDependencies, ← modify_setDependencies]
          rfl

theorem removeStep_toObject :
    removeStep (steps.map SkeletonStep.toObject) targetIdx targetId =
      .ok ((removeAt steps targetIdx targetId).map
        SkeletonStep.toObject) := by
  rw [removeStep, removeAt, List.getElem?_map]
  cases steps[targetIdx]? with
  | none =>
      rfl
  | some removed =>
      dsimp only [Option.map]
      rw [(depicts_toObject removed).iterate, ← List.eraseIdx_map]
      refine bind_eq_ok.mpr ⟨_, rfl, bind_eq_ok.mpr ⟨_, ?_, rfl⟩⟩
      exact mapM_toObject
        (rewireRemoved_toObject targetId removed.dependencies) steps

variable {inherited : String → Bool}

theorem modifyField_toObject
    {field : String} {value : Json}
    (fits : Fits inherited field value)
    (inside : targetIdx < steps.length) :
    modifyField inherited (steps.map SkeletonStep.toObject) targetIdx
        field value =
      .ok ((steps.modify targetIdx
        (SkeletonStep.assign field value)).map SkeletonStep.toObject) := by
  have found : steps[targetIdx]? = some steps[targetIdx] :=
    List.getElem?_eq_getElem inside
  rw [modifyField, List.getElem?_map, found]
  dsimp only [Option.map]
  rcases setattr_toObject fits with assigned | ⟨noAttribute, skipped⟩
  · have isField := (assigned steps[targetIdx]).1
    rw [IsField] at isField
    rw [if_pos isField, modify_toObject fun step => (assigned step).2]
  · have noField := (skipped steps[targetIdx]).1
    rw [IsField] at noField
    rw [if_neg noField, noAttribute]
    have same : SkeletonStep.assign field value = id :=
      funext fun step => (skipped step).2
    rw [same, List.modify_id]
    rfl

end Engine

/-- An action whose assignment fits does to the objects what it does to typed
steps. -/
theorem applyAction_toObject
    {inherited : String → Bool} {action : MutationAction}
    (wellTyped : action.WellTyped inherited) (steps : List SkeletonStep) :
    applyAction inherited (steps.map SkeletonStep.toObject) action =
      .ok ((editSteps steps action).map SkeletonStep.toObject) := by
  rw [applyAction, editSteps, findStepIndex_toObject]
  cases found : findStep steps action.targetStepId with
  | none =>
      rfl
  | some targetIdx =>
      dsimp only
      cases kind : action.actionType with
      | insertAfter =>
          cases action.step with
          | none => rfl
          | some newStep => exact insertStepAfter_toObject ..
      | insertBefore =>
          cases action.step with
          | none => rfl
          | some newStep => exact insertStepBefore_toObject ..
      | remove =>
          exact removeStep_toObject ..
      | modifyField =>
          cases named : action.fieldPath with
          | none => rfl
          | some field =>
              have inside : targetIdx < steps.length :=
                (List.findIdx?_eq_some_iff_getElem.mp found).1
              exact modifyField_toObject _ _ (wellTyped kind field named)
                inside

/-! ## Runs -/

section Runs

variable {inherited : String → Bool} {actions : List MutationAction}

theorem run_toObject
    (wellTyped : ∀ action ∈ actions, action.WellTyped inherited)
    (steps : List SkeletonStep) :
    run (applyStep inherited) (.ok (steps.map SkeletonStep.toObject))
        actions =
      .ok ((run editSteps steps actions).map SkeletonStep.toObject) := by
  induction actions generalizing steps with
  | nil =>
      rfl
  | cons action rest inductionHypothesis =>
      have here :
          applyStep inherited (.ok (steps.map SkeletonStep.toObject))
              action =
            .ok ((editSteps steps action).map SkeletonStep.toObject) := by
        rw [applyStep]
        refine bind_eq_ok.mpr ⟨_, rfl, ?_⟩
        rw [applyAction_toObject (wellTyped action List.mem_cons_self)]
        rfl
      rw [run_cons, run_cons, here]
      exact inductionHypothesis
        (fun other member => wellTyped other (List.mem_cons_of_mem _ member))
        _

/-- Rules whose assignments all fit. -/
def WellTypedRules (inherited : String → Bool)
    (rules : List MutationRule) : Prop :=
  ∀ rule ∈ rules, ∀ action ∈ rule.actions, action.WellTyped inherited

variable {floats : FloatOrder} {template : BusinessTemplate}

/-- The engine returns the objects of typed steps. -/
theorem applyMutations_toObject
    {skeleton : TopologySkeleton}
    (wellTyped : WellTypedRules inherited skeleton.mutationRules)
    {matched : List MutationRule}
    (matching : matchingRules floats template
      (byPriority skeleton.mutationRules) = .ok matched) :
    applyMutations inherited floats template skeleton =
      .ok ((run editSteps skeleton.steps
          (matched.flatMap MutationRule.actions)).map
            SkeletonStep.toObject,
        matched.map MutationRule.ruleId) := by
  apply applyRules_of_run inherited floats template matching
  apply run_toObject
  intro action member
  obtain ⟨rule, isMatched, isAction⟩ := List.mem_flatMap.mp member
  have isRule : rule ∈ skeleton.mutationRules :=
    (List.mem_insertionSort _).mp
      (subset_of_matchingRules matching isMatched)
  exact wellTyped rule isRule action isAction

end Runs

section Orchestrator

variable {inherited : String → Bool} {floats : FloatOrder}
  {template : BusinessTemplate}

/-- A condition of one of the rules raises. -/
def ConditionRaises (floats : FloatOrder) (template : BusinessTemplate)
    (rules : List MutationRule) (raised : MutationError) : Prop :=
  ∃ rule ∈ rules,
    allConditions floats template rule.conditions = .error raised

/-- Every step is typed and compiled to a task with its identifier. -/
def GeneratedPipeline.Typed (pipeline : GeneratedPipeline) : Prop :=
  ∃ (steps : List SkeletonStep) (compiled : CompiledPipeline),
    pipeline.steps = steps.map SkeletonStep.toObject ∧
      pipeline.compiled = some compiled ∧
        compiled.tasks.map CompiledTask.id =
          steps.map SkeletonStep.stepId

theorem bind_error
    {α β : Type} {first : Except MutationError α}
    {next : α → Except MutationError β} {raised : MutationError}
    (failed : first = .error raised) : (first >>= next) = .error raised := by
  rw [failed]
  rfl

/-- The actions never raise: what fails is a condition. -/
theorem applyRules_of_wellTyped
    {rules : List MutationRule}
    (wellTyped : WellTypedRules inherited rules)
    (steps : List SkeletonStep) :
    (∃ (typed : List SkeletonStep) (applied : List String),
      applyRules inherited floats template rules
          (steps.map SkeletonStep.toObject) =
        .ok (typed.map SkeletonStep.toObject, applied)) ∨
    ∃ raised,
      applyRules inherited floats template rules
          (steps.map SkeletonStep.toObject) = .error raised ∧
        ConditionRaises floats template rules raised := by
  induction rules generalizing steps with
  | nil =>
      exact Or.inl ⟨steps, [], rfl⟩
  | cons rule rest inductionHypothesis =>
      have restTyped : WellTypedRules inherited rest :=
        fun other member => wellTyped other (List.mem_cons_of_mem _ member)
      have later (changed : List SkeletonStep) :=
        inductionHypothesis restTyped changed
      rw [applyRules]
      cases evaluated : allConditions floats template rule.conditions with
      | error raised =>
          exact Or.inr ⟨raised, rfl, rule, List.mem_cons_self, evaluated⟩
      | ok holds =>
          cases holds with
          | false =>
              rcases later steps with typed |
                ⟨raised, failed, other, member, raises⟩
              · exact Or.inl typed
              · exact Or.inr ⟨raised, failed, other,
                  List.mem_cons_of_mem _ member, raises⟩
          | true =>
              have ran := run_toObject
                (wellTyped rule List.mem_cons_self) steps
              rcases later (run editSteps steps rule.actions) with
                ⟨typed, applied, returned⟩ |
                ⟨raised, failed, other, member, raises⟩
              · refine Or.inl ⟨typed, rule.ruleId :: applied, ?_⟩
                change (run (applyStep inherited) _ rule.actions >>= _) = _
                rw [bind_ok ran, bind_ok returned]
                rfl
              · refine Or.inr ⟨raised, ?_, other,
                  List.mem_cons_of_mem _ member, raises⟩
                change (run (applyStep inherited) _ rule.actions >>= _) = _
                rw [bind_ok ran, bind_error failed]

theorem matchingRules_raises
    {rules : List MutationRule} {raised : MutationError}
    (failed : matchingRules floats template rules = .error raised) :
    ConditionRaises floats template rules raised := by
  induction rules with
  | nil =>
      cases failed
  | cons rule rest inductionHypothesis =>
      rw [matchingRules, bind_eq_error] at failed
      rcases failed with here | ⟨holds, _, failed⟩
      · exact ⟨rule, List.mem_cons_self, here⟩
      · rw [bind_eq_error] at failed
        rcases failed with later | ⟨others, _, returned⟩
        · obtain ⟨other, member, raises⟩ := inductionHypothesis later
          exact ⟨other, List.mem_cons_of_mem _ member, raises⟩
        · cases returned

variable {generation : Generation}

/-- The pipeline that is made is typed, or a condition has raised. -/
def TypedOrRaised (generation : Generation) (template : BusinessTemplate)
    (rules : List MutationRule) :
    Except MutationError GeneratedPipeline → Prop
  | .ok pipeline => pipeline.Typed
  | .error raised =>
      ConditionRaises generation.floats template rules raised

theorem TypedOrRaised.mono
    {rules others : List MutationRule} (among : rules ⊆ others)
    {made : Except MutationError GeneratedPipeline}
    (outcome : TypedOrRaised generation template rules made) :
    TypedOrRaised generation template others made := by
  cases made with
  | ok pipeline =>
      exact outcome
  | error raised =>
      obtain ⟨rule, member, raises⟩ := outcome
      exact ⟨rule, among member, raises⟩

theorem buildPipeline_of_wellTyped
    {skeleton : TopologySkeleton}
    (wellTyped :
      WellTypedRules generation.inherited skeleton.mutationRules)
    (candidate : SkeletonCandidate) (variantId : Option String) :
    TypedOrRaised generation template skeleton.mutationRules
      (buildPipeline generation skeleton template candidate variantId) := by
  have ordered : WellTypedRules generation.inherited
      (byPriority skeleton.mutationRules) := fun rule member =>
    wellTyped rule ((List.mem_insertionSort _).mp member)
  rcases @applyRules_of_wellTyped generation.inherited generation.floats
      template _ ordered skeleton.steps with
    ⟨typed, applied, returned⟩ | ⟨raised, failed, rule, member, raises⟩
  · have mutated : applyMutations generation.inherited generation.floats
        template skeleton =
          .ok (typed.map SkeletonStep.toObject, applied) := returned
    rw [buildPipeline, bind_ok mutated]
    exact ⟨typed,
      compileSkeletonToPipeline generation.scoring
        { skeleton with steps := typed } template
        generation.agentTemplates generation.vhost,
      rfl, congrArg (Option.map _) (mapM_typed?_toObject typed),
      List.map_map⟩
  · have mutated : applyMutations generation.inherited generation.floats
        template skeleton = .error raised := failed
    rw [buildPipeline, bind_error mutated]
    exact ⟨rule, (List.mem_insertionSort _).mp member, raises⟩

theorem experiment_of_wellTyped
    (draw : Draw) {skeleton : TopologySkeleton}
    (wellTyped :
      WellTypedRules generation.inherited skeleton.mutationRules)
    (candidate : SkeletonCandidate) :
    TypedOrRaised generation template skeleton.mutationRules
      (generateExperimentVariant generation draw skeleton template
        candidate) := by
  unfold generateExperimentVariant
  cases matching : matchingRules generation.floats template
      skeleton.mutationRules with
  | error raised =>
      rw [bind_error rfl]
      exact matchingRules_raises matching
  | ok active =>
      rw [bind_ok rfl]
      split
      · exact buildPipeline_of_wellTyped wellTyped candidate _
      · split
        · exact buildPipeline_of_wellTyped wellTyped candidate _
        · rename_i skipped _ _
          have fewer : WellTypedRules generation.inherited
              (skeleton.withoutRules [skipped.ruleId]).mutationRules :=
            fun rule member =>
              wellTyped rule (List.mem_of_mem_filter member)
          exact (buildPipeline_of_wellTyped fewer candidate _).mono
            fun rule member => List.mem_of_mem_filter member

theorem mutationRules_applyPolicyToSkeleton
    (skeleton : TopologySkeleton) (policy : PolicyState) :
    (applyPolicyToSkeleton skeleton policy).mutationRules ⊆
      skeleton.mutationRules := by
  unfold applyPolicyToSkeleton
  split
  · exact List.Subset.refl _
  · exact fun rule member => List.mem_of_mem_filter member

theorem bind_some_eq_map
    {α : Type} (made : Except MutationError α) :
    (made >>= fun value => pure (some value)) = made.map some := by
  cases made <;> rfl

/-- Where the rules of all candidates are well typed, the orchestrator fails
only where a condition of the candidate's rules raises, and every pipeline is
typed and compiled step by step. -/
theorem generated_of_wellTyped
    (draw : Draw) (policy : PolicyState)
    (wellTyped : ∀ adjusted minScore,
      ∀ candidate ∈ generation.retrieveSkeletons adjusted minScore,
        WellTypedRules generation.inherited
          candidate.skeleton.mutationRules) :
    generatePipelineFromTemplate generation draw template policy =
        .ok none ∨
    ∃ adjusted minScore,
      ∃ candidate ∈ generation.retrieveSkeletons adjusted minScore,
      ∃ made, generatePipelineFromTemplate generation draw template policy =
          made.map some ∧
        TypedOrRaised generation (applyPolicyToTemplate template policy)
          candidate.skeleton.mutationRules made := by
  unfold generatePipelineFromTemplate
  split
  · dsimp only
    split
    · exact Or.inl rfl
    · rename_i best isBest
      right
      have listed : ∃ adjusted minScore,
          best ∈ generation.retrieveSkeletons adjusted minScore := by
        rcases Option.or_eq_some_iff.mp isBest with first | ⟨_, fallback⟩
        · exact ⟨_, _, List.mem_of_mem_head? first⟩
        · exact ⟨_, _, List.mem_of_mem_head? fallback⟩
      obtain ⟨adjusted, minScore, member⟩ := listed
      have within :=
        mutationRules_applyPolicyToSkeleton best.skeleton policy
      have bestTyped : WellTypedRules generation.inherited
          (applyPolicyToSkeleton best.skeleton policy).mutationRules :=
        fun rule isRule =>
          wellTyped adjusted minScore best member rule (within isRule)
      refine ⟨adjusted, minScore, best, member, ?_⟩
      split
      · exact ⟨_, bind_some_eq_map _,
          (experiment_of_wellTyped draw bestTyped best).mono within⟩
      · exact ⟨_, bind_some_eq_map _,
          (buildPipeline_of_wellTyped bestTyped best none).mono within⟩
  · exact Or.inl rfl

end Orchestrator

/-! ## A rule that equips a step -/

/-- A rule that assigns the capabilities of the notification. -/
def equipRule : MutationRule where
  ruleId := "equip"
  name := "equip"
  conditions := [approvalCondition]
  actions := [{
    actionType := .modifyField
    targetStepId := "notify"
    fieldPath := some "required_capabilities"
    fieldValue := .list [.str "notification"] }]

def equipGeneration : Generation :=
  { approvalGeneration with
    retrieveSkeletons := fun _ _ => [⟨intakeSkeleton [equipRule], 1, []⟩] }

theorem equipRule_wellTyped (inherited : String → Bool) :
    WellTypedRules inherited [equipRule] := by
  intro rule isRule action isAction
  obtain rfl := List.mem_singleton.mp isRule
  obtain rfl := List.mem_singleton.mp isAction
  intro _ field named
  obtain rfl := Option.some.inj named
  exact .texts (by decide) ["notification"]

theorem equipped_pipeline_typed :
    generatePipelineFromTemplate equipGeneration ⟨true, 0⟩
        criticalTemplate {} = .ok none ∨
    ∃ adjusted minScore,
      ∃ candidate ∈ equipGeneration.retrieveSkeletons adjusted minScore,
      ∃ made,
        generatePipelineFromTemplate equipGeneration ⟨true, 0⟩
            criticalTemplate {} = made.map some ∧
          TypedOrRaised equipGeneration
            (applyPolicyToTemplate criticalTemplate {})
            candidate.skeleton.mutationRules made := by
  apply generated_of_wellTyped
  intro adjusted minScore candidate member
  obtain rfl := List.mem_singleton.mp member
  exact equipRule_wellTyped _

end Agentcy.Topology
