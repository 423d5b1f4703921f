import Agentcy.Topology.Orchestrator
import Agentcy.Topology.StepPresence

/-!
# Human gates under a runtime policy

A template that requires human approval makes the approval rules of a skeleton
insert their gates, and the generated pipeline records the requirement.  Both
depend on the one flag of the template that the backlog rule takes away.
-/

namespace Agentcy.Topology

open Agentcy.Library

/-- The condition of an approval rule. -/
def approvalCondition : MutationCondition where
  field := "human_approval_required"
  value := .bool true

/-- A rule of the skeleton that inserts a gate when the template requires
human approval. -/
structure ApprovalGate
    (skeleton : TopologySkeleton) (rule : MutationRule)
    (action : MutationAction) (gate : SkeletonStep) : Prop where
  isRule : rule ∈ skeleton.mutationRules
  onlyApproval : rule.conditions = [approvalCondition]
  isAction : action ∈ rule.actions
  inserts : action.actionType = .insertAfter ∨
    action.actionType = .insertBefore
  isGate : action.step = some gate

/-- The gate is put next to a step of the skeleton, and no rule drops either
of the two. -/
structure GateSpared
    (skeleton : TopologySkeleton) (action : MutationAction)
    (gate : SkeletonStep) : Prop where
  target : ∃ step ∈ skeleton.steps, step.stepId = action.targetStepId
  sparesTarget : Spares skeleton.mutationRules action.targetStepId
  sparesGate : Spares skeleton.mutationRules gate.stepId

theorem splitOnAux_next
    (text : String) (place : String.Pos.Raw)
    (inside : place.atEnd text = false)
    (noDot : (place.get text == '.') = false) :
    text.splitOnAux "." 0 place 0 [] =
      text.splitOnAux "." 0 (place.next text) 0 [] := by
  have separator : String.Pos.Raw.get "." 0 = '.' := by decide
  rw [String.splitOnAux, inside, separator, noDot]
  rfl

/-- The field path of the condition has one part. -/
theorem splitOn_approval :
    "human_approval_required".splitOn "." =
      ["human_approval_required"] := by
  unfold String.splitOn
  rw [if_neg (by decide)]
  iterate 23 rw [splitOnAux_next _ _ (by decide) (by decide)]
  rw [String.splitOnAux]
  decide

theorem evaluate_approvalCondition
    (floats : FloatOrder) (template : BusinessTemplate) :
    evaluateCondition floats approvalCondition template =
      .ok template.humanApprovalRequired := by
  have resolved :
      resolveField template.modelDump "human_approval_required" =
        .json (.bool template.humanApprovalRequired) := by
    unfold resolveField
    rw [splitOn_approval]
    rfl
  unfold evaluateCondition
  simp only [approvalCondition, resolved]
  cases template.humanApprovalRequired with
  | false => rfl
  | true => rfl

theorem mem_matchingRules
    {floats : FloatOrder} {template : BusinessTemplate}
    {rules matched : List MutationRule}
    (matching : matchingRules floats template rules = .ok matched)
    {rule : MutationRule} (member : rule ∈ rules)
    (holds : allConditions floats template rule.conditions = .ok true) :
    rule ∈ matched := by
  induction rules generalizing matched with
  | nil =>
      cases member
  | cons head rest inductionHypothesis =>
      rw [matchingRules, bind_eq_ok] at matching
      obtain ⟨headHolds, evaluated, matching⟩ := matching
      rw [bind_eq_ok] at matching
      obtain ⟨later, matchingRest, same⟩ := matching
      rw [pure_eq_ok] at same
      rcases List.mem_cons.mp member with rfl | inRest
      · have isTrue : headHolds = true :=
          Except.ok.inj (evaluated.symm.trans holds)
        rw [← same, isTrue, if_pos rfl]
        exact List.mem_cons_self
      · have isLater := inductionHypothesis matchingRest inRest
        rw [← same]
        cases headHolds with
        | false => exact isLater
        | true => exact List.mem_cons_of_mem _ isLater

theorem subset_of_matchingRules
    {floats : FloatOrder} {template : BusinessTemplate}
    {rules matched : List MutationRule}
    (matching : matchingRules floats template rules = .ok matched)
    {rule : MutationRule} (member : rule ∈ matched) : rule ∈ rules := by
  induction rules generalizing matched with
  | nil =>
      rw [← Except.ok.inj matching] at member
      cases member
  | cons head rest inductionHypothesis =>
      rw [matchingRules, bind_eq_ok] at matching
      obtain ⟨headHolds, _, matching⟩ := matching
      rw [bind_eq_ok] at matching
      obtain ⟨later, matchingRest, same⟩ := matching
      rw [pure_eq_ok] at same
      rw [← same] at member
      cases headHolds with
      | false =>
          exact
            List.mem_cons_of_mem _
              (inductionHypothesis matchingRest member)
      | true =>
          rcases List.mem_cons.mp member with rfl | isLater
          · exact List.mem_cons_self
          · exact
              List.mem_cons_of_mem _
                (inductionHypothesis matchingRest isLater)

/-- On a template that requires approval, the engine puts in every gate that
its rules spare. -/
theorem gate_present
    {inherited : String → Bool} {floats : FloatOrder}
    {template : BusinessTemplate}
    (required : template.humanApprovalRequired = true)
    {skeleton : TopologySkeleton} {final : List StepObject}
    {applied : List String}
    (mutated : applyMutations inherited floats template skeleton =
      .ok (final, applied))
    {rule : MutationRule} {action : MutationAction} {gate : SkeletonStep}
    (isGate : ApprovalGate skeleton rule action gate)
    (spared : GateSpared skeleton action gate) :
    Present gate.stepId final := by
  obtain ⟨matched, matching, ran, _⟩ :=
    run_of_applyRules inherited floats template mutated
  have inOrder {other : MutationRule} :
      other ∈ byPriority skeleton.mutationRules ↔
        other ∈ skeleton.mutationRules :=
    List.mem_insertionSort _
  have holds :
      allConditions floats template rule.conditions = .ok true := by
    rw [isGate.onlyApproval, allConditions,
      bind_ok (evaluate_approvalCondition floats template), required]
    rfl
  have isMatched : rule ∈ matched :=
    mem_matchingRules matching (inOrder.mpr isGate.isRule) holds
  have sparedIn {stepId : String}
      (spares : Spares skeleton.mutationRules stepId) :
      ∀ other ∈ matched.flatMap MutationRule.actions,
        ¬ Drops stepId other := by
    intro other member
    obtain ⟨source, isSource, isAction⟩ := List.mem_flatMap.mp member
    have isRule := inOrder.mp (subset_of_matchingRules matching isSource)
    exact spares source isRule other isAction
  have among : action ∈ matched.flatMap MutationRule.actions :=
    List.mem_flatMap.mpr ⟨rule, isMatched, isGate.isAction⟩
  -- The run up to the insertion keeps the target, the rest keeps the gate.
  obtain ⟨before, after, split⟩ := List.append_of_mem among
  have sparedBefore :
      ∀ other ∈ before, ¬ Drops action.targetStepId other := by
    intro other member
    apply sparedIn spared.sparesTarget
    rw [split]
    exact List.mem_append_left _ member
  have sparedAfter : ∀ other ∈ after, ¬ Drops gate.stepId other := by
    intro other member
    apply sparedIn spared.sparesGate
    rw [split]
    exact List.mem_append_right _ (List.mem_cons_of_mem _ member)
  obtain ⟨targetStep, isStep, isTarget⟩ := spared.target
  have target : Present action.targetStepId
      (skeleton.steps.map SkeletonStep.toObject) :=
    ⟨targetStep.toObject, List.mem_map.mpr ⟨targetStep, isStep, rfl⟩,
      by rw [← isTarget]; rfl⟩
  rw [split, run_append, run_cons] at ran
  obtain ⟨inserted, stepped⟩ := ok_of_run inherited ran
  rw [stepped] at ran
  obtain ⟨middle, ranBefore, insertion⟩ :=
    applyStep_ok inherited stepped
  have targetKept :=
    present_run inherited ranBefore sparedBefore target
  have gateIn :=
    present_of_insertion inherited insertion isGate.inserts isGate.isGate
      targetKept
  exact present_run inherited ran sparedAfter gateIn

theorem stepId_of_typed?
    {step : StepObject} {typed : SkeletonStep}
    (isTyped : step.typed? = some typed) {stepId : String}
    (named : step.stepId = .str stepId) : typed.stepId = stepId := by
  unfold StepObject.typed? at isTyped
  rw [named] at isTyped
  simp only [textOf?, Option.bind_eq_bind, Option.bind_some,
    Option.bind_eq_some_iff, Option.pure_def, Option.some.injEq]
    at isTyped
  obtain ⟨_, _, _, _, _, _, _, _, _, _, _, _, _, _, _, _, _, _, same⟩ :=
    isTyped
  rw [← same]

theorem mem_mapM_some
    {α β : Type} {read : α → Option β} {items : List α} {results : List β}
    (all : items.mapM read = some results)
    {item : α} (member : item ∈ items) :
    ∃ result ∈ results, read item = some result := by
  induction items generalizing results with
  | nil =>
      cases member
  | cons head rest inductionHypothesis =>
      rw [List.mapM_cons] at all
      obtain ⟨first, readHead, all⟩ := Option.bind_eq_some_iff.mp all
      obtain ⟨later, readRest, same⟩ := Option.bind_eq_some_iff.mp all
      obtain rfl := Option.some.inj same
      rcases List.mem_cons.mp member with rfl | inRest
      · exact ⟨first, List.mem_cons_self, readHead⟩
      · obtain ⟨result, isLater, found⟩ :=
          inductionHypothesis readRest inRest
        exact ⟨result, List.mem_cons_of_mem _ isLater, found⟩

/-- The requirement is on record, and every gate that the rules spare is a
step of the pipeline and one of its tasks. -/
structure HumanGatesSurvive (generated : GeneratedPipeline) : Prop where
  recorded :
    generated.metadata.businessTemplate.humanApprovalRequired = true
  inserted : ∀ rule action gate,
    ApprovalGate generated.skeleton rule action gate →
      GateSpared generated.skeleton action gate →
        Present gate.stepId generated.steps ∧
          ∀ compiled, generated.compiled = some compiled →
            ∃ task ∈ compiled.tasks, task.id = gate.stepId

theorem survive_of_buildPipeline
    {generation : Generation} {skeleton : TopologySkeleton}
    {template : BusinessTemplate} {candidate : SkeletonCandidate}
    {variantId : Option String} {generated : GeneratedPipeline}
    (built : buildPipeline generation skeleton template candidate
      variantId = .ok generated) :
    generated.metadata.businessTemplate = template ∧
      (template.humanApprovalRequired = true →
        HumanGatesSurvive generated) := by
  unfold buildPipeline at built
  rw [bind_eq_ok] at built
  obtain ⟨⟨steps, applied⟩, mutated, built⟩ := built
  dsimp only at built
  rw [pure_eq_ok] at built
  subst built
  refine ⟨rfl, ?_⟩
  intro required
  refine ⟨required, ?_⟩
  intro rule action gate isGate spared
  have present := gate_present required mutated isGate spared
  refine ⟨present, ?_⟩
  intro compiled isCompiled
  obtain ⟨typed, allTyped, same⟩ := Option.map_eq_some_iff.mp isCompiled
  obtain ⟨step, member, named⟩ := present
  obtain ⟨result, isResult, isTyped⟩ := mem_mapM_some allTyped member
  rw [← same]
  exact
    ⟨_, List.mem_map.mpr ⟨result, isResult, rfl⟩,
      stepId_of_typed? isTyped named⟩

/-- Whichever skeleton is taken and whichever variant is drawn, the pipeline
is built from the adjusted template. -/
theorem built_of_generated
    {generation : Generation} {draw : Draw}
    {template : BusinessTemplate} {policy : PolicyState}
    {generated : GeneratedPipeline}
    (made : generatePipelineFromTemplate generation draw template policy =
      .ok (some generated)) :
    ∃ skeleton candidate variantId,
      buildPipeline generation skeleton
          (applyPolicyToTemplate template policy) candidate variantId =
        .ok generated := by
  unfold generatePipelineFromTemplate at made
  split at made
  · dsimp only at made
    split at made
    · cases made
    · split at made
      · rw [bind_eq_ok] at made
        obtain ⟨variant, isVariant, same⟩ := made
        rw [pure_eq_ok, Option.some.injEq] at same
        subst same
        unfold generateExperimentVariant at isVariant
        rw [bind_eq_ok] at isVariant
        obtain ⟨active, _, isVariant⟩ := isVariant
        split at isVariant
        · exact ⟨_, _, _, isVariant⟩
        · split at isVariant
          · exact ⟨_, _, _, isVariant⟩
          · exact ⟨_, _, _, isVariant⟩
      · rw [bind_eq_ok] at made
        obtain ⟨built, isBuilt, same⟩ := made
        rw [pure_eq_ok, Option.some.injEq] at same
        subst same
        exact ⟨_, _, _, isBuilt⟩
  · cases made

/-! ## Gates under the runtime policy -/

theorem required_of_policy_iff
    (enabled : Bool) (thresholds : PolicyThresholds)
    (signals : HealthSignals) {template : BusinessTemplate}
    (required : template.humanApprovalRequired = true) :
    (applyPolicyToTemplate template
        (evaluate enabled thresholds signals)).humanApprovalRequired =
        true ↔
      ¬ (enabled ∧
        thresholds.humanBacklogHigh ≤ signals.humanApprovalBacklog) := by
  have bias :
      (evaluate enabled thresholds signals).humanGateBias = _ :=
    congrArg Prod.fst (gates_evaluate enabled thresholds signals)
  simp only [applyPolicyToTemplate, required, bias, Bool.true_and,
    Bool.not_eq_true', decide_eq_false_iff_not]
  rw [not_iff_not]
  split
  · simp_all
  · simp_all

/-- A pipeline that the orchestrator generates for a template with human
approval keeps its gates exactly when the policy engine is off or the backlog
of approvals is below the threshold. -/
theorem human_gates_survive_iff
    (generation : Generation) (draw : Draw)
    (enabled : Bool) (thresholds : PolicyThresholds)
    (signals : HealthSignals) {template : BusinessTemplate}
    (required : template.humanApprovalRequired = true)
    {generated : GeneratedPipeline}
    (made : generatePipelineFromTemplate generation draw template
      (evaluate enabled thresholds signals) = .ok (some generated)) :
    HumanGatesSurvive generated ↔
      ¬ (enabled ∧
        thresholds.humanBacklogHigh ≤ signals.humanApprovalBacklog) := by
  obtain ⟨skeleton, candidate, variantId, built⟩ :=
    built_of_generated made
  obtain ⟨sameTemplate, survives⟩ := survive_of_buildPipeline built
  rw [← required_of_policy_iff enabled thresholds signals required]
  constructor
  · intro gates
    rw [← sameTemplate]
    exact gates.recorded
  · exact survives

def approveStep : SkeletonStep where
  stepId := "human_approve"
  role := "approve"
  name := "Human Approval"

def approvalInsertion : MutationAction where
  actionType := .insertAfter
  targetStepId := "intake"
  step := some approveStep

def approvalRule : MutationRule where
  ruleId := "rule_human_approval"
  name := "Insert human approval gate"
  priority := 90
  conditions := [approvalCondition]
  actions := [approvalInsertion]

def criticalTemplate : BusinessTemplate where
  templateId := "template"
  workflowClass := "generic"
  decisionCriticality := "high"
  humanApprovalRequired := true
  createdAt := "2025-01-01T00:00:00+00:00"

def approvalGeneration : Generation where
  topologyPriorEnabled := true
  retrieveSkeletons _ _ := [⟨intakeSkeleton [approvalRule], 1, []⟩]
  minScore := 3 / 10
  agentTemplates := []
  vhost := "/"
  scoring :=
    { scoreTemplateForStep := fun _ _ => 0
      round := fun score => score
      qualityText := fun _ => "0.00" }
  inherited _ := false
  floats := comparedInts

/-- The steps with the gate between them. -/
def gatedSteps : List StepObject :=
  [intakeStep.toObject,
    { approveStep with dependencies := ["intake"] }.toObject,
    notifyStep.toObject.setDependencies [.str "human_approve"]]

theorem applyMutations_approvalRule (template : BusinessTemplate) :
    applyMutations (fun _ => false) comparedInts template
        (intakeSkeleton [approvalRule]) =
      .ok (if template.humanApprovalRequired then
          (gatedSteps, ["rule_human_approval"])
        else ([intakeStep.toObject, notifyStep.toObject], [])) := by
  have holds :
      allConditions comparedInts template approvalRule.conditions =
        .ok template.humanApprovalRequired := by
    rw [approvalRule, allConditions,
      bind_ok (evaluate_approvalCondition comparedInts template)]
    cases template.humanApprovalRequired with
    | false => rfl
    | true => rfl
  change applyRules _ _ template [approvalRule] _ = _
  rw [applyRules, bind_ok holds]
  cases template.humanApprovalRequired with
  | false => rfl
  | true => rfl

/-- The pipeline for the critical template under a policy. -/
theorem generated_for_critical
    (policy : PolicyState) (unsuppressed : policy.mutationSuppression = [])
    (unescalated : policy.mutationEscalation = []) :
    ∃ generated,
      generatePipelineFromTemplate approvalGeneration ⟨true, 0⟩
          criticalTemplate policy = .ok (some generated) ∧
        generated.skeleton = intakeSkeleton [approvalRule] ∧
        generated.metadata.businessTemplate =
          applyPolicyToTemplate criticalTemplate policy := by
  have whole :
      applyPolicyToSkeleton (intakeSkeleton [approvalRule]) policy =
        intakeSkeleton [approvalRule] := by
    unfold applyPolicyToSkeleton
    rw [unsuppressed, unescalated]
    rfl
  have built :
      ∃ generated,
        buildPipeline approvalGeneration (intakeSkeleton [approvalRule])
            (applyPolicyToTemplate criticalTemplate policy)
            ⟨intakeSkeleton [approvalRule], 1, []⟩ none =
          .ok generated ∧
        generated.skeleton = intakeSkeleton [approvalRule] ∧
        generated.metadata.businessTemplate =
          applyPolicyToTemplate criticalTemplate policy := by
    have mutated :
        applyMutations approvalGeneration.inherited
            approvalGeneration.floats
            (applyPolicyToTemplate criticalTemplate policy)
            (intakeSkeleton [approvalRule]) = _ :=
      applyMutations_approvalRule _
    unfold buildPipeline
    rw [mutated]
    exact ⟨_, rfl, rfl, rfl⟩
  obtain ⟨generated, isBuilt, facts⟩ := built
  refine ⟨generated, ?_, facts⟩
  have noExperiment :
      ¬ ((applyPolicyToTemplate criticalTemplate policy).experimentMode =
          true ∧
        ¬ (applyPolicyToSkeleton (intakeSkeleton [approvalRule])
          policy).mutationRules.isEmpty = true) := by
    rintro ⟨experiment, _⟩
    exact Bool.false_ne_true experiment
  unfold generatePipelineFromTemplate
  rw [if_pos (show approvalGeneration.topologyPriorEnabled from rfl)]
  change (if (applyPolicyToTemplate criticalTemplate policy).experimentMode
        = true ∧
      ¬ (applyPolicyToSkeleton (intakeSkeleton [approvalRule])
        policy).mutationRules.isEmpty = true then _
    else buildPipeline approvalGeneration
        (applyPolicyToSkeleton (intakeSkeleton [approvalRule]) policy)
        (applyPolicyToTemplate criticalTemplate policy)
        ⟨intakeSkeleton [approvalRule], 1, []⟩ none >>= fun built =>
      pure (some built)) = _
  rw [if_neg noExperiment, whole, isBuilt]
  rfl

/-- With a short backlog the pipeline keeps the gate. -/
theorem gate_survives_short_backlog :
    ∃ generated,
      generatePipelineFromTemplate approvalGeneration ⟨true, 0⟩
          criticalTemplate (evaluate true {} { humanApprovalBacklog := 3 })
        = .ok (some generated) ∧
      HumanGatesSurvive generated := by
  have gates := gates_evaluate true {} { humanApprovalBacklog := 3 }
  obtain ⟨generated, made, _⟩ :=
    generated_for_critical _ (congrArg (·.2.1) gates)
      (congrArg (·.2.2) gates)
  refine ⟨generated, made, ?_⟩
  apply
    (human_gates_survive_iff approvalGeneration ⟨true, 0⟩ true {} _ rfl
      made).mpr
  decide +kernel

/-- With ten approvals waiting, the requirement is taken from a critical
template. -/
theorem backlog_removes_critical_gate :
    criticalTemplate.humanApprovalRequired = true ∧
      criticalTemplate.decisionCriticality = "high" ∧
      ∃ generated,
        generatePipelineFromTemplate approvalGeneration ⟨true, 0⟩
            criticalTemplate
            (evaluate true {} { humanApprovalBacklog := 10 }) =
          .ok (some generated) ∧
        ¬ HumanGatesSurvive generated := by
  have gates := gates_evaluate true {} { humanApprovalBacklog := 10 }
  have bias :
      (evaluate true {} { humanApprovalBacklog := 10 }).humanGateBias =
        .later := by
    apply (congrArg Prod.fst gates).trans
    dsimp only
    apply if_pos
    decide +kernel
  obtain ⟨generated, made, _, sameTemplate⟩ :=
    generated_for_critical _ (congrArg (·.2.1) gates)
      (congrArg (·.2.2) gates)
  refine ⟨rfl, rfl, generated, made, ?_⟩
  intro survives
  have recorded := survives.recorded
  rw [sameTemplate] at recorded
  simp only [applyPolicyToTemplate, bias] at recorded
  revert recorded
  decide

end Agentcy.Topology
