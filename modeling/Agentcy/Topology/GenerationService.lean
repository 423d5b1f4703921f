import Mathlib.Tactic.Positivity
import Agentcy.Agents.CapabilityTaxonomy
import Agentcy.Library.Clamp
import Agentcy.Library.Ranking
import Agentcy.Topology.GeneratedPipelines
import Agentcy.Topology.OutcomeRecorder
import Agentcy.Topology.Seeds

/-!
# The generation service

`generate_system` evaluates the runtime policy, scores the built-in skeletons
against the business template and has the orchestrator make a pipeline of the
best one.  Whatever it is asked for, the pipeline is one line of tasks, and the
gates that the template requires come before everything that executes.
-/

namespace Agentcy.Topology

open Agentcy.Library
open Agentcy.Agents (Hierarchy expandCapabilities)

/-- The weights of the scores, which the environment may replace. -/
structure RetrievalWeights where
  workflow : Rat := 35 / 100
  integration : Rat := 20 / 100
  constraint : Rat := 15 / 100
  control : Rat := 10 / 100
  performance : Rat := 20 / 100
  minPerfSamples : Int := 5

/-- What the scoring reads besides the template and the skeleton. -/
structure Retrieval where
  python : PyBuiltins
  hierarchy : Hierarchy
  weights : RetrievalWeights

def integrationCapabilityMap : List (String × String) :=
  [("tms", "api_call"), ("wms", "api_call"),
    ("carrier_api", "http_request"), ("email", "integration"),
    ("erp", "db_read"), ("customs_db", "db_read"),
    ("webhook", "webhook"), ("queue", "queue_publish")]

section Scores

variable (retrieval : Retrieval)
variable (template : BusinessTemplate) (skeleton : LibrarySkeleton)

def workflowClassScore : Rat :=
  if skeleton.workflowClass = template.workflowClass then 1
  else if skeleton.workflowClass = "generic" then 3 / 10
  else 0

/-- `text.lower().strip()`. -/
def Retrieval.normalized (text : String) : String :=
  PyText.strip (retrieval.python.lower text)

def neededCapabilities : List String :=
  (template.integrationTypes.filterMap fun itype =>
    OrderedMap.lookupEntries (retrieval.normalized itype)
      integrationCapabilityMap).dedup

def integrationScore : Rat :=
  let needed := neededCapabilities retrieval template
  if template.integrationTypes.isEmpty ∨ needed.isEmpty then 1
  else
    let skeletonCaps := expandCapabilities retrieval.python
      retrieval.hierarchy (skeleton.steps.flatMap fun step =>
        step.requiredCapabilities.map retrieval.normalized)
    (needed.countP (· ∈ skeletonCaps) : Rat) / needed.length

def LibrarySkeleton.hasPattern (pattern : String) : Bool :=
  decide (pattern ∈
    skeleton.controlPatterns.map retrieval.python.lower)

def constraintAlignmentScore : Rat :=
  let has := skeleton.hasPattern retrieval
  let compliance : Rat :=
    if template.complianceStrictness = "strict" ∨
        template.complianceStrictness = "moderate" then
      if has "verification_gate" then 1 else 0
    else 1
  let approval : Rat :=
    if template.humanApprovalRequired then
      if has "human_approval" then 1 else 0
    else 1
  let resilience : Rat :=
    if template.decisionCriticality = "high" then
      if has "retry_wrapper" || has "verification_gate" then 1
      else 3 / 10
    else 1
  (compliance + approval + resilience) / 3

def neededPatterns : List String :=
  (if template.complianceStrictness ≠ "none" then ["verification_gate"]
    else []) ++
  (if template.humanApprovalRequired then ["human_approval"] else []) ++
  (if template.decisionCriticality = "high" then ["retry_wrapper"]
    else [])

def controlPatternCoverage : Rat :=
  let needed := neededPatterns template
  if needed.isEmpty then 1
  else (needed.countP (skeleton.hasPattern retrieval) : Rat) /
    needed.length

/-- Neutral without data, and pulled towards it below twenty samples. -/
def performanceScore (perf : Option TopologyPerformance) : Rat :=
  match perf with
  | none => 1 / 2
  | some perf =>
      if perf.sampleCount < retrieval.weights.minPerfSamples then 1 / 2
      else
        let base := perf.successRate -
          min (perf.retryRate * (1 / 10)) (1 / 10) -
          min (perf.policyIncidentRate * (2 / 10)) (1 / 10) -
          min (perf.humanEscalationRate * (15 / 100)) (1 / 10)
        let discounted :=
          if perf.sampleCount < 20 then
            1 / 2 + (base - 1 / 2) * (perf.sampleCount / 20)
          else base
        clamp discounted 0 1

def scoreSkeleton (perf : Option TopologyPerformance) :
    SkeletonCandidate :=
  let weights := retrieval.weights
  let wf := workflowClassScore template skeleton
  let integ := integrationScore retrieval template skeleton
  let constraint := constraintAlignmentScore retrieval template skeleton
  let control := controlPatternCoverage retrieval template skeleton
  let performance := performanceScore retrieval perf
  let total := weights.workflow * wf + weights.integration * integ +
    weights.constraint * constraint + weights.control * control +
    weights.performance * performance
  { skeleton := skeleton.toTopologySkeleton
    score := roundTo 4 (min 1 (max 0 total))
    matchDetails :=
      [("workflow_class", roundTo 4 wf), ("integration", roundTo 4 integ),
        ("constraint_alignment", roundTo 4 constraint),
        ("control_pattern_coverage", roundTo 4 control),
        ("performance", roundTo 4 performance)] }

def retrieveSkeletons (skeletons : List LibrarySkeleton) (minScore : Rat)
    (performances : OrderedMap String TopologyPerformance) :
    List SkeletonCandidate :=
  let scored := (skeletons.filter LibrarySkeleton.enabled).map
    fun skeleton => scoreSkeleton retrieval template skeleton
      (performances.get? skeleton.skeletonId)
  ranked SkeletonCandidate.score
    (scored.filter fun candidate => minScore ≤ candidate.score)

end Scores

/-- The environment of the service, and the parts of it that are left
open. -/
structure GenerationService where
  topologyPriorEnabled : Bool
  runtimePolicyEnabled : Bool
  thresholds : PolicyThresholds
  retrieval : Retrieval
  scoring : Scoring
  inherited : String → Bool
  floats : FloatOrder
  mean : List Rat → Rat

/-- One call.  What a store does not have, or fails to list, is `none`. -/
structure GenerationRequest where
  template : BusinessTemplate
  outcomes : Option (List TopologyOutcome) := none
  agentTemplates : Option (List Fields) := none
  healthSignals : Option HealthSignals := none
  vhost : String := "/"
  includeSeeds : Bool := true

structure PerformanceSummary where
  sampleCount : Nat
  successRate : Rat
  meanLatencySeconds : Rat
  meanCost : Rat

/-- `GenerationResult`; the pipeline carries its metadata. -/
structure GenerationResult where
  pipelineCreate : Option GeneratedPipeline := none
  policyState : Option PolicyState := none
  performanceUsed : Option PerformanceSummary := none
  error : Option String := none

def GenerationResult.success (result : GenerationResult) : Bool :=
  result.pipelineCreate.isSome

namespace GenerationService

variable (service : GenerationService) (request : GenerationRequest)

def policy : PolicyState :=
  match request.healthSignals with
  | some signals =>
      evaluate service.runtimePolicyEnabled service.thresholds signals
  | none => {}

def performances : OrderedMap String TopologyPerformance :=
  match request.outcomes with
  | some outcomes => performanceLookup service.mean outcomes
  | none => OrderedMap.empty

def skeletons (request : GenerationRequest) : List LibrarySkeleton :=
  if request.includeSeeds then getLogisticsSeeds else []

/-- The orchestrator as the service calls it. -/
def generation : Generation where
  topologyPriorEnabled := service.topologyPriorEnabled
  retrieveSkeletons template minScore :=
    retrieveSkeletons service.retrieval template (skeletons request)
      minScore (service.performances request)
  minScore := 3 / 10
  agentTemplates := request.agentTemplates.getD []
  vhost := request.vhost
  scoring := service.scoring
  inherited := service.inherited
  floats := service.floats

def summary? (pipeline : GeneratedPipeline) :
    Option PerformanceSummary :=
  ((service.performances request).get? pipeline.metadata.skeletonId).map
    fun perf => {
      sampleCount := perf.sampleCount
      successRate := perf.successRate
      meanLatencySeconds := perf.meanLatencySeconds
      meanCost := perf.meanCost }

/-- `generate_system`. -/
def generateSystem (draw : Draw) :
    Except MutationError GenerationResult :=
  let policy := service.policy request
  if (skeletons request).isEmpty then
    .ok { error := some "No topology skeletons available." }
  else do
    match ← generatePipelineFromTemplate (service.generation request) draw
        request.template policy with
    | none =>
        return {
          policyState := some policy
          error := some ("No suitable topology found for workflow_class='"
            ++ request.template.workflowClass ++ "'.") }
    | some pipeline =>
        return {
          pipelineCreate := some pipeline
          policyState := some policy
          performanceUsed := service.summary? request pipeline }

end GenerationService

/-! ## The best seed -/

theorem roundTo_nonneg
    (digits : Nat) {value : Rat} (nonneg : 0 ≤ value) :
    0 ≤ roundTo digits value := by
  have scaled : 0 ≤ value * 10 ^ digits :=
    mul_nonneg nonneg (by positivity)
  have low : 0 ≤ (value * 10 ^ digits).floor :=
    Rat.le_floor_iff.mpr (by simpa using scaled)
  unfold roundTo
  apply div_nonneg _ (by positivity)
  split
  · exact_mod_cast low
  · split
    · exact_mod_cast (by omega : 0 ≤ (value * 10 ^ digits).floor + 1)
    · split
      · exact_mod_cast low
      · exact_mod_cast (by omega : 0 ≤ (value * 10 ^ digits).floor + 1)

section Candidates

variable {retrieval : Retrieval} {template : BusinessTemplate}
  {skeletons : List LibrarySkeleton}
  {performances : OrderedMap String TopologyPerformance}

theorem score_nonneg
    (skeleton : LibrarySkeleton) (perf : Option TopologyPerformance) :
    0 ≤ (scoreSkeleton retrieval template skeleton perf).score :=
  roundTo_nonneg 4 (le_min zero_le_one (le_max_left _ _))

theorem exists_of_mem_retrieve
    {minScore : Rat} {candidate : SkeletonCandidate}
    (member : candidate ∈ retrieveSkeletons retrieval template skeletons
      minScore performances) :
    ∃ skeleton ∈ skeletons,
      candidate.skeleton = skeleton.toTopologySkeleton := by
  have listed := (List.mem_insertionSort _).mp member
  obtain ⟨skeleton, isEnabled, rfl⟩ :=
    List.mem_map.mp (List.mem_of_mem_filter listed)
  exact ⟨skeleton, List.mem_of_mem_filter isEnabled, rfl⟩

/-- No enabled skeleton has a score below zero. -/
theorem retrieve_ne_nil
    {skeleton : LibrarySkeleton} (member : skeleton ∈ skeletons)
    (enabled : skeleton.enabled = true) :
    retrieveSkeletons retrieval template skeletons 0 performances ≠ [] := by
  intro none
  have candidate :
      scoreSkeleton retrieval template skeleton
          (performances.get? skeleton.skeletonId) ∈
        retrieveSkeletons retrieval template skeletons 0
          performances := by
    apply (List.mem_insertionSort _).mpr
    apply List.mem_filter.mpr
    refine ⟨List.mem_map.mpr ⟨skeleton, ?_, rfl⟩,
      decide_eq_true (score_nonneg _ _)⟩
    exact List.mem_filter.mpr ⟨member, enabled⟩
  rw [none] at candidate
  cases candidate

end Candidates

section Conditions

variable (floats : FloatOrder) (template : BusinessTemplate)

/-- All conditions of the rule hold. -/
def ruleHolds (rule : MutationRule) : Bool :=
  match allConditions floats template rule.conditions with
  | .ok holds => holds
  | .error _ => false

theorem evaluateCondition_of_unordered
    {condition : MutationCondition}
    (unordered : condition.operator ≠ .gte ∧ condition.operator ≠ .lte) :
    ∃ holds, evaluateCondition floats condition template = .ok holds := by
  unfold evaluateCondition
  cases kind : condition.operator with
  | eq =>
      cases resolveField template.modelDump condition.field <;>
        exact ⟨_, rfl⟩
  | neq =>
      cases resolveField template.modelDump condition.field <;>
        exact ⟨_, rfl⟩
  | isIn =>
      dsimp only
      split <;> first | exact ⟨_, rfl⟩ | contradiction
  | gte =>
      exact absurd kind unordered.1
  | lte =>
      exact absurd kind unordered.2

theorem allConditions_of_unordered
    {conditions : List MutationCondition}
    (unordered : ∀ condition ∈ conditions,
      condition.operator ≠ .gte ∧ condition.operator ≠ .lte) :
    ∃ holds, allConditions floats template conditions = .ok holds := by
  induction conditions with
  | nil =>
      exact ⟨true, rfl⟩
  | cons condition rest inductionHypothesis =>
      obtain ⟨here, evaluated⟩ :=
        evaluateCondition_of_unordered floats template
          (unordered condition List.mem_cons_self)
      rw [allConditions, bind_ok evaluated]
      cases here with
      | false =>
          exact ⟨false, rfl⟩
      | true =>
          exact inductionHypothesis fun other member =>
            unordered other (List.mem_cons_of_mem _ member)

theorem matchingRules_of_unordered
    {rules : List MutationRule}
    (unordered : ∀ rule ∈ rules, ∀ condition ∈ rule.conditions,
      condition.operator ≠ .gte ∧ condition.operator ≠ .lte) :
    matchingRules floats template rules =
      .ok (rules.filter (ruleHolds floats template)) := by
  induction rules with
  | nil =>
      rfl
  | cons rule rest inductionHypothesis =>
      obtain ⟨holds, evaluated⟩ :=
        allConditions_of_unordered floats template
          (unordered rule List.mem_cons_self)
      have decided : ruleHolds floats template rule = holds := by
        rw [ruleHolds, evaluated]
      rw [matchingRules, bind_ok evaluated,
        bind_ok (inductionHypothesis fun other member =>
          unordered other (List.mem_cons_of_mem _ member)),
        List.filter_cons, decided]
      cases holds <;> rfl

end Conditions

section Linear

variable (floats : FloatOrder) (template : BusinessTemplate)
  {skeleton : TopologySkeleton}

/-- The rules whose conditions hold, highest priority first. -/
def matchedRules (skeleton : TopologySkeleton) : List MutationRule :=
  (byPriority skeleton.mutationRules).filter (ruleHolds floats template)

def mutatedSteps (skeleton : TopologySkeleton) : List SkeletonStep :=
  run editSteps skeleton.steps
    ((matchedRules floats template skeleton).flatMap MutationRule.actions)

theorem mem_matchedRules_iff {rule : MutationRule} :
    rule ∈ matchedRules floats template skeleton ↔
      rule ∈ skeleton.mutationRules ∧
        ruleHolds floats template rule = true := by
  rw [matchedRules, List.mem_filter, byPriority, List.mem_insertionSort]

theorem matchedRules_subperm :
    (matchedRules floats template skeleton).Subperm
      skeleton.mutationRules :=
  (List.filter_sublist.subperm).trans
    (List.perm_insertionSort _ _).subperm

theorem LineEdit.wellTyped
    (inherited : String → Bool) (edit : LineEdit) :
    ∀ action ∈ edit.actions, action.WellTyped inherited := by
  intro action member
  cases edit with
  | insertAfter targetId newStep =>
      obtain rfl := List.mem_singleton.mp member
      intro kind
      cases kind
  | insertBefore targetId newStep =>
      obtain rfl := List.mem_singleton.mp member
      intro kind
      cases kind
  | append targetId newStep =>
      rcases List.mem_cons.mp member with rfl | unmarks
      · intro kind
        cases kind
      · obtain rfl := List.mem_singleton.mp unmarks
        intro _ field named
        obtain rfl := Option.some.inj named
        exact .flag (by decide) false
  | equip targetId capabilities =>
      obtain rfl := List.mem_singleton.mp member
      intro _ field named
      obtain rfl := Option.some.inj named
      exact .texts (by decide) capabilities

theorem FitsLine.wellTyped
    {ids : List String} {rules : List MutationRule}
    (fits : FitsLine ids rules) (inherited : String → Bool) :
    WellTypedRules inherited rules := by
  intro rule isRule action isAction
  obtain ⟨edit, acts, _⟩ := fits.suits rule isRule
  rw [acts] at isAction
  exact edit.wellTyped inherited action isAction

theorem Grown.nonempty
    {steps others : List SkeletonStep} {rules : List MutationRule}
    (grown : Grown (stepIds steps) rules others)
    (nonempty : steps ≠ []) : others ≠ [] := by
  intro none
  have order := grown.order
  rw [none] at order
  exact nonempty (List.map_eq_nil_iff.mp (List.sublist_nil.mp order))

namespace TopologySkeleton.Linear

theorem grown (linear : skeleton.Linear) :
    Grown (stepIds skeleton.steps) (matchedRules floats template skeleton)
      (mutatedSteps floats template skeleton) :=
  grown_of_fitsLine linear.line linear.fits
    (matchedRules_subperm floats template)

theorem applyMutations_eq
    (linear : skeleton.Linear) (inherited : String → Bool) :
    applyMutations inherited floats template skeleton =
      .ok ((mutatedSteps floats template skeleton).map
          SkeletonStep.toObject,
        (matchedRules floats template skeleton).map
          MutationRule.ruleId) := by
  apply applyMutations_toObject (linear.fits.wellTyped inherited)
  apply matchingRules_of_unordered
  intro rule member
  exact linear.unordered rule ((List.mem_insertionSort _).mp member)

theorem withoutRules
    (linear : skeleton.Linear) (ruleIds : List String) :
    (skeleton.withoutRules ruleIds).Linear where
  nonempty := linear.nonempty
  line := linear.line
  fits := linear.fits.of_subperm List.filter_sublist.subperm
  unordered := fun rule member =>
    linear.unordered rule (List.mem_of_mem_filter member)

end TopologySkeleton.Linear

end Linear

/-! ## Lines of tasks -/

/-- Each task has the one before it as its only dependency, the first of them
`previous`; the entry is the task without dependencies, and the last one is
final. -/
def TasksLinked (previous : Option String) : List CompiledTask → Prop
  | [] => True
  | task :: rest =>
      task.inputs = compiledInputs previous.toList ∧
        task.isEntry = previous.isNone ∧
          task.isFinalTask = rest.isEmpty ∧
            TasksLinked (some task.id) rest

structure TaskLine (tasks : List CompiledTask) : Prop where
  nonempty : tasks ≠ []
  distinct : (tasks.map CompiledTask.id).Nodup
  linked : TasksLinked none tasks

section Tasks

variable (found : OrderedMap String (Option TemplateMatch))
  {steps : List SkeletonStep}

theorem map_id_compileStep (steps : List SkeletonStep) :
    (steps.map (compileStep found)).map CompiledTask.id =
      stepIds steps := by
  rw [List.map_map]
  rfl

theorem tasksLinked_of_linked
    {previous : Option String} (linked : Linked previous steps) :
    TasksLinked previous (steps.map (compileStep found)) := by
  induction steps generalizing previous with
  | nil =>
      trivial
  | cons step rest inductionHypothesis =>
      refine ⟨?_, linked.2.1, ?_, inductionHypothesis linked.2.2.2⟩
      · rw [← linked.1]
        rfl
      · rw [List.isEmpty_map]
        exact linked.2.2.1

theorem taskLine_of_isLine
    (line : IsLine steps) (nonempty : steps ≠ []) :
    TaskLine (steps.map (compileStep found)) where
  nonempty := fun none => nonempty (List.map_eq_nil_iff.mp none)
  distinct := by
    rw [map_id_compileStep]
    exact line.distinct
  linked := tasksLinked_of_linked found line.linked

end Tasks

/-- The task waits for the other one alone. -/
def WaitsFor (tasks : List CompiledTask) (dependency id : String) : Prop :=
  ∃ task ∈ tasks, task.id = id ∧ task.inputs = compiledInputs [dependency]

/-- Everything behind a place waits for what is at it. -/
theorem waits_of_tasksLinked
    {tasks whole : List CompiledTask} (within : tasks ⊆ whole)
    {previous id : String} (linked : TasksLinked (some previous) tasks)
    (member : id ∈ tasks.map CompiledTask.id) :
    Relation.TransGen (WaitsFor whole) previous id := by
  induction tasks generalizing previous with
  | nil =>
      cases member
  | cons task rest inductionHypothesis =>
      have here : WaitsFor whole previous task.id :=
        ⟨task, within List.mem_cons_self, rfl, linked.1⟩
      rcases List.mem_cons.mp member with rfl | later
      · exact .single here
      · have restWithin : rest ⊆ whole := fun other inRest =>
          within (List.mem_cons_of_mem _ inRest)
        exact .head here
          (inductionHypothesis restWithin linked.2.2.2 later)

/-- On a line, a later task waits for an earlier one. -/
theorem waits_of_order
    {tasks whole : List CompiledTask} (within : tasks ⊆ whole)
    {previous : Option String} (linked : TasksLinked previous tasks)
    {first second : String}
    (order : [first, second].Sublist (tasks.map CompiledTask.id)) :
    Relation.TransGen (WaitsFor whole) first second := by
  induction tasks generalizing previous with
  | nil =>
      cases order
  | cons task rest inductionHypothesis =>
      have restWithin : rest ⊆ whole := fun other inRest =>
        within (List.mem_cons_of_mem _ inRest)
      rw [List.map_cons] at order
      cases order with
      | cons _ later =>
          exact inductionHypothesis restWithin linked.2.2.2 later
      | cons_cons _ later =>
          exact waits_of_tasksLinked restWithin linked.2.2.2
            (List.singleton_sublist.mp later)

section Orchestrator

variable (generation : Generation) {skeleton : TopologySkeleton}
  (template : BusinessTemplate) (candidate : SkeletonCandidate)
  (variantId : Option String)

def linearPipeline (skeleton : TopologySkeleton) : GeneratedPipeline :=
  let steps := mutatedSteps generation.floats template skeleton
  let applied :=
    (matchedRules generation.floats template skeleton).map
      MutationRule.ruleId
  { skeleton := skeleton
    steps := steps.map SkeletonStep.toObject
    compiled := some (compileSkeletonToPipeline generation.scoring
      { skeleton with steps := steps } template
      generation.agentTemplates generation.vhost)
    metadata := {
      skeletonId := skeleton.skeletonId
      skeletonName := skeleton.name
      workflowClass := template.workflowClass
      retrievalScore := candidate.score
      matchDetails := candidate.matchDetails
      mutationsApplied := applied
      topologySignature :=
        buildTopologySignature skeleton.skeletonId applied
      variantId := variantId
      businessTemplate := template } }

theorem buildPipeline_of_linear (linear : skeleton.Linear) :
    buildPipeline generation skeleton template candidate variantId =
      .ok (linearPipeline generation template candidate variantId
        skeleton) := by
  unfold buildPipeline
  rw [bind_ok (linear.applyMutations_eq generation.floats template
    generation.inherited)]
  dsimp only
  rw [mapM_typed?_toObject]
  rfl

/-- The skeleton as a whole, or without one of its rules in an experiment. -/
inductive Chosen (skeleton : TopologySkeleton) :
    TopologySkeleton → Option String → Prop where
  | whole : Chosen skeleton skeleton none
  | baseline : Chosen skeleton skeleton (some "baseline")
  | skipping {rule : MutationRule}
      (isRule : rule ∈ skeleton.mutationRules) :
      Chosen skeleton (skeleton.withoutRules [rule.ruleId])
        (some ("skip_" ++ rule.ruleId))

variable {template candidate variantId}

theorem Chosen.linear
    {chosen : TopologySkeleton} (isChosen : Chosen skeleton chosen variantId)
    (linear : skeleton.Linear) : chosen.Linear := by
  cases isChosen with
  | whole => exact linear
  | baseline => exact linear
  | skipping isRule => exact linear.withoutRules _

variable (template candidate)

theorem experiment_of_linear (draw : Draw) (linear : skeleton.Linear) :
    ∃ chosen variantId, Chosen skeleton chosen variantId ∧
      generateExperimentVariant generation draw skeleton template
          candidate =
        .ok (linearPipeline generation template candidate variantId
          chosen) := by
  have matching := matchingRules_of_unordered generation.floats template
    linear.unordered
  unfold generateExperimentVariant
  rw [bind_ok matching]
  split
  · exact ⟨skeleton, _, .baseline,
      buildPipeline_of_linear generation template candidate _ linear⟩
  · rename_i skipped isActive
    have isRule : skipped ∈ skeleton.mutationRules :=
      List.mem_of_mem_filter (List.mem_of_getElem? isActive)
    split
    · exact ⟨skeleton, _, .baseline,
        buildPipeline_of_linear generation template candidate _ linear⟩
    · exact ⟨_, _, .skipping isRule,
        buildPipeline_of_linear generation template candidate _
          (linear.withoutRules _)⟩

/-- A policy without suppressed rules leaves the skeleton as it is. -/
theorem generated_of_linear
    (draw : Draw) {policy : PolicyState} {best : SkeletonCandidate}
    (enabled : generation.topologyPriorEnabled = true)
    (unsuppressed : policy.mutationSuppression = [])
    (unescalated : policy.mutationEscalation = [])
    (isBest :
      let effective := applyPolicyToTemplate template policy
      ((generation.retrieveSkeletons effective
          generation.minScore).head?).or
        (generation.retrieveSkeletons
          { effective with workflowClass := "generic" } 0).head? =
        some best)
    (linear : best.skeleton.Linear) :
    ∃ chosen variantId, Chosen best.skeleton chosen variantId ∧
      generatePipelineFromTemplate generation draw template policy =
        .ok (some (linearPipeline generation
          (applyPolicyToTemplate template policy) best variantId
          chosen)) := by
  have whole :
      applyPolicyToSkeleton best.skeleton policy = best.skeleton := by
    unfold applyPolicyToSkeleton
    rw [unsuppressed, unescalated]
    rfl
  unfold generatePipelineFromTemplate
  rw [if_pos enabled]
  dsimp only at isBest ⊢
  rw [isBest]
  dsimp only
  rw [whole]
  split
  · obtain ⟨chosen, variantId, isChosen, made⟩ :=
      experiment_of_linear generation
        (applyPolicyToTemplate template policy) best draw linear
    refine ⟨chosen, variantId, isChosen, ?_⟩
    rw [made]
    rfl
  · refine ⟨best.skeleton, none, .whole, ?_⟩
    rw [buildPipeline_of_linear generation _ best none linear]
    rfl

end Orchestrator

/-! ## Gates -/

theorem exists_of_mem_insertedSteps
    {rules : List MutationRule} {id : String}
    (member : id ∈ stepIds (insertedSteps rules)) :
    ∃ rule ∈ rules, id ∈ stepIds (insertedSteps [rule]) := by
  induction rules with
  | nil =>
      cases member
  | cons rule rest inductionHypothesis =>
      have split : insertedSteps (rule :: rest) =
          insertedSteps [rule] ++ insertedSteps rest :=
        insertedSteps_append [rule] rest
      rw [split, stepIds, List.map_append, List.mem_append] at member
      rcases member with here | later
      · exact ⟨rule, List.mem_cons_self, here⟩
      · obtain ⟨other, inRest, isOther⟩ := inductionHypothesis later
        exact ⟨other, List.mem_cons_of_mem _ inRest, isOther⟩

theorem mem_insertedSteps_of_mem
    {rules : List MutationRule} {rule : MutationRule}
    (member : rule ∈ rules) {id : String}
    (brings : id ∈ stepIds (insertedSteps [rule])) :
    id ∈ stepIds (insertedSteps rules) := by
  have sublist : [rule].Sublist rules := List.singleton_sublist.mpr member
  have inserted : (insertedSteps [rule]).Sublist (insertedSteps rules) :=
    (sublist.flatMap MutationRule.actions).filterMap _
  exact (inserted.map SkeletonStep.stepId).subset brings

theorem skip_ne_baseline (ruleId : String) :
    "baseline" ≠ "skip_" ++ ruleId := by
  intro same
  have letters := congrArg String.toList same
  rw [String.toList_append] at letters
  cases List.head_eq_of_cons_eq letters

section Gates

variable {skeleton chosen : TopologySkeleton} {variantId : Option String}

theorem Chosen.steps_eq (isChosen : Chosen skeleton chosen variantId) :
    chosen.steps = skeleton.steps := by
  cases isChosen <;> rfl

theorem Chosen.skeletonId_eq
    (isChosen : Chosen skeleton chosen variantId) :
    chosen.skeletonId = skeleton.skeletonId := by
  cases isChosen <;> rfl

/-- A rule of the skeleton is left out by the variant named after it. -/
theorem Chosen.mem_rules_iff
    (isChosen : Chosen skeleton chosen variantId) {rule : MutationRule} :
    rule ∈ chosen.mutationRules ↔
      rule ∈ skeleton.mutationRules ∧
        variantId ≠ some ("skip_" ++ rule.ruleId) := by
  cases isChosen with
  | whole =>
      exact ⟨fun member => ⟨member, Option.some_ne_none _ |>.symm⟩,
        And.left⟩
  | baseline =>
      refine ⟨fun member => ⟨member, ?_⟩, And.left⟩
      intro same
      exact skip_ne_baseline _ (Option.some.inj same)
  | skipping isRule =>
      rename_i skipped
      change rule ∈ skeleton.mutationRules.filter _ ↔ _
      rw [List.mem_filter, decide_eq_true_iff, List.mem_singleton, ne_eq,
        Option.some.injEq, String.append_right_inj]
      exact and_congr_right fun _ => not_congr eq_comm

/-- The steps of the skeleton grow in every variant of it. -/
theorem Chosen.grown
    (isChosen : Chosen skeleton chosen variantId)
    (linear : skeleton.Linear) (floats : FloatOrder)
    (template : BusinessTemplate) :
    Grown (stepIds skeleton.steps) (matchedRules floats template chosen)
      (mutatedSteps floats template chosen) := by
  rw [← isChosen.steps_eq]
  exact (isChosen.linear linear).grown floats template

variable {rule : MutationRule} {gate : SkeletonStep}

/-- A gate whose rule is applied comes before whatever executes. -/
theorem gate_order
    (floats : FloatOrder) (template : BusinessTemplate)
    (isChosen : Chosen skeleton chosen variantId)
    (linear : skeleton.Linear) (guards : Guards skeleton rule gate)
    (holds : ruleHolds floats template rule = true)
    (unskipped : variantId ≠ some ("skip_" ++ rule.ruleId))
    {step : SkeletonStep} (isStep : step ∈ skeleton.steps)
    (executes : step.role = "execute") :
    [gate.stepId, step.stepId].Sublist
      (stepIds (mutatedSteps floats template chosen)) := by
  have isMatched : rule ∈ matchedRules floats template chosen :=
    (mem_matchedRules_iff floats template).mpr
      ⟨isChosen.mem_rules_iff.mpr ⟨guards.isRule, unskipped⟩, holds⟩
  obtain ⟨targetId, inserts, before⟩ := guards.inserts
  have order := (isChosen.grown linear floats template).gates rule
    isMatched targetId gate inserts _ (before step isStep executes)
  exact (List.sublist_cons_self _ _).trans order

/-- The gate is there exactly when the conditions of its rule hold and no
experiment leaves the rule out. -/
theorem gate_mem_iff
    (floats : FloatOrder) (template : BusinessTemplate)
    (isChosen : Chosen skeleton chosen variantId)
    (linear : skeleton.Linear) (guards : Guards skeleton rule gate) :
    gate.stepId ∈ stepIds (mutatedSteps floats template chosen) ↔
      ruleHolds floats template rule = true ∧
        variantId ≠ some ("skip_" ++ rule.ruleId) := by
  constructor
  · intro member
    have isNew := ((isChosen.grown linear floats template).known _
      member).resolve_left guards.unlisted
    obtain ⟨other, isMatched, brings⟩ := exists_of_mem_insertedSteps isNew
    obtain ⟨isRule, holds⟩ :=
      (mem_matchedRules_iff floats template).mp isMatched
    obtain ⟨inSkeleton, unskipped⟩ := isChosen.mem_rules_iff.mp isRule
    have same : other = rule :=
      List.inj_on_of_nodup_map guards.distinctIds inSkeleton guards.isRule
        (guards.sole other inSkeleton brings)
    subst same
    exact ⟨holds, unskipped⟩
  · rintro ⟨holds, unskipped⟩
    obtain ⟨step, isStep, executes⟩ := guards.executes
    have order := gate_order floats template isChosen linear guards holds
      unskipped isStep executes
    exact order.subset List.mem_cons_self

/-- What neither a step nor a rule of the skeleton brings is not there. -/
theorem not_mem_mutatedSteps
    (floats : FloatOrder) (template : BusinessTemplate)
    (isChosen : Chosen skeleton chosen variantId)
    (linear : skeleton.Linear) {id : String}
    (unlisted : id ∉ stepIds skeleton.steps)
    (unbrought : id ∉ stepIds (insertedSteps skeleton.mutationRules)) :
    id ∉ stepIds (mutatedSteps floats template chosen) := by
  intro member
  have isNew := ((isChosen.grown linear floats template).known _
    member).resolve_left unlisted
  obtain ⟨other, isMatched, brings⟩ := exists_of_mem_insertedSteps isNew
  have isRule := ((mem_matchedRules_iff floats template).mp isMatched).1
  exact unbrought (mem_insertedSteps_of_mem
    (isChosen.mem_rules_iff.mp isRule).1 brings)

end Gates

theorem ruleHolds_of_condition
    {floats : FloatOrder} {template : BusinessTemplate}
    {rule : MutationRule} {condition : MutationCondition} {holds : Bool}
    (one : rule.conditions = [condition])
    (evaluated : evaluateCondition floats condition template = .ok holds) :
    ruleHolds floats template rule = holds := by
  rw [ruleHolds, one, allConditions, bind_ok evaluated]
  cases holds <;> rfl

theorem splitOn_compliance :
    "compliance_strictness".splitOn "." = ["compliance_strictness"] := by
  unfold String.splitOn
  rw [if_neg (by decide)]
  iterate 21 rw [splitOnAux_next _ _ (by decide) (by decide)]
  rw [String.splitOnAux]
  decide

theorem ruleHolds_complianceGateRule
    (floats : FloatOrder) (template : BusinessTemplate)
    (afterStepId : String) :
    ruleHolds floats template (complianceGateRule afterStepId) =
      decide (template.complianceStrictness = "strict") := by
  have resolved :
      resolveField template.modelDump "compliance_strictness" =
        .json (.str template.complianceStrictness) := by
    unfold resolveField
    rw [splitOn_compliance]
    rfl
  apply ruleHolds_of_condition rfl
  unfold evaluateCondition
  simp only [resolved, pyEq_str]

theorem ruleHolds_humanApprovalRule
    (floats : FloatOrder) (template : BusinessTemplate)
    (afterStepId : String) :
    ruleHolds floats template (humanApprovalRule afterStepId) =
      template.humanApprovalRequired :=
  ruleHolds_of_condition rfl (evaluate_approvalCondition floats template)

namespace GenerationService

variable (service : GenerationService) (request : GenerationRequest)

theorem policy_unsuppressed :
    (service.policy request).mutationSuppression = [] ∧
      (service.policy request).mutationEscalation = [] := by
  unfold policy
  cases request.healthSignals with
  | none =>
      exact ⟨rfl, rfl⟩
  | some signals =>
      have gates := gates_evaluate service.runtimePolicyEnabled
        service.thresholds signals
      exact ⟨congrArg (·.2.1) gates, congrArg (·.2.2) gates⟩

theorem exists_best
    (seeded : request.includeSeeds = true)
    (template : BusinessTemplate) :
    ∃ seed ∈ getLogisticsSeeds, ∃ best : SkeletonCandidate,
      best.skeleton = seed.toTopologySkeleton ∧
      (((service.generation request).retrieveSkeletons template
          (service.generation request).minScore).head?).or
        ((service.generation request).retrieveSkeletons
          { template with workflowClass := "generic" } 0).head? =
        some best := by
  have listed : skeletons request = getLogisticsSeeds := if_pos seeded
  have isSeed {other : BusinessTemplate} {minScore : Rat}
      {candidate : SkeletonCandidate}
      (isHead : ((service.generation request).retrieveSkeletons other
        minScore).head? = some candidate) :
      ∃ seed ∈ getLogisticsSeeds,
        candidate.skeleton = seed.toTopologySkeleton := by
    rw [← listed]
    exact exists_of_mem_retrieve (List.mem_of_mem_head? isHead)
  cases first : ((service.generation request).retrieveSkeletons template
      (service.generation request).minScore).head? with
  | some best =>
      obtain ⟨seed, member, same⟩ := isSeed first
      exact ⟨seed, member, best, same, rfl⟩
  | none =>
      have any : ((service.generation request).retrieveSkeletons
          { template with workflowClass := "generic" } 0) ≠ [] := by
        have first : shipmentExceptionSkeleton ∈ skeletons request := by
          rw [listed]
          exact List.mem_cons_self
        exact retrieve_ne_nil first rfl
      obtain ⟨best, rest, ranking⟩ := List.exists_cons_of_ne_nil any
      have isHead : ((service.generation request).retrieveSkeletons
          { template with workflowClass := "generic" } 0).head? =
          some best := by
        rw [ranking]
        rfl
      obtain ⟨seed, member, same⟩ := isSeed isHead
      exact ⟨seed, member, best, same, isHead⟩

/-- The template as the policy leaves it. -/
def effective : BusinessTemplate :=
  applyPolicyToTemplate request.template (service.policy request)

/-- The result of a call that makes a pipeline. -/
def made (pipeline : GeneratedPipeline) : GenerationResult where
  pipelineCreate := some pipeline
  policyState := some (service.policy request)
  performanceUsed := service.summary? request pipeline

theorem generateSystem_of_seeds
    (draw : Draw) (seeded : request.includeSeeds = true)
    (enabled : service.topologyPriorEnabled = true) :
    ∃ seed ∈ getLogisticsSeeds, ∃ candidate chosen variantId,
      Chosen seed.toTopologySkeleton chosen variantId ∧
      service.generateSystem request draw =
        .ok (service.made request
          (linearPipeline (service.generation request)
            (service.effective request) candidate variantId chosen)) := by
  obtain ⟨seed, member, best, same, isBest⟩ :=
    service.exists_best request seeded (service.effective request)
  have unsuppressed := service.policy_unsuppressed request
  have linear : best.skeleton.Linear := by
    rw [same]
    exact linear_of_seed member
  obtain ⟨chosen, variantId, isChosen, generated⟩ :=
    generated_of_linear (service.generation request) request.template
      draw enabled unsuppressed.1 unsuppressed.2 isBest linear
  rw [same] at isChosen
  refine ⟨seed, member, best, chosen, variantId, isChosen, ?_⟩
  have listed : (skeletons request).isEmpty = false := by
    rw [skeletons, if_pos seeded]
    rfl
  unfold generateSystem
  dsimp only
  rw [listed, generated]
  rfl

/-! ## Lines of tasks from the seeds -/

theorem linearPipeline_compiled
    (generation : Generation) (template : BusinessTemplate)
    (candidate : SkeletonCandidate) (variantId : Option String)
    (skeleton : TopologySkeleton) :
    ∃ compiled found,
      (linearPipeline generation template candidate variantId
          skeleton).compiled = some compiled ∧
        compiled.tasks =
          (mutatedSteps generation.floats template skeleton).map
            (compileStep found) :=
  ⟨_, _, rfl, rfl⟩

theorem generateSystem_of_unseeded
    (draw : Draw) (unseeded : request.includeSeeds = false) :
    service.generateSystem request draw =
      .ok { error := some "No topology skeletons available." } := by
  have none : (skeletons request).isEmpty = true := by
    rw [skeletons, unseeded]
    rfl
  rw [generateSystem, if_pos none]

theorem generateSystem_of_disabled
    (draw : Draw) (seeded : request.includeSeeds = true)
    (disabled : service.topologyPriorEnabled = false) :
    service.generateSystem request draw =
      .ok {
        policyState := some (service.policy request)
        error := some ("No suitable topology found for workflow_class='" ++
          request.template.workflowClass ++ "'.") } := by
  have listed : (skeletons request).isEmpty = false := by
    rw [skeletons, if_pos seeded]
    rfl
  have none : generatePipelineFromTemplate (service.generation request)
      draw request.template (service.policy request) = .ok none := by
    have off : (service.generation request).topologyPriorEnabled = false :=
      disabled
    rw [generatePipelineFromTemplate, off]
    rfl
  rw [generateSystem, listed, none]
  rfl

/-- The service never raises.  It makes a pipeline exactly when the seeds are
asked for and the prior is enabled, whatever the workflow class is; and each
pipeline is one line of tasks with the steps of a seed in their order. -/
theorem generateSystem_line (draw : Draw) :
    ∃ result, service.generateSystem request draw = .ok result ∧
      (result.success = true ↔
        request.includeSeeds = true ∧
          service.topologyPriorEnabled = true) ∧
      ∀ pipeline, result.pipelineCreate = some pipeline →
        ∃ seed ∈ getLogisticsSeeds, ∃ compiled,
          pipeline.compiled = some compiled ∧ TaskLine compiled.tasks ∧
            (stepIds seed.steps).Sublist
              (compiled.tasks.map CompiledTask.id) := by
  cases seeded : request.includeSeeds with
  | false =>
      refine ⟨_, service.generateSystem_of_unseeded request draw seeded,
        ?_, fun pipeline isSome => nomatch isSome⟩
      exact ⟨fun success => absurd success Bool.false_ne_true,
        fun both => absurd both.1 Bool.false_ne_true⟩
  | true =>
      cases enabled : service.topologyPriorEnabled with
      | false =>
          refine ⟨_, service.generateSystem_of_disabled request draw seeded
            enabled, ?_, fun pipeline isSome => nomatch isSome⟩
          exact ⟨fun success => absurd success Bool.false_ne_true,
            fun both => absurd both.2 Bool.false_ne_true⟩
      | true =>
          obtain ⟨seed, member, candidate, chosen, variantId, isChosen,
            generated⟩ :=
            service.generateSystem_of_seeds request draw seeded enabled
          have linear := linear_of_seed member
          have grown := isChosen.grown linear service.floats
            (service.effective request)
          refine ⟨_, generated, ⟨fun _ => ⟨rfl, rfl⟩, fun _ => rfl⟩, ?_⟩
          intro pipeline isMade
          obtain rfl := Option.some.inj isMade
          obtain ⟨compiled, found, isCompiled, tasks⟩ :=
            linearPipeline_compiled (service.generation request)
              (service.effective request) candidate variantId chosen
          refine ⟨seed, member, compiled, isCompiled, ?_, ?_⟩
          · rw [tasks]
            exact taskLine_of_isLine _ grown.line
              (grown.nonempty linear.nonempty)
          · rw [tasks, map_id_compileStep]
            exact grown.order

/-- A rule that leaves the verification as it is. -/
def KeepsVerification
    (rule : HealthSignals → PolicyState → PolicyState) : Prop :=
  ∀ signals state,
    (rule signals state).verificationMode = state.verificationMode

theorem keepsVerification_of_other_rule
    (thresholds : PolicyThresholds)
    {rule : HealthSignals → PolicyState → PolicyState}
    (other : rule ∈ [ruleQueueLagDiscouragesCoalitions thresholds,
      ruleVerifierSaturation thresholds, ruleTimeoutSpike thresholds,
      ruleHandoffFrictionSpike thresholds, ruleHumanBacklog thresholds,
      ruleAgentPoolPressure thresholds, ruleRetryRateHigh thresholds]) :
    KeepsVerification rule := by
  intro signals state
  simp only [List.mem_cons, List.not_mem_nil, or_false] at other
  rcases other with rfl | rfl | rfl | rfl | rfl | rfl | rfl
  · unfold ruleQueueLagDiscouragesCoalitions
    split
    · rfl
    · split <;> rfl
  · unfold ruleVerifierSaturation
    split <;> rfl
  · unfold ruleTimeoutSpike
    split <;> rfl
  · unfold ruleHandoffFrictionSpike
    split <;> rfl
  · unfold ruleHumanBacklog
    split <;> rfl
  · unfold ruleAgentPoolPressure
    split <;> rfl
  · unfold ruleRetryRateHigh
    split <;> rfl

/-- The rule on costs comes behind the one on incidents and overrides it. -/
theorem verificationMode_evaluate
    (thresholds : PolicyThresholds) (signals : HealthSignals) :
    (evaluate true thresholds signals).verificationMode =
      if thresholds.costBurnHigh ≤ signals.costBurnRatePerMin then .minimal
      else if thresholds.policyIncidentHigh ≤
          signals.recentPolicyIncidentRate then .stricter
      else .normal := by
  have keeps {rule : HealthSignals → PolicyState → PolicyState}
      (other : rule ∈ [ruleQueueLagDiscouragesCoalitions thresholds,
        ruleVerifierSaturation thresholds, ruleTimeoutSpike thresholds,
        ruleHandoffFrictionSpike thresholds, ruleHumanBacklog thresholds,
        ruleAgentPoolPressure thresholds, ruleRetryRateHigh thresholds])
      (state : PolicyState) :=
    keepsVerification_of_other_rule thresholds other signals state
  change (ruleRetryRateHigh thresholds signals
    (ruleAgentPoolPressure thresholds signals
      (ruleHumanBacklog thresholds signals
        (ruleCostBurnHigh thresholds signals
          (ruleHandoffFrictionSpike thresholds signals
            (rulePolicyIncidentSpike thresholds signals
              (ruleTimeoutSpike thresholds signals
                (ruleVerifierSaturation thresholds signals
                  (ruleQueueLagDiscouragesCoalitions thresholds signals
                    {}))))))))).verificationMode = _
  rw [keeps (by simp), keeps (by simp), keeps (by simp)]
  unfold ruleCostBurnHigh
  split
  · rfl
  · rw [keeps (by simp)]
    unfold rulePolicyIncidentSpike
    split
    · rfl
    · rw [keeps (by simp), keeps (by simp), keeps (by simp)]

/-- The policy engine is on and finds the signals of the call high. -/
def Measured (high : HealthSignals → Prop) : Prop :=
  service.runtimePolicyEnabled = true ∧
    ∃ signals, request.healthSignals = some signals ∧ high signals

def CostBurnHigh : Prop :=
  service.Measured request fun signals =>
    service.thresholds.costBurnHigh ≤ signals.costBurnRatePerMin

def PolicyIncidentsHigh : Prop :=
  service.Measured request fun signals =>
    service.thresholds.policyIncidentHigh ≤
      signals.recentPolicyIncidentRate

def HumanBacklogHigh : Prop :=
  service.Measured request fun signals =>
    service.thresholds.humanBacklogHigh ≤ signals.humanApprovalBacklog

theorem verificationMode_policy_iff :
    ((service.policy request).verificationMode = .minimal ↔
      service.CostBurnHigh request) ∧
    ((service.policy request).verificationMode = .stricter ↔
      service.PolicyIncidentsHigh request ∧
        ¬ service.CostBurnHigh request) := by
  unfold policy CostBurnHigh PolicyIncidentsHigh Measured
  cases request.healthSignals with
  | none =>
      simp
  | some signals =>
      cases service.runtimePolicyEnabled with
      | false =>
          simp [evaluate]
      | true =>
          rw [verificationMode_evaluate]
          split
          · simp [*]
          · split <;> simp [*]

/-- The default hierarchy of capabilities. -/
def defaultHierarchy : Hierarchy :=
  OrderedMap.ofList
    [("data_read", "io_capability"), ("data_write", "io_capability"),
      ("api_call", "io_capability"), ("file_read", "data_read"),
      ("file_write", "data_write"), ("db_read", "data_read"),
      ("db_write", "data_write"), ("transform", "processing"),
      ("validate", "processing"), ("filter", "processing"),
      ("aggregate", "processing"), ("parse", "transform"),
      ("normalize", "transform"), ("analyze", "analysis"),
      ("ml_inference", "analysis"), ("statistics", "analysis"),
      ("http_request", "integration"), ("webhook", "integration"),
      ("queue_publish", "integration"), ("queue_consume", "integration")]

/-- A service with the policy engine on; its texts are in lower case. -/
def shipmentService : GenerationService where
  topologyPriorEnabled := true
  runtimePolicyEnabled := true
  thresholds := {}
  retrieval :=
    { python :=
        { strOther := fun _ => ""
          dictOther := fun _ => .error .typeError
          upper := fun text => text
          lower := fun text => text }
      hierarchy := defaultHierarchy
      weights := {} }
  scoring := noScores
  inherited _ := false
  floats := comparedInts
  mean := exactMean

/-- A strict template that requires approval. -/
def strictTemplate : BusinessTemplate where
  templateId := "template"
  workflowClass := "shipment_exception"
  complianceStrictness := "strict"
  humanApprovalRequired := true
  createdAt := "2025-01-01T00:00:00+00:00"

def costlyRequest : GenerationRequest where
  template := strictTemplate
  healthSignals := some { costBurnRatePerMin := 9 }

def backlogRequest : GenerationRequest where
  template := strictTemplate
  healthSignals := some { humanApprovalBacklog := 12 }

variable {service request}

/-- A policy never makes a template strict by raising it. -/
theorem raised_eq_strict_iff (bias : Prop) [Decidable bias]
    (strictness : String) :
    (if bias ∧ strictness = "none" then "moderate" else strictness) =
        "strict" ↔ strictness = "strict" := by
  split
  · rename_i raised
    rw [raised.2]
    decide
  · exact Iff.rfl

/-- High costs take the strictness from a template, however many incidents
there are. -/
theorem strict_effective_iff :
    (service.effective request).complianceStrictness = "strict" ↔
      (request.template.complianceStrictness = "strict" ∨
        service.PolicyIncidentsHigh request) ∧
        ¬ service.CostBurnHigh request := by
  have modes := service.verificationMode_policy_iff request
  unfold effective applyPolicyToTemplate
  cases mode : (service.policy request).verificationMode with
  | normal =>
      rw [mode] at modes
      have noCost : ¬ service.CostBurnHigh request :=
        fun high => nomatch modes.1.mpr high
      have noIncidents : ¬ service.PolicyIncidentsHigh request :=
        fun high => nomatch modes.2.mpr ⟨high, noCost⟩
      rw [or_iff_left noIncidents, and_iff_left noCost]
      exact raised_eq_strict_iff _ _
  | stricter =>
      rw [mode] at modes
      obtain ⟨incidents, noCost⟩ := modes.2.mp rfl
      exact iff_of_true rfl ⟨Or.inr incidents, noCost⟩
  | minimal =>
      rw [mode] at modes
      refine iff_of_false ?_ fun both => both.2 (modes.1.mp rfl)
      dsimp only
      split
      · decide
      · rename_i notStrict
        exact fun same => notStrict ((raised_eq_strict_iff _ _).mp same)

theorem required_effective_iff :
    (service.effective request).humanApprovalRequired = true ↔
      request.template.humanApprovalRequired = true ∧
        ¬ service.HumanBacklogHigh request := by
  unfold effective applyPolicyToTemplate policy HumanBacklogHigh Measured
  cases request.healthSignals with
  | none =>
      simp
  | some signals =>
      have bias := congrArg Prod.fst
        (gates_evaluate service.runtimePolicyEnabled service.thresholds
          signals)
      change (evaluate service.runtimePolicyEnabled service.thresholds
        signals).humanGateBias = _ at bias
      dsimp only
      rw [bias]
      split
      · simp [*]
      · simp [*]

/-- The task of the gate is there exactly when it is required and no
experiment leaves its rule out, and then every step that executes waits for
it. -/
structure Gated (pipeline : GeneratedPipeline) (tasks : List CompiledTask)
    (gateId ruleId : String) (required : Prop) : Prop where
  present : gateId ∈ tasks.map CompiledTask.id ↔
    required ∧ pipeline.metadata.variantId ≠ some ("skip_" ++ ruleId)
  before : gateId ∈ tasks.map CompiledTask.id →
    ∀ step ∈ pipeline.skeleton.steps, step.role = "execute" →
      Relation.TransGen (WaitsFor tasks) gateId step.stepId

theorem gated_of_guards
    {generation : Generation} {template : BusinessTemplate}
    {candidate : SkeletonCandidate} {skeleton chosen : TopologySkeleton}
    {variantId : Option String} (isChosen : Chosen skeleton chosen variantId)
    (linear : skeleton.Linear) {rule : MutationRule} {gate : SkeletonStep}
    (guards : Guards skeleton rule gate)
    {found : OrderedMap String (Option TemplateMatch)}
    {tasks : List CompiledTask}
    (isTasks : tasks =
      (mutatedSteps generation.floats template chosen).map
        (compileStep found)) :
    Gated (linearPipeline generation template candidate variantId chosen)
      tasks gate.stepId rule.ruleId
      (ruleHolds generation.floats template rule = true) := by
  have ids : tasks.map CompiledTask.id =
      stepIds (mutatedSteps generation.floats template chosen) := by
    rw [isTasks, map_id_compileStep]
  have linked : TasksLinked none tasks := by
    rw [isTasks]
    exact tasksLinked_of_linked found
      ((isChosen.linear linear).grown generation.floats
        template).line.linked
  refine ⟨?_, ?_⟩
  · rw [ids]
    exact gate_mem_iff generation.floats template isChosen linear guards
  · intro member step isStep executes
    rw [ids] at member
    obtain ⟨holds, unskipped⟩ := (gate_mem_iff generation.floats template
      isChosen linear guards).mp member
    have inSkeleton : step ∈ skeleton.steps := by
      rw [← isChosen.steps_eq]
      exact isStep
    apply waits_of_order (List.Subset.refl tasks) linked
    rw [ids]
    exact gate_order generation.floats template isChosen linear guards
      holds unskipped inSkeleton executes

theorem Gated.congr
    {pipeline : GeneratedPipeline} {tasks : List CompiledTask}
    {gateId ruleId : String} {required other : Prop}
    (gated : Gated pipeline tasks gateId ruleId required)
    (same : required ↔ other) :
    Gated pipeline tasks gateId ruleId other :=
  ⟨by rw [← same]; exact gated.present, gated.before⟩

/-- In a pipeline from the seeds the compliance gate comes before everything
that executes exactly when compliance is strict, or incidents are high, and
costs are not. -/
theorem generateSystem_compliance
    (draw : Draw) (seeded : request.includeSeeds = true)
    (enabled : service.topologyPriorEnabled = true) :
    ∃ pipeline compiled,
      service.generateSystem request draw =
          .ok (service.made request pipeline) ∧
        pipeline.compiled = some compiled ∧
        Gated pipeline compiled.tasks "compliance_verify"
          "rule_compliance_gate"
          ((request.template.complianceStrictness = "strict" ∨
              service.PolicyIncidentsHigh request) ∧
            ¬ service.CostBurnHigh request) := by
  obtain ⟨seed, member, candidate, chosen, variantId, isChosen,
    generated⟩ :=
    service.generateSystem_of_seeds request draw seeded enabled
  obtain ⟨compiled, found, isCompiled, tasks⟩ :=
    linearPipeline_compiled (service.generation request)
      (service.effective request) candidate variantId chosen
  obtain ⟨afterStepId, guards⟩ := compliance_guards member
  refine ⟨_, compiled, generated, isCompiled, ?_⟩
  apply (gated_of_guards isChosen (linear_of_seed member) guards
    tasks).congr
  rw [ruleHolds_complianceGateRule, decide_eq_true_iff]
  exact strict_effective_iff

/-- High costs take the gate from a strict template. -/
theorem costly_template_ungated :
    ∃ pipeline compiled,
      shipmentService.generateSystem costlyRequest ⟨true, 0⟩ =
          .ok (shipmentService.made costlyRequest pipeline) ∧
        pipeline.compiled = some compiled ∧
        "compliance_verify" ∉ compiled.tasks.map CompiledTask.id := by
  have seeded : costlyRequest.includeSeeds = true := rfl
  have enabled : shipmentService.topologyPriorEnabled = true := rfl
  obtain ⟨pipeline, compiled, made, isCompiled, gated⟩ :=
    generateSystem_compliance ⟨true, 0⟩ seeded enabled
  refine ⟨pipeline, compiled, made, isCompiled, fun present => ?_⟩
  have costs : shipmentService.CostBurnHigh costlyRequest :=
    ⟨rfl, _, rfl, by decide +kernel⟩
  exact (gated.present.mp present).1.2 costs

/-- The human gate comes before everything that executes exactly when the
template requires approval, the backlog is not high and the seed is not the
selection of carriers. -/
theorem generateSystem_approval
    (draw : Draw) (seeded : request.includeSeeds = true)
    (enabled : service.topologyPriorEnabled = true) :
    ∃ pipeline compiled,
      service.generateSystem request draw =
          .ok (service.made request pipeline) ∧
        pipeline.compiled = some compiled ∧
        Gated pipeline compiled.tasks "human_approve"
          "rule_human_approval"
          ((request.template.humanApprovalRequired = true ∧
              ¬ service.HumanBacklogHigh request) ∧
            pipeline.metadata.skeletonId ≠
              carrierSelectionSkeleton.skeletonId) := by
  obtain ⟨seed, member, candidate, chosen, variantId, isChosen,
    generated⟩ :=
    service.generateSystem_of_seeds request draw seeded enabled
  obtain ⟨compiled, found, isCompiled, tasks⟩ :=
    linearPipeline_compiled (service.generation request)
      (service.effective request) candidate variantId chosen
  refine ⟨_, compiled, generated, isCompiled, ?_⟩
  have linear := linear_of_seed member
  have sameId : (linearPipeline (service.generation request)
      (service.effective request) candidate variantId
      chosen).metadata.skeletonId = seed.skeletonId :=
    isChosen.skeletonId_eq
  rw [sameId]
  rcases human_guards member with
    ⟨other, afterStepId, guards⟩ | ⟨isCarrier, unlisted, unbrought⟩
  · apply (gated_of_guards isChosen linear guards tasks).congr
    rw [ruleHolds_humanApprovalRule, and_iff_left other]
    exact required_effective_iff
  · have absent :
        humanApprove.stepId ∉ compiled.tasks.map CompiledTask.id := by
      rw [tasks, map_id_compileStep]
      exact not_mem_mutatedSteps _ _ isChosen linear unlisted unbrought
    refine ⟨iff_of_false absent ?_, fun present => absurd present absent⟩
    exact fun both => both.1.2 isCarrier

/-- A long backlog takes the gate from a template that requires approval. -/
theorem backlog_template_ungated :
    ∃ pipeline compiled,
      shipmentService.generateSystem backlogRequest ⟨true, 0⟩ =
          .ok (shipmentService.made backlogRequest pipeline) ∧
        pipeline.compiled = some compiled ∧
        "human_approve" ∉ compiled.tasks.map CompiledTask.id := by
  have seeded : backlogRequest.includeSeeds = true := rfl
  have enabled : shipmentService.topologyPriorEnabled = true := rfl
  obtain ⟨pipeline, compiled, made, isCompiled, gated⟩ :=
    generateSystem_approval ⟨true, 0⟩ seeded enabled
  refine ⟨pipeline, compiled, made, isCompiled, fun present => ?_⟩
  have backlog : shipmentService.HumanBacklogHigh backlogRequest :=
    ⟨rfl, _, rfl, by decide +kernel⟩
  exact (gated.present.mp present).1.1.2 backlog

end GenerationService

end Agentcy.Topology
