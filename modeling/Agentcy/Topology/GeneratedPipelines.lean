import Agentcy.Topology.Compiler

/-!
# Generated pipelines in the parser

The first step of a connected DAG has no dependencies, and the parser raises
on it before it reads any other task.
-/

namespace Agentcy.Topology

open Agentcy.Library
open Agentcy.Parser (SetOrder FinalConfig parseGraph)
open Agentcy.PipelineStore (ErrorHandling)

/-- A DAG whose steps can all be reached from the first one. -/
structure TopologySkeleton.Compilable (skeleton : TopologySkeleton) :
    Prop where
  isDag : skeleton.IsDag
  reachable : ∀ first ∈ skeleton.steps.head?, ∀ step ∈ skeleton.steps,
    Relation.ReflTransGen
      (Dag.DependsOn (skeleton.steps.map SkeletonStep.node))
      first.stepId step.stepId

/-- The parsed dependencies are those of the skeleton. -/
def SameDependencies (skeleton : TopologySkeleton) (config : FinalConfig) :
    Prop :=
  ∀ dependency taskId,
    (∃ task, config.taskDict.get? taskId = some task ∧
      dependency ∈ task.dependencies) ↔
    Dag.DependsOn (skeleton.steps.map SkeletonStep.node) dependency taskId

/-- The creation model takes the compiled pipeline, and the parser accepts it
with the dependencies of the skeleton. -/
def GeneratedAccepted
    (keyOrder : SetOrder Json.Key) (order : SetOrder String)
    (pipelineId : Uuid) (errorHandling? : Fields → Option ErrorHandling)
    (skeleton : TopologySkeleton) (compiled : CompiledPipeline) : Prop :=
  ∃ create, modelValidate errorHandling? compiled = some create ∧
    ∃ config, parseGraph keyOrder order pipelineId create.dag.modelDump =
        .ok config ∧
      SameDependencies skeleton config

/-- A dependency of the first step would be reached from it again. -/
theorem first_dependencies_eq_nil
    {skeleton : TopologySkeleton} (compilable : skeleton.Compilable)
    {first : SkeletonStep} {rest : List SkeletonStep}
    (cut : skeleton.steps = first :: rest) : first.dependencies = [] := by
  have isFirst : first ∈ skeleton.steps.head? := by
    rw [cut]
    rfl
  have isStep : first ∈ skeleton.steps := by
    rw [cut]
    exact List.mem_cons_self
  have isNode : first.node ∈ skeleton.steps.map SkeletonStep.node :=
    List.mem_map.mpr ⟨first, isStep, rfl⟩
  cases named : first.dependencies with
  | nil =>
      rfl
  | cons dependency others =>
      have among : dependency ∈ first.node.dependencies := by
        rw [SkeletonStep.node, named]
        exact List.mem_cons_self
      have known :=
        compilable.isDag.closed first.node isNode dependency among
      rcases List.mem_map.mp known with ⟨node, member, rfl⟩
      rcases List.mem_map.mp member with ⟨step, isOther, rfl⟩
      have path := compilable.reachable first isFirst step isOther
      have cycle := Relation.TransGen.tail' path
        ⟨first.node, isNode, rfl, among⟩
      exact absurd cycle (compilable.isDag.acyclic first.stepId)

theorem validateTask_inputs
    {task : CompiledTask} {created : CreateTask}
    (validated : validateTask task = some created) :
    created.inputs = task.inputs := by
  rw [validateTask] at validated
  split at validated
  · rw [← Option.some.inj validated]
  · cases validated

theorem dag_of_modelValidate
    {errorHandling? : Fields → Option ErrorHandling}
    {compiled : CompiledPipeline} {create : PipelineCreate}
    (validated : modelValidate errorHandling? compiled = some create) :
    compiled.tasks.mapM validateTask = some create.dag.tasks := by
  rw [modelValidate] at validated
  split at validated
  · rename_i tasks errorHandling areTasks _
    split at validated
    · rw [← Option.some.inj validated]
      exact areTasks
    · cases validated
  · cases validated

/-- A task whose `inputs` is `None` at the head of the list ends the parse. -/
theorem parseGraph_of_first_without_inputs
    (keyOrder : SetOrder Json.Key) (order : SetOrder String)
    (pipelineId : Uuid) {first : Parser.Task} (rest : List Parser.Task)
    (noInputs : first.inputs = none) :
    parseGraph keyOrder order pipelineId (first :: rest) =
      .error (.python .attributeError) := by
  have raised : Parser.taskDependencies keyOrder
      ((first :: rest).map Parser.Task.id) first =
        .error (.python .attributeError) := by
    rw [Parser.taskDependencies, Parser.Task.dependencyItems, noInputs]
    rfl
  rw [parseGraph, Parser.inferDependenciesAndOutputs,
    Parser.readDependencies, raised]
  rfl

section Generated

variable
  (keyOrder : SetOrder Json.Key) (order : SetOrder String)
  (pipelineId : Uuid) (errorHandling? : Fields → Option ErrorHandling)
  (scoring : Scoring) (template : BusinessTemplate)
  (agentTemplates : List Fields) (vhost : String)

theorem parseGraph_of_generated
    {skeleton : TopologySkeleton} (compilable : skeleton.Compilable)
    {create : PipelineCreate}
    (validated : modelValidate errorHandling?
      (compileSkeletonToPipeline scoring skeleton template agentTemplates
        vhost) = some create) :
    parseGraph keyOrder order pipelineId create.dag.modelDump =
      .error (.python .attributeError) := by
  have areTasks := dag_of_modelValidate validated
  rw [compileSkeletonToPipeline] at areTasks
  dsimp only at areTasks
  cases cut : skeleton.steps with
  | nil =>
      have anyFinal := create.dag.mustHaveAtLeastOneFinal
      rw [cut] at areTasks
      rw [← Option.some.inj areTasks] at anyFinal
      cases anyFinal
  | cons first rest =>
      have noDependencies := first_dependencies_eq_nil compilable cut
      rw [cut, List.map_cons, List.mapM_cons] at areTasks
      rcases Option.bind_eq_some_iff.mp areTasks with
        ⟨created, isFirst, areTasks⟩
      rcases Option.bind_eq_some_iff.mp areTasks with
        ⟨later, _, same⟩
      have noInputs : created.inputs = none := by
        rw [validateTask_inputs isFirst, compileStep, noDependencies]
        rfl
      have dump : create.dag.modelDump = _ :=
        congrArg (List.map _) (Option.some.inj same).symm
      rw [dump, List.map_cons]
      exact parseGraph_of_first_without_inputs _ _ _ _ noInputs

/-- No pipeline generated from a connected DAG is accepted: what the creation
model takes makes the parser raise. -/
theorem generated_never_accepted
    {skeleton : TopologySkeleton} (compilable : skeleton.Compilable) :
    (∀ create,
      modelValidate errorHandling?
        (compileSkeletonToPipeline scoring skeleton template agentTemplates
          vhost) = some create →
      parseGraph keyOrder order pipelineId create.dag.modelDump =
        .error (.python .attributeError)) ∧
      ¬ GeneratedAccepted keyOrder order pipelineId errorHandling? skeleton
        (compileSkeletonToPipeline scoring skeleton template agentTemplates
          vhost) := by
  constructor
  · intro create validated
    exact parseGraph_of_generated keyOrder order pipelineId errorHandling?
      scoring template agentTemplates vhost compilable validated
  · rintro ⟨create, validated, config, accepted, _⟩
    rw [parseGraph_of_generated keyOrder order pipelineId errorHandling?
      scoring template agentTemplates vhost compilable validated] at accepted
    cases accepted

end Generated

/-- The error handling as the compiler writes it. -/
def typedErrorHandling (fields : Fields) : Option ErrorHandling :=
  match Fields.get fields "retry_policy", Fields.get fields "on_failure" with
  | .dict policy, .str onFailure =>
      match Fields.get policy "max_retries",
          Fields.get policy "backoff_strategy" with
      | .int maxRetries, .str backoffStrategy =>
          some ⟨⟨maxRetries, backoffStrategy⟩, onFailure⟩
      | _, _ => none
  | _, _ => none

def noScores : Scoring where
  scoreTemplateForStep _ _ := 0
  round score := score
  qualityText _ := "0.00"

def chainSkeleton : TopologySkeleton where
  skeletonId := "chain"
  name := "chain"
  workflowClass := "generic"
  steps :=
    [{ stepId := "s1", role := "intake", name := "Intake",
       isEntry := true },
     { stepId := "s2", role := "execute", name := "Execute",
       dependencies := ["s1"] },
     { stepId := "s3", role := "notify", name := "Notify",
       isFinal := true, dependencies := ["s2"] }]

def chainTemplate : BusinessTemplate where
  templateId := "template"
  workflowClass := "generic"
  createdAt := "2025-01-01T00:00:00+00:00"

theorem chainSkeleton_compilable : chainSkeleton.Compilable := by
  have first : Dag.DependsOn (chainSkeleton.steps.map SkeletonStep.node)
      "s1" "s2" := by
    unfold Dag.DependsOn
    decide
  have second : Dag.DependsOn (chainSkeleton.steps.map SkeletonStep.node)
      "s2" "s3" := by
    unfold Dag.DependsOn
    decide
  constructor
  · exact Dag.IsDag.of_ranked
      (fun id => if id = "s3" then 2 else if id = "s2" then 1 else 0)
      (by decide) (by decide) (by unfold Dag.Ranked; decide)
  · intro head isHead step member
    cases isHead
    rcases List.mem_cons.mp member with same | member
    · rw [same]
    rcases List.mem_cons.mp member with same | member
    · rw [same]
      exact Relation.ReflTransGen.single first
    · rw [List.mem_singleton.mp member]
      exact (Relation.ReflTransGen.single first).tail second

/-- The compiled chain passes the creation model, and the parser raises on its
first step. -/
theorem generated_chain_raises :
    chainSkeleton.Compilable ∧
      ∃ create,
        modelValidate typedErrorHandling
          (compileSkeletonToPipeline noScores chainSkeleton chainTemplate []
            "/") = some create ∧
        ∀ keyOrder order pipelineId,
          parseGraph keyOrder order pipelineId create.dag.modelDump =
            .error (.python .attributeError) := by
  refine ⟨chainSkeleton_compilable, _, rfl, ?_⟩
  intro keyOrder order pipelineId
  rfl

/-- The general statement at the chain. -/
theorem generated_chain_refused :
    ∃ create,
      modelValidate typedErrorHandling
        (compileSkeletonToPipeline noScores chainSkeleton chainTemplate []
          "/") = some create ∧
      ∀ keyOrder order pipelineId,
        ¬ GeneratedAccepted keyOrder order pipelineId typedErrorHandling
          chainSkeleton
          (compileSkeletonToPipeline noScores chainSkeleton chainTemplate []
            "/") := by
  refine ⟨_, rfl, ?_⟩
  intro keyOrder order pipelineId
  exact (generated_never_accepted keyOrder order pipelineId
    typedErrorHandling noScores chainTemplate [] "/"
    chainSkeleton_compilable).2

end Agentcy.Topology
