import Agentcy.Pipeline.RunSystem

/-!
# What the consumer managers wait for

The configuration of a service has the queues that lead to its tasks, and the
required steps of those of its tasks that have several dependencies.
-/

namespace Agentcy.Pipeline

open Agentcy.Broker
open Agentcy.Consumer
open Agentcy.Library
open Agentcy.Parser
open Agentcy.PipelineStore (DAGConfig)
open Agentcy.Runs
open Agentcy.Tracker

theorem get?_parseFanInMetadata
    {configId : Uuid} {inferred : List InferredTask}
    {steps : List String} {metadata result : OrderedMap String FanInMetadata}
    (parsed : parseFanInMetadata configId inferred steps metadata =
      .ok result) (taskId : String) :
    ((result.get? taskId).map FanInMetadata.requiredSteps) =
      if taskId ∈ steps then
        (inferred.find? fun task => task.id = taskId).map
          InferredTask.dependencies
      else (metadata.get? taskId).map FanInMetadata.requiredSteps := by
  induction steps generalizing metadata with
  | nil =>
      cases parsed
      rfl
  | cons step rest inductionHypothesis =>
      rw [parseFanInMetadata] at parsed
      cases found : inferred.find? fun task => task.id = step with
      | none =>
          rw [found] at parsed
          cases parsed
      | some task =>
          rw [found] at parsed
          rw [inductionHypothesis parsed]
          by_cases later : taskId ∈ rest
          · rw [if_pos later, if_pos (List.mem_cons_of_mem _ later)]
          · rw [if_neg later, OrderedMap.get?_set]
            by_cases here : taskId = step
            · subst here
              rw [if_pos rfl, if_pos List.mem_cons_self, found]
              rfl
            · have absent : taskId ∉ step :: rest := by
                rw [List.mem_cons, not_or]
                exact ⟨here, later⟩
              rw [if_neg here, if_neg absent]

section Stages

variable
  {keyOrder : SetOrder Library.Json.Key} {parserOrder : SetOrder String}
  {configId : Uuid} {tasks : List Parser.Task} {config : FinalConfig}
  (stages : Stages keyOrder parserOrder configId tasks config)

include stages

/-- The steps that a task waits for are its dependencies if it has several,
and otherwise there are none. -/
theorem requiredSteps_eq
    {task : InferredTask} (member : task ∈ stages.dag) :
    (((config.fanInMetadata.get? task.id).map
        FanInMetadata.requiredSteps).getD []) =
      if 1 < task.dependencies.length then task.dependencies else [] := by
  have found : stages.dag.find? (fun other => other.id = task.id) =
      some task := by
    rw [List.find?_eq_some_iff_append]
    obtain ⟨front, back, split⟩ := List.append_of_mem member
    refine ⟨decide_eq_true rfl, front, back, split, ?_⟩
    intro other before
    have distinct := stages.nodup
    rw [split, List.map_append, List.nodup_append] at distinct
    have different := distinct.2.2 other.id
      (List.mem_map.mpr ⟨other, before, rfl⟩) task.id
      List.mem_cons_self
    rw [decide_eq_false different]
    rfl
  have isStep : task.id ∈ identifyFanInSteps (taskDictOf stages.dag) ↔
      1 < task.dependencies.length := by
    rw [mem_identifyFanInSteps_iff stages.infers stages.nodup]
    have names := stages.infers.names task member
    have same := length_dependencies stages.infers member
    constructor
    · rintro ⟨other, isTask, sameId, several⟩
      have nodup := stages.parsing.nodup_ids
      have equal := List.inj_on_of_nodup_map nodup isTask
        (stages.infers.mem_tasks member) sameId
      rw [equal, ← same] at several
      exact several
    · intro several
      exact ⟨task.toTask, stages.infers.mem_tasks member, rfl,
        same ▸ several⟩
  rw [get?_parseFanInMetadata stages.fanIn]
  by_cases several : 1 < task.dependencies.length
  · rw [if_pos (isStep.mpr several), if_pos several, found]
    rfl
  · rw [if_neg fun step => several (isStep.mp step), if_neg several]
    rfl

end Stages

namespace LaunchedPipeline

variable (pipeline : LaunchedPipeline)

theorem exists_stages :
    Nonempty (Stages pipeline.keyOrder pipeline.parserOrder
      pipeline.configId pipeline.tasks pipeline.config) :=
  stages_of_parseGraph pipeline.accepted

variable {pipeline}

/-- The stored task that an inferred one comes from. -/
theorem exists_stored
    {task : Parser.Task} (member : task ∈ pipeline.tasks) :
    ∃ stored ∈ pipeline.dag.tasks, stored.id = task.id ∧
      stored.availableServices = task.availableServices := by
  obtain ⟨stored, isStored, rfl⟩ := List.mem_map.mp member
  exact ⟨stored, isStored, rfl, rfl⟩

theorem get?_doc
    {stored : PipelineStore.Task} (member : stored ∈ pipeline.dag.tasks) :
    ∃ task, pipeline.doc.taskDict.get? stored.id = some task ∧
      task.availableServices = some stored.availableServices ∧
      task.isEntry = stored.isEntry := by
  have entries :=
    entries_taskDict (nodup_taskIds pipeline.accepted) pipeline.config
  have listed : ∃ task,
      (stored.id, task) ∈ pipeline.doc.taskDict.entries ∧
        task.availableServices = some stored.availableServices ∧
        task.isEntry = stored.isEntry := by
    unfold doc
    rw [entries]
    exact ⟨_, List.mem_map.mpr ⟨stored, member, rfl⟩, rfl, rfl⟩
  obtain ⟨task, isTask, same⟩ := listed
  exact ⟨task, OrderedMap.get?_of_mem isTask, same⟩

theorem serviceOf_eq
    {taskId service : String}
    (owned : taskId ∈ getTasksForServiceName pipeline.config service) :
    pipeline.serviceOf taskId = service := by
  obtain ⟨stages⟩ := pipeline.exists_stages
  unfold getTasksForServiceName at owned
  obtain ⟨entry, kept, rfl⟩ := List.mem_map.mp owned
  obtain ⟨among, isService⟩ := List.mem_filter.mp kept
  rw [stages.taskDict_eq, entries_taskDictOf stages.nodup] at among
  obtain ⟨task, inDag, rfl⟩ := List.mem_map.mp among
  obtain ⟨stored, isStored, sameId, sameService⟩ :=
    exists_stored (stages.infers.mem_tasks inDag)
  obtain ⟨storedMeta, found, services, _⟩ := get?_doc isStored
  rw [decide_eq_true_eq] at isService
  unfold serviceOf Bootstrap.entryService
  rw [← sameId, found, Option.bind_some, services, sameService]
  exact isService

theorem mem_service
    {taskId : String} (isTask : taskId ∈ pipeline.tasks.map Task.id) :
    taskId ∈ getTasksForServiceName pipeline.config
      (pipeline.serviceOf taskId) := by
  obtain ⟨stages⟩ := pipeline.exists_stages
  obtain ⟨service, _, owned⟩ := exists_service stages.parsing isTask
  rw [serviceOf_eq owned]
  exact owned

/-- A service has the required steps of its tasks as they are in the whole
configuration. -/
theorem requiredUpstreams_eq
    {taskId service : String}
    (owned : taskId ∈ getTasksForServiceName pipeline.config service) :
    (pipeline.serviceConfig service).requiredUpstreams taskId =
      ((pipeline.config.fanInMetadata.get? taskId).map
        FanInMetadata.requiredSteps).getD [] := by
  unfold ConsumerConfig.requiredUpstreams serviceConfig
  dsimp only
  cases found : pipeline.config.fanInMetadata.get? taskId with
  | none =>
      have absent : taskId ∉ (OrderedMap.ofList
          ((getTasksForServiceName pipeline.config service).filterMap
            fun other => (pipeline.config.fanInMetadata.get? other).map
              fun metadata =>
                (other, metadata.requiredSteps))).keys := by
        rw [OrderedMap.mem_keys_ofList_iff]
        intro member
        obtain ⟨entry, isEntry, sameKey⟩ := List.mem_map.mp member
        obtain ⟨other, _, made⟩ := List.mem_filterMap.mp isEntry
        obtain ⟨metadata, stored, rfl⟩ := Option.map_eq_some_iff.mp made
        have sameTask : other = taskId := sameKey
        rw [sameTask, found] at stored
        cases stored
      rw [OrderedMap.mem_keys_iff, Bool.not_eq_true,
        Option.isSome_eq_false_iff, Option.isNone_iff_eq_none] at absent
      rw [absent]
      rfl
  | some metadata =>
      have steps : (OrderedMap.ofList
          ((getTasksForServiceName pipeline.config service).filterMap
            fun other => (pipeline.config.fanInMetadata.get? other).map
              fun metadata =>
                (other, metadata.requiredSteps))).get? taskId =
          some metadata.requiredSteps := by
        apply OrderedMap.get?_ofList_of_unique
        · exact List.mem_filterMap.mpr ⟨taskId, owned, by rw [found]; rfl⟩
        · intro other isEntry
          obtain ⟨task, _, made⟩ := List.mem_filterMap.mp isEntry
          obtain ⟨stored, isStored, same⟩ := Option.map_eq_some_iff.mp made
          obtain ⟨sameTask, sameSteps⟩ := Prod.mk.inj same
          rw [sameTask, found] at isStored
          rw [← sameSteps, ← Option.some.inj isStored]
      rw [steps]
      rfl

/-- A task waits for all of its dependencies, unless it has one at most. -/
theorem requiredUpstreams_cases
    {taskId : String} (isTask : taskId ∈ pipeline.tasks.map Task.id) :
    let required := (pipeline.serviceConfig
      (pipeline.serviceOf taskId)).requiredUpstreams taskId
    (required = [] ∧ ∀ first second,
        taskId ∈ downstream pipeline.tasks first →
          taskId ∈ downstream pipeline.tasks second → first = second) ∨
      (required ≠ [] ∧ ∀ upstream, upstream ∈ required ↔
        taskId ∈ downstream pipeline.tasks upstream) := by
  intro required
  obtain ⟨stages⟩ := pipeline.exists_stages
  have isRequired : required = _ := requiredUpstreams_eq (mem_service isTask)
  rw [← stages.infers.ids] at isTask
  obtain ⟨task, inDag, rfl⟩ := List.mem_map.mp isTask
  have names := stages.infers.names task inDag
  have nodup := stages.parsing.nodup_ids
  have isUpstream : ∀ upstream, upstream ∈ task.dependencies ↔
      task.id ∈ downstream pipeline.tasks upstream := by
    intro upstream
    rw [names.mem_iff, mem_downstream_iff]
    constructor
    · intro named
      exact ⟨task.toTask, stages.infers.mem_tasks inDag, named, rfl⟩
    · rintro ⟨other, member, named, sameId⟩
      have same := List.inj_on_of_nodup_map nodup member
        (stages.infers.mem_tasks inDag) sameId
      rw [← same]
      exact named
  rw [isRequired, requiredSteps_eq stages inDag]
  by_cases several : 1 < task.dependencies.length
  · rw [if_pos several]
    refine Or.inr ⟨?_, isUpstream⟩
    exact List.ne_nil_of_length_pos (Nat.zero_lt_of_lt several)
  · rw [if_neg several]
    refine Or.inl ⟨rfl, fun first second isFirst isSecond => ?_⟩
    have few : task.dependencies.length ≤ 1 := Nat.not_lt.mp several
    have firstNamed := (isUpstream first).mpr isFirst
    obtain ⟨only, single⟩ := List.length_eq_one_iff.mp
      (le_antisymm few (List.length_pos_of_mem firstNamed))
    have secondNamed := (isUpstream second).mpr isSecond
    rw [single, List.mem_singleton] at firstNamed secondNamed
    rw [firstNamed, secondNamed]

/-! ## Queues -/

section Named

variable (named : WellNamed pipeline.tasks)

include named

/-- The queues of a service are those of the edges to its tasks. -/
theorem consumed_cases
    {service queue : String} {info : ConsumerQueue}
    (consumes : (pipeline.consumed service).get? queue = some info) :
    ∃ upstream, info.toTask ∈ downstream pipeline.tasks upstream ∧
      pipeline.serviceOf info.toTask = service ∧
      queue = consumerQueue pipeline.suffixed pipeline.run.id
        (queueName upstream info.toTask) := by
  obtain ⟨stages⟩ := pipeline.exists_stages
  have member := OrderedMap.mem_of_get? consumes
  unfold consumed at member
  rw [serviceQueues_entries pipeline.order pipeline.suffixed service
    pipeline.run stages.parsing] at member
  obtain ⟨entry, subset, made⟩ := List.mem_map.mp member
  obtain ⟨listed, isQueue⟩ := mem_queuesSubset_iff.mp subset
  obtain ⟨stored, alsoQueue, owned⟩ :=
    (mem_serviceQueueNames_iff pipeline.order service entry.1).mp listed
  have sameInfo : stored = entry.2 := by
    have one := OrderedMap.get?_of_mem alsoQueue
    have two := OrderedMap.get?_of_mem isQueue
    rw [one] at two
    exact Option.some.inj two
  obtain ⟨rfl, rfl⟩ := Prod.mk.inj made
  rw [sameInfo] at owned
  rcases stages.parsing.mem_queues isQueue with edge | last
  · obtain ⟨fromTask, toTask, leaves, isEntry⟩ :=
      stages.parsing.mem_edgeQueues edge
    rw [isEntry] at owned ⊢
    exact ⟨fromTask, leaves, serviceOf_eq owned, rfl⟩
  · rw [last] at owned
    have isTask := mem_ids_of_service service stages.parsing owned
    obtain ⟨task, member, isEntry⟩ := List.mem_map.mp isTask
    exact absurd isEntry (named.ordinary task member)

theorem exists_consumed
    {fromTask toTask : String}
    (edge : toTask ∈ downstream pipeline.tasks fromTask) :
    ∃ info, (pipeline.consumed (pipeline.serviceOf toTask)).get?
        (consumerQueue pipeline.suffixed pipeline.run.id
          (queueName fromTask toTask)) = some info ∧
      info.toTask = toTask := by
  obtain ⟨stages⟩ := pipeline.exists_stages
  have kept := stages.parsing.mem_queues_of_edge
    (edge_kept stages.parsing named edge)
  obtain ⟨task, isTask, _, sameId⟩ := mem_downstream_iff.mp edge
  have owned := mem_service (List.mem_map.mpr ⟨task, isTask, sameId⟩)
  have listed := (mem_serviceQueueNames_iff pipeline.order
    (pipeline.serviceOf toTask) _).mpr ⟨_, kept, owned⟩
  have listedQueue : runQueue pipeline.suffixed pipeline.run.id
      (queueName fromTask toTask, edgeQueue (fromTask, toTask)) ∈
        (pipeline.consumed (pipeline.serviceOf toTask)).entries := by
    unfold consumed
    rw [serviceQueues_entries pipeline.order pipeline.suffixed _
      pipeline.run stages.parsing]
    exact List.mem_map.mpr
      ⟨_, mem_queuesSubset_iff.mpr ⟨listed, kept⟩, rfl⟩
  exact ⟨_, OrderedMap.get?_of_mem listedQueue, rfl⟩

end Named

end LaunchedPipeline

end Agentcy.Pipeline
