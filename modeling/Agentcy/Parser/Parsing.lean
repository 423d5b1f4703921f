import Agentcy.Parser.BrokerEntries

/-!
# What an accepted pipeline looks like

The facts about a final configuration that the consumers and publishers of its
runs rely on: which queues it has, and which broker entry comes first for each
of them.
-/

namespace Agentcy.Parser

open Agentcy.Library
open Agentcy.Broker

def entryQueue (pipelineId : Uuid) : QueueInfo where
  fromTask := none
  toTask := "entry"
  queueName := entryQueueName pipelineId

/-- The stages of a parse that ended well. -/
structure Parsing
    (pipelineId : Uuid) (tasks : List Task) (config : FinalConfig) where
  dag : List InferredTask
  outputs : OrderedMap String (List String)
  infers : Infers tasks dag outputs
  passed : detectCyclesKahn dag = .ok ()
  configs : List RabbitConfig
  taskDict_eq : config.taskDict = taskDictOf dag
  queues_eq : config.queues =
    (identifyQueues (taskDictOf dag)).set (entryQueueName pipelineId)
      (entryQueue pipelineId)
  configs_eq : config.rabbitmqConfigs =
    configs ++ [⟨"entry", entryRabbit pipelineId⟩]
  prepared : Prepared (exchangeTypeFor tasks)
    (fun taskId => downstream tasks taskId = [])
    (identifyQueues (taskDictOf dag)).entries configs

/-- What the parser computed on the way to a configuration. -/
structure Stages
    (keyOrder : SetOrder Json.Key) (order : SetOrder String)
    (pipelineId : Uuid) (tasks : List Task) (config : FinalConfig) where
  dag : List InferredTask
  outputs : OrderedMap String (List String)
  taskGraph : OrderedMap String (List String)
  suggestions : OrderedMap String ExchangeSuggestion
  configs : List RabbitConfig
  inferred : inferDependenciesAndOutputs keyOrder order tasks =
    .ok (dag, outputs)
  passed : detectCyclesKahn dag = .ok ()
  connected : validateSingleConnectedDag dag
    (OrderedMap.gather (edges dag)) = .ok taskGraph
  suggested : suggestExchangeTypes taskGraph (taskDictOf dag)
    (identifyFanInSteps (taskDictOf dag)) = .ok suggestions
  prepared : prepareRabbitmqConfigs suggestions
    (identifyQueues (taskDictOf dag)) outputs = .ok configs
  fanIn : parseFanInMetadata pipelineId dag
    (identifyFanInSteps (taskDictOf dag)) .empty =
      .ok config.fanInMetadata
  taskDict_eq : config.taskDict = taskDictOf dag
  queues_eq : config.queues =
    (identifyQueues (taskDictOf dag)).set (entryQueueName pipelineId)
      (entryQueue pipelineId)
  configs_eq : config.rabbitmqConfigs =
    configs ++ [⟨"entry", entryRabbit pipelineId⟩]
  suggestions_eq : ∃ entrySuggestion,
    config.exchangeSuggestions =
      suggestions.set (entryExchangeName pipelineId) entrySuggestion
  executionOrder_eq : config.executionOrder = kahnOrder dag
  taskGraph_eq : config.taskGraph = taskGraph
  parallelTasks_eq : config.parallelTasks =
    findParallelTasks (kahnOrder dag) taskGraph

theorem stages_of_parseGraph
    {keyOrder : SetOrder Json.Key} {order : SetOrder String}
    {pipelineId : Uuid} {tasks : List Task} {config : FinalConfig}
    (accepted : parseGraph keyOrder order pipelineId tasks = .ok config) :
    Nonempty (Stages keyOrder order pipelineId tasks config) := by
  rw [parseGraph, bind_eq_ok] at accepted
  rcases accepted with ⟨⟨dag, outputs⟩, inferred, accepted⟩
  rw [bind_eq_ok] at accepted
  rcases accepted with ⟨_, passed, accepted⟩
  rw [bind_eq_ok] at accepted
  rcases accepted with ⟨_, _, accepted⟩
  rw [bind_eq_ok] at accepted
  rcases accepted with ⟨taskGraph, connected, accepted⟩
  rw [bind_eq_ok] at accepted
  rcases accepted with ⟨suggestions, suggested, accepted⟩
  rw [bind_eq_ok] at accepted
  rcases accepted with ⟨configs, prepared, accepted⟩
  rw [bind_eq_ok] at accepted
  rcases accepted with ⟨_, fanIn, accepted⟩
  rw [pure_eq_ok] at accepted
  rw [← accepted]
  exact
    ⟨{ dag := dag
       outputs := outputs
       taskGraph := taskGraph
       suggestions := suggestions
       configs := configs
       inferred := inferred
       passed := passed
       connected := connected
       suggested := suggested
       prepared := prepared
       fanIn := fanIn
       taskDict_eq := rfl
       queues_eq := rfl
       configs_eq := rfl
       suggestions_eq := ⟨_, rfl⟩
       executionOrder_eq := rfl
       taskGraph_eq := rfl
       parallelTasks_eq := rfl }⟩

namespace Stages

variable
  {keyOrder : SetOrder Json.Key} {order : SetOrder String}
  {pipelineId : Uuid} {tasks : List Task} {config : FinalConfig}
  (stages : Stages keyOrder order pipelineId tasks config)

include stages

theorem infers : Infers tasks stages.dag stages.outputs :=
  infers_of_ok stages.inferred

theorem nodup : (stages.dag.map fun task => task.id).Nodup :=
  nodup_of_detectCyclesKahn stages.passed

theorem downstream_of_outputs
    {taskId : String}
    (empty : (stages.outputs.get? taskId).getD [] = []) :
    downstream tasks taskId = [] := by
  rw [stages.infers.outputs_eq, stages.infers.outgoing_eq_downstream]
    at empty
  exact empty

def parsing : Parsing pipelineId tasks config where
  dag := stages.dag
  outputs := stages.outputs
  infers := stages.infers
  passed := stages.passed
  configs := stages.configs
  taskDict_eq := stages.taskDict_eq
  queues_eq := stages.queues_eq
  configs_eq := stages.configs_eq
  prepared := by
    apply prepared_of_ok _ _ stages.prepared
    · intro taskId suggestion found
      exact exchangeType_of_suggested stages.infers stages.nodup
        stages.connected stages.suggested found
    · intro taskId empty
      exact stages.downstream_of_outputs empty

/-- A final task publishes under an entry of its own. -/
theorem exists_endConfig
    {entry : String × QueueInfo}
    (member : entry ∈ (identifyQueues (taskDictOf stages.dag)).entries)
    (final : downstream tasks entry.2.toTask = []) :
    ∃ other ∈ (identifyQueues (taskDictOf stages.dag)).entries,
      other.2.toTask = entry.2.toTask ∧
        ∃ type, endConfig entry.2.toTask type other.2.queueName ∈
          config.rabbitmqConfigs := by
  have empty :
      (stages.outputs.get? entry.2.toTask).getD [] = [] := by
    rw [stages.infers.outputs_eq, stages.infers.outgoing_eq_downstream]
    exact final
  rcases endConfig_mem_of_ok stages.prepared member empty with
    impossible | ⟨other, among, same, type, isConfig⟩
  · cases impossible
  · refine ⟨other, among, same, type, ?_⟩
    rw [stages.configs_eq]
    exact List.mem_append_left _ isConfig

/-- Only tasks with several dependencies wait for others. -/
theorem joins_of_fanInMetadata
    {taskId : String} (waits : taskId ∈ config.fanInMetadata.keys) :
    ∃ task ∈ tasks, task.id = taskId ∧ 1 < task.upstream.length := by
  rcases mem_of_parseFanInMetadata stages.fanIn waits with step | before
  · exact (mem_identifyFanInSteps_iff stages.infers stages.nodup
      taskId).mp step
  · cases before

end Stages

theorem parsing_of_parseGraph
    {keyOrder : SetOrder Json.Key} {order : SetOrder String}
    {pipelineId : Uuid} {tasks : List Task} {config : FinalConfig}
    (accepted : parseGraph keyOrder order pipelineId tasks = .ok config) :
    Nonempty (Parsing pipelineId tasks config) := by
  rcases stages_of_parseGraph accepted with ⟨stages⟩
  exact ⟨stages.parsing⟩

theorem toList_queueName (fromTask toTask : String) :
    (queueName fromTask toTask).toList =
      "queue_".toList ++ (fromTask.toList ++
        ("_to_".toList ++ toTask.toList)) := by
  simp only [queueName, String.toList_append, List.append_assoc]

/-- Edges that leave one task have queues of different names. -/
theorem queueName_inj_right
    {fromTask first second : String}
    (same : queueName fromTask first = queueName fromTask second) :
    first = second := by
  have lists := congrArg String.toList same
  simp only [toList_queueName, List.append_cancel_left_eq] at lists
  exact String.ext lists

/-- So have edges that lead to one task. -/
theorem queueName_inj_left
    {first second toTask : String}
    (same : queueName first toTask = queueName second toTask) :
    first = second := by
  have lists := congrArg String.toList same
  simp only [toList_queueName, List.append_cancel_left_eq,
    List.append_cancel_right_eq, ← List.append_assoc] at lists
  exact String.ext lists

/-- Texts that begin with different letters are different. -/
theorem append_ne_of_head
    {first second : String} {letter other : Char}
    (begins : first.toList.head? = some letter)
    (otherBegins : second.toList.head? = some other)
    (different : letter ≠ other) (back rest : String) :
    first ++ back ≠ second ++ rest := by
  intro same
  have lists := congrArg String.toList same
  rw [String.toList_append, String.toList_append] at lists
  have heads := congrArg List.head? lists
  rw [List.head?_append, List.head?_append, begins, otherBegins] at heads
  exact different (Option.some.inj heads)

theorem queueName_ne_entryQueueName
    (fromTask toTask : String) (pipelineId : Uuid) :
    queueName fromTask toTask ≠ entryQueueName pipelineId := by
  rw [queueName, String.append_assoc, String.append_assoc]
  exact @append_ne_of_head "queue_" "pipeline_entry_queue_" 'q' 'p'
    (by decide) (by decide) (by decide) _ _

theorem exchangeName_inj {first second : String}
    (same : exchangeName first = exchangeName second) :
    first = second := by
  have lists := congrArg String.toList same
  simp only [exchangeName, String.toList_append,
    List.append_cancel_left_eq] at lists
  exact String.ext lists

theorem exchangeName_ne_entryExchangeName
    (taskId : String) (pipelineId : Uuid) :
    exchangeName taskId ≠ entryExchangeName pipelineId :=
  @append_ne_of_head "exchange_" "pipeline_entry_" 'e' 'p'
    (by decide) (by decide) (by decide) _ _

namespace Parsing

variable
  {pipelineId : Uuid} {tasks : List Task} {config : FinalConfig}
  (parsing : Parsing pipelineId tasks config)

include parsing

def edgeQueues : List (String × QueueInfo) :=
  (identifyQueues (taskDictOf parsing.dag)).entries

theorem nodup_ids : (tasks.map Task.id).Nodup := by
  rw [← parsing.infers.ids]
  exact nodup_of_detectCyclesKahn parsing.passed

theorem ne_of_edge
    {fromTask toTask : String}
    (edge : toTask ∈ downstream tasks fromTask) : fromTask ≠ toTask :=
  ne_of_downstream parsing.infers parsing.passed edge

/-! ## Queues -/

theorem values_taskDict :
    (taskDictOf parsing.dag).values = parsing.dag := by
  have nodup := nodup_of_detectCyclesKahn parsing.passed
  rw [OrderedMap.values, entries_taskDictOf nodup, List.map_map]
  exact List.map_id _

theorem mem_edgeQueues
    {entry : String × QueueInfo} (member : entry ∈ parsing.edgeQueues) :
    ∃ fromTask toTask, toTask ∈ downstream tasks fromTask ∧
      entry = (queueName fromTask toTask, edgeQueue (fromTask, toTask)) := by
  have listed := OrderedMap.mem_entries_ofList member
  rcases List.mem_map.mp listed with ⟨edge, among, same⟩
  rw [parsing.values_taskDict] at among
  have isEdge := (parsing.infers.mem_edges_iff edge).mp among
  exact ⟨edge.1, edge.2, isEdge, same.symm⟩

theorem edge_of_mem
    {fromTask toTask : String}
    (member : (queueName fromTask toTask, edgeQueue (fromTask, toTask)) ∈
      parsing.edgeQueues) :
    toTask ∈ downstream tasks fromTask := by
  rcases parsing.mem_edgeQueues member with ⟨first, second, edge, same⟩
  have infos := congrArg Prod.snd same
  have sources := Option.some.inj (congrArg QueueInfo.fromTask infos)
  have targets := congrArg QueueInfo.toTask infos
  dsimp only [edgeQueue] at sources targets
  rw [sources, targets]
  exact edge

theorem named
    {entry : String × QueueInfo} (member : entry ∈ parsing.edgeQueues) :
    entry.2.queueName = entry.1 := by
  rcases parsing.mem_edgeQueues member with ⟨_, _, _, same⟩
  rw [same]
  rfl

theorem nodup_edgeQueues : (parsing.edgeQueues.map Prod.fst).Nodup :=
  (identifyQueues (taskDictOf parsing.dag)).keysNodup

theorem ne_entryQueueName
    {entry : String × QueueInfo} (member : entry ∈ parsing.edgeQueues) :
    entry.1 ≠ entryQueueName pipelineId := by
  rcases parsing.mem_edgeQueues member with ⟨fromTask, toTask, _, same⟩
  rw [same]
  exact queueName_ne_entryQueueName fromTask toTask pipelineId

theorem queues_entries :
    config.queues.entries =
      parsing.edgeQueues ++
        [(entryQueueName pipelineId, entryQueue pipelineId)] := by
  rw [parsing.queues_eq]
  apply OrderedMap.entries_set_of_absent
  cases found : (identifyQueues (taskDictOf parsing.dag)).get?
      (entryQueueName pipelineId) with
  | none =>
      rfl
  | some info =>
      have member := OrderedMap.mem_of_get? found
      exact absurd rfl (parsing.ne_entryQueueName member)

/-- The name of every edge's queue is taken, be it by another edge. -/
theorem queueName_mem_keys
    {fromTask toTask : String}
    (edge : toTask ∈ downstream tasks fromTask) :
    queueName fromTask toTask ∈ config.queues.keys := by
  have listed : queueName fromTask toTask ∈
      (identifyQueues (taskDictOf parsing.dag)).keys := by
    rw [identifyQueues, OrderedMap.mem_keys_ofList_iff,
      parsing.values_taskDict, List.map_map]
    have isEdge :=
      (parsing.infers.mem_edges_iff (fromTask, toTask)).mpr edge
    exact List.mem_map.mpr ⟨_, isEdge, rfl⟩
  rw [parsing.queues_eq, OrderedMap.mem_keys_set]
  exact Or.inr listed

/-- A queue of the configuration is the entry queue, or that of an edge. -/
theorem mem_queues
    {entry : String × QueueInfo} (member : entry ∈ config.queues.entries) :
    entry ∈ parsing.edgeQueues ∨
      entry = (entryQueueName pipelineId, entryQueue pipelineId) := by
  rw [parsing.queues_entries] at member
  rcases List.mem_append.mp member with edge | last
  · exact Or.inl edge
  · exact Or.inr (List.mem_singleton.mp last)

theorem mem_queues_of_edge
    {entry : String × QueueInfo} (member : entry ∈ parsing.edgeQueues) :
    entry ∈ config.queues.entries := by
  rw [parsing.queues_entries]
  exact List.mem_append_left _ member

theorem queue_of_mem_configs
    {item : RabbitConfig} (member : item ∈ parsing.configs) :
    ∃ entry ∈ parsing.edgeQueues,
      item.rabbitmq.bind Rabbit.queue = some entry.1 := by
  rcases parsing.prepared.mem_configs member with
    ⟨name, info, among, shape⟩
  refine ⟨(name, info), among, ?_⟩
  rcases shape with ⟨fromTask, _, same⟩ | ⟨_, same⟩
  · rw [same]
    rfl
  · rw [same]
    exact congrArg some (parsing.named among)

/-- The first entry for the queue of an edge is the edge's. -/
theorem find?_edge
    {name : String} {info : QueueInfo}
    (member : (name, info) ∈ parsing.edgeQueues)
    {fromTask : String} (source : info.fromTask = some fromTask)
    {test : RabbitConfig → Bool}
    (tests : ∀ item ∈ config.rabbitmqConfigs, test item = true ↔
      item.rabbitmq.bind Rabbit.queue = some name) :
    config.rabbitmqConfigs.find? test =
      some (edgeConfig fromTask (exchangeTypeFor tasks fromTask) name) := by
  have own : ∀ item ∈ parsing.configs, test item = true ↔
      item.rabbitmq.bind Rabbit.queue = some name := by
    intro item among
    apply tests
    rw [parsing.configs_eq]
    exact List.mem_append_left _ among
  have found :=
    parsing.prepared.find?_queue parsing.nodup_edgeQueues
      (fun entry among => parsing.named among) member source own
  rw [parsing.configs_eq, List.find?_append, found]
  rfl

theorem find?_entry
    {test : RabbitConfig → Bool}
    (tests : ∀ item ∈ config.rabbitmqConfigs, test item = true ↔
      item.rabbitmq.bind Rabbit.queue =
        some (entryQueueName pipelineId)) :
    config.rabbitmqConfigs.find? test =
      some ⟨"entry", entryRabbit pipelineId⟩ := by
  have others : parsing.configs.find? test = none := by
    rw [List.find?_eq_none]
    intro item among passes
    have listed : item ∈ config.rabbitmqConfigs := by
      rw [parsing.configs_eq]
      exact List.mem_append_left _ among
    rcases parsing.queue_of_mem_configs among with ⟨entry, inQueues, queue⟩
    have same := (tests item listed).mp passes
    rw [queue] at same
    exact parsing.ne_entryQueueName inQueues (Option.some.inj same)
  have last : (⟨"entry", entryRabbit pipelineId⟩ : RabbitConfig) ∈
      config.rabbitmqConfigs := by
    rw [parsing.configs_eq]
    exact List.mem_append_right _ List.mem_cons_self
  rw [parsing.configs_eq, List.find?_append, others]
  exact List.find?_cons_of_pos ((tests _ last).mpr rfl)

/-- The entries under which a task publishes. -/
theorem mem_outgoingEdges
    {taskId : String} {rabbit : Rabbit}
    (member : rabbit ∈ outgoingEdges config.rabbitmqConfigs taskId) :
    (∃ entry ∈ parsing.edgeQueues,
        rabbit =
            edgeRabbit taskId (exchangeTypeFor tasks taskId) entry.1 ∨
          rabbit =
            endRabbit taskId (exchangeTypeFor tasks taskId) entry.1) ∨
      (taskId = "entry" ∧ rabbit = entryRabbit pipelineId) := by
  rw [outgoingEdges, List.mem_filterMap] at member
  rcases member with ⟨item, kept, isRabbit⟩
  rcases List.mem_filter.mp kept with ⟨among, own⟩
  have sameTask : item.taskId = taskId := of_decide_eq_true own
  rw [parsing.configs_eq] at among
  rcases List.mem_append.mp among with edge | last
  · rcases parsing.prepared.mem_configs edge with
      ⟨name, info, inQueues, shape⟩
    refine Or.inl ⟨(name, info), inQueues, ?_⟩
    rcases shape with ⟨fromTask, _, same⟩ | ⟨_, same⟩
    · rw [same] at isRabbit sameTask
      refine Or.inl ?_
      rw [← Option.some.inj isRabbit, ← sameTask]
      rfl
    · rw [same] at isRabbit sameTask
      refine Or.inr ?_
      have named : info.queueName = name := parsing.named inQueues
      rw [← Option.some.inj isRabbit, ← sameTask, ← named]
      rfl
  · have same := List.mem_singleton.mp last
    rw [same] at isRabbit sameTask
    exact Or.inr ⟨sameTask.symm, (Option.some.inj isRabbit).symm⟩

theorem entryRabbit_mem :
    entryRabbit pipelineId ∈
      outgoingEdges config.rabbitmqConfigs "entry" := by
  rw [outgoingEdges, List.mem_filterMap]
  refine ⟨⟨"entry", entryRabbit pipelineId⟩, ?_, rfl⟩
  refine List.mem_filter.mpr ⟨?_, rfl⟩
  rw [parsing.configs_eq]
  exact List.mem_append_right _ List.mem_cons_self

/-- A task on which others depend publishes once for each of its queues. -/
theorem outgoingEdges_eq
    {taskId : String} (inner : downstream tasks taskId ≠ [])
    (ordinary : taskId ≠ "entry") :
    outgoingEdges config.rabbitmqConfigs taskId =
      (parsing.edgeQueues.filter fun entry =>
        decide (entry.2.fromTask = some taskId)).map fun entry =>
          edgeRabbit taskId (exchangeTypeFor tasks taskId) entry.1 := by
  have edges := parsing.prepared.outgoingEdges_eq inner
  have different : ¬ "entry" = taskId := fun same => ordinary same.symm
  have dropped : outgoingEdges config.rabbitmqConfigs taskId =
      outgoingEdges parsing.configs taskId := by
    rw [parsing.configs_eq]
    simp [outgoingEdges, different]
  rw [dropped, edges]
  rfl

end Parsing

end Agentcy.Parser
