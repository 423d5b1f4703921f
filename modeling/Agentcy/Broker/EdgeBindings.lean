import Agentcy.Broker.RunBindings

/-!
# Which bindings a run has

For a run of an accepted pipeline the declarations come to two bindings for
each edge: the one of the run topology and the one of the consumers.  With
suffixes both are for the same queue.
-/

namespace Agentcy.Broker

open Agentcy.Library
open Agentcy.Parser
open PyText

/-- The queue that the consumers of a run take the messages of an edge from. -/
def consumerQueue (suffixed : Bool) (runId : Uuid) (name : String) :
    String :=
  if suffixed then runId.dotted name else name

def consumerBinding
    (suffixed : Bool) (runId : Uuid) (exchange name : String) : Binding where
  exchange := exchange
  queue := consumerQueue suffixed runId name
  routingKey := consumerQueue suffixed runId name

def topologyBinding
    (tasks : List Task) (runId : Uuid) (fromTask name : String) :
    Binding where
  exchange := exchangeName fromTask
  queue := runId.dotted name
  routingKey :=
    if fansOut tasks fromTask then "" else runId.dotted name

/-- An entry of the parser: it publishes on one exchange under the name of one
queue, whether the routing key is written out or left empty. -/
structure Lane (rabbit : Rabbit) (exchange name : String) : Prop where
  exchange_eq : rabbit.exchange = exchange
  queue_eq : rabbit.queue = some name
  key : rabbit.routingKey = some "" ∨ rabbit.routingKey = some name
  shared : rabbit.perRun = false
  nonempty : name ≠ ""

theorem queueName_ne_empty (fromTask toTask : String) :
    queueName fromTask toTask ≠ "" := by
  rw [queueName, String.append_assoc, String.append_assoc]
  intro empty
  have parts := String.append_eq_empty_iff.mp empty
  exact absurd parts.1 (by decide)

theorem entryQueueName_ne_empty (pipelineId : Uuid) :
    entryQueueName pipelineId ≠ "" := by
  intro empty
  have parts := String.append_eq_empty_iff.mp empty
  exact absurd parts.1 (by decide)

@[simp]
theorem filter_empty : (some "").filter (· ≠ "") = none :=
  rfl

theorem filter_nonempty {text : String} (nonempty : text ≠ "") :
    (some text).filter (· ≠ "") = some text := by
  simp [Option.filter, nonempty]

theorem typeName_of_type
    {rabbit : Rabbit} {tasks : List Task} {taskId : String}
    (type : rabbit.exchangeType = some (exchangeTypeFor tasks taskId)) :
    rabbit.typeName =
      if fansOut tasks taskId then "fanout" else "direct" := by
  rw [Rabbit.typeName, type, exchangeTypeFor]
  cases fansOut tasks taskId with
  | true =>
      decide +kernel
  | false =>
      decide +kernel

theorem topologyKey_edge
    (tasks : List Task) (runId : Uuid) (fromTask toTask : String) :
    topologyKey runId (queueName fromTask toTask)
        (edgeRabbit fromTask (exchangeTypeFor tasks fromTask)
          (queueName fromTask toTask)) =
      if fansOut tasks fromTask then ""
      else runId.dotted (queueName fromTask toTask) := by
  have nonempty := queueName_ne_empty fromTask toTask
  have type :
      (edgeRabbit fromTask (exchangeTypeFor tasks fromTask)
        (queueName fromTask toTask)).typeName =
        if fansOut tasks fromTask then "fanout" else "direct" :=
    typeName_of_type rfl
  rw [topologyKey, type]
  cases fans : fansOut tasks fromTask with
  | true =>
      simp [edgeRabbit, edgeRoutingKey, exchangeTypeFor, fans]
  | false =>
      have key : edgeRoutingKey (exchangeTypeFor tasks fromTask)
          (queueName fromTask toTask) = queueName fromTask toTask := by
        simp [edgeRoutingKey, exchangeTypeFor, fans]
      rw [edgeRabbit, key]
      dsimp only
      rw [filter_nonempty nonempty]
      rfl

namespace Lane

variable {rabbit : Rabbit} {exchange name : String}

theorem publishKey_eq (lane : Lane rabbit exchange name) :
    rabbit.publishKey = name := by
  rcases lane.key with empty | full
  · rw [Rabbit.publishKey, empty, filter_empty, lane.queue_eq]
    rfl
  · rw [Rabbit.publishKey, full, filter_nonempty lane.nonempty]

theorem keyOr_eq (lane : Lane rabbit exchange name) :
    (rabbit.routingKey.filter (· ≠ "")).getD name = name := by
  rcases lane.key with empty | full
  · rw [empty, filter_empty]
    rfl
  · rw [full, filter_nonempty lane.nonempty]
    rfl

/-- Without suffixes the consumers bind with the name of the queue. -/
theorem consumerKey_eq
    (lane : Lane rabbit exchange name) (runId : Uuid)
    {queue : ConsumerQueue} (shared : queue.perRun = false) :
    consumerKey runId queue rabbit = name := by
  rcases lane.key with empty | full
  · rw [consumerKey, empty, filter_empty, lane.queue_eq,
      filter_nonempty lane.nonempty, shared]
    rfl
  · rw [consumerKey, full, filter_nonempty lane.nonempty]

/-- With suffixes they bind with the name of the run queue. -/
theorem consumerKey_suffixed
    (lane : Lane rabbit exchange name) {runId : Uuid}
    (fresh : endsWith name runId.tail = false)
    (queueNames : List String) (queue : ConsumerQueue) :
    consumerKey runId queue (suffixedRabbit runId queueNames rabbit) =
      runId.dotted name := by
  have key : (suffixedRabbit runId queueNames rabbit).routingKey =
      some (runId.dotted name) := by
    rw [suffixedRabbit, lane.queue_eq]
    dsimp only [Option.getD_some]
    rw [lane.keyOr_eq, runName, if_neg (by simp [fresh])]
  rw [consumerKey, key, filter_nonempty (runId.dotted_ne_empty name)]

end Lane

theorem lane_edgeRabbit
    (tasks : List Task) (taskId : String) {name : String}
    (nonempty : name ≠ "") :
    Lane (edgeRabbit taskId (exchangeTypeFor tasks taskId) name)
      (exchangeName taskId) name where
  exchange_eq := rfl
  queue_eq := rfl
  key := by
    cases fans : fansOut tasks taskId with
    | true =>
        refine Or.inl ?_
        simp [edgeRabbit, edgeRoutingKey, exchangeTypeFor, fans]
    | false =>
        refine Or.inr ?_
        simp [edgeRabbit, edgeRoutingKey, exchangeTypeFor, fans]
  shared := rfl
  nonempty := nonempty

theorem lane_endRabbit
    (tasks : List Task) (taskId : String) {name : String}
    (nonempty : name ≠ "") :
    Lane (endRabbit taskId (exchangeTypeFor tasks taskId) name)
      (exchangeName taskId) name where
  exchange_eq := rfl
  queue_eq := rfl
  key := Or.inr rfl
  shared := rfl
  nonempty := nonempty

theorem typeName_entryRabbit (pipelineId : Uuid) :
    (entryRabbit pipelineId).typeName = "direct" := by
  have direct : (entryRabbit pipelineId).exchangeType = some "direct" :=
    rfl
  rw [Rabbit.typeName, direct]
  decide +kernel

theorem lane_entryRabbit (pipelineId : Uuid) :
    Lane (entryRabbit pipelineId) (entryExchangeName pipelineId)
      (entryQueueName pipelineId) where
  exchange_eq := rfl
  queue_eq := rfl
  key := Or.inr rfl
  shared := rfl
  nonempty := entryQueueName_ne_empty pipelineId

section Accepted

variable
  {pipelineId : Uuid} {tasks : List Task} {config : FinalConfig}
  (parsing : Parsing pipelineId tasks config)

include parsing

theorem mem_keys_of_edge
    {name : String} {info : QueueInfo}
    (member : (name, info) ∈ parsing.edgeQueues) :
    name ∈ config.queues.keys :=
  List.mem_map.mpr ⟨_, parsing.mem_queues_of_edge member, rfl⟩

theorem info_of_edge
    {fromTask toTask : String} {info : QueueInfo}
    (first : (queueName fromTask toTask, edgeQueue (fromTask, toTask)) ∈
      parsing.edgeQueues)
    (second : (queueName fromTask toTask, info) ∈ parsing.edgeQueues) :
    info = edgeQueue (fromTask, toTask) := by
  have one := OrderedMap.get?_of_mem first
  have two := OrderedMap.get?_of_mem second
  rw [one] at two
  exact (Option.some.inj two).symm

/-- A task publishes on its own exchange, whose type its degrees decide, but
for the entry of the pipeline. -/
theorem lane_or_entry_of_outgoing
    {taskId : String} {rabbit : Rabbit}
    (member : rabbit ∈ outgoingEdges config.rabbitmqConfigs taskId) :
    (∃ name ∈ config.queues.keys,
      Lane rabbit (exchangeName taskId) name ∧
        rabbit.typeName =
          if fansOut tasks taskId then "fanout" else "direct") ∨
      (taskId = "entry" ∧ rabbit = entryRabbit pipelineId) := by
  rcases parsing.mem_outgoingEdges member with
    ⟨entry, among, shape⟩ | atEntry
  · refine Or.inl ⟨entry.1, mem_keys_of_edge parsing among, ?_⟩
    rcases parsing.mem_edgeQueues among with ⟨first, second, _, same⟩
    have nonempty : entry.1 ≠ "" := by
      rw [same]
      exact queueName_ne_empty first second
    rcases shape with isEdge | isEnd
    · rw [isEdge]
      exact ⟨lane_edgeRabbit tasks taskId nonempty,
        typeName_of_type rfl⟩
    · rw [isEnd]
      exact ⟨lane_endRabbit tasks taskId nonempty,
        typeName_of_type rfl⟩
  · exact Or.inr atEntry

theorem lane_of_outgoing
    {taskId : String} (ordinary : taskId ≠ "entry") {rabbit : Rabbit}
    (member : rabbit ∈ outgoingEdges config.rabbitmqConfigs taskId) :
    ∃ name ∈ config.queues.keys,
      Lane rabbit (exchangeName taskId) name ∧
        rabbit.typeName =
          if fansOut tasks taskId then "fanout" else "direct" := by
  rcases lane_or_entry_of_outgoing parsing member with own | atEntry
  · exact own
  · exact absurd atEntry.1 ordinary

/-- Every entry of the broker names a queue of the configuration. -/
theorem queue_of_mem_rabbitmqConfigs
    {item : RabbitConfig} (member : item ∈ config.rabbitmqConfigs) :
    ∃ rabbit name, item.rabbitmq = some rabbit ∧
      rabbit.queue = some name ∧ name ∈ config.queues.keys := by
  rw [parsing.configs_eq] at member
  have named : ∃ name ∈ config.queues.keys,
      item.rabbitmq.bind Rabbit.queue = some name := by
    rcases List.mem_append.mp member with edge | last
    · rcases parsing.queue_of_mem_configs edge with ⟨entry, among, queue⟩
      exact ⟨entry.1, mem_keys_of_edge parsing among, queue⟩
    · refine ⟨entryQueueName pipelineId, ?_, ?_⟩
      · rw [OrderedMap.keys, parsing.queues_entries, List.map_append]
        exact List.mem_append_right _ List.mem_cons_self
      · rw [List.mem_singleton.mp last]
        rfl
  rcases named with ⟨name, among, queue⟩
  rcases Option.bind_eq_some_iff.mp queue with ⟨rabbit, isRabbit, isQueue⟩
  exact ⟨rabbit, name, isRabbit, isQueue, among⟩

/-! ## The run topology -/

theorem rbIndex_edge
    {fromTask toTask : String}
    (member : (queueName fromTask toTask, edgeQueue (fromTask, toTask)) ∈
      parsing.edgeQueues)
    (nonempty : fromTask ≠ "") :
    (rbIndex config.rabbitmqConfigs).get?
        (fromTask, queueName fromTask toTask) =
      some (edgeRabbit fromTask (exchangeTypeFor tasks fromTask)
        (queueName fromTask toTask)) := by
  have named := queueName_ne_empty fromTask toTask
  apply OrderedMap.get?_ofList_of_unique
  · refine List.mem_filterMap.mpr ⟨edgeConfig fromTask
      (exchangeTypeFor tasks fromTask) (queueName fromTask toTask), ?_, ?_⟩
    · rw [parsing.configs_eq]
      exact List.mem_append_left _
        (parsing.prepared.edgeConfig_mem member rfl)
    · simp [edgeConfig, edgeRabbit, nonempty, named]
  · intro other inIndex
    rcases List.mem_filterMap.mp inIndex with ⟨item, among, indexed⟩
    rcases queue_of_mem_rabbitmqConfigs parsing among with
      ⟨rabbit, name, isRabbit, isQueue, _⟩
    rw [isRabbit] at indexed
    simp only [Option.bind_some, isQueue,
      Option.ite_none_left_eq_some, Option.some.injEq,
      Prod.mk.injEq] at indexed
    rcases indexed with ⟨_, ⟨sameTask, sameName⟩, sameRabbit⟩
    rw [parsing.configs_eq] at among
    rcases List.mem_append.mp among with edge | last
    · rcases parsing.prepared.mem_configs edge with
        ⟨found, info, inQueues, shape⟩
      have ownName := parsing.named inQueues
      rcases shape with ⟨source, isSource, same⟩ | ⟨_, same⟩
      · rw [same] at isRabbit sameTask
        have fields := Option.some.inj isRabbit
        rw [← fields] at isQueue
        have sameFound : found = name := Option.some.inj isQueue
        have sameSource : source = fromTask := sameTask
        rw [← sameRabbit, ← fields, sameFound, sameName, sameSource]
      · rw [same] at isRabbit sameTask
        have fields := Option.some.inj isRabbit
        rw [← fields] at isQueue
        have sameQueue : info.queueName = name := Option.some.inj isQueue
        have sameFound : found = queueName fromTask toTask := by
          rw [← sameName, ← sameQueue]
          exact ownName.symm
        rw [sameFound] at inQueues
        have sameInfo := info_of_edge parsing member inQueues
        rw [sameInfo] at sameTask
        have isEdge := parsing.edge_of_mem member
        exact absurd sameTask.symm (parsing.ne_of_edge isEdge)
    · rw [List.mem_singleton.mp last] at isRabbit
      rw [← Option.some.inj isRabbit] at isQueue
      have sameEntry : entryQueueName pipelineId = name :=
        Option.some.inj isQueue
      exact absurd (sameName.symm.trans sameEntry.symm)
        (queueName_ne_entryQueueName _ _ _)

/-- The run topology has a binding for each edge between tasks with names
that are not empty. -/
theorem mem_ensureRunTopology_iff (runId : Uuid) (binding : Binding) :
    binding ∈ ensureRunTopology config runId ↔
      ∃ fromTask toTask,
        (queueName fromTask toTask, edgeQueue (fromTask, toTask)) ∈
          parsing.edgeQueues ∧ fromTask ≠ "" ∧ toTask ≠ "" ∧
        binding = topologyBinding tasks runId fromTask
          (queueName fromTask toTask) := by
  have atEdge : ∀ fromTask toTask,
      (queueName fromTask toTask, edgeQueue (fromTask, toTask)) ∈
          parsing.edgeQueues →
        topologyBinding? config runId
            (queueName fromTask toTask, edgeQueue (fromTask, toTask)) =
          if fromTask = "" ∨ toTask = "" then none
          else some (topologyBinding tasks runId fromTask
            (queueName fromTask toTask)) := by
    intro fromTask toTask member
    have unfolded :
        topologyBinding? config runId
            (queueName fromTask toTask, edgeQueue (fromTask, toTask)) =
          if fromTask = "" ∨ toTask = "" then none
          else
            ((rbIndex config.rabbitmqConfigs).get?
              (fromTask, queueName fromTask toTask)).map fun rabbit =>
                { exchange := rabbit.exchange
                  queue := runId.dotted (queueName fromTask toTask)
                  routingKey := topologyKey runId
                    (queueName fromTask toTask) rabbit } :=
      rfl
    rw [unfolded]
    by_cases empty : fromTask = "" ∨ toTask = ""
    · rw [if_pos empty, if_pos empty]
    · rw [if_neg empty, if_neg empty,
        rbIndex_edge parsing member (fun same => empty (Or.inl same)),
        Option.map_some, topologyKey_edge]
      rfl
  rw [ensureRunTopology, List.mem_filterMap]
  constructor
  · intro declared
    rcases declared with ⟨entry, among, isBinding⟩
    rcases parsing.mem_queues among with edge | last
    · rcases parsing.mem_edgeQueues edge with
        ⟨fromTask, toTask, _, same⟩
      rw [same] at edge isBinding
      rw [atEdge fromTask toTask edge] at isBinding
      split at isBinding
      · cases isBinding
      · rename_i named
        rw [not_or] at named
        exact ⟨fromTask, toTask, edge, named.1, named.2,
          (Option.some.inj isBinding).symm⟩
    · rw [last] at isBinding
      cases isBinding
  · intro edge
    rcases edge with ⟨fromTask, toTask, member, source, target, same⟩
    refine ⟨_, parsing.mem_queues_of_edge member, ?_⟩
    rw [atEdge fromTask toTask member,
      if_neg (not_or.mpr ⟨source, target⟩), same]

theorem queueName_of_mem_queues
    {name : String} {info : QueueInfo}
    (member : (name, info) ∈ config.queues.entries) :
    info.queueName = name := by
  rcases parsing.mem_queues member with edge | last
  · exact parsing.named edge
  · rw [(Prod.mk.inj last).1, (Prod.mk.inj last).2]
    rfl

end Accepted

section Consumers

variable
  {config : FinalConfig} (order : SetOrder String) (suffixed : Bool)
  (serviceName : String) (run : LaunchedRun config)

theorem mem_serviceQueueNames_iff (name : String) :
    name ∈ serviceQueueNames config order serviceName ↔
      ∃ info, (name, info) ∈ config.queues.entries ∧
        info.toTask ∈ getTasksForServiceName config serviceName := by
  rw [serviceQueueNames, order.mem_visit, List.mem_flatMap]
  constructor
  · intro listed
    rcases listed with ⟨taskId, owned, subscribed⟩
    rcases List.mem_map.mp subscribed with ⟨entry, kept, same⟩
    rcases List.mem_filter.mp kept with ⟨among, leads⟩
    have target : entry.2.toTask = taskId := of_decide_eq_true leads
    refine ⟨entry.2, ?_, ?_⟩
    · rw [← same]
      exact among
    · rw [target]
      exact owned
  · intro listed
    rcases listed with ⟨info, among, owned⟩
    refine ⟨info.toTask, owned, List.mem_map.mpr ⟨(name, info), ?_, rfl⟩⟩
    exact List.mem_filter.mpr ⟨among, decide_eq_true rfl⟩

theorem LaunchedRun.runName_eq
    {name : String} (known : name ∈ config.queues.keys) :
    runName run.id name = run.id.dotted name := by
  rw [runName, if_neg (by simp [run.fresh name known])]

theorem consumerQueue_inj
    {runId : Uuid} {first second : String}
    (same : consumerQueue suffixed runId first =
      consumerQueue suffixed runId second) : first = second := by
  cases suffixed with
  | true => exact (Uuid.dotted_inj same).1
  | false => exact same

/-- A queue of the pipeline as the consumers of a run see it. -/
def runQueue (runId : Uuid) (entry : String × QueueInfo) :
    String × ConsumerQueue :=
  (consumerQueue suffixed runId entry.1,
    { entry.2 with
      queueName := consumerQueue suffixed runId entry.1
      perRun := suffixed })

variable
  {pipelineId : Uuid} {tasks : List Task}
  (parsing : Parsing pipelineId tasks config)

include parsing

omit parsing in
theorem mem_queuesSubset_iff
    {queueNames : List String} {entry : String × QueueInfo} :
    entry ∈ queuesSubset config queueNames ↔
      entry.1 ∈ queueNames ∧ entry ∈ config.queues.entries := by
  rw [queuesSubset, List.mem_filterMap]
  constructor
  · intro member
    rcases member with ⟨name, listed, found⟩
    rcases Option.map_eq_some_iff.mp found with ⟨info, stored, same⟩
    rw [← same]
    exact ⟨listed, OrderedMap.mem_of_get? stored⟩
  · intro member
    rcases member with ⟨listed, stored⟩
    refine ⟨entry.1, listed, ?_⟩
    rw [OrderedMap.get?_of_mem stored]
    rfl

omit parsing in
theorem nodup_queuesSubset
    {queueNames : List String} (nodup : queueNames.Nodup) :
    ((queuesSubset config queueNames).map Prod.fst).Nodup := by
  rw [queuesSubset, List.map_filterMap]
  refine List.Nodup.filterMap ?_ nodup
  intro first second name inFirst inSecond
  simp only [Option.map_map, Option.mem_def,
    Option.map_eq_some_iff] at inFirst inSecond
  rcases inFirst with ⟨_, _, isFirst⟩
  rcases inSecond with ⟨_, _, isSecond⟩
  exact isFirst.trans isSecond.symm

/-- A service consumes the queues that lead to its tasks, under their names
for the run. -/
theorem serviceQueues_entries :
    (buildFinalConfigForService config order suffixed serviceName
        run.id).queues.entries =
      (queuesSubset config
        (serviceQueueNames config order serviceName)).map
          (runQueue suffixed run.id) := by
  have known : ∀ entry ∈ queuesSubset config
      (serviceQueueNames config order serviceName),
      entry ∈ config.queues.entries :=
    fun entry member => (mem_queuesSubset_iff.mp member).2
  have nodup : ((queuesSubset config
      (serviceQueueNames config order serviceName)).map
        Prod.fst).Nodup :=
    nodup_queuesSubset (order.nodup _)
  have shaped : (buildFinalConfigForService config order suffixed
      serviceName run.id).queues =
        OrderedMap.ofList ((queuesSubset config
          (serviceQueueNames config order serviceName)).map
            (runQueue suffixed run.id)) := by
    rw [buildFinalConfigForService]
    cases suffixed with
    | true =>
        rw [if_pos rfl]
        refine congrArg OrderedMap.ofList (List.map_congr_left ?_)
        intro entry member
        have key : entry.1 ∈ config.queues.keys :=
          List.mem_map.mpr ⟨entry, known entry member, rfl⟩
        rw [run.runName_eq key]
        rfl
    | false =>
        rw [if_neg Bool.false_ne_true]
        refine congrArg OrderedMap.ofList (List.map_congr_left ?_)
        intro entry member
        have named := queueName_of_mem_queues parsing (known entry member)
        rw [runQueue, consumerQueue, if_neg Bool.false_ne_true, ← named]
  rw [shaped]
  apply OrderedMap.entries_ofList_of_nodup
  have keys :
      ((queuesSubset config
        (serviceQueueNames config order serviceName)).map
          (runQueue suffixed run.id)).map Prod.fst =
        ((queuesSubset config
          (serviceQueueNames config order serviceName)).map
            Prod.fst).map (consumerQueue suffixed run.id) := by
    rw [List.map_map, List.map_map]
    rfl
  rw [keys]
  exact nodup.map fun first second => consumerQueue_inj suffixed

omit parsing in
theorem kept_iff
    {queueNames : List String} {found : Option String} :
    (queueNames.any fun name => decide (found = some name)) = true ↔
      ∃ name ∈ queueNames, found = some name := by
  simp

/-- The first entry that the consumers find for a queue comes from the first
one of the pipeline. -/
theorem find?_service
    {name : String}
    (listed : name ∈ serviceQueueNames config order serviceName)
    (known : name ∈ config.queues.keys)
    {rabbit : Rabbit} {exchange taskId : String}
    (lane : Lane rabbit exchange name)
    (first : ∀ test : RabbitConfig → Bool,
      (∀ item ∈ config.rabbitmqConfigs, test item = true ↔
        item.rabbitmq.bind Rabbit.queue = some name) →
      config.rabbitmqConfigs.find? test = some ⟨taskId, rabbit⟩)
    (info : QueueInfo) :
    ∃ item found,
      (buildFinalConfigForService config order suffixed serviceName
          run.id).rabbitmqConfigs.find?
        (fun item => decide (item.rabbitmq.bind Rabbit.queue =
          some (consumerQueue suffixed run.id name))) = some item ∧
      item.rabbitmq = some found ∧ found.exchange = exchange ∧
      consumerKey run.id (runQueue suffixed run.id (name, info)).2 found =
        consumerQueue suffixed run.id name := by
  cases suffixed with
  | false =>
      refine ⟨⟨taskId, rabbit⟩, rabbit, ?_, rfl, lane.exchange_eq, ?_⟩
      · rw [buildFinalConfigForService, if_neg Bool.false_ne_true]
        dsimp only
        rw [rabbitmqSubset, List.find?_filter]
        apply first
        intro item _
        rw [decide_eq_true_eq, decide_eq_true_eq, kept_iff]
        constructor
        · intro both
          exact both.2
        · intro same
          exact ⟨⟨name, listed, same⟩, same⟩
      · exact lane.consumerKey_eq run.id rfl
  | true =>
      have fresh := run.fresh name known
      refine ⟨⟨taskId, suffixedRabbit run.id
        (serviceQueueNames config order serviceName) rabbit⟩, _, ?_, rfl,
        lane.exchange_eq, lane.consumerKey_suffixed fresh _ _⟩
      rw [buildFinalConfigForService, if_pos rfl]
      dsimp only
      rw [rabbitmqSubset, List.find?_map, List.find?_filter]
      rw [first]
      · rfl
      · intro item among
        rcases queue_of_mem_rabbitmqConfigs parsing among with
          ⟨own, found, isRabbit, isQueue, inQueues⟩
        have renamed : (own.queue.getD "") = found := by
          rw [isQueue]
          rfl
        rw [decide_eq_true_eq, kept_iff]
        simp only [Function.comp_apply, isRabbit, Option.map_some,
          Option.bind_some, isQueue, suffixedRabbit, Option.getD_some,
          Option.some.injEq, decide_eq_true_eq]
        constructor
        · intro both
          rcases both with ⟨⟨other, listed, same⟩, renamed⟩
          rw [same, if_pos listed, ← same, run.runName_eq inQueues]
            at renamed
          exact consumerQueue_inj true renamed
        · intro same
          rw [same]
          refine ⟨⟨name, listed, rfl⟩, ?_⟩
          rw [if_pos listed, run.runName_eq known]
          rfl

omit parsing in
theorem consumerBinding?_of_find?
    {runId : Uuid} {service : ServiceConfig}
    {entry : String × ConsumerQueue} {item : RabbitConfig}
    {rabbit : Rabbit}
    (found : service.rabbitmqConfigs.find? (fun item => decide
      (item.rabbitmq.bind Rabbit.queue = some entry.2.queueName)) =
        some item)
    (isRabbit : item.rabbitmq = some rabbit) :
    consumerBinding? runId service entry =
      some
        { exchange := rabbit.exchange
          queue := entry.1
          routingKey := consumerKey runId entry.2 rabbit } := by
  rw [consumerBinding?, found, Option.bind_some, isRabbit]
  rfl

theorem consumerBinding?_eq
    {name : String}
    (listed : name ∈ serviceQueueNames config order serviceName)
    (known : name ∈ config.queues.keys)
    {rabbit : Rabbit} {exchange taskId : String}
    (lane : Lane rabbit exchange name)
    (first : ∀ test : RabbitConfig → Bool,
      (∀ item ∈ config.rabbitmqConfigs, test item = true ↔
        item.rabbitmq.bind Rabbit.queue = some name) →
      config.rabbitmqConfigs.find? test = some ⟨taskId, rabbit⟩)
    (info : QueueInfo) :
    consumerBinding? run.id
        (buildFinalConfigForService config order suffixed serviceName
          run.id)
        (runQueue suffixed run.id (name, info)) =
      some (consumerBinding suffixed run.id exchange name) := by
  rcases find?_service order suffixed serviceName run parsing listed known
    lane first info with ⟨item, found, isFirst, isRabbit, exchanged, key⟩
  have bound : consumerBinding? run.id
      (buildFinalConfigForService config order suffixed serviceName
        run.id) (runQueue suffixed run.id (name, info)) =
      some
        { exchange := found.exchange
          queue := consumerQueue suffixed run.id name
          routingKey := consumerKey run.id
            (runQueue suffixed run.id (name, info)).2 found } :=
    consumerBinding?_of_find? isFirst isRabbit
  rw [bound, key, exchanged]
  rfl

theorem consumedQueues_eq :
    consumedQueues config order suffixed serviceName run.id =
      ((queuesSubset config
        (serviceQueueNames config order serviceName)).map
          Prod.fst).map (consumerQueue suffixed run.id) := by
  rw [consumedQueues, OrderedMap.keys,
    serviceQueues_entries order suffixed serviceName run parsing,
    List.map_map, List.map_map]
  rfl

/-- The bindings of the consumers of a service: one for each edge to its
tasks, and one for the entry queue when it has the task `entry`. -/
theorem mem_consumerBindings_iff (binding : Binding) :
    binding ∈ consumerBindings config order suffixed serviceName run.id ↔
      (∃ fromTask toTask,
        (queueName fromTask toTask, edgeQueue (fromTask, toTask)) ∈
          parsing.edgeQueues ∧
        toTask ∈ getTasksForServiceName config serviceName ∧
        binding = consumerBinding suffixed run.id (exchangeName fromTask)
          (queueName fromTask toTask)) ∨
      ("entry" ∈ getTasksForServiceName config serviceName ∧
        binding = consumerBinding suffixed run.id
          (entryExchangeName pipelineId) (entryQueueName pipelineId)) := by
  have atEdge : ∀ fromTask toTask,
      (queueName fromTask toTask, edgeQueue (fromTask, toTask)) ∈
        parsing.edgeQueues →
      toTask ∈ getTasksForServiceName config serviceName →
      queueName fromTask toTask ∈
          serviceQueueNames config order serviceName ∧
        consumerBinding? run.id
          (buildFinalConfigForService config order suffixed serviceName
            run.id)
          (runQueue suffixed run.id
            (queueName fromTask toTask, edgeQueue (fromTask, toTask))) =
          some (consumerBinding suffixed run.id (exchangeName fromTask)
            (queueName fromTask toTask)) := by
    intro fromTask toTask member owned
    have listed := (mem_serviceQueueNames_iff order serviceName
      (queueName fromTask toTask)).mpr
        ⟨_, parsing.mem_queues_of_edge member, owned⟩
    refine ⟨listed, ?_⟩
    exact consumerBinding?_eq order suffixed serviceName run parsing
      listed (mem_keys_of_edge parsing member)
      (lane_edgeRabbit tasks fromTask (queueName_ne_empty fromTask toTask))
      (fun _ tests => parsing.find?_edge member rfl tests) _
  have entryKnown : (entryQueueName pipelineId, entryQueue pipelineId) ∈
      config.queues.entries := by
    rw [parsing.queues_entries]
    exact List.mem_append_right _ List.mem_cons_self
  have atEntry : "entry" ∈ getTasksForServiceName config serviceName →
      entryQueueName pipelineId ∈
          serviceQueueNames config order serviceName ∧
        consumerBinding? run.id
          (buildFinalConfigForService config order suffixed serviceName
            run.id)
          (runQueue suffixed run.id
            (entryQueueName pipelineId, entryQueue pipelineId)) =
          some (consumerBinding suffixed run.id
            (entryExchangeName pipelineId)
            (entryQueueName pipelineId)) := by
    intro owned
    have listed := (mem_serviceQueueNames_iff order serviceName
      (entryQueueName pipelineId)).mpr ⟨_, entryKnown, owned⟩
    refine ⟨listed, ?_⟩
    exact consumerBinding?_eq order suffixed serviceName run parsing
      listed (List.mem_map.mpr ⟨_, entryKnown, rfl⟩)
      (lane_entryRabbit pipelineId)
      (fun _ tests => parsing.find?_entry tests) _
  rw [consumerBindings, serviceQueues_entries order suffixed serviceName run parsing,
    List.mem_filterMap]
  constructor
  · intro declared
    rcases declared with ⟨shaped, among, isBinding⟩
    rcases List.mem_map.mp among with ⟨entry, inSubset, same⟩
    rw [← same] at isBinding
    rcases mem_queuesSubset_iff.mp inSubset with ⟨listed, stored⟩
    rcases (mem_serviceQueueNames_iff order serviceName
      entry.1).mp listed with ⟨info, alsoStored, owned⟩
    have sameInfo : info = entry.2 := by
      have one := OrderedMap.get?_of_mem alsoStored
      have two := OrderedMap.get?_of_mem stored
      rw [one] at two
      exact Option.some.inj two
    rw [sameInfo] at owned
    rcases parsing.mem_queues stored with edge | last
    · rcases parsing.mem_edgeQueues edge with
        ⟨fromTask, toTask, _, sameEntry⟩
      rw [sameEntry] at edge owned isBinding
      have bound := (atEdge fromTask toTask edge owned).2
      rw [bound] at isBinding
      exact Or.inl ⟨fromTask, toTask, edge, owned,
        (Option.some.inj isBinding).symm⟩
    · rw [last] at owned isBinding
      rw [(atEntry owned).2] at isBinding
      exact Or.inr ⟨owned, (Option.some.inj isBinding).symm⟩
  · intro declared
    rcases declared with ⟨fromTask, toTask, edge, owned, same⟩ |
      ⟨owned, same⟩
    · rcases atEdge fromTask toTask edge owned with ⟨listed, bound⟩
      have inSubset : (queueName fromTask toTask,
          edgeQueue (fromTask, toTask)) ∈ queuesSubset config
            (serviceQueueNames config order serviceName) :=
        mem_queuesSubset_iff.mpr
          ⟨listed, parsing.mem_queues_of_edge edge⟩
      refine ⟨_, List.mem_map.mpr ⟨_, inSubset, rfl⟩, ?_⟩
      rw [bound, same]
    · rcases atEntry owned with ⟨listed, bound⟩
      have inSubset : (entryQueueName pipelineId, entryQueue pipelineId) ∈
          queuesSubset config
            (serviceQueueNames config order serviceName) :=
        mem_queuesSubset_iff.mpr ⟨listed, entryKnown⟩
      refine ⟨_, List.mem_map.mpr ⟨_, inSubset, rfl⟩, ?_⟩
      rw [bound, same]

/-- Every task belongs to a service. -/
theorem exists_service {taskId : String}
    (task : taskId ∈ tasks.map Task.id) :
    ∃ serviceName ∈ services config,
      taskId ∈ getTasksForServiceName config serviceName := by
  rw [← parsing.infers.ids] at task
  rcases List.mem_map.mp task with ⟨inferred, inDag, same⟩
  have nodup := nodup_of_detectCyclesKahn parsing.passed
  have entries : config.taskDict.entries =
      parsing.dag.map fun task => (task.id, task) := by
    rw [parsing.taskDict_eq]
    exact entries_taskDictOf nodup
  refine ⟨inferred.availableServices, ?_, ?_⟩
  · rw [services, List.mem_dedup, OrderedMap.values, entries,
      List.map_map, List.map_map]
    exact List.mem_map.mpr ⟨inferred, inDag, rfl⟩
  · rw [getTasksForServiceName, entries]
    refine List.mem_map.mpr ⟨(inferred.id, inferred), ?_, same⟩
    exact List.mem_filter.mpr
      ⟨List.mem_map.mpr ⟨inferred, inDag, rfl⟩, decide_eq_true rfl⟩

omit parsing in
theorem mem_ids_of_service
    (parsing : Parsing pipelineId tasks config)
    {taskId : String}
    (owned : taskId ∈ getTasksForServiceName config serviceName) :
    taskId ∈ tasks.map Task.id := by
  rw [getTasksForServiceName] at owned
  rcases List.mem_map.mp owned with ⟨entry, kept, same⟩
  have among := (List.mem_filter.mp kept).1
  have nodup := nodup_of_detectCyclesKahn parsing.passed
  rw [parsing.taskDict_eq, entries_taskDictOf nodup] at among
  rcases List.mem_map.mp among with ⟨inferred, inDag, isEntry⟩
  rw [← parsing.infers.ids]
  refine List.mem_map.mpr ⟨inferred, inDag, ?_⟩
  rw [← same, ← isEntry]

/-- All bindings of a run. -/
theorem mem_runBindings_iff (binding : Binding) :
    binding ∈ runBindings config order suffixed run.id ↔
      (∃ fromTask toTask,
        (queueName fromTask toTask, edgeQueue (fromTask, toTask)) ∈
          parsing.edgeQueues ∧
        ((fromTask ≠ "" ∧ toTask ≠ "" ∧
            binding = topologyBinding tasks run.id fromTask
              (queueName fromTask toTask)) ∨
          binding = consumerBinding suffixed run.id
            (exchangeName fromTask) (queueName fromTask toTask))) ∨
      ("entry" ∈ tasks.map Task.id ∧
        binding = consumerBinding suffixed run.id
          (entryExchangeName pipelineId) (entryQueueName pipelineId)) := by
  rw [runBindings, List.mem_append,
    mem_ensureRunTopology_iff parsing run.id, List.mem_flatMap]
  constructor
  · intro declared
    rcases declared with
      ⟨fromTask, toTask, edge, source, target, same⟩ |
      ⟨serviceName, _, consumed⟩
    · exact Or.inl
        ⟨fromTask, toTask, edge, Or.inl ⟨source, target, same⟩⟩
    · rcases (mem_consumerBindings_iff order suffixed serviceName run
        parsing binding).mp consumed with
        ⟨fromTask, toTask, edge, _, same⟩ | ⟨owned, same⟩
      · exact Or.inl ⟨fromTask, toTask, edge, Or.inr same⟩
      · exact Or.inr
          ⟨mem_ids_of_service serviceName parsing owned, same⟩
  · intro declared
    rcases declared with ⟨fromTask, toTask, edge, shape⟩ | ⟨task, same⟩
    · rcases shape with ⟨source, target, same⟩ | same
      · exact Or.inl ⟨fromTask, toTask, edge, source, target, same⟩
      · have isEdge := parsing.edge_of_mem edge
        rcases mem_downstream_iff.mp isEdge with
          ⟨task, inTasks, _, sameId⟩
        have isTask : toTask ∈ tasks.map Task.id :=
          List.mem_map.mpr ⟨task, inTasks, sameId⟩
        rcases exists_service parsing isTask with
          ⟨serviceName, inServices, owned⟩
        refine Or.inr ⟨serviceName, inServices, ?_⟩
        exact (mem_consumerBindings_iff order suffixed serviceName run
          parsing binding).mpr
            (Or.inl ⟨fromTask, toTask, edge, owned, same⟩)
    · rcases exists_service parsing task with
        ⟨serviceName, inServices, owned⟩
      refine Or.inr ⟨serviceName, inServices, ?_⟩
      exact (mem_consumerBindings_iff order suffixed serviceName run
        parsing binding).mpr (Or.inr ⟨owned, same⟩)

end Consumers

end Agentcy.Broker
