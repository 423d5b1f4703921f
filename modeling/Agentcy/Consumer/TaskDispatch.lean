import Agentcy.Broker.BoundQueues
import Agentcy.Consumer.Aggregator
import Agentcy.Parser.EdgeQueues

/-!
# Dispatching a task again

`handle_dispatch_task` looks for the queues of a task by the ends of their
names and publishes the stored input of the task on each of them, under a
sender that no task has.
-/

namespace Agentcy.Consumer

open Agentcy.Library
open Agentcy.Broker
open Agentcy.Parser
open PyText

structure DispatchTaskCommand where
  username : String
  pipelineId : String
  pipelineRunId : Uuid
  taskId : String
  newAgentId : String
  newService : String
  reforwardCount : Int := 1

structure TaskDispatchedEvent where
  username : String
  pipelineId : String
  pipelineRunId : Uuid
  taskId : String
  agentId : String
  serviceName : String
  dispatchType : String
  reforwardCount : Int

abbrev OutputDocument := List (String × Runs.Json)

/-- The services that the handler asks the resource manager for.  A lookup
that raises has no result, and the bus says which of the publishes of a call
go through. -/
structure DispatchServices where
  readTaskOutput :
    Option (String → String → Uuid → Option OutputDocument)
  getFinalConfig : Option (String → String → Option FinalConfig)
  messageBus : Option (Nat → Bool)

namespace DispatchServices

variable (services : DispatchServices) (command : DispatchTaskCommand)

/-- The input that was stored for the task; an empty one counts as missing. -/
def inputDocument : Option OutputDocument :=
  (services.readTaskOutput.bind fun readTaskOutput =>
    readTaskOutput command.username ("input_" ++ command.taskId)
      command.pipelineRunId).filter fun document => !document.isEmpty

def finalConfig : Option FinalConfig :=
  services.getFinalConfig.bind fun getFinalConfig =>
    getFinalConfig command.username command.pipelineId

end DispatchServices

/-- The broker entries whose queue ends in the name of the task.  The entries
of a configuration have no `to_tasks`. -/
def targetRabbits (taskId : String) :
    List RabbitConfig → Except PyError (List Rabbit)
  | [] => .ok []
  | item :: rest =>
      match item.rabbitmq with
      | none => .error .attributeError
      | some rabbit =>
          match rabbit.queue with
          | none => .error .attributeError
          | some queue => do
              let later ← targetRabbits taskId rest
              return if endsWith queue taskId then rabbit :: later
                else later

structure Dispatched where
  rabbit : Rabbit
  message : Envelope

structure DispatchOutcome where
  published : List Dispatched := []
  event : Option TaskDispatchedEvent := none

def dispatchEnvelope
    (command : DispatchTaskCommand) (document : OutputDocument) :
    Envelope where
  pipelineRunId := some command.pipelineRunId.text
  fromTask := some "__cnp_dispatch__"
  username := some command.username
  pipelineId := some command.pipelineId
  payload := .object document

def dispatchedEvent (command : DispatchTaskCommand) :
    TaskDispatchedEvent where
  username := command.username
  pipelineId := command.pipelineId
  pipelineRunId := command.pipelineRunId
  taskId := command.taskId
  agentId := command.newAgentId
  serviceName := command.newService
  dispatchType := "cross_service"
  reforwardCount := command.reforwardCount

def publishTargets
    (accepts : Nat → Bool) (message : Envelope) (targets : List Rabbit) :
    List Dispatched :=
  (targets.zipIdx.filter fun target => accepts target.2).map
    fun target => ⟨target.1, message⟩

def handleDispatchTask
    (services : DispatchServices) (command : DispatchTaskCommand) :
    Except PyError DispatchOutcome :=
  match services.inputDocument command with
  | none => .ok {}
  | some document =>
      match services.finalConfig command with
      | none => .ok {}
      | some config => do
          let targets ←
            targetRabbits command.taskId config.rabbitmqConfigs
          match services.messageBus with
          | none => return {}
          | some accepts =>
              let published :=
                publishTargets accepts (dispatchEnvelope command document)
                  targets
              return {
                published := published
                event :=
                  if published.isEmpty then none
                  else some (dispatchedEvent command) }

/-- The parts of a final configuration in a consumer manager. -/
def consumerConfig
    (config : FinalConfig) (pipelineRunConfigId pipelineId : String) :
    ConsumerConfig where
  requiredSteps := config.fanInMetadata.mapValues fun _ metadata =>
    metadata.requiredSteps
  availableServices := config.taskDict.mapValues fun _ task =>
    task.availableServices
  pipelineRunConfigId := pipelineRunConfigId
  pipelineId := pipelineId

section Dispatch

variable
  (config : FinalConfig) (order : SetOrder String) (suffixed : Bool)
  (live : List (LaunchedRun config)) (run : LaunchedRun config)
  (tasks : List Task) (taskId upstream : String)

/-- The message is put into one queue, which leads to the task, and whatever a
consumer manager of the run has in its buffers, it forwards the task. -/
structure Reaches
    (dispatched : Dispatched) (name : String) (info : QueueInfo) :
    Prop where
  queue : dispatched.rabbit.queue = some name
  known : config.queues.get? name = some info
  target : info.toTask = taskId
  alone :
    publishTo suffixed (liveBindings config order suffixed live) run.id
      dispatched.rabbit = [consumerQueue suffixed run.id name]
  forwards : ∀ pipelineRunConfigId pipelineId store,
    (defaultHandler
        (consumerConfig config pipelineRunConfigId pipelineId) store
        ⟨some info.toTask, dispatched.message⟩).2.map
      ForwardCall.toTask = some taskId

def ReachesTask (outcome : Except PyError DispatchOutcome) : Prop :=
  ∃ dispatched event name info, outcome = .ok ⟨[dispatched], event⟩ ∧
    Reaches config order suffixed live run taskId dispatched name info

/-- The queue of the edge from the upstream task is the only one whose name
ends in the name of the task, and the task is not a final one. -/
structure SoleQueue : Prop where
  own : config.queues.get? (queueName upstream taskId) =
    some (edgeQueue (upstream, taskId))
  only : ∀ name ∈ config.queues.keys, endsWith name taskId = true →
    name = queueName upstream taskId
  inner : downstream tasks taskId ≠ []

/-- The exchange of the upstream task is a direct one and the key keeps its
last letter, or it is a fanout exchange and no other queue is bound to it. -/
def ReachedAlone : Prop :=
  (fansOut tasks upstream = false ∧ ¬ EndsInSpace taskId) ∨
    (fansOut tasks upstream = true ∧
      (∀ entry ∈ config.queues.entries,
        entry.2.fromTask = some upstream → entry.2.toTask = taskId) ∧
      ((suffixed = true ∧ ∀ other ∈ live, other = run) ∨
        (suffixed = false ∧ upstream = "")))

end Dispatch

/-- What the search looks for in a broker entry. -/
def namesTask (taskId : String) (item : RabbitConfig) : Bool :=
  (item.rabbitmq.bind Rabbit.queue).any fun queue =>
    endsWith queue taskId

theorem targetRabbits_eq
    (taskId : String) {items : List RabbitConfig}
    (named : ∀ item ∈ items, ∃ rabbit queue,
      item.rabbitmq = some rabbit ∧ rabbit.queue = some queue) :
    targetRabbits taskId items =
      .ok ((items.filter (namesTask taskId)).filterMap
        RabbitConfig.rabbitmq) := by
  induction items with
  | nil =>
      rfl
  | cons item rest inductionHypothesis =>
      have tail := inductionHypothesis fun other member =>
        named other (List.mem_cons_of_mem _ member)
      obtain ⟨rabbit, queue, isRabbit, isQueue⟩ :=
        named item List.mem_cons_self
      have test : namesTask taskId item = endsWith queue taskId := by
        unfold namesTask
        rw [isRabbit, Option.bind_some, isQueue]
        rfl
      unfold targetRabbits
      rw [isRabbit]
      dsimp only
      rw [isQueue]
      dsimp only
      rw [tail, List.filter_cons, test]
      cases endsWith queue taskId with
      | true =>
          rw [if_pos rfl, List.filterMap_cons_some isRabbit]
          rfl
      | false =>
          rfl

theorem publishTargets_all
    (message : Envelope) (targets : List Rabbit) :
    publishTargets (fun _ => true) message targets =
      targets.map fun rabbit => ⟨rabbit, message⟩ := by
  unfold publishTargets
  rw [List.filter_true]
  calc targets.zipIdx.map (fun target =>
        (⟨target.1, message⟩ : Dispatched))
      = (targets.zipIdx.map Prod.fst).map
          fun rabbit => ⟨rabbit, message⟩ := by
        rw [List.map_map]
        rfl
    _ = targets.map fun rabbit => ⟨rabbit, message⟩ := by
        rw [List.zipIdx_map_fst]

/-- A text that another one ends in ends in its last letter. -/
theorem getLast?_of_endsWith
    {text tail : String} {letter : Char}
    (last : tail.toList.getLast? = some letter)
    (ends : endsWith text tail = true) :
    text.toList.getLast? = some letter := by
  obtain ⟨front, whole⟩ := endsWith_iff.mp ends
  rw [← whole, List.getLast?_append, last]
  rfl

/-- The name of the entry queue ends in the identifier of the pipeline. -/
theorem entryQueueName_not_entry (pipelineId : Uuid) :
    endsWith (entryQueueName pipelineId) "entry" = false := by
  rw [Bool.eq_false_iff]
  intro ends
  have last := @getLast?_of_endsWith _ "entry" 'y' (by decide) ends
  have nonempty : pipelineId.text.toList ≠ [] := by
    intro empty
    exact pipelineId.nonempty (String.toList_eq_nil_iff.mp empty)
  unfold entryQueueName at last
  rw [String.toList_append, List.getLast?_append_of_ne_nil _ nonempty]
    at last
  have letter := pipelineId.letters 'y' (List.mem_of_getLast? last)
  revert letter
  decide

theorem mem_filter_of_queue
    {configs : List RabbitConfig} {taskId : String}
    {item : RabbitConfig} (member : item ∈ configs)
    {name : String} (queue : item.rabbitmq.bind Rabbit.queue = some name)
    (ends : endsWith name taskId = true) :
    item ∈ configs.filter (namesTask taskId) := by
  refine List.mem_filter.mpr ⟨member, ?_⟩
  unfold namesTask
  rw [queue]
  exact ends

theorem endsWith_queueName (fromTask toTask : String) :
    endsWith (queueName fromTask toTask) toTask = true := by
  rw [endsWith_iff, toList_queueName]
  exact ⟨"queue_".toList ++ (fromTask.toList ++ "_to_".toList),
    by simp⟩

section Accepted

variable
  {keyOrder : SetOrder Json.Key} {parserOrder : SetOrder String}
  {pipelineId : Uuid} {tasks : List Task} {config : FinalConfig}
  (stages : Stages keyOrder parserOrder pipelineId tasks config)
  {taskId : String}

include stages

theorem named_of_mem :
    ∀ item ∈ config.rabbitmqConfigs, ∃ rabbit queue,
      item.rabbitmq = some rabbit ∧ rabbit.queue = some queue := by
  intro item member
  rw [stages.configs_eq] at member
  rcases List.mem_append.mp member with own | last
  · obtain ⟨name, info, _, shape⟩ :=
      stages.parsing.prepared.mem_configs own
    rcases shape with ⟨fromTask, _, rfl⟩ | ⟨_, rfl⟩
    · exact ⟨_, name, rfl, rfl⟩
    · exact ⟨_, info.queueName, rfl, rfl⟩
  · rw [List.mem_singleton.mp last]
    exact ⟨_, entryQueueName pipelineId, rfl, rfl⟩

theorem mem_edgeQueues_of_target
    {name : String} {info : QueueInfo}
    (known : config.queues.get? name = some info)
    (target : info.toTask = taskId)
    (ends : endsWith name taskId = true) :
    (name, info) ∈ stages.parsing.edgeQueues := by
  rcases stages.parsing.mem_queues (OrderedMap.mem_of_get? known) with
    edge | last
  · exact edge
  · rw [Prod.mk.injEq] at last
    rw [last.2] at target
    have isEntry : "entry" = taskId := target
    rw [last.1, ← isEntry, entryQueueName_not_entry] at ends
    cases ends

/-- Two queues whose names end in the name of the task have two entries. -/
theorem exists_mem_filter
    {name : String} (known : name ∈ config.queues.keys)
    (ends : endsWith name taskId = true) :
    ∃ item ∈ config.rabbitmqConfigs.filter (namesTask taskId),
      item.rabbitmq.bind Rabbit.queue = some name := by
  obtain ⟨entry, member, rfl⟩ := List.mem_map.mp known
  rcases stages.parsing.mem_queues member with edge | rfl
  · obtain ⟨fromTask, toTask, _, rfl⟩ :=
      stages.parsing.mem_edgeQueues edge
    have listed :=
      stages.parsing.prepared.edgeConfig_mem edge rfl
    have isConfig :
        edgeConfig fromTask (exchangeTypeFor tasks fromTask)
            (queueName fromTask toTask) ∈ config.rabbitmqConfigs := by
      rw [stages.configs_eq]
      exact List.mem_append_left _ listed
    exact ⟨_, mem_filter_of_queue isConfig rfl ends, rfl⟩
  · have isConfig :
        (⟨"entry", entryRabbit pipelineId⟩ : RabbitConfig) ∈
          config.rabbitmqConfigs := by
      rw [stages.configs_eq]
      exact List.mem_append_right _ List.mem_cons_self
    exact ⟨_, mem_filter_of_queue isConfig rfl ends, rfl⟩

/-- If a search finds one entry only, for a queue of the task, then the queue
is the only one for the name and the task is not a final one. -/
theorem soleQueue_of_single
    {rabbit : Rabbit} {name : String} {info : QueueInfo}
    (single : (config.rabbitmqConfigs.filter
      (namesTask taskId)).filterMap RabbitConfig.rabbitmq = [rabbit])
    (isQueue : rabbit.queue = some name)
    (known : config.queues.get? name = some info)
    (target : info.toTask = taskId) :
    ∃ upstream, SoleQueue config tasks taskId upstream ∧
      name = queueName upstream taskId ∧
        rabbit = edgeRabbit upstream (exchangeTypeFor tasks upstream)
          name := by
  have same : ∀ item ∈
      config.rabbitmqConfigs.filter (namesTask taskId),
        item.rabbitmq = some rabbit := by
    intro item found
    obtain ⟨other, _, isRabbit, _⟩ :=
      named_of_mem stages item (List.mem_of_mem_filter found)
    have listed : other ∈
        (config.rabbitmqConfigs.filter
          (namesTask taskId)).filterMap RabbitConfig.rabbitmq :=
      List.mem_filterMap.mpr ⟨item, found, isRabbit⟩
    rw [single, List.mem_singleton] at listed
    rw [isRabbit, listed]
  have ends : endsWith name taskId = true := by
    have listed : rabbit ∈
        (config.rabbitmqConfigs.filter
          (namesTask taskId)).filterMap RabbitConfig.rabbitmq := by
      rw [single]
      exact List.mem_singleton_self rabbit
    obtain ⟨item, found, isRabbit⟩ := List.mem_filterMap.mp listed
    have test := (List.mem_filter.mp found).2
    unfold namesTask at test
    rw [isRabbit, Option.bind_some, isQueue] at test
    exact test
  have edge := mem_edgeQueues_of_target stages known target ends
  obtain ⟨upstream, toTask, isEdge, shape⟩ :=
    stages.parsing.mem_edgeQueues edge
  rw [Prod.mk.injEq] at shape
  obtain ⟨rfl, rfl⟩ := shape
  have isTarget : toTask = taskId := target
  subst isTarget
  have ownRabbit : rabbit =
      edgeRabbit upstream (exchangeTypeFor tasks upstream)
        (queueName upstream toTask) := by
    have listed := stages.parsing.prepared.edgeConfig_mem edge rfl
    have isConfig :
        edgeConfig upstream (exchangeTypeFor tasks upstream)
            (queueName upstream toTask) ∈ config.rabbitmqConfigs := by
      rw [stages.configs_eq]
      exact List.mem_append_left _ listed
    have found := mem_filter_of_queue isConfig rfl ends
    exact (Option.some.inj (same _ found)).symm
  refine ⟨upstream, ⟨known, ?_, ?_⟩, rfl, ownRabbit⟩
  · intro other isKey otherEnds
    obtain ⟨item, found, queue⟩ :=
      exists_mem_filter stages isKey otherEnds
    rw [same item found, Option.bind_some, isQueue] at queue
    exact (Option.some.inj queue).symm
  · intro final
    obtain ⟨other, among, sameTarget, type, isConfig⟩ :=
      stages.exists_endConfig edge final
    obtain ⟨fromTask, otherTask, _, rfl⟩ :=
      stages.parsing.mem_edgeQueues among
    have isTask : otherTask = toTask := sameTarget
    subst isTask
    have found := mem_filter_of_queue isConfig rfl
      (endsWith_queueName fromTask otherTask)
    have rabbits := Option.some.inj (same _ found)
    rw [ownRabbit] at rabbits
    have exchanges := congrArg Rabbit.exchange rabbits
    exact
      stages.parsing.ne_of_edge isEdge
        (exchangeName_inj exchanges).symm

/-- A search for the sole queue finds the entry of its edge. -/
theorem filter_of_soleQueue
    {upstream : String}
    (sole : SoleQueue config tasks taskId upstream) :
    config.rabbitmqConfigs.filter (namesTask taskId) =
      [edgeConfig upstream (exchangeTypeFor tasks upstream)
        (queueName upstream taskId)] := by
  have edge := mem_edgeQueues_of_target stages sole.own rfl
    (endsWith_queueName upstream taskId)
  have isOwn : ∀ entry ∈ stages.parsing.edgeQueues,
      entry.1 = queueName upstream taskId ↔
        entry = (queueName upstream taskId,
          edgeQueue (upstream, taskId)) := by
    intro entry member
    constructor
    · intro named
      have found := stages.parsing.get?_queues member
      rw [named, sole.own] at found
      exact Prod.ext named (Option.some.inj found).symm
    · rintro rfl
      rfl
  have picked : ∀ entry ∈ stages.parsing.edgeQueues,
      endsWith entry.1 taskId = true ↔
        entry.1 = queueName upstream taskId := by
    intro entry member
    constructor
    · exact sole.only entry.1
        (List.mem_map.mpr
          ⟨entry, stages.parsing.mem_queues_of_edge member, rfl⟩)
    · intro named
      rw [named]
      exact endsWith_queueName upstream taskId
  have isConfig :
      edgeConfig upstream (exchangeTypeFor tasks upstream)
          (queueName upstream taskId) ∈ config.rabbitmqConfigs := by
    rw [stages.configs_eq]
    exact
      List.mem_append_left _
        (stages.parsing.prepared.edgeConfig_mem edge rfl)
  have notLast :
      [(⟨"entry", entryRabbit pipelineId⟩ : RabbitConfig)].filter
        (namesTask taskId) = [] := by
    rw [List.filter_eq_nil_iff]
    intro item isLast ends
    rw [List.mem_singleton.mp isLast] at ends
    have isKey : entryQueueName pipelineId ∈ config.queues.keys := by
      rw [stages.queues_eq, OrderedMap.mem_keys_set]
      exact Or.inl rfl
    exact
      queueName_ne_entryQueueName upstream taskId pipelineId
        (sole.only _ isKey ends).symm
  have one : (config.rabbitmqConfigs.filter
      (namesTask taskId)).length = 1 := by
    rw [stages.configs_eq, List.filter_append, notLast, List.append_nil]
    calc (stages.configs.filter (namesTask taskId)).length
        = (stages.parsing.edgeQueues.filter fun entry =>
            decide (entry.1 = queueName upstream taskId)).length := by
          apply stages.parsing.prepared.length_filter
          · intro entry member fromTask _
            rw [Bool.eq_iff_iff, decide_eq_true_eq]
            exact picked entry member
          · intro entry member final
            rw [Bool.eq_false_iff]
            intro ends
            have named : entry.2.queueName = entry.1 :=
              stages.parsing.named member
            have isEnd : endsWith entry.1 taskId = true := by
              rw [← named]
              exact ends
            have same := (isOwn entry member).mp
              ((picked entry member).mp isEnd)
            rw [same] at final
            exact sole.inner final
      _ = 1 := by
          apply length_filter_eq_one
            (List.Nodup.of_map Prod.fst stages.parsing.nodup_edgeQueues)
            edge
          intro entry member
          rw [decide_eq_true_eq]
          exact isOwn entry member
  obtain ⟨item, single⟩ := List.length_eq_one_iff.mp one
  have found := mem_filter_of_queue isConfig rfl
    (endsWith_queueName upstream taskId)
  rw [single, List.mem_singleton] at found
  rw [single, found]

theorem taskId_ne_empty
    {upstream : String}
    (sole : SoleQueue config tasks taskId upstream) : taskId ≠ "" := by
  rintro rfl
  have isKey : entryQueueName pipelineId ∈ config.queues.keys := by
    rw [stages.queues_eq, OrderedMap.mem_keys_set]
    exact Or.inl rfl
  have ends : endsWith (entryQueueName pipelineId) "" = true :=
    endsWith_iff.mpr (List.nil_suffix)
  exact
    queueName_ne_entryQueueName upstream "" pipelineId
      (sole.only _ isKey ends).symm

/-- A task with one queue does not wait for several others. -/
theorem requiredUpstreams_eq_nil
    {upstream : String}
    (sole : SoleQueue config tasks taskId upstream)
    (pipelineRunConfigId pipelineText : String) :
    (consumerConfig config pipelineRunConfigId
      pipelineText).requiredUpstreams taskId = [] := by
  unfold ConsumerConfig.requiredUpstreams consumerConfig
  rw [OrderedMap.get?_mapValues]
  cases found : config.fanInMetadata.get? taskId with
  | none =>
      rfl
  | some metadata =>
      have waits : taskId ∈ config.fanInMetadata.keys :=
        List.mem_map.mpr ⟨_, OrderedMap.mem_of_get? found, rfl⟩
      obtain ⟨task, member, named, several⟩ :=
        stages.joins_of_fanInMetadata waits
      have same : ∀ dependency ∈ task.upstream,
          dependency = upstream := by
        intro dependency isDependency
        have isEdge : taskId ∈ downstream tasks dependency :=
          mem_downstream_iff.mpr ⟨task, member, isDependency, named⟩
        have isKey := stages.parsing.queueName_mem_keys isEdge
        exact
          queueName_inj_left
            (sole.only _ isKey (endsWith_queueName dependency taskId))
      have copies := List.eq_replicate_of_mem same
      have distinct := nodup_upstream task
      rw [copies, List.nodup_replicate] at distinct
      omega

/-! ## The queue that the message reaches -/

variable
  (order : SetOrder String) (suffixed : Bool)
  {live : List (LaunchedRun config)} {run : LaunchedRun config}

theorem onlyDependent_iff (taskId upstream : String) :
    OnlyDependent stages.parsing upstream taskId ↔
      ∀ entry ∈ config.queues.entries,
        entry.2.fromTask = some upstream → entry.2.toTask = taskId := by
  constructor
  · intro only entry member source
    rcases stages.parsing.mem_queues member with edge | rfl
    · obtain ⟨fromTask, toTask, _, rfl⟩ :=
        stages.parsing.mem_edgeQueues edge
      obtain rfl := Option.some.inj source
      exact only toTask edge
    · cases source
  · intro only target kept
    exact only _ (stages.parsing.mem_queues_of_edge kept) rfl

theorem publishTo_eq_singleton_iff
    (isLive : run ∈ live) {upstream : String}
    (sole : SoleQueue config tasks taskId upstream) :
    publishTo suffixed (liveBindings config order suffixed live) run.id
          (edgeRabbit upstream (exchangeTypeFor tasks upstream)
            (queueName upstream taskId)) =
        [consumerQueue suffixed run.id (queueName upstream taskId)] ↔
      ReachedAlone config suffixed live run tasks taskId upstream := by
  have edge := mem_edgeQueues_of_target stages sole.own rfl
    (endsWith_queueName upstream taskId)
  have lane := lane_edgeRabbit tasks upstream
    (queueName_ne_empty upstream taskId)
  have reached := mem_publishTo_iff order suffixed live stages.parsing
    lane (typeName_of_type rfl) run.id
  have nodup :
      (publishTo suffixed (liveBindings config order suffixed live)
        run.id (edgeRabbit upstream (exchangeTypeFor tasks upstream)
          (queueName upstream taskId))).Nodup :=
    List.nodup_dedup _
  rw [← List.perm_singleton,
    List.perm_ext_iff_of_nodup nodup (List.nodup_singleton _)]
  simp only [reached, List.mem_singleton]
  unfold ReachedAlone
  cases fans : fansOut tasks upstream with
  | false =>
      have direct := reaches_direct_iff suffixed live stages.parsing
        isLive edge fans
      rw [fans] at direct
      rw [direct]
      simp
  | true =>
      have fanout := reaches_fanout_iff suffixed live stages.parsing
        isLive edge fans
      have unnamed : (upstream = "" ∨ taskId = "") ↔ upstream = "" :=
        or_iff_left (taskId_ne_empty stages sole)
      rw [fans, unnamed, onlyDependent_iff stages] at fanout
      rw [fanout]
      simp

theorem forwards_of_soleQueue
    {upstream : String}
    (sole : SoleQueue config tasks taskId upstream)
    (command : DispatchTaskCommand) (document : OutputDocument)
    (pipelineRunConfigId pipelineText : String)
    (store : AggregatorStore) :
    (defaultHandler
        (consumerConfig config pipelineRunConfigId pipelineText) store
        ⟨some taskId, dispatchEnvelope command document⟩).2.map
      ForwardCall.toTask = some taskId := by
  have context :
      (⟨some taskId, dispatchEnvelope command document⟩ :
          Delivery).context? =
        some (command.pipelineRunId.text, taskId) := by
    unfold Delivery.context? dispatchEnvelope
    dsimp only
    rw [filter_nonempty command.pipelineRunId.nonempty,
      filter_nonempty (taskId_ne_empty stages sole)]
  have needed :=
    requiredUpstreams_eq_nil stages sole pipelineRunConfigId pipelineText
  unfold defaultHandler
  rw [context]
  dsimp only
  unfold aggregate
  dsimp only
  rw [needed]
  rfl

end Accepted

theorem handleDispatchTask_eq
    {keyOrder : SetOrder Json.Key} {parserOrder : SetOrder String}
    {pipelineId : Uuid} {tasks : List Task} {config : FinalConfig}
    (stages : Stages keyOrder parserOrder pipelineId tasks config)
    {services : DispatchServices} {command : DispatchTaskCommand}
    (stored : services.finalConfig command = some config)
    (bus : services.messageBus = some fun _ => true) :
    handleDispatchTask services command =
      match services.inputDocument command with
      | none => .ok {}
      | some document =>
          let published :=
            ((config.rabbitmqConfigs.filter
              (namesTask command.taskId)).filterMap
                RabbitConfig.rabbitmq).map fun rabbit =>
                  ⟨rabbit, dispatchEnvelope command document⟩
          .ok {
            published := published
            event :=
              if published.isEmpty then none
              else some (dispatchedEvent command) } := by
  unfold handleDispatchTask
  cases services.inputDocument command with
  | none =>
      rfl
  | some document =>
      dsimp only
      rw [stored]
      dsimp only
      rw [targetRabbits_eq command.taskId (named_of_mem stages), bus]
      simp only [publishTargets_all]
      rfl

/-- A dispatched message reaches its task exactly when the input is there,
one queue only is named after the task, which is not a final one, and nothing
else is bound to the exchange. -/
theorem dispatch_reaches_iff
    {keyOrder : SetOrder Json.Key} {parserOrder : SetOrder String}
    {pipelineId : Uuid} {tasks : List Task} {config : FinalConfig}
    (accepted : parseGraph keyOrder parserOrder pipelineId tasks =
      .ok config)
    (order : SetOrder String) (suffixed : Bool)
    {live : List (LaunchedRun config)} {run : LaunchedRun config}
    (isLive : run ∈ live)
    {services : DispatchServices} {command : DispatchTaskCommand}
    (stored : services.finalConfig command = some config)
    (bus : services.messageBus = some fun _ => true) :
    ReachesTask config order suffixed live run command.taskId
        (handleDispatchTask services command) ↔
      (services.inputDocument command).isSome = true ∧
        ∃ upstream, SoleQueue config tasks command.taskId upstream ∧
          ReachedAlone config suffixed live run tasks command.taskId
            upstream := by
  obtain ⟨stages⟩ := stages_of_parseGraph accepted
  rw [handleDispatchTask_eq stages stored bus]
  cases services.inputDocument command with
  | none =>
      constructor
      · rintro ⟨dispatched, event, name, info, nothing, _⟩
        have published :=
          congrArg DispatchOutcome.published (Except.ok.inj nothing)
        cases published
      · rintro ⟨missing, _⟩
        cases missing
  | some document =>
      dsimp only
      constructor
      · rintro ⟨dispatched, event, name, info, one, reaches⟩
        have published :=
          congrArg DispatchOutcome.published (Except.ok.inj one)
        dsimp only at published
        obtain ⟨rabbit, single, rfl⟩ :=
          List.map_eq_singleton_iff.mp published
        obtain ⟨upstream, sole, rfl, rfl⟩ :=
          soleQueue_of_single stages single reaches.queue reaches.known
            reaches.target
        exact
          ⟨rfl, upstream, sole,
            (publishTo_eq_singleton_iff stages order suffixed isLive
              sole).mp reaches.alone⟩
      · rintro ⟨_, upstream, sole, alone⟩
        have single := filter_of_soleQueue stages sole
        refine
          ⟨⟨edgeRabbit upstream (exchangeTypeFor tasks upstream)
              (queueName upstream command.taskId),
            dispatchEnvelope command document⟩,
            some (dispatchedEvent command),
            queueName upstream command.taskId,
            edgeQueue (upstream, command.taskId), ?_, ?_⟩
        · rw [single]
          rfl
        · refine ⟨rfl, sole.own, rfl, ?_, ?_⟩
          · exact
              (publishTo_eq_singleton_iff stages order suffixed isLive
                sole).mpr alone
          · exact
              forwards_of_soleQueue stages sole command document

/-- The tasks `b`, `c`, `d` and `e` follow one another, and `d` also waits
for `a`. -/
def joiningTasks : List Task :=
  [{ id := "a" }, dependent "b" ["a"], dependent "c" ["b"],
    dependent "d" ["a", "c"], dependent "e" ["d"]]

def joiningConfig : FinalConfig :=
  (parseGraph .ofDedup .ofDedup examplePipeline
    joiningTasks).toOption.get (by decide +kernel)

theorem parseGraph_joining :
    parseGraph .ofDedup .ofDedup examplePipeline joiningTasks =
      .ok joiningConfig :=
  accepted_of_isSome (by decide +kernel)

def joiningRun : LaunchedRun joiningConfig where
  id := ⟨"7", by decide, List.all_eq_true.mp (by decide)⟩
  fresh := by decide +kernel

def dispatchOf (taskId : String) : DispatchTaskCommand where
  username := "alice"
  pipelineId := "0"
  pipelineRunId := joiningRun.id
  taskId := taskId
  newAgentId := "agent"
  newService := "service"

def joiningServices : DispatchServices where
  readTaskOutput := some fun _ _ _ => some [("payload", .null)]
  getFinalConfig := some fun _ _ => some joiningConfig
  messageBus := some fun _ => true

theorem chained_task_is_dispatched :
    ReachesTask joiningConfig .ofDedup true [joiningRun] joiningRun
      (dispatchOf "c").taskId
      (handleDispatchTask joiningServices (dispatchOf "c")) := by
  have sole : SoleQueue joiningConfig joiningTasks "c" "b" :=
    ⟨by decide +kernel, by decide +kernel, by decide +kernel⟩
  have plain : ¬ EndsInSpace "c" := by
    rintro ⟨last, isLast, space⟩
    obtain rfl : 'c' = last := Option.some.inj isLast
    revert space
    decide
  exact
    (dispatch_reaches_iff parseGraph_joining .ofDedup true
      List.mem_cons_self rfl rfl).mpr
      ⟨rfl, "b", sole, Or.inl ⟨by decide +kernel, plain⟩⟩

/-- Both queues of the joining task get a message, and the consumer keeps
waiting for the real upstream tasks. -/
theorem joining_task_is_not_dispatched :
    ∃ outcome,
      handleDispatchTask joiningServices (dispatchOf "d") = .ok outcome ∧
        outcome.published.length = 2 ∧
        (∀ dispatched ∈ outcome.published,
          (defaultHandler (consumerConfig joiningConfig "" "") .empty
            ⟨some "d", dispatched.message⟩).2.isNone = true) ∧
        ¬ ReachesTask joiningConfig .ofDedup true [joiningRun] joiningRun
          "d" (handleDispatchTask joiningServices (dispatchOf "d")) := by
  have published :
      ((handleDispatchTask joiningServices
        (dispatchOf "d")).toOption.map fun outcome =>
          (decide (outcome.published.length = 2),
            outcome.published.all fun dispatched =>
              (defaultHandler (consumerConfig joiningConfig "" "") .empty
                ⟨some "d", dispatched.message⟩).2.isNone)) =
        some (true, true) := by
    decide +kernel
  obtain ⟨outcome, computed, shape⟩ := Option.map_eq_some_iff.mp published
  rw [toOption_eq_some] at computed
  rw [Prod.mk.injEq, decide_eq_true_eq, List.all_eq_true] at shape
  refine ⟨outcome, computed, shape.1, shape.2, ?_⟩
  rintro ⟨dispatched, event, name, info, one, _⟩
  rw [computed] at one
  have two := shape.1
  rw [Except.ok.inj one] at two
  cases two

end Agentcy.Consumer
