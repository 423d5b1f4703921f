import Agentcy.Broker.CopiesPerEdge

/-!
# The manifests of a pipeline

`PipelineGenerator` makes the exchanges, the queue groups and the bindings of
a pipeline from its final configuration, with the entry point in front.  The
parser has put the entry point in the configuration already.
-/

namespace Agentcy.Broker

open Agentcy.Library
open Agentcy.Parser

structure ExchangeManifest where
  name : String
  vhost : String
  exchangeType : String
  durable : Bool := true
  arguments : Fields := []

structure QueueManifest where
  name : String
  vhost : String
  queueType : String := "queue"
  durable : Bool := true
  arguments : Fields := []

/-- A queue with its dead letter exchange and queue. -/
structure QueueGroup where
  name : String
  dlx : Option ExchangeManifest
  dlq : Option QueueManifest
  queue : QueueManifest

structure BindingManifest where
  name : String
  vhost : String
  source : String
  destination : String
  destinationType : String := "queue"
  routingKey : String
  arguments : Option Fields := none

structure Manifests where
  exchanges : List ExchangeManifest
  queues : List QueueGroup
  bindings : List BindingManifest

/-- The fields of the pipeline that the generator reads besides the final
configuration. -/
structure PipelineMeta where
  vhost : String
  messageTtl : Option Int := none

section Generator

variable (pipeline : PipelineMeta)

def generateExchanges
    (suggestions : OrderedMap String ExchangeSuggestion) :
    List ExchangeManifest :=
  suggestions.entries.map fun entry => {
    name := exchangeName entry.1
    vhost := pipeline.vhost
    exchangeType := entry.2.exchangeType }

def dlxName (queueName : String) : String :=
  "dlx_" ++ queueName

def dlqName (queueName : String) : String :=
  queueName ++ "_dlq"

def queueArguments (queueName : String) : Fields :=
  let deadLetter : Fields :=
    [("x-dead-letter-exchange", .str (dlxName queueName))]
  match pipeline.messageTtl with
  | some ttl =>
      if ttl = 0 then deadLetter
      else deadLetter ++ [("x-message-ttl", .int ttl)]
  | none => deadLetter

def generateQueue (info : QueueInfo) : QueueGroup where
  name := info.queueName
  dlx := some {
    name := dlxName info.queueName
    vhost := pipeline.vhost
    exchangeType := "fanout" }
  dlq := some {
    name := dlqName info.queueName
    vhost := pipeline.vhost }
  queue := {
    name := info.queueName
    vhost := pipeline.vhost
    arguments := queueArguments pipeline info.queueName }

def generateQueues (queues : OrderedMap String QueueInfo) :
    List QueueGroup :=
  queues.values.map (generateQueue pipeline)

/-- The binding of one broker entry; `config['rabbitmq']` and its queue must
be there. -/
def generateBinding
    (fanInMetadata : OrderedMap String FanInMetadata)
    (config : RabbitConfig) : Except PyError BindingManifest :=
  match config.rabbitmq with
  | none => .error .typeError
  | some rabbitmq =>
      match rabbitmq.queue with
      | none => .error .keyError
      | some queue =>
          let fanIn := fanInMetadata.get? config.taskId
          .ok {
            name := "binding_" ++ config.taskId ++ "_" ++ queue
            vhost := pipeline.vhost
            source := rabbitmq.exchange
            destination := queue
            routingKey :=
              if fanIn.isSome then "" else rabbitmq.routingKey.getD ""
            arguments := fanIn.map fun metadata =>
              [("correlation_id", .str metadata.correlationId),
                ("timeout", .int metadata.timeout)] }

/-- The binding between the two dead letter objects of a group. -/
def dlxBinding (group : QueueGroup) : Option BindingManifest :=
  match group.dlx, group.dlq with
  | some dlx, some dlq => some {
      name := "binding_" ++ dlx.name ++ "_to_" ++ dlq.name
      vhost := dlx.vhost
      source := dlx.name
      destination := dlq.name
      routingKey := "" }
  | _, _ => none

def generateBindings
    (configs : List RabbitConfig)
    (fanInMetadata : OrderedMap String FanInMetadata)
    (groups : List QueueGroup) : Except PyError (List BindingManifest) := do
  let bindings ←
    configs.mapM (generateBinding pipeline fanInMetadata)
  return bindings ++ groups.filterMap dlxBinding

def entryExchangeManifest (pipelineId : Uuid) : ExchangeManifest where
  name := entryExchangeName pipelineId
  vhost := pipeline.vhost
  exchangeType := "direct"

/-- The entry queue, without dead letter objects. -/
def entryQueueGroup (pipelineId : Uuid) : QueueGroup where
  name := entryQueueName pipelineId
  dlx := none
  dlq := none
  queue := {
    name := entryQueueName pipelineId
    vhost := pipeline.vhost }

def entryBinding (pipelineId : Uuid) : BindingManifest where
  name := "binding_entry_to_queue_" ++ pipelineId.text
  vhost := pipeline.vhost
  source := entryExchangeName pipelineId
  destination := entryQueueName pipelineId
  routingKey := "start"

/-- `generate_rabbitmq_config`, up to the rendering. -/
def generateRabbitmqConfig (pipelineId : Uuid) (config : FinalConfig) :
    Except PyError Manifests := do
  let groups := generateQueues pipeline config.queues
  let bindings ←
    generateBindings pipeline config.rabbitmqConfigs config.fanInMetadata
      groups
  return {
    exchanges := entryExchangeManifest pipeline pipelineId ::
      generateExchanges pipeline config.exchangeSuggestions
    queues := entryQueueGroup pipeline pipelineId :: groups
    bindings := entryBinding pipeline pipelineId :: bindings }

end Generator

/-- The queues that a group declares. -/
def QueueGroup.declared (group : QueueGroup) : List QueueManifest :=
  group.queue :: group.dlq.toList

namespace Manifests

/-- The names of the exchanges, once for each declaration. -/
def exchangeNames (manifests : Manifests) : List String :=
  manifests.exchanges.map ExchangeManifest.name ++
    manifests.queues.filterMap fun group =>
      group.dlx.map ExchangeManifest.name

def queueNames (manifests : Manifests) : List String :=
  (manifests.queues.flatMap QueueGroup.declared).map QueueManifest.name

/-- Every binding joins an exchange and a queue that are declared. -/
def BindingsDeclared (manifests : Manifests) : Prop :=
  ∀ binding ∈ manifests.bindings,
    binding.source ∈ manifests.exchangeNames ∧
      binding.destination ∈ manifests.queueNames

/-- Every name is declared once, and so with one set of arguments, and the
bindings are between declared objects. -/
structure WellFormed (manifests : Manifests) : Prop where
  exchangesOnce : manifests.exchangeNames.Nodup
  queuesOnce : manifests.queueNames.Nodup
  bindingsDeclared : manifests.BindingsDeclared

end Manifests

/-! ## Broker entries and the objects they name -/

/-- The broker entry names one of the exchanges and one of the queues. -/
def Joins (exchanges queues : List String) (config : RabbitConfig) :
    Prop :=
  ∃ rabbit queue, config.rabbitmq = some rabbit ∧
    rabbit.queue = some queue ∧ rabbit.exchange ∈ exchanges ∧
      queue ∈ queues

theorem joins_of_prepared
    {suggestions : OrderedMap String ExchangeSuggestion}
    {outputs : OrderedMap String (List String)}
    {endTasks : List String} {queues : List (String × QueueInfo)}
    {configs : List RabbitConfig}
    (prepared : prepareQueues suggestions outputs endTasks queues =
      .ok configs)
    {exchanges names : List String}
    (suggested : ∀ taskId, (suggestions.get? taskId).isSome →
      exchangeName taskId ∈ exchanges)
    (named : ∀ entry ∈ queues,
      entry.1 ∈ names ∧ entry.2.queueName ∈ names) :
    ∀ config ∈ configs, Joins exchanges names config := by
  induction queues generalizing endTasks configs with
  | nil =>
      cases prepared
      intro config member
      cases member
  | cons entry rest inductionHypothesis =>
      rw [prepareQueues, bind_eq_ok] at prepared
      obtain ⟨⟨own, processed⟩, here, prepared⟩ := prepared
      rw [bind_eq_ok] at prepared
      obtain ⟨later, restPrepared, prepared⟩ := prepared
      rw [pure_eq_ok] at prepared
      have laterJoins :=
        inductionHypothesis restPrepared fun other member =>
          named other (List.mem_cons_of_mem _ member)
      obtain ⟨keyNamed, queueNamed⟩ := named entry List.mem_cons_self
      have ownJoins : ∀ config ∈ own, Joins exchanges names config := by
        unfold prepareQueue at here
        split at here
        · cases here
        · rename_i fromTask _
          split at here
          · cases here
          · rename_i suggestion found
            have source := suggested fromTask (by rw [found]; rfl)
            have edgeJoins :
                Joins exchanges names
                  ⟨fromTask, edgeRabbit fromTask
                    suggestion.exchangeType entry.1⟩ :=
              ⟨_, _, rfl, rfl, source, keyNamed⟩
            dsimp only at here
            split at here
            · split at here
              · cases here
              · rename_i ending foundEnd
                have target :=
                  suggested entry.2.toTask (by rw [foundEnd]; rfl)
                cases here
                intro config member
                rcases List.mem_cons.mp member with rfl | member
                · exact edgeJoins
                · rw [List.mem_singleton.mp member]
                  exact ⟨_, _, rfl, rfl, target, queueNamed⟩
            · cases here
              intro config member
              rw [List.mem_singleton.mp member]
              exact edgeJoins
      intro config member
      rw [← prepared] at member
      rcases List.mem_append.mp member with isOwn | isLater
      · exact ownJoins config isOwn
      · exact laterJoins config isLater

/-- The suggestions of an accepted pipeline, before the entry is added, with
the broker entries prepared from them. -/
theorem prepared_of_parseGraph
    {keyOrder : SetOrder Json.Key} {order : SetOrder String}
    {pipelineId : Uuid} {tasks : List Parser.Task} {config : FinalConfig}
    (accepted : parseGraph keyOrder order pipelineId tasks = .ok config) :
    ∃ suggestions taskDict outputs configs,
      prepareRabbitmqConfigs suggestions (identifyQueues taskDict)
          outputs = .ok configs ∧
      config.rabbitmqConfigs =
        configs ++ [⟨"entry", entryRabbit pipelineId⟩] ∧
      config.queues =
        (identifyQueues taskDict).set (entryQueueName pipelineId)
          (entryQueue pipelineId) ∧
      ∃ entrySuggestion,
        config.exchangeSuggestions =
          suggestions.set (entryExchangeName pipelineId)
            entrySuggestion := by
  obtain ⟨stages⟩ := stages_of_parseGraph accepted
  exact
    ⟨stages.suggestions, _, stages.outputs, stages.configs,
      stages.prepared, stages.configs_eq, stages.queues_eq,
      stages.suggestions_eq⟩

section Collected

variable (pipeline : PipelineMeta) (pipelineId : Uuid)
variable (config : FinalConfig) (bindings : List BindingManifest)

/-- The manifests with these bindings for the broker entries. -/
def collected : Manifests where
  exchanges := entryExchangeManifest pipeline pipelineId ::
    generateExchanges pipeline config.exchangeSuggestions
  queues := entryQueueGroup pipeline pipelineId ::
    generateQueues pipeline config.queues
  bindings := entryBinding pipeline pipelineId ::
    (bindings ++
      (generateQueues pipeline config.queues).filterMap dlxBinding)

theorem generateRabbitmqConfig_of_read
    (read : config.rabbitmqConfigs.mapM
        (generateBinding pipeline config.fanInMetadata) =
      .ok bindings) :
    generateRabbitmqConfig pipeline pipelineId config =
      .ok (collected pipeline pipelineId config bindings) := by
  unfold generateRabbitmqConfig generateBindings
  rw [read]
  rfl

theorem exchangeNames_collected :
    (collected pipeline pipelineId config bindings).exchangeNames =
      entryExchangeName pipelineId ::
        (config.exchangeSuggestions.keys.map exchangeName ++
          (config.queues.values.map QueueInfo.queueName).map dlxName) := by
  simp only [collected, Manifests.exchangeNames, generateExchanges,
    generateQueues, entryQueueGroup, OrderedMap.keys, List.map_cons,
    List.map_map, List.filterMap_cons, Option.map_none,
    List.filterMap_map, List.cons_append]
  congr 2
  rw [← List.filterMap_eq_map]
  rfl

/-- The queues of a group that the generator makes of the configuration. -/
theorem mem_queueNames_collected
    {info : QueueInfo} (isInfo : info ∈ config.queues.values)
    {queue : QueueManifest}
    (isQueue : queue ∈ (generateQueue pipeline info).declared) :
    queue.name ∈
      ((generateQueues pipeline config.queues).flatMap
        QueueGroup.declared).map QueueManifest.name := by
  refine List.mem_map.mpr ⟨queue, ?_, rfl⟩
  exact
    List.mem_flatMap.mpr
      ⟨generateQueue pipeline info,
        List.mem_map.mpr ⟨info, isInfo, rfl⟩, isQueue⟩

/-- The bindings of the dead letter objects are between these. -/
theorem dlxBindings_declared
    {binding : BindingManifest}
    (member : binding ∈
      (generateQueues pipeline config.queues).filterMap dlxBinding) :
    binding.source ∈
        (collected pipeline pipelineId config bindings).exchangeNames ∧
      binding.destination ∈
        (collected pipeline pipelineId config bindings).queueNames := by
  obtain ⟨group, isGroup, isBinding⟩ := List.mem_filterMap.mp member
  obtain ⟨info, isInfo, rfl⟩ := List.mem_map.mp isGroup
  obtain rfl := Option.some.inj isBinding
  constructor
  · rw [exchangeNames_collected]
    apply List.mem_cons_of_mem
    apply List.mem_append_right
    exact List.mem_map_of_mem (List.mem_map_of_mem isInfo)
  · apply List.mem_cons_of_mem
    have isDlq :=
      List.mem_cons_of_mem (generateQueue pipeline info).queue
        (List.mem_singleton_self
          ({ name := dlqName info.queueName
             vhost := pipeline.vhost } : QueueManifest))
    exact mem_queueNames_collected pipeline config isInfo isDlq

end Collected

section Accepted

variable
  {keyOrder : SetOrder Json.Key} {order : SetOrder String}
  {pipelineId : Uuid} {tasks : List Parser.Task} {config : FinalConfig}
  (accepted : parseGraph keyOrder order pipelineId tasks = .ok config)

include accepted

theorem queueName_eq_key
    {entry : String × QueueInfo}
    (member : entry ∈ config.queues.entries) :
    entry.2.queueName = entry.1 := by
  obtain ⟨parsing⟩ := parsing_of_parseGraph accepted
  rcases parsing.mem_queues member with isEdge | rfl
  · exact parsing.named isEdge
  · rfl

theorem queueNames_eq_keys :
    config.queues.values.map QueueInfo.queueName =
      config.queues.keys := by
  rw [OrderedMap.values, OrderedMap.keys, List.map_map]
  apply List.map_congr_left
  intro entry member
  exact queueName_eq_key accepted member

theorem entryQueue_mem :
    entryQueue pipelineId ∈ config.queues.values := by
  obtain ⟨parsing⟩ := parsing_of_parseGraph accepted
  rw [OrderedMap.values, parsing.queues_entries, List.map_append]
  exact List.mem_append_right _ List.mem_cons_self

theorem joins_of_accepted :
    ∀ item ∈ config.rabbitmqConfigs,
      Joins
        (entryExchangeName pipelineId ::
          config.exchangeSuggestions.keys.map exchangeName)
        config.queues.keys item := by
  obtain
    ⟨suggestions, taskDict, outputs, configs, prepared, configs_eq,
      queues_eq, _, suggestions_eq⟩ := prepared_of_parseGraph accepted
  have suggested : ∀ taskId, (suggestions.get? taskId).isSome →
      exchangeName taskId ∈
        entryExchangeName pipelineId ::
          config.exchangeSuggestions.keys.map exchangeName := by
    intro taskId isSuggested
    apply List.mem_cons_of_mem
    apply List.mem_map_of_mem
    rw [suggestions_eq, OrderedMap.mem_keys_set]
    exact Or.inr ((OrderedMap.mem_keys_iff _ _).mpr isSuggested)
  have named : ∀ entry ∈ (identifyQueues taskDict).entries,
      entry.1 ∈ config.queues.keys ∧
        entry.2.queueName ∈ config.queues.keys := by
    intro entry member
    have isKey : entry.1 ∈ config.queues.keys := by
      rw [queues_eq, OrderedMap.mem_keys_set]
      exact Or.inr (List.mem_map_of_mem member)
    obtain ⟨edge, _, same⟩ :=
      List.mem_map.mp (OrderedMap.mem_entries_ofList member)
    have sameName : entry.2.queueName = entry.1 := by
      rw [← same]
      rfl
    exact ⟨isKey, sameName.symm ▸ isKey⟩
  intro item member
  rw [configs_eq] at member
  rcases List.mem_append.mp member with isEdge | isEntry
  · exact joins_of_prepared prepared suggested named item isEdge
  · rw [List.mem_singleton.mp isEntry]
    refine ⟨_, _, rfl, rfl, List.mem_cons_self, ?_⟩
    rw [queues_eq, OrderedMap.mem_keys_set]
    exact Or.inl rfl

/-- The exchanges of the three passes differ by their first letters. -/
theorem exchanges_once :
    (entryExchangeName pipelineId ::
      (config.exchangeSuggestions.keys.map exchangeName ++
        (config.queues.values.map QueueInfo.queueName).map
          dlxName)).Nodup := by
  have dlxInjective : Function.Injective dlxName := by
    intro first second same
    have lists := congrArg String.toList same
    simp only [dlxName, String.toList_append,
      List.append_cancel_left_eq] at lists
    exact String.ext lists
  rw [queueNames_eq_keys accepted, List.nodup_cons, List.nodup_append]
  refine ⟨?_, ?_, ?_, ?_⟩
  · intro member
    rcases List.mem_append.mp member with isExchange | isDlx
    · obtain ⟨taskId, _, same⟩ := List.mem_map.mp isExchange
      exact exchangeName_ne_entryExchangeName taskId pipelineId same
    · obtain ⟨name, _, same⟩ := List.mem_map.mp isDlx
      exact @append_ne_of_head "dlx_" "pipeline_entry_" 'd' 'p'
        (by decide) (by decide) (by decide) _ _ same
  · exact
      config.exchangeSuggestions.keysNodup.map fun _ _ =>
        exchangeName_inj
  · exact config.queues.keysNodup.map dlxInjective
  · intro exchange isExchange dlx isDlx same
    obtain ⟨taskId, _, rfl⟩ := List.mem_map.mp isExchange
    obtain ⟨name, _, rfl⟩ := List.mem_map.mp isDlx
    exact @append_ne_of_head "exchange_" "dlx_" 'e' 'd'
      (by decide) (by decide) (by decide) _ _ same

theorem mem_queueNames_of_key
    (pipeline : PipelineMeta) {name : String}
    (isKey : name ∈ config.queues.keys) :
    name ∈
      ((generateQueues pipeline config.queues).flatMap
        QueueGroup.declared).map QueueManifest.name := by
  rw [← queueNames_eq_keys accepted] at isKey
  obtain ⟨info, isInfo, rfl⟩ := List.mem_map.mp isKey
  exact
    mem_queueNames_collected pipeline config isInfo List.mem_cons_self

theorem bindings_declared
    (pipeline : PipelineMeta) {bindings : List BindingManifest}
    (joined : ∀ binding ∈ bindings,
      binding.source ∈ entryExchangeName pipelineId ::
          config.exchangeSuggestions.keys.map exchangeName ∧
        binding.destination ∈ config.queues.keys) :
    (collected pipeline pipelineId config bindings).BindingsDeclared := by
  intro binding member
  rcases List.mem_cons.mp member with rfl | member
  · exact ⟨List.mem_cons_self, List.mem_cons_self⟩
  · rcases List.mem_append.mp member with isTask | isDlx
    · obtain ⟨source, destination⟩ := joined binding isTask
      constructor
      · rw [exchangeNames_collected]
        rcases List.mem_cons.mp source with isEntry | isExchange
        · rw [isEntry]
          exact List.mem_cons_self
        · exact
            List.mem_cons_of_mem _ (List.mem_append_left _ isExchange)
      · exact
          List.mem_cons_of_mem _
            (mem_queueNames_of_key accepted pipeline destination)
    · exact
        dlxBindings_declared pipeline pipelineId config bindings isDlx

/-- The manifests of an accepted pipeline are never well formed: the entry
queue is declared without arguments, and once more as a queue of the
configuration.  The exchanges and the bindings are in order. -/
theorem entry_queue_declared_twice (pipeline : PipelineMeta) :
    ∃ manifests,
      generateRabbitmqConfig pipeline pipelineId config =
          .ok manifests ∧
        ¬ manifests.WellFormed ∧
        manifests.exchangeNames.Nodup ∧ manifests.BindingsDeclared := by
  have generated :
      ∀ item ∈ config.rabbitmqConfigs, ∃ binding,
        generateBinding pipeline config.fanInMetadata item =
            .ok binding ∧
          binding.source ∈ entryExchangeName pipelineId ::
            config.exchangeSuggestions.keys.map exchangeName ∧
          binding.destination ∈ config.queues.keys := by
    intro item member
    obtain ⟨rabbit, queue, isRabbit, isQueue, source, destination⟩ :=
      joins_of_accepted accepted item member
    unfold generateBinding
    rw [isRabbit]
    dsimp only
    rw [isQueue]
    exact ⟨_, rfl, source, destination⟩
  obtain ⟨bindings, read, joined⟩ := mapM_of_all_ok generated
  refine
    ⟨collected pipeline pipelineId config bindings,
      generateRabbitmqConfig_of_read pipeline pipelineId config bindings
        read, ?_, ?_, bindings_declared accepted pipeline joined⟩
  · intro wellFormed
    have again :=
      mem_queueNames_collected pipeline config
        (entryQueue_mem accepted) List.mem_cons_self
    exact (List.nodup_cons.mp wellFormed.queuesOnce).1 again
  · rw [exchangeNames_collected]
    exact exchanges_once accepted

end Accepted

/-! ## The pipeline with a fork -/

/-- The general statement at the fork. -/
theorem fork_manifests_ill_formed :
    ∃ manifests,
      generateRabbitmqConfig { vhost := "/" } pipelineOne forkConfig =
          .ok manifests ∧
        ¬ manifests.WellFormed ∧
        manifests.exchangeNames.Nodup ∧ manifests.BindingsDeclared :=
  entry_queue_declared_twice parseGraph_fork { vhost := "/" }

/-- At the fork the entry queue is the first queue declared, and comes again
with the queues of the configuration. -/
theorem fork_entry_queue_redeclared :
    parseGraph firstOrder firstOrder pipelineOne forkTasks =
        .ok forkConfig ∧
      ∃ manifests,
        generateRabbitmqConfig { vhost := "/" } pipelineOne forkConfig =
            .ok manifests ∧
          ¬ manifests.WellFormed := by
  have readable :
      (forkConfig.rabbitmqConfigs.mapM
        (generateBinding { vhost := "/" }
          forkConfig.fanInMetadata)).toOption.isSome = true := by
    decide +kernel
  refine ⟨parseGraph_fork, ?_⟩
  cases read : forkConfig.rabbitmqConfigs.mapM
      (generateBinding { vhost := "/" } forkConfig.fanInMetadata) with
  | error message =>
      rw [read] at readable
      cases readable
  | ok bindings =>
      refine
        ⟨collected { vhost := "/" } pipelineOne forkConfig bindings,
          generateRabbitmqConfig_of_read _ _ _ _ read, ?_⟩
      intro wellFormed
      have again :
          entryQueueName pipelineOne ∈
            ((generateQueues { vhost := "/" } forkConfig.queues).flatMap
              QueueGroup.declared).map QueueManifest.name := by
        decide +kernel
      exact (List.nodup_cons.mp wellFormed.queuesOnce).1 again

end Agentcy.Broker
