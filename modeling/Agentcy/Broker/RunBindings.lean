import Agentcy.Broker.Routing
import Agentcy.Parser.Parsing

/-!
# The bindings of a run

When a run starts, every agent declares the queues of all edges for it, and
the consumer manager of each service declares and binds the queues of its
tasks.  Both read exchange, key and type from the broker entries of the final
configuration, each in its own way.
-/

namespace Agentcy.Broker

open Agentcy.Library
open Agentcy.Parser
open PyText

/-- A run of a pipeline.  Its identifier is drawn at its launch, when the
queues have their names, so that none of them ends in it. -/
structure LaunchedRun (config : FinalConfig) where
  id : Uuid
  fresh : ∀ name ∈ config.queues.keys, endsWith name id.tail = false
  deriving DecidableEq

section Declarations

variable (config : FinalConfig)

/-- `rb_index`: the entries by task and queue, of which the last one stays. -/
def rbIndex (configs : List RabbitConfig) :
    OrderedMap (String × String) Rabbit :=
  .ofList (configs.filterMap fun item =>
    item.rabbitmq.bind fun rabbit =>
      match rabbit.queue with
      | none => none
      | some queue =>
          if item.taskId = "" ∨ queue = "" then none
          else some ((item.taskId, queue), rabbit))

/-- The binding key of a run queue. -/
def topologyKey (runId : Uuid) (baseQueue : String) (rabbit : Rabbit) :
    String :=
  match rabbit.typeName with
  | "fanout" => rabbit.routingKey.getD ""
  | "topic" => runId.dotted baseQueue
  | _ =>
      runId.dotted
        ((rabbit.routingKey.filter (· ≠ "")).getD baseQueue)

/-- One round of the loop over the queues, which passes over those whose ends
are missing or empty. -/
def topologyBinding? (runId : Uuid) (entry : String × QueueInfo) :
    Option Binding :=
  match entry.2.fromTask with
  | none => none
  | some fromTask =>
      if fromTask = "" ∨ entry.2.toTask = "" then none
      else
        ((rbIndex config.rabbitmqConfigs).get? (fromTask, entry.1)).map
          fun rabbit =>
            { exchange := rabbit.exchange
              queue := runId.dotted entry.1
              routingKey := topologyKey runId entry.1 rabbit }

def ensureRunTopology (runId : Uuid) : List Binding :=
  config.queues.entries.filterMap (topologyBinding? config runId)

def getTasksForServiceName (serviceName : String) : List String :=
  (config.taskDict.entries.filter fun entry =>
    decide (entry.2.availableServices = serviceName)).map Prod.fst

def getSubscribeQueuesForTask (taskId : String) : List String :=
  (config.queues.entries.filter fun entry =>
    decide (entry.2.toTask = taskId)).map Prod.fst

/-- A queue in the configuration of a consumer manager. -/
structure ConsumerQueue extends QueueInfo where
  perRun : Bool := false

/-- The part of `_build_final_config_for_service` that decides what the
consumers declare. -/
structure ServiceConfig where
  queues : OrderedMap String ConsumerQueue
  rabbitmqConfigs : List RabbitConfig

/-- A name with the suffix of the run, unless it ends in it. -/
def runName (runId : Uuid) (name : String) : String :=
  if endsWith name runId.tail then name else runId.dotted name

/-- The broker entry of a run: `queueNames` are those that got a suffix. -/
def suffixedRabbit
    (runId : Uuid) (queueNames : List String) (rabbit : Rabbit) : Rabbit :=
  let oldName := rabbit.queue.getD ""
  { rabbit with
    queue := some
      (if oldName ∈ queueNames then runName runId oldName else oldName)
    routingKey := some (runName runId
      ((rabbit.routingKey.filter (· ≠ "")).getD oldName))
    perRun := true }

variable (order : SetOrder String) (suffixed : Bool)

/-- The names of the queues that lead to the tasks of a service. -/
def serviceQueueNames (serviceName : String) : List String :=
  order.visit ((getTasksForServiceName config serviceName).flatMap
    (getSubscribeQueuesForTask config))

/-- The two parts that `generate_final_config_for` cuts out. -/
def queuesSubset (queueNames : List String) : List (String × QueueInfo) :=
  queueNames.filterMap fun name =>
    (config.queues.get? name).map fun info => (name, info)

def rabbitmqSubset (queueNames : List String) : List RabbitConfig :=
  config.rabbitmqConfigs.filter fun item =>
    queueNames.any fun name =>
      decide (item.rabbitmq.bind Rabbit.queue = some name)

def buildFinalConfigForService (serviceName : String) (runId : Uuid) :
    ServiceConfig :=
  let queueNames := serviceQueueNames config order serviceName
  if suffixed then
    { queues := .ofList ((queuesSubset config queueNames).map fun entry =>
        (runName runId entry.1,
          { entry.2 with
            queueName := runName runId entry.1
            perRun := true }))
      rabbitmqConfigs :=
        (rabbitmqSubset config queueNames).map fun item =>
          ⟨item.taskId,
            item.rabbitmq.map (suffixedRabbit runId queueNames)⟩ }
  else
    { queues := .ofList ((queuesSubset config queueNames).map fun entry =>
        (entry.1, { entry.2 with perRun := false }))
      rabbitmqConfigs := rabbitmqSubset config queueNames }

/-- The key that `_setup_exchange_binding` binds a queue with. -/
def consumerKey
    (runId : Uuid) (queue : ConsumerQueue) (rabbit : Rabbit) : String :=
  match rabbit.routingKey.filter (· ≠ "") with
  | some key => key
  | none =>
      let base := (rabbit.queue.filter (· ≠ "")).getD queue.queueName
      if queue.perRun then runId.dotted base else base

/-- `_setup_exchange_binding`: the first entry for the queue is used, and a
queue without one stays unbound. -/
def consumerBinding?
    (runId : Uuid) (service : ServiceConfig)
    (entry : String × ConsumerQueue) : Option Binding :=
  (service.rabbitmqConfigs.find? fun item =>
      decide (item.rabbitmq.bind Rabbit.queue =
        some entry.2.queueName)).bind fun item =>
    item.rabbitmq.map fun rabbit =>
      { exchange := rabbit.exchange
        queue := entry.1
        routingKey := consumerKey runId entry.2 rabbit }

/-- The queues that the consumers of a service take messages from. -/
def consumedQueues (serviceName : String) (runId : Uuid) : List String :=
  (buildFinalConfigForService config order suffixed serviceName
    runId).queues.keys

def consumerBindings (serviceName : String) (runId : Uuid) :
    List Binding :=
  let service :=
    buildFinalConfigForService config order suffixed serviceName runId
  service.queues.entries.filterMap (consumerBinding? runId service)

/-- The services that have a task in the pipeline. -/
def services : List String :=
  (config.taskDict.values.map fun task => task.availableServices).dedup

/-- Everything that is declared for a run. -/
def runBindings (runId : Uuid) : List Binding :=
  ensureRunTopology config runId ++
    (services config).flatMap fun serviceName =>
      consumerBindings config order suffixed serviceName runId

end Declarations

end Agentcy.Broker
