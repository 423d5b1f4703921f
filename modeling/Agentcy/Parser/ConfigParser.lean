import Agentcy.Broker.RabbitConfig
import Agentcy.Library.DottedNames
import Agentcy.Library.Kahn
import Agentcy.Library.PyJson

/-!
# The configuration parser

`ConfigParser.parse_graph` turns the tasks of a DAG into the final
configuration: it reads the dependencies, rejects cycles and disconnected
tasks, and gives every dependency a queue and an entry for the broker.
-/

namespace Agentcy.Parser

open Agentcy.Library
open Agentcy.Broker

/-- A task as `DAGConfig.model_dump` writes it, with the keys that the parser
reads. -/
structure Task where
  id : String
  name : String := ""
  availableServices : String := ""
  inputs : Option Fields := some []

/-- A task after `dependencies` and `inferred_outputs` were written into it. -/
structure InferredTask extends Task where
  dependencies : List String
  inferredOutputs : List String

/-- The errors of the parser: five kinds of `ValueError`, two that are answered
with status 400, and the errors of the interpreter. -/
inductive ParseError where
  | unknownDependency (taskId : String) (dependency : Json.Key)
  | circularDependency
  | noTasks
  | noExchangeSuggestion (fromTask : Option String)
  | fanInStepNotFound (fanInStep : String)
  | soloNodes (taskIds : List String)
  | disconnectedTasks (taskIds : List String)
  | python (error : PyError)

def raising {α : Type} (computed : Except PyError α) :
    Except ParseError α :=
  computed.mapError ParseError.python

/-- The order in which Python visits a set, which is left open: every element
once. -/
structure SetOrder (α : Type) where
  visit : List α → List α
  nodup : ∀ items, (visit items).Nodup
  mem_visit : ∀ items item, item ∈ visit items ↔ item ∈ items

/-- The edges from dependencies to tasks, task by task. -/
def edges (tasks : List InferredTask) : List (String × String) :=
  tasks.flatMap fun task =>
    task.dependencies.map fun dependency => (dependency, task.id)

section Inference

variable (keyOrder : SetOrder Json.Key) (order : SetOrder String)

/-- `task.get('inputs', {}).get('dependencies', [])`, as it is iterated. -/
def Task.dependencyItems (task : Task) : Except PyError (List Json) :=
  match task.inputs with
  | none => .error .attributeError
  | some inputs =>
      ((OrderedMap.lookupEntries "dependencies" inputs).getD
        (.list [])).iterate

/-- The loop over the dependencies of one task, each of which must name a
task. -/
def checkDependencies (taskIds : List String) (taskId : String) :
    List Json.Key → Except ParseError (List String)
  | [] => .ok []
  | .str dependency :: rest =>
      if dependency ∈ taskIds then do
        let later ← checkDependencies taskIds taskId rest
        return dependency :: later
      else
        .error (.unknownDependency taskId (.str dependency))
  | key :: _ => .error (.unknownDependency taskId key)

def taskDependencies (taskIds : List String) (task : Task) :
    Except ParseError (List String) := do
  let items ← raising task.dependencyItems
  let keys ← raising (items.mapM Json.hash)
  checkDependencies taskIds task.id (keyOrder.visit keys)

/-- The first loop: every task with its dependencies. -/
def readDependencies (taskIds : List String) :
    List Task → Except ParseError (List (Task × List String))
  | [] => .ok []
  | task :: rest => do
      let dependencies ← taskDependencies keyOrder taskIds task
      let later ← readDependencies taskIds rest
      return (task, dependencies) :: later

/-- `self.task_outputs`, the tasks that depend on each task: written for the
dependencies as they are met, and then for every task. -/
def taskOutputs (pairs : List (Task × List String)) :
    OrderedMap String (List String) :=
  let met := OrderedMap.gather
    (pairs.flatMap fun pair => pair.2.map fun dependency =>
      (dependency, pair.1.id))
  pairs.foldl
    (fun outputs pair =>
      if outputs.contains pair.1.id then outputs
      else outputs.set pair.1.id [])
    met

def inferDependenciesAndOutputs (tasks : List Task) :
    Except ParseError
      (List InferredTask × OrderedMap String (List String)) := do
  let pairs ← readDependencies keyOrder (tasks.map Task.id) tasks
  let outputs := taskOutputs pairs
  return (pairs.map fun pair =>
    { pair.1 with
      dependencies := pair.2
      inferredOutputs :=
        order.visit ((outputs.get? pair.1.id).getD []) }, outputs)

end Inference

/-- The keys of `in_degree`, in the order of their first task. -/
def nodeIds (tasks : List InferredTask) : List String :=
  ((tasks.map fun task => task.id).reverse.dedup).reverse

/-- The loop that both `detect_cycles_kahn` and `parse_dag` run; the tasks in
the order in which they leave the queue. -/
def kahnOrder (tasks : List InferredTask) : List String :=
  let known := edges tasks
  (Kahn.loop .fifo (Kahn.outgoing known) (nodeIds tasks).length
    { queue := (nodeIds tasks).filter fun node =>
        (Kahn.incoming known node : Int) == 0
      indegree := fun node => Kahn.incoming known node }).served

def detectCyclesKahn (tasks : List InferredTask) :
    Except ParseError Unit :=
  if (kahnOrder tasks).length ≠ tasks.length then
    .error .circularDependency
  else
    .ok ()

/-- `parse_dag`: the execution order and the graph of dependents. -/
def parseDag (tasks : List InferredTask) :
    List String × OrderedMap String (List String) :=
  (kahnOrder tasks, OrderedMap.gather (edges tasks))

def validateNoSoloNodes
    (tasks : List InferredTask)
    (taskGraph : OrderedMap String (List String)) :
    Except ParseError Unit :=
  let soloNodes := tasks.filter fun task =>
    task.dependencies.isEmpty &&
      ((taskGraph.get? task.id).getD []).isEmpty
  if soloNodes.isEmpty then .ok ()
  else .error (.soloNodes (soloNodes.map fun task => task.id))

/-- The search from the first task.  Looking a task up in the default
dictionary writes it there. -/
def visitReachable :
    Nat → OrderedMap String (List String) → List String → List String →
      List String × OrderedMap String (List String)
  | 0, taskGraph, visited, _ => (visited, taskGraph)
  | _ + 1, taskGraph, visited, [] => (visited, taskGraph)
  | fuel + 1, taskGraph, visited, current :: queue =>
      if current ∈ visited then
        visitReachable fuel taskGraph visited queue
      else
        let dependents := (taskGraph.get? current).getD []
        visitReachable fuel (taskGraph.set current dependents)
          (visited ++ [current]) (queue ++ dependents)

/-- `validate_single_connected_dag`, with the graph it leaves.  A visit puts
the dependents of a task into the queue once, so that the queue is empty after
one step more than there are edges. -/
def validateSingleConnectedDag
    (tasks : List InferredTask)
    (taskGraph : OrderedMap String (List String)) :
    Except ParseError (OrderedMap String (List String)) :=
  match tasks with
  | [] => .error .noTasks
  | first :: _ =>
      let (visited, searched) :=
        visitReachable ((edges tasks).length + 1) taskGraph [] [first.id]
      let disconnected := (nodeIds tasks).filter (· ∉ visited)
      if disconnected.isEmpty && visited.all (· ∈ nodeIds tasks) then
        .ok searched
      else
        .error (.disconnectedTasks disconnected)

/-- The search by levels: a task gets its level when its last dependency is
taken. -/
def assignLevels (dependents : String → List String) :
    Nat → OrderedMap String Nat → List String → (String → Int) →
      OrderedMap String Nat
  | 0, taskLevels, _, _ => taskLevels
  | _ + 1, taskLevels, [], _ => taskLevels
  | fuel + 1, taskLevels, current :: queue, indegree =>
      let level := (taskLevels.get? current).getD 0
      let relaxed := Kahn.relax (dependents current) indegree queue
      let assigned := (Kahn.reached (dependents current) indegree).foldl
        (fun levels neighbor => levels.set neighbor (level + 1)) taskLevels
      assignLevels dependents fuel assigned relaxed.2 relaxed.1

def findParallelTasks
    (executionOrder : List String)
    (taskGraph : OrderedMap String (List String)) :
    List (List String) :=
  let indegree : String → Int := fun task =>
    (taskGraph.values.flatten.count task : Nat)
  let initialTasks := executionOrder.filter fun task => indegree task == 0
  let taskLevels :=
    assignLevels (fun task => (taskGraph.get? task).getD [])
      executionOrder.length
      (initialTasks.foldl (fun levels task => levels.set task 0) .empty)
      initialTasks indegree
  let levels := OrderedMap.gather
    (taskLevels.entries.map fun entry => (entry.2, entry.1))
  levels.values.filter fun tasksInLevel => 1 < tasksInLevel.length

/-! ## Exchanges, publishers and queues -/

structure ExchangeSuggestion where
  exchangeType : String
  reason : String
  taskName : String

structure Publisher where
  taskName : String
  publications : List String

structure Subscriber where
  taskName : String
  subscriptions : List String

structure QueueInfo where
  fromTask : Option String
  toTask : String
  queueName : String
  deriving DecidableEq

structure FanInMetadata where
  requiredSteps : List String
  correlationId : String
  timeout : Nat

def identifyFanInSteps (taskDict : OrderedMap String InferredTask) :
    List String :=
  (taskDict.entries.filter fun entry =>
    1 < entry.2.dependencies.length).map Prod.fst

/-- The exchange type and its reason, by the number of dependents. -/
def suggestType (dependents : List String) : String × String :=
  if dependents.length = 1 then ("direct", "Single dependent task.")
  else if 1 < dependents.length then
    ("fanout", "Multiple dependent tasks (broadcast).")
  else ("direct", "No dependent tasks or end of chain.")

/-- The loop over the graph, whose tasks must be in the dictionary. -/
def suggestForGraph (taskDict : OrderedMap String InferredTask) :
    List (String × List String) → OrderedMap String ExchangeSuggestion →
      Except ParseError (OrderedMap String ExchangeSuggestion)
  | [], suggestions => .ok suggestions
  | (taskId, dependents) :: rest, suggestions =>
      match taskDict.get? taskId with
      | none => .error (.python .keyError)
      | some task =>
          let suggested := suggestType dependents
          suggestForGraph taskDict rest
            (suggestions.set taskId
              { exchangeType := suggested.1
                reason := suggested.2
                taskName := task.name })

/-- A fan-in step gets a fanout exchange, whatever its dependents are. -/
def suggestForFanIn
    (taskDict : OrderedMap String InferredTask)
    (suggestions : OrderedMap String ExchangeSuggestion)
    (fanInStep : String) : OrderedMap String ExchangeSuggestion :=
  suggestions.set fanInStep
    { exchangeType := "fanout"
      reason :=
        "Fan-in step requiring aggregation of multiple upstream steps."
      taskName :=
        match suggestions.get? fanInStep with
        | some suggestion => suggestion.taskName
        | none =>
            match taskDict.get? fanInStep with
            | some task => task.name
            | none => "" }

def suggestExchangeTypes
    (taskGraph : OrderedMap String (List String))
    (taskDict : OrderedMap String InferredTask)
    (fanInSteps : List String) :
    Except ParseError (OrderedMap String ExchangeSuggestion) := do
  let suggestions ← suggestForGraph taskDict taskGraph.entries .empty
  return fanInSteps.foldl (suggestForFanIn taskDict) suggestions

/-- `f"queue_{dep}_to_{task_id}"`. -/
def queueName (fromTask toTask : String) : String :=
  "queue_" ++ fromTask ++ "_to_" ++ toTask

def edgeQueue (edge : String × String) : QueueInfo where
  fromTask := some edge.1
  toTask := edge.2
  queueName := queueName edge.1 edge.2

/-- The queues of the edges.  Edges whose queues have one name share an entry,
which the last of them writes. -/
def identifyQueues (taskDict : OrderedMap String InferredTask) :
    OrderedMap String QueueInfo :=
  OrderedMap.ofList ((edges taskDict.values).map fun edge =>
    (queueName edge.1 edge.2, edgeQueue edge))

def identifyPublishersSubscribersQueues
    (taskGraph : OrderedMap String (List String))
    (taskDict : OrderedMap String InferredTask) :
    OrderedMap String Publisher × OrderedMap String Subscriber ×
      OrderedMap String QueueInfo :=
  let publishing := taskDict.entries.filterMap fun entry =>
    let dependents := (taskGraph.get? entry.1).getD []
    if dependents.isEmpty then none
    else some (entry.1, Publisher.mk entry.2.name dependents)
  let subscribing := taskDict.entries.filterMap fun entry =>
    if entry.2.dependencies.isEmpty then none
    else some
      (entry.1, Subscriber.mk entry.2.name entry.2.dependencies)
  (.ofList publishing, .ofList subscribing, identifyQueues taskDict)

/-- `f"exchange_{task_id}"`. -/
def exchangeName (taskId : String) : String :=
  "exchange_" ++ taskId

/-- The routing key of an edge: broadcast exchanges ignore it. -/
def edgeRoutingKey (exchangeType queueName : String) : String :=
  if exchangeType = "direct" then queueName
  else if exchangeType = "fanout" then ""
  else if exchangeType = "headers" then ""
  else queueName

def edgeRabbit (fromTask exchangeType queueName : String) : Rabbit where
  exchange := exchangeName fromTask
  exchangeType := some exchangeType
  queue := some queueName
  routingKey := some (edgeRoutingKey exchangeType queueName)

/-- The entry under which an end task publishes; nothing is bound to its
exchange. -/
def endRabbit (toTask exchangeType queueName : String) : Rabbit where
  exchange := exchangeName toTask
  exchangeType := some exchangeType
  queue := some queueName
  routingKey := some queueName

/-- The entries of one queue: that of its edge, and that of the task at its
end when nothing depends on it and it has none yet.  Without a suggestion for
the latter the code asks a set for a key. -/
def prepareQueue
    (suggestions : OrderedMap String ExchangeSuggestion)
    (outputs : OrderedMap String (List String))
    (endTasks : List String) (entry : String × QueueInfo) :
    Except ParseError (List RabbitConfig × List String) :=
  match entry.2.fromTask with
  | none => .error (.noExchangeSuggestion none)
  | some fromTask =>
      match suggestions.get? fromTask with
      | none => .error (.noExchangeSuggestion fromTask)
      | some suggestion =>
          let toTask := entry.2.toTask
          let edgeConfig : RabbitConfig :=
            ⟨fromTask, edgeRabbit fromTask suggestion.exchangeType entry.1⟩
          if ((outputs.get? toTask).getD []).isEmpty ∧
              toTask ∉ endTasks then
            match suggestions.get? toTask with
            | none => .error (.python .attributeError)
            | some ending =>
                .ok ([edgeConfig, ⟨toTask,
                  endRabbit toTask ending.exchangeType
                    entry.2.queueName⟩], toTask :: endTasks)
          else
            .ok ([edgeConfig], endTasks)

def prepareQueues
    (suggestions : OrderedMap String ExchangeSuggestion)
    (outputs : OrderedMap String (List String)) :
    List String → List (String × QueueInfo) →
      Except ParseError (List RabbitConfig)
  | _, [] => .ok []
  | endTasks, entry :: rest => do
      let (configs, processed) ←
        prepareQueue suggestions outputs endTasks entry
      let later ← prepareQueues suggestions outputs processed rest
      return configs ++ later

def prepareRabbitmqConfigs
    (suggestions : OrderedMap String ExchangeSuggestion)
    (queues : OrderedMap String QueueInfo)
    (outputs : OrderedMap String (List String)) :
    Except ParseError (List RabbitConfig) :=
  prepareQueues suggestions outputs [] queues.entries

/-- `parse_fan_in_metadata`; the dumped DAG has no error handling, so that the
timeout is always the default. -/
def parseFanInMetadata (pipelineId : Uuid) (tasks : List InferredTask) :
    List String → OrderedMap String FanInMetadata →
      Except ParseError (OrderedMap String FanInMetadata)
  | [], metadata => .ok metadata
  | fanInStep :: rest, metadata =>
      match tasks.find? fun task => task.id = fanInStep with
      | none => .error (.fanInStepNotFound fanInStep)
      | some task =>
          parseFanInMetadata pipelineId tasks rest
            (metadata.set fanInStep
              { requiredSteps := task.dependencies
                correlationId :=
                  "corr-" ++ fanInStep ++ "-" ++ pipelineId.text
                timeout := 300 })

structure FinalConfig where
  executionOrder : List String
  taskGraph : OrderedMap String (List String)
  parallelTasks : List (List String)
  taskDict : OrderedMap String InferredTask
  fanInSteps : List String
  exchangeSuggestions : OrderedMap String ExchangeSuggestion
  publishers : OrderedMap String Publisher
  subscribers : OrderedMap String Subscriber
  queues : OrderedMap String QueueInfo
  rabbitmqConfigs : List RabbitConfig
  fanInMetadata : OrderedMap String FanInMetadata
  taskOutputs : OrderedMap String (List String)

def entryQueueName (pipelineId : Uuid) : String :=
  "pipeline_entry_queue_" ++ pipelineId.text

def entryExchangeName (pipelineId : Uuid) : String :=
  "pipeline_entry_" ++ pipelineId.text

def entryRabbit (pipelineId : Uuid) : Rabbit where
  exchange := entryExchangeName pipelineId
  exchangeType := some "direct"
  queue := some (entryQueueName pipelineId)
  routingKey := some (entryQueueName pipelineId)

/-- `{task['id']: task for task in tasks}`. -/
def taskDictOf (tasks : List InferredTask) :
    OrderedMap String InferredTask :=
  .ofList (tasks.map fun task => (task.id, task))

def parseGraph
    (keyOrder : SetOrder Json.Key) (order : SetOrder String)
    (pipelineId : Uuid) (dagTasks : List Task) :
    Except ParseError FinalConfig := do
  let (tasks, outputs) ←
    inferDependenciesAndOutputs keyOrder order dagTasks
  detectCyclesKahn tasks
  let (executionOrder, dependents) := parseDag tasks
  validateNoSoloNodes tasks dependents
  let taskGraph ← validateSingleConnectedDag tasks dependents
  let taskDict := taskDictOf tasks
  let fanInSteps := identifyFanInSteps taskDict
  let suggestions ← suggestExchangeTypes taskGraph taskDict fanInSteps
  let (publishers, subscribers, queues) :=
    identifyPublishersSubscribersQueues taskGraph taskDict
  let rabbitmqConfigs ←
    prepareRabbitmqConfigs suggestions queues outputs
  let fanInMetadata ←
    parseFanInMetadata pipelineId tasks fanInSteps .empty
  return {
    executionOrder := executionOrder
    taskGraph := taskGraph
    parallelTasks := findParallelTasks executionOrder taskGraph
    taskDict := taskDict
    fanInSteps := fanInSteps
    exchangeSuggestions := suggestions.set (entryExchangeName pipelineId)
      { exchangeType := "direct"
        reason := "Pipeline entry point for external messages/triggers"
        taskName := entryExchangeName pipelineId }
    publishers := publishers
    subscribers := subscribers
    queues := queues.set (entryQueueName pipelineId)
      { fromTask := none
        toTask := "entry"
        queueName := entryQueueName pipelineId }
    rabbitmqConfigs :=
      rabbitmqConfigs ++ [⟨"entry", entryRabbit pipelineId⟩]
    fanInMetadata := fanInMetadata
    taskOutputs := outputs }

end Agentcy.Parser
