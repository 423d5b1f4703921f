import Agentcy.Bootstrap.EntryTasks
import Agentcy.Broker.CopiesPerEdge
import Agentcy.Forwarder.Delivery
import Agentcy.Parser.EdgeQueues
import Agentcy.Tracker.ExactCompletion

/-!
# A run of a pipeline in all of its processes

The launch makes the processes create their consumers and forward the entry
tasks: a listener handles its events one after the other, and awaits each entry
task of an event before it forwards the next.  The consumer managers of the
services take messages from their queues, each queue in the order of arrival
and one message at a time, and forward the tasks whose messages have come
together.  When a task has been executed, its state is published on the outgoing
edges.  Apart from that, tasks are executed side by side.
-/

namespace Agentcy.Pipeline

open Agentcy.Bootstrap (Delivered EntryMessage BootAction PipelineEvent
  Processes RunRef)
open Agentcy.Broker
open Agentcy.Consumer
open Agentcy.Forwarder
open Agentcy.Library
open Agentcy.Parser
open Agentcy.PipelineStore (DAGConfig)
open Agentcy.Runs
open Agentcy.Tracker

/-- A task of the process of a service that hands pipeline events to the
callback, and the events that it gets: `pipeline_event_listener`, or the
`pipeline_entry_listener` of a run. -/
structure Listener where
  service : String
  events : List PipelineEvent

/-- A run of a stored pipeline, alone on its exchanges, with the messages of
its launch as the listeners of the processes got them. -/
structure LaunchedPipeline where
  keyOrder : SetOrder Library.Json.Key
  parserOrder : SetOrder String
  configId : Uuid
  dag : DAGConfig
  config : FinalConfig
  accepted :
    parseGraph keyOrder parserOrder configId (dagDump dag) = .ok config
  -- the order in which the consumer managers visit the names of queues
  order : SetOrder String
  suffixed : Bool
  run : LaunchedRun config
  launch : RunRef
  sameRun : launch.runId = run.id.text
  env : TrackerEnv
  -- what `pipeline_store.get_final_config` returns to the processes
  finalConfig : String → String → Option PipelineConfigDoc
  stored : finalConfig launch.username launch.pipelineId =
    some (configDoc dag config)
  listeners : List Listener
  maxReforwards : Int := 3
  -- `model_dump` of the task state that an envelope carries
  modelDump : TaskState → Runs.Json := fun _ => .null

/-- What a process meets while it executes a task: whatever the others have
written by then, and a broker without errors. -/
structure Encounter where
  worker : Worker
  execution : Execution
  published : ∀ count, execution.publish count = {}

/-- What awaits a forward call: the consumer of a queue whose message has led
to it, or the listener with this position. -/
inductive Caller where
  | consumer (queue : String)
  | listener (position : Nat)

/-- A forward call under way in the process of a service. -/
structure Running where
  service : String
  caller : Caller
  call : ForwardCall

/-- The entry tasks that each listener has left to forward, messages in the
queues in the order of their arrival, the buffers of the consumer manager of
each service, the calls under way, and the tasks forwarded so far. -/
structure RunState where
  entries : List (List (EntryMessage × String))
  queued : List (String × Envelope) := []
  buffers : String → AggregatorStore := fun _ => .empty
  running : List Running := []
  executed : List String := []

namespace LaunchedPipeline

variable (pipeline : LaunchedPipeline)

def tasks : List Parser.Task :=
  dagDump pipeline.dag

/-- The stored configuration, as run handling reads it. -/
def doc : PipelineConfigDoc :=
  configDoc pipeline.dag pipeline.config

def serviceOf (taskId : String) : String :=
  Bootstrap.entryService pipeline.doc taskId

/-- The part of a final configuration that `ConsumerManager` cuts out for a
service. -/
def serviceConfig (service : String) : ConsumerConfig where
  requiredSteps := .ofList
    ((getTasksForServiceName pipeline.config service).filterMap
      fun taskId => (pipeline.config.fanInMetadata.get? taskId).map
        fun metadata => (taskId, metadata.requiredSteps))
  availableServices := .ofList
    ((getTasksForServiceName pipeline.config service).filterMap
      fun taskId => (pipeline.config.taskDict.get? taskId).map
        fun task => (taskId, task.availableServices))
  pipelineId := pipeline.launch.pipelineId

def settings (service : String) : Settings where
  env := pipeline.env
  consumer := pipeline.serviceConfig service
  rabbitmqConfigs := pipeline.config.rabbitmqConfigs
  maxReforwards := pipeline.maxReforwards

/-- The state that `forward` makes of an entry message. -/
def entryState (entry : EntryMessage) (toTask : String) : TaskState :=
  let found := pipeline.doc.taskDict.get? toTask
  { status := .running
    attempts := 0
    taskId := toTask
    username := entry.username
    pipelineId := entry.pipelineId
    pipelineRunId := entry.pipelineRunId
    pipelineConfigId := some entry.pipelineConfigId
    serviceName :=
      match found with
      | none => toTask
      | some task => task.availableServices.getD ""
    isFinalTask := some
      (found.elim true fun task => task.inferredOutputs.isEmpty)
    data :=
      match (found.bind TaskMeta.description).filter (· ≠ "") with
      | some text => .ofList [("description", .text text)]
      | none => .empty }

def entryCall (entry : EntryMessage) (toTask : String) : ForwardCall where
  nextState := pipeline.entryState entry toTask
  triggeredBy := .task "entry"
  toTask := toTask

/-- The final state of the task that a forward call executes. -/
def finalState
    (service : String) (worker : Worker) (execution : Execution)
    (call : ForwardCall) : TaskState :=
  (dispatch (pipeline.settings service).env
    (execution.payload call.nextState)
    (execution.winnerResolved call.nextState) execution.attempts
    call.nextState.serviceName (pipeline.settings service).maxReforwards
    worker.tracker
    (execution.resolvedStores call.nextState.username
      worker.stores)).finalState

def envelope (fromTask : String) (final : TaskState) : Envelope where
  pipelineRunId := some final.pipelineRunId
  username := some final.username
  pipelineId := some final.pipelineId
  fromTask := some fromTask
  payload := pipeline.modelDump final

/-- The envelopes of a call, in the queues that they reach. -/
def published
    (fromTask : String) (final : TaskState) (sent : List Sent) :
    List (String × Envelope) :=
  (delivered pipeline.config pipeline.order pipeline.suffixed
    [pipeline.run] pipeline.run.id sent).map fun queue =>
      (queue, pipeline.envelope fromTask final)

/-- A listener forwards its next entry task, after which `left` is left to the
listeners. -/
def startEntry
    (state : RunState) (left : List (List (EntryMessage × String)))
    (position : Nat) (entry : EntryMessage) (toTask : String) :
    RunState where
  entries := left
  queued := state.queued
  buffers := state.buffers
  running := state.running ++
    [⟨pipeline.serviceOf toTask, .listener position,
      pipeline.entryCall entry toTask⟩]
  executed := state.executed ++ [toTask]

/-- The consumer manager of a service takes a message from a queue, after
which `left` is in the queues. -/
def handleMessage
    (state : RunState) (left : List (String × Envelope))
    (service queue toTask : String) (message : Envelope) : RunState :=
  let handled :=
    defaultHandler (pipeline.serviceConfig service) (state.buffers service)
      ⟨some toTask, message⟩
  let taken : RunState :=
    { state with
      queued := left
      buffers := Function.update state.buffers service handled.1 }
  match handled.2 with
  | none => taken
  | some call =>
      { taken with
        running := state.running ++ [⟨service, .consumer queue, call⟩]
        executed := state.executed ++ [call.toTask] }

/-- The execution of a task ends, after which `others` are under way. -/
def finishCall
    (state : RunState) (others : List Running) (running : Running)
    (encounter : Encounter) : RunState :=
  let handled :=
    forward (pipeline.settings running.service) encounter.worker
      encounter.execution running.call
  { state with
    running := others
    queued := state.queued ++
      pipeline.published running.call.toTask
        (pipeline.finalState running.service encounter.worker
          encounter.execution running.call)
        handled.sent }

/-- The queues that the process of a service consumes. -/
def consumed (service : String) : OrderedMap String ConsumerQueue :=
  (buildFinalConfigForService pipeline.config pipeline.order
    pipeline.suffixed service pipeline.run.id).queues

def deliveries : List Delivered :=
  pipeline.listeners.flatMap fun listener =>
    listener.events.map fun event => ⟨listener.service, event⟩

/-- The processes once they have handled the messages of the launch. -/
def processes : Processes :=
  Library.run (Processes.deliver pipeline.finalConfig) {}
    pipeline.deliveries

/-- The process of the service has created its consumers for the run. -/
def Listens (service : String) : Prop :=
  pipeline.launch.runId ∈ pipeline.processes.bootstrapped service

inductive Step : RunState → RunState → Prop
  | start {state : RunState} {entry : EntryMessage} {toTask : String}
      {front back : List (List (EntryMessage × String))}
      {rest : List (EntryMessage × String)}
      (waits : state.entries = front ++ ((entry, toTask) :: rest) :: back)
      (free : ∀ running ∈ state.running,
        running.caller ≠ .listener front.length) :
      Step state
        (pipeline.startEntry state (front ++ rest :: back) front.length entry
          toTask)
  | handle {state : RunState} {service queue : String}
      {info : ConsumerQueue} {message : Envelope}
      {front back : List (String × Envelope)}
      (listens : pipeline.Listens service)
      (consumes : (pipeline.consumed service).get? queue = some info)
      (arrived : state.queued = front ++ (queue, message) :: back)
      (first : ∀ earlier ∈ front, earlier.1 ≠ queue)
      (free : ∀ running ∈ state.running,
        running.caller ≠ .consumer queue) :
      Step state
        (pipeline.handleMessage state (front ++ back) service queue
          info.toTask message)
  | finish {state : RunState} {running : Running}
      {front back : List Running}
      (going : state.running = front ++ running :: back)
      (encounter : Encounter) :
      Step state
        (pipeline.finishCall state (front ++ back) running encounter)

/-- The entry task of the run that an action forwards. -/
def entryOf (action : BootAction) : Option (EntryMessage × String) :=
  match action with
  | .createConsumers _ _ _ => none
  | .forwardEntry entry toTask =>
      if pipeline.launch.executes toTask action then some (entry, toTask)
      else none

/-- The entry tasks that the process of a service forwards for an event.  It
does not matter which runs it has bootstrapped before. -/
def entriesFor (service : String) (event : PipelineEvent) :
    List (EntryMessage × String) :=
  (Bootstrap.onPipelineEvent pipeline.finalConfig service []
    event).2.filterMap pipeline.entryOf

def entriesOf (listener : Listener) :
    List (EntryMessage × String) :=
  listener.events.flatMap (pipeline.entriesFor listener.service)

def initial : RunState where
  entries := pipeline.listeners.map pipeline.entriesOf

def Reachable (state : RunState) : Prop :=
  Relation.ReflTransGen pipeline.Step pipeline.initial state

/-- No entry task is left to be forwarded, no call is under way, and no message
is left in a queue that a process consumes.  Messages for processes that never
listen stay where they are. -/
def Finished (state : RunState) : Prop :=
  state.entries.flatten = [] ∧ state.running = [] ∧
    ∀ message ∈ state.queued, ∀ service, pipeline.Listens service →
      (pipeline.consumed service).get? message.1 = none

end LaunchedPipeline

end Agentcy.Pipeline

/-!
## What one call puts into the queues

With names that keep the queues apart, a call that publishes the state of a
task sends one message for each of its outgoing edges, and every one of them is
copied to the queues of all its edges.
-/

namespace Agentcy.Pipeline

open Agentcy.Broker
open Agentcy.Forwarder
open Agentcy.Library
open Agentcy.Parser
open PyText

/-- No task is taken for the entry of a pipeline or for none, no key loses its
end, and no name of a queue belongs to two edges. -/
structure WellNamed (tasks : List Parser.Task) : Prop where
  nonempty : ∀ task ∈ tasks, task.id ≠ ""
  ordinary : ∀ task ∈ tasks, task.id ≠ "entry"
  trimmed : ∀ task ∈ tasks, ¬ EndsInSpace task.id
  undivided : NoLaterDivision tasks

theorem WellNamed.apart
    {tasks : List Parser.Task} (named : WellNamed tasks)
    (first second : String × String) (isFirst : IsEdge tasks first)
    (isSecond : IsEdge tasks second)
    (same : queueName first.1 first.2 = queueName second.1 second.2) :
    first = second := by
  rcases (queueName_eq_iff first second).mp same with equal | later | later
  · exact equal
  · exact absurd later (named.undivided first second isFirst isSecond)
  · exact absurd later (named.undivided second first isSecond isFirst)

/-- Names without underscores keep the queues apart. -/
theorem noLaterDivision_of_plain
    {tasks : List Parser.Task}
    (plain : ∀ task ∈ tasks, '_' ∉ task.id.toList) :
    NoLaterDivision tasks := by
  intro first second isFirst _ later
  obtain ⟨task, member, _, sameId⟩ := mem_downstream_iff.mp isFirst
  have free := plain task member
  rw [sameId] at free
  rcases later with ⟨middle, _, divided⟩ | ⟨_, divided⟩
  · apply free
    rw [divided]
    simp
  · apply free
    rw [divided]
    simp

/-! ## A call without errors -/

theorem publishEdges_clear (position : Nat) (edges : List Rabbit) :
    (publishEdges {} position edges).1.map Sent.edge = edges ∧
      (publishEdges {} position edges).2 = none := by
  induction edges generalizing position with
  | nil =>
      exact ⟨rfl, rfl⟩
  | cons edge rest inductionHypothesis =>
      obtain ⟨sent, noError⟩ := inductionHypothesis (position + 1)
      exact ⟨congrArg (edge :: ·) sent, noError⟩

/-- A call that meets no error sends each of the edges once. -/
theorem sent_of_clear (edges : List Rabbit) :
    (callPublishWithRetry edges fun _ => {}).1.map Sent.edge = edges := by
  cases edges with
  | nil =>
      rfl
  | cons edge rest =>
      obtain ⟨sent, noError⟩ := publishEdges_clear 0 (edge :: rest)
      have once : publishOnce (edge :: rest) {} =
          publishEdges {} 0 (edge :: rest) := rfl
      unfold callPublishWithRetry publishRetrying
      dsimp only
      rw [once, noError]
      exact sent

section Accepted

variable
  {configId : Uuid} {tasks : List Parser.Task} {config : FinalConfig}
  (parsing : Parsing configId tasks config) (named : WellNamed tasks)

include parsing named

theorem edge_kept
    {fromTask toTask : String} (edge : toTask ∈ downstream tasks fromTask) :
    (queueName fromTask toTask, edgeQueue (fromTask, toTask)) ∈
      parsing.edgeQueues := by
  rw [parsing.edgeQueues_eq named.apart]
  exact List.mem_map.mpr
    ⟨(fromTask, toTask), (parsing.isEdge_iff _).mp edge, rfl⟩

/-- A task on which others depend publishes once for each of them. -/
theorem length_outgoingEdges
    {taskId : String} (inner : downstream tasks taskId ≠ [])
    (ordinary : taskId ≠ "entry") :
    (outgoingEdges config.rabbitmqConfigs taskId).length =
      (downstream tasks taskId).length := by
  have test : ((fun entry : String × QueueInfo =>
        decide (entry.2.fromTask = some taskId)) ∘
      fun edge : String × String =>
        (queueName edge.1 edge.2, edgeQueue edge)) =
      fun edge => decide (edge.1 = taskId) := by
    funext edge
    exact decide_eq_decide.mpr (Option.some_inj)
  rw [parsing.outgoingEdges_eq inner ordinary, List.length_map,
    parsing.edgeQueues_eq named.apart, List.filter_map, List.length_map,
    test, ← parsing.infers.outgoing_eq_downstream, Kahn.outgoing,
    List.length_map]

variable (order : SetOrder String) (suffixed : Bool)
  (run : LaunchedRun config)

theorem publishes_to_edge_iff
    {fromTask toTask : String} (edge : toTask ∈ downstream tasks fromTask)
    {rabbit : Rabbit} {name : String}
    (lane : Lane rabbit (exchangeName fromTask) name)
    (type : rabbit.typeName =
      if fansOut tasks fromTask then "fanout" else "direct") :
    consumerQueue suffixed run.id (queueName fromTask toTask) ∈
        publishTo suffixed (liveBindings config order suffixed [run])
          run.id rabbit ↔
      fansOut tasks fromTask = true ∨
        consumerQueue suffixed run.id (queueName fromTask toTask) =
          publishedKey suffixed run.id name := by
  rw [mem_publishTo_iff order suffixed [run] parsing lane type]
  apply and_iff_left
  exact ⟨run, List.mem_singleton_self run, toTask,
    edge_kept parsing named edge, Or.inl rfl⟩

/-- Every message of a call is copied to the queue of every edge. -/
theorem count_edge_of_outgoing
    {fromTask toTask : String} (edge : toTask ∈ downstream tasks fromTask)
    {rabbit : Rabbit}
    (sends : rabbit ∈ outgoingEdges config.rabbitmqConfigs fromTask)
    (ordinary : fromTask ≠ "entry") (trimmed : ¬ EndsInSpace toTask) :
    (publishTo suffixed (liveBindings config order suffixed [run]) run.id
      rabbit).count
        (consumerQueue suffixed run.id (queueName fromTask toTask)) =
      1 := by
  have inner := List.ne_nil_of_mem edge
  rw [count_publishTo, if_pos]
  cases fans : fansOut tasks fromTask with
  | true =>
      obtain ⟨name, _, lane, type⟩ :=
        lane_of_outgoing parsing ordinary sends
      exact (publishes_to_edge_iff parsing named order suffixed run edge
        lane type).mpr (Or.inl fans)
  | false =>
      -- a direct exchange is that of a task with one dependent
      rw [parsing.outgoingEdges_eq inner ordinary] at sends
      obtain ⟨entry, kept, rfl⟩ := List.mem_map.mp sends
      obtain ⟨dependent, isEdge, rfl⟩ := mem_survivors parsing kept
      have few : (downstream tasks fromTask).length ≤ 1 := by
        rw [fansOut, Bool.or_eq_false_iff, decide_eq_false_iff_not] at fans
        exact Nat.not_lt.mp fans.1
      have same : dependent = toTask := by
        obtain ⟨only, single⟩ := List.length_eq_one_iff.mp
          (le_antisymm few (List.length_pos_of_mem edge))
        rw [single, List.mem_singleton] at edge isEdge
        rw [edge, isEdge]
      subst same
      have known := parsing.queueName_mem_keys edge
      apply (publishes_to_edge_iff parsing named order suffixed run edge
        (lane_edgeRabbit tasks fromTask
          (queueName_ne_empty fromTask dependent))
        (typeName_of_type rfl)).mpr
      exact Or.inr
        ((publishedKey_eq_iff suffixed (queueName_ne_empty _ _)
          (run.fresh _ known)).mpr
            ((strip_queueName_iff fromTask dependent).mpr trimmed)).symm

/-- The copies of a call in the queue of an edge. -/
theorem count_reachedBy
    {fromTask toTask : String} (edge : toTask ∈ downstream tasks fromTask)
    (ordinary : fromTask ≠ "entry") (trimmed : ¬ EndsInSpace toTask) :
    (reachedBy order suffixed [run] run.id
      (outgoingEdges config.rabbitmqConfigs fromTask)).count
        (consumerQueue suffixed run.id (queueName fromTask toTask)) =
      (downstream tasks fromTask).length := by
  rw [reachedBy, List.count_flatMap,
    ← length_outgoingEdges parsing named (List.ne_nil_of_mem edge) ordinary]
  have ones : (outgoingEdges config.rabbitmqConfigs fromTask).map
      (List.count (consumerQueue suffixed run.id
        (queueName fromTask toTask)) ∘ fun rabbit =>
          publishTo suffixed (liveBindings config order suffixed [run])
            run.id rabbit) =
      List.replicate
        (outgoingEdges config.rabbitmqConfigs fromTask).length 1 := by
    refine List.eq_replicate_iff.mpr ⟨List.length_map _, ?_⟩
    intro amount counted
    obtain ⟨rabbit, sends, rfl⟩ := List.mem_map.mp counted
    exact count_edge_of_outgoing parsing named order suffixed run edge sends
      ordinary trimmed
  rw [ones, List.sum_replicate_nat, Nat.mul_one]

/-- What a call of a task reaches belongs to edges that leave the task. -/
theorem source_of_reached
    {fromTask : String} (ordinary : fromTask ≠ "entry") {queue : String}
    (reached : queue ∈ reachedBy order suffixed [run] run.id
      (outgoingEdges config.rabbitmqConfigs fromTask))
    {edge : String × String} (isEdge : IsEdge tasks edge)
    (same : queue =
      consumerQueue suffixed run.id (queueName edge.1 edge.2)) :
    edge.1 = fromTask := by
  obtain ⟨rabbit, sends, arrives⟩ := List.mem_flatMap.mp reached
  obtain ⟨name, _, lane, type⟩ := lane_of_outgoing parsing ordinary sends
  obtain ⟨_, other, isLive, dependent, kept, shape⟩ :=
    (mem_publishTo_iff order suffixed [run] parsing lane type run.id
      queue).mp arrives
  rw [List.mem_singleton] at isLive
  subst isLive
  have leaves : IsEdge tasks (fromTask, dependent) :=
    parsing.edge_of_mem kept
  have sameName : queueName edge.1 edge.2 =
      queueName fromTask dependent := by
    rcases shape with named | ⟨_, _, dotted⟩
    · rw [same] at named
      exact consumerQueue_inj suffixed named
    · rw [same] at dotted
      cases suffixed with
      | true =>
          exact (Uuid.dotted_inj dotted).1
      | false =>
          have fresh := other.fresh _ (parsing.queueName_mem_keys isEdge)
          have plain : queueName edge.1 edge.2 =
              other.id.dotted (queueName fromTask dependent) := dotted
          rw [plain, Uuid.endsWith_dotted] at fresh
          cases fresh
  exact congrArg Prod.fst (named.apart _ _ isEdge leaves sameName)

end Accepted

end Agentcy.Pipeline
