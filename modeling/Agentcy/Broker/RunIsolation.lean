import Agentcy.Broker.CopiesPerEdge
import Agentcy.Library.Run

/-!
# Runs of one pipeline side by side

With suffixes the queues of a run carry its identifier.  Several runs of a
pipeline share the exchanges of its tasks, and their agents bind, consume and
publish in any order.
-/

namespace Agentcy.Broker

open Agentcy.Library
open Agentcy.Parser
open Agentcy.Forwarder
open PyText

section System

variable {config : FinalConfig}

/-- What the consumers of a run read from an envelope. -/
structure RunEnvelope (config : FinalConfig) where
  run : LaunchedRun config
  fromTask : String
  deriving DecidableEq

/-- A consumer on one queue of a service, started for a run. -/
structure RunConsumer (config : FinalConfig) where
  run : LaunchedRun config
  serviceName : String
  queue : String
  deriving DecidableEq

/-- The broker, with what the consumers have been handed so far. -/
structure RunBroker (config : FinalConfig) where
  bindings : List Binding := []
  queued : List (String × RunEnvelope config) := []
  consumers : List (RunConsumer config) := []
  delivered : List (RunConsumer config × RunEnvelope config) := []

inductive BrokerEvent (config : FinalConfig) where
  -- one round of `_ensure_run_topology`
  | ensureBinding (run : LaunchedRun config) (binding : Binding)
  -- `_setup_exchange_binding`, and `consume` after it
  | bind (order : SetOrder String) (run : LaunchedRun config)
      (serviceName : String) (binding : Binding)
  | consume (order : SetOrder String) (consumer : RunConsumer config)
  -- one message on an entry of the configuration
  | publish (run : LaunchedRun config) (item : RabbitConfig)
  | deliver (consumer : RunConsumer config) (envelope : RunEnvelope config)
  -- the channel closes before the message is acknowledged
  | requeue (consumer : RunConsumer config) (envelope : RunEnvelope config)
  | stop (consumer : RunConsumer config)
  -- a queue expires, or goes with its last consumer
  | deleteQueue (queue : String)

namespace RunBroker

/-- The queues that one message of a run is put into. -/
def reached
    (state : RunBroker config) (run : LaunchedRun config)
    (item : RabbitConfig) : List String :=
  match item.rabbitmq with
  | none => []
  | some rabbit => publishTo true state.bindings run.id rabbit

/-- An event that cannot occur in a state leaves it as it is. -/
def step (state : RunBroker config) :
    BrokerEvent config → RunBroker config
  | .ensureBinding run binding =>
      if binding ∈ ensureRunTopology config run.id then
        { state with bindings := binding :: state.bindings }
      else
        state
  | .bind order run serviceName binding =>
      if binding ∈
          consumerBindings config order true serviceName run.id then
        { state with bindings := binding :: state.bindings }
      else
        state
  | .consume order consumer =>
      if consumer.queue ∈ consumedQueues config order true
          consumer.serviceName consumer.run.id then
        { state with consumers := consumer :: state.consumers }
      else
        state
  | .publish run item =>
      if item ∈ config.rabbitmqConfigs then
        { state with
          queued := state.queued ++ (state.reached run item).map
            fun queue => (queue, ⟨run, item.taskId⟩) }
      else
        state
  | .deliver consumer envelope =>
      if consumer ∈ state.consumers ∧
          (consumer.queue, envelope) ∈ state.queued then
        { state with
          queued := state.queued.erase (consumer.queue, envelope)
          delivered := (consumer, envelope) :: state.delivered }
      else
        state
  | .requeue consumer envelope =>
      if (consumer, envelope) ∈ state.delivered then
        { state with
          queued := (consumer.queue, envelope) :: state.queued }
      else
        state
  | .stop consumer =>
      { state with consumers := state.consumers.erase consumer }
  | .deleteQueue queue =>
      { state with
        bindings :=
          state.bindings.filter fun binding => binding.queue ≠ queue
        queued := state.queued.filter fun entry => entry.1 ≠ queue
        consumers :=
          state.consumers.filter fun consumer => consumer.queue ≠ queue }

/-- No consumer has been handed an envelope of another run. -/
def Isolated (state : RunBroker config) : Prop :=
  ∀ entry ∈ state.delivered, entry.2.run = entry.1.run

instance (state : RunBroker config) : Decidable state.Isolated :=
  inferInstanceAs
    (Decidable (∀ entry ∈ state.delivered, entry.2.run = entry.1.run))

/-- When a message is published on the exchange of a task with several
dependents or dependencies, all queues bound to it are those of the run. -/
def KeepsApart (tasks : List Task) (state : RunBroker config) :
    BrokerEvent config → Prop
  | .publish run item =>
      fansOut tasks item.taskId = true →
        item.rabbitmq.map Rabbit.exchange =
            some (exchangeName item.taskId) →
          ∀ binding ∈ state.bindings,
            binding.exchange = exchangeName item.taskId →
              endsWith binding.queue run.id.tail = true
  | _ => True

end RunBroker

/-- The messages of a call, published one by one. -/
def callEvents
    (run : LaunchedRun config) (taskId : String)
    (attempts : Nat → PublishAttempt) : List (BrokerEvent config) :=
  (callPublishWithRetry (outgoingEdges config.rabbitmqConfigs taskId)
    attempts).1.map fun each => .publish run ⟨taskId, each.edge⟩

theorem mem_configs_of_outgoing
    {configs : List RabbitConfig} {taskId : String} {rabbit : Rabbit}
    (member : rabbit ∈ outgoingEdges configs taskId) :
    (⟨taskId, rabbit⟩ : RabbitConfig) ∈ configs := by
  rw [outgoingEdges, List.mem_filterMap] at member
  rcases member with ⟨item, kept, isRabbit⟩
  rcases List.mem_filter.mp kept with ⟨among, own⟩
  have sameTask : item.taskId = taskId := of_decide_eq_true own
  rw [← sameTask, ← isRabbit]
  exact among

theorem queued_publishes
    (state : RunBroker config) (run : LaunchedRun config)
    (taskId : String) {sent : List Sent}
    (own : ∀ each ∈ sent,
      each.edge ∈ outgoingEdges config.rabbitmqConfigs taskId) :
    (Library.run RunBroker.step state (sent.map fun each =>
        .publish run ⟨taskId, each.edge⟩)).queued =
      state.queued ++ (sent.flatMap fun each =>
        publishTo true state.bindings run.id each.edge).map
          fun queue => (queue, ⟨run, taskId⟩) := by
  induction sent generalizing state with
  | nil =>
      exact (List.append_nil _).symm
  | cons each rest inductionHypothesis =>
      have entry := mem_configs_of_outgoing (own each List.mem_cons_self)
      have after : state.step (.publish run ⟨taskId, each.edge⟩) =
          { state with
            queued := state.queued ++ (publishTo true state.bindings
              run.id each.edge).map
                fun queue => (queue, ⟨run, taskId⟩) } := by
        rw [RunBroker.step, if_pos entry]
        rfl
      rw [List.map_cons, run_cons, after, inductionHypothesis _
        fun later member => own later (List.mem_cons_of_mem _ member)]
      dsimp only
      rw [List.flatMap_cons, List.map_append, List.append_assoc]

/-- A call is a sequence of publications: it puts into the queues what it
delivers while the bindings stay as they are. -/
theorem queued_callEvents
    {order : SetOrder String} {live : List (LaunchedRun config)}
    {state : RunBroker config}
    (bound : state.bindings = liveBindings config order true live)
    (run : LaunchedRun config) (taskId : String)
    (attempts : Nat → PublishAttempt) :
    (Library.run RunBroker.step state
        (callEvents run taskId attempts)).queued =
      state.queued ++ (delivered config order true live run.id
        (callPublishWithRetry
          (outgoingEdges config.rabbitmqConfigs taskId) attempts).1).map
            fun queue => (queue, ⟨run, taskId⟩) := by
  have own : ∀ each ∈ (callPublishWithRetry
      (outgoingEdges config.rabbitmqConfigs taskId) attempts).1,
        each.edge ∈ outgoingEdges config.rabbitmqConfigs taskId :=
    fun _ sent => edge_of_sent sent
  rw [callEvents, queued_publishes state run taskId own, bound]
  rfl

end System

/-! ## Names that carry a run -/

section Apart

variable
  {pipelineId : Uuid} {tasks : List Task} {config : FinalConfig}

/-- The queue of a binding carries the run, and is also the key unless all
keys pass. -/
def Declared
    (tasks : List Task) (run : LaunchedRun config) (binding : Binding) :
    Prop :=
  (∃ name, binding.queue = run.id.dotted name) ∧
    (binding.routingKey = binding.queue ∨
      ∃ taskId, fansOut tasks taskId = true ∧
        binding.exchange = exchangeName taskId)

/-- What the names in a state say about runs. -/
structure RunsApart
    (tasks : List Task) (state : RunBroker config) : Prop where
  bound : ∀ binding ∈ state.bindings, ∃ run : LaunchedRun config,
    Declared tasks run binding
  queued : ∀ entry ∈ state.queued,
    ∃ name, entry.1 = entry.2.run.id.dotted name
  consuming : ∀ consumer ∈ state.consumers,
    ∃ name, consumer.queue = consumer.run.id.dotted name
  own : ∀ entry ∈ state.delivered, entry.2.run = entry.1.run
  taken : ∀ entry ∈ state.delivered,
    ∃ name, entry.1.queue = entry.1.run.id.dotted name

theorem LaunchedRun.eq_of_dotted
    {run other : LaunchedRun config} {name base : String}
    (same : run.id.dotted name = other.id.dotted base) : run = other := by
  have ids := (Uuid.dotted_inj same).2
  cases run
  cases other
  cases ids
  rfl

theorem declared_of_consumer
    (run : LaunchedRun config) (exchange name : String) :
    Declared tasks run (consumerBinding true run.id exchange name) :=
  ⟨⟨name, rfl⟩, Or.inl rfl⟩

theorem declared_of_topology
    (run : LaunchedRun config) (fromTask name : String) :
    Declared tasks run (topologyBinding tasks run.id fromTask name) := by
  refine ⟨⟨name, rfl⟩, ?_⟩
  cases fans : fansOut tasks fromTask with
  | true =>
      exact Or.inr ⟨fromTask, fans, rfl⟩
  | false =>
      refine Or.inl ?_
      rw [topologyBinding, fans]
      rfl

/-- A key that is not empty carries the run that publishes. -/
theorem publishedKey_of_run (runId : Uuid) (name : String) :
    publishedKey true runId name = "" ∨
      ∃ base, publishedKey true runId name = runId.dotted base := by
  rw [publishedKey, Bool.true_and]
  by_cases empty : strip name = ""
  · refine Or.inl ?_
    rw [empty]
    rfl
  · cases ends : endsWith (strip name) runId.tail with
    | true =>
        refine Or.inr ?_
        rw [Bool.not_true, Bool.and_false, if_neg Bool.false_ne_true]
        exact (Uuid.endsWith_tail_iff _ _).mp ends
    | false =>
        refine Or.inr ⟨strip name, ?_⟩
        rw [Bool.not_false, Bool.and_true, if_pos (decide_eq_true empty)]

section Accepted

variable (parsing : Parsing pipelineId tasks config)

include parsing

/-- The lane of an entry is that of its task, or the direct one into the
pipeline. -/
theorem lane_of_entry
    {item : RabbitConfig} (member : item ∈ config.rabbitmqConfigs)
    {rabbit : Rabbit} (isRabbit : item.rabbitmq = some rabbit) :
    ∃ exchange name, Lane rabbit exchange name ∧
      ((exchange = exchangeName item.taskId ∧
          rabbit.typeName =
            if fansOut tasks item.taskId then "fanout" else "direct") ∨
        (exchange = entryExchangeName pipelineId ∧
          rabbit.typeName = "direct")) := by
  have outgoing : rabbit ∈
      outgoingEdges config.rabbitmqConfigs item.taskId := by
    rw [outgoingEdges, List.mem_filterMap]
    exact ⟨item, List.mem_filter.mpr ⟨member, decide_eq_true rfl⟩,
      isRabbit⟩
  rcases lane_or_entry_of_outgoing parsing outgoing with
    ⟨name, _, lane, type⟩ | ⟨_, same⟩
  · exact ⟨_, name, lane, Or.inl ⟨rfl, type⟩⟩
  · refine ⟨_, entryQueueName pipelineId, ?_, Or.inr ⟨rfl, ?_⟩⟩
    · rw [same]
      exact lane_entryRabbit pipelineId
    · rw [same]
      exact typeName_entryRabbit pipelineId

omit parsing in
/-- A direct exchange on which all keys are queue names passes a message to
queues of its run only. -/
theorem own_queue_of_direct
    {bindings : List Binding} {exchange name queue : String}
    (bound : ∀ binding ∈ bindings, ∃ other : LaunchedRun config,
      Declared tasks other binding)
    (single : ∀ taskId, exchange = exchangeName taskId →
      fansOut tasks taskId = false)
    {runId : Uuid}
    (reached : queue ∈ route bindings .direct exchange
      (publishedKey true runId name)) :
    ∃ base, queue = runId.dotted base := by
  rcases mem_route_iff.mp reached with
    ⟨binding, among, onExchange, accepted, isQueue⟩
  rcases bound binding among with ⟨other, ⟨base, named⟩, key⟩
  have sameKey : binding.routingKey = publishedKey true runId name :=
    of_decide_eq_true accepted
  rcases key with isName | ⟨taskId, fans, onTask⟩
  · rw [← isQueue, ← isName, sameKey]
    rcases publishedKey_of_run runId name with empty | own
    · rw [empty, isName, named] at sameKey
      exact absurd sameKey (Uuid.dotted_ne_empty _ _)
    · exact own
  · rw [single taskId (onExchange.symm.trans onTask)] at fans
    cases fans

/-- A message that is kept apart reaches queues of its run only. -/
theorem reached_of_keepsApart
    {state : RunBroker config} (apart : RunsApart tasks state)
    {run : LaunchedRun config} {item : RabbitConfig}
    (member : item ∈ config.rabbitmqConfigs)
    (keeps : state.KeepsApart tasks (.publish run item)) {queue : String}
    (reached : queue ∈ state.reached run item) :
    ∃ name, queue = run.id.dotted name := by
  cases isRabbit : item.rabbitmq with
  | none =>
      rw [RunBroker.reached, isRabbit] at reached
      cases reached
  | some rabbit =>
      rw [RunBroker.reached, isRabbit] at reached
      rcases lane_of_entry parsing member isRabbit with
        ⟨exchange, name, lane, shape⟩
      dsimp only at reached
      rw [publishTo_lane lane] at reached
      rcases shape with ⟨isTask, type⟩ | ⟨isEntry, type⟩
      · cases fans : fansOut tasks item.taskId with
        | true =>
            rcases mem_route_iff.mp reached with
              ⟨binding, among, onExchange, _, isQueue⟩
            rw [isTask] at onExchange
            have onTask : item.rabbitmq.map Rabbit.exchange =
                some (exchangeName item.taskId) := by
              rw [isRabbit, Option.map_some, lane.exchange_eq, isTask]
            have ends := keeps fans onTask binding among onExchange
            rw [isQueue] at ends
            exact (Uuid.endsWith_tail_iff _ _).mp ends
        | false =>
            rw [type, fans] at reached
            refine own_queue_of_direct apart.bound ?_ reached
            intro taskId same
            rw [← exchangeName_inj (isTask.symm.trans same)]
            exact fans
      · rw [type] at reached
        refine own_queue_of_direct apart.bound ?_ reached
        intro taskId same
        exact absurd (same.symm.trans isEntry)
          (exchangeName_ne_entryExchangeName taskId pipelineId)

/-- A message that is not kept apart ends up in a queue of another run. -/
theorem reached_of_not_keepsApart
    {state : RunBroker config} (apart : RunsApart tasks state)
    {run : LaunchedRun config} {item : RabbitConfig}
    (member : item ∈ config.rabbitmqConfigs)
    (mixes : ¬ state.KeepsApart tasks (.publish run item)) :
    ∃ other, other ≠ run ∧
      ∃ name, other.id.dotted name ∈ state.reached run item := by
  simp only [RunBroker.KeepsApart, not_forall] at mixes
  rcases mixes with ⟨fans, onTask, binding, among, onExchange, foreign⟩
  rcases apart.bound binding among with ⟨other, ⟨name, named⟩, _⟩
  refine ⟨other, ?_, name, ?_⟩
  · intro same
    rw [named, same, Uuid.endsWith_dotted] at foreign
    exact foreign rfl
  · rcases Option.map_eq_some_iff.mp onTask with
      ⟨rabbit, isRabbit, exchange_eq⟩
    rcases lane_of_entry parsing member isRabbit with
      ⟨exchange, key, lane, shape⟩
    have isTask : exchange = exchangeName item.taskId := by
      rw [← exchange_eq, lane.exchange_eq]
    rcases shape with ⟨_, type⟩ | ⟨isEntry, _⟩
    · rw [RunBroker.reached, isRabbit]
      dsimp only
      rw [publishTo_lane lane, type, fans, mem_route_iff]
      exact ⟨binding, among, onExchange.trans isTask.symm, rfl, named⟩
    · exact absurd (isTask.symm.trans isEntry)
        (exchangeName_ne_entryExchangeName _ pipelineId)

theorem runsApart_step
    (state : RunBroker config) (event : BrokerEvent config)
    (apart : RunsApart tasks state) (keeps : state.KeepsApart tasks event) :
    RunsApart tasks (state.step event) := by
  cases event with
  | ensureBinding run binding =>
      rw [RunBroker.step]
      split
      · rename_i declared
        refine { apart with bound := ?_ }
        intro other among
        rcases List.mem_cons.mp among with same | before
        · rcases (mem_ensureRunTopology_iff parsing run.id binding).mp
            declared with ⟨fromTask, toTask, _, _, _, shape⟩
          rw [same, shape]
          exact ⟨run, declared_of_topology run fromTask _⟩
        · exact apart.bound other before
      · exact apart
  | bind order run serviceName binding =>
      rw [RunBroker.step]
      split
      · rename_i declared
        refine { apart with bound := ?_ }
        intro other among
        rcases List.mem_cons.mp among with same | before
        · rcases (mem_consumerBindings_iff order true serviceName run
            parsing binding).mp declared with
            ⟨fromTask, toTask, _, _, shape⟩ | ⟨_, shape⟩
          · rw [same, shape]
            exact ⟨run, declared_of_consumer run _ _⟩
          · rw [same, shape]
            exact ⟨run, declared_of_consumer run _ _⟩
        · exact apart.bound other before
      · exact apart
  | consume order consumer =>
      rw [RunBroker.step]
      split
      · rename_i consumed
        refine { apart with consuming := ?_ }
        intro other among
        rcases List.mem_cons.mp among with same | before
        · rw [consumedQueues_eq order true consumer.serviceName
            consumer.run parsing] at consumed
          rcases List.mem_map.mp consumed with ⟨name, _, shape⟩
          rw [same]
          exact ⟨name, shape.symm⟩
        · exact apart.consuming other before
      · exact apart
  | publish run item =>
      rw [RunBroker.step]
      split
      · rename_i member
        refine { apart with queued := ?_ }
        intro entry among
        rcases List.mem_append.mp among with before | sent
        · exact apart.queued entry before
        · rcases List.mem_map.mp sent with ⟨queue, reached, same⟩
          rw [← same]
          exact reached_of_keepsApart parsing apart member keeps reached
      · exact apart
  | deliver consumer envelope =>
      rw [RunBroker.step]
      split
      · rename_i possible
        rcases apart.consuming consumer possible.1 with ⟨name, own⟩
        rcases apart.queued _ possible.2 with ⟨base, inQueue⟩
        have queued : consumer.queue = envelope.run.id.dotted base :=
          inQueue
        rw [own] at queued
        refine { apart with queued := ?_, own := ?_, taken := ?_ }
        · intro entry among
          exact apart.queued entry (List.mem_of_mem_erase among)
        · intro entry among
          rcases List.mem_cons.mp among with same | before
          · rw [same]
            exact (LaunchedRun.eq_of_dotted queued).symm
          · exact apart.own entry before
        · intro entry among
          rcases List.mem_cons.mp among with same | before
          · rw [same]
            exact ⟨name, own⟩
          · exact apart.taken entry before
      · exact apart
  | requeue consumer envelope =>
      rw [RunBroker.step]
      split
      · rename_i handed
        refine { apart with queued := ?_ }
        intro entry among
        rcases List.mem_cons.mp among with same | before
        · have own : envelope.run = consumer.run := apart.own _ handed
          rw [same, own]
          exact apart.taken _ handed
        · exact apart.queued entry before
      · exact apart
  | stop consumer =>
      refine { apart with consuming := ?_ }
      intro other among
      exact apart.consuming other (List.mem_of_mem_erase among)
  | deleteQueue queue =>
      refine { apart with bound := ?_, queued := ?_, consuming := ?_ }
      · intro binding among
        exact apart.bound binding (List.mem_filter.mp among).1
      · intro entry among
        exact apart.queued entry (List.mem_filter.mp among).1
      · intro consumer among
        exact apart.consuming consumer (List.mem_filter.mp among).1

end Accepted

theorem runsApart_empty : RunsApart tasks ({} : RunBroker config) where
  bound := fun _ member => absurd member List.not_mem_nil
  queued := fun _ member => absurd member List.not_mem_nil
  consuming := fun _ member => absurd member List.not_mem_nil
  own := fun _ member => absurd member List.not_mem_nil
  taken := fun _ member => absurd member List.not_mem_nil

end Apart

/-- The consumers of a run are handed its envelopes only, as long as nothing
is published on the exchange of a task with several dependents or dependencies
while a queue of another run is bound to it. -/
theorem runs_isolated
    {keyOrder : SetOrder Json.Key} {parserOrder : SetOrder String}
    {pipelineId : Uuid} {tasks : List Task} {config : FinalConfig}
    (accepted : parseGraph keyOrder parserOrder pipelineId tasks =
      .ok config)
    {events : List (BrokerEvent config)}
    (apart : EveryStep RunBroker.step (RunBroker.KeepsApart tasks) {}
      events) :
    EveryState RunBroker.step RunBroker.Isolated {} events := by
  rcases parsing_of_parseGraph accepted with ⟨parsing⟩
  rw [everyState_iff_prefixes]
  intro before after split
  have early : EveryStep RunBroker.step (RunBroker.KeepsApart tasks) {}
      before := by
    rw [everyStep_iff_split] at apart ⊢
    intro first event later splitBefore
    apply apart first event (later ++ after)
    rw [split, splitBefore, List.append_assoc]
    rfl
  have invariant := run_invariant (RunsApart tasks)
    (fun state event => runsApart_step parsing state event)
    runsApart_empty early
  exact invariant.own

/-! ## Two runs of the fork -/

def otherRun : LaunchedRun forkConfig where
  id := ⟨"3", by decide, List.all_eq_true.mp (by decide)⟩
  fresh := by decide +kernel

def consumerOf (run : LaunchedRun forkConfig) (name : String) :
    RunConsumer forkConfig where
  run := run
  serviceName := ""
  queue := run.id.dotted name

/-- Both runs declare the queue of an edge and consume from it, and one of
them publishes on the edge and has the message delivered. -/
def sharedEvents
    (fromTask toTask : String) (receiver : LaunchedRun forkConfig) :
    List (BrokerEvent forkConfig) :=
  [.ensureBinding forkRun (topologyBinding forkTasks forkRun.id fromTask
      (queueName fromTask toTask)),
    .ensureBinding otherRun (topologyBinding forkTasks otherRun.id fromTask
      (queueName fromTask toTask)),
    .consume firstOrder (consumerOf forkRun (queueName fromTask toTask)),
    .consume firstOrder (consumerOf otherRun (queueName fromTask toTask)),
    .publish forkRun (edgeConfig fromTask
      (exchangeTypeFor forkTasks fromTask) (queueName fromTask toTask)),
    .deliver (consumerOf receiver (queueName fromTask toTask))
      ⟨forkRun, fromTask⟩]

/-- The general statement at two runs that share a direct exchange. -/
theorem runs_isolated_on_direct_exchange :
    (Library.run RunBroker.step {}
        (sharedEvents "b" "d" forkRun)).delivered ≠ [] ∧
      EveryState RunBroker.step RunBroker.Isolated {}
        (sharedEvents "b" "d" forkRun) := by
  refine ⟨by decide +kernel, runs_isolated parseGraph_fork ?_⟩
  refine ⟨trivial, trivial, trivial, trivial, ?_, trivial, trivial⟩
  intro fans
  revert fans
  decide +kernel

/-- A fanout exchange hands the message of one run to the consumer of the
other. -/
theorem fanout_exchange_mixes_runs :
    parseGraph firstOrder firstOrder pipelineOne forkTasks =
        .ok forkConfig ∧
      ¬ EveryState RunBroker.step RunBroker.Isolated {}
        (sharedEvents "a" "b" otherRun) := by
  refine ⟨parseGraph_fork, ?_⟩
  rw [everyState_iff_prefixes]
  intro isolated
  have final := isolated (sharedEvents "a" "b" otherRun) []
    (List.append_nil _).symm
  revert final
  decide +kernel

end Agentcy.Broker
