import Agentcy.Consumer.FanIn
import Agentcy.Pipeline.RunNetwork

/-!
# The processes run the network

The state of the processes stands for a marking of the network: a message in
the queue of an edge is a token, a call under way has put its tokens on the
edges already, a buffer holds the inputs that have arrived, and what a listener
has left to forward is left of a line.  Every step of
the processes is a step of the network or the end of a call, and the processes
can take every step of the network.
-/

namespace Agentcy.Pipeline

open Agentcy.Bootstrap (EntryMessage)
open Agentcy.Broker
open Agentcy.Consumer
open Agentcy.Forwarder
open Agentcy.Library
open Agentcy.Parser
open Agentcy.Runs
open Agentcy.Tracker

/-- The edges of a pipeline, task by task. -/
def pipelineEdges (tasks : List Parser.Task) : List (String × String) :=
  tasks.flatMap fun task =>
    task.upstream.map fun upstream => (upstream, task.id)

theorem mem_pipelineEdges_iff
    {tasks : List Parser.Task} {edge : String × String} :
    edge ∈ pipelineEdges tasks ↔ IsEdge tasks edge := by
  unfold pipelineEdges IsEdge
  rw [mem_downstream_iff, List.mem_flatMap]
  constructor
  · rintro ⟨task, member, listed⟩
    obtain ⟨upstream, named, rfl⟩ := List.mem_map.mp listed
    exact ⟨task, member, named, rfl⟩
  · rintro ⟨task, member, named, same⟩
    exact ⟨task, member, List.mem_map.mpr ⟨edge.1, named, by rw [same]⟩⟩

namespace LaunchedPipeline

variable (pipeline : LaunchedPipeline)

/-- The queue of an edge, as the consumers of the run know it. -/
def queueOf (edge : String × String) : String :=
  consumerQueue pipeline.suffixed pipeline.run.id
    (queueName edge.1 edge.2)

def edgeOf (queue : String) : Option (String × String) :=
  (pipelineEdges pipeline.tasks).find? fun edge =>
    decide (pipeline.queueOf edge = queue)

def bufferOf (state : RunState) (taskId : String) : Bundle :=
  ((state.buffers (pipeline.serviceOf taskId)).get?
    (aggregatorKey pipeline.run.id.text taskId)).getD .empty

def required (taskId : String) : List String :=
  (pipeline.serviceConfig
    (pipeline.serviceOf taskId)).requiredUpstreams taskId

/-- Tokens in the queues, and those of the calls under way. -/
def tokensOf (state : RunState) : Multiset (String × String) :=
  (state.queued.filterMap fun message => pipeline.edgeOf message.1 :
      List (String × String)) +
    (state.running.map fun running =>
      pipeline.network.emitted running.call.toTask).sum

structure Simulates (state : RunState) (marking : Marking String) :
    Prop where
  waiting : marking.waiting = state.entries.map (List.map Prod.snd)
  fired : marking.fired = state.executed
  tokens : marking.tokens = pipeline.tokensOf state
  arrived : ∀ taskId ∈ pipeline.ids, ∀ upstream,
    upstream ∈ marking.arrived taskId ↔
      pipeline.required taskId ≠ [] ∧
        (pipeline.bufferOf state taskId).contains upstream = true
  entries : ∀ entry ∈ state.entries.flatten, entry.2 ∈ pipeline.ids ∧
    entry.1.pipelineRunId = pipeline.run.id.text
  queued : ∀ message ∈ state.queued, ∀ edge,
    pipeline.edgeOf message.1 = some edge →
      message.2.pipelineRunId = some pipeline.run.id.text ∧
        message.2.fromTask = some edge.1
  running : ∀ running ∈ state.running,
    running.call.toTask ∈ pipeline.ids ∧
      running.call.nextState.pipelineRunId = pipeline.run.id.text

variable {pipeline}

section Queues

variable (named : WellNamed pipeline.tasks)

include named

theorem queueOf_inj
    {first second : String × String} (isFirst : IsEdge pipeline.tasks first)
    (isSecond : IsEdge pipeline.tasks second)
    (same : pipeline.queueOf first = pipeline.queueOf second) :
    first = second :=
  named.apart first second isFirst isSecond
    (consumerQueue_inj pipeline.suffixed same)

theorem edgeOf_eq_some_iff {queue : String} {edge : String × String} :
    pipeline.edgeOf queue = some edge ↔
      IsEdge pipeline.tasks edge ∧ pipeline.queueOf edge = queue := by
  constructor
  · intro found
    have isEdge := mem_pipelineEdges_iff.mp (List.mem_of_find?_eq_some found)
    unfold edgeOf at found
    have test := List.find?_some found
    exact ⟨isEdge, of_decide_eq_true test⟩
  · rintro ⟨isEdge, isQueue⟩
    cases found : pipeline.edgeOf queue with
    | none =>
        have test := List.find?_eq_none.mp found edge
          (mem_pipelineEdges_iff.mpr isEdge)
        exact absurd (decide_eq_true isQueue) test
    | some other =>
        have isOther :=
          mem_pipelineEdges_iff.mp (List.mem_of_find?_eq_some found)
        unfold edgeOf at found
        have test := List.find?_some found
        have otherQueue := of_decide_eq_true test
        rw [queueOf_inj named isEdge isOther
          (isQueue.trans otherQueue.symm)]

theorem count_edges
    (queues : List String) {edge : String × String}
    (isEdge : IsEdge pipeline.tasks edge) :
    Multiset.count edge (queues.filterMap pipeline.edgeOf) =
      queues.count (pipeline.queueOf edge) := by
  induction queues with
  | nil =>
      rfl
  | cons queue rest inductionHypothesis =>
      have found := @edgeOf_eq_some_iff pipeline named queue
      cases isFound : pipeline.edgeOf queue with
      | none =>
          have different : queue ≠ pipeline.queueOf edge := by
            intro same
            have some := found.mpr ⟨isEdge, same.symm⟩
            rw [isFound] at some
            cases some
          rw [List.filterMap_cons_none isFound, inductionHypothesis,
            List.count_cons_of_ne different]
      | some other =>
          obtain ⟨isOther, otherQueue⟩ := found.mp isFound
          rw [List.filterMap_cons_some isFound, ← Multiset.cons_coe]
          by_cases same : edge = other
          · subst same
            rw [Multiset.count_cons_self, inductionHypothesis, otherQueue,
              List.count_cons_self]
          · have different : queue ≠ pipeline.queueOf edge := by
              intro sameQueue
              exact same (queueOf_inj named isEdge isOther
                (sameQueue.symm.trans otherQueue.symm))
            rw [Multiset.count_cons_of_ne same, inductionHypothesis,
              List.count_cons_of_ne different]

theorem edge_of_mem_edges
    {queues : List String} {edge : String × String}
    (member : edge ∈ queues.filterMap pipeline.edgeOf) :
    IsEdge pipeline.tasks edge := by
  obtain ⟨queue, _, found⟩ := List.mem_filterMap.mp member
  exact ((edgeOf_eq_some_iff named).mp found).1

/-- What a call publishes are the tokens that its task emits. -/
theorem edges_published
    {fromTask : String} (isTask : fromTask ∈ pipeline.ids)
    (final : TaskState) :
    (((pipeline.published fromTask final
        (callPublishWithRetry
          (outgoingEdges pipeline.config.rabbitmqConfigs fromTask)
          fun _ => {}).1).filterMap fun message =>
            pipeline.edgeOf message.1 : List (String × String)) :
      Multiset (String × String)) =
      pipeline.network.emitted fromTask := by
  obtain ⟨stages⟩ := pipeline.exists_stages
  obtain ⟨task, member, sameId⟩ := List.mem_map.mp isTask
  have ordinary : fromTask ≠ "entry" := by
    rw [← sameId]
    exact named.ordinary task member
  have onlyQueues : (pipeline.published fromTask final
      (callPublishWithRetry
        (outgoingEdges pipeline.config.rabbitmqConfigs fromTask)
        fun _ => {}).1).filterMap (fun message =>
          pipeline.edgeOf message.1) =
      (reachedBy pipeline.order pipeline.suffixed [pipeline.run]
        pipeline.run.id (outgoingEdges pipeline.config.rabbitmqConfigs
          fromTask)).filterMap pipeline.edgeOf := by
    unfold published
    rw [List.filterMap_map, delivered_eq, sent_of_clear]
    rfl
  rw [onlyQueues]
  ext edge
  rw [pipeline.network.count_emitted]
  by_cases isEdge : IsEdge pipeline.tasks edge
  · rw [count_edges named _ isEdge]
    by_cases own : edge.1 = fromTask
    · subst own
      obtain ⟨dependent, isDependent, _, sameDependent⟩ :=
        mem_downstream_iff.mp isEdge
      rw [if_pos ⟨rfl, mem_successors_iff.mpr isEdge⟩]
      apply count_reachedBy stages.parsing named _ _ _ isEdge ordinary
      rw [← sameDependent]
      exact named.trimmed dependent isDependent
    · rw [if_neg fun both => own both.1, List.count_eq_zero]
      intro reached
      exact own (source_of_reached stages.parsing named _ _ _ ordinary
        reached isEdge rfl)
  · rw [if_neg, Multiset.count_eq_zero]
    · intro member
      exact isEdge (edge_of_mem_edges named (Multiset.mem_coe.mp member))
    · rintro ⟨rfl, leaves⟩
      exact isEdge (mem_successors_iff.mp leaves)

end Queues

/-! ## The beginning -/

theorem simulates_initial :
    pipeline.Simulates pipeline.initial pipeline.network.initial where
  waiting := (List.map_map ..).symm
  fired := rfl
  tokens := rfl
  arrived := by
    intro taskId _ upstream
    refine iff_of_false (Finset.notMem_empty upstream) ?_
    rintro ⟨_, arrived⟩
    cases arrived
  entries := by
    intro entry member
    obtain ⟨entries, isLine, forwarded⟩ := List.mem_flatten.mp member
    obtain ⟨listener, _, rfl⟩ := List.mem_map.mp isLine
    obtain ⟨isEntry, sameRun⟩ := entry_of_listener forwarded
    exact ⟨entryTask_mem_ids isEntry, sameRun⟩
  queued := fun _ member => by cases member
  running := fun _ member => by cases member

theorem tokensOf_running
    {before after : RunState} {running : Running}
    (sameQueues : after.queued = before.queued)
    (going : after.running = before.running ++ [running]) :
    pipeline.tokensOf after =
      pipeline.tokensOf before +
        pipeline.network.emitted running.call.toTask := by
  unfold tokensOf
  rw [sameQueues, going, List.map_append, List.sum_append,
    List.map_singleton, List.sum_singleton, add_assoc]

section Steps

variable {state : RunState} {marking : Marking String}

theorem Simulates.start
    (simulates : pipeline.Simulates state marking)
    {entry : EntryMessage} {toTask : String}
    {front back : List (List (EntryMessage × String))}
    {rest : List (EntryMessage × String)}
    (waits : state.entries = front ++ ((entry, toTask) :: rest) :: back) :
    marking.waiting = front.map (List.map Prod.snd) ++
        (toTask :: rest.map Prod.snd) :: back.map (List.map Prod.snd) ∧
      pipeline.Simulates
        (pipeline.startEntry state (front ++ rest :: back) front.length
          entry toTask)
        (pipeline.network.start marking
          (front.map (List.map Prod.snd) ++
            rest.map Prod.snd :: back.map (List.map Prod.snd))
          toTask) := by
  have emits := @tokensOf_running pipeline state
    (pipeline.startEntry state (front ++ rest :: back) front.length entry
      toTask)
    ⟨pipeline.serviceOf toTask, .listener front.length,
      pipeline.entryCall entry toTask⟩
    rfl rfl
  have sameTask : (pipeline.entryCall entry toTask).toTask = toTask := rfl
  have kept : ∀ other ∈ (entry, toTask) :: (front ++ rest :: back).flatten,
      other ∈ state.entries.flatten := by
    intro other member
    rw [waits, List.flatten_append, List.flatten_cons, List.cons_append]
    rw [List.flatten_append, List.flatten_cons] at member
    exact List.perm_middle.mem_iff.mpr member
  refine ⟨?_, ?_⟩
  · rw [simulates.waiting, waits, List.map_append]
    rfl
  · exact
      { waiting := by
          have left : (pipeline.startEntry state (front ++ rest :: back)
              front.length entry toTask).entries = front ++ rest :: back :=
            rfl
          rw [left, List.map_append]
          rfl
        fired := congrArg (· ++ [toTask]) simulates.fired
        tokens := by
          rw [emits, sameTask, ← simulates.tokens]
          rfl
        arrived := simulates.arrived
        entries := fun other member =>
          simulates.entries other (kept other (List.mem_cons_of_mem _ member))
        queued := simulates.queued
        running := by
          intro running member
          rcases List.mem_append.mp member with earlier | now
          · exact simulates.running running earlier
          · rw [List.mem_singleton.mp now]
            exact simulates.entries _ (kept _ List.mem_cons_self) }

theorem context?_ordinary
    {message : Envelope} {runId : Uuid} {toTask : String}
    (sameRun : message.pipelineRunId = some runId.text)
    (nonempty : toTask ≠ "") :
    (Delivery.mk (some toTask) message).context? =
      some (runId.text, toTask) := by
  unfold Delivery.context?
  rw [sameRun, Option.filter_some, Option.filter_some,
    if_pos (decide_eq_true runId.nonempty),
    if_pos (decide_eq_true nonempty)]

/-- The handler calls the forwarder once all required steps are there, and
keeps the message otherwise. -/
theorem aggregate_cases
    {cfg : ConsumerConfig} {store : AggregatorStore}
    {runId toTask : String} {message : Envelope}
    {handled : AggregatorStore × Option ForwardCall} {arrived : Bundle}
    (isHandled : aggregate cfg store runId toTask message = handled)
    (isArrived : ((store.get? (aggregatorKey runId toTask)).getD
      .empty).set message.sender message = arrived) :
    if ∀ upstream ∈ cfg.requiredUpstreams toTask,
        arrived.contains upstream = true then
      (∃ call, handled.2 = some call) ∧
        (cfg.requiredUpstreams toTask ≠ [] →
          handled.1.get? (aggregatorKey runId toTask) = none)
    else
      handled.2 = none ∧
        handled.1.get? (aggregatorKey runId toTask) = some arrived := by
  have present : arrived.entries.isEmpty = false := by
    rw [List.isEmpty_eq_false_iff]
    intro nothing
    have member : message.sender ∈ arrived.keys := by
      rw [← isArrived]
      exact (OrderedMap.mem_keys_set _ _ _ _).mpr (Or.inl rfl)
    rw [OrderedMap.keys, nothing] at member
    cases member
  unfold aggregate at isHandled
  dsimp only at isHandled
  rw [isArrived, present] at isHandled
  generalize cfg.requiredUpstreams toTask = needed at isHandled ⊢
  cases needed with
  | nil =>
      rw [if_pos (fun _ none => by cases none), ← isHandled]
      exact ⟨⟨_, rfl⟩, fun several => absurd rfl several⟩
  | cons first rest =>
      rw [if_neg (by simp)] at isHandled
      by_cases complete : (first :: rest).all arrived.contains = true
      · rw [if_pos complete, if_neg Bool.false_ne_true] at isHandled
        rw [if_pos (List.all_eq_true.mp complete), ← isHandled]
        exact ⟨⟨_, rfl⟩, fun _ => OrderedMap.get?_erase_self _ _⟩
      · rw [if_neg complete] at isHandled
        rw [if_neg fun all => complete (List.all_eq_true.mpr all),
          ← isHandled]
        exact ⟨rfl, OrderedMap.get?_set_self _ _ _⟩

section Messages

variable {later : RunState} {toTask : String} {store : AggregatorStore}

theorem bufferOf_self
    (sameBuffers : later.buffers =
      Function.update state.buffers (pipeline.serviceOf toTask) store) :
    pipeline.bufferOf later toTask =
      (store.get? (aggregatorKey pipeline.run.id.text toTask)).getD
        .empty := by
  unfold bufferOf
  rw [sameBuffers, Function.update_self]

theorem bufferOf_other
    (sameBuffers : later.buffers =
      Function.update state.buffers (pipeline.serviceOf toTask) store)
    (frame : ∀ key, key ≠ aggregatorKey pipeline.run.id.text toTask →
      store.get? key =
        (state.buffers (pipeline.serviceOf toTask)).get? key)
    {other : String} (different : other ≠ toTask) :
    pipeline.bufferOf later other = pipeline.bufferOf state other := by
  have otherKey : aggregatorKey pipeline.run.id.text other ≠
      aggregatorKey pipeline.run.id.text toTask :=
    fun same => different (String.append_right_inj _ |>.mp same)
  unfold bufferOf
  rw [sameBuffers]
  by_cases sameService :
      pipeline.serviceOf other = pipeline.serviceOf toTask
  · rw [sameService, Function.update_self, frame _ otherKey]
  · rw [Function.update_of_ne sameService]

end Messages

/-- The inputs of a task have all been heard from exactly if its buffer has
all required steps. -/
theorem inputs_subset_iff
    (simulates : pipeline.Simulates state marking)
    {upstream toTask : String} (message : Envelope)
    (edge : toTask ∈ downstream pipeline.tasks upstream) :
    pipeline.network.inputs toTask ⊆
        insert upstream (marking.arrived toTask) ↔
      ∀ step ∈ pipeline.required toTask,
        ((pipeline.bufferOf state toTask).set upstream message).contains
          step = true := by
  have isTask := (pipeline.edge_inside edge).2
  rcases requiredUpstreams_cases isTask with ⟨single, same⟩ | ⟨joins, steps⟩
  · have single : pipeline.required toTask = [] := single
    rw [single]
    refine iff_of_true ?_ (fun _ none => by cases none)
    intro input isInput
    rw [same input upstream (mem_inputs_iff.mp isInput) edge]
    exact Finset.mem_insert_self _ _
  · have isStep : ∀ step, step ∈ pipeline.required toTask ↔
        step ∈ pipeline.network.inputs toTask := by
      intro step
      exact (steps step).trans mem_inputs_iff.symm
    have heard : ∀ step, step ∈ insert upstream (marking.arrived toTask) ↔
        ((pipeline.bufferOf state toTask).set upstream message).contains
          step = true := by
      intro step
      have before := (simulates.arrived toTask isTask step).trans
        (and_iff_right joins)
      rw [Finset.mem_insert, before, OrderedMap.contains,
        OrderedMap.contains, OrderedMap.get?_set]
      by_cases same : step = upstream
      · rw [if_pos same]
        exact iff_of_true (Or.inl same) rfl
      · rw [if_neg same, or_iff_right same]
    constructor
    · intro inside step member
      exact (heard step).mp (inside ((isStep step).mp member))
    · intro all input isInput
      exact (heard input).mpr (all input ((isStep input).mpr isInput))

/-- The queue of an edge, and what its first message says. -/
theorem exists_edge
    (named : WellNamed pipeline.tasks)
    (simulates : pipeline.Simulates state marking)
    {service queue : String} {info : ConsumerQueue} {message : Envelope}
    (consumes : (pipeline.consumed service).get? queue = some info)
    (among : (queue, message) ∈ state.queued) :
    ∃ upstream, info.toTask ∈ downstream pipeline.tasks upstream ∧
      pipeline.serviceOf info.toTask = service ∧
      pipeline.edgeOf queue = some (upstream, info.toTask) ∧
      message.pipelineRunId = some pipeline.run.id.text ∧
      message.sender = upstream := by
  obtain ⟨upstream, edge, isService, isQueue⟩ :=
    consumed_cases named consumes
  have isEdge : pipeline.edgeOf queue = some (upstream, info.toTask) :=
    (edgeOf_eq_some_iff named).mpr ⟨edge, isQueue.symm⟩
  obtain ⟨sameRun, isSource⟩ := simulates.queued _ among _ isEdge
  refine ⟨upstream, edge, isService, isEdge, sameRun, ?_⟩
  unfold Envelope.sender
  rw [isSource]
  rfl

theorem tokensOf_taken
    {front back : List (String × Envelope)} {queue : String}
    {message : Envelope} {edge : String × String}
    (arrived : state.queued = front ++ (queue, message) :: back)
    (isEdge : pipeline.edgeOf queue = some edge) :
    pipeline.tokensOf state =
      edge ::ₘ pipeline.tokensOf { state with queued := front ++ back } := by
  have found : ((queue, message) :: back).filterMap
      (fun other => pipeline.edgeOf other.1) =
        edge :: back.filterMap fun other => pipeline.edgeOf other.1 :=
    List.filterMap_cons_some isEdge
  unfold tokensOf
  dsimp only
  rw [arrived, List.filterMap_append, List.filterMap_append, found,
    ← Multiset.cons_add, Multiset.cons_coe]
  exact congrArg (· + _) (Multiset.coe_eq_coe.mpr List.perm_middle)

section Taken

variable
  {left : List (String × Envelope)} {upstream toTask : String}
  {store : AggregatorStore}

/-- The buffers after a message for a task, where the network has cleared the
inputs of the task or kept them. -/
theorem arrived_after
    (simulates : pipeline.Simulates state marking)
    {later : RunState} {here : Finset String}
    (sameBuffers : later.buffers =
      Function.update state.buffers (pipeline.serviceOf toTask) store)
    (frame : ∀ key, key ≠ aggregatorKey pipeline.run.id.text toTask →
      store.get? key =
        (state.buffers (pipeline.serviceOf toTask)).get? key)
    (own : ∀ step, step ∈ here ↔ pipeline.required toTask ≠ [] ∧
      ((store.get? (aggregatorKey pipeline.run.id.text toTask)).getD
        .empty).contains step = true)
    {taskId : String} (isTask : taskId ∈ pipeline.ids) (step : String) :
    step ∈ Function.update marking.arrived toTask here taskId ↔
      pipeline.required taskId ≠ [] ∧
        (pipeline.bufferOf later taskId).contains step = true := by
  by_cases same : taskId = toTask
  · subst same
    rw [Function.update_self, bufferOf_self sameBuffers]
    exact own step
  · rw [Function.update_of_ne same, bufferOf_other sameBuffers frame same]
    exact simulates.arrived taskId isTask step

/-- The message completes the required steps. -/
theorem Simulates.flush
    (simulates : pipeline.Simulates state marking)
    (isTask : toTask ∈ pipeline.ids)
    (kept : ∀ other ∈ left, other ∈ state.queued)
    (whole : marking.tokens = (upstream, toTask) ::ₘ
      pipeline.tokensOf { state with queued := left })
    (frame : ∀ key, key ≠ aggregatorKey pipeline.run.id.text toTask →
      store.get? key =
        (state.buffers (pipeline.serviceOf toTask)).get? key)
    (fires : pipeline.network.inputs toTask ⊆
      insert upstream (marking.arrived toTask))
    (flushed : pipeline.required toTask ≠ [] →
      store.get? (aggregatorKey pipeline.run.id.text toTask) = none)
    {running : Running} (sameTask : running.call.toTask = toTask)
    (sameRun : running.call.nextState.pipelineRunId =
      pipeline.run.id.text) :
    pipeline.Simulates
      { entries := state.entries
        queued := left
        buffers :=
          Function.update state.buffers (pipeline.serviceOf toTask) store
        running := state.running ++ [running]
        executed := state.executed ++ [running.call.toTask] }
      (pipeline.network.deliver marking (upstream, toTask)) := by
  have delivers : pipeline.network.deliver marking (upstream, toTask) =
      pipeline.network.fire
        { marking with
          tokens := marking.tokens.erase (upstream, toTask)
          arrived := Function.update marking.arrived toTask ∅ } toTask :=
    if_pos fires
  have emits := @tokensOf_running pipeline { state with queued := left }
    { entries := state.entries
      queued := left
      buffers :=
        Function.update state.buffers (pipeline.serviceOf toTask) store
      running := state.running ++ [running]
      executed := state.executed ++ [running.call.toTask] }
    running rfl rfl
  rw [delivers]
  exact
    { waiting := simulates.waiting
      fired := by
        rw [sameTask]
        exact congrArg (· ++ [toTask]) simulates.fired
      tokens := by
        rw [emits, sameTask, Network.fire, whole,
          Multiset.erase_cons_head]
      arrived := fun taskId member step => by
        refine arrived_after simulates rfl frame (fun step => ?_) member
          step
        refine iff_of_false (Finset.notMem_empty step) ?_
        rintro ⟨joins, contained⟩
        rw [flushed joins] at contained
        cases contained
      entries := simulates.entries
      queued := fun message member =>
        simulates.queued message (kept message member)
      running := by
        intro other member
        rcases List.mem_append.mp member with earlier | now
        · exact simulates.running other earlier
        · rw [List.mem_singleton.mp now, sameTask]
          exact ⟨isTask, sameRun⟩ }

/-- Steps are missing after the message. -/
theorem Simulates.keep
    (simulates : pipeline.Simulates state marking)
    (isTask : toTask ∈ pipeline.ids) {message : Envelope}
    (kept : ∀ other ∈ left, other ∈ state.queued)
    (whole : marking.tokens = (upstream, toTask) ::ₘ
      pipeline.tokensOf { state with queued := left })
    (frame : ∀ key, key ≠ aggregatorKey pipeline.run.id.text toTask →
      store.get? key =
        (state.buffers (pipeline.serviceOf toTask)).get? key)
    (waits : ¬ pipeline.network.inputs toTask ⊆
      insert upstream (marking.arrived toTask))
    (joins : pipeline.required toTask ≠ [])
    (isStored : store.get? (aggregatorKey pipeline.run.id.text toTask) =
      some ((pipeline.bufferOf state toTask).set upstream message)) :
    pipeline.Simulates
      { state with
        queued := left
        buffers :=
          Function.update state.buffers (pipeline.serviceOf toTask) store }
      (pipeline.network.deliver marking (upstream, toTask)) := by
  have delivers : pipeline.network.deliver marking (upstream, toTask) =
      { marking with
        tokens := marking.tokens.erase (upstream, toTask)
        arrived := Function.update marking.arrived toTask
          (insert upstream (marking.arrived toTask)) } :=
    if_neg waits
  rw [delivers]
  exact
    { waiting := simulates.waiting
      fired := simulates.fired
      tokens := by
        rw [whole, Multiset.erase_cons_head]
        rfl
      arrived := fun taskId member step => by
        refine arrived_after simulates rfl frame (fun step => ?_) member
          step
        rw [isStored, Option.getD_some, OrderedMap.contains,
          OrderedMap.get?_set, Finset.mem_insert,
          simulates.arrived toTask isTask step, and_iff_right joins,
          and_iff_right joins]
        by_cases same : step = upstream
        · rw [if_pos same]
          exact iff_of_true (Or.inl same) rfl
        · rw [if_neg same, or_iff_right same]
          rfl
      entries := simulates.entries
      queued := fun message member =>
        simulates.queued message (kept message member)
      running := simulates.running }

end Taken

/-- A message that a consumer manager takes is a token that is delivered. -/
theorem Simulates.handle
    (named : WellNamed pipeline.tasks)
    (simulates : pipeline.Simulates state marking)
    {service queue : String} {info : ConsumerQueue} {message : Envelope}
    {front back : List (String × Envelope)}
    (consumes : (pipeline.consumed service).get? queue = some info)
    (arrived : state.queued = front ++ (queue, message) :: back) :
    ∃ edge ∈ marking.tokens, pipeline.edgeOf queue = some edge ∧
      pipeline.Simulates
        (pipeline.handleMessage state (front ++ back) service queue
          info.toTask message)
        (pipeline.network.deliver marking edge) := by
  have among : (queue, message) ∈ state.queued := by
    rw [arrived]
    exact List.mem_append_right _ List.mem_cons_self
  have kept : ∀ other ∈ front ++ back, other ∈ state.queued := by
    intro other member
    rw [arrived]
    rcases List.mem_append.mp member with before | after
    · exact List.mem_append_left _ before
    · exact List.mem_append_right _ (List.mem_cons_of_mem _ after)
  obtain ⟨upstream, edge, isService, isEdge, sameRun, isSender⟩ :=
    exists_edge named simulates consumes among
  generalize info.toTask = toTask at edge isService isEdge ⊢
  subst isService
  have isTask := (pipeline.edge_inside edge).2
  have nonempty : toTask ≠ "" := by
    obtain ⟨task, member, sameId⟩ := List.mem_map.mp isTask
    rw [← sameId]
    exact named.nonempty task member
  have whole := simulates.tokens.trans (tokensOf_taken arrived isEdge)
  refine ⟨(upstream, toTask), ?_, isEdge, ?_⟩
  · rw [whole]
    exact Multiset.mem_cons_self _ _
  cases isHandled : aggregate
      (pipeline.serviceConfig (pipeline.serviceOf toTask))
      (state.buffers (pipeline.serviceOf toTask)) pipeline.run.id.text
      toTask message with
  | mk store call? =>
  have handles : defaultHandler
      (pipeline.serviceConfig (pipeline.serviceOf toTask))
      (state.buffers (pipeline.serviceOf toTask)) ⟨some toTask, message⟩ =
        (store, call?) := by
    unfold defaultHandler
    rw [context?_ordinary sameRun nonempty]
    exact isHandled
  have framed := fun key => aggregate_frame
    (pipeline.serviceConfig (pipeline.serviceOf toTask))
    (state.buffers (pipeline.serviceOf toTask)) pipeline.run.id.text
    toTask message key
  rw [isHandled] at framed
  have outcome :
      if ∀ step ∈ pipeline.required toTask,
          ((pipeline.bufferOf state toTask).set upstream
            message).contains step = true then
        (∃ call, call? = some call) ∧
          (pipeline.required toTask ≠ [] →
            store.get? (aggregatorKey pipeline.run.id.text toTask) = none)
      else
        call? = none ∧
          store.get? (aggregatorKey pipeline.run.id.text toTask) =
            some ((pipeline.bufferOf state toTask).set upstream
              message) := by
    have cases := aggregate_cases isHandled rfl
    rw [isSender] at cases
    exact cases
  have complete := inputs_subset_iff simulates message edge
  by_cases fires : pipeline.network.inputs toTask ⊆
      insert upstream (marking.arrived toTask)
  · rw [if_pos (complete.mp fires)] at outcome
    obtain ⟨⟨call, rfl⟩, flushed⟩ := outcome
    have handled : pipeline.handleMessage state (front ++ back)
        (pipeline.serviceOf toTask) queue toTask message =
          { entries := state.entries
            queued := front ++ back
            buffers := Function.update state.buffers
              (pipeline.serviceOf toTask) store
            running := state.running ++
              [⟨pipeline.serviceOf toTask, .consumer queue, call⟩]
            executed := state.executed ++ [call.toTask] } := by
      unfold handleMessage
      rw [handles]
    have calls : (aggregate
        (pipeline.serviceConfig (pipeline.serviceOf toTask))
        (state.buffers (pipeline.serviceOf toTask)) pipeline.run.id.text
        toTask message).2 = some call := by
      rw [isHandled]
    obtain ⟨sameTask, _, isNext⟩ := aggregate_call_nextState calls
    have isRun : call.nextState.pipelineRunId = pipeline.run.id.text :=
      (congrArg TaskState.pipelineRunId isNext).trans
        (congrArg (Option.getD · "") sameRun)
    rw [handled]
    exact simulates.flush isTask kept whole
      (fun key different => (framed key different).1) fires flushed
      sameTask isRun
  · rw [if_neg fun all => fires (complete.mpr all)] at outcome
    obtain ⟨rfl, isStored⟩ := outcome
    have joins : pipeline.required toTask ≠ [] := by
      intro single
      apply fires
      rw [complete, single]
      exact fun _ none => by cases none
    have handled : pipeline.handleMessage state (front ++ back)
        (pipeline.serviceOf toTask) queue toTask message =
          { state with
            queued := front ++ back
            buffers := Function.update state.buffers
              (pipeline.serviceOf toTask) store } := by
      unfold handleMessage
      rw [handles]
    rw [handled]
    exact simulates.keep isTask kept whole
      (fun key different => (framed key different).1) fires joins
      isStored

/-! ## Ends of calls -/

/-- The loop ends in a state of the task that it was given. -/
theorem sameTask_dispatchLoop
    (env : TrackerEnv) {payload : TaskState} (winnerResolved : Bool)
    (attempts : ℕ → Forwarder.Attempt) (remaining count : ℕ)
    {base : TaskState} (same : SameTask base payload)
    (tracker : TrackerState) (stores : Stores) :
    SameTask (dispatchLoop env payload winnerResolved attempts remaining
      count base tracker stores).finalState payload := by
  induction remaining generalizing count base tracker stores with
  | zero =>
      exact finalTaskState_sameTask same winnerResolved (attempts count)
  | succ remaining inductionHypothesis =>
      rw [dispatchLoop]
      split
      · exact inductionHypothesis _ (retryState_sameTask _ _ _) _ _
      · exact finalTaskState_sameTask same winnerResolved (attempts count)

theorem finalState_pipelineRunId
    (service : String) (worker : Worker) (execution : Execution)
    (call : ForwardCall) :
    (pipeline.finalState service worker execution call).pipelineRunId =
      call.nextState.pipelineRunId := by
  have same : SameTask
      { execution.payload call.nextState with
        serviceName := call.nextState.serviceName }
      (execution.payload call.nextState) :=
    ⟨rfl, rfl, rfl, rfl, rfl⟩
  exact (sameTask_dispatchLoop _ _ _ _ _ same _ _).pipelineRunId

theorem sent_of_encounter
    (running : Running) (encounter : Encounter) :
    (forward (pipeline.settings running.service) encounter.worker
      encounter.execution running.call).sent =
        (callPublishWithRetry
          (outgoingEdges pipeline.config.rabbitmqConfigs
            running.call.toTask) fun _ => {}).1 := by
  have clear : encounter.execution.publish = fun _ => {} :=
    funext encounter.published
  rw [← clear]
  rfl

/-- The end of a call puts its tokens into the queues. -/
theorem Simulates.finish
    (named : WellNamed pipeline.tasks)
    (simulates : pipeline.Simulates state marking)
    {running : Running} {front back : List Running}
    (going : state.running = front ++ running :: back)
    (encounter : Encounter) :
    pipeline.Simulates
      (pipeline.finishCall state (front ++ back) running encounter)
      marking := by
  obtain ⟨stages⟩ := pipeline.exists_stages
  have among : running ∈ state.running := by
    rw [going]
    exact List.mem_append_right _ List.mem_cons_self
  obtain ⟨isTask, sameRun⟩ := simulates.running running among
  have kept : ∀ other ∈ front ++ back, other ∈ state.running := by
    intro other member
    rw [going]
    rcases List.mem_append.mp member with before | after
    · exact List.mem_append_left _ before
    · exact List.mem_append_right _ (List.mem_cons_of_mem _ after)
  have emits := edges_published named isTask
    (pipeline.finalState running.service encounter.worker
      encounter.execution running.call)
  rw [← sent_of_encounter running encounter] at emits
  exact
    { waiting := simulates.waiting
      fired := simulates.fired
      tokens := by
        rw [simulates.tokens]
        unfold tokensOf finishCall
        dsimp only
        rw [List.filterMap_append, ← Multiset.coe_add, emits, going,
          List.map_append, List.map_cons, List.sum_append, List.sum_cons,
          List.map_append, List.sum_append]
        ac_rfl
      arrived := simulates.arrived
      entries := simulates.entries
      queued := by
        intro message member edge isEdge
        rcases List.mem_append.mp member with earlier | now
        · exact simulates.queued message earlier edge isEdge
        obtain ⟨queue, reached, rfl⟩ := List.mem_map.mp now
        refine ⟨?_, ?_⟩
        · exact congrArg some ((finalState_pipelineRunId _ _ _ _).trans
            sameRun)
        · rw [sent_of_encounter, delivered_eq, sent_of_clear] at reached
          obtain ⟨isPair, sameQueue⟩ :=
            (edgeOf_eq_some_iff named).mp isEdge
          obtain ⟨task, isStored, sameId⟩ := List.mem_map.mp isTask
          have ordinary : running.call.toTask ≠ "entry" := by
            rw [← sameId]
            exact named.ordinary task isStored
          exact congrArg some (source_of_reached stages.parsing named _ _ _
            ordinary reached isPair sameQueue.symm).symm
      running := fun other member =>
        simulates.running other (kept other member) }

end Steps

end LaunchedPipeline

end Agentcy.Pipeline
