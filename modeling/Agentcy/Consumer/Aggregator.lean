import Agentcy.Library.Batches
import Agentcy.Runs.PipelineRunModel

/-!
# The fan-in aggregator of a consumer

`AsyncPipelineConsumerManager.default_handler`: a message for a task is put
into the buffer of its run and task under the upstream it came from; once all
required upstreams are there the buffer is flushed into one forward call.  The
buffer is a field of the consumer manager and lives as long as the manager.
-/

namespace Agentcy.Consumer

open Agentcy.Library
open Agentcy.Runs

/-- A message between tasks, with the keys the consumer looks at. -/
structure Envelope where
  pipelineRunId : Option String := none
  fromTask : Option String := none
  username : Option String := none
  pipelineId : Option String := none
  pipelineConfigId : Option String := none
  payload : Runs.Json := .null

instance : Inhabited Envelope :=
  ⟨{}⟩

def Envelope.sender (message : Envelope) : String :=
  message.fromTask.getD "<unknown>"

def textField (name : String) (value : Option String) :
    List (String × Runs.Json) :=
  (value.map fun text => (name, Runs.Json.text text)).toList

def Envelope.toJson (message : Envelope) : Runs.Json :=
  .object
    (textField "pipeline_run_id" message.pipelineRunId ++
      textField "username" message.username ++
      textField "pipeline_id" message.pipelineId ++
      textField "pipeline_config_id" message.pipelineConfigId ++
      textField "from_task" message.fromTask ++
      [("payload", message.payload)])

/-- The parts of a final configuration that the consumer reads. -/
structure ConsumerConfig where
  -- `required_steps` of the fan-in metadata
  requiredSteps : OrderedMap String (List String) := .empty
  availableServices : OrderedMap String String := .empty
  pipelineRunConfigId : String := ""
  pipelineId : String := ""

def ConsumerConfig.requiredUpstreams
    (cfg : ConsumerConfig) (toTask : String) : List String :=
  (cfg.requiredSteps.get? toTask).getD []

inductive TriggeredBy where
  | task (fromTask : String)
  | tasks (fromTasks : List String)
  deriving DecidableEq

/-- Arguments of one call of the registered forwarder. -/
structure ForwardCall where
  nextState : TaskState
  triggeredBy : TriggeredBy
  toTask : String

abbrev Bundle := OrderedMap String Envelope

/-- Upstream aggregation store: run and task to the envelopes by sender. -/
abbrev AggregatorStore := OrderedMap String Bundle

def orText (value : Option String) (fallback : String) : String :=
  (value.filter (· ≠ "")).getD fallback

/-- The state of the next task, with the inbound message or the aggregated
upstreams as its input. -/
def makeNextTaskState
    (cfg : ConsumerConfig) (toTask : String) (base : Envelope)
    (aggregated : Option Bundle) : TaskState where
  status := .pending
  attempts := 0
  error := none
  result := none
  outputRef := some ""
  isFinalTask := some false
  pipelineRunId := base.pipelineRunId.getD ""
  taskId := toTask
  username := base.username.getD ""
  pipelineConfigId :=
    some (orText base.pipelineConfigId cfg.pipelineRunConfigId)
  pipelineId := orText base.pipelineId cfg.pipelineId
  serviceName := (cfg.availableServices.get? toTask).getD ""
  data :=
    match aggregated with
    | some bundle =>
        .ofList
          [("upstreams",
            .object (bundle.entries.map fun entry =>
              (entry.1, entry.2.toJson)))]
    | none =>
        .ofList
          [("from_task", (base.fromTask.map Runs.Json.text).getD .null),
            ("payload", base.toJson)]

/-- A message together with the target task of the queue it came from. -/
structure Delivery where
  toTask : Option String
  message : Envelope

/-- The run and the task of a delivery; without both of them the aggregator
ignores the message. -/
def Delivery.context? (delivery : Delivery) : Option (String × String) :=
  match delivery.message.pipelineRunId.filter (· ≠ ""),
    delivery.toTask.filter (· ≠ "") with
  | some runId, some toTask => some (runId, toTask)
  | _, _ => none

def aggregatorKey (runId toTask : String) : String :=
  runId ++ "_" ++ toTask

/-- The buffer that the message completes or not, and the forward call it
leads to. -/
def aggregate
    (cfg : ConsumerConfig) (store : AggregatorStore)
    (runId toTask : String) (message : Envelope) :
    AggregatorStore × Option ForwardCall :=
  let key := aggregatorKey runId toTask
  let arrived := ((store.get? key).getD .empty).set message.sender message
  let needed := cfg.requiredUpstreams toTask
  if needed.isEmpty then
    (store.set key arrived,
      some
        { nextState := makeNextTaskState cfg toTask message none
          triggeredBy := .task message.sender
          toTask := toTask })
  else if needed.all arrived.contains then
    let popped := (store.set key arrived).erase key
    -- fan-in already flushed
    if arrived.entries.isEmpty then
      (popped, none)
    else
      (popped,
        some
          { nextState :=
              makeNextTaskState cfg toTask message (some arrived)
            triggeredBy := .tasks arrived.keys
            toTask := toTask })
  else
    (store.set key arrived, none)

def defaultHandler
    (cfg : ConsumerConfig) (store : AggregatorStore)
    (delivery : Delivery) : AggregatorStore × Option ForwardCall :=
  match delivery.context? with
  | none => (store, none)
  | some (runId, toTask) =>
      aggregate cfg store runId toTask delivery.message

/-- A consumer manager: its buffers, and the forward calls made so far. -/
structure Manager where
  store : AggregatorStore := .empty
  forwarded : List ForwardCall := []

def Manager.handle
    (cfg : ConsumerConfig) (manager : Manager) (delivery : Delivery) :
    Manager :=
  let handled := defaultHandler cfg manager.store delivery
  ⟨handled.1, manager.forwarded ++ handled.2.toList⟩

def bundleOf (messages : List Envelope) : Bundle :=
  messages.foldl (fun bundle message => bundle.set message.sender message)
    .empty

def Covers (needed : List String) (messages : List Envelope) : Prop :=
  messages ≠ [] ∧ ∀ upstream ∈ needed,
    upstream ∈ messages.map Envelope.sender

instance (needed : List String) : DecidablePred (Covers needed) :=
  fun messages =>
    decidable_of_iff
      (messages.isEmpty = false ∧ ∀ upstream ∈ needed,
        upstream ∈ messages.map Envelope.sender)
      (by simp [Covers])

theorem Covers.append
    {needed : List String} (first second : List Envelope)
    (covers : Covers needed first) : Covers needed (first ++ second) := by
  refine ⟨List.append_ne_nil_of_left_ne_nil covers.1 second, ?_⟩
  intro upstream required
  rw [List.map_append]
  exact List.mem_append_left _ (covers.2 upstream required)

theorem not_covers_nil (needed : List String) : ¬ Covers needed [] :=
  fun covers => covers.1 rfl

theorem bundleOf_concat (messages : List Envelope) (last : Envelope) :
    bundleOf (messages ++ [last]) =
      (bundleOf messages).set last.sender last := by
  simp [bundleOf]

theorem mem_keys_bundleOf (messages : List Envelope) (upstream : String) :
    upstream ∈ (bundleOf messages).keys ↔
      upstream ∈ messages.map Envelope.sender := by
  induction messages using List.reverseRecOn with
  | nil =>
      rfl
  | append_singleton messages last inductionHypothesis =>
      rw [bundleOf_concat, OrderedMap.mem_keys_set, inductionHypothesis]
      simp [or_comm]

/-- The forward call that a covering batch of messages leads to. -/
def batchCall
    (cfg : ConsumerConfig) (toTask : String) (batch : List Envelope) :
    ForwardCall :=
  let last := batch.getLastD default
  if (cfg.requiredUpstreams toTask).isEmpty then
    { nextState := makeNextTaskState cfg toTask last none
      triggeredBy := .task last.sender
      toTask := toTask }
  else
    { nextState :=
        makeNextTaskState cfg toTask last (some (bundleOf batch))
      triggeredBy := .tasks (bundleOf batch).keys
      toTask := toTask }

/-- With the buffer filled by the pending messages, a message flushes it
exactly when it completes a batch. -/
theorem aggregate_of_buffer
    (cfg : ConsumerConfig) (store : AggregatorStore)
    (runId toTask : String) (message : Envelope)
    (pending : List Envelope)
    (fanIn : cfg.requiredUpstreams toTask ≠ [])
    (buffer :
      (store.get? (aggregatorKey runId toTask)).getD .empty =
        bundleOf pending) :
    aggregate cfg store runId toTask message =
      if Covers (cfg.requiredUpstreams toTask) (pending ++ [message]) then
        ((store.set (aggregatorKey runId toTask)
            (bundleOf (pending ++ [message]))).erase
            (aggregatorKey runId toTask),
          some (batchCall cfg toTask (pending ++ [message])))
      else
        (store.set (aggregatorKey runId toTask)
            (bundleOf (pending ++ [message])), none) := by
  have complete :
      (cfg.requiredUpstreams toTask).all
          (bundleOf (pending ++ [message])).contains = true ↔
        Covers (cfg.requiredUpstreams toTask) (pending ++ [message]) := by
    simp only [List.all_eq_true, OrderedMap.contains,
      ← OrderedMap.mem_keys_iff, mem_keys_bundleOf, Covers]
    simp
  have notEmpty :
      (bundleOf (pending ++ [message])).entries.isEmpty = false := by
    have member : message.sender ∈
        (bundleOf (pending ++ [message])).keys := by
      rw [mem_keys_bundleOf]
      simp
    rw [List.isEmpty_eq_false_iff]
    intro nothing
    rw [OrderedMap.keys, nothing] at member
    cases member
  have several : (cfg.requiredUpstreams toTask).isEmpty = false := by
    rwa [List.isEmpty_eq_false_iff]
  rw [aggregate]
  dsimp only
  rw [buffer, ← bundleOf_concat, several, if_neg Bool.false_ne_true,
    notEmpty, if_neg Bool.false_ne_true]
  by_cases covers :
      Covers (cfg.requiredUpstreams toTask) (pending ++ [message])
  · rw [if_pos (complete.mpr covers), if_pos covers]
    simp [batchCall, several]
  · rw [if_neg (fun all => covers (complete.mp all)), if_neg covers]

end Agentcy.Consumer
