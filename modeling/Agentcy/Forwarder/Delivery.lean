import Agentcy.Consumer.Aggregator
import Agentcy.Forwarder.Publish
import Agentcy.Forwarder.RunFailure

/-!
# From a consumed message to its acknowledgement

The consumer hands a message to its handler, the handler runs the forwarder,
and the forwarder tracks the final state of the task before it publishes it.
Errors of the publish are caught in the forwarder or in the consumer; either
way the message is acknowledged.
-/

namespace Agentcy.Forwarder

open Agentcy.Broker
open Agentcy.Consumer
open Agentcy.Library
open Agentcy.Runs
open Agentcy.Tracker

/-- An inline resolution of a competing task: the service that won, whether
its entry point could be loaded, and what was written for it. -/
structure Resolution where
  service : String
  entryLoaded : Bool := false
  sequence : Option EvaluationSequence := none
  award : Option ContractAward := none

/-- What one execution of a task meets. -/
structure Execution where
  now : Timestamp := 0
  resolution : Option Resolution := none
  attempts : Nat → Attempt
  publish : Nat → PublishAttempt := fun _ => {}

/-- The service of the task that a resolution switches to. -/
def Execution.switchedService?
    (execution : Execution) (nextState : TaskState) : Option String :=
  (execution.resolution.map Resolution.service).filter fun service =>
    service ≠
      (if nextState.serviceName ≠ "" then nextState.serviceName
        else nextState.taskId)

def Execution.winnerResolved
    (execution : Execution) (nextState : TaskState) : Bool :=
  (execution.switchedService? nextState).isSome &&
    (execution.resolution.map Resolution.entryLoaded).getD false

/-- The input of the loop: the next state, set to running and given to the
service that won. -/
def Execution.payload
    (execution : Execution) (nextState : TaskState) : TaskState :=
  { nextState with
    status := .running
    lastUpdated := execution.now
    serviceName :=
      (execution.switchedService? nextState).getD nextState.serviceName }

def Execution.resolvedStores
    (execution : Execution) (username : String) (stores : Stores) :
    Stores :=
  match execution.resolution with
  | none => stores
  | some resolution =>
      let saved :=
        match resolution.sequence with
        | none => stores
        | some sequence =>
            stores.saveEvaluationSequence username sequence
      match resolution.award with
      | none => saved
      | some award => saved.addContractAward award

structure Settings where
  env : TrackerEnv := {}
  consumer : ConsumerConfig := {}
  rabbitmqConfigs : List RabbitConfig := []
  maxReforwards : Int := 3

/-- A consumer process: its fan-in buffers, the tracker of its forwarder, and
the stores it shares with the others. -/
structure Worker where
  buffers : AggregatorStore := .empty
  tracker : TrackerState := {}
  stores : Stores

structure Handled where
  worker : Worker
  sent : List Sent := []
  error : Option PublishError := none

section Handling

variable (settings : Settings)

/-- `DefaultForwarder.forward` on a task state.  A `RetryError` of the
publish is logged; after a `TypeError` the publish is called once more with an
argument missing, which raises a `TypeError` again. -/
def forward
    (worker : Worker) (execution : Execution) (call : ForwardCall) :
    Handled :=
  let nextState := call.nextState
  let dispatched :=
    dispatch settings.env (execution.payload nextState)
      (execution.winnerResolved nextState) execution.attempts
      nextState.serviceName settings.maxReforwards worker.tracker
      (execution.resolvedStores nextState.username worker.stores)
  let published :=
    callPublishWithRetry
      (outgoingEdges settings.rabbitmqConfigs call.toTask)
      execution.publish
  { worker :=
      { worker with
        tracker := dispatched.tracker
        stores := dispatched.stores }
    sent := published.1
    error :=
      if published.2 = some .retryError then none else published.2 }

/-- One call of `default_handler`. -/
def handleOnce
    (worker : Worker) (delivery : Delivery) (execution : Execution) :
    Handled :=
  let handled :=
    defaultHandler settings.consumer worker.buffers delivery
  let buffered := { worker with buffers := handled.1 }
  match handled.2 with
  | none => { worker := buffered }
  | some call => forward settings buffered execution call

/-- The dispatcher calls the handler a second time after a `TypeError`, with
the legacy signature.  The third signature fails on the first access to the
message, and every error that is left is logged before the acknowledgement. -/
def handleIncomingMessage
    (worker : Worker) (delivery : Delivery)
    (first second : Execution) : Handled :=
  let once := handleOnce settings worker delivery first
  match once.error with
  | some .typeError =>
      let again := handleOnce settings once.worker delivery second
      { worker := again.worker, sent := once.sent ++ again.sent }
  | _ => { worker := once.worker, sent := once.sent }

end Handling

/-- Key of the run document that a message belongs to. -/
def messageRunKey (cfg : ConsumerConfig) (message : Envelope) : String :=
  (makeNextTaskState cfg "" message none).runKey

theorem aggregate_call_nextState
    {cfg : ConsumerConfig} {store : AggregatorStore}
    {runId toTask : String} {message : Envelope} {call : ForwardCall}
    (calls : (aggregate cfg store runId toTask message).2 = some call) :
    call.toTask = toTask ∧
      ∃ aggregated,
        call.nextState =
          makeNextTaskState cfg toTask message aggregated := by
  rw [aggregate] at calls
  split at calls
  · obtain rfl := Option.some.inj calls
    exact ⟨rfl, none, rfl⟩
  · split at calls
    · split at calls
      · cases calls
      · obtain rfl := Option.some.inj calls
        exact ⟨rfl, some _, rfl⟩
    · cases calls

theorem defaultHandler_call
    {cfg : ConsumerConfig} {store : AggregatorStore}
    {delivery : Delivery} {call : ForwardCall}
    (calls : (defaultHandler cfg store delivery).2 = some call) :
    delivery.toTask = some call.toTask ∧
      call.nextState.runKey = messageRunKey cfg delivery.message := by
  rw [defaultHandler] at calls
  cases context : delivery.context? with
  | none =>
      rw [context] at calls
      cases calls
  | some found =>
      rw [context] at calls
      obtain ⟨sameTask, aggregated, nextState⟩ :=
        aggregate_call_nextState calls
      refine ⟨?_, by rw [nextState]; rfl⟩
      rw [Delivery.context?] at context
      split at context
      · rename_i runId toTask _ isTask
        obtain ⟨stored, _⟩ := Option.filter_eq_some_iff.mp isTask
        rw [sameTask, ← Option.some.inj context]
        exact stored
      · cases context

section SentOrFailed

variable (settings : Settings) (worker : Worker) (delivery : Delivery)

def edgesOf (toTask : String) : List Rabbit :=
  outgoingEdges settings.rabbitmqConfigs toTask

/-- Every outgoing edge of the task has received its envelope, or the stored
run is failed. -/
def SentOrFailed (toTask : String) (handled : Handled) : Prop :=
  AllEdgesReceived (edgesOf settings toTask) handled.sent ∨
    storedStatus? handled.worker.stores
      (messageRunKey settings.consumer delivery.message) = some .failed

/-- Condition under which an execution that starts from this worker leaves
the run failed. -/
def ExecutionLeavesRunFailed
    (execution : Execution) (call : ForwardCall) : Prop :=
  LeavesRunFailed settings.env (execution.payload call.nextState)
    (execution.winnerResolved call.nextState) execution.attempts
    call.nextState.serviceName settings.maxReforwards worker.tracker
    (execution.resolvedStores call.nextState.username worker.stores)

/-- The worker after the handler has put the message into its buffer. -/
def buffered : Worker :=
  { worker with
    buffers :=
      (defaultHandler settings.consumer worker.buffers delivery).1 }

/-- The forward call of the second handler call, if the publish of the first
one raised a `TypeError`. -/
def secondCall? (first : Execution) (call : ForwardCall) :
    Option ForwardCall :=
  if (callPublishWithRetry (edgesOf settings call.toTask)
      first.publish).2 = some .typeError then
    (defaultHandler settings.consumer
      (buffered settings worker delivery).buffers delivery).2
  else
    none

/-- Condition on the worker, the message and what its executions meet under
which the message is sent on or its run fails. -/
def SendsOrFails
    (first second : Execution) (call : ForwardCall) : Prop :=
  edgesOf settings call.toTask = [] ∨
    PublishCompletes (edgesOf settings call.toTask) first.publish ∨
    match secondCall? settings worker delivery first call with
    | none => ExecutionLeavesRunFailed settings worker first call
    | some again =>
        PublishCompletes (edgesOf settings call.toTask) second.publish ∨
          ExecutionLeavesRunFailed settings
            (forward settings (buffered settings worker delivery) first
              call).worker
            second again

theorem forward_leaves_run_failed_iff
    (execution : Execution) (call : ForwardCall) :
    storedStatus? (forward settings worker execution call).worker.stores
        call.nextState.runKey = some .failed ↔
      ExecutionLeavesRunFailed settings worker execution call :=
  run_failed_after_dispatch_iff settings.env
    (execution.payload call.nextState)
    (execution.winnerResolved call.nextState) execution.attempts
    call.nextState.serviceName settings.maxReforwards worker.tracker
    (execution.resolvedStores call.nextState.username worker.stores)

theorem handleOnce_of_call
    (execution : Execution) {call : ForwardCall}
    (calls :
      (defaultHandler settings.consumer worker.buffers delivery).2 =
        some call) :
    handleOnce settings worker delivery execution =
      forward settings (buffered settings worker delivery) execution
        call := by
  rw [handleOnce, calls]
  rfl

theorem handleOnce_of_no_call
    (execution : Execution)
    (calls :
      (defaultHandler settings.consumer worker.buffers delivery).2 =
        none) :
    handleOnce settings worker delivery execution =
      { worker := buffered settings worker delivery } := by
  rw [handleOnce, calls]
  rfl

/-- What an execution sends reaches all edges exactly when its publish
completes; otherwise it does not reach the last one. -/
theorem forward_sent
    (execution : Execution) (call : ForwardCall)
    (outgoing : edgesOf settings call.toTask ≠ []) :
    (PublishCompletes (edgesOf settings call.toTask) execution.publish →
        AllEdgesReceived (edgesOf settings call.toTask)
          (forward settings worker execution call).sent) ∧
      (¬ PublishCompletes (edgesOf settings call.toTask)
          execution.publish →
        ∀ sent ∈ (forward settings worker execution call).sent,
          sent.position + 1 < (edgesOf settings call.toTask).length) :=
  ⟨publishRetrying_of_completes outgoing,
    publishRetrying_of_not_completes⟩

theorem forward_allEdgesReceived_iff
    (execution : Execution) (call : ForwardCall)
    (outgoing : edgesOf settings call.toTask ≠ []) :
    AllEdgesReceived (edgesOf settings call.toTask)
        (forward settings worker execution call).sent ↔
      PublishCompletes (edgesOf settings call.toTask)
        execution.publish := by
  obtain ⟨reaches, stops⟩ :=
    forward_sent settings worker execution call outgoing
  refine ⟨fun received => ?_, reaches⟩
  by_contra fails
  exact not_allEdgesReceived outgoing (stops fails) received

/-- The error of the forwarder is a `TypeError` exactly when its publish
raised one. -/
theorem forward_error_typeError_iff
    (execution : Execution) (call : ForwardCall) :
    (forward settings worker execution call).error = some .typeError ↔
      (callPublishWithRetry (edgesOf settings call.toTask)
        execution.publish).2 = some .typeError := by
  rw [forward]
  dsimp only
  split
  · rename_i retryError
    rw [edgesOf, retryError]
    simp
  · rfl

theorem handleIncomingMessage_of_typeError
    {first second : Execution} {call : ForwardCall}
    (calls :
      (defaultHandler settings.consumer worker.buffers delivery).2 =
        some call)
    (typeError :
      (callPublishWithRetry (edgesOf settings call.toTask)
        first.publish).2 = some .typeError) :
    handleIncomingMessage settings worker delivery first second =
      let once :=
        forward settings (buffered settings worker delivery) first call
      let again := handleOnce settings once.worker delivery second
      { worker := again.worker, sent := once.sent ++ again.sent } := by
  have error :=
    (forward_error_typeError_iff settings
      (buffered settings worker delivery) first call).mpr typeError
  rw [handleIncomingMessage,
    handleOnce_of_call settings worker delivery _ calls, error]

theorem handleIncomingMessage_of_no_typeError
    {first second : Execution} {call : ForwardCall}
    (calls :
      (defaultHandler settings.consumer worker.buffers delivery).2 =
        some call)
    (typeError :
      (callPublishWithRetry (edgesOf settings call.toTask)
        first.publish).2 ≠ some .typeError) :
    handleIncomingMessage settings worker delivery first second =
      let once :=
        forward settings (buffered settings worker delivery) first call
      { worker := once.worker, sent := once.sent } := by
  have error :=
    (not_congr
      (forward_error_typeError_iff settings
        (buffered settings worker delivery) first call)).mpr typeError
  rw [handleIncomingMessage,
    handleOnce_of_call settings worker delivery _ calls]
  dsimp only
  split
  · rename_i raised
    exact absurd raised error
  · rfl

/-- The envelopes of two executions reach all edges together exactly when
those of one of them do: each sends to a first part of the edges. -/
theorem two_forwards_allEdgesReceived_iff
    (later : Worker) (first second : Execution)
    {call again : ForwardCall} (sameTask : again.toTask = call.toTask)
    (outgoing : edgesOf settings call.toTask ≠ []) :
    AllEdgesReceived (edgesOf settings call.toTask)
        ((forward settings worker first call).sent ++
          (forward settings later second again).sent) ↔
      PublishCompletes (edgesOf settings call.toTask) first.publish ∨
        PublishCompletes (edgesOf settings call.toTask)
          second.publish := by
  have firstSent := forward_sent settings worker first call outgoing
  have secondSent :=
    forward_sent settings later second again (sameTask ▸ outgoing)
  rw [sameTask] at secondSent
  constructor
  · intro received
    by_contra neither
    rw [not_or] at neither
    refine not_allEdgesReceived outgoing ?_ received
    intro sent member
    rcases List.mem_append.mp member with early | late
    · exact firstSent.2 neither.1 sent early
    · exact secondSent.2 neither.2 sent late
  · rintro (completes | completes)
    · exact (firstSent.1 completes).append_left _
    · exact (secondSent.1 completes).append_right _

/-- For every worker, message and pattern of failures: a message that leads
to an execution is sent on to every edge or leaves its run failed exactly
under the condition. -/
theorem sentOrFailed_iff
    (first second : Execution) {call : ForwardCall}
    (calls :
      (defaultHandler settings.consumer worker.buffers delivery).2 =
        some call) :
    SentOrFailed settings delivery call.toTask
        (handleIncomingMessage settings worker delivery first second) ↔
      SendsOrFails settings worker delivery first second call := by
  obtain ⟨sameTask, sameRun⟩ := defaultHandler_call calls
  by_cases outgoing : edgesOf settings call.toTask = []
  · refine iff_of_true (Or.inl ?_) (Or.inl outgoing)
    rw [outgoing]
    intro position bound
    cases bound
  · have sent :=
      forward_allEdgesReceived_iff settings
        (buffered settings worker delivery) first call outgoing
    have failed :=
      forward_leaves_run_failed_iff settings
        (buffered settings worker delivery) first call
    rw [sameRun] at failed
    by_cases typeError :
        (callPublishWithRetry (edgesOf settings call.toTask)
          first.publish).2 = some .typeError
    · rw [handleIncomingMessage_of_typeError settings worker delivery
        calls typeError]
      cases callsAgain :
          (defaultHandler settings.consumer
            (buffered settings worker delivery).buffers delivery).2 with
      | none =>
          have secondCall :
              secondCall? settings worker delivery first call = none :=
            (if_pos typeError).trans callsAgain
          have again :=
            handleOnce_of_no_call settings
              (forward settings (buffered settings worker delivery)
                first call).worker delivery second
              callsAgain
          simp only [SentOrFailed, SendsOrFails, again, secondCall,
            List.append_nil, outgoing, false_or]
          exact or_congr sent failed
      | some again =>
          have secondCall :
              secondCall? settings worker delivery first call =
                some again :=
            (if_pos typeError).trans callsAgain
          obtain ⟨sameTaskAgain, sameRunAgain⟩ :=
            defaultHandler_call callsAgain
          have handledAgain :=
            handleOnce_of_call settings
              (forward settings (buffered settings worker delivery)
                first call).worker delivery second
              callsAgain
          have bothTasks : again.toTask = call.toTask :=
            Option.some.inj (sameTaskAgain.symm.trans sameTask)
          have sentBoth :=
            two_forwards_allEdgesReceived_iff settings
              (buffered settings worker delivery)
              (buffered settings
                (forward settings (buffered settings worker delivery)
                  first call).worker delivery)
              first second bothTasks outgoing
          have failedAgain :=
            forward_leaves_run_failed_iff settings
              (buffered settings
                (forward settings (buffered settings worker delivery)
                  first call).worker delivery)
              second again
          rw [sameRunAgain] at failedAgain
          simp only [SentOrFailed, SendsOrFails, handledAgain, secondCall,
            outgoing, false_or]
          rw [← or_assoc]
          exact or_congr sentBoth failedAgain
    · have secondCall :
          secondCall? settings worker delivery first call = none :=
        if_neg typeError
      rw [handleIncomingMessage_of_no_typeError settings worker delivery
        calls typeError]
      simp only [SentOrFailed, SendsOrFails, secondCall, outgoing,
        false_or]
      exact or_congr sent failed

end SentOrFailed

/-! ## A completed task with a silent edge -/

def twoEdgeSettings : Settings where
  rabbitmqConfigs :=
    [⟨"t", some { exchange := "t-to-u" }⟩,
      ⟨"t", some { exchange := "t-to-v" }⟩]

def taskMessage : Delivery where
  toTask := some "t"
  message :=
    { pipelineRunId := some "run-1"
      fromTask := some "s"
      username := some "alice"
      pipelineId := some "pipe-1" }

def taskWorker : Worker where
  stores :=
    { runs := fun key =>
        if key = runKey "alice" "pipe-1" "run-1" then
          some (seedInitialRun "alice" "pipe-1" "run-1"
            { taskDict := .ofList
                [("t", {}), ("end", { isFinalTask := true })] }
            none 0).modelDump
        else
          none }

/-- The logic succeeds; the broker refuses the second edge every time. -/
def refusedExecution : Execution where
  attempts := fun _ => { logic := some {}, clock := ⟨0, 0, 0⟩ }
  publish := fun _ =>
    { edge := fun position =>
        if position = 1 then { first := .raised .amqp false } else {} }

def acceptedExecution : Execution where
  attempts := fun _ => { logic := some {}, clock := ⟨0, 0, 0⟩ }

theorem taskMessage_executes :
    ∃ call,
      (defaultHandler twoEdgeSettings.consumer taskWorker.buffers
        taskMessage).2 = some call ∧ call.toTask = "t" :=
  ⟨_, rfl, rfl⟩

/-- The general statement at an execution whose publish meets no error. -/
theorem accepted_task_sent :
    SentOrFailed twoEdgeSettings taskMessage "t"
      (handleIncomingMessage twoEdgeSettings taskWorker taskMessage
        acceptedExecution acceptedExecution) := by
  obtain ⟨call, calls, sameTask⟩ := taskMessage_executes
  have sent :=
    (sentOrFailed_iff twoEdgeSettings taskWorker taskMessage
      acceptedExecution acceptedExecution calls).mpr
      (Or.inr (Or.inl (Or.inl
        ⟨rfl, fun _ _ => ⟨Nat.one_pos, fun _ => rfl⟩⟩)))
  rwa [sameTask] at sent

theorem refused_edge_silent :
    let handled :=
      handleIncomingMessage twoEdgeSettings taskWorker taskMessage
        refusedExecution refusedExecution
    let key := runKey "alice" "pipe-1" "run-1"
    storedTaskStatus? handled.worker.stores key "t" =
        some .completed ∧
      storedStatus? handled.worker.stores key = some .running ∧
      ¬ AllEdgesReceived (edgesOf twoEdgeSettings "t") handled.sent := by
  refine ⟨by decide +kernel, by decide +kernel, ?_⟩
  intro received
  have second := received 1 (by decide +kernel)
  revert second
  decide +kernel

end Agentcy.Forwarder
