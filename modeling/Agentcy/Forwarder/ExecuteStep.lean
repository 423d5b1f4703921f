import Agentcy.Consumer.HandlerDispatch
import Agentcy.Library.Attempts

/-!
# Executing the logic of a task

The forwarder calls the logic with the context of the task, and with the
message alone after a `TypeError`.  Each of the two calls is repeated after
other failures.
-/

namespace Agentcy.Forwarder

open Agentcy.Consumer
open Agentcy.Library

universe u v w

variable {State : Type u} {Value : Type v} {Result : Type w}

/-- `_retry_microservice_logic`. -/
def retryMicroserviceLogic : PyException → Bool
  | .typeError => false
  | .cancelledError => false
  | _ => true

/-- `call_microservice_logic_with_retry`, with three attempts at most. -/
def callMicroserviceLogicWithRetry
    (microserviceLogic : PyCall State Result) (before : Entered State) :
    Attempts (Entered State) PyException Result :=
  attempt retryMicroserviceLogic microserviceLogic 2 before

/-- What the forwarder passes to the logic. -/
structure LogicArguments (Value : Type v) where
  rm : Value
  pipelineRunId : Value
  toTask : Value
  triggeredBy : Value
  message : Value

def LogicArguments.full (arguments : LogicArguments Value) : List Value :=
  [arguments.rm, arguments.pipelineRunId, arguments.toTask,
    arguments.triggeredBy, arguments.message]

def LogicArguments.messageOnly
    (arguments : LogicArguments Value) : List Value :=
  [arguments.message]

structure Executed (State : Type u) (Result : Type w) where
  /-- The attempts that each of the calls made. -/
  attempts : List Nat
  state : Entered State
  result : Except PyException Result

/-- The execute step of `DefaultForwarder.forward`. -/
def executeStep
    (logic : PyFunction State Value Result)
    (arguments : LogicArguments Value) (before : Entered State) :
    Executed State Result :=
  let first :=
    callMicroserviceLogicWithRetry (logic.call arguments.full) before
  match first.result with
  | .error .typeError =>
      let second :=
        callMicroserviceLogicWithRetry (logic.call arguments.messageOnly)
          first.state
      ⟨[first.made, second.made], second.state, second.result⟩
  | result => ⟨[first.made], first.state, result⟩

/-- No call of the step was repeated. -/
def Executed.NotRetried (executed : Executed State Result) : Prop :=
  ∀ made ∈ executed.attempts, made = 1

section Step

variable (logic : PyFunction State Value Result)
variable (arguments : LogicArguments Value) (before : Entered State)

/-- A step that is not retried is the chain of the two signatures. -/
theorem executeStep_of_notRetried
    (notRetried : (executeStep logic arguments before).NotRetried) :
    (executeStep logic arguments before).state =
      (callChain logic arguments.full [arguments.messageOnly]
        before).1 := by
  have firstSingle :
      (callMicroserviceLogicWithRetry (logic.call arguments.full)
        before).made = 1 := by
    rw [executeStep] at notRetried
    dsimp only at notRetried
    split at notRetried
    · exact notRetried _ List.mem_cons_self
    · exact notRetried _ List.mem_cons_self
  have first :
      callMicroserviceLogicWithRetry (logic.call arguments.full) before =
        ⟨1, (logic.call arguments.full before).1,
          (logic.call arguments.full before).2⟩ :=
    attempt_of_made_eq_one firstSingle
  rw [executeStep, first] at notRetried ⊢
  dsimp only at notRetried ⊢
  rw [callChain, callChain]
  by_cases raised :
      (logic.call arguments.full before).2 = .error .typeError
  · rw [onTypeError_of_typeError raised]
    rw [raised] at notRetried ⊢
    dsimp only at notRetried ⊢
    have second :=
      attempt_of_made_eq_one
        (notRetried _ (List.mem_cons_of_mem _ List.mem_cons_self))
    rw [callMicroserviceLogicWithRetry, second]
  · rw [onTypeError_of_ne raised]
    split
    · rename_i typeError
      exact absurd typeError raised
    · rfl

/-- A step that is not retried enters the body of the logic once at most
exactly when the logic does not take both argument lists, or its body does
not raise a `TypeError` on the first of them. -/
theorem executeStep_entries_le_succ_iff
    (notRetried : (executeStep logic arguments before).NotRetried) :
    (executeStep logic arguments before).state.entries ≤
        before.entries + 1 ↔
      ¬ (logic.accepts 5 = true ∧ logic.accepts 1 = true) ∨
        (logic.body arguments.full before.state).2 ≠
          .error .typeError := by
  rw [executeStep_of_notRetried logic arguments before notRetried,
    callChain_entries_le_succ_iff, firstOutcome?, List.find?_cons]
  have takesFull : logic.takes arguments.full = logic.accepts 5 := rfl
  have takesMessage :
      logic.takes arguments.messageOnly = logic.accepts 1 := rfl
  simp only [List.countP_cons, List.countP_nil, takesFull, takesMessage]
  cases logic.accepts 5 <;> cases logic.accepts 1 <;> simp

end Step

/-- One dispatch of a message, and one step that is not retried, enter the
body they call once at most exactly under these conditions. -/
theorem bodyEnteredOnce_iff
    {HandlerState : Type u} {Answer : Type w}
    (handler : PyFunction HandlerState Value Answer)
    (message qinfo payload : Value) (handlerState : HandlerState)
    (logic : PyFunction State Value Result)
    (arguments : LogicArguments Value) (state : State)
    (notRetried : (executeStep logic arguments ⟨state, 0⟩).NotRetried) :
    ((dispatchToHandler handler message qinfo payload
          ⟨handlerState, 0⟩).1.entries ≤ 1 ↔
        handler.accepts 2 = false ∨
          firstOutcome? handler (handlerSignatures message qinfo payload)
              handlerState ≠
            some (.error .typeError)) ∧
      ((executeStep logic arguments ⟨state, 0⟩).state.entries ≤ 1 ↔
        ¬ (logic.accepts 5 = true ∧ logic.accepts 1 = true) ∨
          (logic.body arguments.full state).2 ≠ .error .typeError) :=
  ⟨dispatchToHandler_entries_le_succ_iff handler message qinfo payload
      ⟨handlerState, 0⟩,
    executeStep_entries_le_succ_iff logic arguments ⟨state, 0⟩ notRetried⟩

/-- A function that takes any arguments, leaves a trace and then raises. -/
def failsAfterTrace (failure : PyException) :
    PyFunction (List String) String Unit where
  accepts := fun _ => true
  body := fun arguments trace => (trace ++ arguments, .error failure)

def someArguments : LogicArguments String :=
  ⟨"rm", "run", "task", "source", "message"⟩

/-- With the `TypeError` of its body the handler runs three times and the
logic twice, though no attempt is repeated. -/
theorem typeError_enters_again :
    ((dispatchToHandler (failsAfterTrace .typeError) "message" "qinfo"
        "payload" ⟨[], 0⟩).1.entries = 3 ∧
      (executeStep (failsAfterTrace .typeError) someArguments
        ⟨[], 0⟩).attempts = [1, 1] ∧
      (executeStep (failsAfterTrace .typeError) someArguments
        ⟨[], 0⟩).state.entries = 2) ∧
    ¬ ∀ (function : PyFunction (List String) String Unit),
        (dispatchToHandler function "message" "qinfo" "payload"
            ⟨[], 0⟩).1.entries ≤ 1 ∧
          ((executeStep function someArguments ⟨[], 0⟩).NotRetried →
            (executeStep function someArguments ⟨[], 0⟩).state.entries ≤
              1) := by
  refine ⟨by decide, ?_⟩
  intro once
  exact absurd (once (failsAfterTrace .typeError)).1 (by decide)

/-- A cancelled logic is entered once. -/
theorem cancelled_is_entered_once :
    ((dispatchToHandler (failsAfterTrace .cancelledError) "message" "qinfo"
          "payload" ⟨[], 0⟩).1.entries ≤ 1 ↔
        (failsAfterTrace .cancelledError).accepts 2 = false ∨
          firstOutcome? (failsAfterTrace .cancelledError)
              (handlerSignatures "message" "qinfo" "payload") [] ≠
            some (.error .typeError)) ∧
      ((executeStep (failsAfterTrace .cancelledError) someArguments
          ⟨[], 0⟩).state.entries ≤ 1 ↔
        ¬ ((failsAfterTrace .cancelledError).accepts 5 = true ∧
            (failsAfterTrace .cancelledError).accepts 1 = true) ∨
          ((failsAfterTrace .cancelledError).body someArguments.full
            []).2 ≠ .error .typeError) :=
  bodyEnteredOnce_iff (failsAfterTrace .cancelledError) "message" "qinfo"
    "payload" [] (failsAfterTrace .cancelledError) someArguments []
    (by
      intro made member
      have single : (executeStep (failsAfterTrace .cancelledError)
          someArguments ⟨[], 0⟩).attempts = [1] := by decide
      rw [single] at member
      exact List.mem_singleton.mp member)

end Agentcy.Forwarder
