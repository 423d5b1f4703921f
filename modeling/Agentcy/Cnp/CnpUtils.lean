import Agentcy.Agents.AgentUtils
import Agentcy.Cnp.BlueprintBidder
import Agentcy.Cnp.BidScore

/-!
# What goes into the score of a bid

The parameters of a task, the counters of an agent, how far it is trusted, and
what it would cost, as they are read from the metadata of the task and of the
agent.
-/

namespace Agentcy.Cnp

open Agentcy.Agents
open Agentcy.Library
open Agentcy.Plans (orElse)

/-- `float(value)` and `int(value)`, without a result where they raise. -/
structure PyNumbers where
  toFloat : Json → Option ℚ
  toInt : Json → Option Int

namespace PyNumbers

variable (numbers : PyNumbers)

def coerceFloat (value : Json) (default : ℚ) : ℚ :=
  (numbers.toFloat value).getD default

def coerceInt (value : Json) (default : Int) : Int :=
  (numbers.toInt value).getD default

end PyNumbers

def RiskLevel.priority : RiskLevel → Int
  | .high => 5
  | .medium => 3
  | .low => 1

/-- `task_params`, without the task type. -/
def taskParams (numbers : PyNumbers) (spec : TaskSpec) : TaskParams :=
  let read (first second : String) : Json :=
    orElse (spec.metadata.get first) (spec.metadata.get second)
  let priority :=
    clamp
      (numbers.coerceInt (read "priority" "pri") spec.riskLevel.priority)
      1 5
  { priority := priority
    stimulus :=
      clamp
        (numbers.coerceFloat (read "stimulus" "sti")
          (2 / 10 + ((priority : ℚ) - 1) / 4 * (6 / 10)))
        0 1
    reward :=
      clamp
        (numbers.coerceFloat (read "reward" "rew") (1 / 10 + priority))
        (1 / 10) 6
    minScore :=
      match read "min_score" "min_bid_score" with
      | .null => none
      | value => some (clamp (numbers.coerceFloat value 0) 0 1) }

/-- The task type among the parameters. -/
def taskTypeOf (python : PyBuiltins) (spec : TaskSpec) : String :=
  let general := (spec.requiredCapabilities.head?).getD "general"
  (orElse (spec.metadata.get "task_type") (.str general)).pyStr python

/-- `agent_cnp_state` of a document.  The thresholds that it copies are not
used here, but they must be something that can be copied. -/
def cnpStateOf
    (python : PyBuiltins) (numbers : PyNumbers) (lmaxDefault : Int)
    (agent : Fields) : Except PyError CnpState := do
  let cnp := dictOrEmpty ((dictOrEmpty (agent.get "metadata")).get "cnp")
  let _ ← (orElse (cnp.get "thresholds") (.dict [])).toDict python
  return {
    tasksReceived := numbers.coerceInt (cnp.get "tasks_received") 0
    tasksAcquired := numbers.coerceInt (cnp.get "tasks_acquired") 0
    tasksCompleted := numbers.coerceInt (cnp.get "tasks_completed") 0
    load := numbers.coerceInt (cnp.get "load") 0
    maxLoad := numbers.coerceInt (cnp.get "max_load") lmaxDefault }

structure TrustWeights where
  lambda1 : ℚ := 1 / 2
  lambda2 : ℚ := 1 / 2

def trustScore (weights : TrustWeights) (state : CnpState) : ℚ :=
  if state.tasksReceived ≤ 0 then 0
  else
    let total := max (weights.lambda1 + weights.lambda2) (1 / 1000000)
    let acquired : ℚ := state.tasksAcquired / state.tasksReceived
    let completed : ℚ :=
      if state.tasksAcquired = 0 then 0
      else state.tasksCompleted / state.tasksAcquired
    clamp
      (weights.lambda1 / total * acquired +
        weights.lambda2 / total * completed)
      0 1

def estimateCost
    (reward capabilityValue : ℚ) (load maxLoad : Int) : ℚ :=
  let loadFactor : ℚ := 1 + load / (max maxLoad 1 : Int)
  reward / max capabilityValue (1 / 10) * loadFactor

def capabilityValue
    (env : ScoringEnv) (numbers : PyNumbers) (agent : Fields)
    (spec : TaskSpec) : Except PyError ℚ :=
  match (dictOrEmpty (agent.get "metadata")).get "capability_value" with
  | .null => do
      let score ← scoreAgentForTask env agent spec
      return clamp (score * 6) (1 / 10) 6
  | raw => return clamp (numbers.coerceFloat raw 1) (1 / 10) 6

end Agentcy.Cnp
