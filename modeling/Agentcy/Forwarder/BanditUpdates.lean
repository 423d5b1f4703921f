import Agentcy.Cnp.BlueprintBidder
import Agentcy.Forwarder.Credit

/-!
# Outcomes of recorded decisions

The bidder records whom it chose for a task, and the forwarder, when the task
has been executed, looks for the record in order to add the outcome and to
teach the bandit.  What it looks for is an open record of the task whose
bidder is called like the service that executed it; the run is part of
neither.
-/

namespace Agentcy.Forwarder

open Agentcy.Cnp (CallForProposal Entry QueryOrder TaskSpec UuidSource
  isWanted rowsUnder)
open Agentcy.GraphStore (MarkerKey listingPrefix)
open Agentcy.Library
open Agentcy.Runs

structure BidFeatures where
  trust : ℚ := 0
  costNorm : ℚ := 0
  loadNorm : ℚ := 0
  failurePenalty : ℚ := 0
  histSuccess : ℚ := 0
  speed : ℚ := 0
  deriving DecidableEq

structure CandidateSnapshot where
  bidderId : String
  bidScore : ℚ
  features : BidFeatures
  deriving DecidableEq

structure ExecutionOutcome where
  success : Bool := false
  latencySeconds : Option ℚ := none
  retries : Int := 0
  costActual : Option ℚ := none
  policyBlocks : Int := 0
  deriving DecidableEq

structure DecisionRecord where
  decisionId : String
  taskId : String
  taskType : String
  requiredCapabilities : List String := []
  pipelineId : Option String := none
  cnpRound : Nat := 1
  candidateBidders : List CandidateSnapshot := []
  chosenBidderId : String := ""
  chosenFeatures : Option BidFeatures := none
  reward : Option ℚ := none
  outcome : Option ExecutionOutcome := none
  deriving DecidableEq

def computeReward (outcome : ExecutionOutcome) : ℚ :=
  let base : ℚ := if outcome.success then 1 else -1
  let retried := base - 1 / 2 * max 0 (outcome.retries - 1)
  let delayed :=
    match outcome.latencySeconds with
    | some latency =>
        if 0 < latency then retried - min (latency / 60) (3 / 10)
        else retried
    | none => retried
  let paid :=
    match outcome.costActual with
    | some cost =>
        if 0 < cost then delayed - min (cost / 10) (2 / 10) else delayed
    | none => delayed
  max (min (paid - 1 / 10 * outcome.policyBlocks) (3 / 2)) (-2)

/-- One update of a bandit model; whose features they are is not stored. -/
structure Lesson where
  modelKey : String
  features : BidFeatures
  reward : ℚ
  decisionId : String
  deriving DecidableEq

/-- The records, and the updates of all bandit models in their order: a model
is what the updates at its key make of the initial one. -/
structure BanditStore where
  records : OrderedMap String DecisionRecord := .empty
  lessons : List Lesson := []

def decisionKey (username taskId decisionId : String) : String :=
  (MarkerKey.decision taskId decisionId).text username

def banditModelKey (username taskType : String) : String :=
  (MarkerKey.banditModel taskType).text username

namespace BanditStore

def saveDecisionRecord
    (store : BanditStore) (username : String) (record : DecisionRecord) :
    BanditStore :=
  { store with
    records :=
      store.records.set
        (decisionKey username record.taskId record.decisionId) record }

def listDecisionRecords
    (store : BanditStore) (order : QueryOrder DecisionRecord)
    (username : String) (taskId taskType : Option String) :
    List DecisionRecord :=
  let rows :=
    rowsUnder store.records (listingPrefix "decision" username [taskId])
  (order.arrange (rows.map Prod.snd)).filter fun record =>
    isWanted taskType (some record.taskType)

def updateDecisionOutcome
    (store : BanditStore) (username taskId decisionId : String)
    (outcome : ExecutionOutcome) (reward : ℚ) : BanditStore :=
  let key := decisionKey username taskId decisionId
  match store.records.get? key with
  | none => store
  | some record =>
      { store with
        records :=
          store.records.set key
            { record with
              outcome := some outcome
              reward := some reward } }

def recordReward
    (store : BanditStore) (username : String) (record : DecisionRecord)
    (features : BidFeatures) (reward : ℚ) : BanditStore :=
  { store with
    lessons :=
      store.lessons ++
        [{ modelKey := banditModelKey username record.taskType
           features := features
           reward := reward
           decisionId := record.decisionId }] }

end BanditStore

structure ScoredEntry where
  entry : Entry
  bidScore : ℚ
  features : BidFeatures := {}

def ScoredEntry.snapshot (scored : ScoredEntry) : CandidateSnapshot where
  bidderId := scored.entry.agentId
  bidScore := scored.bidScore
  features := scored.features

/-- What the bidder decides for a spec: the first of its scored entries.  The
run that the decision is made for does not become part of the record. -/
structure Decision where
  username : String
  runId : String
  spec : TaskSpec
  taskType : String := "general"
  pipelineId : Option String := none
  cfps : List CallForProposal := []
  chosen : ScoredEntry
  others : List ScoredEntry := []

def decisionRecord
    (decisionId : String) (decision : Decision) : DecisionRecord where
  decisionId := decisionId
  taskId := decision.spec.taskId
  taskType := decision.taskType
  requiredCapabilities := decision.spec.requiredCapabilities
  pipelineId := decision.pipelineId
  cnpRound := (decision.cfps.head?.map CallForProposal.round).getD 1
  candidateBidders :=
    (decision.chosen :: decision.others).map ScoredEntry.snapshot
  chosenBidderId := decision.chosen.entry.agentId
  chosenFeatures := some decision.chosen.features

/-- A pass of the forwarder as the bandit is told of it.  The outcome does not
reach the store if the bandit is disabled, there is no store, or a call of the
store raises before the outcome is written; the model does not learn from an
outcome that is written if a later call raises. -/
structure TaskExecution where
  pass : Pass
  duration : Option ℚ := none
  retries : Int := 0
  listing : QueryOrder DecisionRecord := .asStored
  reaches : Bool := true
  learns : Bool := true

namespace TaskExecution

variable (execution : TaskExecution)

def outcome : ExecutionOutcome where
  success := decide (execution.pass.finalState.status = .completed)
  latencySeconds := execution.duration
  retries := execution.retries

/-- The records that are gone through. -/
def listed (store : BanditStore) : List DecisionRecord :=
  let state := execution.pass.finalState
  store.listDecisionRecords execution.listing state.username
    (some state.taskId) none

/-- `rec.get("chosen_bidder_id") == agent_id and rec.get("outcome") is None`,
where the agent id is the service of the final state. -/
def isPending (record : DecisionRecord) : Bool :=
  decide
      (record.chosenBidderId = execution.pass.finalState.serviceName) &&
    record.outcome.isNone

def target? (store : BanditStore) : Option DecisionRecord :=
  (execution.listed store).find? execution.isPending

end TaskExecution

/-- The function `_update_bandit_decision` and its guard in `forward`. -/
def updateBanditDecision
    (store : BanditStore) (execution : TaskExecution) : BanditStore :=
  let state := execution.pass.finalState
  if execution.reaches then
    match execution.target? store with
    | none => store
    | some target =>
        let outcome := execution.outcome
        let reward := computeReward outcome
        let written :=
          store.updateDecisionOutcome state.username state.taskId
            target.decisionId outcome reward
        match target.chosenFeatures with
        | none => written
        | some features =>
            if execution.learns then
              written.recordReward state.username target features reward
            else
              written
  else
    store

/-! ## Who is told of what -/

/-- The execution is one of the chosen bidder, in the run that the decision
was made for. -/
def Decision.Owns (decision : Decision) (execution : TaskExecution) : Prop :=
  decision.username = execution.pass.finalState.username ∧
    decision.spec.taskId = execution.pass.finalState.taskId ∧
    decision.runId = execution.pass.finalState.pipelineRunId ∧
    decision.chosen.entry.agentId = execution.pass.agentId

instance (decision : Decision) (execution : TaskExecution) :
    Decidable (decision.Owns execution) :=
  inferInstanceAs (Decidable (_ ∧ _))

/-- A recorded decision with its own executions since then, the executions
that changed its record, and those after which a model had learnt from its
features. -/
structure Decided where
  decisionId : String
  decision : Decision
  executions : List TaskExecution := []
  outcomes : List TaskExecution := []
  rewards : List TaskExecution := []

namespace Decided

variable (decided : Decided)

def record : DecisionRecord :=
  decisionRecord decided.decisionId decided.decision

def key : String :=
  decisionKey decided.decision.username decided.decision.spec.taskId
    decided.decisionId

def stored? (store : BanditStore) : Option DecisionRecord :=
  store.records.get? decided.key

def learnt (store : BanditStore) : List Lesson :=
  store.lessons.filter fun lesson =>
    decide (lesson.decisionId = decided.decisionId)

/-- The record with the outcome of an execution. -/
def closedBy (execution : TaskExecution) : DecisionRecord :=
  { decided.record with
    outcome := some execution.outcome
    reward := some (computeReward execution.outcome) }

def lessonOf (execution : TaskExecution) : Lesson where
  modelKey :=
    banditModelKey decided.decision.username decided.decision.taskType
  features := decided.decision.chosen.features
  reward := computeReward execution.outcome
  decisionId := decided.decisionId

/-- What is noted when an execution has taken the store from `before` to
`after`. -/
def observe (before after : BanditStore) (execution : TaskExecution) :
    Decided :=
  { decided with
    executions :=
      if decided.decision.Owns execution then
        decided.executions ++ [execution]
      else decided.executions
    outcomes :=
      if decided.stored? before = decided.stored? after then
        decided.outcomes
      else decided.outcomes ++ [execution]
    rewards :=
      if decided.learnt before = decided.learnt after then
        decided.rewards
      else decided.rewards ++ [execution] }

end Decided

structure BanditState where
  store : BanditStore := {}
  drawn : Nat := 0
  decisions : List Decided := []

inductive BanditEvent where
  | decide (decision : Decision)
  | execute (execution : TaskExecution)

namespace BanditState

def step (uuid : UuidSource) (state : BanditState) :
    BanditEvent → BanditState
  | .decide decision =>
      let decisionId := uuid.id state.drawn
      { store :=
          state.store.saveDecisionRecord decision.username
            (decisionRecord decisionId decision)
        drawn := state.drawn + 1
        decisions :=
          state.decisions ++
            [{ decisionId := decisionId, decision := decision }] }
  | .execute execution =>
      let after := updateBanditDecision state.store execution
      { state with
        store := after
        decisions :=
          state.decisions.map fun decided =>
            decided.observe state.store after execution }

end BanditState

/-- Only its own executions touch a decision; once there is one, the outcome
and the reward of one of them have been recorded, and nothing else. -/
structure AttributedTo (store : BanditStore) (decided : Decided) :
    Prop where
  own :
    ∀ execution,
      execution ∈ decided.outcomes ∨ execution ∈ decided.rewards →
        decided.decision.Owns execution
  once :
    decided.executions ≠ [] →
      ∃ execution,
        decided.outcomes = [execution] ∧ decided.rewards = [execution] ∧
          decided.stored? store = some (decided.closedBy execution) ∧
          decided.learnt store = [decided.lessonOf execution]

def Attributed (state : BanditState) : Prop :=
  ∀ decided ∈ state.decisions, AttributedTo state.store decided

end Agentcy.Forwarder
