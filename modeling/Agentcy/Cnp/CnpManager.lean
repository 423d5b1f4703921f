import Agentcy.Cnp.BlueprintBidder
import Agentcy.Cnp.GraphBuilder

/-!
# The cycle manager

A cycle runs the bidder round after round until all tasks have bids or the
rounds are used up, and then hands over to the award phase of the graph
builder.
-/

namespace Agentcy.Cnp

open Agentcy.GraphStore
open Agentcy.Library

structure RunCnpCycleCommand where
  username : String
  pipelineId : String
  pipelineRunId : Option String := none
  taskIds : List String := []
  maxRounds : Option Int := none

/-- What a bid round finds when it starts. -/
structure RoundEnv (Agent : Type) where
  agents : List Agent
  appraisal : Appraisal Agent
  settings : BidderSettings := {}
  now : Int := 0
  cfpOrder : QueryOrder CallForProposal := .asStored
  bidOrder : QueryOrder BlueprintBid := .asStored

/-- What a cycle finds: the listed task specs, the default number of rounds,
the rounds, and what the award phase reads besides the command. -/
structure CycleEnv (Agent : Type) where
  specDocs : List TaskSpec
  maxRoundsDefault : Int := 3
  rounds : Nat → RoundEnv Agent
  configSpecs : List TaskSpec := []
  runTasks : OrderedMap String RunTask := .empty
  agentServices : OrderedMap String String := .empty
  serviceNames : List String := []
  minBidScore : ℚ := 0
  lmaxDefault : Int := 3
  awardedAt : String := ""
  now : Int := 0
  cfpOrder : QueryOrder CallForProposal := .asStored
  bidOrder : QueryOrder BlueprintBid := .asStored
  awardOrder : QueryOrder ContractAward := .asStored

structure RoundSummary where
  round : Nat
  bidsCollected : Nat
  cfpsCreated : Nat
  tasksWithBids : Nat
  tasksWithoutBids : Nat

/-- The cycle when the bid rounds are over.  It stopped early if all tasks had
bids and there were rounds left. -/
structure BidRounds where
  store : CnpStore
  history : List RoundSummary := []
  stoppedEarly : Bool := false

structure Cycle (Agent : Type) where
  command : RunCnpCycleCommand
  env : CycleEnv Agent

namespace Cycle

variable {Agent : Type} (python : PyBuiltins) (uuid : UuidSource)
variable (cycle : Cycle Agent)

def isTarget (taskId : String) : Bool :=
  cycle.command.taskIds.isEmpty ||
    cycle.command.taskIds.contains taskId

/-- The task specs that the cycle is about. -/
def targets : List TaskSpec :=
  cycle.env.specDocs.filter fun spec => cycle.isTarget spec.taskId

/-- `cmd.max_rounds or …`. -/
def maxRounds : Int :=
  match cycle.command.maxRounds with
  | none => cycle.env.maxRoundsDefault
  | some rounds =>
      if rounds = 0 then cycle.env.maxRoundsDefault else rounds

def bidderRun (round : Nat) : BidderRun Agent where
  username := cycle.command.username
  specs := cycle.targets
  agents := (cycle.env.rounds round).agents
  appraisal := (cycle.env.rounds round).appraisal
  settings := (cycle.env.rounds round).settings
  pipelineId := some cycle.command.pipelineId
  now := (cycle.env.rounds round).now
  cfpOrder := (cycle.env.rounds round).cfpOrder
  bidOrder := (cycle.env.rounds round).bidOrder

/-- All bids of the user: neither the pipeline nor the call for proposals nor
the score is looked at. -/
def allBids (store : CnpStore) : List BlueprintBid :=
  store.listBids cycle.env.bidOrder cycle.command.username none none none

/-- The tasks of the bids that count. -/
def coveredTasks (store : CnpStore) : List String :=
  ((cycle.allBids store).map BlueprintBid.taskId).dedup.filter
    cycle.isTarget

def taskCount : Nat :=
  if cycle.command.taskIds.isEmpty then cycle.env.specDocs.length
  else cycle.command.taskIds.dedup.length

def tasksWithBids (store : CnpStore) : Nat :=
  (cycle.coveredTasks store).length

def tasksWithoutBids (store : CnpStore) : Nat :=
  cycle.taskCount - cycle.tasksWithBids store

def isCovered (store : CnpStore) : Bool :=
  decide (cycle.tasksWithoutBids store = 0) &&
    decide (0 < cycle.tasksWithBids store)

def summaryOf (round : Nat) (result : Bidding) : RoundSummary where
  round := round
  bidsCollected := result.bidsCreated
  cfpsCreated := result.cfpsCreated
  tasksWithBids := cycle.tasksWithBids result.store
  tasksWithoutBids := cycle.tasksWithoutBids result.store

/-- The rounds from one on, of which so many remain. -/
def bidRoundsFrom : Nat → Nat → BidRounds → BidRounds
  | 0, _, soFar => soFar
  | remaining + 1, round, soFar =>
      let result := (cycle.bidderRun round).run uuid soFar.store
      let after : BidRounds :=
        { store := result.store
          history := soFar.history ++ [cycle.summaryOf round result] }
      if cycle.isCovered result.store then
        { after with stoppedEarly := decide (remaining ≠ 0) }
      else
        bidRoundsFrom remaining (round + 1) after

def bidRounds (store : CnpStore) : BidRounds :=
  cycle.bidRoundsFrom uuid cycle.maxRounds.toNat 1 { store := store }

def buildCall : BuildCall where
  username := cycle.command.username
  pipelineId := cycle.command.pipelineId
  pipelineRunId := cycle.command.pipelineRunId
  taskIds := cycle.command.taskIds
  specDocs := cycle.env.specDocs
  configSpecs := cycle.env.configSpecs
  runTasks := cycle.env.runTasks
  agentServices := cycle.env.agentServices
  serviceNames := cycle.env.serviceNames
  minBidScore := cycle.env.minBidScore
  lmaxDefault := cycle.env.lmaxDefault
  now := cycle.env.now
  awardedAt := cycle.env.awardedAt
  cfpOrder := cycle.env.cfpOrder
  bidOrder := cycle.env.bidOrder
  awardOrder := cycle.env.awardOrder

/-- `handle_run_cnp_cycle`, up to the plan: the rounds, and what the award
phase makes of them. -/
def handleRunCnpCycle (store : CnpStore) (registry : Registry) :
    BidRounds × BuildCall.Built :=
  let rounds := cycle.bidRounds uuid store
  (rounds,
    cycle.buildCall.buildPlanDraft python uuid rounds.store registry)

end Cycle

end Agentcy.Cnp
