import Agentcy.Cnp.CnpStore
import Agentcy.Library.Run
import Mathlib.Data.List.Sort

/-!
# The blueprint bidder

One run goes over the task specs of a user.  For each of them it takes the
open call for proposals, or opens the next round, and stores bids of the
registered agents that respond to it, best scores first, as long as the call
takes more bids.
-/

namespace Agentcy.Cnp

open Agentcy.GraphStore
open Agentcy.Library

/-- The environment of the bidder.  `cnpMaxBids` is the value of
`CNP_MAX_BIDS_PER_TASK`, or else that of `BLUEPRINT_BIDS_PER_TASK`. -/
structure BidderSettings where
  cfpTtlSeconds : Int := 300
  stimulusStep : ℚ := 1 / 10
  stimulusMax : ℚ := 1
  cnpMaxBids : Int := 1
  bidsPerTask : Int := 1
  lmaxDefault : Int := 3
  minBidScore : ℚ := 0
  maxRounds : Int := 3
  fallbackToSystem : Bool := true
  openNextRoundOnEmpty : Bool := true

/-- What `task_params` makes of a spec, as far as it is used here. -/
structure TaskParams where
  priority : Int := 3
  stimulus : ℚ := 1 / 2
  reward : ℚ := 1
  minScore : Option ℚ := none

/-- A candidate for a task. -/
structure Entry where
  agentId : String := ""
  capabilityScore : ℚ := 0
  capabilityValue : ℚ := 0
  cost : ℚ := 0
  load : Int := 0
  maxLoad : Int := 3
  threshold : ℚ := 0
  trust : ℚ := 0

/-- What specs and registered agents give rise to.  `entryOf` is what an agent
would enter with, `scoreOf` is `score_bid` among all entries, and `explore` is
the position that is swapped with the first, if any. -/
structure Appraisal (Agent : Type) where
  agentId : Agent → String
  params : TaskSpec → TaskParams
  entryOf : TaskSpec → Agent → Entry
  scoreOf : TaskSpec → List Entry → Entry → ℚ
  explore : TaskSpec → List (Entry × ℚ) → Option Nat

/-- A run of the bidder: who it is for, the specs that are listed and were
asked for, the registered agents, the environment, and the clock.  A run that
raises before its rounds are over is not represented. -/
structure BidderRun (Agent : Type) where
  username : String
  specs : List TaskSpec
  agents : List Agent
  appraisal : Appraisal Agent
  settings : BidderSettings := {}
  pipelineId : Option String := none
  now : Int := 0
  cfpOrder : QueryOrder CallForProposal := .asStored
  bidOrder : QueryOrder BlueprintBid := .asStored

/-- The loop over the specs.  The first pipeline that is known is kept for
the later specs. -/
structure Bidding where
  store : CnpStore
  pipelineId : Option String := none
  bidsCreated : Nat := 0
  cfpsCreated : Nat := 0

namespace BidderRun

variable {Agent : Type} (uuid : UuidSource) (bidder : BidderRun Agent)

def listOpen (store : CnpStore) (spec : TaskSpec) :
    List CallForProposal :=
  store.listCfps bidder.cfpOrder bidder.username (some spec.taskId)
    (some "open")

def listAll (store : CnpStore) (spec : TaskSpec) : List CallForProposal :=
  store.listCfps bidder.cfpOrder bidder.username (some spec.taskId) none

def isExpired (cfp : CallForProposal) : Bool :=
  cfp.closesAt.any fun closesAt => decide (closesAt ≤ bidder.now)

def closed (reason : String) (cfp : CallForProposal) : CallForProposal :=
  { cfp with
    status := "closed"
    statusReason := some reason
    closesAt := some bidder.now }

def closeAll
    (reason : String) (store : CnpStore) (cfps : List CallForProposal) :
    CnpStore :=
  cfps.foldl
    (fun closing cfp =>
      closing.addCfp bidder.username (bidder.closed reason cfp))
    store

/-- The call for proposals of the next round. -/
def nextCfp
    (store : CnpStore) (spec : TaskSpec) (pipelineId : Option String) :
    CallForProposal :=
  let settings := bidder.settings
  let params := bidder.appraisal.params spec
  let rounds := (bidder.listAll store spec).map CallForProposal.round
  let round := rounds.foldr max 0 + 1
  let minScore := params.minScore.getD settings.minBidScore
  { cfpId := uuid.id store.drawn
    taskId := spec.taskId
    pipelineId := pipelineId
    requiredCapabilities := spec.requiredCapabilities
    round := round
    priority := some params.priority
    stimulus :=
      some (min (params.stimulus + (round - 1 : ℕ) * settings.stimulusStep)
        settings.stimulusMax)
    reward := some params.reward
    minScore := if minScore ≤ 0 then none else some minScore
    maxBids := some settings.cnpMaxBids
    lmax := some settings.lmaxDefault
    closesAt := some (bidder.now + settings.cfpTtlSeconds) }

def openNext
    (store : CnpStore) (spec : TaskSpec) (pipelineId : Option String) :
    CnpStore × List CallForProposal :=
  let cfp := bidder.nextCfp uuid store spec pipelineId
  ((store.drawIds 1).addCfp bidder.username cfp, [cfp])

/-- `_open_cfps`: the calls that are open, or the one that is opened as there
are none.  The last part is how many were opened. -/
def openCfps
    (store : CnpStore) (spec : TaskSpec) (pipelineId : Option String) :
    CnpStore × List CallForProposal × Nat :=
  let listed := bidder.listOpen store spec
  let stillOpen := listed.filter fun cfp => !bidder.isExpired cfp
  let store :=
    bidder.closeAll "expired" store (listed.filter bidder.isExpired)
  if stillOpen.isEmpty then
    let opened := bidder.openNext uuid store spec pipelineId
    (opened.1, opened.2, 1)
  else
    (store, stillOpen, 0)

def currentRound (store : CnpStore) (spec : TaskSpec) : Nat :=
  let rounds := (bidder.listAll store spec).map CallForProposal.round
  if rounds.isEmpty then 1 else rounds.foldr max 0

/-- The calls are closed and the next round is opened, unless all rounds were
used. -/
def reopen
    (store : CnpStore) (spec : TaskSpec) (pipelineId : Option String)
    (cfps : List CallForProposal) :
    CnpStore × List CallForProposal × Nat :=
  if (bidder.currentRound store spec : Int) <
      bidder.settings.maxRounds then
    bidder.openCfps uuid
      (bidder.closeAll "no_bids" store
        (cfps.filter fun cfp => decide (cfp.status = "open")))
      spec pipelineId
  else
    (store, cfps, 0)

def activeStimulus (spec : TaskSpec) (cfps : List CallForProposal) : ℚ :=
  match cfps.filterMap CallForProposal.stimulus with
  | [] => (bidder.appraisal.params spec).stimulus
  | first :: others => others.foldl max first

/-- What an agent enters with, under its own id. -/
def entryOf (spec : TaskSpec) (agent : Agent) : Entry :=
  { bidder.appraisal.entryOf spec agent with
    agentId := bidder.appraisal.agentId agent }

def candidateEntries (spec : TaskSpec) (stimulus : ℚ) : List Entry :=
  (bidder.agents.map (bidder.entryOf spec)).filter fun entry =>
    decide (entry.agentId ≠ "") && decide (entry.threshold ≤ stimulus) &&
      decide (entry.cost ≤ entry.capabilityValue)

def systemEntry (spec : TaskSpec) : Entry where
  agentId := "system"
  capabilityScore := 1 / 2
  capabilityValue := 1
  cost := (bidder.appraisal.params spec).reward
  maxLoad := bidder.settings.lmaxDefault

/-- The candidates, or the system where there are none. -/
def withFallback (spec : TaskSpec) (entries : List Entry) : List Entry :=
  if entries.isEmpty && bidder.settings.fallbackToSystem then
    [bidder.systemEntry spec]
  else
    entries

/-- The first item and the one at the position change places. -/
def swapFirst {α : Type} (position : Option Nat) (items : List α) :
    List α :=
  match position with
  | none => items
  | some index =>
      match items[0]?, items[index]? with
      | some first, some other => (items.set 0 other).set index first
      | _, _ => items

def scoredEntries (spec : TaskSpec) (entries : List Entry) :
    List (Entry × ℚ) :=
  let scored := entries.map fun entry =>
    (entry, bidder.appraisal.scoreOf spec entries entry)
  let sorted := scored.insertionSort fun first second =>
    second.2 ≤ first.2
  swapFirst (bidder.appraisal.explore spec sorted) sorted

/-! ## Bids -/

/-- `_cfp_key`. -/
def cfpKeyOf (cfpId : Option String) : String :=
  (given cfpId).getD "__none__"

/-- `_existing_bid_state`: the bidders of the listed bids on one call; there
are as many bids. -/
def existingBidders (existing : List BlueprintBid) (key : String) :
    List String :=
  (existing.filter fun bid =>
    decide (bid.bidderId ≠ "") && decide (cfpKeyOf bid.cfpId = key)).map
      BlueprintBid.bidderId

def maxBidsOf (cfp : CallForProposal) : Int :=
  let override := cfp.maxBids.getD 0
  let perTask := bidder.settings.bidsPerTask
  if override ≠ 0 then override else if perTask ≠ 0 then perTask else 1

/-- The entries that bid on a call. -/
def bidding
    (existing : List BlueprintBid) (scored : List (Entry × ℚ))
    (cfp : CallForProposal) : List (Entry × ℚ) :=
  let maxBids := bidder.maxBidsOf cfp
  let minScore := cfp.minScore.getD bidder.settings.minBidScore
  let bidders := existingBidders existing (cfpKeyOf (some cfp.cfpId))
  if maxBids ≤ bidders.length then
    []
  else
    ((scored.filter fun entry => decide (minScore ≤ entry.2)).filter
      fun entry => !bidders.contains entry.1.agentId).take
        (maxBids - bidders.length).toNat

/-- The bid has no pipeline and no run. -/
def bidOf
    (store : CnpStore) (spec : TaskSpec) (cfp : CallForProposal)
    (entry : Entry × ℚ) : BlueprintBid where
  bidId := uuid.id store.drawn
  taskId := spec.taskId
  bidderId := entry.1.agentId
  bidScore := entry.2
  cfpId := some cfp.cfpId
  cnpRound := some cfp.round

def storeBid
    (spec : TaskSpec) (cfp : CallForProposal) (store : CnpStore)
    (entry : Entry × ℚ) : CnpStore :=
  (store.drawIds 1).addBid bidder.username
    (bidOf uuid store spec cfp entry)

/-- The bids on one call, and how many these are so far. -/
def storeBids
    (existing : List BlueprintBid) (scored : List (Entry × ℚ))
    (spec : TaskSpec) (stored : CnpStore × Nat) (cfp : CallForProposal) :
    CnpStore × Nat :=
  let entries := bidder.bidding existing scored cfp
  (entries.foldl (bidder.storeBid uuid spec cfp) stored.1,
    stored.2 + entries.length)

/-- The pipeline of the run, or else of the spec. -/
def pipelineFor (pipelineId : Option String) (spec : TaskSpec) :
    Option String :=
  match given pipelineId, spec.metadata.get "pipeline_id" with
  | some known, _ => some known
  | none, .str ofSpec => some ofSpec
  | none, _ => none

def bidForSpec (state : Bidding) (spec : TaskSpec) : Bidding :=
  let pipelineId := pipelineFor state.pipelineId spec
  let existing :=
    state.store.listBids bidder.bidOrder bidder.username
      (some spec.taskId) none none
  let opened := bidder.openCfps uuid state.store spec pipelineId
  let candidates :=
    bidder.candidateEntries spec (bidder.activeStimulus spec opened.2.1)
  let current :=
    if candidates.isEmpty && bidder.settings.openNextRoundOnEmpty then
      bidder.reopen uuid opened.1 spec pipelineId opened.2.1
    else
      (opened.1, opened.2.1, 0)
  let entries := bidder.withFallback spec candidates
  let scored := bidder.scoredEntries spec entries
  -- There is always a call for proposals, so the bids without one do not
  -- arise.
  let stored :=
    current.2.1.foldl (bidder.storeBids uuid existing scored spec)
      (current.1, 0)
  { store := stored.1
    pipelineId := pipelineId
    bidsCreated := state.bidsCreated + stored.2
    cfpsCreated := state.cfpsCreated + opened.2.2 + current.2.2 }

def start (store : CnpStore) : Bidding where
  store := store
  pipelineId := bidder.pipelineId

/-- `blueprint_bidder.run`. -/
def run (store : CnpStore) : Bidding :=
  Library.run (bidder.bidForSpec uuid) (bidder.start store) bidder.specs

end BidderRun

end Agentcy.Cnp
