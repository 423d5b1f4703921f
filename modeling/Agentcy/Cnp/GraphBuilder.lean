import Agentcy.Cnp.CnpStore
import Agentcy.Library.Ranking

/-!
# The graph builder

The award phase of the contract net.  The best qualifying bid of each task
without an award becomes its award, calls for proposals that were answered or
have run out are closed, the rankings are stored for the case that a
contractor fails, and the plan draft is made of all of it.
-/

namespace Agentcy.Cnp

open Agentcy.GraphStore
open Agentcy.Library
open Agentcy.Runs (Candidate EvaluationSequence)

/-- What a run document records of a task. -/
structure RunTask where
  serviceName : Option String := none
  status : Option String := none

/-- A call of `build_plan_draft`, with what it reads outside the stored bids,
awards and calls for proposals: the task specs that are listed and those that
the pipeline configuration adds, the run document, the services, the
environment and the clock. -/
structure BuildCall where
  username : String
  pipelineId : String
  pipelineRunId : Option String := none
  taskIds : List String := []
  specDocs : List TaskSpec
  configSpecs : List TaskSpec := []
  runTasks : OrderedMap String RunTask := .empty
  agentServices : OrderedMap String String := .empty
  serviceNames : List String := []
  minBidScore : ℚ := 0
  lmaxDefault : Int := 3
  now : Int := 0
  awardedAt : String := ""
  cfpOrder : QueryOrder CallForProposal := .asStored
  bidOrder : QueryOrder BlueprintBid := .asStored
  awardOrder : QueryOrder ContractAward := .asStored

namespace BuildCall

variable (python : PyBuiltins) (uuid : UuidSource)
variable (call : BuildCall) (store : CnpStore)

/-- `not task_id_set or task_id in task_id_set`. -/
def isTarget (taskId : String) : Bool :=
  call.taskIds.isEmpty || call.taskIds.contains taskId

def keepsSpec (spec : TaskSpec) : Bool :=
  let metaPipeline := spec.metadata.get "pipeline_id"
  let metaRun := spec.metadata.get "pipeline_run_id"
  call.isTarget spec.taskId &&
    (!metaPipeline.truthy ||
      metaPipeline.pyEq (.str call.pipelineId)) &&
    match given call.pipelineRunId with
    | none => true
    | some runId => !metaRun.truthy || metaRun.pyEq (.str runId)

/-- `specs_by_id`: the listed specs, and those of the configuration for the
other tasks. -/
def specsById : OrderedMap String TaskSpec :=
  let listed := (call.specDocs.filter call.keepsSpec).map fun spec =>
    (spec.taskId, spec)
  call.configSpecs.foldl
    (fun specs spec =>
      if specs.contains spec.taskId then specs
      else specs.set spec.taskId spec)
    (OrderedMap.ofList listed)

def specs : List TaskSpec :=
  call.specsById.values

def bids : List BlueprintBid :=
  store.listBids call.bidOrder call.username none (some call.pipelineId)
    call.pipelineRunId

def openCfps : List CallForProposal :=
  (store.listCfps call.cfpOrder call.username none (some "open")).filter
    fun cfp => call.isTarget cfp.taskId

def allowedCfpIds : List String :=
  ((call.openCfps store).map CallForProposal.cfpId).filter
    fun cfpId => decide (cfpId ≠ "")

def minScoreByCfp : OrderedMap String ℚ :=
  OrderedMap.ofList ((call.openCfps store).filterMap fun cfp =>
    if cfp.cfpId = "" then none
    else cfp.minScore.map fun minScore => (cfp.cfpId, minScore))

def minScoreOf (bid : BlueprintBid) : ℚ :=
  (bid.cfpId.bind (call.minScoreByCfp store).get?).getD call.minBidScore

/-- The filter of `_best_bids` and `_ranked_bids`.  Without any open call for
proposals, a bid on any call will do. -/
def qualifies (bid : BlueprintBid) : Bool :=
  decide (bid.taskId ≠ "") &&
    ((call.allowedCfpIds store).isEmpty ||
      bid.cfpId.any (call.allowedCfpIds store).contains) &&
    decide (call.minScoreOf store bid ≤ bid.bidScore)

def qualifyingBids : List BlueprintBid :=
  (call.bids store).filter (call.qualifies store)

def bestBids : OrderedMap String BlueprintBid :=
  bestByKey BlueprintBid.bidScore BlueprintBid.taskId
    (call.qualifyingBids store)

def rankedBids : OrderedMap String (List BlueprintBid) :=
  let byTask := OrderedMap.gather
    ((call.qualifyingBids store).map fun bid => (bid.taskId, bid))
  byTask.mapValues fun _ candidates =>
    ranked BlueprintBid.bidScore candidates

/-- The stored awards of the pipeline and run, the latest one of each
task. -/
def earlierAwards : OrderedMap String ContractAward :=
  bestByKey ContractAward.awardedAt ContractAward.taskId
    ((store.listContractAwards call.awardOrder call.username
      (some call.pipelineId) call.pipelineRunId).filter
        fun award => decide (award.taskId ≠ ""))

/-- The store, the `awards` dict and the registry in the award loop. -/
structure AwardPhase where
  store : CnpStore
  awards : OrderedMap String ContractAward
  registry : Registry

/-- The award of a task to a bid. -/
def awardOf (awardId : String) (spec : TaskSpec) (bid : BlueprintBid) :
    ContractAward where
  awardId := awardId
  taskId := spec.taskId
  bidderId := bid.bidderId
  bidId := some bid.bidId
  cfpId := bid.cfpId
  pipelineId := some call.pipelineId
  pipelineRunId := call.pipelineRunId
  awardedAt := call.awardedAt

def awardSpec
    (best : OrderedMap String BlueprintBid) (phase : AwardPhase)
    (spec : TaskSpec) : AwardPhase :=
  match best.get? spec.taskId with
  | none => phase
  | some bid =>
      if phase.awards.contains spec.taskId then
        phase
      else
        let drawn := phase.store.drawn
        let award := call.awardOf (uuid.id drawn) spec bid
        let marker : ReservationMarker :=
          ⟨uuid.id (drawn + 1), spec.taskId, bid.bidderId⟩
        { store :=
            ((phase.store.drawIds 2).addContractAward call.username
              award).addReservationMarker call.username marker
          awards := phase.awards.set spec.taskId award
          registry :=
            incrementAgentLoad call.lmaxDefault phase.registry
              bid.bidderId }

def awardPhase (registry : Registry) : AwardPhase :=
  call.specs.foldl (call.awardSpec uuid (call.bestBids store))
    ⟨store, call.earlierAwards store, registry⟩

/-- Why a call for proposals is closed, if it is. -/
def closingReason (cfp : CallForProposal) : Option String :=
  let answered := (call.bids store).any fun bid =>
    decide (bid.cfpId = some cfp.cfpId ∧ cfp.cfpId ≠ "")
  let expired := cfp.closesAt.any fun closesAt =>
    decide (closesAt ≤ call.now)
  if cfp.status ≠ "open" then none
  else if !answered && !expired then none
  else if !call.specs.any fun spec => decide (spec.taskId = cfp.taskId) then
    none
  else some (if expired then "expired" else "awarded")

def closeCfp (closing : CnpStore) (cfp : CallForProposal) : CnpStore :=
  match call.closingReason store cfp with
  | none => closing
  | some reason =>
      closing.addCfp call.username
        { cfp with
          status := "closed"
          statusReason := some reason
          closesAt := some call.now }

def candidateOf (bid : BlueprintBid) : Candidate where
  bidderId := bid.bidderId
  bidScore := bid.bidScore
  bidId := some bid.bidId
  cfpId := bid.cfpId

def sequenceOf (planId taskId : String) (candidates : List BlueprintBid) :
    EvaluationSequence where
  taskId := taskId
  pipelineId := call.pipelineId
  pipelineRunId := call.pipelineRunId
  planId := planId
  cfpId := candidates.head?.bind BlueprintBid.cfpId
  candidates := candidates.map candidateOf
  currentIndex := 0

def saveSequence
    (planId : String) (saving : CnpStore)
    (entry : String × List BlueprintBid) : CnpStore :=
  if 1 < entry.2.length then
    saving.saveEvaluationSequence call.username
      (call.sequenceOf planId entry.1 entry.2)
  else
    saving

/-! ## The plan -/

/-- `_resolve_service_name`.  A bid has no service name. -/
def resolveServiceName (spec : TaskSpec) (assignedAgent : Option String) :
    Option String :=
  let serviceName := spec.metadata.get "service_name"
  if serviceName.truthy then some (serviceName.pyStr python)
  else
    (given assignedAgent).bind fun agentId =>
      match call.agentServices.get? agentId with
      | some service => some service
      | none =>
          if call.serviceNames.contains agentId then some agentId else none

/-- The service that the run document records, which stands in for the agent
where there is no bid. -/
def runService (taskId : String) : Option String :=
  (call.runTasks.get? taskId).bind fun task => given task.serviceName

def assignedAgent (taskId : String) : Option String :=
  match (call.bestBids store).get? taskId with
  | some bid => some bid.bidderId
  | none => call.runService taskId

def planTask (awards : OrderedMap String ContractAward) (spec : TaskSpec) :
    PlanTask :=
  let bid := (call.bestBids store).get? spec.taskId
  let award := awards.get? spec.taskId
  { taskId := spec.taskId
    description := spec.description
    requiredCapabilities := spec.requiredCapabilities
    tags := spec.tags
    assignedAgent := call.assignedAgent store spec.taskId
    bidScore := bid.map BlueprintBid.bidScore
    bidId := bid.map BlueprintBid.bidId
    serviceName :=
      call.resolveServiceName python spec
        (call.assignedAgent store spec.taskId)
    cfpId :=
      match bid with
      | some bid => bid.cfpId
      | none => award.bind ContractAward.cfpId
    awardId := award.map ContractAward.awardId
    taskType := spec.metadata.get "task_type"
    riskLevel := spec.riskLevel
    requiresHumanApproval := spec.requiresHumanApproval
    metadata := spec.metadata
    status := (call.runTasks.get? spec.taskId).bind RunTask.status }

/-- The edges from the tasks that a spec depends on. -/
def edgesOf (spec : TaskSpec) : Except PyError (List (Json × String)) :=
  let dependsOn := spec.metadata.get "depends_on"
  if dependsOn.truthy then do
    let tasks ← dependsOn.iterate
    return tasks.map fun task => (task, spec.taskId)
  else
    return []

/-- `_build_graph_spec`, without the ontology. -/
def graphSpec (awards : OrderedMap String ContractAward) :
    Except PyError GraphSpec := do
  let edges ← call.specs.mapM edgesOf
  return {
    tasks := call.specs.map (call.planTask python store awards)
    edges := edges.flatten
    warnings := if call.specs.isEmpty then ["no_task_specs"] else [] }

/-- What a call leaves behind.  There is no draft where the edges could not
be made. -/
structure Built where
  store : CnpStore
  registry : Registry
  awards : OrderedMap String ContractAward
  planId : String
  draft : Option PlanDraft

def buildPlanDraft (registry : Registry) : Built :=
  let awarded := call.awardPhase uuid store registry
  let closed :=
    (call.openCfps store).foldl (call.closeCfp store) awarded.store
  let planId := uuid.id closed.drawn
  let saved :=
    (call.rankedBids store).entries.foldl (call.saveSequence planId)
      (closed.drawIds 1)
  match (call.graphSpec python store awarded.awards).toOption with
  | none => ⟨saved, awarded.registry, awarded.awards, planId, none⟩
  | some graph =>
      let draft : PlanDraft :=
        { planId := planId
          username := call.username
          pipelineId := call.pipelineId
          pipelineRunId := call.pipelineRunId
          graphSpec := graph }
      { store := saved.savePlanDraft call.username draft
        registry := awarded.registry
        awards := awarded.awards
        planId := planId
        draft := some draft }

end BuildCall

end Agentcy.Cnp
