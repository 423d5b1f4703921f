import Agentcy.Cnp.AgentLoad
import Agentcy.GraphStore.MarkerKeys
import Agentcy.Library.DottedNames
import Agentcy.Library.LikePattern
import Agentcy.Library.PyJson

/-!
# The documents of the contract net

The calls for proposals, the bids and awards on them, and the plans that are
made of these.  They are kept in the graph marker store under their keys, and
a listing takes the documents whose keys are like the prefix that it asks for.
-/

namespace Agentcy.Cnp

open Agentcy.GraphStore
open Agentcy.Library
open Agentcy.Runs (EvaluationSequence)

inductive RiskLevel where
  | low
  | medium
  | high
  deriving DecidableEq

structure TaskSpec where
  taskId : String
  description : String := ""
  requiredCapabilities : List String := []
  tags : List String := []
  riskLevel : RiskLevel := .medium
  requiresHumanApproval : Bool := false
  metadata : Fields := []

structure CallForProposal where
  cfpId : String
  taskId : String
  pipelineId : Option String := none
  requiredCapabilities : List String := []
  status : String := "open"
  round : Nat := 1
  priority : Option Int := none
  stimulus : Option ℚ := none
  reward : Option ℚ := none
  minScore : Option ℚ := none
  maxBids : Option Int := none
  lmax : Option Int := none
  statusReason : Option String := none
  closesAt : Option Int := none
  deriving DecidableEq

/-- A bid with the id that the store gave it. -/
structure BlueprintBid where
  bidId : String
  taskId : String
  bidderId : String
  bidScore : ℚ
  cfpId : Option String := none
  pipelineId : Option String := none
  pipelineRunId : Option String := none
  cnpRound : Option Nat := none
  deriving DecidableEq

/-- An award; `awardedAt` is the time as `str` writes it. -/
structure ContractAward where
  awardId : String
  taskId : String
  bidderId : String
  bidId : Option String := none
  cfpId : Option String := none
  pipelineId : Option String := none
  pipelineRunId : Option String := none
  status : String := "awarded"
  awardedAt : String
  deriving DecidableEq

structure ReservationMarker where
  markerId : String
  taskId : String
  agentId : String

/-- An entry of `graph_spec["tasks"]`. -/
structure PlanTask where
  taskId : String
  description : String
  requiredCapabilities : List String
  tags : List String
  assignedAgent : Option String
  bidScore : Option ℚ
  bidId : Option String
  serviceName : Option String
  cfpId : Option String
  awardId : Option String
  taskType : Json
  riskLevel : RiskLevel
  requiresHumanApproval : Bool
  metadata : Fields
  status : Option String

structure GraphSpec where
  tasks : List PlanTask := []
  edges : List (Json × String) := []
  warnings : List String := []

structure PlanDraft where
  planId : String
  username : String
  pipelineId : String
  pipelineRunId : Option String := none
  revision : Nat := 1
  graphSpec : GraphSpec
  isValid : Bool := false
  cached : Bool := false

/-- `uuid4`: the ids that it returns one after the other. -/
structure UuidSource where
  draw : Nat → Uuid
  injective : Function.Injective draw

namespace UuidSource

variable (uuid : UuidSource)

def id (index : Nat) : String :=
  (uuid.draw index).text

theorem id_injective : Function.Injective uuid.id := by
  intro first second same
  exact uuid.injective (Uuid.ext same)

theorem id_ne_empty (index : Nat) : uuid.id index ≠ "" :=
  (uuid.draw index).nonempty

theorem no_colon (index : Nat) : ':' ∉ (uuid.id index).toList := by
  intro member
  have letter := (uuid.draw index).letters ':' member
  revert letter
  decide

end UuidSource

/-- Ids of growing length. -/
def countedIds : UuidSource where
  draw index :=
    { text := String.ofList (List.replicate (index + 1) '0')
      nonempty := by
        intro same
        have lengths := congrArg String.length same
        simp at lengths
      letters := by
        intro letter member
        rw [String.toList_ofList] at member
        rw [List.eq_of_mem_replicate member]
        decide }
  injective := by
    intro first second same
    have lengths :=
      congrArg String.length (congrArg Uuid.text same)
    simpa using lengths

/-- Built-ins for inputs on which none of them is asked. -/
def plainPython : PyBuiltins where
  strOther := fun _ => ""
  dictOther := fun _ => .error .typeError
  upper := id
  lower := id

/-- The stored documents by their keys, and how many ids were drawn so far. -/
structure CnpStore where
  cfps : OrderedMap String CallForProposal := .empty
  bids : OrderedMap String BlueprintBid := .empty
  awards : OrderedMap String ContractAward := .empty
  reservations : OrderedMap String ReservationMarker := .empty
  sequences : OrderedMap String EvaluationSequence := .empty
  drafts : OrderedMap String PlanDraft := .empty
  drawn : Nat := 0

def cfpKey (username taskId cfpId : String) : String :=
  (MarkerKey.cfp taskId cfpId).text username

def bidKey (username taskId bidderId bidId : String) : String :=
  (MarkerKey.bid taskId bidderId bidId).text username

def awardKey (username taskId awardId : String) : String :=
  (MarkerKey.award taskId awardId).text username

def sequenceKey (username taskId planId : String) : String :=
  (MarkerKey.evalSeq taskId planId).text username

namespace CnpStore

def addCfp
    (store : CnpStore) (username : String) (cfp : CallForProposal) :
    CnpStore :=
  { store with
    cfps := store.cfps.set (cfpKey username cfp.taskId cfp.cfpId) cfp }

def addBid
    (store : CnpStore) (username : String) (bid : BlueprintBid) :
    CnpStore :=
  { store with
    bids :=
      store.bids.set
        (bidKey username bid.taskId bid.bidderId bid.bidId) bid }

def addContractAward
    (store : CnpStore) (username : String) (award : ContractAward) :
    CnpStore :=
  { store with
    awards :=
      store.awards.set
        (awardKey username award.taskId award.awardId) award }

def addReservationMarker
    (store : CnpStore) (username : String) (marker : ReservationMarker) :
    CnpStore :=
  { store with
    reservations :=
      store.reservations.set
        ((MarkerKey.reservation marker.taskId marker.markerId).text
          username)
        marker }

def saveEvaluationSequence
    (store : CnpStore) (username : String)
    (sequence : EvaluationSequence) : CnpStore :=
  { store with
    sequences :=
      store.sequences.set
        (sequenceKey username sequence.taskId sequence.planId)
        sequence }

def savePlanDraft
    (store : CnpStore) (username : String) (draft : PlanDraft) :
    CnpStore :=
  { store with
    drafts :=
      store.drafts.set ((MarkerKey.plan draft.planId).text username)
        draft }

/-- The store after some ids were drawn. -/
def drawIds (store : CnpStore) (count : Nat) : CnpStore :=
  { store with drawn := store.drawn + count }

end CnpStore

/-! ## Listings -/

/-- The order in which a query returns its rows. -/
structure QueryOrder (α : Type) where
  arrange : List α → List α
  perm : ∀ rows, (arrange rows).Perm rows

def QueryOrder.asStored {α : Type} : QueryOrder α :=
  ⟨id, fun _ => .rfl⟩

/-- The rows whose keys are like the prefix followed by `%`. -/
def rowsUnder
    {α : Type} (docs : OrderedMap String α) (keyPrefix : String) :
    List (String × α) :=
  docs.entries.filter fun row =>
    LikePattern.like (keyPrefix.toList ++ ['%']) row.1.toList

/-- `if wanted: … item.get(field) == wanted`. -/
def isWanted (wanted found : Option String) : Bool :=
  match given wanted with
  | none => true
  | some text => decide (found = some text)

namespace CnpStore

variable (store : CnpStore)

/-- `list_cfps`.  The component for the task goes into the prefix only. -/
def listCfps
    (order : QueryOrder CallForProposal) (username : String)
    (taskId status : Option String) : List CallForProposal :=
  let rows := rowsUnder store.cfps (listingPrefix "cfp" username [taskId])
  (order.arrange (rows.map Prod.snd)).filter fun cfp =>
    isWanted status (some cfp.status)

def listBids
    (order : QueryOrder BlueprintBid) (username : String)
    (taskId pipelineId pipelineRunId : Option String) :
    List BlueprintBid :=
  let rows := rowsUnder store.bids (listingPrefix "bid" username [taskId])
  (order.arrange (rows.map Prod.snd)).filter fun bid =>
    isWanted taskId (some bid.taskId) &&
      isWanted pipelineId bid.pipelineId &&
        isWanted pipelineRunId bid.pipelineRunId

def listContractAwards
    (order : QueryOrder ContractAward) (username : String)
    (pipelineId pipelineRunId : Option String) : List ContractAward :=
  let rows := rowsUnder store.awards (listingPrefix "award" username [none])
  (order.arrange (rows.map Prod.snd)).filter fun award =>
    isWanted pipelineId award.pipelineId &&
      isWanted pipelineRunId award.pipelineRunId

end CnpStore

end Agentcy.Cnp
