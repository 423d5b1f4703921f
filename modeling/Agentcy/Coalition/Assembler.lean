import Agentcy.Forwarder.Resolution
import Agentcy.Library.Clamp
import Agentcy.Library.PyText
import Agentcy.Library.Run

/-!
# Coalition assembly

`assemble_coalition` matches the best solo bidder with a partner from the
agent registry.  One pass over the agents scores the candidates; the map with
the coalition signals is made once, before the pass, and only ever written.
-/

namespace Agentcy.Coalition

open Agentcy.Library

/-- What the assembly reads of a registry entry, with its defaults. -/
structure Agent where
  agentId : String := ""
  capabilities : List String := []
  tags : List String := []
  trust : Rat := 1 / 2
  load : Int := 0
  maxLoad : Int := 3
  deriving DecidableEq

inductive SignalType where
  | jointTrust
  | handoffFriction
  deriving DecidableEq

/-- The map from signal types to scores. -/
abbrev Signals := SignalType → Option Rat

/-- `get_coalition_signal`: the score of the document, unless there is none
or the call raises. -/
structure SignalStore where
  getCoalitionSignal (username : String) (signalType : SignalType)
    (coalitionSignature taskSignature : String) : Option Rat

def verifierCapabilities : List String :=
  ["validate", "verification", "policy.check", "verify.semantic"]

section Score

-- `str.lower`
variable (lower : String → String)

def isVerifierCandidate (agent : Agent) : Bool :=
  let caps := agent.capabilities.map fun c => PyText.strip (lower c)
  let tags := agent.tags.map fun t => PyText.strip (lower t)
  caps.any (fun c => decide (c ∈ verifierCapabilities)) ||
    tags.contains "verifier" || tags.contains "verification"

/-- The score before it is brought into the range from 0 to 1. -/
def rawScore (primary partner : Agent) (signals : Signals) : Rat :=
  let primaryCaps := primary.capabilities.map lower
  let partnerCaps := (partner.capabilities.map lower).dedup
  let newCaps := partnerCaps.filter fun c => decide (c ∉ primaryCaps)
  let complementarity :=
    min ((newCaps.length : Rat) / (max partnerCaps.length 1 : Nat)) 1 *
      (4 / 10)
  let jointSuccess := (signals .jointTrust).getD (1 / 2) * (25 / 100)
  let trustCompat := min primary.trust partner.trust * (15 / 100)
  let handoffFriction := (signals .handoffFriction).getD 0 * (10 / 100)
  let loadPenalty :=
    if 0 < partner.maxLoad then
      (partner.load : Rat) / partner.maxLoad * (10 / 100)
    else 0
  complementarity + jointSuccess + trustCompat - handoffFriction -
    loadPenalty

def compatibilityScore
    (primary partner : Agent) (signals : Signals) : Rat :=
  clamp (rawScore lower primary partner signals) 0 1

end Score

/-- The arguments of a call that the search for a partner reads. -/
structure Context where
  lower : String → String
  primaryAgent : Agent
  store : Option SignalStore := none
  username : String := ""
  taskSignature : String := ""

namespace Context

variable (context : Context)

/-- The agents that are scored. -/
def Eligible (agent : Agent) : Prop :=
  agent.agentId ≠ context.primaryAgent.agentId ∧ agent.agentId ≠ "" ∧
    isVerifierCandidate context.lower agent = true

instance : DecidablePred context.Eligible :=
  fun _ => inferInstanceAs (Decidable (_ ∧ _ ∧ _))

def coalitionSignature (agent : Agent) : String :=
  let start (agentId : String) :=
    String.ofList (agentId.toList.take 8)
  start context.primaryAgent.agentId ++ "+" ++ start agent.agentId

/-- The signals that the store has for a candidate. -/
def ownSignals (agent : Agent) : Signals := fun signalType =>
  context.store.bind fun store =>
    store.getCoalitionSignal context.username signalType
      (context.coalitionSignature agent) context.taskSignature

/-- The map of the loop once the signals of a candidate are loaded. -/
def loadSignals (signals : Signals) (agent : Agent) : Signals :=
  fun signalType =>
    match context.ownSignals agent signalType with
    | some score => some score
    | none => signals signalType

structure Search where
  signals : Signals := fun _ => none
  bestCompat : Rat := 0
  bestPartner : Option Agent := none

def considerPartner (search : Search) (agent : Agent) : Search :=
  if context.Eligible agent then
    let signals := context.loadSignals search.signals agent
    let compat := compatibilityScore context.lower context.primaryAgent
      agent signals
    if search.bestCompat < compat then ⟨signals, compat, some agent⟩
    else { search with signals := signals }
  else search

def findPartner (allAgents : List Agent) : Search :=
  run context.considerPartner {} allAgents

end Context

inductive CoordinationMode where
  | soloOnly
  | soloPreferred
  | coalitionAllowed
  | coalitionRequired
  deriving DecidableEq

inductive CoalitionRole where
  | planner
  | executor
  | verifier
  | safety
  deriving DecidableEq

structure CoalitionMember where
  agentId : String
  role : CoalitionRole
  deriving DecidableEq

structure CoalitionBid where
  taskId : String
  members : List CoalitionMember
  handoffPlan : List String
  jointConfidence : Rat
  expectedLatencyMs : Int
  expectedCost : Rat
  jointTrustScore : Rat
  fallbackMode : String
  fallbackAgentId : Option String

/-- What the environment sets. -/
structure CoalitionEnv where
  coalitionEnabled : Bool := false
  maxTeamSize : Int := 2
  minCompat : Rat := 2 / 10
  overheadFactor : Rat := 14 / 10

structure TaskSpec where
  taskId : String
  requiredCapabilities : List String := []
  coordinationMode : CoordinationMode

/-- `int(value)`, which rounds toward zero. -/
def truncate (value : Rat) : Int :=
  if 0 ≤ value then value.floor else value.ceil

/-- The policy of the runtime blocks coalitions that are not required. -/
def policyAllows
    (coalitionPolicyMode : Option String) (mode : CoordinationMode) :
    Bool :=
  if coalitionPolicyMode = some "disabled" ∨
      coalitionPolicyMode = some "discouraged" then
    decide (mode = .coalitionRequired)
  else true

def assembleCoalition
    (lower : String → String) (env : CoalitionEnv) (taskSpec : TaskSpec)
    (primaryAgent : Agent) (primaryBidScore : Rat)
    (allAgents : List Agent) (store : Option SignalStore)
    (username : String) (coalitionPolicyMode : Option String) :
    Option CoalitionBid :=
  if env.coalitionEnabled = true ∧
      policyAllows coalitionPolicyMode taskSpec.coordinationMode = true ∧
      taskSpec.coordinationMode ∈
        [.coalitionAllowed, .coalitionRequired] ∧
      primaryAgent.agentId ≠ "" ∧ 2 ≤ env.maxTeamSize then
    let context : Context :=
      { lower, primaryAgent, store, username
        taskSignature := taskSpec.requiredCapabilities.headD "" }
    let search := context.findPartner allAgents
    match search.bestPartner with
    | none => none
    | some partner =>
        if search.bestCompat < env.minCompat then none
        else
          some
            { taskId := taskSpec.taskId
              members :=
                [⟨primaryAgent.agentId, .planner⟩,
                  ⟨partner.agentId, .verifier⟩]
              handoffPlan :=
                [primaryAgent.agentId ++ "_generate",
                  partner.agentId ++ "_verify",
                  primaryAgent.agentId ++ "_finalize"]
              jointConfidence := Forwarder.round4
                (min 1 (primaryBidScore + search.bestCompat * (15 / 100)))
              expectedLatencyMs := truncate (7000 * env.overheadFactor)
              expectedCost :=
                Forwarder.round4 (2 / 10 * env.overheadFactor)
              jointTrustScore := Forwarder.round4
                ((primaryAgent.trust + partner.trust) / 2)
              fallbackMode := "degrade_to_solo"
              fallbackAgentId := some primaryAgent.agentId }
  else none

end Agentcy.Coalition
