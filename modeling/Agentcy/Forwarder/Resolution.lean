import Mathlib.Algebra.Order.Ring.Rat
import Mathlib.Data.List.Sort
import Agentcy.Runs.EphemeralStore

/-!
# Inline resolution of competing agents

Before the logic of a task runs, `forward` asks whether the service of the
task shares a capability with other agents.  If so, the agents are ranked by
their bids, the ranking is saved as an evaluation sequence, the best one gets
an award, and the task is routed to its service and, when there is one, to its
entry point.
-/

namespace Agentcy.Forwarder

open Agentcy.Library
open Agentcy.Runs

/-- An agent as the registry lists it; its id is its key there. -/
structure Agent where
  serviceName : String
  capabilities : List String := []

/-- The agents of each user.  `none` stands for a missing registry and for a
listing that raises. -/
abbrev Registry := String → Option (OrderedMap String Agent)

/-- The listing `list(username, service_name=...)`, falsy filters being no
filters. -/
def listByService
    (agents : OrderedMap String Agent) (service : String) :
    List (String × Agent) :=
  agents.entries.filter fun entry =>
    service = "" ∨ entry.2.serviceName = service

/-- The listing `list(username, capability=...)`. -/
def listByCapability
    (agents : OrderedMap String Agent) (capability : String) :
    List (String × Agent) :=
  agents.entries.filter fun entry =>
    capability = "" ∨ capability ∈ entry.2.capabilities

def agentEntryMap : List (String × String) :=
  [("warehouse-north", "agentcy.demo_agents.warehouse_agent_north:run"),
    ("warehouse-central",
      "agentcy.demo_agents.warehouse_agent_central:run"),
    ("warehouse-south", "agentcy.demo_agents.warehouse_agent_south:run"),
    ("cost-estimator", "agentcy.demo_agents.cost_estimator:run"),
    ("speed-estimator", "agentcy.demo_agents.speed_estimator:run")]

/-- Entry point of the agent behind a service, if the map has one. -/
def loadAgentEntry (service : String) : Option String :=
  agentEntryMap.lookup service

/-- Different services have different entry points. -/
theorem loadAgentEntry_inj
    {first second entry : String}
    (ofFirst : loadAgentEntry first = some entry)
    (ofSecond : loadAgentEntry second = some entry) :
    first = second := by
  have injective :
      ∀ one ∈ agentEntryMap, ∀ other ∈ agentEntryMap,
        one.2 = other.2 → one.1 = other.1 := by
    decide
  have listed : ∀ {service : String},
      loadAgentEntry service = some entry →
        (service, entry) ∈ agentEntryMap := by
    intro service found
    obtain ⟨front, back, split, _⟩ :=
      List.lookup_eq_some_iff.mp found
    rw [split]
    simp
  exact injective _ (listed ofFirst) _ (listed ofSecond) rfl

/-- Names of the services behind a listing, without the empty one. -/
def serviceNames (agents : List (String × Agent)) : List String :=
  ((agents.map fun entry => entry.2.serviceName).filter (· ≠ "")).dedup

/-- The first capability of a service that several services have. -/
def findSharedCapability
    (registry : Registry) (username service : String) : Option String := do
  let agents ← registry username
  let entry ← (listByService agents service).head?
  entry.2.capabilities.find? fun capability =>
    1 < (serviceNames (listByCapability agents capability)).length

/-- An agent with its blended bid score. -/
structure Scored where
  agentId : String
  serviceName : String
  bidScore : ℚ

/-- Python's `round(x, 4)`: to the nearest, halves to even. -/
def round4 (value : ℚ) : ℚ :=
  let scaled := value * 10000
  let low := scaled.floor
  let rest := scaled - low
  let nearest :=
    if rest < 1 / 2 then low
    else if 1 / 2 < rest then low + 1
    else if low % 2 = 0 then low
    else low + 1
  nearest / 10000

/-- Put the item at `index` first and the first item there. -/
def swapFirst {α : Type} (index : Nat) (items : List α) : List α :=
  match items[0]?, items[index]? with
  | some first, some other => (items.set 0 other).set index first
  | _, _ => items

/-- What a resolution depends on besides the stores and the task. -/
structure ResolutionEnv where
  registry : Registry
  hasGraphStore : Bool := true
  -- the blended score of an agent's bid for the task
  bidScore : String → ℚ
  -- the exploration step swaps the best bid with the one at this index
  explore : Option Nat := none
  -- id of the persisted bid of an agent
  bidId : String → Option String := fun _ => none
  saveFails : Bool := false
  awardFails : Bool := false

/-- The bids by descending score, equal scores in the order of the
registry, and after them the exploration step. -/
def ranked
    (env : ResolutionEnv) (agents : List (String × Agent)) :
    List Scored :=
  let scored : List Scored := agents.map fun entry =>
    { agentId := entry.1
      serviceName := entry.2.serviceName
      bidScore := env.bidScore entry.1 }
  let sorted := scored.insertionSort fun first second =>
    second.bidScore ≤ first.bidScore
  match env.explore with
  | some index => swapFirst index sorted
  | none => sorted

def candidateOf (env : ResolutionEnv) (entry : Scored) : Candidate where
  bidderId := entry.agentId
  serviceName := some entry.serviceName
  bidScore := round4 entry.bidScore
  bidId := env.bidId entry.agentId

/-- The task that a resolution is made for. -/
structure ResolvedTask where
  taskId : String
  username : String
  pipelineId : String
  pipelineRunId : String

/-- The ranking as it is saved: its plan id is the pipeline id. -/
def evaluationSequence
    (env : ResolutionEnv) (task : ResolvedTask) (scored : List Scored) :
    EvaluationSequence where
  taskId := task.taskId
  pipelineId := task.pipelineId
  pipelineRunId := some task.pipelineRunId
  planId := task.pipelineId
  candidates := scored.map (candidateOf env)

/-- The stores, the service and the sequence that come back. -/
structure ServiceResolution where
  stores : Stores
  service : String
  sequence : Option EvaluationSequence := none

/-- The bidding among several agents; `winner` heads their ranking. -/
def bid
    (env : ResolutionEnv) (stores : Stores) (task : ResolvedTask)
    (winner : Scored) (scored : List Scored) : ServiceResolution :=
  let sequence := evaluationSequence env task scored
  let saved :=
    if env.hasGraphStore ∧ ¬ env.saveFails then
      stores.saveEvaluationSequence task.username sequence
    else
      stores
  let award : ContractAward :=
    { username := task.username
      taskId := task.taskId
      bidderId := winner.agentId
      bidId := env.bidId winner.agentId
      cfpId := sequence.cfpId
      pipelineId := some task.pipelineId
      pipelineRunId := some task.pipelineRunId }
  { stores :=
      if env.hasGraphStore ∧ ¬ env.awardFails then
        saved.addContractAward award
      else
        saved
    service := winner.serviceName
    sequence := some sequence }

/-- The function `_resolve_competing_service`. -/
def resolveCompetingService
    (env : ResolutionEnv) (stores : Stores) (task : ResolvedTask)
    (availableServices : String) : ServiceResolution :=
  match env.registry task.username with
  | none => { stores := stores, service := availableServices }
  | some agents =>
      if listByService agents availableServices ≠ [] then
        { stores := stores, service := availableServices }
      else
        match listByCapability agents availableServices with
        | [] => { stores := stores, service := availableServices }
        | [only] => { stores := stores, service := only.2.serviceName }
        | competing =>
            match ranked env competing with
            | [] => { stores := stores, service := availableServices }
            | winner :: others =>
                bid env stores task winner (winner :: others)

/-! ## What a resolution saves -/

theorem swapFirst_length {α : Type} (index : Nat) (items : List α) :
    (swapFirst index items).length = items.length := by
  unfold swapFirst
  split
  · simp
  · rfl

theorem ranked_length
    (env : ResolutionEnv) (agents : List (String × Agent)) :
    (ranked env agents).length = agents.length := by
  unfold ranked
  dsimp only
  split
  · rw [swapFirst_length, List.length_insertionSort, List.length_map]
  · rw [List.length_insertionSort, List.length_map]

/-- A resolution that returns a sequence has ranked at least two agents of
the registry. -/
theorem resolveCompetingService_some
    {env : ResolutionEnv} {stores : Stores} {task : ResolvedTask}
    {availableServices : String} {sequence : EvaluationSequence}
    (resolved :
      (resolveCompetingService env stores task
        availableServices).sequence = some sequence) :
    ∃ agents winner second others,
      env.registry task.username = some agents ∧
        ranked env (listByCapability agents availableServices) =
          winner :: second :: others ∧
        resolveCompetingService env stores task availableServices =
          bid env stores task winner (winner :: second :: others) ∧
        sequence =
          evaluationSequence env task (winner :: second :: others) := by
  unfold resolveCompetingService at resolved ⊢
  cases listed : env.registry task.username with
  | none =>
      simp [listed] at resolved
  | some agents =>
      simp only [listed] at resolved ⊢
      split at resolved
      · cases resolved
      · rename_i noDirect
        rw [if_neg noDirect]
        split at resolved
        · cases resolved
        · cases resolved
        · rename_i noAgent oneAgent
          have length :=
            ranked_length env
              (listByCapability agents availableServices)
          split at resolved
          · cases resolved
          · rename_i winner others order
            rw [order, List.length_cons] at length
            cases others with
            | nil =>
                obtain ⟨only, single⟩ :=
                  List.length_eq_one_iff.mp length.symm
                exact absurd single (oneAgent only)
            | cons second others =>
                refine ⟨agents, winner, second, others, rfl, order, ?_, ?_⟩
                · simp only
                · exact (Option.some.inj resolved).symm

theorem mem_swapFirst {α : Type} {index : Nat} {items : List α} {item : α}
    (member : item ∈ swapFirst index items) : item ∈ items := by
  unfold swapFirst at member
  split at member
  · rename_i first other atFirst atOther
    rcases List.mem_or_eq_of_mem_set member with inner | rfl
    · rcases List.mem_or_eq_of_mem_set inner with old | rfl
      · exact old
      · exact List.mem_of_getElem? atOther
    · exact List.mem_of_getElem? atFirst
  · exact member

theorem mem_swapFirst_of_mem {α : Type} (index : Nat) {items : List α}
    {item : α} (member : item ∈ items) : item ∈ swapFirst index items := by
  unfold swapFirst
  split
  · rename_i first other atFirst atOther
    have positive : 0 < items.length :=
      List.length_pos_of_mem member
    have inRange : index < items.length :=
      (List.getElem?_eq_some_iff.mp atOther).1
    obtain ⟨position, atPosition⟩ := List.mem_iff_getElem?.mp member
    rw [List.mem_iff_getElem?]
    by_cases atIndex : position = index
    · obtain rfl : item = other :=
        Option.some.inj (by rw [← atPosition, ← atOther, atIndex])
      by_cases front : index = 0
      · refine ⟨index, ?_⟩
        have same : first = item :=
          Option.some.inj (by rw [← atFirst, ← atOther, front])
        simp [inRange, same]
      · refine ⟨0, ?_⟩
        simp [front, positive]
    · by_cases front : position = 0
      · obtain rfl : item = first :=
          Option.some.inj (by rw [← atPosition, ← atFirst, front])
        refine ⟨index, ?_⟩
        simp [inRange]
      · refine ⟨position, ?_⟩
        rw [List.getElem?_set_ne (Ne.symm atIndex),
          List.getElem?_set_ne (Ne.symm front), atPosition]
  · exact member

/-- The ranked bids are those of the listed agents. -/
theorem mem_ranked_iff
    {env : ResolutionEnv} {agents : List (String × Agent)}
    {entry : Scored} :
    entry ∈ ranked env agents ↔
      ∃ listed ∈ agents,
        ({ agentId := listed.1
           serviceName := listed.2.serviceName
           bidScore := env.bidScore listed.1 } : Scored) = entry := by
  have sorted (items : List Scored) :
      (entry ∈ items.insertionSort fun first second =>
          second.bidScore ≤ first.bidScore) ↔
        entry ∈ items :=
    List.mem_insertionSort _
  rw [← List.mem_map]
  unfold ranked
  dsimp only
  split
  · exact
      Iff.trans ⟨mem_swapFirst, mem_swapFirst_of_mem _⟩ (sorted _)
  · exact sorted _

/-- Every ranked bid is the bid of a listed agent. -/
theorem mem_ranked
    {env : ResolutionEnv} {agents : List (String × Agent)}
    {entry : Scored} (member : entry ∈ ranked env agents) :
    ∃ agent, (entry.agentId, agent) ∈ agents ∧
      agent.serviceName = entry.serviceName := by
  obtain ⟨listed, inAgents, rfl⟩ := mem_ranked_iff.mp member
  exact ⟨listed.2, inAgents, rfl⟩

/-- Every listed agent is ranked. -/
theorem mem_ranked_of_mem
    (env : ResolutionEnv) {agents : List (String × Agent)}
    {listed : String × Agent} (member : listed ∈ agents) :
    ({ agentId := listed.1
       serviceName := listed.2.serviceName
       bidScore := env.bidScore listed.1 } : Scored) ∈
      ranked env agents :=
  mem_ranked_iff.mpr ⟨listed, member, rfl⟩

/-- Two agents of one capability. -/
def estimators : Registry := fun username =>
  if username = "alice" then
    some
      (.ofList
        [("agent-a",
            { serviceName := "cost-estimator"
              capabilities := ["deal_estimation"] }),
          ("agent-b",
            { serviceName := "speed-estimator"
              capabilities := ["deal_estimation"] })])
  else
    none

/-- Bids in which one of the two agents is ahead. -/
def estimatorEnv (ahead : String) : ResolutionEnv where
  registry := estimators
  bidScore agentId := if agentId = ahead then 9 / 10 else 7 / 10

end Agentcy.Forwarder
