import Agentcy.Cnp.CnpStore
import Agentcy.Forwarder.Credit

/-!
# Markers for agents that succeed

After a success the forwarder leaves an affordance marker for the agent it
credits, and the next resolution adds the strongest marker of an agent to its
bid.  The writer continues from the markers of the task, whatever their
capability, and guesses a capability from the services of the candidates; the
reader takes the markers of one capability, whatever their task.
-/

namespace Agentcy.Forwarder

open Agentcy.Cnp (QueryOrder isWanted rowsUnder)
open Agentcy.GraphStore (MarkerKey listingPrefix)
open Agentcy.Library
open Agentcy.Runs
open Agentcy.Tracker

/-- What went wrong when an agent failed. -/
structure FailureContext where
  taskType : String
  errorCategory : Option String := none
  count : Nat := 1
  lastError : Option String := none

structure AffordanceMarker where
  markerId : String
  taskId : String
  agentId : String
  capability : Option String := none
  intensity : ℚ := 1
  rationale : Option String := none
  pipelineId : Option String := none
  pipelineRunId : Option String := none
  failureContext : Option FailureContext := none
  ttlSeconds : Nat := 300

abbrev Markers := OrderedMap String AffordanceMarker

def affordanceKey (username taskId markerId : String) : String :=
  (MarkerKey.affordance taskId markerId).text username

def addAffordanceMarker
    (markers : Markers) (username : String) (marker : AffordanceMarker) :
    Markers :=
  markers.set (affordanceKey username marker.taskId marker.markerId) marker

def listAffordanceMarkers
    (order : QueryOrder AffordanceMarker) (markers : Markers)
    (username : String) (taskId agentId : Option String) :
    List AffordanceMarker :=
  let rows :=
    rowsUnder markers (listingPrefix "marker::affordance" username [taskId])
  (order.arrange (rows.map Prod.snd)).filter fun marker =>
    isWanted agentId (some marker.agentId)

/-- How a listing of markers goes. -/
structure MarkerQuery where
  order : QueryOrder AffordanceMarker
  fails : Bool := false

/-- The largest intensity, or zero. -/
def strongest (markers : List AffordanceMarker) : ℚ :=
  markers.foldl (fun best marker => max best marker.intensity) 0

/-- What a resolution for the capability reads for an agent. -/
def pheromoneIntensity
    (query : MarkerQuery) (markers : Markers)
    (username capability agentId : String) : ℚ :=
  if query.fails then 0
  else
    strongest
      ((listAffordanceMarkers query.order markers username none
        (some agentId)).filter fun marker =>
          decide (marker.capability = some capability))

/-- What the forwarder reads before it deposits a marker. -/
def existingIntensity
    (query : MarkerQuery) (markers : Markers)
    (username toTask agentId : String) : ℚ :=
  if query.fails then 0
  else
    strongest
      (listAffordanceMarkers query.order markers username (some toTask)
        (some agentId))

/-- What a deposit depends on besides the markers and the pass. -/
structure DepositEnv where
  existing : MarkerQuery
  delta : ℚ := 1 / 5
  markerId : String
  addFails : Bool := false

def servesWarehouse (service : String) : Bool :=
  decide ("warehouse".toList <:+: service.toList)

def isEstimator (service : String) : Bool :=
  decide (service = "cost-estimator" ∨ service = "speed-estimator")

/-- The capability that is guessed for the marker. -/
def markerCapability
    (toTask : String) (candidates : List Candidate) : String :=
  if candidates.any fun candidate =>
      servesWarehouse (candidate.serviceName.getD "") then
    "warehouse_matching"
  else if candidates.any fun candidate =>
      isEstimator (candidate.serviceName.getD "") then
    "deal_estimation"
  else
    toTask

def newIntensity
    (env : DepositEnv) (markers : Markers)
    (username toTask agentId : String) : ℚ :=
  min (existingIntensity env.existing markers username toTask agentId +
    env.delta) 1

/-- The deposit of a pass.  A marker with a negative intensity is not
accepted. -/
def depositMarker
    (env : DepositEnv) (toTask : String) (routed : Routed) (pass : Pass)
    (markers : Markers) : Markers :=
  match routed.sequence, pass.credited with
  | some sequence, some agentId =>
      let payload := routed.payload
      let intensity :=
        newIntensity env markers payload.username toTask agentId
      let firstOfRun := payload.pipelineRunId.toList.take 8
      if env.addFails ∨ intensity < 0 then markers
      else
        addAffordanceMarker markers payload.username
          { markerId := env.markerId
            taskId := toTask
            agentId := agentId
            capability :=
              some (markerCapability toTask sequence.candidates)
            intensity := intensity
            rationale :=
              some
                ("success:" ++ toTask ++ ":" ++ String.ofList firstOfRun)
            pipelineId := some payload.pipelineId
            pipelineRunId := some payload.pipelineRunId
            ttlSeconds := 86400 }
  | _, _ => markers

theorem lt_foldl_max_iff
    (bound start : ℚ) (markers : List AffordanceMarker) :
    bound <
        markers.foldl (fun best marker => max best marker.intensity)
          start ↔
      bound < start ∨ ∃ marker ∈ markers, bound < marker.intensity := by
  induction markers generalizing start with
  | nil =>
      simp
  | cons marker rest inductionHypothesis =>
      rw [List.foldl_cons, inductionHypothesis, lt_max_iff]
      simp [or_assoc]

theorem strongest_nonneg (markers : List AffordanceMarker) :
    0 ≤ strongest markers :=
  le_of_not_gt fun below =>
    absurd ((lt_foldl_max_iff _ 0 markers).mpr (.inl below))
      (lt_irrefl _)

theorem existingIntensity_nonneg
    (query : MarkerQuery) (markers : Markers)
    (username toTask agentId : String) :
    0 ≤ existingIntensity query markers username toTask agentId := by
  rw [existingIntensity]
  split
  · exact le_refl _
  · exact strongest_nonneg _

theorem intensity_le_strongest
    {markers : List AffordanceMarker} {marker : AffordanceMarker}
    (member : marker ∈ markers) : marker.intensity ≤ strongest markers :=
  le_of_not_gt fun above =>
    absurd
      ((lt_foldl_max_iff _ 0 markers).mpr (.inr ⟨marker, member, above⟩))
      (lt_irrefl _)

theorem mem_listAffordanceMarkers_iff
    (order : QueryOrder AffordanceMarker) (markers : Markers)
    (username : String) (taskId agentId : Option String)
    (marker : AffordanceMarker) :
    marker ∈
        listAffordanceMarkers order markers username taskId agentId ↔
      (∃ key, (key, marker) ∈
          rowsUnder markers
            (listingPrefix "marker::affordance" username [taskId])) ∧
        isWanted agentId (some marker.agentId) = true := by
  rw [listAffordanceMarkers, List.mem_filter,
    (order.perm _).mem_iff, List.mem_map]
  simp

theorem isWanted_some_iff (agentId found : String) :
    isWanted (some agentId) (some found) = true ↔
      agentId = "" ∨ found = agentId := by
  by_cases blank : agentId = ""
  · simp [isWanted, GraphStore.given, Option.filter, blank]
  · simp [isWanted, GraphStore.given, Option.filter, blank]

/-- A listing for the user covers every marker that is added for the user. -/
theorem like_affordanceKey (username taskId markerId : String) :
    LikePattern.like
        ((listingPrefix "marker::affordance" username [none]).toList ++
          ['%'])
        (affordanceKey username taskId markerId).toList =
      true := by
  have split :
      (affordanceKey username taskId markerId).toList =
        (listingPrefix "marker::affordance" username [none]).toList ++
          (taskId ++ "::" ++ markerId).toList := by
    simp [affordanceKey, MarkerKey.text, MarkerKey.kind,
      MarkerKey.components, MarkerKey.joined, listingPrefix,
      GraphStore.narrowed, GraphStore.given]
  rw [split]
  exact LikePattern.like_of_append _ _

/-- An added marker is felt when it is one for the capability and for the
agent, and stronger than all that were read before. -/
theorem pheromoneIntensity_rises_iff
    (query : MarkerQuery) (markers : Markers)
    (username capability agentId : String) (marker : AffordanceMarker) :
    pheromoneIntensity query markers username capability agentId <
        pheromoneIntensity query
          (addAffordanceMarker markers username marker) username
          capability agentId ↔
      query.fails = false ∧ marker.capability = some capability ∧
        (agentId = "" ∨ marker.agentId = agentId) ∧
        pheromoneIntensity query markers username capability agentId <
          marker.intensity := by
  rcases Bool.eq_false_or_eq_true query.fails with failed | reads
  · simp [pheromoneIntensity, failed]
  simp only [pheromoneIntensity, reads, Bool.false_eq_true, if_false,
    true_and]
  rw [strongest.eq_def (List.filter _ (listAffordanceMarkers query.order
    (addAffordanceMarker markers username marker) _ _ _)),
    lt_foldl_max_iff,
    or_iff_right (not_lt.mpr (strongest_nonneg _))]
  constructor
  · rintro ⟨found, member, above⟩
    obtain ⟨listed, ofCapability⟩ := List.mem_filter.mp member
    obtain ⟨⟨key, inRows⟩, wanted⟩ :=
      (mem_listAffordanceMarkers_iff _ _ _ _ _ _).mp listed
    obtain ⟨stored, under⟩ := List.mem_filter.mp inRows
    rcases OrderedMap.mem_entries_set stored with new | old
    · obtain rfl : found = marker := congrArg Prod.snd new
      exact
        ⟨of_decide_eq_true ofCapability,
          (isWanted_some_iff _ _).mp wanted, above⟩
    · have before :=
        (mem_listAffordanceMarkers_iff query.order markers username none
          (some agentId) found).mpr
            ⟨⟨key, List.mem_filter.mpr ⟨old, under⟩⟩, wanted⟩
      exact
        absurd above
          (not_lt.mpr
            (intensity_le_strongest
              (List.mem_filter.mpr ⟨before, ofCapability⟩)))
  · rintro ⟨ofCapability, forAgent, above⟩
    have stored :
        (affordanceKey username marker.taskId marker.markerId, marker) ∈
          (addAffordanceMarker markers username marker).entries :=
      OrderedMap.mem_of_get? (OrderedMap.get?_set_self markers _ marker)
    have listed :=
      (mem_listAffordanceMarkers_iff query.order
        (addAffordanceMarker markers username marker) username none
        (some agentId) marker).mpr
          ⟨⟨_, List.mem_filter.mpr
              ⟨stored, like_affordanceKey username _ _⟩⟩,
            (isWanted_some_iff _ _).mpr forAgent⟩
    exact
      ⟨marker,
        List.mem_filter.mpr ⟨listed, decide_eq_true ofCapability⟩, above⟩

/-! ## The capability that is guessed -/

/-- The capability is the one that is guessed when the agents with it are the
candidates for the task. -/
def GuessedFor
    (toTask capability : String) (agents : List (String × Agent)) : Prop :=
  if ∃ entry ∈ agents, servesWarehouse entry.2.serviceName = true then
    capability = "warehouse_matching"
  else if ∃ entry ∈ agents, isEstimator entry.2.serviceName = true then
    capability = "deal_estimation"
  else
    capability = toTask

theorem any_candidates_iff
    (env : ResolutionEnv) (agents : List (String × Agent))
    (test : String → Bool) :
    ((ranked env agents).map (candidateOf env)).any
        (fun candidate => test (candidate.serviceName.getD "")) =
        true ↔
      ∃ entry ∈ agents, test entry.2.serviceName = true := by
  rw [List.any_map, List.any_eq_true]
  constructor
  · rintro ⟨entry, isRanked, passes⟩
    obtain ⟨agent, inAgents, sameService⟩ := mem_ranked isRanked
    refine ⟨_, inAgents, ?_⟩
    rw [sameService]
    exact passes
  · rintro ⟨entry, inAgents, passes⟩
    exact ⟨_, mem_ranked_of_mem env inAgents, passes⟩

theorem markerCapability_eq_iff
    (env : ResolutionEnv) (toTask capability : String)
    (agents : List (String × Agent)) :
    markerCapability toTask ((ranked env agents).map (candidateOf env)) =
        capability ↔
      GuessedFor toTask capability agents := by
  unfold markerCapability GuessedFor
  simp only [any_candidates_iff]
  split
  · exact eq_comm
  · split
    · exact eq_comm
    · exact eq_comm

/-- The capability that `forward` resolves for the task. -/
def capabilityToResolve
    (env : ResolutionEnv) (toTask : String) (payload : TaskState) :
    Option String :=
  (findSharedCapability env.registry payload.username
    (currentService toTask payload)).filter (· ≠ "")

theorem routeTask_sequence
    {env : ResolutionEnv} {toTask capability : String}
    {payload : TaskState}
    (shared : capabilityToResolve env toTask payload = some capability)
    (stores : Stores) :
    (routeTask env stores toTask payload).sequence =
      (resolveCompetingService env stores (taskToResolve toTask payload)
        capability).sequence := by
  rw [capabilityToResolve] at shared
  unfold routeTask
  simp only [shared]
  split
  · rfl
  · rfl

/-- The first candidate at a service, or the service itself. -/
def markerAgent
    (sequence : EvaluationSequence) (service : String) : String :=
  let entry :=
    sequence.candidates.find? fun candidate =>
      candidate.serviceName = some service
  (entry.map Candidate.bidderId).getD service

theorem mem_passes
    {env : TrackerEnv} {depositsMarkers : Bool} {routed : Routed}
    {attempts : Nat → Attempt} {remaining count : Nat} {agentId : String}
    {base : TaskState} {tracker : TrackerState} {stores : Stores}
    {pass : Pass}
    (member :
      pass ∈ passes env depositsMarkers routed attempts remaining count
        agentId base tracker stores) :
    ∃ number turn state,
      pass =
        passOf depositsMarkers routed attempts number turn state := by
  induction remaining
      generalizing count agentId base tracker stores with
  | zero =>
      exact ⟨_, _, _, List.mem_singleton.mp member⟩
  | succ remaining inductionHypothesis =>
      rw [passes] at member
      split at member
      · rcases List.mem_cons.mp member with rfl | later
        · exact ⟨_, _, _, rfl⟩
        · exact inductionHypothesis later
      · exact ⟨_, _, _, List.mem_singleton.mp member⟩

/-- A pass that succeeds credits the agent at the service of the routed
payload. -/
theorem credited_of_completed
    {env : TrackerEnv} {routed : Routed} {attempts : Nat → Attempt}
    {winner : String} {payload : TaskState} {maxReforwards : Int}
    {tracker : TrackerState} {sequence : EvaluationSequence}
    {pass : Pass} (resolved : routed.sequence = some sequence)
    (made :
      pass ∈ allPasses env true routed attempts winner payload
        maxReforwards tracker)
    (succeeds : pass.finalState.status = .completed) :
    pass.credited =
      some (markerAgent sequence routed.payload.serviceName) := by
  obtain ⟨number, turn, state, rfl⟩ := mem_passes made
  have returned : (attempts number).logic.isSome = true := by
    rw [passOf, finalTaskState_status] at succeeds
    split at succeeds
    · rename_i both
      exact (Bool.and_eq_true_iff.mp both).1
    · cases succeeds
  rw [passOf, creditedAgent, if_pos ⟨rfl, returned⟩, resolved]
  rfl

/-- What it takes for the marker that one agent is credited with to be felt
by the next resolution for the capability as one of `agentId`. -/
structure FeltWhen
    (deposits : DepositEnv) (reading : MarkerQuery) (markers : Markers)
    (username toTask capability : String)
    (agents : List (String × Agent)) (credited agentId : String) :
    Prop where
  reads : reading.fails = false
  stored : deposits.addFails = false
  guessed : GuessedFor toTask capability agents
  own : agentId = "" ∨ credited = agentId
  rises :
    pheromoneIntensity reading markers username capability agentId <
      existingIntensity deposits.existing markers username toTask
        credited + deposits.delta

/-- For every resolution that ranks the agents with a capability, and every
pass that then succeeds: the next resolution for the capability reads more for
the agent whose turn it was exactly when the capability is the one that the
forwarder guesses, the agent is the one it credits, and the markers of the
task with the new share outweigh those for the capability. -/
theorem deposit_felt_iff
    (trackerEnv : TrackerEnv) (env : ResolutionEnv) (stores : Stores)
    (toTask capability : String) (payload : TaskState)
    (agents : OrderedMap String Agent) (attempts : Nat → Attempt)
    (maxReforwards : Int) (tracker : TrackerState)
    (sequence : EvaluationSequence) (winner : String) (pass : Pass)
    (deposits : DepositEnv) (reading : MarkerQuery) (markers : Markers)
    (registered : env.registry payload.username = some agents)
    (shared : capabilityToResolve env toTask payload = some capability)
    (resolved :
      (routeTask env stores toTask payload).sequence = some sequence)
    (made :
      pass ∈ allPasses trackerEnv true
        (routeTask env stores toTask payload) attempts winner payload
        maxReforwards tracker)
    (succeeds : pass.finalState.status = .completed)
    (positive : 0 < deposits.delta)
    (below :
      pheromoneIntensity reading markers payload.username capability
          pass.agentId < 1) :
    pheromoneIntensity reading markers payload.username capability
          pass.agentId <
        pheromoneIntensity reading
          (depositMarker deposits toTask
            (routeTask env stores toTask payload) pass markers)
          payload.username capability pass.agentId ↔
      FeltWhen deposits reading markers payload.username toTask capability
        (listByCapability agents capability)
        (markerAgent sequence
          (routeTask env stores toTask payload).payload.serviceName)
        pass.agentId := by
  have credited := credited_of_completed resolved made succeeds
  have sameUser :
      (routeTask env stores toTask payload).payload.username =
        payload.username := by
    obtain ⟨_, _, routes⟩ := routeTask_routedTo resolved
    exact routes.sameTask.username.symm
  have candidates :
      sequence.candidates =
        (ranked env (listByCapability agents capability)).map
          (candidateOf env) := by
    have ranks := resolved
    rw [routeTask_sequence shared] at ranks
    obtain ⟨listing, _, _, _, listed, order, _, saved⟩ :=
      resolveCompetingService_some ranks
    obtain rfl : agents = listing :=
      Option.some.inj (registered.symm.trans listed)
    rw [saved, order]
    rfl
  have notNegative :
      ¬ newIntensity deposits markers payload.username toTask
          (markerAgent sequence
            (routeTask env stores toTask payload).payload.serviceName) <
        0 := by
    have existing :
        0 ≤ existingIntensity deposits.existing markers payload.username
          toTask
          (markerAgent sequence
            (routeTask env stores toTask payload).payload.serviceName) :=
      existingIntensity_nonneg _ _ _ _ _
    exact
      not_lt.mpr
        (le_min (add_nonneg existing positive.le) zero_le_one)
  rw [depositMarker, resolved, credited]
  dsimp only
  rw [sameUser]
  by_cases fails : deposits.addFails = true
  · rw [if_pos (.inl fails)]
    constructor
    · intro less
      exact absurd less (lt_irrefl _)
    · intro felt
      rw [felt.stored] at fails
      cases fails
  · rw [if_neg (not_or.mpr ⟨fails, notNegative⟩),
      pheromoneIntensity_rises_iff]
    dsimp only
    rw [Option.some.injEq, candidates, markerCapability_eq_iff,
      newIntensity, lt_min_iff, and_iff_left below]
    constructor
    · rintro ⟨reads, guessed, own, rises⟩
      exact ⟨reads, by simpa using fails, guessed, own, rises⟩
    · intro felt
      exact ⟨felt.reads, felt.guessed, felt.own, felt.rises⟩

/-- The winner of the resolution is credited as soon as the payload names its
service. -/
theorem markerAgent_eq_winner
    {registry : Registry} {toTask : String} {payload : TaskState}
    {routed : Routed} {winner : Candidate} {service : String}
    {sequence : EvaluationSequence}
    (routes : RoutedTo registry toTask payload routed winner service)
    (named : routed.payload.serviceName = service)
    (saved : routed.sequence = some sequence) :
    markerAgent sequence routed.payload.serviceName = winner.bidderId := by
  have credited := routes.creditedAgent_eq named true logicSucceeds
  rw [creditedAgent, if_pos ⟨rfl, rfl⟩, if_pos ⟨rfl, rfl⟩, saved]
    at credited
  exact Option.some.inj credited

/-! ## Two estimators and two reviewers -/

def asListed : MarkerQuery where
  order := .asStored

def plainDeposits : DepositEnv where
  existing := asListed
  markerId := "m-1"

/-- The first marker of an agent for a capability that is guessed. -/
theorem first_estimate_is_felt :
    pheromoneIntensity asListed .empty "alice" "deal_estimation"
        "agent-b" <
      pheromoneIntensity asListed
        (depositMarker plainDeposits "estimate"
          (routeTask (estimatorEnv "agent-b") plannedStores "estimate"
            estimatePayload)
          (firstPass true
            (routeTask (estimatorEnv "agent-b") plannedStores "estimate"
              estimatePayload)
            (fun _ => logicSucceeds) "agent-b" estimatePayload)
          .empty)
        "alice" "deal_estimation" "agent-b" := by
  apply
    (deposit_felt_iff {} (estimatorEnv "agent-b") plannedStores "estimate"
      "deal_estimation" estimatePayload
      (.ofList
        [("agent-a",
            { serviceName := "cost-estimator"
              capabilities := ["deal_estimation"] }),
          ("agent-b",
            { serviceName := "speed-estimator"
              capabilities := ["deal_estimation"] })])
      (fun _ => logicSucceeds) 3 {}
      { taskId := "estimate"
        pipelineId := "pipe-1"
        pipelineRunId := some "run-1"
        planId := "pipe-1"
        candidates :=
          [{ bidderId := "agent-b"
             serviceName := some "speed-estimator"
             bidScore := 9 / 10 },
            { bidderId := "agent-a"
              serviceName := some "cost-estimator"
              bidScore := 7 / 10 }] }
      "agent-b" _ plainDeposits asListed .empty rfl (by decide +kernel)
      (by decide +kernel) ?_ (by decide +kernel) (by decide +kernel)
      (by decide +kernel)).mpr
  · refine ⟨rfl, rfl, ?_, .inr (by decide +kernel), by decide +kernel⟩
    unfold GuessedFor
    decide +kernel
  · exact List.mem_of_getElem? (i := 0) (by rfl)

def reviewers : Registry := fun username =>
  if username = "alice" then
    some
      (.ofList
        [("agent-c",
            { serviceName := "legal-review", capabilities := ["review"] }),
          ("agent-d",
            { serviceName := "quick-review"
              capabilities := ["review"] })])
  else
    none

def reviewBids : ResolutionEnv where
  registry := reviewers
  bidScore agentId := if agentId = "agent-c" then 9 / 10 else 7 / 10

def reviewPayload : TaskState where
  status := .running
  pipelineRunId := "run-1"
  taskId := "approve"
  username := "alice"
  pipelineId := "pipe-1"
  serviceName := "legal-review"

def reviewRouted : Routed :=
  routeTask reviewBids { runs := fun _ => none } "approve" reviewPayload

def reviewPass : Pass :=
  firstPass true reviewRouted (fun _ => logicSucceeds) "agent-c"
    reviewPayload

/-- The agents compete for a capability of which the forwarder does not know:
the marker of the winner names the task instead. -/
theorem review_is_not_felt :
    capabilityToResolve reviewBids "approve" reviewPayload =
        some "review" ∧
      reviewRouted.sequence.isSome = true ∧
      reviewPass ∈
        allPasses {} true reviewRouted (fun _ => logicSucceeds) "agent-c"
          reviewPayload 3 {} ∧
      reviewPass.finalState.status = .completed ∧
      reviewPass.credited = some "agent-c" ∧
      0 < plainDeposits.delta ∧
      pheromoneIntensity asListed .empty "alice" "review" "agent-c" < 1 ∧
      ¬ pheromoneIntensity asListed .empty "alice" "review" "agent-c" <
          pheromoneIntensity asListed
            (depositMarker plainDeposits "approve" reviewRouted reviewPass
              .empty)
            "alice" "review" "agent-c" := by
  refine ⟨by decide +kernel, by decide +kernel, ?_, by decide +kernel,
    by decide +kernel, by decide +kernel, by decide +kernel,
    by decide +kernel⟩
  exact List.mem_cons_self

end Agentcy.Forwarder
