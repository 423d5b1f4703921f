import Agentcy.Forwarder.Redispatch
import Agentcy.Forwarder.Resolution

/-!
# Which agent a pass runs, records and credits

The agent of a task is held in several places: in the routed payload, in the
entry point that was loaded for it, in the base state and in the evaluation
sequence.  An inline resolution sets the first two; a re-dispatch changes the
base state and leaves the others as the resolution left them.
-/

namespace Agentcy.Forwarder

open Agentcy.Library
open Agentcy.Runs
open Agentcy.Tracker

/-- The service a task is at: the one in its payload, else its own name. -/
def currentService (toTask : String) (payload : TaskState) : String :=
  if payload.serviceName ≠ "" then payload.serviceName else toTask

/-- The variables `final_payload`, `_cnp_winner_entry` and `_cnp_eval_seq`
when the loop starts. -/
structure Routed where
  stores : Stores
  payload : TaskState
  winnerEntry : Option String := none
  sequence : Option EvaluationSequence := none

def taskToResolve (toTask : String) (payload : TaskState) :
    ResolvedTask where
  taskId := toTask
  username := payload.username
  pipelineId := payload.pipelineId
  pipelineRunId := payload.pipelineRunId

/-- The inline resolution of `forward` when the CNP manager is enabled. -/
def routeTask
    (env : ResolutionEnv) (stores : Stores) (toTask : String)
    (payload : TaskState) : Routed :=
  let current := currentService toTask payload
  let shared :=
    (findSharedCapability env.registry payload.username current).filter
      (· ≠ "")
  match shared with
  | none => { stores := stores, payload := payload }
  | some capability =>
      let resolved :=
        resolveCompetingService env stores
          (taskToResolve toTask payload) capability
      if resolved.service ≠ current then
        { stores := resolved.stores
          payload := { payload with serviceName := resolved.service }
          winnerEntry := loadAgentEntry resolved.service
          sequence := resolved.sequence }
      else
        { stores := resolved.stores
          payload := payload
          sequence := resolved.sequence }

/-- The function that a pass calls: the logic the forwarder was configured
with, or a loaded entry point. -/
inductive Logic where
  | configured
  | entryPoint (path : String)
  deriving DecidableEq

/-- One pass through the loop: the agent whose turn it is, the logic that
runs, the state that comes out and the agent that gets a marker. -/
structure Pass where
  agentId : String
  logic : Logic
  finalState : TaskState
  credited : Option String

def logicOf (winnerEntry : Option String) : Logic :=
  winnerEntry.elim .configured .entryPoint

/-- Agent of the affordance marker that a success deposits, if markers are
enabled and there is a store for them. -/
def creditedAgent
    (depositsMarkers : Bool) (routed : Routed) (attempt : Attempt) :
    Option String :=
  if depositsMarkers ∧ attempt.logic.isSome then
    routed.sequence.map fun sequence =>
      let service := routed.payload.serviceName
      let entry :=
        sequence.candidates.find? fun candidate =>
          candidate.serviceName = some service
      (entry.map Candidate.bidderId).getD service
  else
    none

section Loop

variable (env : TrackerEnv) (depositsMarkers : Bool) (routed : Routed)
  (attempts : Nat → Attempt)

def passOf (count : Nat) (agentId : String) (base : TaskState) : Pass where
  agentId := agentId
  logic := logicOf routed.winnerEntry
  finalState :=
    finalTaskState routed.payload base routed.winnerEntry.isSome
      (attempts count)
  credited := creditedAgent depositsMarkers routed (attempts count)

/-- The passes of `dispatchLoop`, with the agent whose turn it is. -/
def passes :
    Nat → Nat → String → TaskState → TrackerState → Stores → List Pass
  | 0, count, agentId, base, _, _ =>
      [passOf depositsMarkers routed attempts count agentId base]
  | remaining + 1, count, agentId, base, tracker, stores =>
      let attempt := attempts count
      let pass :=
        passOf depositsMarkers routed attempts count agentId base
      let result :=
        onTaskDone env attempt.clock attempt.faults tracker stores
          pass.finalState
      match reforwardInfo? pass.finalState result with
      | some info =>
          pass ::
            passes remaining (count + 1) info.newAgentId
              (retryState routed.payload info attempt) result.tracker
              result.stores
      | none => [pass]

/-- The passes end as the loop ends. -/
theorem passes_last
    (remaining count : Nat) (agentId : String) (base : TaskState)
    (tracker : TrackerState) (stores : Stores) :
    ((passes env depositsMarkers routed attempts remaining count agentId
        base tracker stores).getLast?).map Pass.finalState =
      some (dispatchLoop env routed.payload routed.winnerEntry.isSome
        attempts remaining count base tracker stores).finalState := by
  induction remaining generalizing count agentId base tracker stores with
  | zero =>
      rfl
  | succ remaining inductionHypothesis =>
      rw [passes, dispatchLoop]
      dsimp only [passOf]
      cases reforwardInfo?
          (finalTaskState routed.payload base routed.winnerEntry.isSome
            (attempts count))
          (onTaskDone env (attempts count).clock (attempts count).faults
            tracker stores
            (finalTaskState routed.payload base routed.winnerEntry.isSome
              (attempts count))) with
      | none =>
          rfl
      | some info =>
          obtain ⟨last, ends, same⟩ :=
            Option.map_eq_some_iff.mp
              (inductionHypothesis (count + 1) info.newAgentId
                (retryState routed.payload info (attempts count))
                (onTaskDone env (attempts count).clock
                  (attempts count).faults tracker stores
                  (finalTaskState routed.payload base
                    routed.winnerEntry.isSome (attempts count))).tracker
                (onTaskDone env (attempts count).clock
                  (attempts count).faults tracker stores
                  (finalTaskState routed.payload base
                    routed.winnerEntry.isSome (attempts count))).stores)
          rw [List.getLast?_cons, ends]
          exact congrArg some same

end Loop

/-- The passes of a whole call.  The base state is the payload as it was
before the routing. -/
def allPasses
    (env : TrackerEnv) (depositsMarkers : Bool) (routed : Routed)
    (attempts : Nat → Attempt) (winner : String) (payload : TaskState)
    (maxReforwards : Int) (tracker : TrackerState) : List Pass :=
  passes env depositsMarkers routed attempts maxReforwards.toNat 0 winner
    payload tracker routed.stores

/-- Service of an agent according to the registry. -/
def serviceOf
    (registry : Registry) (username agentId : String) : Option String :=
  (registry username).bind fun agents =>
    (agents.get? agentId).map Agent.serviceName

/-- The function that executes the agent behind `service`: the configured
logic at its own forwarder, its entry point elsewhere. -/
def expectedLogic (current service : String) : Option Logic :=
  if service = current then some .configured
  else (loadAgentEntry service).map .entryPoint

/-- The pass runs the agent whose turn it is, records its service, and
credits no other agent. -/
def Faithful
    (registry : Registry) (username current : String) (pass : Pass) :
    Prop :=
  ∃ service, serviceOf registry username pass.agentId = some service ∧
    expectedLogic current service = some pass.logic ∧
    pass.finalState.serviceName = service ∧
    ∀ credited, pass.credited = some credited → credited = pass.agentId

/-! ## What the resolution hands to the loop -/

/-- The routing in terms of the winner: its service goes into the payload and
its entry point is loaded, unless the task is there already. -/
structure RoutedTo
    (registry : Registry) (toTask : String) (payload : TaskState)
    (routed : Routed) (winner : Candidate) (service : String) : Prop where
  first : ∃ sequence, routed.sequence = some sequence ∧
    sequence.candidates[0]? = some winner
  ofWinner : winner.serviceName = some service
  registered :
    serviceOf registry payload.username winner.bidderId = some service
  routedPayload :
    routed.payload =
      if service = currentService toTask payload then payload
      else { payload with serviceName := service }
  winnerEntry :
    routed.winnerEntry =
      if service = currentService toTask payload then none
      else loadAgentEntry service

theorem serviceOf_of_ranked
    {env : ResolutionEnv} {username capability : String}
    {agents : OrderedMap String Agent}
    (listed : env.registry username = some agents) {entry : Scored}
    (member :
      entry ∈ ranked env (listByCapability agents capability)) :
    serviceOf env.registry username entry.agentId =
      some entry.serviceName := by
  obtain ⟨agent, inListing, sameService⟩ := mem_ranked member
  have found :=
    OrderedMap.get?_of_mem (List.mem_filter.mp inListing).1
  rw [serviceOf, listed, Option.bind_some, found, Option.map_some,
    sameService]

theorem routeTask_routedTo
    {env : ResolutionEnv} {stores : Stores} {toTask : String}
    {payload : TaskState} {sequence : EvaluationSequence}
    (resolved :
      (routeTask env stores toTask payload).sequence = some sequence) :
    ∃ winner service,
      RoutedTo env.registry toTask payload
        (routeTask env stores toTask payload) winner service := by
  unfold routeTask at resolved ⊢
  dsimp only at resolved ⊢
  cases shared :
      (findSharedCapability env.registry payload.username
        (currentService toTask payload)).filter (· ≠ "") with
  | none =>
      simp only [shared] at resolved
      cases resolved
  | some capability =>
      simp only [shared] at resolved ⊢
      have ranks :
          (resolveCompetingService env stores
            (taskToResolve toTask payload) capability).sequence =
              some sequence := by
        split at resolved
        · exact resolved
        · exact resolved
      obtain ⟨agents, top, second, others, listed, order, bids, _⟩ :=
        resolveCompetingService_some ranks
      have isRanked :
          top ∈ ranked env (listByCapability agents capability) := by
        rw [order]
        exact List.mem_cons_self
      have registered := serviceOf_of_ranked listed isRanked
      have service :
          (bid env stores (taskToResolve toTask payload) top
            (top :: second :: others)).service = top.serviceName :=
        rfl
      rw [bids, service]
      refine ⟨candidateOf env top, top.serviceName, ?_⟩
      by_cases stays :
          top.serviceName = currentService toTask payload
      · rw [if_neg (not_not.mpr stays)]
        exact
          ⟨⟨_, rfl, rfl⟩, rfl, registered, (if_pos stays).symm,
            (if_pos stays).symm⟩
      · rw [if_pos stays]
        exact
          ⟨⟨_, rfl, rfl⟩, rfl, registered, (if_neg stays).symm,
            (if_neg stays).symm⟩

namespace RoutedTo

variable {registry : Registry} {toTask : String} {payload : TaskState}
  {routed : Routed} {winner : Candidate} {service : String}

theorem sameTask
    (routes : RoutedTo registry toTask payload routed winner service) :
    SameTask payload routed.payload := by
  rw [routes.routedPayload]
  split
  · exact ⟨rfl, rfl, rfl, rfl, rfl⟩
  · exact ⟨rfl, rfl, rfl, rfl, rfl⟩

theorem winnerEntry_at
    (routes : RoutedTo registry toTask payload routed winner service)
    (stays : currentService toTask payload = service) :
    routed.winnerEntry = none := by
  rw [routes.winnerEntry, if_pos stays.symm]

theorem winnerEntry_elsewhere
    (routes : RoutedTo registry toTask payload routed winner service)
    (moves : currentService toTask payload ≠ service) :
    routed.winnerEntry = loadAgentEntry service := by
  rw [routes.winnerEntry, if_neg (Ne.symm moves)]

/-- A marker goes to the winner as soon as the payload names its service. -/
theorem creditedAgent_eq
    (routes : RoutedTo registry toTask payload routed winner service)
    (named : routed.payload.serviceName = service)
    (depositsMarkers : Bool) (attempt : Attempt) :
    creditedAgent depositsMarkers routed attempt =
      if depositsMarkers ∧ attempt.logic.isSome then
        some winner.bidderId
      else
        none := by
  obtain ⟨sequence, saved, first⟩ := routes.first
  have found :
      (sequence.candidates.find? fun candidate =>
        candidate.serviceName = some service) = some winner := by
    cases candidates : sequence.candidates with
    | nil =>
        rw [candidates] at first
        cases first
    | cons head rest =>
        rw [candidates] at first
        obtain rfl : head = winner := Option.some.inj first
        exact List.find?_cons_of_pos (by simp [routes.ofWinner])
  rw [creditedAgent, saved, Option.map_some, named]
  simp only [found]
  rfl

end RoutedTo

def reforwardTo
    (env : TrackerEnv) (event : TaskState) (target : Candidate × Nat) :
    ReforwardInfo where
  taskId := event.taskId
  newService :=
    (serviceForTask env event.username event.pipelineId
      event.taskId).getD target.1.bidderId
  newAgentId := target.1.bidderId
  sequenceIndex := target.2
  bidScore := target.1.bidScore

theorem reforwardInfo?_onTaskDone
    (env : TrackerEnv) (clock : Clock) (faults : Faults)
    (tracker : TrackerState) (stores : Stores) (event : TaskState) :
    reforwardInfo? event
        (onTaskDone env clock faults tracker stores event) =
      if event.status = .failed ∧
          (landing? clock faults tracker stores event).isSome then
        (reforwardTarget? env stores event).map (reforwardTo env event)
      else
        none := by
  rw [reforwardInfo?]
  by_cases failed : event.status = .failed
  · rw [if_pos failed]
    cases lands : landing? clock faults tracker stores event with
    | none =>
        rw [if_neg (by simp)]
        exact (onTaskDone_of_no_landing env lands).1
    | some admitted =>
        rw [if_pos ⟨failed, rfl⟩, (onTaskDone_of_landing env lands).2.1]
        exact
          closeUpdate_info_of_failed env clock faults stores admitted
            event failed
  · rw [if_neg failed, if_neg fun both => failed both.1]

/-- Whom the task goes to after the first pass, if the cap allows it. -/
def takeover?
    (env : TrackerEnv) (routed : Routed) (attempts : Nat → Attempt)
    (payload : TaskState) (tracker : TrackerState) :
    Option ReforwardInfo :=
  let outcome :=
    finalTaskState routed.payload payload routed.winnerEntry.isSome
      (attempts 0)
  if outcome.status = .failed ∧
      (landing? (attempts 0).clock (attempts 0).faults tracker
        routed.stores outcome).isSome then
    (reforwardTarget? env routed.stores outcome).map
      (reforwardTo env outcome)
  else
    none

section Passes

variable (env : TrackerEnv) (depositsMarkers : Bool) (routed : Routed)
  (attempts : Nat → Attempt)

def firstPass (winner : String) (payload : TaskState) : Pass :=
  passOf depositsMarkers routed attempts 0 winner payload

def secondPass (info : ReforwardInfo) : Pass :=
  passOf depositsMarkers routed attempts 1 info.newAgentId
    (retryState routed.payload info (attempts 0))

theorem passes_of_no_answer
    (remaining count : Nat) (agentId : String) (base : TaskState)
    (tracker : TrackerState) (stores : Stores)
    (stops :
      reforwardInfo?
        (passOf depositsMarkers routed attempts count agentId
          base).finalState
        (onTaskDone env (attempts count).clock (attempts count).faults
          tracker stores
          (passOf depositsMarkers routed attempts count agentId
            base).finalState) = none) :
    passes env depositsMarkers routed attempts remaining count agentId
        base tracker stores =
      [passOf depositsMarkers routed attempts count agentId base] := by
  cases remaining with
  | zero =>
      rfl
  | succ remaining =>
      rw [passes, stops]

/-- At most two passes are made: the first report that lands takes the plan
away that a second re-forward would need. -/
theorem allPasses_eq
    (winner : String) {payload : TaskState} (maxReforwards : Int)
    (tracker : TrackerState) (same : SameTask payload routed.payload) :
    allPasses env depositsMarkers routed attempts winner payload
        maxReforwards tracker =
      firstPass depositsMarkers routed attempts winner payload ::
        match takeover? env routed attempts payload tracker with
        | some info =>
            if 0 < maxReforwards then
              [secondPass depositsMarkers routed attempts info]
            else
              []
        | none => [] := by
  have answer :
      reforwardInfo?
          (firstPass depositsMarkers routed attempts winner
            payload).finalState
          (onTaskDone env (attempts 0).clock (attempts 0).faults tracker
            routed.stores
            (firstPass depositsMarkers routed attempts winner
              payload).finalState) =
        takeover? env routed attempts payload tracker :=
    reforwardInfo?_onTaskDone env _ _ tracker routed.stores _
  cases goesOn : takeover? env routed attempts payload tracker with
  | none =>
      rw [goesOn] at answer
      exact passes_of_no_answer env depositsMarkers routed attempts _ _ _
        _ _ _ answer
  | some info =>
      by_cases capped : 0 < maxReforwards
      · obtain ⟨count, positive⟩ :
            ∃ count, maxReforwards.toNat = count + 1 :=
          ⟨maxReforwards.toNat - 1, by omega⟩
        rw [goesOn] at answer
        rw [firstPass] at answer
        dsimp only
        rw [if_pos capped, allPasses, positive, passes, answer]
        dsimp only
        rw [passes_of_no_answer]
        · rfl
        · apply reforwardInfo?_of_no_target
          unfold takeover? at goesOn
          dsimp only at goesOn
          split at goesOn
          · rename_i landsSome
            obtain ⟨admitted, lands⟩ :=
              Option.isSome_iff_exists.mp landsSome.2
            apply reforwardTarget?_after_landing env lands
            have first :=
              finalTaskState_sameTask same routed.winnerEntry.isSome
                (attempts 0)
            have second :=
              finalTaskState_sameTask
                (retryState_sameTask routed.payload info (attempts 0))
                routed.winnerEntry.isSome (attempts 1)
            exact (second.trans first.symm).runKey
          · cases goesOn
      · have none : maxReforwards.toNat = 0 := by
          omega
        dsimp only
        rw [if_neg capped, allPasses, none]
        rfl

end Passes

/-! ## When a pass is faithful -/

/-- The winner is at the task's own service, or it has an entry point and its
logic succeeds. -/
def FirstFits
    (toTask : String) (payload : TaskState) (service : String)
    (first : Attempt) : Prop :=
  (currentService toTask payload = service ∧
      payload.serviceName = service) ∨
    (currentService toTask payload ≠ service ∧
      (loadAgentEntry service).isSome ∧ first.logic.isSome)

/-- The next agent has the service of the winner; that service is the one
that is recorded, and a marker goes to the winner only if it is the same
agent. -/
def SecondFits
    (registry : Registry) (toTask : String) (payload : TaskState)
    (depositsMarkers : Bool) (winner : Candidate) (service : String)
    (second : Attempt) (info : ReforwardInfo) : Prop :=
  serviceOf registry payload.username info.newAgentId = some service ∧
    (currentService toTask payload ≠ service ∧ second.logic.isSome ∨
      info.newService = service) ∧
    (depositsMarkers ∧ second.logic.isSome →
      info.newAgentId = winner.bidderId)

theorem finalTaskState_serviceName
    (payload base : TaskState) (winnerResolved : Bool)
    (attempt : Attempt) :
    (finalTaskState payload base winnerResolved attempt).serviceName =
      if winnerResolved ∧ attempt.logic.isSome then payload.serviceName
      else base.serviceName := by
  rw [finalTaskState, executedState]
  cases attempt.logic with
  | none =>
      cases attempt.persist with
      | ok _ => simp
      | error _ => simp
  | some _ =>
      cases attempt.persist with
      | ok _ => simp
      | error _ => simp

theorem expectedLogic_configured_iff (current service : String) :
    expectedLogic current service = some .configured ↔
      service = current := by
  unfold expectedLogic
  split
  · rename_i same
    exact ⟨fun _ => same, fun _ => rfl⟩
  · rename_i different
    cases loadAgentEntry service with
    | none => simp [different]
    | some entry => simp [different]

theorem expectedLogic_entryPoint_iff
    (current service entry : String) :
    expectedLogic current service = some (.entryPoint entry) ↔
      service ≠ current ∧ loadAgentEntry service = some entry := by
  unfold expectedLogic
  split
  · rename_i same
    simp [same]
  · rename_i different
    cases loadAgentEntry service with
    | none => simp
    | some found => simp [different]

section Faithful

variable {registry : Registry} {toTask : String} {payload : TaskState}
  {routed : Routed} {winner : Candidate} {service : String}
  {attempts : Nat → Attempt} {depositsMarkers : Bool}

theorem FirstFits.named
    (routes : RoutedTo registry toTask payload routed winner service)
    (fits : FirstFits toTask payload service (attempts 0)) :
    routed.payload.serviceName = service := by
  rw [routes.routedPayload]
  rcases fits with ⟨stays, here⟩ | ⟨moves, _, _⟩
  · rw [if_pos stays.symm]
    exact here
  · rw [if_neg (Ne.symm moves)]

theorem firstPass_faithful_iff
    (routes : RoutedTo registry toTask payload routed winner service) :
    Faithful registry payload.username (currentService toTask payload)
        (firstPass depositsMarkers routed attempts winner.bidderId
          payload) ↔
      FirstFits toTask payload service (attempts 0) := by
  constructor
  · rintro ⟨turn, registered, runs, recorded, _⟩
    have isService : turn = service :=
      Option.some.inj (registered.symm.trans routes.registered)
    subst isService
    rw [firstPass, passOf] at runs recorded
    rw [finalTaskState_serviceName] at recorded
    by_cases stays : currentService toTask payload = turn
    · rw [routes.winnerEntry_at stays] at recorded
      exact Or.inl ⟨stays, by simpa using recorded⟩
    · rw [routes.winnerEntry_elsewhere stays] at runs recorded
      cases entry : loadAgentEntry turn with
      | none =>
          rw [entry] at runs
          have same := (expectedLogic_configured_iff _ _).mp runs
          exact absurd same.symm stays
      | some path =>
          refine Or.inr ⟨stays, by simp [entry], ?_⟩
          by_contra failed
          rw [if_neg fun both => failed both.2] at recorded
          by_cases named : payload.serviceName = ""
          · have unnamed : loadAgentEntry "" = none := by decide
            rw [← recorded, named, unnamed] at entry
            cases entry
          · apply stays
            rw [currentService, if_pos named]
            exact recorded
  · intro fits
    have named := fits.named routes
    refine ⟨service, routes.registered, ?_, ?_, ?_⟩
    · rcases fits with ⟨stays, _⟩ | ⟨moves, loaded, _⟩
      · rw [firstPass, passOf, routes.winnerEntry_at stays]
        exact (expectedLogic_configured_iff _ _).mpr stays.symm
      · obtain ⟨path, entry⟩ := Option.isSome_iff_exists.mp loaded
        rw [firstPass, passOf, routes.winnerEntry_elsewhere moves, entry]
        exact
          (expectedLogic_entryPoint_iff _ _ _).mpr ⟨Ne.symm moves, entry⟩
    · rw [firstPass, passOf, finalTaskState_serviceName, named]
      rcases fits with ⟨_, here⟩ | ⟨moves, loaded, succeeded⟩
      · rw [here]
        exact ite_self _
      · rw [routes.winnerEntry_elsewhere moves]
        exact if_pos ⟨loaded, succeeded⟩
    · intro credited
      rw [firstPass, passOf, routes.creditedAgent_eq named]
      split
      · intro isWinner
        exact (Option.some.inj isWinner).symm
      · intro nothing
        cases nothing

/-- The service of whoever runs the logic of the first pass is the service of
the winner. -/
theorem service_of_logic
    (routes : RoutedTo registry toTask payload routed winner service)
    (fits : FirstFits toTask payload service (attempts 0))
    {other : String}
    (runs :
      expectedLogic (currentService toTask payload) other =
        some (logicOf routed.winnerEntry)) :
    other = service := by
  rcases fits with ⟨stays, _⟩ | ⟨moves, loaded, _⟩
  · rw [routes.winnerEntry_at stays] at runs
    exact ((expectedLogic_configured_iff _ _).mp runs).trans stays
  · obtain ⟨path, entry⟩ := Option.isSome_iff_exists.mp loaded
    rw [routes.winnerEntry_elsewhere moves, entry] at runs
    have sameEntry := (expectedLogic_entryPoint_iff _ _ _).mp runs
    exact loadAgentEntry_inj sameEntry.2 entry

theorem expectedLogic_of_fits
    (routes : RoutedTo registry toTask payload routed winner service)
    (fits : FirstFits toTask payload service (attempts 0)) :
    expectedLogic (currentService toTask payload) service =
      some (logicOf routed.winnerEntry) := by
  rcases fits with ⟨stays, _⟩ | ⟨moves, loaded, _⟩
  · rw [routes.winnerEntry_at stays]
    exact (expectedLogic_configured_iff _ _).mpr stays.symm
  · obtain ⟨path, entry⟩ := Option.isSome_iff_exists.mp loaded
    rw [routes.winnerEntry_elsewhere moves, entry]
    exact (expectedLogic_entryPoint_iff _ _ _).mpr ⟨Ne.symm moves, entry⟩

theorem winnerEntry_isSome_iff
    (routes : RoutedTo registry toTask payload routed winner service)
    (fits : FirstFits toTask payload service (attempts 0)) :
    routed.winnerEntry.isSome ↔
      currentService toTask payload ≠ service := by
  rcases fits with ⟨stays, _⟩ | ⟨moves, loaded, _⟩
  · rw [routes.winnerEntry_at stays]
    simp [stays]
  · rw [routes.winnerEntry_elsewhere moves]
    exact iff_of_true loaded moves

variable (depositsMarkers) in
theorem secondPass_serviceName
    (routes : RoutedTo registry toTask payload routed winner service)
    (fits : FirstFits toTask payload service (attempts 0))
    (info : ReforwardInfo) :
    (secondPass depositsMarkers routed attempts
          info).finalState.serviceName = service ↔
      (currentService toTask payload ≠ service ∧
          (attempts 1).logic.isSome ∨
        info.newService = service) := by
  rw [secondPass, passOf, finalTaskState_serviceName,
    fits.named routes, ← winnerEntry_isSome_iff routes fits]
  split
  · rename_i both
    exact iff_of_true rfl (Or.inl both)
  · rename_i neither
    rw [or_iff_right neither]
    rfl

theorem secondPass_faithful_iff
    (routes : RoutedTo registry toTask payload routed winner service)
    (fits : FirstFits toTask payload service (attempts 0))
    (info : ReforwardInfo) :
    Faithful registry payload.username (currentService toTask payload)
        (secondPass depositsMarkers routed attempts info) ↔
      SecondFits registry toTask payload depositsMarkers winner service
        (attempts 1) info := by
  have recordedIff :=
    secondPass_serviceName depositsMarkers routes fits info
  have credits :
      (secondPass depositsMarkers routed attempts info).credited =
        if depositsMarkers ∧ (attempts 1).logic.isSome then
          some winner.bidderId
        else
          none :=
    routes.creditedAgent_eq (fits.named routes) depositsMarkers
      (attempts 1)
  rw [Faithful, credits]
  constructor
  · rintro ⟨turn, registered, runs, recorded, creditsTurn⟩
    obtain rfl : turn = service := service_of_logic routes fits runs
    refine ⟨registered, recordedIff.mp recorded, ?_⟩
    intro deposits
    rw [if_pos deposits] at creditsTurn
    exact (creditsTurn winner.bidderId rfl).symm
  · rintro ⟨registered, recorded, sameAgent⟩
    refine
      ⟨service, registered, expectedLogic_of_fits routes fits,
        recordedIff.mpr recorded, ?_⟩
    intro credited
    split
    · rename_i deposits
      intro isWinner
      rw [← Option.some.inj isWinner]
      exact (sameAgent deposits).symm
    · intro nothing
      cases nothing

end Faithful

/-- For every inline resolution and every sequence of attempts: each pass runs,
records and credits the agent whose turn it is exactly when the winner is at
the task's own service, or has an entry point and succeeds, and whoever takes
over afterwards has the winner's service. -/
theorem passes_faithful_iff
    (trackerEnv : TrackerEnv) (env : ResolutionEnv) (stores : Stores)
    (toTask : String) (payload : TaskState) (depositsMarkers : Bool)
    (attempts : Nat → Attempt) (maxReforwards : Int)
    (tracker : TrackerState) (sequence : EvaluationSequence)
    (winner : Candidate) (service : String)
    (resolved :
      (routeTask env stores toTask payload).sequence = some sequence)
    (first : sequence.candidates[0]? = some winner)
    (ofWinner : winner.serviceName = some service) :
    (∀ pass ∈ allPasses trackerEnv depositsMarkers
        (routeTask env stores toTask payload) attempts winner.bidderId
        payload maxReforwards tracker,
      Faithful env.registry payload.username
        (currentService toTask payload) pass) ↔
      FirstFits toTask payload service (attempts 0) ∧
        ∀ info,
          takeover? trackerEnv (routeTask env stores toTask payload)
              attempts payload tracker = some info →
            0 < maxReforwards →
              SecondFits env.registry toTask payload depositsMarkers winner
                service (attempts 1) info := by
  have routes :
      RoutedTo env.registry toTask payload
        (routeTask env stores toTask payload) winner service := by
    obtain ⟨top, topService, routesTop⟩ := routeTask_routedTo resolved
    obtain ⟨saved, isSaved, isFirst⟩ := routesTop.first
    obtain rfl : sequence = saved :=
      Option.some.inj (resolved.symm.trans isSaved)
    obtain rfl : winner = top :=
      Option.some.inj (first.symm.trans isFirst)
    obtain rfl : service = topService :=
      Option.some.inj (ofWinner.symm.trans routesTop.ofWinner)
    exact routesTop
  rw [allPasses_eq trackerEnv depositsMarkers _ attempts winner.bidderId
    maxReforwards tracker routes.sameTask, List.forall_mem_cons,
    firstPass_faithful_iff routes]
  refine and_congr_right fun fits => ?_
  cases takeover? trackerEnv (routeTask env stores toTask payload) attempts
      payload tracker with
  | none =>
      simp
  | some info =>
      by_cases capped : 0 < maxReforwards
      · simp only [capped, if_true, List.forall_mem_singleton,
          secondPass_faithful_iff routes fits, Option.some.injEq,
          forall_eq', forall_const]
      · simp [capped]

/-! ## Two agents of one capability -/

def estimatePayload : TaskState where
  status := .running
  pipelineRunId := "run-1"
  taskId := "estimate"
  username := "alice"
  pipelineId := "pipe-1"
  serviceName := "cost-estimator"

/-- The run has a plan whose sequence for the task has the two agents. -/
def plannedStores : Stores where
  runs := fun key =>
    if key = runKey "alice" "pipe-1" "run-1" then
      some
        { run :=
            seedInitialRun "alice" "pipe-1" "run-1"
              { taskDict :=
                  .ofList
                    [("estimate",
                      { availableServices := some "cost-estimator"
                        isFinalTask := true })] }
              none 0
          planId := some "plan-1" }
    else
      none
  sequences := fun key =>
    if key = evalSeqKey "alice" "estimate" "plan-1" then
      some
        { taskId := "estimate"
          pipelineId := "pipe-1"
          planId := "plan-1"
          candidates :=
            [{ bidderId := "agent-a", bidScore := 9 / 10 },
              { bidderId := "agent-b", bidScore := 7 / 10 }] }
    else
      none

def logicSucceeds : Attempt where
  logic := some {}
  clock := ⟨0, 0, 0⟩

def logicFails : Attempt where
  logic := none
  clock := ⟨0, 0, 0⟩

def firstLogicFails (count : Nat) : Attempt :=
  if count = 0 then logicFails else logicSucceeds

/-- The best bidder is the second agent, and its logic succeeds at once. -/
theorem winner_elsewhere_faithful :
    (routeTask (estimatorEnv "agent-b") plannedStores "estimate"
        estimatePayload).winnerEntry.isSome = true ∧
      ∀ pass ∈ allPasses {} true
          (routeTask (estimatorEnv "agent-b") plannedStores "estimate"
            estimatePayload) (fun _ => logicSucceeds) "agent-b"
          estimatePayload 3 {},
        Faithful estimators "alice"
          (currentService "estimate" estimatePayload) pass := by
  refine ⟨by decide +kernel, ?_⟩
  apply
    (passes_faithful_iff {} (estimatorEnv "agent-b") plannedStores "estimate"
      estimatePayload true (fun _ => logicSucceeds) 3 {}
      { taskId := "estimate"
        pipelineId := "pipe-1"
        pipelineRunId := some "run-1"
        planId := "pipe-1"
        candidates :=
          [{ bidderId := "agent-b"
             serviceName := some "speed-estimator"
             bidScore := 9 / 10 },
            { bidderId := "agent-a"
              serviceName := some "cost-estimator"
              bidScore := 7 / 10 }] }
      { bidderId := "agent-b"
        serviceName := some "speed-estimator"
        bidScore := 9 / 10 }
      "speed-estimator" (by decide +kernel) rfl rfl).mpr
  refine ⟨Or.inr ⟨by decide, by decide, rfl⟩, ?_⟩
  intro info goesOn
  have nobody :
      takeover? {}
          (routeTask (estimatorEnv "agent-b") plannedStores "estimate"
            estimatePayload) (fun _ => logicSucceeds) estimatePayload
          {} = none := by
    decide +kernel
  rw [nobody] at goesOn
  cases goesOn

/-- The first agent fails and its turn passes to the second, but the logic of
the first one runs again and gets the marker. -/
theorem first_agent_runs_again :
    ¬ ∀ pass ∈ allPasses {} true
        (routeTask (estimatorEnv "agent-a") plannedStores "estimate"
          estimatePayload) firstLogicFails "agent-a" estimatePayload 3 {},
      Faithful estimators "alice"
        (currentService "estimate" estimatePayload) pass := by
  intro faithful
  have again :
      ((allPasses {} true
          (routeTask (estimatorEnv "agent-a") plannedStores "estimate"
            estimatePayload) firstLogicFails "agent-a" estimatePayload 3
          {})[1]?).map
            (fun pass =>
              (pass.agentId, pass.logic, pass.finalState.serviceName,
                pass.credited)) =
        some
          ("agent-b", .configured, "agent-b", some "agent-a") := by
    decide +kernel
  obtain ⟨pass, atOne, shape⟩ := Option.map_eq_some_iff.mp again
  obtain ⟨_, _, _, _, credits⟩ :=
    faithful pass (List.mem_of_getElem? atOne)
  simp only [Prod.mk.injEq] at shape
  have sameAgent := credits "agent-a" shape.2.2.2
  rw [shape.1] at sameAgent
  revert sameAgent
  decide

end Agentcy.Forwarder
