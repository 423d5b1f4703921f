import Agentcy.Cnp.CfpInvariant
import Agentcy.Cnp.CnpUtils
import Agentcy.Pheromones.Intensities

/-!
# The bids of an inline resolution

The score that `score_bid` gives to an agent is blended with how well the
agent fits the task and with its pheromone intensity.  The blended score
becomes the score of a bid, which is only valid, and only stored, between zero
and one.
-/

namespace Agentcy.Forwarder

open Agentcy.Agents
open Agentcy.Cnp
open Agentcy.Library
open Agentcy.Pheromones

/-- What the bidding depends on.  `document` is the registry entry of an
agent, `failurePenalty` what `failure_surface_penalty` makes of its failure
markers. -/
structure BiddingEnv where
  scoring : ScoringEnv
  numbers : PyNumbers
  scoreWeights : ScoreWeights := {}
  trustWeights : TrustWeights := {}
  lmaxDefault : Int := 3
  pheromoneEnabled : Bool := true
  pheromoneWeight : ℚ := 15 / 100
  capWeight : ℚ := 25 / 100
  document : String → Fields
  failurePenalty : String → ℚ := fun _ => 0
  markerQuery : String → MarkerQuery
  spec : TaskSpec
  availableServices : String

/-- The inputs of one agent to the bidding. -/
structure EntryScores where
  agentId : String
  trustScore : ℚ
  costEstimate : ℚ
  load : Int
  maxLoad : Int
  capabilityScore : ℚ
  pheromoneIntensity : ℚ
  failurePenalty : ℚ

section

variable (env : BiddingEnv)

/-- The body of the loop over the candidates. -/
def entryScores (username : String) (markers : Markers) (agentId : String) :
    Except PyError EntryScores := do
  let agent := normalizeAgent env.scoring.python (env.document agentId)
  let state ←
    cnpStateOf env.scoring.python env.numbers env.lmaxDefault agent
  let value ← capabilityValue env.scoring env.numbers agent env.spec
  let capabilityScore ← scoreAgentForTask env.scoring agent env.spec
  return {
    agentId := agentId
    trustScore := trustScore env.trustWeights state
    costEstimate :=
      estimateCost (taskParams env.numbers env.spec).reward value
        state.load state.maxLoad
    load := state.load
    maxLoad := max state.maxLoad 1
    capabilityScore := capabilityScore
    pheromoneIntensity :=
      if env.pheromoneEnabled then
        pheromoneIntensity (env.markerQuery agentId) markers username
          env.availableServices agentId
      else 0
    failurePenalty := env.failurePenalty agentId }

/-- The extremes over the candidates, pulled apart where they coincide. -/
def scoreField (first : EntryScores) (others : List EntryScores) :
    ScoreField :=
  let costs := others.map EntryScores.costEstimate
  let loads := others.map EntryScores.load
  let tmin := costs.foldl min first.costEstimate
  let tmax := costs.foldl max first.costEstimate
  let lmin := loads.foldl min first.load
  let lmax := loads.foldl max first.load
  { tmin := tmin
    tmax := if tmin < tmax then tmax else tmin + 1 / 100
    lmin := lmin
    lmax := if lmin < lmax then lmax else lmax + 1 }

/-- The blended score. -/
def blendedScore (field : ScoreField) (entry : EntryScores) : ℚ :=
  let pheromoneWeight :=
    if env.pheromoneEnabled then env.pheromoneWeight else 0
  let base :=
    scoreBid env.scoreWeights field
      { trust := entry.trustScore
        cost := entry.costEstimate
        load := entry.load
        failurePenaltyScore := some entry.failurePenalty }
  base * (1 - env.capWeight - pheromoneWeight) +
    entry.capabilityScore * env.capWeight +
    entry.pheromoneIntensity * pheromoneWeight

/-- The blended scores of the candidates. -/
def blendedScores
    (username : String) (markers : Markers)
    (agents : List (String × Agent)) :
    Except PyError (List (String × ℚ)) := do
  let entries ← agents.mapM fun agent =>
    entryScores env username markers agent.1
  return match entries with
  | [] => []
  | first :: others =>
      (first :: others).map fun entry =>
        (entry.agentId, blendedScore env (scoreField first others) entry)

end

/-- The store and the ids of the bids that were stored, by bidder. -/
structure Persisted where
  store : CnpStore
  bidIds : OrderedMap String String := .empty

/-- The body of the loop that stores the bids.  A bid whose score is out of
range fails its validation, and its agent stays without one. -/
def persistBid
    (uuid : UuidSource) (task : ResolvedTask) (persisted : Persisted)
    (entry : Scored) : Persisted :=
  if 0 ≤ entry.bidScore ∧ entry.bidScore ≤ 1 then
    let bidId := uuid.id persisted.store.drawn
    { store :=
        (persisted.store.drawIds 1).addBid task.username
          { bidId := bidId
            taskId := task.taskId
            bidderId := entry.agentId
            bidScore := entry.bidScore
            pipelineId := some task.pipelineId
            pipelineRunId := some task.pipelineRunId }
      bidIds := persisted.bidIds.set entry.agentId bidId }
  else persisted

def persistBids
    (uuid : UuidSource) (task : ResolvedTask) (store : CnpStore)
    (scored : List Scored) : Persisted :=
  scored.foldl (persistBid uuid task) { store := store }

/-- The environment of a resolution in which agents have these scores. -/
def scoredEnv
    (base : ResolutionEnv) (scores : List (String × ℚ)) : ResolutionEnv :=
  { base with
    hasGraphStore := true
    bidScore := fun agentId => (scores.lookup agentId).getD 0 }

/-- The bidding of a resolution, with a graph store: the documents of the
contract net after it, and the environment in which the agents are ranked. -/
def bidding
    (env : BiddingEnv) (uuid : UuidSource) (base : ResolutionEnv)
    (markers : Markers) (task : ResolvedTask)
    (agents : List (String × Agent)) (store : CnpStore) :
    Except PyError (CnpStore × ResolutionEnv) := do
  let scores ← blendedScores env task.username markers agents
  let scoring := scoredEnv base scores
  let persisted := persistBids uuid task store (ranked scoring agents)
  return (persisted.store,
    { scoring with bidId := persisted.bidIds.get? })

structure BiddingEnv.Bounded (env : BiddingEnv) : Prop where
  capWeight : 0 ≤ env.capWeight
  pheromoneWeight : 0 ≤ env.pheromoneWeight
  sum : env.capWeight + env.pheromoneWeight ≤ 1

/-- What is left for the first value after the weights of the two others. -/
theorem blend_mem
    {base first second firstWeight secondWeight : ℚ}
    (baseMem : 0 ≤ base ∧ base ≤ 1) (firstMem : 0 ≤ first ∧ first ≤ 1)
    (secondMem : 0 ≤ second ∧ second ≤ 1) (firstShare : 0 ≤ firstWeight)
    (secondShare : 0 ≤ secondWeight)
    (sum : firstWeight + secondWeight ≤ 1) :
    0 ≤ base * (1 - firstWeight - secondWeight) + first * firstWeight +
        second * secondWeight ∧
      base * (1 - firstWeight - secondWeight) + first * firstWeight +
        second * secondWeight ≤ 1 := by
  have baseShare : 0 ≤ 1 - firstWeight - secondWeight := by linarith
  constructor
  · have ofBase := mul_nonneg baseMem.1 baseShare
    have ofFirst := mul_nonneg firstMem.1 firstShare
    have ofSecond := mul_nonneg secondMem.1 secondShare
    linarith
  · have ofBase := mul_le_mul_of_nonneg_right baseMem.2 baseShare
    have ofFirst := mul_le_mul_of_nonneg_right firstMem.2 firstShare
    have ofSecond := mul_le_mul_of_nonneg_right secondMem.2 secondShare
    linarith

theorem entryScores_mem
    {env : BiddingEnv} {username agentId : String} {markers : Markers}
    {entry : EntryScores} (inRange : InRange markers)
    (scores : entryScores env username markers agentId = .ok entry) :
    (0 ≤ entry.capabilityScore ∧ entry.capabilityScore ≤ 1) ∧
      0 ≤ entry.pheromoneIntensity ∧ entry.pheromoneIntensity ≤ 1 := by
  unfold entryScores at scores
  obtain ⟨state, _, scores⟩ := bind_eq_ok.mp scores
  obtain ⟨value, _, scores⟩ := bind_eq_ok.mp scores
  obtain ⟨capabilityScore, fits, scores⟩ := bind_eq_ok.mp scores
  obtain rfl := (pure_eq_ok _ _).mp scores
  refine ⟨scoreAgentForTask_mem fits, ?_⟩
  dsimp only
  split
  · exact inRange.pheromoneIntensity _ _ _ _
  · norm_num

theorem blendedScore_mem
    {env : BiddingEnv} (bounded : env.Bounded) (field : ScoreField)
    {entry : EntryScores}
    (fits : 0 ≤ entry.capabilityScore ∧ entry.capabilityScore ≤ 1)
    (felt : 0 ≤ entry.pheromoneIntensity ∧ entry.pheromoneIntensity ≤ 1) :
    0 ≤ blendedScore env field entry ∧
      blendedScore env field entry ≤ 1 := by
  have base := scoreBid_mem env.scoreWeights field
    { trust := entry.trustScore
      cost := entry.costEstimate
      load := entry.load
      failurePenaltyScore := some entry.failurePenalty }
  unfold blendedScore
  dsimp only
  split
  · exact
      blend_mem base fits felt bounded.capWeight bounded.pheromoneWeight
        bounded.sum
  · have sum : env.capWeight + 0 ≤ 1 := by
      linarith [bounded.sum, bounded.pheromoneWeight]
    exact
      blend_mem base fits felt bounded.capWeight (le_refl 0) sum

theorem blendedScores_mem
    {env : BiddingEnv} (bounded : env.Bounded) {username : String}
    {markers : Markers} (inRange : InRange markers)
    {agents : List (String × Agent)} {scores : List (String × ℚ)}
    (blended : blendedScores env username markers agents = .ok scores)
    {score : String × ℚ} (member : score ∈ scores) :
    0 ≤ score.2 ∧ score.2 ≤ 1 := by
  unfold blendedScores at blended
  obtain ⟨entries, every, blended⟩ := bind_eq_ok.mp blended
  obtain rfl := (pure_eq_ok _ _).mp blended
  cases entries with
  | nil =>
      cases member
  | cons first others =>
      obtain ⟨entry, listed, rfl⟩ := List.mem_map.mp member
      obtain ⟨agent, _, read⟩ := exists_of_mem_mapM every listed
      obtain ⟨fits, felt⟩ := entryScores_mem inRange read
      exact blendedScore_mem bounded _ fits felt

/-! ## What is stored -/

/-- Every bid id that is remembered is that of a stored bid of the agent, with
the score of the agent. -/
def Remembers
    (uuid : UuidSource) (task : ResolvedTask) (score : String → ℚ)
    (persisted : Persisted) : Prop :=
  ∀ agentId bidId, persisted.bidIds.get? agentId = some bidId →
    ∃ index bid, index < persisted.store.drawn ∧
      bidId = uuid.id index ∧
      persisted.store.bids.get?
          (bidKey task.username task.taskId agentId bidId) = some bid ∧
      bid.bidderId = agentId ∧ bid.bidScore = score agentId

section Persisting

variable {uuid : UuidSource} {task : ResolvedTask} {score : String → ℚ}
  {persisted : Persisted} {entry : Scored}

theorem Remembers.persistBid
    (remembers : Remembers uuid task score persisted)
    (own : entry.bidScore = score entry.agentId) :
    Remembers uuid task score (persistBid uuid task persisted entry) := by
  unfold Forwarder.persistBid
  split
  · intro agentId bidId found
    dsimp only at found ⊢
    rw [OrderedMap.get?_set] at found
    split at found
    · rename_i same
      obtain rfl := Option.some.inj found
      subst same
      exact
        ⟨_, _, Nat.lt_succ_self _, rfl, OrderedMap.get?_set_self _ _ _,
          rfl, own⟩
    · obtain ⟨index, bid, drawn, rfl, stored, ofAgent, scores⟩ :=
        remembers agentId bidId found
      refine
        ⟨index, bid, Nat.lt_succ_of_lt drawn, rfl, ?_, ofAgent, scores⟩
      rw [← stored]
      apply OrderedMap.get?_set_other
      intro same
      exact absurd (bidKey_id uuid same) (ne_of_lt drawn)
  · exact remembers

theorem get?_bidIds_persistBid
    (valid : 0 ≤ entry.bidScore ∧ entry.bidScore ≤ 1) (agentId : String) :
    ((persistBid uuid task persisted entry).bidIds.get? agentId).isSome =
      (decide (agentId = entry.agentId) ||
        (persisted.bidIds.get? agentId).isSome) := by
  rw [persistBid, if_pos valid]
  dsimp only
  rw [OrderedMap.get?_set]
  by_cases same : agentId = entry.agentId
  · simp [same]
  · simp [same]

end Persisting

theorem persistBids_remembers
    {uuid : UuidSource} {task : ResolvedTask} {score : String → ℚ}
    {scored : List Scored} (store : CnpStore)
    (own : ∀ entry ∈ scored, entry.bidScore = score entry.agentId) :
    Remembers uuid task score (persistBids uuid task store scored) := by
  unfold persistBids
  apply List.foldlRecOn
  · intro agentId bidId found
    cases found
  · intro persisted remembers entry member
    exact remembers.persistBid (own entry member)

theorem persistBids_all
    {uuid : UuidSource} {task : ResolvedTask}
    {scored : List Scored} (store : CnpStore)
    (valid : ∀ entry ∈ scored,
      0 ≤ entry.bidScore ∧ entry.bidScore ≤ 1)
    {entry : Scored} (member : entry ∈ scored) :
    ((persistBids uuid task store scored).bidIds.get?
      entry.agentId).isSome = true := by
  unfold persistBids
  generalize ({ store := store } : Persisted) = persisted
  have stays (others : List Scored) (persisted : Persisted)
      (valid : ∀ entry ∈ others,
        0 ≤ entry.bidScore ∧ entry.bidScore ≤ 1)
      (has : (persisted.bidIds.get? entry.agentId).isSome = true) :
      ((others.foldl (persistBid uuid task) persisted).bidIds.get?
        entry.agentId).isSome = true := by
    refine
      List.foldlRecOn
        (motive := fun later : Persisted =>
          (later.bidIds.get? entry.agentId).isSome = true)
        others (persistBid uuid task) has ?_
    intro later has other member
    rw [get?_bidIds_persistBid (valid other member), has, Bool.or_true]
  induction scored generalizing persisted with
  | nil =>
      cases member
  | cons first rest inductionHypothesis =>
      have validRest : ∀ entry ∈ rest,
          0 ≤ entry.bidScore ∧ entry.bidScore ≤ 1 :=
        fun other inRest => valid other (List.mem_cons_of_mem _ inRest)
      rcases List.mem_cons.mp member with rfl | inRest
      · apply stays rest _ validRest
        rw [get?_bidIds_persistBid (valid entry List.mem_cons_self)]
        simp
      · exact inductionHypothesis validRest inRest _

theorem lookup_mem
    {scores : List (String × ℚ)} {agentId : String} :
    (scores.lookup agentId).getD 0 = 0 ∨
      (agentId, (scores.lookup agentId).getD 0) ∈ scores := by
  cases found : scores.lookup agentId with
  | none =>
      exact Or.inl rfl
  | some score =>
      obtain ⟨front, back, split, _⟩ := List.lookup_eq_some_iff.mp found
      exact Or.inr (by simp [split])

theorem ranked_bidScore
    {env : ResolutionEnv} {agents : List (String × Agent)}
    {entry : Scored} (member : entry ∈ ranked env agents) :
    entry.bidScore = env.bidScore entry.agentId := by
  obtain ⟨listed, _, rfl⟩ := mem_ranked_iff.mp member
  rfl

/-- Every agent that is ranked has a bid score in the range, and a stored bid
with that score. -/
theorem bidding_bids
    {env : BiddingEnv} (bounded : env.Bounded) {uuid : UuidSource}
    {base ranking : ResolutionEnv} {markers : Markers}
    (inRange : InRange markers) {task : ResolvedTask}
    {agents : List (String × Agent)} {store later : CnpStore}
    (bids :
      bidding env uuid base markers task agents store =
        .ok (later, ranking))
    {agent : String × Agent} (member : agent ∈ agents) :
    (0 ≤ ranking.bidScore agent.1 ∧ ranking.bidScore agent.1 ≤ 1) ∧
      ∃ bidId bid, ranking.bidId agent.1 = some bidId ∧
        later.bids.get?
            (bidKey task.username task.taskId agent.1 bidId) =
          some bid ∧
        bid.bidderId = agent.1 ∧
        bid.bidScore = ranking.bidScore agent.1 := by
  unfold bidding at bids
  obtain ⟨scores, blended, bids⟩ := bind_eq_ok.mp bids
  have pair := (pure_eq_ok _ _).mp bids
  obtain rfl := congrArg Prod.fst pair
  obtain rfl := congrArg Prod.snd pair
  dsimp only
  have valid (agentId : String) :
      0 ≤ (scores.lookup agentId).getD 0 ∧
        (scores.lookup agentId).getD 0 ≤ 1 := by
    rcases @lookup_mem scores agentId with none | found
    · rw [none]
      norm_num
    · exact blendedScores_mem bounded inRange blended found
  refine ⟨valid agent.1, ?_⟩
  have own : ∀ entry ∈ ranked (scoredEnv base scores) agents,
      entry.bidScore = (scoredEnv base scores).bidScore entry.agentId :=
    fun _ => ranked_bidScore
  have validBids : ∀ entry ∈ ranked (scoredEnv base scores) agents,
      0 ≤ entry.bidScore ∧ entry.bidScore ≤ 1 := by
    intro entry isRanked
    rw [own entry isRanked]
    exact valid entry.agentId
  have remembered :=
    @persistBids_all uuid task _ store validBids _
      (mem_ranked_of_mem _ member)
  obtain ⟨bidId, found⟩ := Option.isSome_iff_exists.mp remembered
  obtain ⟨_, bid, _, _, stored, ofAgent, score⟩ :=
    persistBids_remembers store own _ _ found
  exact ⟨bidId, bid, found, stored, ofAgent, score⟩

/-- For every sequence of writes the intensities are in their range, and with
them every blended score is; so no bid fails its validation, and every
candidate of the saved sequence has the id of its bid. -/
theorem intensities_and_bids_in_range
    (writes : List Write) (bounded : ∀ write ∈ writes, write.Bounded) :
    (∀ entry ∈ (run Write.apply .empty writes).entries,
      0 ≤ entry.2.intensity ∧ entry.2.intensity ≤ 1) ∧
    ∀ (env : BiddingEnv) (uuid : UuidSource) (base ranking : ResolutionEnv)
      (task : ResolvedTask) (agents : OrderedMap String Agent)
      (store later : CnpStore) (stores : Runs.Stores)
      (sequence : Runs.EvaluationSequence),
      env.Bounded →
      base.registry task.username = some agents →
      bidding env uuid base (run Write.apply .empty writes) task
          (listByCapability agents env.availableServices) store =
        .ok (later, ranking) →
      (resolveCompetingService ranking stores task
          env.availableServices).sequence = some sequence →
      (∀ scores,
        blendedScores env task.username (run Write.apply .empty writes)
            (listByCapability agents env.availableServices) =
          .ok scores →
        ∀ score ∈ scores, 0 ≤ score.2 ∧ score.2 ≤ 1) ∧
      ∀ candidate ∈ sequence.candidates, ∃ bidId bid,
        candidate.bidId = some bidId ∧
        later.bids.get?
            (bidKey task.username task.taskId candidate.bidderId bidId) =
          some bid ∧
        bid.bidderId = candidate.bidderId ∧
        bid.bidScore = ranking.bidScore candidate.bidderId := by
  have inRange := inRange_run bounded
  refine ⟨inRange, ?_⟩
  intro env uuid base ranking task agents store later stores sequence
    weights registered bids resolved
  refine
    ⟨fun scores blended score => blendedScores_mem weights inRange blended,
      ?_⟩
  intro candidate member
  obtain ⟨listing, winner, second, others, listed, order, _, saved⟩ :=
    resolveCompetingService_some resolved
  have sameRegistry : ranking.registry = base.registry := by
    unfold bidding at bids
    obtain ⟨scores, _, bids⟩ := bind_eq_ok.mp bids
    obtain rfl := congrArg Prod.snd ((pure_eq_ok _ _).mp bids)
    rfl
  obtain rfl : agents = listing :=
    Option.some.inj
      (registered.symm.trans ((congrFun sameRegistry _).symm.trans listed))
  rw [saved, ← order] at member
  obtain ⟨entry, isRanked, rfl⟩ := List.mem_map.mp member
  obtain ⟨agent, inAgents, rfl⟩ := mem_ranked_iff.mp isRanked
  exact (bidding_bids weights inRange bids inAgents).2

/-! ## Feedback beyond the range -/

/-- One entry claims an intensity of seven and a success, one of minus three;
then the markers decay. -/
def wildWrites : List Write :=
  let engine : EngineEnv :=
    { python := plainPython, toFloat := number?, order := .asStored }
  [.engine "alice" engine .empty
      [([("task_id", .str "estimate"), ("agent_id", .str "agent-a"),
          ("intensity", .int 7), ("success", .bool true),
          ("capability", .str "deal_estimation")], "m-1"),
        ([("task_id", .str "estimate"), ("agent_id", .str "agent-b"),
          ("intensity", .int (-3)),
          ("capability", .str "deal_estimation")], "m-2")],
    .engine "alice" engine .empty []]

def twoEstimators : OrderedMap String Agent :=
  .ofList
    [("agent-a",
        { serviceName := "cost-estimator"
          capabilities := ["deal_estimation"] }),
      ("agent-b",
        { serviceName := "speed-estimator"
          capabilities := ["deal_estimation"] })]

def estimateBidding : BiddingEnv where
  scoring := { python := plainPython }
  numbers :=
    { toFloat := number?
      toInt := fun value =>
        match value with
        | .int number => some number
        | _ => none }
  document agentId :=
    [("agent_id", .str agentId), ("status", .str "idle"),
      ("capabilities", .list [.str "deal_estimation"])]
  markerQuery _ := asListed
  spec :=
    { taskId := "estimate"
      requiredCapabilities := ["deal_estimation"] }
  availableServices := "deal_estimation"

def estimateBase : ResolutionEnv where
  registry username := if username = "alice" then some twoEstimators else none
  bidScore _ := 0

def rankedEstimate : ResolvedTask :=
  { taskId := "estimate"
    username := "alice"
    pipelineId := "pipe-1"
    pipelineRunId := "run-1" }

theorem wild_feedback_stays_in_range :
    (∀ entry ∈ (run Write.apply .empty wildWrites).entries,
      0 ≤ entry.2.intensity ∧ entry.2.intensity ≤ 1) ∧
    ∃ later ranking sequence,
      bidding estimateBidding countedIds estimateBase
          (run Write.apply .empty wildWrites) rankedEstimate
          (listByCapability twoEstimators "deal_estimation") {} =
        .ok (later, ranking) ∧
      (resolveCompetingService ranking { runs := fun _ => none }
          rankedEstimate "deal_estimation").sequence = some sequence ∧
      ∀ candidate ∈ sequence.candidates,
        ∃ bidId, candidate.bidId = some bidId := by
  have bounded : ∀ write ∈ wildWrites, write.Bounded := by
    have engine :
        EngineEnv.Bounded
          { python := plainPython, toFloat := number?
            order := .asStored } := by
      constructor <;> norm_num
    intro write member
    simp only [wildWrites, List.mem_cons, List.not_mem_nil, or_false]
      at member
    rcases member with rfl | rfl
    · exact engine
    · exact engine
  obtain ⟨inRange, everyBid⟩ :=
    intensities_and_bids_in_range wildWrites bounded
  refine ⟨inRange, ?_⟩
  have works :
      (bidding estimateBidding countedIds estimateBase
          (run Write.apply .empty wildWrites) rankedEstimate
          (listByCapability twoEstimators "deal_estimation")
          {}).toOption.any (fun outcome =>
        (resolveCompetingService outcome.2 { runs := fun _ => none }
          rankedEstimate "deal_estimation").sequence.isSome) = true := by
    decide +kernel
  obtain ⟨⟨later, ranking⟩, found, resolves⟩ :=
    (Option.any_eq_true _ _).mp works
  have bids := toOption_eq_some.mp found
  obtain ⟨sequence, resolved⟩ := Option.isSome_iff_exists.mp resolves
  refine ⟨later, ranking, sequence, bids, resolved, ?_⟩
  have weights : estimateBidding.Bounded := by
    constructor <;> norm_num [estimateBidding]
  intro candidate member
  obtain ⟨bidId, _, remembered, _⟩ :=
    (everyBid estimateBidding countedIds estimateBase ranking rankedEstimate
      twoEstimators {} later _ sequence weights rfl bids
      resolved).2 candidate member
  exact ⟨bidId, remembered⟩

end Agentcy.Forwarder
