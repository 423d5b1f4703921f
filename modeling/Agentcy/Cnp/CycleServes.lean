import Agentcy.Cnp.CfpLifecycle
import Agentcy.Cnp.CnpManager
import Agentcy.Cnp.PlanAgreement

/-!
# Whom a cycle serves

The bids of a cycle are stored by the bidder, counted by the cycle manager and
filtered by the graph builder.  The bidder leaves the pipeline and the run of
a bid open, the cycle manager does not look at them, and the graph builder asks
for those of the command.
-/

namespace Agentcy.Cnp

open Agentcy.GraphStore
open Agentcy.Library

/-- The stored bids have ids that were drawn, and different ones. -/
structure BidsOnce (uuid : UuidSource) (store : CnpStore) : Prop where
  drawn : ∀ row ∈ store.bids.entries,
    ∃ index < store.drawn, row.2.bidId = uuid.id index
  once : ∀ first ∈ store.bids.entries, ∀ second ∈ store.bids.entries,
    first.2.bidId = second.2.bidId → first = second

/-- All bids that are not among the initial ones are without a pipeline and a
run. -/
structure GrownFrom
    (uuid : UuidSource) (initial store : CnpStore) : Prop
    extends BidsOnce uuid store where
  added : ∀ row ∈ store.bids.entries,
    row ∈ initial.bids.entries ∨
      row.2.pipelineId = none ∧ row.2.pipelineRunId = none

theorem BidsOnce.grown {uuid : UuidSource} {store : CnpStore}
    (once : BidsOnce uuid store) : GrownFrom uuid store store :=
  ⟨once, fun _ member => Or.inl member⟩

namespace GrownFrom

variable {uuid : UuidSource} {initial store : CnpStore}

/-- Other documents may change, and ids may be drawn. -/
theorem keep
    (grown : GrownFrom uuid initial store) {other : CnpStore}
    (bids : other.bids = store.bids) (later : store.drawn ≤ other.drawn) :
    GrownFrom uuid initial other := by
  constructor
  · constructor
    · intro row member
      rw [bids] at member
      obtain ⟨index, below, isId⟩ := grown.drawn row member
      exact ⟨index, below.trans_le later, isId⟩
    · rw [bids]
      exact grown.once
  · rw [bids]
    exact grown.added

theorem addBid
    (grown : GrownFrom uuid initial store) (username : String)
    {bid : BlueprintBid} (isNext : bid.bidId = uuid.id store.drawn)
    (noPipeline : bid.pipelineId = none)
    (noRun : bid.pipelineRunId = none) :
    GrownFrom uuid initial ((store.drawIds 1).addBid username bid) := by
  have newId : ∀ row ∈ store.bids.entries, row.2.bidId ≠ bid.bidId := by
    intro row member same
    obtain ⟨index, below, isId⟩ := grown.drawn row member
    rw [isId, isNext] at same
    have equal := uuid.id_injective same
    omega
  constructor
  · constructor
    · intro row member
      rcases OrderedMap.mem_entries_set member with rfl | old
      · exact ⟨store.drawn, Nat.lt_succ_self _, isNext⟩
      · obtain ⟨index, below, isId⟩ := grown.drawn row old
        exact ⟨index, Nat.lt_succ_of_lt below, isId⟩
    · intro first isFirst second isSecond same
      rcases OrderedMap.mem_entries_set isFirst with rfl | oldFirst
      · rcases OrderedMap.mem_entries_set isSecond with rfl | oldSecond
        · rfl
        · exact absurd same.symm (newId second oldSecond)
      · rcases OrderedMap.mem_entries_set isSecond with rfl | oldSecond
        · exact absurd same (newId first oldFirst)
        · exact grown.once first oldFirst second oldSecond same
  · intro row member
    rcases OrderedMap.mem_entries_set member with rfl | old
    · exact Or.inr ⟨noPipeline, noRun⟩
    · exact grown.added row old

end GrownFrom

namespace BidderRun

variable {Agent : Type} {uuid : UuidSource} (bidder : BidderRun Agent)
variable {initial store : CnpStore} {spec : TaskSpec}

theorem grown_closeAll
    (grown : GrownFrom uuid initial store) (reason : String)
    (cfps : List CallForProposal) :
    GrownFrom uuid initial (bidder.closeAll reason store cfps) := by
  unfold closeAll
  induction cfps generalizing store with
  | nil =>
      exact grown
  | cons cfp rest inductionHypothesis =>
      rw [List.foldl_cons]
      exact inductionHypothesis (grown.keep rfl le_rfl)

theorem grown_openCfps
    (grown : GrownFrom uuid initial store)
    (pipelineId : Option String) :
    GrownFrom uuid initial
      (bidder.openCfps uuid store spec pipelineId).1 := by
  unfold openCfps
  have closed :=
    bidder.grown_closeAll grown "expired"
      ((bidder.listOpen store spec).filter bidder.isExpired)
  dsimp only
  split
  · exact closed.keep rfl (Nat.le_succ _)
  · exact closed

theorem grown_reopen
    (grown : GrownFrom uuid initial store)
    (pipelineId : Option String) (cfps : List CallForProposal) :
    GrownFrom uuid initial
      (bidder.reopen uuid store spec pipelineId cfps).1 := by
  unfold reopen
  split
  · exact
      bidder.grown_openCfps (bidder.grown_closeAll grown "no_bids" _)
        pipelineId
  · exact grown

theorem grown_storeBid
    (grown : GrownFrom uuid initial store) (cfp : CallForProposal)
    (entries : List (Entry × ℚ)) :
    GrownFrom uuid initial
      (entries.foldl (bidder.storeBid uuid spec cfp) store) := by
  induction entries generalizing store with
  | nil =>
      exact grown
  | cons entry rest inductionHypothesis =>
      rw [List.foldl_cons]
      exact
        inductionHypothesis (grown.addBid bidder.username rfl rfl rfl)

theorem grown_storeBids
    (existing : List BlueprintBid) (scored : List (Entry × ℚ))
    (cfps : List CallForProposal) (stored : CnpStore × Nat)
    (grown : GrownFrom uuid initial stored.1) :
    GrownFrom uuid initial
      (cfps.foldl (bidder.storeBids uuid existing scored spec) stored).1 := by
  induction cfps generalizing stored with
  | nil =>
      exact grown
  | cons cfp rest inductionHypothesis =>
      rw [List.foldl_cons]
      exact
        inductionHypothesis _ (bidder.grown_storeBid grown cfp _)

theorem grown_bidForSpec
    (state : Bidding) (spec : TaskSpec)
    (grown : GrownFrom uuid initial state.store) :
    GrownFrom uuid initial (bidder.bidForSpec uuid state spec).store := by
  unfold bidForSpec
  dsimp only
  apply grown_storeBids
  have opened :=
    @grown_openCfps Agent uuid bidder initial state.store spec grown
      (pipelineFor state.pipelineId spec)
  split
  · exact bidder.grown_reopen opened _ _
  · exact opened

theorem grown_run (grown : GrownFrom uuid initial store) :
    GrownFrom uuid initial (bidder.run uuid store).store :=
  run_invariant_always
    (fun state : Bidding => GrownFrom uuid initial state.store)
    bidder.grown_bidForSpec bidder.specs grown

end BidderRun

namespace Cycle

variable {Agent : Type} {uuid : UuidSource} (cycle : Cycle Agent)
variable {initial : CnpStore}

theorem grown_bidRoundsFrom
    (remaining round : Nat) (soFar : BidRounds)
    (grown : GrownFrom uuid initial soFar.store) :
    GrownFrom uuid initial
      (cycle.bidRoundsFrom uuid remaining round soFar).store := by
  induction remaining generalizing round soFar with
  | zero =>
      exact grown
  | succ remaining inductionHypothesis =>
      have after := (cycle.bidderRun round).grown_run grown
      rw [bidRoundsFrom]
      dsimp only
      split
      · exact after
      · exact inductionHypothesis _ _ after

theorem grown_bidRounds (once : BidsOnce uuid initial) :
    GrownFrom uuid initial (cycle.bidRounds uuid initial).store :=
  cycle.grown_bidRoundsFrom _ _ _ once.grown

end Cycle

/-! ## The award loop -/

theorem awardKey_id
    (uuid : UuidSource) {username other taskId task : String}
    {first second : Nat}
    (same : awardKey username taskId (uuid.id first) =
      awardKey other task (uuid.id second)) :
    first = second := by
  have lists := congrArg String.toList same
  have split :
      ("award::".toList ++ (username.toList ++ ("::".toList ++
          (taskId.toList ++ [':'])))) ++ ':' :: (uuid.id first).toList =
        ("award::".toList ++ (other.toList ++ ("::".toList ++
          (task.toList ++ [':'])))) ++ ':' :: (uuid.id second).toList := by
    simpa [awardKey, MarkerKey.text, MarkerKey.kind,
      MarkerKey.components, MarkerKey.joined] using lists
  exact id_of_suffix uuid split

namespace BuildCall

variable (python : PyBuiltins) (uuid : UuidSource)
variable (call : BuildCall) (store : CnpStore)

/-- A task with a best bid has an award after the loop. -/
theorem awarded_of_best
    {best : OrderedMap String BlueprintBid} {spec : TaskSpec}
    {bid : BlueprintBid} (isBest : best.get? spec.taskId = some bid)
    (specs : List TaskSpec) (isSpec : spec ∈ specs)
    (phase : AwardPhase) :
    (specs.foldl (call.awardSpec uuid best) phase).awards.get?
        spec.taskId ≠ none := by
  induction specs generalizing phase with
  | nil =>
      cases isSpec
  | cons head rest inductionHypothesis =>
      rw [List.foldl_cons]
      rcases List.mem_cons.mp isSpec with rfl | later
      · have here :
            (call.awardSpec uuid best phase spec).awards.get?
              spec.taskId ≠ none := by
          unfold awardSpec
          rw [isBest]
          dsimp only
          split
          · rename_i awarded
            exact Option.isSome_iff_ne_none.mp awarded
          · rw [OrderedMap.get?_set_self]
            exact Option.some_ne_none _
        rcases call.awards_foldl uuid best rest
            (call.awardSpec uuid best phase spec) spec.taskId with
          same | ⟨absent, _⟩
        · rwa [same]
        · exact absurd absent here
      · exact inductionHypothesis later _

/-- The awards of the loop that were not there before are stored. -/
def AwardsStored
    (earlier : OrderedMap String ContractAward) (phase : AwardPhase) :
    Prop :=
  ∀ taskId award, phase.awards.get? taskId = some award →
    earlier.get? taskId = some award ∨
      ∃ index < phase.store.drawn,
        phase.store.awards.get?
            (awardKey call.username taskId (uuid.id index)) =
          some award

theorem awardsStored_awardSpec
    {earlier : OrderedMap String ContractAward}
    (best : OrderedMap String BlueprintBid) (phase : AwardPhase)
    (spec : TaskSpec) (stored : call.AwardsStored uuid earlier phase) :
    call.AwardsStored uuid earlier
      (call.awardSpec uuid best phase spec) := by
  unfold awardSpec
  cases best.get? spec.taskId with
  | none =>
      exact stored
  | some bid =>
      dsimp only
      split
      · exact stored
      · intro taskId award found
        dsimp only at found ⊢
        rw [OrderedMap.get?_set] at found
        by_cases here : taskId = spec.taskId
        · rw [if_pos here] at found
          right
          refine ⟨phase.store.drawn, Nat.lt_add_of_pos_right Nat.two_pos, ?_⟩
          rw [here]
          exact (OrderedMap.get?_set_self _ _ _).trans found
        · rw [if_neg here] at found
          refine (stored taskId award found).imp_right ?_
          rintro ⟨index, below, isStored⟩
          refine ⟨index, below.trans_le (Nat.le_add_right _ _), ?_⟩
          have otherKey :
              awardKey call.username taskId (uuid.id index) ≠
                awardKey call.username spec.taskId
                  (uuid.id phase.store.drawn) :=
            fun same => below.ne (awardKey_id uuid same)
          exact (OrderedMap.get?_set_other _ _ otherKey).trans isStored

theorem awardsStored_awardPhase (registry : Registry) :
    call.AwardsStored uuid (call.earlierAwards store)
      (call.awardPhase uuid store registry) :=
  run_invariant_always (call.AwardsStored uuid (call.earlierAwards store))
    (call.awardsStored_awardSpec uuid (call.bestBids store)) call.specs
    fun _ _ earlier => Or.inl earlier

theorem foldl_closeCfp_awards
    (cfps : List CallForProposal) (closing : CnpStore) :
    (cfps.foldl (call.closeCfp store) closing).awards =
      closing.awards := by
  induction cfps generalizing closing with
  | nil =>
      rfl
  | cons cfp rest inductionHypothesis =>
      rw [List.foldl_cons, inductionHypothesis]
      unfold closeCfp
      split <;> rfl

theorem foldl_saveSequence_awards
    (planId : String) (entries : List (String × List BlueprintBid))
    (saving : CnpStore) :
    (entries.foldl (call.saveSequence planId) saving).awards =
      saving.awards := by
  induction entries generalizing saving with
  | nil =>
      rfl
  | cons entry rest inductionHypothesis =>
      rw [List.foldl_cons, inductionHypothesis]
      unfold saveSequence
      split <;> rfl

theorem storedAwards_buildPlanDraft (registry : Registry) :
    (call.buildPlanDraft python uuid store registry).store.awards =
      (call.awardPhase uuid store registry).store.awards := by
  have saved (planId : String) :=
    call.foldl_saveSequence_awards planId (call.rankedBids store).entries
      (((call.openCfps store).foldl (call.closeCfp store)
        (call.awardPhase uuid store registry).store).drawIds 1)
  have closed :=
    call.foldl_closeCfp_awards store (call.openCfps store)
      (call.awardPhase uuid store registry).store
  unfold buildPlanDraft
  dsimp only
  split
  · exact (saved _).trans closed
  · exact (saved _).trans closed

/-- An award that was not there before is to the best bid, and on a task that
is planned. -/
theorem best_of_newAward
    {registry : Registry} {taskId : String} {award : ContractAward}
    (noAward : (call.earlierAwards store).get? taskId = none)
    (found :
      (call.buildPlanDraft python uuid store registry).awards.get?
          taskId =
        some award) :
    (∃ spec ∈ call.specs, spec.taskId = taskId) ∧
      ∃ bid, (call.bestBids store).get? taskId = some bid ∧
        award.bidId = some bid.bidId ∧ award.bidderId = bid.bidderId := by
  rw [awards_buildPlanDraft] at found
  rcases call.awards_foldl uuid (call.bestBids store) call.specs
      ⟨store, call.earlierAwards store, registry⟩ taskId with
    same | ⟨_, new, ⟨spec, isSpec, bid, _, onTask, isBest, rfl⟩, isNew⟩
  · rw [awardPhase, same, noAward] at found
    cases found
  · rw [awardPhase, isNew] at found
    obtain rfl := Option.some.inj found
    exact ⟨⟨spec, isSpec, onTask⟩, bid, isBest, rfl, rfl⟩

theorem newAward_of_best
    (registry : Registry) {taskId : String} {bid : BlueprintBid}
    (noAward : (call.earlierAwards store).get? taskId = none)
    (isKept : ∃ spec ∈ call.specs, spec.taskId = taskId)
    (isBest : (call.bestBids store).get? taskId = some bid) :
    ∃ award,
      (call.buildPlanDraft python uuid store registry).awards.get?
          taskId =
        some award ∧
      award ∈
        (call.buildPlanDraft python uuid store
          registry).store.awards.values ∧
      award.bidId = some bid.bidId ∧ award.bidderId = bid.bidderId := by
  obtain ⟨spec, isSpec, rfl⟩ := isKept
  have awarded :=
    call.awarded_of_best uuid isBest call.specs isSpec
      ⟨store, call.earlierAwards store, registry⟩
  obtain ⟨award, found⟩ := Option.ne_none_iff_exists'.mp awarded
  have inBuilt :
      (call.buildPlanDraft python uuid store registry).awards.get?
          spec.taskId =
        some award := by
    rw [awards_buildPlanDraft]
    exact found
  obtain ⟨_, best, isBest', sameBid, sameBidder⟩ :=
    call.best_of_newAward python uuid store noAward inBuilt
  rw [isBest] at isBest'
  obtain rfl := Option.some.inj isBest'
  refine ⟨award, inBuilt, ?_, sameBid, sameBidder⟩
  rw [storedAwards_buildPlanDraft]
  rcases call.awardsStored_awardPhase uuid store registry spec.taskId award
      found with
    earlier | ⟨_, _, isStored⟩
  · rw [noAward] at earlier
    cases earlier
  · exact List.mem_map_of_mem (OrderedMap.mem_of_get? isStored)

end BuildCall

/-! ## Eligible bids -/

namespace BuildCall

variable (uuid : UuidSource) (call : BuildCall) (store : CnpStore)

/-- All bids that are listed for the user, whatever their pipeline. -/
def listedBids : List BlueprintBid :=
  store.listBids call.bidOrder call.username none none none

/-- The bid is on a call for proposals that is open, and its score is not
below the minimum. -/
structure Eligible (taskId : String) (bid : BlueprintBid) : Prop where
  listed : bid ∈ call.listedBids store
  onTask : bid.taskId = taskId
  onOpen : ∃ cfpId ∈ call.allowedCfpIds store, bid.cfpId = some cfpId
  scored : call.minScoreOf store bid ≤ bid.bidScore

structure BestEligible (taskId : String) (bid : BlueprintBid) : Prop
    extends call.Eligible store taskId bid where
  best : ∀ other, call.Eligible store taskId other →
    other.bidScore ≤ bid.bidScore

/-- The bid names the pipeline and the run, as far as these are given. -/
def NamesCall (bid : BlueprintBid) : Prop :=
  isWanted (some call.pipelineId) bid.pipelineId = true ∧
    isWanted call.pipelineRunId bid.pipelineRunId = true

theorem mem_bids_iff (bid : BlueprintBid) :
    bid ∈ call.bids store ↔
      bid ∈ call.listedBids store ∧ call.NamesCall bid := by
  unfold bids listedBids NamesCall CnpStore.listBids
  simp [List.mem_filter, isWanted, given]

theorem mem_qualifyingFor_iff
    {taskId : String} (bid : BlueprintBid) :
    bid ∈ call.qualifyingFor store taskId ↔
      bid ∈ call.bids store ∧ call.qualifies store bid = true ∧
        bid.taskId = taskId := by
  unfold qualifyingFor qualifyingBids
  rw [List.mem_filter, List.mem_filter, decide_eq_true_eq, and_assoc]

variable {taskId : String} {bid : BlueprintBid}

theorem qualifies_of_eligible
    (nonempty : taskId ≠ "") (eligible : call.Eligible store taskId bid) :
    call.qualifies store bid = true := by
  obtain ⟨cfpId, allowed, onCall⟩ := eligible.onOpen
  have named : bid.taskId ≠ "" := by
    rw [eligible.onTask]
    exact nonempty
  unfold qualifies
  rw [decide_eq_true named, decide_eq_true eligible.scored, onCall,
    Option.any_some, List.contains_iff_mem.mpr allowed]
  simp

/-- As soon as one call for proposals is open, only bids on open ones are
considered. -/
theorem eligible_of_qualifies
    (someOpen : call.allowedCfpIds store ≠ [])
    (listed : bid ∈ call.bids store)
    (qualified : call.qualifies store bid = true) :
    call.Eligible store bid.taskId bid := by
  unfold qualifies at qualified
  rw [Bool.and_eq_true, Bool.and_eq_true, decide_eq_true_eq,
    decide_eq_true_eq, Bool.or_eq_true, List.isEmpty_iff] at qualified
  obtain ⟨⟨_, onOpen⟩, scored⟩ := qualified
  constructor
  · exact ((call.mem_bids_iff store bid).mp listed).1
  · rfl
  · obtain ⟨cfpId, onCall, allowed⟩ :=
      (Option.any_eq_true _ _).mp (onOpen.resolve_left someOpen)
    exact ⟨cfpId, List.contains_iff_mem.mp allowed, onCall⟩
  · exact scored

/-- If a best eligible bid is considered, the best of the considered bids is
one as well. -/
theorem bestBids_of_bestEligible
    (nonempty : taskId ≠ "")
    (best : call.BestEligible store taskId bid)
    (considered : bid ∈ call.bids store) :
    ∃ chosen, (call.bestBids store).get? taskId = some chosen ∧
      call.BestEligible store taskId chosen := by
  have qualified := call.qualifies_of_eligible store nonempty best.toEligible
  have isCandidate : bid ∈ call.qualifyingFor store taskId :=
    (call.mem_qualifyingFor_iff store bid).mpr
      ⟨considered, qualified, best.onTask⟩
  rw [get?_bestBids]
  cases isChosen :
      firstBest BlueprintBid.bidScore
        (call.qualifyingFor store taskId) with
  | none =>
      rw [(firstBest_eq_none_iff _ _).mp isChosen] at isCandidate
      cases isCandidate
  | some chosen =>
      obtain ⟨member, highest⟩ := firstBest_spec _ isChosen
      obtain ⟨listed, chosenQualifies, onTask⟩ :=
        (call.mem_qualifyingFor_iff store chosen).mp member
      have someOpen : call.allowedCfpIds store ≠ [] := by
        obtain ⟨cfpId, allowed, _⟩ := best.onOpen
        exact List.ne_nil_of_mem allowed
      have eligible :=
        call.eligible_of_qualifies store someOpen listed chosenQualifies
      rw [onTask] at eligible
      refine ⟨chosen, rfl, eligible, ?_⟩
      intro other isEligible
      exact (best.best other isEligible).trans (highest bid isCandidate)

end BuildCall

namespace Cycle

variable {Agent : Type} (python : PyBuiltins) (uuid : UuidSource)
variable (cycle : Cycle Agent) (initial : CnpStore) (registry : Registry)

/-- The store between the rounds and the award phase. -/
def afterRounds : CnpStore :=
  (cycle.bidRounds uuid initial).store

/-- The task has no award yet, and an eligible bid that the cycle stored. -/
def InNeed (taskId : String) : Prop :=
  (cycle.buildCall.earlierAwards (cycle.afterRounds uuid initial)).get?
      taskId = none ∧
    ∃ row ∈ (cycle.afterRounds uuid initial).bids.entries,
      row ∉ initial.bids.entries ∧
        cycle.buildCall.Eligible (cycle.afterRounds uuid initial) taskId
          row.2

/-- There is a new award of the task, it is stored, and it goes to a best
eligible bid. -/
def IsAwarded (taskId : String) : Prop :=
  let built :=
    (cycle.handleRunCnpCycle python uuid initial registry).2
  ∃ award bid,
    built.awards.get? taskId = some award ∧
      award ∈ built.store.awards.values ∧
        cycle.buildCall.BestEligible (cycle.afterRounds uuid initial)
          taskId bid ∧
        award.bidId = some bid.bidId ∧ award.bidderId = bid.bidderId

/-- The award phase considers a bid on the task. -/
def IsConsidered (taskId : String) : Prop :=
  ∃ bid ∈ cycle.buildCall.qualifyingBids (cycle.afterRounds uuid initial),
    bid.taskId = taskId

structure Serves : Prop where
  awards : ∀ spec ∈ cycle.targets, cycle.InNeed uuid initial spec.taskId →
    cycle.IsAwarded python uuid initial registry spec.taskId
  stops :
    (cycle.handleRunCnpCycle python uuid initial registry).1.stoppedEarly =
        true →
      ∀ spec ∈ cycle.targets, cycle.IsConsidered uuid initial spec.taskId

/-- A bid that names the pipeline and the run of the command was there before
the cycle, unless the command names none. -/
def Counts (bid : BlueprintBid) : Prop :=
  (cycle.command.pipelineId = "" ∧
      given cycle.command.pipelineRunId = none) ∨
    bid ∈ initial.bids.values ∧ cycle.buildCall.NamesCall bid

structure BidsCount : Prop where
  awards : ∀ spec ∈ cycle.targets, cycle.InNeed uuid initial spec.taskId →
    spec.taskId ≠ "" ∧
      (∃ kept ∈ cycle.buildCall.specs, kept.taskId = spec.taskId) ∧
        ∃ bid, cycle.Counts initial bid ∧
          cycle.buildCall.BestEligible (cycle.afterRounds uuid initial)
            spec.taskId bid
  stops : (cycle.bidRounds uuid initial).stoppedEarly = true →
    ∀ spec ∈ cycle.targets,
      ∃ bid ∈
          cycle.buildCall.listedBids (cycle.afterRounds uuid initial),
        bid.taskId = spec.taskId ∧
          cycle.buildCall.qualifies (cycle.afterRounds uuid initial) bid =
            true ∧
          cycle.Counts initial bid

section Proofs

variable {python uuid cycle initial registry}

theorem stored_of_listed
    {store : CnpStore} {bid : BlueprintBid}
    (listed : bid ∈ cycle.buildCall.listedBids store) :
    ∃ row ∈ store.bids.entries, row.2 = bid := by
  unfold BuildCall.listedBids CnpStore.listBids at listed
  have arranged := (List.mem_filter.mp listed).1
  obtain ⟨row, isRow, same⟩ :=
    List.mem_map.mp
      ((cycle.buildCall.bidOrder.perm _).mem_iff.mp arranged)
  exact ⟨row, (List.mem_filter.mp isRow).1, same⟩

theorem isWanted_none {wanted : Option String} :
    isWanted wanted none = true ↔ given wanted = none := by
  unfold isWanted
  cases given wanted <;> simp

/-- The bids that the award phase reads. -/
theorem mem_bids_iff_counts
    (once : BidsOnce uuid initial) {bid : BlueprintBid}
    (listed :
      bid ∈ cycle.buildCall.listedBids (cycle.afterRounds uuid initial)) :
    bid ∈ cycle.buildCall.bids (cycle.afterRounds uuid initial) ↔
      cycle.Counts initial bid := by
  rw [BuildCall.mem_bids_iff]
  constructor
  · rintro ⟨_, names⟩
    obtain ⟨row, isRow, rfl⟩ := stored_of_listed listed
    rcases (cycle.grown_bidRounds once).added row isRow with
      old | ⟨noPipeline, noRun⟩
    · exact Or.inr ⟨List.mem_map_of_mem old, names⟩
    · obtain ⟨pipeline, run⟩ := names
      rw [noPipeline, isWanted_none] at pipeline
      rw [noRun, isWanted_none] at run
      left
      refine ⟨?_, run⟩
      by_contra nonempty
      have isGiven :
          given (some cycle.buildCall.pipelineId) =
            some cycle.command.pipelineId :=
        given_some nonempty
      rw [isGiven] at pipeline
      cases pipeline
  · rintro (⟨noPipeline, noRun⟩ | ⟨_, names⟩)
    · refine ⟨listed, ?_, ?_⟩
      · change isWanted (some cycle.command.pipelineId) _ = true
        rw [noPipeline]
        rfl
      · change isWanted cycle.command.pipelineRunId _ = true
        unfold isWanted
        rw [noRun]
    · exact ⟨listed, names⟩

variable {taskId : String}

theorem isAwarded_of_counts
    (once : BidsOnce uuid initial)
    (inNeed : cycle.InNeed uuid initial taskId) (nonempty : taskId ≠ "")
    (isKept : ∃ kept ∈ cycle.buildCall.specs, kept.taskId = taskId)
    {bid : BlueprintBid} (counts : cycle.Counts initial bid)
    (best : cycle.buildCall.BestEligible (cycle.afterRounds uuid initial)
      taskId bid) :
    cycle.IsAwarded python uuid initial registry taskId := by
  obtain ⟨chosen, isChosen, chosenBest⟩ :=
    cycle.buildCall.bestBids_of_bestEligible _ nonempty best
      ((mem_bids_iff_counts once best.listed).mpr counts)
  obtain ⟨award, found, isStored, sameBid, sameBidder⟩ :=
    cycle.buildCall.newAward_of_best python uuid _ registry inNeed.1 isKept
      isChosen
  exact
    ⟨award, chosen, found, isStored, chosenBest, sameBid, sameBidder⟩

theorem counts_of_isAwarded
    (once : BidsOnce uuid initial)
    (inNeed : cycle.InNeed uuid initial taskId)
    (awarded : cycle.IsAwarded python uuid initial registry taskId) :
    taskId ≠ "" ∧
      (∃ kept ∈ cycle.buildCall.specs, kept.taskId = taskId) ∧
        ∃ bid, cycle.Counts initial bid ∧
          cycle.buildCall.BestEligible (cycle.afterRounds uuid initial)
            taskId bid := by
  obtain ⟨award, bid, found, _, best, sameBid, _⟩ := awarded
  obtain ⟨isKept, chosen, isChosen, chosenBid, _⟩ :=
    cycle.buildCall.best_of_newAward python uuid _ inNeed.1 found
  rw [BuildCall.get?_bestBids] at isChosen
  have isCandidate := (firstBest_spec _ isChosen).1
  obtain ⟨considered, qualified, onTask⟩ :=
    (cycle.buildCall.mem_qualifyingFor_iff _ chosen).mp isCandidate
  have listed := ((cycle.buildCall.mem_bids_iff _ chosen).mp considered).1
  -- The ids of bids tell that the award is to the best eligible one.
  have same : chosen = bid := by
    obtain ⟨first, isFirst, rfl⟩ := stored_of_listed listed
    obtain ⟨second, isSecond, rfl⟩ := stored_of_listed best.listed
    have sameId : first.2.bidId = second.2.bidId :=
      Option.some.inj (chosenBid.symm.trans sameBid)
    rw [(cycle.grown_bidRounds once).once first isFirst second isSecond
      sameId]
  subst same
  refine
    ⟨?_, isKept, chosen, (mem_bids_iff_counts once listed).mp considered,
      best⟩
  unfold BuildCall.qualifies at qualified
  rw [Bool.and_eq_true, Bool.and_eq_true, decide_eq_true_eq, onTask]
    at qualified
  exact qualified.1.1

theorem isConsidered_iff (once : BidsOnce uuid initial) :
    cycle.IsConsidered uuid initial taskId ↔
      ∃ bid ∈
          cycle.buildCall.listedBids (cycle.afterRounds uuid initial),
        bid.taskId = taskId ∧
          cycle.buildCall.qualifies (cycle.afterRounds uuid initial) bid =
            true ∧
          cycle.Counts initial bid := by
  constructor
  · rintro ⟨bid, member, onTask⟩
    obtain ⟨considered, qualified⟩ := List.mem_filter.mp member
    have listed := ((cycle.buildCall.mem_bids_iff _ bid).mp considered).1
    exact
      ⟨bid, listed, onTask, qualified,
        (mem_bids_iff_counts once listed).mp considered⟩
  · rintro ⟨bid, listed, onTask, qualified, counts⟩
    have considered := (mem_bids_iff_counts once listed).mpr counts
    exact
      ⟨bid, List.mem_filter.mpr ⟨considered, qualified⟩, onTask⟩

end Proofs

/-- A cycle serves its targets exactly when the bids that it needs for this
were there before and name the pipeline and the run, or when the command names
none: bids of the cycle itself do not name any. -/
theorem serves_iff (once : BidsOnce uuid initial) :
    cycle.Serves python uuid initial registry ↔
      cycle.BidsCount uuid initial := by
  constructor
  · intro serves
    constructor
    · intro spec isTarget inNeed
      exact
        counts_of_isAwarded once inNeed
          (serves.awards spec isTarget inNeed)
    · intro early spec isTarget
      exact (isConsidered_iff once).mp (serves.stops early spec isTarget)
  · intro bidsCount
    constructor
    · intro spec isTarget inNeed
      obtain ⟨nonempty, isKept, bid, counts, best⟩ :=
        bidsCount.awards spec isTarget inNeed
      exact isAwarded_of_counts once inNeed nonempty isKept counts best
    · intro early spec isTarget
      exact
        (isConsidered_iff once).mpr (bidsCount.stops early spec isTarget)

end Cycle

/-! ## A cycle for one task -/

def reviewCycle : Cycle String where
  command := { username := "jane", pipelineId := "pipe-1" }
  env :=
    { specDocs := [{ taskId := "review" }]
      rounds := fun _ =>
        { agents := ["solver"], appraisal := plainAppraisal } }

/-- An open call for two bids, and a bid on it for the pipeline. -/
def reviewStore (bidScore : ℚ) : CnpStore :=
  (((({} : CnpStore).drawIds 1).addCfp "jane" callForReview).addBid "jane"
    (bidOf "fast" (countedIds.id 0) bidScore))

theorem reviewStore_once (bidScore : ℚ) :
    BidsOnce countedIds (reviewStore bidScore) := by
  have onlyRow : ∀ row ∈ (reviewStore bidScore).bids.entries,
      row =
        (bidKey "jane" "review" "fast" (countedIds.id 0),
          bidOf "fast" (countedIds.id 0) bidScore) :=
    fun row member => List.mem_singleton.mp member
  constructor
  · intro row member
    rw [onlyRow row member]
    exact ⟨0, Nat.one_pos, rfl⟩
  · intro first isFirst second isSecond _
    rw [onlyRow first isFirst, onlyRow second isSecond]

theorem earlier_bid_counts :
    reviewCycle.Serves plainPython countedIds (reviewStore (4 / 5))
      .empty := by
  have counts :
      reviewCycle.Counts (reviewStore (4 / 5))
        (bidOf "fast" (countedIds.id 0) (4 / 5)) :=
    Or.inr ⟨List.mem_singleton.mpr rfl, by decide, by decide⟩
  have listed :
      reviewCycle.buildCall.listedBids
          (reviewCycle.afterRounds countedIds (reviewStore (4 / 5))) =
        [bidOf "fast" (countedIds.id 0) (4 / 5),
          { bidOf "solver" (countedIds.id 1) (1 / 2) with
            pipelineId := none
            cnpRound := some 1 }] := by
    decide +kernel
  have first :
      bidOf "fast" (countedIds.id 0) (4 / 5) ∈
        reviewCycle.buildCall.listedBids
          (reviewCycle.afterRounds countedIds (reviewStore (4 / 5))) := by
    rw [listed]
    exact List.mem_cons_self
  refine
    (reviewCycle.serves_iff plainPython countedIds (reviewStore (4 / 5))
      .empty (reviewStore_once (4 / 5))).mpr ⟨?_, ?_⟩
  · intro spec isTarget _
    rw [List.mem_singleton.mp isTarget]
    refine
      ⟨by decide, ⟨{ taskId := "review" }, List.mem_cons_self, rfl⟩, _,
        counts, ⟨first, rfl, ?_, ?_⟩, ?_⟩
    · exact ⟨"cfp-1", by decide +kernel, rfl⟩
    · decide +kernel
    · intro other eligible
      have isOther := eligible.listed
      rw [listed, List.mem_cons, List.mem_singleton] at isOther
      rcases isOther with rfl | rfl
      · exact le_rfl
      · decide +kernel
  · intro _ spec isTarget
    rw [List.mem_singleton.mp isTarget]
    exact ⟨_, first, rfl, by decide +kernel, counts⟩

/-- On an empty store the cycle places an eligible bid and stops, since the
task is covered, but no bid is considered and no award made. -/
theorem own_bids_do_not_count :
    ¬ reviewCycle.Serves plainPython countedIds {} .empty ∧
      reviewCycle.InNeed countedIds {} "review" ∧
      ¬ reviewCycle.IsAwarded plainPython countedIds {} .empty "review" ∧
      (reviewCycle.handleRunCnpCycle plainPython countedIds {}
        .empty).1.stoppedEarly = true ∧
      ¬ reviewCycle.IsConsidered countedIds {} "review" := by
  have stoppedEarly :
      (reviewCycle.handleRunCnpCycle plainPython countedIds {}
        .empty).1.stoppedEarly = true := by
    decide +kernel
  have noBids :
      reviewCycle.buildCall.qualifyingBids
        (reviewCycle.afterRounds countedIds {}) = [] := by
    decide +kernel
  have notConsidered :
      ¬ reviewCycle.IsConsidered countedIds {} "review" := by
    rintro ⟨bid, member, _⟩
    rw [noBids] at member
    cases member
  have noAward :
      (reviewCycle.buildCall.earlierAwards
        (reviewCycle.afterRounds countedIds {})).get? "review" = none := by
    decide +kernel
  have inNeed : reviewCycle.InNeed countedIds {} "review" := by
    refine
      ⟨noAward,
        (bidKey "jane" "review" "solver" (countedIds.id 1),
          { bidOf "solver" (countedIds.id 1) (1 / 2) with
            cfpId := some (countedIds.id 0)
            pipelineId := none
            cnpRound := some 1 }),
        by decide +kernel, List.not_mem_nil, by decide +kernel, rfl,
        ⟨countedIds.id 0, by decide +kernel, rfl⟩, by decide +kernel⟩
  have notAwarded :
      ¬ reviewCycle.IsAwarded plainPython countedIds {} .empty
        "review" := by
    rintro ⟨award, bid, found, _⟩
    obtain ⟨_, chosen, isChosen, _⟩ :=
      reviewCycle.buildCall.best_of_newAward plainPython countedIds _
        noAward found
    unfold BuildCall.bestBids at isChosen
    rw [noBids] at isChosen
    cases isChosen
  refine ⟨?_, inNeed, notAwarded, stoppedEarly, notConsidered⟩
  intro serves
  exact
    notConsidered
      (serves.stops stoppedEarly { taskId := "review" }
        List.mem_cons_self)

end Agentcy.Cnp
