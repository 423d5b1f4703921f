import Agentcy.Cnp.GraphBuilder

/-!
# Plan, awards and evaluation sequences

The graph builder writes one decision three times: as an award, as the agent
of a task in the plan, and as the candidate at the cursor of an evaluation
sequence.  The latter two follow the best bid, and an award follows it only if
there was no award before.
-/

namespace Agentcy.Cnp

open Agentcy.Library
open Agentcy.Runs (Candidate EvaluationSequence)

namespace BuildCall

variable (python : PyBuiltins) (uuid : UuidSource)
variable (call : BuildCall) (store : CnpStore)

def qualifyingFor (taskId : String) : List BlueprintBid :=
  (call.qualifyingBids store).filter fun bid =>
    decide (bid.taskId = taskId)

theorem get?_bestBids (taskId : String) :
    (call.bestBids store).get? taskId =
      firstBest BlueprintBid.bidScore (call.qualifyingFor store taskId) :=
  get?_bestByKey _ _ _ taskId

theorem ranked_of_get?_rankedBids
    {taskId : String} {candidates : List BlueprintBid}
    (found : (call.rankedBids store).get? taskId = some candidates) :
    candidates =
      ranked BlueprintBid.bidScore (call.qualifyingFor store taskId) := by
  unfold rankedBids at found
  rw [OrderedMap.get?_mapValues, Option.map_eq_some_iff] at found
  obtain ⟨gathered, isGathered, rfl⟩ := found
  have same :=
    OrderedMap.getD_gather
      ((call.qualifyingBids store).map fun bid => (bid.taskId, bid)) taskId
  rw [isGathered, Option.getD_some] at same
  rw [same, List.filter_map, List.map_map]
  congr 1
  exact List.map_id _

/-- The first of the ranking is the best bid. -/
theorem head?_of_get?_rankedBids
    {taskId : String} {candidates : List BlueprintBid}
    (found : (call.rankedBids store).get? taskId = some candidates) :
    candidates.head? = (call.bestBids store).get? taskId := by
  rw [call.ranked_of_get?_rankedBids store found, head?_ranked,
    get?_bestBids]

/-- The award is one of the loop, of a spec and to the best bid on it. -/
def NewAward
    (best : OrderedMap String BlueprintBid) (specs : List TaskSpec)
    (taskId : String) (award : ContractAward) : Prop :=
  ∃ spec ∈ specs, ∃ bid awardId,
    spec.taskId = taskId ∧ best.get? taskId = some bid ∧
      award = call.awardOf awardId spec bid

theorem awards_awardSpec
    (best : OrderedMap String BlueprintBid) (phase : AwardPhase)
    (spec : TaskSpec) (taskId : String) :
    (call.awardSpec uuid best phase spec).awards.get? taskId =
        phase.awards.get? taskId ∨
      phase.awards.get? taskId = none ∧
        ∃ award, call.NewAward best [spec] taskId award ∧
          (call.awardSpec uuid best phase spec).awards.get? taskId =
            some award := by
  unfold awardSpec
  cases isBest : best.get? spec.taskId with
  | none =>
      exact Or.inl rfl
  | some bid =>
      dsimp only
      by_cases awarded : phase.awards.contains spec.taskId = true
      · rw [if_pos awarded]
        exact Or.inl rfl
      · rw [if_neg awarded]
        by_cases here : taskId = spec.taskId
        · subst here
          right
          rw [Bool.not_eq_true, OrderedMap.contains,
            Option.isSome_eq_false_iff, Option.isNone_iff_eq_none]
            at awarded
          exact
            ⟨awarded, _,
              ⟨spec, List.mem_cons_self, bid, _, rfl, isBest, rfl⟩,
              OrderedMap.get?_set_self _ _ _⟩
        · exact Or.inl (OrderedMap.get?_set_other _ _ here)

theorem awards_foldl
    (best : OrderedMap String BlueprintBid) (specs : List TaskSpec)
    (phase : AwardPhase) (taskId : String) :
    (specs.foldl (call.awardSpec uuid best) phase).awards.get? taskId =
        phase.awards.get? taskId ∨
      phase.awards.get? taskId = none ∧
        ∃ award, call.NewAward best specs taskId award ∧
          (specs.foldl (call.awardSpec uuid best) phase).awards.get?
              taskId =
            some award := by
  induction specs generalizing phase with
  | nil =>
      exact Or.inl rfl
  | cons spec rest inductionHypothesis =>
      rw [List.foldl_cons]
      have later :=
        inductionHypothesis (call.awardSpec uuid best phase spec)
      rcases call.awards_awardSpec uuid best phase spec taskId with
        same | ⟨absent, award, ⟨_, isSpec, bid, id, isNew⟩, new⟩
      · rw [same] at later
        refine later.imp_right ?_
        rintro ⟨absent, award, ⟨other, member, isNew⟩, found⟩
        exact
          ⟨absent, award, ⟨other, List.mem_cons_of_mem _ member, isNew⟩,
            found⟩
      · right
        rw [List.mem_singleton.mp isSpec] at isNew
        refine
          ⟨absent, award, ⟨spec, List.mem_cons_self, bid, id, isNew⟩, ?_⟩
        rcases later with kept | ⟨stillAbsent, _⟩
        · rw [kept, new]
        · rw [new] at stillAbsent
          cases stillAbsent

theorem foldl_awardSpec_sequences
    (best : OrderedMap String BlueprintBid) (specs : List TaskSpec)
    (phase : AwardPhase) :
    (specs.foldl (call.awardSpec uuid best) phase).store.sequences =
      phase.store.sequences := by
  induction specs generalizing phase with
  | nil =>
      rfl
  | cons spec rest inductionHypothesis =>
      rw [List.foldl_cons, inductionHypothesis]
      unfold awardSpec
      cases best.get? spec.taskId with
      | none =>
          rfl
      | some bid =>
          dsimp only
          split <;> rfl

theorem foldl_closeCfp_sequences
    (cfps : List CallForProposal) (closing : CnpStore) :
    (cfps.foldl (call.closeCfp store) closing).sequences =
      closing.sequences := by
  induction cfps generalizing closing with
  | nil =>
      rfl
  | cons cfp rest inductionHypothesis =>
      rw [List.foldl_cons, inductionHypothesis]
      unfold closeCfp
      split <;> rfl

theorem sequenceKey_inj
    {username planId first second : String}
    (same : sequenceKey username first planId =
      sequenceKey username second planId) :
    first = second := by
  have lists := congrArg String.toList same
  simp only [sequenceKey, GraphStore.MarkerKey.text,
    GraphStore.MarkerKey.kind, GraphStore.MarkerKey.components,
    GraphStore.MarkerKey.joined, String.toList_append,
    List.append_assoc, List.append_cancel_left_eq,
    List.append_cancel_right_eq] at lists
  exact String.ext lists

theorem saved_or_before
    (planId : String) (entries : List (String × List BlueprintBid))
    (saving : CnpStore) {key : String} {sequence : EvaluationSequence}
    (found :
      (entries.foldl (call.saveSequence planId) saving).sequences.get?
          key =
        some sequence) :
    saving.sequences.get? key = some sequence ∨
      ∃ entry ∈ entries, 1 < entry.2.length ∧
        key = sequenceKey call.username entry.1 planId ∧
          sequence = call.sequenceOf planId entry.1 entry.2 := by
  induction entries generalizing saving with
  | nil =>
      exact Or.inl found
  | cons entry rest inductionHypothesis =>
      rw [List.foldl_cons] at found
      rcases inductionHypothesis _ found with before | later
      · unfold saveSequence at before
        by_cases several : 1 < entry.2.length
        · rw [if_pos several] at before
          change
            (saving.sequences.set
              (sequenceKey call.username entry.1 planId)
              (call.sequenceOf planId entry.1 entry.2)).get? key =
                some sequence at before
          rw [OrderedMap.get?_set] at before
          by_cases here :
              key = sequenceKey call.username entry.1 planId
          · rw [if_pos here] at before
            exact
              Or.inr ⟨entry, List.mem_cons_self, several, here,
                (Option.some.inj before).symm⟩
          · rw [if_neg here] at before
            exact Or.inl before
        · rw [if_neg several] at before
          exact Or.inl before
      · obtain ⟨other, member, same⟩ := later
        exact Or.inr ⟨other, List.mem_cons_of_mem _ member, same⟩

end BuildCall

/-! ## Agreement -/

/-- A task of the stored draft that has an award is assigned to the bidder of
the award, and so is the cursor of its evaluation sequence. -/
structure PlanAgrees
    (username : String) (built : BuildCall.Built) : Prop where
  plan : ∀ draft, built.draft = some draft →
    ∀ task ∈ draft.graphSpec.tasks,
      ∀ award, built.awards.get? task.taskId = some award →
        task.assignedAgent = some award.bidderId
  sequence : ∀ draft, built.draft = some draft →
    ∀ task ∈ draft.graphSpec.tasks,
      ∀ award, built.awards.get? task.taskId = some award →
        ∀ sequence,
          built.store.sequences.get?
              (sequenceKey username task.taskId draft.planId) =
            some sequence →
            (sequence.candidates[sequence.currentIndex]?).map
                Candidate.bidderId =
              some award.bidderId

namespace BuildCall

variable (python : PyBuiltins) (uuid : UuidSource)
variable (call : BuildCall) (store : CnpStore) (registry : Registry)

/-- The dependencies of all specs can be read. -/
def Readable : Prop :=
  ∃ edges, call.specs.mapM edgesOf = .ok edges

/-- An earlier award is to the best of the qualifying bids on its task, or,
where there are none, to the service that the run document records. -/
def FitsBids (award : ContractAward) (taskId : String) : Prop :=
  match firstBest BlueprintBid.bidScore
      (call.qualifyingFor store taskId) with
  | some bid => bid.bidderId = award.bidderId
  | none => call.runService taskId = some award.bidderId

theorem fitsBids_iff (award : ContractAward) (taskId : String) :
    call.FitsBids store award taskId ↔
      call.assignedAgent store taskId = some award.bidderId := by
  unfold FitsBids assignedAgent
  rw [get?_bestBids]
  cases firstBest BlueprintBid.bidScore
      (call.qualifyingFor store taskId) with
  | none =>
      rfl
  | some bid =>
      exact Option.some_inj.symm

theorem draft_of_readable
    (readable : call.Readable) :
    ∃ draft,
      (call.buildPlanDraft python uuid store registry).draft =
        some draft := by
  obtain ⟨edges, read⟩ := readable
  unfold buildPlanDraft graphSpec
  rw [read]
  exact ⟨_, rfl⟩

/-- What the tasks of a draft and the stored sequences are. -/
structure DraftOf (built : Built) (draft : PlanDraft) : Prop where
  readable : call.Readable
  tasks : draft.graphSpec.tasks =
    call.specs.map (call.planTask python store built.awards)
  planId : draft.planId = built.planId
  stored :
    built.store.drafts.get?
        ((GraphStore.MarkerKey.plan draft.planId).text call.username) =
      some draft

theorem draftOf_buildPlanDraft
    {draft : PlanDraft}
    (made : (call.buildPlanDraft python uuid store registry).draft =
      some draft) :
    call.DraftOf python store
      (call.buildPlanDraft python uuid store registry) draft := by
  revert made
  unfold buildPlanDraft
  dsimp only
  cases readGraph :
      (call.graphSpec python store
        (call.awardPhase uuid store registry).awards).toOption with
  | none =>
      intro made
      cases made
  | some graph =>
      intro made
      obtain rfl := Option.some.inj made
      rw [toOption_eq_some] at readGraph
      unfold graphSpec at readGraph
      rw [bind_eq_ok] at readGraph
      obtain ⟨edges, read, isGraph⟩ := readGraph
      rw [pure_eq_ok] at isGraph
      subst isGraph
      exact
        ⟨⟨edges, read⟩, rfl, rfl, OrderedMap.get?_set_self _ _ _⟩

theorem awards_buildPlanDraft :
    (call.buildPlanDraft python uuid store registry).awards =
      (call.awardPhase uuid store registry).awards := by
  unfold buildPlanDraft
  dsimp only
  split <;> rfl

theorem sequences_buildPlanDraft :
    (call.buildPlanDraft python uuid store registry).store.sequences =
      ((call.rankedBids store).entries.foldl
        (call.saveSequence
          (call.buildPlanDraft python uuid store registry).planId)
        (((call.openCfps store).foldl (call.closeCfp store)
          (call.awardPhase uuid store registry).store).drawIds
            1)).sequences := by
  unfold buildPlanDraft
  dsimp only
  split <;> rfl

/-- What is stored as the sequence of a task for the new plan. -/
theorem sequence_of_stored
    (fresh : ∀ taskId,
      store.sequences.get?
          (sequenceKey call.username taskId
            (call.buildPlanDraft python uuid store registry).planId) =
        none)
    {taskId : String} {sequence : EvaluationSequence}
    (stored :
      (call.buildPlanDraft python uuid store
          registry).store.sequences.get?
          (sequenceKey call.username taskId
            (call.buildPlanDraft python uuid store registry).planId) =
        some sequence) :
    ∃ bid, (call.bestBids store).get? taskId = some bid ∧
      (sequence.candidates[sequence.currentIndex]?).map
          Candidate.bidderId =
        some bid.bidderId := by
  rw [sequences_buildPlanDraft] at stored
  rcases call.saved_or_before _ _ _ stored with before | saved
  · change
      ((call.openCfps store).foldl (call.closeCfp store)
        (call.awardPhase uuid store registry).store).sequences.get? _ =
          some sequence at before
    rw [foldl_closeCfp_sequences, awardPhase, foldl_awardSpec_sequences,
      fresh taskId] at before
    cases before
  · obtain ⟨⟨task, candidates⟩, member, several, sameKey, rfl⟩ := saved
    obtain rfl := sequenceKey_inj sameKey
    have first :=
      call.head?_of_get?_rankedBids store
        (OrderedMap.get?_of_mem member)
    dsimp only at several first
    cases candidates with
    | nil =>
        cases several
    | cons bid others =>
        exact ⟨bid, first.symm, rfl⟩

/-- The earlier awards of the tasks that are planned fit the bids that the
plan is made of. -/
def EarlierAwardsFit : Prop :=
  call.Readable →
    ∀ spec ∈ call.specs, ∀ award,
      (call.earlierAwards store).get? spec.taskId = some award →
        call.FitsBids store award spec.taskId

theorem assigned_of_award
    {taskId : String} {award : ContractAward}
    (fits : (call.earlierAwards store).get? taskId = some award →
      call.FitsBids store award taskId)
    (awarded : (call.awardPhase uuid store registry).awards.get? taskId =
      some award) :
    call.assignedAgent store taskId = some award.bidderId := by
  rcases call.awards_foldl uuid (call.bestBids store) call.specs
      ⟨store, call.earlierAwards store, registry⟩ taskId with
    earlier | ⟨_, new, ⟨spec, _, bid, id, _, isBest, rfl⟩, isNew⟩
  · rw [awardPhase, earlier] at awarded
    exact (call.fitsBids_iff store award taskId).mp (fits awarded)
  · rw [awardPhase, isNew] at awarded
    obtain rfl := Option.some.inj awarded
    unfold assignedAgent
    rw [isBest]
    rfl

theorem earlierAwardsFit_of_planAgrees
    (agrees : PlanAgrees call.username
      (call.buildPlanDraft python uuid store registry)) :
    call.EarlierAwardsFit store := by
  intro readable spec isSpec award earlier
  obtain ⟨draft, made⟩ :=
    call.draft_of_readable python uuid store registry readable
  have draftOf :=
    call.draftOf_buildPlanDraft python uuid store registry made
  have isTask :
      call.planTask python store
          (call.buildPlanDraft python uuid store registry).awards spec ∈
        draft.graphSpec.tasks := by
    rw [draftOf.tasks]
    exact List.mem_map_of_mem isSpec
  rw [fitsBids_iff]
  apply agrees.plan draft made _ isTask award
  rw [awards_buildPlanDraft]
  rcases call.awards_foldl uuid (call.bestBids store) call.specs
      ⟨store, call.earlierAwards store, registry⟩ spec.taskId with
    same | ⟨absent, _⟩
  · exact same.trans earlier
  · rw [earlier] at absent
    cases absent

/-- Plan, awards and evaluation sequences agree after a call exactly when the
awards that were stored before fit the bids: a new award is to the best bid,
but an earlier one keeps its bidder. -/
theorem planAgrees_iff
    (fresh : ∀ taskId,
      store.sequences.get?
          (sequenceKey call.username taskId
            (call.buildPlanDraft python uuid store registry).planId) =
        none) :
    PlanAgrees call.username
        (call.buildPlanDraft python uuid store registry) ↔
      call.EarlierAwardsFit store := by
  refine
    ⟨call.earlierAwardsFit_of_planAgrees python uuid store registry, ?_⟩
  intro fit
  have assigned : ∀ draft,
      (call.buildPlanDraft python uuid store registry).draft =
          some draft →
        ∀ task ∈ draft.graphSpec.tasks,
          ∀ award,
            (call.buildPlanDraft python uuid store
                registry).awards.get? task.taskId =
              some award →
            task.assignedAgent =
                call.assignedAgent store task.taskId ∧
              call.assignedAgent store task.taskId =
                some award.bidderId := by
    intro draft made task isTask award awarded
    have draftOf :=
      call.draftOf_buildPlanDraft python uuid store registry made
    rw [draftOf.tasks] at isTask
    obtain ⟨spec, isSpec, rfl⟩ := List.mem_map.mp isTask
    rw [awards_buildPlanDraft] at awarded
    exact
      ⟨rfl, call.assigned_of_award uuid store registry
        (fit draftOf.readable spec isSpec award) awarded⟩
  constructor
  · intro draft made task isTask award awarded
    obtain ⟨same, isBidder⟩ :=
      assigned draft made task isTask award awarded
    exact same.trans isBidder
  · intro draft made task isTask award awarded sequence stored
    obtain ⟨_, isBidder⟩ :=
      assigned draft made task isTask award awarded
    rw [(call.draftOf_buildPlanDraft python uuid store registry
      made).planId] at stored
    obtain ⟨bid, isBest, atCursor⟩ :=
      call.sequence_of_stored python uuid store registry fresh stored
    unfold assignedAgent at isBidder
    rw [isBest] at isBidder
    exact atCursor.trans isBidder

end BuildCall

/-! ## Two bids -/

def callForReview : CallForProposal where
  cfpId := "cfp-1"
  taskId := "review"
  maxBids := some 2

def bidOf (bidderId bidId : String) (bidScore : ℚ) : BlueprintBid where
  bidId := bidId
  taskId := "review"
  bidderId := bidderId
  bidScore := bidScore
  cfpId := some "cfp-1"
  pipelineId := some "pipe-1"

def awardTo (bidderId : String) : ContractAward where
  awardId := "award-1"
  taskId := "review"
  bidderId := bidderId
  pipelineId := some "pipe-1"
  awardedAt := "2024-05-01 08:00:00+00:00"

/-- Two bids on an open call for proposals, and an award of the task from
before. -/
def awardedTo (bidderId : String) : CnpStore :=
  ((((({} : CnpStore).addCfp "jane" callForReview).addBid "jane"
    (bidOf "slow" "bid-1" (2 / 5))).addBid "jane"
      (bidOf "fast" "bid-2" (4 / 5))).addContractAward "jane"
        (awardTo bidderId))

def planReview : BuildCall where
  username := "jane"
  pipelineId := "pipe-1"
  specDocs := [{ taskId := "review" }]

theorem award_to_best_bid_agrees :
    PlanAgrees "jane"
      (planReview.buildPlanDraft plainPython countedIds (awardedTo "fast")
        .empty) := by
  refine
    (planReview.planAgrees_iff plainPython countedIds (awardedTo "fast")
      .empty fun _ => rfl).mpr ?_
  intro _ spec _ award earlier
  have onlyAward :
      (planReview.earlierAwards (awardedTo "fast")).entries =
        [("review", awardTo "fast")] := by
    decide +kernel
  have member := OrderedMap.mem_of_get? earlier
  rw [onlyAward, List.mem_singleton, Prod.mk.injEq] at member
  obtain ⟨isReview, rfl⟩ := member
  rw [isReview, BuildCall.fitsBids_iff]
  decide +kernel

/-- With an award to the second best bidder from before, the plan is assigned
to the best one. -/
theorem award_to_other_bid_disagrees :
    ¬ PlanAgrees "jane"
      (planReview.buildPlanDraft plainPython countedIds (awardedTo "slow")
        .empty) := by
  intro agrees
  have fit :=
    planReview.earlierAwardsFit_of_planAgrees plainPython countedIds
      (awardedTo "slow") .empty agrees ⟨[[]], rfl⟩
      { taskId := "review" } List.mem_cons_self (awardTo "slow")
      (by decide +kernel)
  rw [BuildCall.fitsBids_iff] at fit
  revert fit
  decide +kernel

end Agentcy.Cnp
