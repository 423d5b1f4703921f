import Agentcy.Cnp.CycleServes
import Mathlib.Algebra.Order.Ring.Nat

/-!
# The accounts of a cycle

The cycle manager adds up the bids of the rounds, each as the bidder reports
it, and at the end reads from the plan draft how many tasks were awarded.  The
graph builder does not write what is read there.
-/

namespace Agentcy.Cnp

open Agentcy.GraphStore
open Agentcy.Library

def RiskLevel.value : RiskLevel → String
  | .low => "low"
  | .medium => "medium"
  | .high => "high"

/-- A text, or `None`. -/
def optionalText (text : Option String) : Json :=
  (text.map Json.str).getD .null

def PlanTask.toFields (task : PlanTask) : Fields :=
  [("task_id", .str task.taskId),
    ("description", .str task.description),
    ("required_capabilities",
      .list (task.requiredCapabilities.map Json.str)),
    ("tags", .list (task.tags.map Json.str)),
    ("assigned_agent", optionalText task.assignedAgent),
    ("bid_score", (task.bidScore.map Json.float).getD .null),
    ("bid_id", optionalText task.bidId),
    ("service_name", optionalText task.serviceName),
    ("cfp_id", optionalText task.cfpId),
    ("award_id", optionalText task.awardId),
    ("task_type", task.taskType),
    ("risk_level", .str task.riskLevel.value),
    ("requires_human_approval", .bool task.requiresHumanApproval),
    ("metadata", .dict task.metadata),
    ("status", optionalText task.status)]

/-- An entry of the ontology, unless there is nothing to list. -/
def ontologyEntry (name : String) (texts : List String) : Fields :=
  if texts.isEmpty then []
  else
    [(name, .list ((texts.dedup.insertionSort (· ≤ ·)).map Json.str))]

/-- `_build_ontology`. -/
def buildOntology (python : PyBuiltins) (specs : List TaskSpec) : Fields :=
  ontologyEntry "capabilities"
      (specs.flatMap TaskSpec.requiredCapabilities) ++
    ontologyEntry "tags" (specs.flatMap TaskSpec.tags) ++
    ontologyEntry "task_types"
      (((specs.map fun spec => spec.metadata.get "task_type").filter
        Json.truthy).map (Json.pyStr python))

/-- `draft.graph_spec`, with the ontology and the serialized graph, if one was
made. -/
def GraphSpec.toFields
    (graph : GraphSpec) (ontology : Fields) (turtle : Option String) :
    Fields :=
  [("tasks", .list (graph.tasks.map fun task => .dict task.toFields)),
    ("edges",
      .list (graph.edges.map fun edge =>
        .dict [("from", edge.1), ("to", .str edge.2)]))] ++
    (if ontology.isEmpty then [] else [("ontology", .dict ontology)]) ++
    (if graph.warnings.isEmpty then []
      else [("warnings", .list (graph.warnings.map Json.str))]) ++
    match turtle with
    | none => []
    | some data =>
        [("semantic_graph",
          .dict [("format", .str "turtle"), ("data", .str data)])]

/-- How a run of the bidder ends: it raises, finds no task specs, or is done
with them. -/
inductive BidderOutcome where
  | failed
  | noSpecs
  | bid (bidsCreated cfpsCreated taskCount : Nat)

/-- The result of the run; it is empty after a failure. -/
def BidderOutcome.result : BidderOutcome → List (String × Nat)
  | .failed => []
  | .noSpecs => [("bids_created", 0), ("task_count", 0)]
  | .bid bidsCreated cfpsCreated taskCount =>
      [("bids_created", bidsCreated), ("cfps_created", cfpsCreated),
        ("task_count", taskCount)]

/-- `bid_result.get(name, 0)`. -/
def BidderOutcome.get (outcome : BidderOutcome) (name : String) : Nat :=
  (outcome.result.lookup name).getD 0

/-- What a cycle depends on besides its command: what the bidder does in a
round, in which rounds the bids can be listed, whether the task specs can be
listed, whether a store or the registry fails in the award phase, and the
serialized graph of the plan. -/
structure CycleServices where
  bidder : Nat → CnpStore → BidderOutcome × CnpStore
  bidsListed : Nat → Bool := fun _ => true
  specsListed : Bool := true
  awarding : Bool := true
  turtle : Option String := none

inductive CnpCycleStatus where
  | started
  | bidding
  | awarding
  | completed
  | failed
  deriving DecidableEq

structure CnpCycleState where
  status : CnpCycleStatus := .started
  taskIds : List String := []
  currentRound : Nat := 0
  maxRounds : Int := 3
  totalBids : Nat := 0
  planId : Option String := none
  roundHistory : List RoundSummary := []
  error : Option String := none

structure CnpCycleCompletedEvent where
  planId : String
  totalRounds : Nat
  totalBids : Nat
  tasksAwarded : Nat
  tasksUnawarded : Int

/-- The record that a cycle saves last, and the event that it publishes at its
end. -/
structure CycleResult where
  record : CnpCycleState
  event : Option CnpCycleCompletedEvent := none

namespace Cycle

variable {Agent : Type} (python : PyBuiltins) (uuid : UuidSource)
variable (cycle : Cycle Agent) (services : CycleServices)

/-- `task_count` of a cycle without task ids. -/
def specCount : Nat :=
  if services.specsListed then cycle.env.specDocs.length else 0

/-- The tasks with and without bids; both are zero where the bids cannot be
listed. -/
def coverage (round : Nat) (store : CnpStore) : Nat × Nat :=
  let covered := cycle.tasksWithBids store
  if !services.bidsListed round then (0, 0)
  else if cycle.command.taskIds.isEmpty then
    (covered, cycle.specCount services - covered)
  else
    (covered, cycle.command.taskIds.dedup.length - covered)

def recordRound
    (round : Nat) (answer : BidderOutcome × CnpStore)
    (record : CnpCycleState) : CnpCycleState :=
  let bidsCreated := answer.1.get "bids_created"
  let coverage := cycle.coverage services round answer.2
  { record with
    currentRound := round
    totalBids := record.totalBids + bidsCreated
    roundHistory := record.roundHistory ++
      [{ round := round
         bidsCollected := bidsCreated
         cfpsCreated := answer.1.get "cfps_created"
         tasksWithBids := coverage.1
         tasksWithoutBids := coverage.2 }] }

/-- The rounds from one on, of which so many remain. -/
def accountRounds :
    Nat → Nat → CnpStore × CnpCycleState → CnpStore × CnpCycleState
  | 0, _, soFar => soFar
  | remaining + 1, round, soFar =>
      let answer := services.bidder round soFar.1
      let coverage := cycle.coverage services round answer.2
      let after :=
        (answer.2, cycle.recordRound services round answer soFar.2)
      if coverage.2 = 0 ∧ 0 < coverage.1 then after
      else accountRounds remaining (round + 1) after

def startRecord : CnpCycleState where
  status := .bidding
  taskIds := cycle.command.taskIds
  maxRounds := cycle.maxRounds

def bidding (store : CnpStore) : CnpStore × CnpCycleState :=
  cycle.accountRounds services cycle.maxRounds.toNat 1
    (store, cycle.startRecord)

/-- `len(value)`, which raises on anything but texts, lists and dicts. -/
def len : Json → Option Nat
  | .str text => some text.length
  | .list items => some items.length
  | .dict fields => some fields.length
  | _ => none

/-- The awarded and unawarded tasks of a plan.  The set of the target tasks is
bound in the rounds, so that there is none if there was no round. -/
def countAwards (graphSpec : Fields) : Option (Nat × Int) :=
  if graphSpec.isEmpty then some (0, 0)
  else do
    let assignments :=
      (OrderedMap.lookupEntries "assignments" graphSpec).getD (.dict [])
    let tasksAwarded ← len assignments
    if cycle.maxRounds ≤ 0 then
      none
    else if cycle.command.taskIds.isEmpty then
      return (tasksAwarded,
        max 0 ((cycle.specCount services : Int) - tasksAwarded))
    else
      return (tasksAwarded,
        (cycle.command.taskIds.dedup.length : Int) - tasksAwarded)

/-- What the award phase makes of the store after the rounds. -/
def awardPhase (store : CnpStore) (registry : Registry) :
    BuildCall.Built :=
  cycle.buildCall.buildPlanDraft python uuid store registry

/-- `handle_run_cnp_cycle`. -/
def handle (store : CnpStore) (registry : Registry) : CycleResult :=
  let rounds := cycle.bidding services store
  let built := cycle.awardPhase python uuid rounds.1 registry
  match if services.awarding then built.draft else none with
  | none =>
      { record :=
          { rounds.2 with
            status := .failed
            error := some "graph_builder_failed" } }
  | some draft =>
      let record :=
        { rounds.2 with
          planId := some draft.planId
          status := .completed }
      let graphSpec :=
        draft.graphSpec.toFields
          (buildOntology python cycle.buildCall.specs) services.turtle
      { record := record
        event := (cycle.countAwards services graphSpec).map fun counts =>
          { planId := draft.planId
            totalRounds := record.currentRound
            totalBids := record.totalBids
            tasksAwarded := counts.1
            tasksUnawarded := counts.2 } }

end Cycle

/-- The graph builder does not write any assignments. -/
theorem GraphSpec.no_assignments
    (graph : GraphSpec) (ontology : Fields) (turtle : Option String) :
    OrderedMap.lookupEntries "assignments"
        (graph.toFields ontology turtle) =
      none := by
  unfold GraphSpec.toFields
  simp only [OrderedMap.lookupEntries_append]
  have parts :
      OrderedMap.lookupEntries "assignments"
          (if ontology.isEmpty then []
            else [("ontology", Json.dict ontology)]) = none ∧
        OrderedMap.lookupEntries "assignments"
          (if graph.warnings.isEmpty then []
            else
              [("warnings",
                Json.list (graph.warnings.map Json.str))]) = none := by
    constructor <;> split <;> rfl
  rw [parts.1, parts.2]
  cases turtle <;> rfl

namespace Cycle

section Accounts

variable {Agent : Type} (python : PyBuiltins) (uuid : UuidSource)
variable (cycle : Cycle Agent) (services : CycleServices)
variable (store : CnpStore) (registry : Registry)

/-! ## What the accounts should say -/

/-- The target tasks: those of the command, or else those of all listed task
specs. -/
def targetIds : List String :=
  if cycle.command.taskIds.isEmpty then
    cycle.env.specDocs.map TaskSpec.taskId
  else
    cycle.command.taskIds.dedup

/-- The task has an award after the award phase. -/
def hasAward (taskId : String) : Bool :=
  (cycle.awardPhase python uuid (cycle.bidding services store).1
    registry).awards.contains taskId

/-- The accounts of a cycle: its record has the sum of the bids of its rounds,
and so has its event, with the number of the target tasks that have an award,
and that of the others. -/
structure Accounts : Prop where
  totalBids :
    let result := cycle.handle python uuid services store registry
    result.record.totalBids =
      (result.record.roundHistory.map RoundSummary.bidsCollected).sum
  event :
    let result := cycle.handle python uuid services store registry
    ∃ event, result.event = some event ∧
      event.totalBids =
        (result.record.roundHistory.map RoundSummary.bidsCollected).sum ∧
      event.tasksAwarded =
        (cycle.targetIds.filter
          (cycle.hasAward python uuid services store registry)).length ∧
      (event.tasksAwarded : Int) + event.tasksUnawarded =
        cycle.targetIds.length

/-- No task gets an award, nor has one: there is no earlier award of a target
task, and on those that are planned there is no bid that qualifies. -/
def NothingToAward : Prop :=
  let afterRounds := (cycle.bidding services store).1
  ∀ taskId ∈ cycle.targetIds,
    (cycle.buildCall.earlierAwards afterRounds).get? taskId = none ∧
      ((∃ spec ∈ cycle.buildCall.specs, spec.taskId = taskId) →
        cycle.buildCall.qualifyingFor afterRounds taskId = [])

/-- There is a round, the plan can be made, the targets can be counted, and
there is nothing to award. -/
structure NothingToCount : Prop where
  rounds : 0 < cycle.maxRounds
  counted :
    services.specsListed = true ∨ cycle.command.taskIds ≠ [] ∨
      cycle.env.specDocs = []
  awarding : services.awarding = true
  readable : cycle.buildCall.Readable
  nothing : cycle.NothingToAward services store

variable {python uuid cycle services store registry}

def Summed (record : CnpCycleState) : Prop :=
  record.totalBids =
    (record.roundHistory.map RoundSummary.bidsCollected).sum

theorem summed_recordRound
    {record : CnpCycleState} (summed : Summed record)
    (round : Nat) (answer : BidderOutcome × CnpStore) :
    Summed (cycle.recordRound services round answer record) := by
  unfold Summed at summed ⊢
  simp [recordRound, summed]

theorem summed_accountRounds
    (remaining round : Nat) {soFar : CnpStore × CnpCycleState}
    (summed : Summed soFar.2) :
    Summed (cycle.accountRounds services remaining round soFar).2 := by
  induction remaining generalizing round soFar with
  | zero =>
      exact summed
  | succ remaining inductionHypothesis =>
      have after :
          Summed
            (cycle.recordRound services round
              (services.bidder round soFar.1) soFar.2) :=
        summed_recordRound summed round _
      rw [accountRounds]
      split
      · exact after
      · exact inductionHypothesis _ after

theorem summed_bidding : Summed (cycle.bidding services store).2 :=
  summed_accountRounds _ _ rfl

theorem countAwards_of_rounds
    (rounds : 0 < cycle.maxRounds) (graph : GraphSpec) (ontology : Fields)
    (turtle : Option String) :
    cycle.countAwards services (graph.toFields ontology turtle) =
      some (0,
        if cycle.command.taskIds.isEmpty then
          (cycle.specCount services : Int)
        else cycle.command.taskIds.dedup.length) := by
  have written :
      (graph.toFields ontology turtle).isEmpty = false := rfl
  rw [countAwards, written, graph.no_assignments]
  simp only [Bool.false_eq_true, if_false, Option.getD_none, len,
    List.length_nil, Option.bind_eq_bind, Option.bind_some,
    if_neg (not_le.mpr rounds)]
  split
  · simp
  · simp

theorem countAwards_of_no_rounds
    (noRounds : ¬ 0 < cycle.maxRounds) (graph : GraphSpec)
    (ontology : Fields) (turtle : Option String) :
    cycle.countAwards services (graph.toFields ontology turtle) =
      none := by
  have written :
      (graph.toFields ontology turtle).isEmpty = false := rfl
  rw [countAwards, written, graph.no_assignments]
  simp [len, not_lt.mp noRounds]

/-- A task has an award exactly if it had one, or is planned and has a bid
that qualifies. -/
theorem hasAward_iff (taskId : String) :
    cycle.hasAward python uuid services store registry taskId = true ↔
      (cycle.buildCall.earlierAwards
          (cycle.bidding services store).1).get? taskId ≠ none ∨
        (∃ spec ∈ cycle.buildCall.specs, spec.taskId = taskId) ∧
          cycle.buildCall.qualifyingFor
            (cycle.bidding services store).1 taskId ≠ [] := by
  have best :
      (cycle.buildCall.bestBids (cycle.bidding services store).1).get?
          taskId ≠ none ↔
        cycle.buildCall.qualifyingFor (cycle.bidding services store).1
          taskId ≠ [] := by
    rw [BuildCall.get?_bestBids]
    exact not_congr (firstBest_eq_none_iff _ _)
  rw [hasAward, OrderedMap.contains, Option.isSome_iff_ne_none]
  cases earlier :
      (cycle.buildCall.earlierAwards
        (cycle.bidding services store).1).get? taskId with
  | some award =>
      refine iff_of_true ?_ (Or.inl (Option.some_ne_none _))
      rw [awardPhase, BuildCall.awards_buildPlanDraft]
      rcases cycle.buildCall.awards_foldl uuid _ cycle.buildCall.specs
          ⟨_, cycle.buildCall.earlierAwards
            (cycle.bidding services store).1, registry⟩ taskId with
        same | ⟨absent, _⟩
      · rw [BuildCall.awardPhase, same, earlier]
        exact Option.some_ne_none _
      · rw [earlier] at absent
        cases absent
  | none =>
      rw [← best]
      constructor
      · intro awarded
        obtain ⟨award, found⟩ := Option.ne_none_iff_exists'.mp awarded
        obtain ⟨planned, bid, isBest, -⟩ :=
          cycle.buildCall.best_of_newAward python uuid _ earlier found
        exact Or.inr ⟨planned, by rw [isBest]; exact Option.some_ne_none _⟩
      · rintro (absurdly | ⟨planned, some⟩)
        · exact absurd rfl absurdly
        · obtain ⟨bid, isBest⟩ := Option.ne_none_iff_exists'.mp some
          obtain ⟨award, found, -⟩ :=
            cycle.buildCall.newAward_of_best python uuid _ registry
              earlier planned isBest
          rw [awardPhase, found]
          exact Option.some_ne_none _

theorem nothingToAward_iff :
    cycle.NothingToAward services store ↔
      (cycle.targetIds.filter
        (cycle.hasAward python uuid services store registry)).length =
          0 := by
  rw [List.length_eq_zero_iff, List.filter_eq_nil_iff]
  refine forall₂_congr fun taskId _ => ?_
  rw [hasAward_iff, not_or, not_and', not_not]
  refine and_congr_right fun _ => ⟨?_, ?_⟩
  · intro none some planned
    exact some (none planned)
  · intro absurdly planned
    by_contra some
    exact absurdly some planned

theorem targets_counted :
    (cycle.targetIds.length : Int) =
        (if cycle.command.taskIds.isEmpty then
          (cycle.specCount services : Int)
        else cycle.command.taskIds.dedup.length) ↔
      services.specsListed = true ∨ cycle.command.taskIds ≠ [] ∨
        cycle.env.specDocs = [] := by
  unfold targetIds specCount
  by_cases named : cycle.command.taskIds = []
  · cases listed : services.specsListed with
    | true =>
        simp [named]
    | false =>
        simp [named]
  · simp [named]

/-- What an event says. -/
theorem event_eq
    {draft : PlanDraft}
    (made :
      (cycle.awardPhase python uuid (cycle.bidding services store).1
        registry).draft = some draft)
    (awarding : services.awarding = true) (rounds : 0 < cycle.maxRounds) :
    (cycle.handle python uuid services store registry).event =
      some
        { planId := draft.planId
          totalRounds := (cycle.bidding services store).2.currentRound
          totalBids := (cycle.bidding services store).2.totalBids
          tasksAwarded := 0
          tasksUnawarded :=
            if cycle.command.taskIds.isEmpty then
              (cycle.specCount services : Int)
            else cycle.command.taskIds.dedup.length } := by
  unfold handle
  dsimp only
  rw [if_pos awarding, made]
  dsimp only
  rw [countAwards_of_rounds rounds]
  rfl

/-- Only a cycle with a round and a plan publishes an event. -/
theorem published_only
    {event : CnpCycleCompletedEvent}
    (published :
      (cycle.handle python uuid services store registry).event =
        some event) :
    services.awarding = true ∧ cycle.buildCall.Readable ∧
      0 < cycle.maxRounds := by
  unfold handle at published
  dsimp only at published
  by_cases awarding : services.awarding = true
  · rw [if_pos awarding] at published
    cases made :
        (cycle.awardPhase python uuid (cycle.bidding services store).1
          registry).draft with
    | none =>
        rw [made] at published
        cases published
    | some draft =>
        rw [made] at published
        dsimp only at published
        refine ⟨awarding,
          (cycle.buildCall.draftOf_buildPlanDraft python uuid _ _
            made).readable, ?_⟩
        by_contra noRounds
        rw [countAwards_of_no_rounds noRounds] at published
        cases published
  · rw [if_neg awarding] at published
    cases published

theorem history_handle :
    (cycle.handle python uuid services store registry).record.totalBids =
        (cycle.bidding services store).2.totalBids ∧
      (cycle.handle python uuid services store
          registry).record.roundHistory =
        (cycle.bidding services store).2.roundHistory := by
  unfold handle
  dsimp only
  split <;> exact ⟨rfl, rfl⟩

variable (python uuid cycle services store registry)

/-- The accounts of a cycle are right exactly if it has a round and makes its
plan, its targets could be counted, and none of these has an award after the
award phase. -/
theorem accounts_iff :
    cycle.Accounts python uuid services store registry ↔
      cycle.NothingToCount services store := by
  obtain ⟨total, history⟩ :=
    @history_handle Agent python uuid cycle services store registry
  constructor
  · rintro ⟨-, event, published, -, awarded, targets⟩
    obtain ⟨awarding, readable, rounds⟩ := published_only published
    obtain ⟨draft, made⟩ :=
      cycle.buildCall.draft_of_readable python uuid
        (cycle.bidding services store).1 registry readable
    rw [event_eq made awarding rounds] at published
    obtain rfl := Option.some.inj published
    refine ⟨rounds, targets_counted.mp ?_, awarding, readable,
      nothingToAward_iff.mpr awarded.symm⟩
    rw [← targets]
    exact Int.zero_add _
  · rintro ⟨rounds, counted, awarding, readable, nothing⟩
    obtain ⟨draft, made⟩ :=
      cycle.buildCall.draft_of_readable python uuid
        (cycle.bidding services store).1 registry readable
    refine ⟨?_, _, event_eq made awarding rounds, ?_,
      (nothingToAward_iff.mp nothing).symm, ?_⟩
    · dsimp only
      rw [total, history]
      exact summed_bidding
    · dsimp only
      rw [history]
      exact summed_bidding
    · rw [targets_counted.mpr counted]
      exact Int.zero_add _

end Accounts

/-! ## The bidder's own rounds -/

section OwnRounds

variable {Agent : Type} (uuid : UuidSource) (cycle : Cycle Agent)

/-- The result of a run of the bidder. -/
def outcomeOf (result : Bidding) : BidderOutcome :=
  if cycle.targets.isEmpty then .noSpecs
  else
    .bid result.bidsCreated result.cfpsCreated cycle.targets.length

/-- The bidder itself, and stores that do not fail. -/
def ownServices : CycleServices where
  bidder round store :=
    let result := (cycle.bidderRun round).run uuid store
    (cycle.outcomeOf result, result.store)

theorem outcomeOf_counts (round : Nat) (store : CnpStore) :
    let result := (cycle.bidderRun round).run uuid store
    (cycle.outcomeOf result).get "bids_created" = result.bidsCreated ∧
      (cycle.outcomeOf result).get "cfps_created" =
        result.cfpsCreated := by
  dsimp only
  unfold outcomeOf
  split
  · rename_i none
    have nothing : (cycle.bidderRun round).specs = [] :=
      List.isEmpty_iff.mp none
    rw [BidderRun.run, nothing]
    exact ⟨rfl, rfl⟩
  · exact ⟨rfl, rfl⟩

theorem coverage_own (round : Nat) (store : CnpStore) :
    cycle.coverage (cycle.ownServices uuid) round store =
      (cycle.tasksWithBids store, cycle.tasksWithoutBids store) := by
  unfold coverage tasksWithoutBids taskCount specCount ownServices
  dsimp only
  split
  · rename_i fails
    cases fails
  · split
    · rfl
    · rfl

/-- With the bidder itself, the recorded rounds are the rounds of the bidder,
and so is the store that they leave. -/
theorem accountRounds_own
    (remaining round : Nat) (soFar : BidRounds) (record : CnpCycleState)
    (same : record.roundHistory = soFar.history) :
    let rounds :=
      cycle.accountRounds (cycle.ownServices uuid) remaining round
        (soFar.store, record)
    let own := cycle.bidRoundsFrom uuid remaining round soFar
    rounds.1 = own.store ∧ rounds.2.roundHistory = own.history := by
  induction remaining generalizing round soFar record with
  | zero =>
      exact ⟨rfl, same⟩
  | succ remaining inductionHypothesis =>
      obtain ⟨bids, cfps⟩ := cycle.outcomeOf_counts uuid round soFar.store
      have coverage :=
        cycle.coverage_own uuid round
          ((cycle.bidderRun round).run uuid soFar.store).store
      have answer :
          (cycle.ownServices uuid).bidder round soFar.store =
            (cycle.outcomeOf
                ((cycle.bidderRun round).run uuid soFar.store),
              ((cycle.bidderRun round).run uuid soFar.store).store) := rfl
      rw [accountRounds, bidRoundsFrom]
      dsimp only
      rw [answer, coverage]
      have recorded :
          (cycle.recordRound (cycle.ownServices uuid) round
              (cycle.outcomeOf
                  ((cycle.bidderRun round).run uuid soFar.store),
                ((cycle.bidderRun round).run uuid soFar.store).store)
              record).roundHistory =
            soFar.history ++
              [cycle.summaryOf round
                ((cycle.bidderRun round).run uuid soFar.store)] := by
        rw [recordRound]
        dsimp only
        rw [bids, cfps, same, coverage]
        rfl
      by_cases covered :
          cycle.isCovered
            ((cycle.bidderRun round).run uuid soFar.store).store = true
      · have isCovered := covered
        rw [Cycle.isCovered, Bool.and_eq_true, decide_eq_true_iff,
          decide_eq_true_iff] at isCovered
        rw [if_pos isCovered, if_pos covered]
        exact ⟨rfl, recorded⟩
      · have notCovered := covered
        rw [Cycle.isCovered, Bool.and_eq_true, decide_eq_true_iff,
          decide_eq_true_iff] at notCovered
        rw [if_neg notCovered, if_neg covered]
        exact
          inductionHypothesis (round + 1)
            { store := _, history := soFar.history ++ [_] } _ recorded

/-- What the award phase finds, and what the record says of the rounds, are
what the rounds of the bidder leave. -/
theorem bidding_own (store : CnpStore) :
    let rounds := cycle.bidding (cycle.ownServices uuid) store
    rounds.1 = (cycle.bidRounds uuid store).store ∧
      rounds.2.roundHistory = (cycle.bidRounds uuid store).history :=
  cycle.accountRounds_own uuid _ 1 { store := store } cycle.startRecord rfl

end OwnRounds

end Cycle

/-- A task is awarded to the agent with the earlier bid, and the event counts
no awarded task. -/
theorem awarded_task_is_not_counted :
    ¬ reviewCycle.Accounts plainPython countedIds
      (reviewCycle.ownServices countedIds) (reviewStore (4 / 5)) .empty := by
  intro accounts
  have nothing :=
    ((Cycle.accounts_iff _ _ _ _ _ _).mp accounts).nothing "review"
      (by decide)
  have qualifying :
      reviewCycle.buildCall.qualifyingFor
          (reviewCycle.bidding (reviewCycle.ownServices countedIds)
            (reviewStore (4 / 5))).1 "review" ≠ [] := by
    decide +kernel
  exact qualifying (nothing.2
    ⟨{ taskId := "review" }, List.mem_cons_self, rfl⟩)

end Agentcy.Cnp
