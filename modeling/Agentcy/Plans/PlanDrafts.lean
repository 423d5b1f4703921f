import Agentcy.Plans.PlanRevisionUtils

/-!
# The services that save plan drafts

Each service computes the draft that it saves from a draft that it loaded
earlier, and nothing in between stops the others from saving.  The drafts and
the revision candidates that are in somebody's hands are therefore part of the
state.
-/

namespace Agentcy.Plans

open Agentcy.Library

structure PlanDraft where
  planId : String
  username : String
  pipelineId : String
  pipelineRunId : Option String := none
  revision : Int := 1
  graphSpec : Fields := []
  isValid : Bool := false
  shaclReport : Option Fields := none
  cached : Bool := false

/-- The revision that a candidate is based on; 0 counts as none, and none as
the first. -/
def PlanDraft.currentRevision (draft : PlanDraft) : Int :=
  if draft.revision = 0 then 1 else draft.revision

/-- The document behind the `payload_ref` of a command. -/
structure RevisionCandidate where
  candidateGraph : Fields
  delta : Fields
  validation : Fields
  baseRevision : Int
  nextRevision : Int
  planId : String
  pipelineId : String
  pipelineRunId : Option String

structure RevisePlanCommand where
  username : String
  pipelineId : String
  planId : String
  pipelineRunId : Option String
  payloadRef : String
  suggestionId : Option String
  createdBy : String
  reason : Option String

/-- What the services read outside the store: the built-ins, the rule file,
and the digest of a graph. -/
structure PlanEnv where
  python : PyBuiltins
  ruleset : Option Ruleset
  digest : Fields → String

def PlanEnv.checkEnv (env : PlanEnv) (now : String) : CheckEnv where
  python := env.python
  checkedAt := now
  ruleset := env.ruleset

/-- `build_plan_draft`: the draft of a new plan. -/
def builtDraft (planId username pipelineId : String)
    (pipelineRunId : Option String) (graphSpec : Fields) : PlanDraft where
  planId := planId
  username := username
  pipelineId := pipelineId
  pipelineRunId := pipelineRunId
  graphSpec := graphSpec

/-- The verdicts of the SHACL engine and of the language model. -/
structure Reviews where
  shaclEnabled : Bool
  shaclEngine : Option Fields
  llmRequired : Bool
  llmReview : Option Fields

def Reviews.shaclReport (reviews : Reviews) : Fields :=
  if reviews.shaclEnabled then
    reviews.shaclEngine.getD
      [("conforms", .null), ("error", .str "shacl_engine_unavailable")]
  else
    [("conforms", .null), ("error", .str "shacl_disabled")]

def Reviews.shaclConforms (reviews : Reviews) : Bool :=
  match reviews.shaclEnabled, reviews.shaclEngine with
  | true, some report => (report.get "conforms").truthy
  | _, _ => true

/-- An empty review counts as none. -/
def Reviews.llmReport (reviews : Reviews) : Fields :=
  match reviews.llmReview with
  | some (field :: fields) => field :: fields
  | _ =>
      [("approved", .bool false), ("assessment", .null),
        ("risks", .list []), ("suggested_fixes", .list []),
        ("confidence", .null), ("error", .str "llm_unavailable")]

def Reviews.llmGate (reviews : Reviews) : Bool :=
  !reviews.llmRequired || (reviews.llmReport.get "approved").truthy

/-- `validate_plan_draft`: the draft with its new verdict. -/
def validatedDraft (env : PlanEnv) (now : String) (reviews : Reviews)
    (draft : PlanDraft) : Except PyError PlanDraft := do
  let report ← validateGraphSpec (env.checkEnv now) draft.graphSpec
  let finalConforms :=
    (report.get "conforms").truthy && reviews.shaclConforms &&
      reviews.llmGate
  return { draft with
    isValid := finalConforms
    shaclReport :=
      some (report.update
        [("shacl_engine", .dict reviews.shaclReport),
          ("llm_review", .dict reviews.llmReport),
          ("llm_required", .bool reviews.llmRequired),
          ("final_conforms", .bool finalConforms)]) }

/-- The answer that the human validator takes from its message. -/
def humanApproved (payload : Fields) (requiresHuman : Bool) : Bool :=
  match payload.get "human_approved" with
  | .null =>
      match payload.get "approved" with
      | .null => !requiresHuman
      | approved => approved.truthy
  | approved => approved.truthy

/-- The modifications in the message; anything but a dict counts as none. -/
def modificationsOf (payload : Fields) : Fields :=
  match payload.get "modifications" with
  | .dict modifications => modifications
  | _ => []

/-- The human validator's message and the time of its decision. -/
structure HumanDecision where
  payload : Fields
  requiresHuman : Bool
  humanApprover : String
  decidedAt : String

def HumanDecision.approver (decision : HumanDecision) : Json :=
  let named := decision.payload.get "approver"
  if named.truthy then named else .str decision.humanApprover

/-- The decision approves the plan with modifications, so that its graph is
rewritten. -/
def HumanDecision.Rewrites (decision : HumanDecision) : Prop :=
  humanApproved decision.payload decision.requiresHuman = true ∧
    modificationsOf decision.payload ≠ []

instance (decision : HumanDecision) : Decidable decision.Rewrites :=
  inferInstanceAs (Decidable (_ ∧ _))

/-- `human_validator.run`: the draft with the modified graph.  Its verdict is
the one it had before. -/
def humanValidatedDraft (env : PlanEnv) (decision : HumanDecision)
    (draft : PlanDraft) : Except PyError (Option PlanDraft) := do
  if decision.Rewrites then
    let (updatedGraph, _) ←
      applyDelta env.python draft.graphSpec
        (modificationsOf decision.payload)
    return some { draft with
      graphSpec :=
        Fields.set updatedGraph "human_approval"
          (.dict
            [("approved", .bool true), ("approver", decision.approver),
              ("decided_at", .str decision.decidedAt)]) }
  else
    return none

/-- `cache_plan_draft`, which leaves plans that are not valid alone. -/
def cachedDraft (env : PlanEnv) (now : String) (draft : PlanDraft) :
    Option PlanDraft :=
  if draft.isValid then
    let digest := env.digest draft.graphSpec
    let cacheKey := s!"{draft.pipelineId}:{draft.planId}:{digest}"
    some { draft with
      cached := true
      graphSpec :=
        Fields.set draft.graphSpec "cache"
          (.dict [("cache_key", .str cacheKey), ("cached_at", .str now)]) }
  else
    none

/-- `handle_revise_plan`: the draft takes the candidate's graph and verdict;
the semantic graph is added where the export succeeds. -/
def revisedDraft (candidate : RevisionCandidate)
    (semanticGraph : Option Json) (draft : PlanDraft) : PlanDraft :=
  { draft with
    graphSpec :=
      match semanticGraph with
      | none => candidate.candidateGraph
      | some exported =>
          Fields.set candidate.candidateGraph "semantic_graph" exported
    revision := candidate.nextRevision
    isValid := (candidate.validation.get "conforms").truthy
    shaclReport := some candidate.validation }

/-- How a revision is proposed: by the strategist loop, by the approval of a
stored suggestion, or by a user.  Only the approval takes a delta that changes
nothing. -/
structure Proposal where
  delta : Fields
  runDoc : Fields
  shaclEngine : Option Fields
  needsChange : Bool
  mergePolicy : Option Json
  suggestionId : Option String
  createdBy : String
  reason : Option String

/-- The report of a candidate that was moved to a newer revision says so. -/
def withMergePolicy (mergePolicy : Option Json) (report : Fields) :
    Fields :=
  match mergePolicy with
  | none => report
  | some policy => Fields.set report "merge_policy" policy

theorem withMergePolicy_conforms
    (mergePolicy : Option Json) (report : Fields) :
    (withMergePolicy mergePolicy report).get "conforms" =
      report.get "conforms" := by
  cases mergePolicy with
  | none =>
      rfl
  | some policy =>
      exact Fields.get_set_other report policy (by decide)

/-- The candidate that a proposal leads to, when the delta changes something
and the candidate graph is found to conform. -/
def proposedCandidate (env : PlanEnv) (now : String) (proposal : Proposal)
    (draft : PlanDraft) : Except PyError (Option RevisionCandidate) := do
  let (candidateGraph, applied) ←
    applyDelta env.python draft.graphSpec proposal.delta
  if proposal.needsChange && applied == 0 then
    return none
  let report ←
    validateCandidateGraph (env.checkEnv now) candidateGraph
      draft.graphSpec proposal.runDoc proposal.shaclEngine
  let validation := withMergePolicy proposal.mergePolicy report
  if (validation.get "conforms").truthy then
    return some {
      candidateGraph := candidateGraph
      delta := proposal.delta
      validation := validation
      baseRevision := draft.currentRevision
      nextRevision := draft.currentRevision + 1
      planId := draft.planId
      pipelineId := draft.pipelineId
      pipelineRunId := draft.pipelineRunId }
  else
    return none

def candidateKey (username planId : String) (revision : Int) : String :=
  s!"revision_candidate::{username}::{planId}::{revision}"

def planKey (username planId : String) : String :=
  s!"plan_draft::{username}::{planId}"

def reviseCommand (proposal : Proposal) (draft : PlanDraft)
    (payloadRef : String) : RevisePlanCommand where
  username := draft.username
  pipelineId := draft.pipelineId
  planId := draft.planId
  pipelineRunId := draft.pipelineRunId
  payloadRef := payloadRef
  suggestionId := proposal.suggestionId
  createdBy := proposal.createdBy
  reason := proposal.reason

/-! ## The system -/

/-- The stored drafts and candidates, the published commands, and the drafts
and candidates that some service has read. -/
structure PlanWorld where
  drafts : String → Option PlanDraft := fun _ => none
  candidates : String → Option RevisionCandidate := fun _ => none
  commands : List RevisePlanCommand := []
  loaded : List PlanDraft := []
  fetched : List (RevisePlanCommand × RevisionCandidate) := []

/-- One read or one write of a service.  A draft or a candidate is named by
its place among those that were read; any service may work on it. -/
inductive PlanStep where
  | load (key : String)
  | fetchCandidate (command : Nat)
  | build (planId username pipelineId : String)
      (pipelineRunId : Option String) (graphSpec : Fields)
  | validate (draft : Nat) (username now : String) (reviews : Reviews)
  | humanValidate (draft : Nat) (username : String)
      (decision : HumanDecision)
  | cache (draft : Nat) (username now : String)
  | propose (draft : Nat) (now : String) (proposal : Proposal)
  | revise (draft candidate : Nat) (semanticGraph : Option Json)
  | post (username : String) (draft : PlanDraft)

/-- The draft that a step saves, and for whom. -/
def PlanWorld.saved? (env : PlanEnv) (world : PlanWorld) :
    PlanStep → Option (String × PlanDraft)
  | .build planId username pipelineId pipelineRunId graphSpec =>
      some (username,
        builtDraft planId username pipelineId pipelineRunId graphSpec)
  | .validate index username now reviews => do
      let draft ← world.loaded[index]?
      let validated ← (validatedDraft env now reviews draft).toOption
      return (username, validated)
  | .humanValidate index username decision => do
      let draft ← world.loaded[index]?
      let modified ← (humanValidatedDraft env decision draft).toOption
      return (username, ← modified)
  | .cache index username now => do
      let draft ← world.loaded[index]?
      return (username, ← cachedDraft env now draft)
  | .revise index candidate semanticGraph => do
      let draft ← world.loaded[index]?
      let (command, candidate) ← world.fetched[candidate]?
      -- The handler loads the draft that its command names.
      if planKey draft.username draft.planId =
          planKey command.username command.planId then
        return (command.username,
          revisedDraft candidate semanticGraph draft)
      else
        none
  | .post username draft => some (username, draft)
  | _ => none

/-- `save_plan_draft`. -/
def PlanWorld.savePlanDraft (world : PlanWorld) (username : String)
    (draft : PlanDraft) : PlanWorld :=
  { world with
    drafts :=
      Function.update world.drafts (planKey username draft.planId)
        (some { draft with username := username }) }

/-- The candidate of a proposal is stored before its command is published. -/
def PlanWorld.storeCandidate (world : PlanWorld) (proposal : Proposal)
    (draft : PlanDraft) (candidate : RevisionCandidate) : PlanWorld :=
  let key := candidateKey draft.username draft.planId candidate.nextRevision
  { world with
    candidates := Function.update world.candidates key (some candidate)
    commands := world.commands ++ [reviseCommand proposal draft key] }

def PlanWorld.perform (env : PlanEnv) (world : PlanWorld)
    (step : PlanStep) : PlanWorld :=
  match step with
  | .load key =>
      { world with loaded := world.loaded ++ (world.drafts key).toList }
  | .fetchCandidate index =>
      match world.commands[index]? with
      | none => world
      | some command =>
          { world with
            fetched :=
              world.fetched ++
                ((world.candidates command.payloadRef).map
                  fun candidate => (command, candidate)).toList }
  | .propose index now proposal =>
      match world.loaded[index]? with
      | none => world
      | some draft =>
          match proposedCandidate env now proposal draft with
          | .ok (some candidate) =>
              world.storeCandidate proposal draft candidate
          | _ => world
  | step =>
      match world.saved? env step with
      | none => world
      | some (username, draft) => world.savePlanDraft username draft

end Agentcy.Plans
