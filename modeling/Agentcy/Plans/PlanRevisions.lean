import Agentcy.Library.Snapshot
import Agentcy.Plans.PlanDrafts

/-!
# The services that save plan revisions

The strategist loop proposes a revision, a human decides on it, and the
consumer of the revise command applies it.  Each of them saves a record under
the revision that follows the one its draft had.  The model is about one plan;
a document carries the number of revisions that had been applied when the
draft behind it was read, which no service looks at.
-/

namespace Agentcy.Plans

open Agentcy.Library

inductive RevisionStatus where
  | pendingReview
  | applied
  | rejected
  deriving DecidableEq, Repr

structure PlanRevision where
  planId : String
  username : String
  pipelineId : String
  pipelineRunId : Option String
  revision : Int
  parentRevision : Option Int
  graphSpec : Fields
  delta : Option Fields
  status : RevisionStatus
  createdBy : Option String
  reason : Option String
  validation : Option Fields

structure PlanSuggestion where
  suggestionId : String
  planId : String
  username : String
  pipelineId : String
  pipelineRunId : Option String
  baseRevision : Int
  candidateRevision : Int
  delta : Fields
  graphSpec : Fields
  status : RevisionStatus
  createdBy : Option String
  reason : Option String
  validation : Option Fields

/-- The record that is saved about a suggestion. -/
def PlanSuggestion.toRevision (suggestion : PlanSuggestion)
    (status : RevisionStatus) (createdBy : String)
    (reason : Option String) : PlanRevision where
  planId := suggestion.planId
  username := suggestion.username
  pipelineId := suggestion.pipelineId
  pipelineRunId := suggestion.pipelineRunId
  revision := suggestion.candidateRevision
  parentRevision := some suggestion.baseRevision
  graphSpec := suggestion.graphSpec
  delta := some suggestion.delta
  status := status
  createdBy := some createdBy
  reason := reason
  validation := suggestion.validation

def planRevisionKey (username planId : String) (revision : Int) : String :=
  s!"plan_revision::{username}::{planId}::{revision}"

def planSuggestionKey (username suggestionId : String) : String :=
  s!"plan_suggestion::{username}::{suggestionId}"

structure PlanStore where
  drafts : String → Option PlanDraft := fun _ => none
  candidates : String → Option (Stamped RevisionCandidate) :=
    fun _ => none
  commands : List RevisePlanCommand := []
  suggestions : String → Option (Stamped PlanSuggestion) := fun _ => none
  revisions : String → Option PlanRevision := fun _ => none
  /-- How often `handle_revise_plan` has replaced the draft. -/
  applied : Nat := 0

/-- A candidate on its way: the document and the command that refers to it. -/
structure Publication where
  key : String
  candidate : Stamped RevisionCandidate
  command : RevisePlanCommand

/-- What one call of a service saves. -/
structure PlanWrites where
  suggestion : Option (Stamped PlanSuggestion) := none
  publication : Option Publication := none
  draft : Option PlanDraft := none
  records : List (Stamped PlanRevision) := []

section Store

variable (username : String)

/-- `save_plan_revision`. -/
def PlanStore.savePlanRevision (store : PlanStore)
    (record : PlanRevision) : PlanStore :=
  { store with
    revisions :=
      Function.update store.revisions
        (planRevisionKey username record.planId record.revision)
        (some { record with username := username }) }

/-- `save_plan_suggestion`. -/
def PlanStore.savePlanSuggestion (store : PlanStore)
    (suggestion : Stamped PlanSuggestion) : PlanStore :=
  { store with
    suggestions :=
      Function.update store.suggestions
        (planSuggestionKey username suggestion.value.suggestionId)
        (some { suggestion with
          value := { suggestion.value with username := username } }) }

/-- `upsert_raw` of the candidate, and the command. -/
def PlanStore.publish (store : PlanStore) (publication : Publication) :
    PlanStore :=
  { store with
    candidates :=
      Function.update store.candidates publication.key
        (some publication.candidate)
    commands := store.commands ++ [publication.command] }

/-- `save_plan_draft` of a revised draft. -/
def PlanStore.replaceDraft (store : PlanStore) (draft : PlanDraft) :
    PlanStore :=
  { store with
    drafts :=
      Function.update store.drafts (planKey username draft.planId)
        (some { draft with username := username })
    applied := store.applied + 1 }

def PlanStore.write (store : PlanStore) (writes : PlanWrites) :
    PlanStore :=
  let suggested :=
    match writes.suggestion with
    | none => store
    | some suggestion => store.savePlanSuggestion username suggestion
  let published :=
    match writes.publication with
    | none => suggested
    | some publication => suggested.publish publication
  let replaced :=
    match writes.draft with
    | none => published
    | some draft => published.replaceDraft username draft
  writes.records.foldl
    (fun saved record => saved.savePlanRevision username record.value)
    replaced

end Store

/-- The environment variables of the strategist loop. -/
structure StrategistConfig where
  loopEnabled : Bool
  autoApply : Bool
  requireHuman : Bool
  minInterval : Int
  maxSuggestions : Int
  rejectionWindow : Int

/-- What the strategist loop has read for a task event while the language
model is at work. -/
structure Reading where
  draft : PlanDraft
  pipelineId : String
  runDoc : Fields
  now : Int

/-- The run documents, and what the strategist loop remembers about each
run. -/
structure LoopState where
  runDocs : String → String → Option Fields := fun _ _ => none
  inFlight : String → Option (Stamped Reading) := fun _ => none
  lastSuggested : String → Option Int := fun _ => none
  suggestionCounts : String → Nat := fun _ => 0
  rejectionStreak : String → Nat := fun _ => 0

/-- `_set_run_pause_state`. -/
def LoopState.setRunPauseState (loop : LoopState)
    (pipelineId runId : String) (paused : Bool) (reason : Json)
    (suggestionId : Json) (now : String) : LoopState :=
  match loop.runDocs pipelineId runId with
  | none => loop
  | some runDoc =>
      let context : Fields :=
        if paused then [("suggestion_id", suggestionId)] else []
      let marked :=
        runDoc.update
          [("paused", .bool paused),
            ("pause_reason", if paused then reason else .null),
            ("pause_context", .dict context),
            (if paused then "paused_at" else "resumed_at", .str now)]
      { loop with
        runDocs := fun pipeline run =>
          if pipeline = pipelineId ∧ run = runId then some marked
          else loop.runDocs pipeline run }

/-- `_delta_has_changes`. -/
def deltaHasChanges (delta : Fields) : Bool :=
  ["task_overrides", "add_tasks", "remove_tasks", "add_edges",
    "remove_edges"].any fun key =>
      match delta.get key with
      | .dict fields => !fields.isEmpty
      | .list items => !items.isEmpty
      | _ => false

/-- The delta's rationale, which must be a text if there is one. -/
def rationale? (delta : Fields) : Option (Option String) :=
  match delta.get "rationale" with
  | .null => some none
  | .str text => some (some text)
  | _ => none

/-- `_check_convergence`: the loop may go on. -/
def LoopState.mayProceed (config : StrategistConfig) (loop : LoopState)
    (runId : String) : Bool :=
  decide (loop.suggestionCounts runId < config.maxSuggestions) &&
    decide (loop.rejectionStreak runId < config.rejectionWindow)

/-- A task event as the strategist loop reads it. -/
structure TaskEvent where
  status : String
  pipelineId : String
  pipelineRunId : String

/-- `_event_is_relevant`. -/
def TaskEvent.isRelevant (python : PyBuiltins) (event : TaskEvent) :
    Bool :=
  python.upper event.status ∈ ["COMPLETED", "FAILED"]

/-- Neither the run nor the loop's own limits stop it; the result is the run
document. -/
def LoopState.passes (config : StrategistConfig) (python : PyBuiltins)
    (loop : LoopState) (event : TaskEvent) (now : Int) : Option Fields := do
  guard config.loopEnabled
  guard (event.isRelevant python)
  guard (loop.inFlight event.pipelineRunId).isNone
  match loop.lastSuggested event.pipelineRunId with
  | none => pure ()
  | some last => guard (config.minInterval ≤ now - last)
  let runDoc ← loop.runDocs event.pipelineId event.pipelineRunId
  guard (!(runDoc.get "paused").truthy)
  match runDoc.get "status" with
  | .null => pure ()
  | .str status => guard (status = "RUNNING")
  | _ => none
  guard (loop.mayProceed config event.pipelineRunId)
  return runDoc

/-- `handle_task_event` up to the language model: the draft is read. -/
def LoopState.begin (config : StrategistConfig) (python : PyBuiltins)
    (username planId : String) (store : PlanStore) (loop : LoopState)
    (event : TaskEvent) (now : Int) : LoopState :=
  match loop.passes config python event now,
      store.drafts (planKey username planId) with
  | some runDoc, some draft =>
      if draft.pipelineId = event.pipelineId then
        { loop with
          inFlight :=
            Function.update loop.inFlight event.pipelineRunId
              (some ⟨⟨draft, event.pipelineId, runDoc, now⟩,
                store.applied⟩) }
      else loop
  | _, _ => loop

/-- The answer of the language model or of the stub, with what the rest of
`handle_task_event` takes from outside. -/
structure LoopAnswer where
  delta : Option Fields
  suggestionId : String
  checkedAt : String
  shaclEngine : Option Fields

def loopName : String := "llm_strategist_loop"

/-- The suggestion that the loop makes from an answer, if the delta changes
the graph. -/
def suggestion? (env : PlanEnv) (username runId : String)
    (reading : Reading) (answer : LoopAnswer) : Option PlanSuggestion := do
  let delta ← answer.delta
  guard (deltaHasChanges delta)
  let (candidateGraph, applied) ←
    (applyDelta env.python reading.draft.graphSpec delta).toOption
  guard (applied ≠ 0)
  let validation ←
    (validateCandidateGraph (env.checkEnv answer.checkedAt) candidateGraph
      reading.draft.graphSpec reading.runDoc answer.shaclEngine).toOption
  let rationale ← rationale? delta
  return {
    suggestionId := answer.suggestionId
    planId := reading.draft.planId
    username := username
    pipelineId := reading.pipelineId
    pipelineRunId := some runId
    baseRevision := reading.draft.currentRevision
    candidateRevision := reading.draft.currentRevision + 1
    delta := delta
    graphSpec := candidateGraph
    status := .pendingReview
    createdBy := some loopName
    reason := rationale
    validation := some validation }

/-- `_apply_revision`: the candidate and the command that refers to it. -/
def applyRevision (draft : Stamped PlanDraft)
    (candidateGraph delta validation : Fields)
    (reason suggestionId createdBy : String) : Publication :=
  let key :=
    candidateKey draft.value.username draft.value.planId
      (draft.value.currentRevision + 1)
  { key := key
    candidate :=
      { value :=
          { candidateGraph := candidateGraph
            delta := delta
            validation := validation
            baseRevision := draft.value.currentRevision
            nextRevision := draft.value.currentRevision + 1
            planId := draft.value.planId
            pipelineId := draft.value.pipelineId
            pipelineRunId := draft.value.pipelineRunId }
        stamp := draft.stamp }
    command :=
      { username := draft.value.username
        pipelineId := draft.value.pipelineId
        planId := draft.value.planId
        pipelineRunId := draft.value.pipelineRunId
        payloadRef := key
        suggestionId := some suggestionId
        createdBy := createdBy
        reason := some reason } }

/-- The suggestion's validation found its graph to conform. -/
def PlanSuggestion.conforms (suggestion : PlanSuggestion) : Bool :=
  ((suggestion.validation.getD []).get "conforms").truthy

/-- What `handle_task_event` saves about a suggestion. -/
def suggested (config : StrategistConfig) (draft : Stamped PlanDraft)
    (suggestion : PlanSuggestion) : PlanWrites :=
  let pending : Stamped PlanRevision :=
    ⟨suggestion.toRevision .pendingReview loopName suggestion.reason,
      draft.stamp⟩
  if !suggestion.conforms then
    { suggestion :=
        some ⟨{ suggestion with status := .rejected }, draft.stamp⟩
      records :=
        [pending,
          ⟨suggestion.toRevision .rejected loopName
            (some "validation_failed"), draft.stamp⟩] }
  else if config.autoApply || !config.requireHuman then
    { suggestion :=
        some ⟨{ suggestion with status := .applied }, draft.stamp⟩
      records := [pending]
      publication :=
        some (applyRevision draft suggestion.graphSpec suggestion.delta
          (suggestion.validation.getD []) "llm_auto_apply"
          suggestion.suggestionId loopName) }
  else
    { suggestion := some ⟨suggestion, draft.stamp⟩
      records := [pending] }

def LoopState.release (loop : LoopState) (runId : String) : LoopState :=
  { loop with inFlight := Function.update loop.inFlight runId none }

def LoopState.countSuggestion (loop : LoopState) (runId : String) :
    LoopState :=
  { loop with
    suggestionCounts :=
      Function.update loop.suggestionCounts runId
        (loop.suggestionCounts runId + 1) }

/-- What the loop remembers about a suggestion; the run waits for a human
where one has to decide. -/
def LoopState.noteSuggestion (config : StrategistConfig)
    (loop : LoopState) (runId : String) (reading : Reading)
    (answer : LoopAnswer) (suggestion : PlanSuggestion) : LoopState :=
  let counted := loop.countSuggestion runId
  if !suggestion.conforms then counted
  else
    let paused :=
      if config.autoApply || !config.requireHuman then counted
      else
        counted.setRunPauseState reading.pipelineId runId true
          (.str "llm_suggestion_pending") (.str answer.suggestionId)
          answer.checkedAt
    { paused with
      lastSuggested :=
        Function.update paused.lastSuggested runId (some reading.now) }

/-- The rest of `handle_task_event`, once the language model has answered. -/
def finishTaskEvent (env : PlanEnv) (config : StrategistConfig)
    (username : String) (loop : LoopState) (runId : String)
    (answer : LoopAnswer) : PlanWrites × LoopState :=
  match loop.inFlight runId with
  | none => ({}, loop)
  | some reading =>
      let released := loop.release runId
      match suggestion? env username runId reading.value answer with
      | none => ({}, released)
      | some suggestion =>
          (suggested config ⟨reading.value.draft, reading.stamp⟩ suggestion,
            released.noteSuggestion config runId reading.value answer
              suggestion)

/-! ## Decisions -/

/-- The arguments of `apply_suggestion_decision`, with what it takes from
outside. -/
structure SuggestionDecision where
  suggestionId : String
  approved : Bool
  approver : Option String
  checkedAt : String
  shaclEngine : Option Fields

def SuggestionDecision.decidedBy (decision : SuggestionDecision) :
    String :=
  match decision.approver with
  | none | some "" => "human"
  | some approver => approver

/-- The run of a suggestion; an empty name counts as none. -/
def PlanSuggestion.run? (suggestion : PlanSuggestion) : Option String :=
  suggestion.pipelineRunId.filter fun runId => decide (runId ≠ "")

def LoopState.countRejection (loop : LoopState)
    (suggestion : PlanSuggestion) : LoopState :=
  match suggestion.run? with
  | none => loop
  | some runId =>
      { loop with
        rejectionStreak :=
          Function.update loop.rejectionStreak runId
            (loop.rejectionStreak runId + 1) }

def LoopState.resetStreak (loop : LoopState)
    (suggestion : PlanSuggestion) : LoopState :=
  match suggestion.run? with
  | none => loop
  | some runId =>
      { loop with
        rejectionStreak := Function.update loop.rejectionStreak runId 0 }

def LoopState.resume (loop : LoopState) (suggestion : PlanSuggestion)
    (now : String) : LoopState :=
  match suggestion.run? with
  | none => loop
  | some runId =>
      loop.setRunPauseState suggestion.pipelineId runId false .null .null
        now

/-- A rejection of the suggestion is saved with its record. -/
def rejection (suggestion : Stamped PlanSuggestion)
    (recorded : PlanSuggestion) (kept : PlanSuggestion)
    (decidedBy reason : String) : PlanWrites where
  suggestion := some ⟨{ kept with status := .rejected }, suggestion.stamp⟩
  records :=
    [⟨recorded.toRevision .rejected decidedBy (some reason),
      suggestion.stamp⟩]

/-- The candidate graph of an approval, rebased on the draft as it is now, and
its validation. -/
def rebased? (env : PlanEnv) (loop : LoopState) (draft : PlanDraft)
    (suggestion : PlanSuggestion) (decision : SuggestionDecision) :
    Option (Fields × Fields) := do
  let (candidateGraph, _) ←
    (applyDelta env.python draft.graphSpec suggestion.delta).toOption
  let runDoc ←
    match suggestion.run? with
    | none => some []
    | some runId => loop.runDocs suggestion.pipelineId runId
  let validation ←
    (validateCandidateGraph (env.checkEnv decision.checkedAt)
      candidateGraph draft.graphSpec runDoc decision.shaclEngine).toOption
  if draft.currentRevision = suggestion.baseRevision then
    return (candidateGraph, validation)
  else
    let rebaseInfo : Fields :=
      [("from", .int suggestion.baseRevision),
        ("to", .int draft.currentRevision),
        ("policy", .str "rebase_on_latest")]
    return (candidateGraph,
      Fields.set validation "merge_policy" (.dict rebaseInfo))

/-- `apply_suggestion_decision`. -/
def applySuggestionDecision (env : PlanEnv) (username : String)
    (store : PlanStore) (loop : LoopState)
    (decision : SuggestionDecision) : PlanWrites × LoopState :=
  match store.suggestions
      (planSuggestionKey username decision.suggestionId) with
  | none => ({}, loop)
  | some suggestion =>
      if suggestion.value.status ≠ .pendingReview then ({}, loop)
      else if !decision.approved then
        (rejection suggestion suggestion.value suggestion.value
            decision.decidedBy "human_rejected",
          (loop.countRejection suggestion.value).resume suggestion.value
            decision.checkedAt)
      else
        let reset := loop.resetStreak suggestion.value
        match store.drafts (planKey username suggestion.value.planId) with
        | none => ({}, reset)
        | some draft =>
            match rebased? env reset draft suggestion.value decision with
            | none => ({}, reset)
            | some (candidateGraph, validation) =>
                let kept :=
                  { suggestion.value with validation := some validation }
                let resumed :=
                  reset.resume suggestion.value decision.checkedAt
                if (validation.get "conforms").truthy then
                  ({ suggestion :=
                      some ⟨{ kept with status := .applied },
                        suggestion.stamp⟩
                     publication :=
                      some (applyRevision ⟨draft, store.applied⟩
                        candidateGraph suggestion.value.delta validation
                        "human_approved" suggestion.value.suggestionId
                        decision.decidedBy) },
                    resumed)
                else
                  (rejection suggestion
                      { kept with graphSpec := candidateGraph } kept
                      decision.decidedBy "validation_failed",
                    resumed)

/-- A revision that is applied: the draft that it replaces, the new draft and
the record. -/
structure AppliedRevision where
  replaced : PlanDraft
  updated : PlanDraft
  record : Stamped PlanRevision

/-- What a candidate makes of the plan's draft. -/
def appliedRevision (command : RevisePlanCommand)
    (candidate : Stamped RevisionCandidate) (semanticGraph : Option Json)
    (draft : PlanDraft) : AppliedRevision :=
  let updated := revisedDraft candidate.value semanticGraph draft
  { replaced := draft
    updated := updated
    record :=
      { value :=
          { planId := command.planId
            username := command.username
            pipelineId := command.pipelineId
            pipelineRunId := command.pipelineRunId
            revision := candidate.value.nextRevision
            parentRevision := some candidate.value.baseRevision
            graphSpec := updated.graphSpec
            delta := some candidate.value.delta
            status := .applied
            createdBy := some command.createdBy
            reason := command.reason
            validation := some candidate.value.validation }
        stamp := candidate.stamp } }

/-- `handle_revise_plan`: what is saved for a command, if its candidate and
the plan's draft are found. -/
def handleRevisePlan? (store : PlanStore) (command : RevisePlanCommand)
    (semanticGraph : Option Json) : Option AppliedRevision := do
  let candidate ← store.candidates command.payloadRef
  let draft ← store.drafts (planKey command.username command.planId)
  return appliedRevision command candidate semanticGraph draft

/-- The run document names the revision that the run now follows. -/
def LoopState.noteRevision (loop : LoopState)
    (command : RevisePlanCommand) (revision : Int) : LoopState :=
  match command.pipelineRunId.filter fun runId => decide (runId ≠ "") with
  | none => loop
  | some runId =>
      match loop.runDocs command.pipelineId runId with
      | none => loop
      | some runDoc =>
          let noted :=
            runDoc.update
              [("plan_id", .str command.planId),
                ("plan_revision", .int revision)]
          { loop with
            runDocs := fun pipeline run =>
              if pipeline = command.pipelineId ∧ run = runId then
                some noted
              else loop.runDocs pipeline run }

structure RevisionWorld where
  store : PlanStore
  loop : LoopState := {}

/-- One call of a service on the plan, in the case of `handle_task_event` the
part before or the part after the language model is asked.  Commands are named
by their place among the published ones and are handled in any order and any
number of times; run documents may change at any time. -/
inductive RevisionEvent where
  | taskEvent (event : TaskEvent) (now : Int)
  | answered (runId : String) (answer : LoopAnswer)
  | decide (decision : SuggestionDecision)
  | revise (command : Nat) (semanticGraph : Option Json)
  | runStored (pipelineId runId : String) (runDoc : Option Fields)

section System

variable (env : PlanEnv) (config : StrategistConfig)
  (username planId : String)

/-- The revision that an event applies to the draft, if it applies one. -/
def RevisionWorld.applied? (world : RevisionWorld) :
    RevisionEvent → Option AppliedRevision
  | .revise index semanticGraph => do
      let command ← world.store.commands[index]?
      handleRevisePlan? world.store command semanticGraph
  | _ => none

def RevisionWorld.writes (world : RevisionWorld) :
    RevisionEvent → PlanWrites
  | .answered runId answer =>
      (finishTaskEvent env config username world.loop runId answer).1
  | .decide decision =>
      (applySuggestionDecision env username world.store world.loop
        decision).1
  | .revise index semanticGraph =>
      match world.applied? (.revise index semanticGraph) with
      | none => {}
      | some revision =>
          { draft := some revision.updated, records := [revision.record] }
  | _ => {}

def RevisionWorld.loopAfter (world : RevisionWorld) :
    RevisionEvent → LoopState
  | .taskEvent event now =>
      world.loop.begin config env.python username planId world.store event
        now
  | .answered runId answer =>
      (finishTaskEvent env config username world.loop runId answer).2
  | .decide decision =>
      (applySuggestionDecision env username world.store world.loop
        decision).2
  | .revise index semanticGraph =>
      match world.store.commands[index]?,
          world.applied? (.revise index semanticGraph) with
      | some command, some revision =>
          world.loop.noteRevision command revision.updated.revision
      | _, _ => world.loop
  | .runStored pipelineId runId runDoc =>
      { world.loop with
        runDocs := fun pipeline run =>
          if pipeline = pipelineId ∧ run = runId then runDoc
          else world.loop.runDocs pipeline run }

def RevisionWorld.perform (world : RevisionWorld)
    (event : RevisionEvent) : RevisionWorld where
  store := world.store.write username (world.writes env config username
    event)
  loop := world.loopAfter env config username planId event

end System

end Agentcy.Plans
