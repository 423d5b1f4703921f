import Agentcy.Library.Run
import Agentcy.Plans.PlanRevisions

/-!
# Where revisions come from

Every document on the way to a revision is based on a draft that the plan
really had, and is meant for the revision after it.  This holds whatever is
known about drafts that were read earlier, so that it is stated for any such
knowledge.
-/

namespace Agentcy.Plans

open Agentcy.Library

section Write

variable (username : String) (store : PlanStore) (writes : PlanWrites)

def saveRevisions (records : List (Stamped PlanRevision))
    (revisions : String → Option PlanRevision) :
    String → Option PlanRevision :=
  records.foldl
    (fun saved record =>
      Function.update saved
        (planRevisionKey username record.value.planId
          record.value.revision)
        (some { record.value with username := username }))
    revisions

theorem foldl_savePlanRevision
    (records : List (Stamped PlanRevision)) (store : PlanStore) :
    records.foldl
        (fun saved record => saved.savePlanRevision username record.value)
        store =
      { store with
        revisions := saveRevisions username records store.revisions } := by
  induction records generalizing store with
  | nil =>
      rfl
  | cons record records inductionHypothesis =>
      rw [List.foldl_cons, inductionHypothesis]
      rfl

theorem drafts_write :
    (store.write username writes).drafts =
      match writes.draft with
      | none => store.drafts
      | some draft =>
          Function.update store.drafts (planKey username draft.planId)
            (some { draft with username := username }) := by
  unfold PlanStore.write
  rw [foldl_savePlanRevision]
  cases writes.suggestion <;> cases writes.publication <;>
    cases writes.draft <;> rfl

theorem applied_write :
    (store.write username writes).applied =
      match writes.draft with
      | none => store.applied
      | some _ => store.applied + 1 := by
  unfold PlanStore.write
  rw [foldl_savePlanRevision]
  cases writes.suggestion <;> cases writes.publication <;>
    cases writes.draft <;> rfl

theorem suggestions_write :
    (store.write username writes).suggestions =
      match writes.suggestion with
      | none => store.suggestions
      | some suggestion =>
          Function.update store.suggestions
            (planSuggestionKey username suggestion.value.suggestionId)
            (some { suggestion with
              value := { suggestion.value with username := username } }) := by
  unfold PlanStore.write
  rw [foldl_savePlanRevision]
  cases writes.suggestion <;> cases writes.publication <;>
    cases writes.draft <;> rfl

theorem candidates_write :
    (store.write username writes).candidates =
      match writes.publication with
      | none => store.candidates
      | some publication =>
          Function.update store.candidates publication.key
            (some publication.candidate) := by
  unfold PlanStore.write
  rw [foldl_savePlanRevision]
  cases writes.suggestion <;> cases writes.publication <;>
    cases writes.draft <;> rfl

theorem commands_write :
    (store.write username writes).commands =
      match writes.publication with
      | none => store.commands
      | some publication => store.commands ++ [publication.command] := by
  unfold PlanStore.write
  rw [foldl_savePlanRevision]
  cases writes.suggestion <;> cases writes.publication <;>
    cases writes.draft <;> rfl

theorem revisions_write :
    (store.write username writes).revisions =
      saveRevisions username writes.records store.revisions := by
  unfold PlanStore.write
  rw [foldl_savePlanRevision]
  cases writes.suggestion <;> cases writes.publication <;>
    cases writes.draft <;> rfl

end Write

section Services

variable {env : PlanEnv} {config : StrategistConfig} {username : String}

theorem suggestion?_spec
    {runId : String} {reading : Reading} {answer : LoopAnswer}
    {suggestion : PlanSuggestion}
    (made : suggestion? env username runId reading answer =
      some suggestion) :
    suggestion.planId = reading.draft.planId ∧
      suggestion.baseRevision = reading.draft.currentRevision ∧
      suggestion.candidateRevision =
        reading.draft.currentRevision + 1 := by
  unfold suggestion? at made
  simp only [Option.bind_eq_bind, Option.bind_eq_some_iff] at made
  obtain ⟨delta, _, _, _, ⟨graph, applied⟩, _, _, _, validation, _,
    rationale, _, same⟩ := made
  cases same
  exact ⟨rfl, rfl, rfl⟩

/-- The rest of a task event saves nothing, or a suggestion. -/
theorem finishTaskEvent_cases
    (env : PlanEnv) (config : StrategistConfig) (username : String)
    (loop : LoopState) (runId : String) (answer : LoopAnswer) :
    (finishTaskEvent env config username loop runId answer).1 = {} ∨
      ∃ reading suggestion, loop.inFlight runId = some reading ∧
        suggestion? env username runId reading.value answer =
          some suggestion ∧
        (finishTaskEvent env config username loop runId answer).1 =
          suggested config ⟨reading.value.draft, reading.stamp⟩
            suggestion := by
  unfold finishTaskEvent
  cases held : loop.inFlight runId with
  | none =>
      exact Or.inl rfl
  | some reading =>
      dsimp only
      cases made : suggestion? env username runId reading.value answer with
      | none =>
          exact Or.inl rfl
      | some suggestion =>
          exact Or.inr ⟨reading, suggestion, rfl, made, rfl⟩

/-- A decision saves nothing, a rejection, or the candidate of an approval. -/
theorem applySuggestionDecision_cases
    (env : PlanEnv) (username : String)
    (store : PlanStore) (loop : LoopState) (decision : SuggestionDecision) :
    let writes :=
      (applySuggestionDecision env username store loop decision).1
    writes = {} ∨
      ∃ suggestion,
        store.suggestions
            (planSuggestionKey username decision.suggestionId) =
          some suggestion ∧
        ((∃ graphSpec validation reason,
            writes =
              rejection suggestion
                { suggestion.value with
                  graphSpec := graphSpec
                  validation := validation }
                { suggestion.value with validation := validation }
                decision.decidedBy reason) ∨
          ∃ draft candidateGraph validation,
            store.drafts (planKey username suggestion.value.planId) =
              some draft ∧
            writes =
              { suggestion :=
                  some ⟨{ suggestion.value with
                      validation := some validation
                      status := .applied }, suggestion.stamp⟩
                publication :=
                  some (applyRevision ⟨draft, store.applied⟩
                    candidateGraph suggestion.value.delta validation
                    "human_approved" suggestion.value.suggestionId
                    decision.decidedBy) }) := by
  intro writes
  unfold writes applySuggestionDecision
  cases found : store.suggestions
      (planSuggestionKey username decision.suggestionId) with
  | none =>
      exact Or.inl rfl
  | some suggestion =>
      dsimp only
      split
      · exact Or.inl rfl
      · split
        · exact Or.inr ⟨suggestion, rfl, Or.inl
            ⟨suggestion.value.graphSpec, suggestion.value.validation,
              "human_rejected", rfl⟩⟩
        · cases held : store.drafts
              (planKey username suggestion.value.planId) with
          | none =>
              exact Or.inl rfl
          | some draft =>
              dsimp only
              split
              · exact Or.inl rfl
              · rename_i candidateGraph validation _
                split
                · exact Or.inr ⟨suggestion, rfl, Or.inr
                    ⟨draft, candidateGraph, validation, held, rfl⟩⟩
                · exact Or.inr ⟨suggestion, rfl, Or.inl
                    ⟨candidateGraph, some validation,
                      "validation_failed", rfl⟩⟩

theorem handleRevisePlan?_some_iff
    {store : PlanStore} {command : RevisePlanCommand}
    {semanticGraph : Option Json} {revision : AppliedRevision} :
    handleRevisePlan? store command semanticGraph = some revision ↔
      ∃ candidate draft,
        store.candidates command.payloadRef = some candidate ∧
        store.drafts (planKey command.username command.planId) =
          some draft ∧
        revision =
          appliedRevision command candidate semanticGraph draft := by
  unfold handleRevisePlan?
  simp only [Option.bind_eq_bind, Option.bind_eq_some_iff,
    Option.pure_def, Option.some.injEq]
  constructor
  · rintro ⟨candidate, found, draft, held, same⟩
    exact ⟨candidate, draft, found, held, same.symm⟩
  · rintro ⟨candidate, draft, found, held, same⟩
    exact ⟨candidate, found, draft, held, same.symm⟩

theorem RevisionWorld.applied?_some_iff
    {world : RevisionWorld} {event : RevisionEvent}
    {revision : AppliedRevision} :
    world.applied? event = some revision ↔
      ∃ index semanticGraph command candidate draft,
        event = .revise index semanticGraph ∧
        world.store.commands[index]? = some command ∧
        world.store.candidates command.payloadRef = some candidate ∧
        world.store.drafts (planKey command.username command.planId) =
          some draft ∧
        revision =
          appliedRevision command candidate semanticGraph draft := by
  cases event with
  | revise index semanticGraph =>
      simp only [RevisionWorld.applied?, Option.bind_eq_bind,
        Option.bind_eq_some_iff, handleRevisePlan?_some_iff,
        RevisionEvent.revise.injEq]
      constructor
      · rintro ⟨command, published, candidate, draft, found, held, same⟩
        exact ⟨index, semanticGraph, command, candidate, draft, ⟨rfl, rfl⟩,
          published, found, held, same⟩
      · rintro ⟨_, _, command, candidate, draft, ⟨rfl, rfl⟩, published,
          found, held, same⟩
        exact ⟨command, published, candidate, draft, found, held, same⟩
  | _ =>
      simp [RevisionWorld.applied?]

end Services

/-! ## Provenance -/

section Provenance

variable (username planId : String)

/-- The revision `next` follows a base of which `reads` tells what is known. -/
structure Based (reads : Nat → Int → Prop) (stamp : Nat)
    (base next : Int) : Prop where
  read : reads stamp base
  nonzero : base ≠ 0
  follows : next = base + 1

/-- All documents are about the plan and based on drafts that it had. -/
structure RevisionWorld.Dated (reads : Nat → Int → Prop)
    (draft : PlanDraft) (world : RevisionWorld) : Prop where
  stored :
    world.store.drafts (planKey username planId) = some draft
  owner : draft.username = username
  plan : draft.planId = planId
  now : reads world.store.applied draft.currentRevision
  readings : ∀ runId reading,
    world.loop.inFlight runId = some reading →
      reading.value.draft.username = username ∧
        reading.value.draft.planId = planId ∧
        reads reading.stamp reading.value.draft.currentRevision
  suggestions : ∀ key suggestion,
    world.store.suggestions key = some suggestion →
      suggestion.value.planId = planId ∧
        Based reads suggestion.stamp suggestion.value.baseRevision
          suggestion.value.candidateRevision
  candidates : ∀ key candidate,
    world.store.candidates key = some candidate →
      Based reads candidate.stamp candidate.value.baseRevision
        candidate.value.nextRevision
  commands : ∀ command ∈ world.store.commands,
    command.username = username ∧ command.planId = planId

/-- The same of what a call saves. -/
structure PlanWrites.Dated (reads : Nat → Int → Prop)
    (writes : PlanWrites) : Prop where
  suggestion : ∀ suggestion, writes.suggestion = some suggestion →
    suggestion.value.planId = planId ∧
      Based reads suggestion.stamp suggestion.value.baseRevision
        suggestion.value.candidateRevision
  publication : ∀ publication, writes.publication = some publication →
    publication.command.username = username ∧
      publication.command.planId = planId ∧
      Based reads publication.candidate.stamp
        publication.candidate.value.baseRevision
        publication.candidate.value.nextRevision
  records : ∀ record ∈ writes.records, record.value.planId = planId ∧
    ∃ base, record.value.parentRevision = some base ∧
      Based reads record.stamp base record.value.revision

variable {env : PlanEnv} {config : StrategistConfig}
  {username planId : String} {reads : Nat → Int → Prop}
  {draft : PlanDraft} {world : RevisionWorld}

theorem PlanDraft.currentRevision_ne_zero (draft : PlanDraft) :
    draft.currentRevision ≠ 0 := by
  unfold PlanDraft.currentRevision
  split
  · decide
  · assumption

theorem PlanWrites.dated_empty :
    PlanWrites.Dated username planId reads {} where
  suggestion := by
    intro _ none
    cases none
  publication := by
    intro _ none
    cases none
  records := by
    intro _ none
    cases none

theorem based_of_read
    {stamp : Nat} {draft : PlanDraft}
    (read : reads stamp draft.currentRevision) :
    Based reads stamp draft.currentRevision (draft.currentRevision + 1) :=
  ⟨read, draft.currentRevision_ne_zero, rfl⟩

theorem dated_suggested
    {runId : String} {reading : Stamped Reading} {answer : LoopAnswer}
    {suggestion : PlanSuggestion}
    (owner : reading.value.draft.username = username)
    (plan : reading.value.draft.planId = planId)
    (read : reads reading.stamp reading.value.draft.currentRevision)
    (made : suggestion? env username runId reading.value answer =
      some suggestion) :
    (suggested config ⟨reading.value.draft, reading.stamp⟩
      suggestion).Dated username planId reads := by
  obtain ⟨samePlan, base, candidate⟩ := suggestion?_spec made
  rw [plan] at samePlan
  have based : Based reads reading.stamp suggestion.baseRevision
      suggestion.candidateRevision := by
    rw [base, candidate]
    exact based_of_read read
  have recorded : ∀ status createdBy reason,
      (suggestion.toRevision status createdBy reason).planId = planId ∧
        ∃ base, (suggestion.toRevision status createdBy
            reason).parentRevision = some base ∧
          Based reads reading.stamp base
            (suggestion.toRevision status createdBy reason).revision :=
    fun _ _ _ => ⟨samePlan, suggestion.baseRevision, rfl, based⟩
  unfold suggested
  dsimp only
  split
  · refine ⟨?_, ?_, ?_⟩
    · rintro _ ⟨⟩
      exact ⟨samePlan, based⟩
    · intro _ none
      cases none
    · intro record among
      rcases List.mem_pair.mp among with rfl | rfl
      · exact recorded _ _ _
      · exact recorded _ _ _
  · split
    · refine ⟨?_, ?_, ?_⟩
      · rintro _ ⟨⟩
        exact ⟨samePlan, based⟩
      · rintro _ ⟨⟩
        exact ⟨owner, plan, based_of_read read⟩
      · intro record among
        rw [List.mem_singleton.mp among]
        exact recorded _ _ _
    · refine ⟨?_, ?_, ?_⟩
      · rintro _ ⟨⟩
        exact ⟨samePlan, based⟩
      · intro _ none
        cases none
      · intro record among
        rw [List.mem_singleton.mp among]
        exact recorded _ _ _

theorem RevisionWorld.Dated.writes
    (env : PlanEnv) (config : StrategistConfig)
    (dated : world.Dated username planId reads draft)
    (event : RevisionEvent) :
    (world.writes env config username event).Dated username planId
      reads := by
  cases event with
  | taskEvent event now =>
      exact PlanWrites.dated_empty
  | runStored pipelineId runId runDoc =>
      exact PlanWrites.dated_empty
  | answered runId answer =>
      change (finishTaskEvent env config username world.loop runId
        answer).1.Dated username planId reads
      rcases finishTaskEvent_cases env config username world.loop runId
          answer with
        nothing | ⟨reading, suggestion, held, made, writes⟩
      · rw [nothing]
        exact PlanWrites.dated_empty
      · obtain ⟨owner, plan, read⟩ := dated.readings runId reading held
        rw [writes]
        exact dated_suggested owner plan read made
  | decide decision =>
      change (applySuggestionDecision env username world.store world.loop
        decision).1.Dated username planId reads
      rcases applySuggestionDecision_cases env username world.store
          world.loop decision with
        nothing | ⟨suggestion, found, ⟨graphSpec, validation, reason,
          writes⟩ | ⟨held, candidateGraph, validation, stored, writes⟩⟩
      · rw [nothing]
        exact PlanWrites.dated_empty
      · obtain ⟨samePlan, based⟩ := dated.suggestions _ suggestion found
        rw [writes]
        refine ⟨?_, ?_, ?_⟩
        · rintro _ ⟨⟩
          exact ⟨samePlan, based⟩
        · intro _ none
          cases none
        · intro record among
          rw [List.mem_singleton.mp among]
          exact ⟨samePlan, _, rfl, based⟩
      · obtain ⟨samePlan, based⟩ := dated.suggestions _ suggestion found
        rw [samePlan, dated.stored] at stored
        cases stored
        rw [writes]
        refine ⟨?_, ?_, ?_⟩
        · rintro _ ⟨⟩
          exact ⟨samePlan, based⟩
        · rintro _ ⟨⟩
          exact ⟨dated.owner, dated.plan, based_of_read dated.now⟩
        · intro _ none
          cases none
  | revise index semanticGraph =>
      unfold RevisionWorld.writes
      dsimp only
      split
      · exact PlanWrites.dated_empty
      · rename_i revision applies
        obtain ⟨_, _, command, candidate, held, _, published, found, _,
          rfl⟩ := RevisionWorld.applied?_some_iff.mp applies
        refine ⟨?_, ?_, ?_⟩
        · intro _ none
          cases none
        · intro _ none
          cases none
        · intro record among
          rw [List.mem_singleton.mp among]
          exact ⟨(dated.commands command
              (List.mem_of_getElem? published)).2, _, rfl,
            dated.candidates _ candidate found⟩

/-! ## What stays in flight -/

theorem LoopState.inFlight_setRunPauseState
    (loop : LoopState) (pipelineId runId : String) (paused : Bool)
    (reason suggestionId : Json) (now : String) :
    (loop.setRunPauseState pipelineId runId paused reason suggestionId
      now).inFlight = loop.inFlight := by
  unfold LoopState.setRunPauseState
  split
  · rfl
  · rfl

theorem LoopState.inFlight_noteSuggestion
    (loop : LoopState) (runId : String) (reading : Reading)
    (answer : LoopAnswer) (suggestion : PlanSuggestion) :
    (loop.noteSuggestion config runId reading answer
      suggestion).inFlight = loop.inFlight := by
  unfold LoopState.noteSuggestion
  dsimp only
  split
  · rfl
  · split
    · rfl
    · exact LoopState.inFlight_setRunPauseState _ _ _ _ _ _ _

theorem LoopState.inFlight_resume
    (loop : LoopState) (suggestion : PlanSuggestion) (now : String) :
    (loop.resume suggestion now).inFlight = loop.inFlight := by
  unfold LoopState.resume
  split
  · rfl
  · exact LoopState.inFlight_setRunPauseState _ _ _ _ _ _ _

theorem LoopState.inFlight_countRejection
    (loop : LoopState) (suggestion : PlanSuggestion) :
    (loop.countRejection suggestion).inFlight = loop.inFlight := by
  unfold LoopState.countRejection
  split
  · rfl
  · rfl

theorem LoopState.inFlight_resetStreak
    (loop : LoopState) (suggestion : PlanSuggestion) :
    (loop.resetStreak suggestion).inFlight = loop.inFlight := by
  unfold LoopState.resetStreak
  split
  · rfl
  · rfl

theorem inFlight_applySuggestionDecision
    (store : PlanStore) (loop : LoopState)
    (decision : SuggestionDecision) :
    (applySuggestionDecision env username store loop
      decision).2.inFlight = loop.inFlight := by
  unfold applySuggestionDecision
  split
  · rfl
  · split
    · rfl
    · split
      · rw [LoopState.inFlight_resume, LoopState.inFlight_countRejection]
      · dsimp only
        split
        · exact LoopState.inFlight_resetStreak _ _
        · split
          · exact LoopState.inFlight_resetStreak _ _
          · split
            · rw [LoopState.inFlight_resume,
                LoopState.inFlight_resetStreak]
            · rw [LoopState.inFlight_resume,
                LoopState.inFlight_resetStreak]

theorem LoopState.inFlight_noteRevision
    (loop : LoopState) (command : RevisePlanCommand) (revision : Int) :
    (loop.noteRevision command revision).inFlight = loop.inFlight := by
  unfold LoopState.noteRevision
  split
  · rfl
  · split
    · rfl
    · rfl

/-- A run in flight after an event was so before, or its event has just read
the stored draft. -/
theorem RevisionWorld.inFlight_loopAfter
    (event : RevisionEvent) {runId : String} {reading : Stamped Reading}
    (held : (world.loopAfter env config username planId
      event).inFlight runId = some reading) :
    world.loop.inFlight runId = some reading ∨
      world.store.drafts (planKey username planId) =
          some reading.value.draft ∧
        reading.stamp = world.store.applied := by
  cases event with
  | taskEvent event now =>
      unfold RevisionWorld.loopAfter LoopState.begin at held
      dsimp only at held
      split at held
      · rename_i runDoc draft _ stored
        split at held
        · dsimp only at held
          rw [Function.update_apply] at held
          split at held
          · cases held
            exact Or.inr ⟨stored, rfl⟩
          · exact Or.inl held
        · exact Or.inl held
      · exact Or.inl held
  | answered answeredRun answer =>
      unfold RevisionWorld.loopAfter finishTaskEvent at held
      dsimp only at held
      split at held
      · exact Or.inl held
      · have released : ∀ {loop : LoopState},
            loop.inFlight = world.loop.inFlight →
              (loop.release answeredRun).inFlight runId = some reading →
                world.loop.inFlight runId = some reading := by
          intro loop same found
          unfold LoopState.release at found
          dsimp only at found
          rw [Function.update_apply, same] at found
          split at found
          · cases found
          · exact found
        split at held
        · exact Or.inl (released rfl held)
        · rw [LoopState.inFlight_noteSuggestion] at held
          exact Or.inl (released rfl held)
  | decide decision =>
      unfold RevisionWorld.loopAfter at held
      dsimp only at held
      rw [inFlight_applySuggestionDecision] at held
      exact Or.inl held
  | revise index semanticGraph =>
      unfold RevisionWorld.loopAfter at held
      dsimp only at held
      split at held
      · rw [LoopState.inFlight_noteRevision] at held
        exact Or.inl held
      · exact Or.inl held
  | runStored pipelineId storedRun runDoc =>
      exact Or.inl held

theorem Based.mono
    {readsNext : Nat → Int → Prop} {stamp : Nat} {base next : Int}
    (based : Based reads stamp base next)
    (carry : ∀ stamp base, reads stamp base → readsNext stamp base) :
    Based readsNext stamp base next :=
  ⟨carry _ _ based.read, based.nonzero, based.follows⟩

/-- What is known about earlier drafts is carried over an event. -/
theorem RevisionWorld.Dated.perform
    (dated : world.Dated username planId reads draft)
    (event : RevisionEvent)
    {next : PlanDraft} {readsNext : Nat → Int → Prop}
    (stored : (world.perform env config username planId
      event).store.drafts (planKey username planId) = some next)
    (owner : next.username = username) (plan : next.planId = planId)
    (now : readsNext (world.perform env config username planId
      event).store.applied next.currentRevision)
    (carry : ∀ stamp base, reads stamp base → readsNext stamp base) :
    (world.perform env config username planId event).Dated username planId
      readsNext next := by
  have saved := dated.writes env config event
  refine ⟨stored, owner, plan, now, ?_, ?_, ?_, ?_⟩
  · intro runId reading held
    rcases RevisionWorld.inFlight_loopAfter event held with
      before | ⟨present, stamp⟩
    · obtain ⟨sameOwner, samePlan, read⟩ :=
        dated.readings runId reading before
      exact ⟨sameOwner, samePlan, carry _ _ read⟩
    · rw [dated.stored] at present
      cases present
      rw [stamp]
      exact ⟨dated.owner, dated.plan, carry _ _ dated.now⟩
  · intro key suggestion found
    unfold RevisionWorld.perform at found
    dsimp only at found
    rw [suggestions_write] at found
    cases written : (world.writes env config username event).suggestion with
    | none =>
        rw [written] at found
        obtain ⟨samePlan, based⟩ := dated.suggestions key suggestion found
        exact ⟨samePlan, based.mono carry⟩
    | some new =>
        rw [written] at found
        dsimp only at found
        rw [Function.update_apply] at found
        split at found
        · cases found
          obtain ⟨samePlan, based⟩ := saved.suggestion new written
          exact ⟨samePlan, based.mono carry⟩
        · obtain ⟨samePlan, based⟩ :=
            dated.suggestions key suggestion found
          exact ⟨samePlan, based.mono carry⟩
  · intro key candidate found
    unfold RevisionWorld.perform at found
    dsimp only at found
    rw [candidates_write] at found
    cases written :
        (world.writes env config username event).publication with
    | none =>
        rw [written] at found
        exact (dated.candidates key candidate found).mono carry
    | some publication =>
        rw [written] at found
        dsimp only at found
        rw [Function.update_apply] at found
        split at found
        · cases found
          exact (saved.publication publication written).2.2.mono carry
        · exact (dated.candidates key candidate found).mono carry
  · intro command among
    unfold RevisionWorld.perform at among
    dsimp only at among
    rw [commands_write] at among
    cases written :
        (world.writes env config username event).publication with
    | none =>
        rw [written] at among
        exact dated.commands command among
    | some publication =>
        rw [written] at among
        rcases List.mem_append.mp among with before | new
        · exact dated.commands command before
        · rw [List.mem_singleton.mp new]
          obtain ⟨sameOwner, samePlan, _⟩ :=
            saved.publication publication written
          exact ⟨sameOwner, samePlan⟩

/-! ## The draft after an event -/

theorem RevisionWorld.draft_writes
    (event : RevisionEvent) :
    (world.writes env config username event).draft =
      (world.applied? event).map AppliedRevision.updated := by
  cases event with
  | taskEvent event now =>
      rfl
  | runStored pipelineId runId runDoc =>
      rfl
  | answered runId answer =>
      change (finishTaskEvent env config username world.loop runId
        answer).1.draft = none
      rcases finishTaskEvent_cases env config username world.loop runId
          answer with nothing | ⟨reading, suggestion, _, _, writes⟩
      · rw [nothing]
      · rw [writes]
        unfold suggested
        dsimp only
        split
        · rfl
        · split
          · rfl
          · rfl
  | decide decision =>
      change (applySuggestionDecision env username world.store world.loop
        decision).1.draft = none
      rcases applySuggestionDecision_cases env username world.store
          world.loop decision with
        nothing | ⟨suggestion, _, ⟨graphSpec, validation, reason,
          writes⟩ | ⟨held, candidateGraph, validation, _, writes⟩⟩
      · rw [nothing]
      · rw [writes]
        rfl
      · rw [writes]
  | revise index semanticGraph =>
      unfold RevisionWorld.writes
      dsimp only
      split
      · rename_i nothing
        rw [nothing]
        rfl
      · rename_i revision applies
        rw [applies]
        rfl

/-- An event that applies no revision leaves the draft alone. -/
theorem RevisionWorld.store_of_not_applied
    {event : RevisionEvent} (nothing : world.applied? event = none) :
    (world.perform env config username planId event).store.drafts =
        world.store.drafts ∧
      (world.perform env config username planId event).store.applied =
        world.store.applied := by
  unfold RevisionWorld.perform
  dsimp only
  rw [drafts_write, applied_write, RevisionWorld.draft_writes, nothing]
  exact ⟨rfl, rfl⟩

theorem RevisionWorld.Dated.replaced_of_applied
    (dated : world.Dated username planId reads draft)
    {event : RevisionEvent} {revision : AppliedRevision}
    (applies : world.applied? event = some revision) :
    revision.replaced = draft := by
  obtain ⟨_, _, command, _, _, _, published, _, stored, same⟩ :=
    RevisionWorld.applied?_some_iff.mp applies
  obtain ⟨ofOwner, ofPlan⟩ :=
    dated.commands command (List.mem_of_getElem? published)
  rw [ofOwner, ofPlan, dated.stored] at stored
  rw [same]
  exact (Option.some.inj stored).symm

/-- An event that applies a revision replaces the plan's draft by it. -/
theorem RevisionWorld.Dated.store_of_applied
    (dated : world.Dated username planId reads draft)
    {event : RevisionEvent} {revision : AppliedRevision}
    (applies : world.applied? event = some revision) :
    revision.updated.username = username ∧
      revision.updated.planId = planId ∧
      (world.perform env config username planId event).store.drafts
          (planKey username planId) = some revision.updated ∧
      (world.perform env config username planId event).store.applied =
        world.store.applied + 1 := by
  have replaced := dated.replaced_of_applied applies
  obtain ⟨index, semanticGraph, command, candidate, held, _, _, _, _,
    same⟩ := RevisionWorld.applied?_some_iff.mp applies
  rw [same] at replaced
  have sameDraft : held = draft := replaced
  have owner : revision.updated.username = username := by
    rw [same, sameDraft]
    exact dated.owner
  have plan : revision.updated.planId = planId := by
    rw [same, sameDraft]
    exact dated.plan
  refine ⟨owner, plan, ?_, ?_⟩
  · unfold RevisionWorld.perform
    dsimp only
    rw [drafts_write, RevisionWorld.draft_writes, applies]
    dsimp only [Option.map_some]
    rw [← plan, Function.update_self]
    exact congrArg _ (by rw [← owner])
  · unfold RevisionWorld.perform
    dsimp only
    rw [applied_write, RevisionWorld.draft_writes, applies]
    rfl

end Provenance

end Agentcy.Plans
