import Agentcy.Plans.RevisionOrder

/-!
# Records of applied revisions

A record is kept under the number of its revision, and every suggestion takes
the number after the revision that it was read from.  A record of an applied
revision is overwritten exactly by what was suggested or applied from a draft
that has been replaced since.
-/

namespace Agentcy.Plans

open Agentcy.Library

def IsApplied (store : PlanStore) (key : String) : Prop :=
  ∃ record, store.revisions key = some record ∧ record.status = .applied

section Property

variable (env : PlanEnv) (config : StrategistConfig)
  (username planId : String)

/-- Records of applied revisions stay as they are, and no other record is
written under their keys. -/
def KeepsAppliedRecords (world : RevisionWorld) (event : RevisionEvent) :
    Prop :=
  ∀ key record, world.store.revisions key = some record →
    record.status = .applied →
      (∀ saved ∈ (world.writes env config username event).records,
        planRevisionKey username saved.value.planId
          saved.value.revision ≠ key) ∧
      (world.perform env config username planId event).store.revisions
        key = some record

/-- The records that a call saves are about suggestions and candidates of
which the draft has not been replaced since it was read. -/
def SavesCurrentRecords (world : RevisionWorld) (event : RevisionEvent) :
    Prop :=
  ∀ saved ∈ (world.writes env config username event).records,
    saved.stamp = world.store.applied

end Property

/-- The plan that `build_plan_draft` has just saved with its record. -/
def RevisionWorld.built (username planId pipelineId : String)
    (pipelineRunId : Option String) (graphSpec : Fields)
    (loop : LoopState) : RevisionWorld :=
  let draft :=
    builtDraft planId username pipelineId pipelineRunId graphSpec
  { store :=
      { drafts :=
          Function.update (fun _ => none) (planKey username planId)
            (some draft)
        revisions :=
          Function.update (fun _ => none)
            (planRevisionKey username planId 1)
            (some {
              planId := planId
              username := username
              pipelineId := pipelineId
              pipelineRunId := pipelineRunId
              revision := 1
              parentRevision := none
              graphSpec := graphSpec
              delta := none
              status := .applied
              createdBy := some "graph_builder"
              reason := some "initial_plan"
              validation := none }) }
    loop := { loop with inFlight := fun _ => none } }

theorem planRevisionKey_inj
    (username planId : String) {first second : Int}
    (same : planRevisionKey username planId first =
      planRevisionKey username planId second) : first = second := by
  unfold planRevisionKey at same
  have lists := congrArg String.toList same
  apply PyText.toString_int_inj
  simpa using lists

theorem saveRevisions_of_other
    (username : String) {records : List (Stamped PlanRevision)}
    (revisions : String → Option PlanRevision) {key : String}
    (other : ∀ saved ∈ records,
      planRevisionKey username saved.value.planId
        saved.value.revision ≠ key) :
    saveRevisions username records revisions key = revisions key := by
  unfold saveRevisions
  induction records generalizing revisions with
  | nil =>
      rfl
  | cons saved records inductionHypothesis =>
      rw [List.foldl_cons, inductionHypothesis _ fun later among =>
        other later (List.mem_cons_of_mem saved among)]
      exact Function.update_of_ne
        (other saved List.mem_cons_self).symm _ _

/-- A record was stored before, or it is one of those that are saved. -/
theorem saveRevisions_some
    {username : String} {records : List (Stamped PlanRevision)}
    {revisions : String → Option PlanRevision} {key : String}
    {record : PlanRevision}
    (stored : saveRevisions username records revisions key =
      some record) :
    revisions key = some record ∨
      ∃ saved ∈ records,
        key = planRevisionKey username saved.value.planId
            saved.value.revision ∧
          record.status = saved.value.status := by
  unfold saveRevisions at stored
  induction records generalizing revisions with
  | nil =>
      exact Or.inl stored
  | cons saved records inductionHypothesis =>
      rcases inductionHypothesis stored with before | ⟨later, among, named⟩
      · dsimp only at before
        rw [Function.update_apply] at before
        split at before
        · rename_i here
          cases before
          exact Or.inr ⟨saved, List.mem_cons_self, here, rfl⟩
        · exact Or.inl before
      · exact Or.inr ⟨later, List.mem_cons_of_mem saved among, named⟩

section Event

variable {env : PlanEnv} {config : StrategistConfig}
  {username planId : String} {draft : PlanDraft} {world : RevisionWorld}

/-- What is known about bases that were read before: the revision after each
has been applied. -/
def ReadApplied (username planId : String) (world : RevisionWorld)
    (draft : PlanDraft) : Nat → Int → Prop :=
  ReadAt world.store.applied draft.currentRevision fun revision =>
    IsApplied world.store (planRevisionKey username planId revision)

/-- Nothing has been applied beyond the present draft. -/
structure Recorded (username planId : String) (draft : PlanDraft)
    (world : RevisionWorld) : Prop where
  dated : world.Dated username planId
    (ReadApplied username planId world draft) draft
  bounded : ∀ revision,
    IsApplied world.store (planRevisionKey username planId revision) →
      revision ≤ draft.currentRevision

theorem saved_current_iff
    (recorded : Recorded username planId draft world)
    {event : RevisionEvent} {saved : Stamped PlanRevision}
    (among : saved ∈ (world.writes env config username event).records) :
    saved.stamp = world.store.applied ↔
      ¬ IsApplied world.store (planRevisionKey username
        saved.value.planId saved.value.revision) := by
  obtain ⟨plan, base, _, based⟩ :=
    (recorded.dated.writes env config event).records saved among
  have free : ¬ IsApplied world.store
      (planRevisionKey username planId (draft.currentRevision + 1)) := by
    intro applied
    have bound := recorded.bounded _ applied
    omega
  rw [plan, based.follows]
  exact based.read.stamp_eq_iff free

theorem keepsAppliedRecords_iff
    (recorded : Recorded username planId draft world)
    (event : RevisionEvent) :
    KeepsAppliedRecords env config username planId world event ↔
      SavesCurrentRecords env config username world event := by
  constructor
  · intro keeps saved among
    rw [saved_current_iff recorded among]
    rintro ⟨record, stored, applied⟩
    exact (keeps _ record stored applied).1 saved among rfl
  · intro current key record stored applied
    have other : ∀ saved ∈
        (world.writes env config username event).records,
        planRevisionKey username saved.value.planId
          saved.value.revision ≠ key := by
      intro saved among same
      apply (saved_current_iff recorded among).mp (current saved among)
      exact ⟨record, same ▸ stored, applied⟩
    refine ⟨other, ?_⟩
    unfold RevisionWorld.perform
    dsimp only
    rw [revisions_write, saveRevisions_of_other _ _ other]
    exact stored

/-- An event that applies no revision saves no record as applied. -/
theorem status_of_not_applied
    {event : RevisionEvent} (nothing : world.applied? event = none)
    {saved : Stamped PlanRevision}
    (among : saved ∈ (world.writes env config username event).records) :
    saved.value.status ≠ .applied := by
  cases event with
  | taskEvent event now =>
      cases among
  | runStored pipelineId runId runDoc =>
      cases among
  | answered runId answer =>
      change saved ∈ (finishTaskEvent env config username world.loop runId
        answer).1.records at among
      rcases finishTaskEvent_cases env config username world.loop runId
          answer with none | ⟨reading, suggestion, _, _, writes⟩
      · rw [none] at among
        cases among
      · rw [writes] at among
        unfold suggested at among
        dsimp only at among
        split at among
        · rcases List.mem_pair.mp among with rfl | rfl
          · exact RevisionStatus.noConfusion
          · exact RevisionStatus.noConfusion
        · split at among
          · rw [List.mem_singleton.mp among]
            exact RevisionStatus.noConfusion
          · rw [List.mem_singleton.mp among]
            exact RevisionStatus.noConfusion
  | decide decision =>
      change saved ∈ (applySuggestionDecision env username world.store
        world.loop decision).1.records at among
      rcases applySuggestionDecision_cases env username world.store
          world.loop decision with
        none | ⟨suggestion, _, ⟨graphSpec, validation, reason,
          writes⟩ | ⟨held, candidateGraph, validation, _, writes⟩⟩
      · rw [none] at among
        cases among
      · rw [writes] at among
        rw [List.mem_singleton.mp among]
        exact RevisionStatus.noConfusion
      · rw [writes] at among
        cases among
  | revise index semanticGraph =>
      unfold RevisionWorld.writes at among
      dsimp only at among
      rw [nothing] at among
      cases among

theorem isApplied_perform
    {event : RevisionEvent} {revision : Int}
    (applied : IsApplied
      (world.perform env config username planId event).store
      (planRevisionKey username planId revision)) :
    IsApplied world.store (planRevisionKey username planId revision) ∨
      ∃ saved ∈ (world.writes env config username event).records,
        planRevisionKey username planId revision =
            planRevisionKey username saved.value.planId
              saved.value.revision ∧
          saved.value.status = .applied := by
  obtain ⟨record, stored, status⟩ := applied
  unfold RevisionWorld.perform at stored
  dsimp only at stored
  rw [revisions_write] at stored
  rcases saveRevisions_some stored with
    before | ⟨saved, among, named, same⟩
  · exact Or.inl ⟨record, before, status⟩
  · exact Or.inr ⟨saved, among, named, same ▸ status⟩

theorem IsApplied.perform
    {event : RevisionEvent} {key : String}
    (keeps : KeepsAppliedRecords env config username planId world event)
    (applied : IsApplied world.store key) :
    IsApplied (world.perform env config username planId event).store
      key := by
  obtain ⟨record, stored, status⟩ := applied
  exact ⟨record, (keeps key record stored status).2, status⟩

/-- The event of a call that saves current records leads to a plan of which
nothing has been applied beyond its draft. -/
theorem Recorded.perform
    (recorded : Recorded username planId draft world)
    {event : RevisionEvent}
    (current : SavesCurrentRecords env config username world event) :
    ∃ next, Recorded username planId next
      (world.perform env config username planId event) := by
  have keeps := (keepsAppliedRecords_iff recorded event).mpr current
  have dated := recorded.dated
  cases applies : world.applied? event with
  | none =>
      obtain ⟨drafts, applied⟩ :=
        RevisionWorld.store_of_not_applied applies
      refine ⟨draft, dated.perform event ?_ dated.owner dated.plan ?_ ?_,
        ?_⟩
      · rw [drafts]
        exact dated.stored
      · exact ReadAt.now _ _ _
      · intro stamp base read
        unfold ReadApplied
        rw [applied]
        exact ⟨read.past, read.current, fun outdated =>
          (read.outdated outdated).perform keeps⟩
      · intro revision isApplied
        rcases isApplied_perform isApplied with
          before | ⟨saved, among, _, status⟩
        · exact recorded.bounded revision before
        · exact absurd status (status_of_not_applied applies among)
  | some revision =>
      obtain ⟨owner, plan, stored, applied⟩ :=
        dated.store_of_applied applies
      obtain ⟨index, semanticGraph, command, candidate, held, isRevise,
        published, found, _, same⟩ :=
          RevisionWorld.applied?_some_iff.mp applies
      have writes : world.writes env config username event =
          { draft := some revision.updated
            records := [revision.record] } := by
        subst isRevise
        unfold RevisionWorld.writes
        dsimp only
        rw [applies]
      have among : revision.record ∈
          (world.writes env config username event).records := by
        rw [writes]
        exact List.mem_singleton.mpr rfl
      have based := dated.candidates _ candidate found
      have base : candidate.value.baseRevision =
          draft.currentRevision := by
        apply based.read.current
        have known := current revision.record among
        rw [same] at known
        exact known
      have number : revision.record.value.revision =
          draft.currentRevision + 1 := by
        rw [same, ← base]
        exact based.follows
      have updated : revision.updated.revision =
          draft.currentRevision + 1 := by
        rw [same, ← base]
        exact based.follows
      have samePlan : revision.record.value.planId = planId :=
        ((dated.writes env config event).records _ among).1
      have raised := revision_le_currentRevision revision.updated
      have recordedNext : IsApplied
          (world.perform env config username planId event).store
          (planRevisionKey username planId
            (draft.currentRevision + 1)) := by
        refine ⟨{ revision.record.value with username := username }, ?_,
          ?_⟩
        · unfold RevisionWorld.perform
          dsimp only
          rw [revisions_write, writes, ← samePlan, ← number]
          exact Function.update_self _ _ _
        · rw [same]
          rfl
      refine ⟨revision.updated,
        dated.perform event stored owner plan ?_ ?_, ?_⟩
      · exact ReadAt.now _ _ _
      · intro stamp base read
        unfold ReadApplied
        rw [applied]
        exact read.replaced _ (fun other before => before.perform keeps)
          recordedNext
      · intro other isApplied
        rcases isApplied_perform isApplied with
          before | ⟨saved, isSaved, named, _⟩
        · have bound := recorded.bounded other before
          omega
        · rw [writes] at isSaved
          rw [List.mem_singleton.mp isSaved, samePlan, number] at named
          have sameNumber := planRevisionKey_inj username planId named
          omega

end Event

theorem recorded_built
    (username planId pipelineId : String)
    (pipelineRunId : Option String) (graphSpec : Fields)
    (loop : LoopState) :
    Recorded username planId
      (builtDraft planId username pipelineId pipelineRunId graphSpec)
      (.built username planId pipelineId pipelineRunId graphSpec
        loop) where
  dated :=
    { stored := by
        unfold RevisionWorld.built
        dsimp only
        rw [Function.update_self]
      owner := rfl
      plan := rfl
      now := ReadAt.now _ _ _
      readings := by
        intro _ _ none
        cases none
      suggestions := by
        intro _ _ none
        cases none
      candidates := by
        intro _ _ none
        cases none
      commands := by
        intro _ none
        cases none }
  bounded := by
    rintro revision ⟨record, stored, _⟩
    unfold RevisionWorld.built at stored
    dsimp only at stored
    rw [Function.update_apply] at stored
    split at stored
    · rename_i same
      exact (planRevisionKey_inj username planId same).le
    · cases stored

/-- From every plan that has just been built, over every order of task
events, decisions and revise commands: all calls leave the records of applied
revisions alone, exactly when all records that they save are about a draft
that is still the stored one. -/
theorem applied_records_kept_iff
    (env : PlanEnv) (config : StrategistConfig)
    (username planId pipelineId : String)
    (pipelineRunId : Option String) (graphSpec : Fields)
    (loop : LoopState) (events : List RevisionEvent) :
    EveryStep (RevisionWorld.perform env config username planId)
        (KeepsAppliedRecords env config username planId)
        (.built username planId pipelineId pipelineRunId graphSpec loop)
        events ↔
      EveryStep (RevisionWorld.perform env config username planId)
        (SavesCurrentRecords env config username)
        (.built username planId pipelineId pipelineRunId graphSpec loop)
        events := by
  apply everyStep_iff_of_invariant fun world =>
    ∃ draft, Recorded username planId draft world
  · rintro world event ⟨draft, recorded⟩
    exact keepsAppliedRecords_iff recorded event
  · rintro world event ⟨draft, recorded⟩ current
    exact recorded.perform current
  · exact ⟨_, recorded_built username planId pipelineId pipelineRunId
      graphSpec loop⟩

/-! ## A rejection under the number of an applied revision -/

def asksHuman : StrategistConfig :=
  { autoApplying with autoApply := false, requireHuman := true }

def decided (suggestionId : String) (approved : Bool) : RevisionEvent :=
  .decide
    { suggestionId := suggestionId
      approved := approved
      approver := none
      checkedAt := "2025-01-01T00:00:00+00:00"
      shaclEngine := none }

/-- Both runs suggest revision 2; the first suggestion is approved and
applied, and the second is rejected. -/
def approveFirstRejectSecond : List RevisionEvent :=
  [completedIn "run-1", completedIn "run-2",
    prioritises "run-1" "s-1" 1, prioritises "run-2" "s-2" 2,
    decided "s-1" true, .revise 0 none, decided "s-2" false]

theorem rejection_overwrites_applied_record :
    ¬ EveryStep
      (RevisionWorld.perform plainEnv asksHuman "alice" "plan-1")
      (KeepsAppliedRecords plainEnv asksHuman "alice" "plan-1")
      (.built "alice" "plan-1" "pipe-1" none oneTaskGraph twoRuns)
      approveFirstRejectSecond := by
  intro every
  have last := (everyStep_iff_split _ _ _ _).mp every
    (approveFirstRejectSecond.take 6) (decided "s-2" false) [] rfl
  have before :
      ((run (RevisionWorld.perform plainEnv asksHuman "alice" "plan-1")
          (.built "alice" "plan-1" "pipe-1" none oneTaskGraph twoRuns)
          (approveFirstRejectSecond.take 6)).store.revisions
            (planRevisionKey "alice" "plan-1" 2)).map
          PlanRevision.status = some .applied := by
    decide +kernel
  have after :
      ((run (RevisionWorld.perform plainEnv asksHuman "alice" "plan-1")
          (.built "alice" "plan-1" "pipe-1" none oneTaskGraph twoRuns)
          approveFirstRejectSecond).store.revisions
            (planRevisionKey "alice" "plan-1" 2)).map
          PlanRevision.status = some .rejected := by
    decide +kernel
  obtain ⟨record, stored, status⟩ := Option.map_eq_some_iff.mp before
  have kept := (last _ record stored status).2
  have overwritten :
      ((run (RevisionWorld.perform plainEnv asksHuman "alice" "plan-1")
          (.built "alice" "plan-1" "pipe-1" none oneTaskGraph twoRuns)
          approveFirstRejectSecond).store.revisions
            (planRevisionKey "alice" "plan-1" 2)) = some record :=
    kept
  rw [overwritten, Option.map_some, status] at after
  cases after

end Agentcy.Plans
