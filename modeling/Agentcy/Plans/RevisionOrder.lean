import Agentcy.Plans.RevisionProvenance
import Agentcy.Plans.ValidPlans

/-!
# Revisions that replace the revision they are based on

`handle_revise_plan` applies a candidate to whatever draft is stored.  The
revisions of a plan follow one another exactly as long as no candidate is
applied of which the draft has been replaced since it was read.
-/

namespace Agentcy.Plans

open Agentcy.Library

/-- An applied revision raises the revision of the stored draft, and its
record names the revision that it replaced as its parent. -/
def RevisesInOrder (world : RevisionWorld) (event : RevisionEvent) :
    Prop :=
  ∀ revision, world.applied? event = some revision →
    revision.replaced.revision < revision.updated.revision ∧
      revision.record.value.parentRevision =
        some revision.replaced.revision

/-- The candidate that a revise command is about was computed from the draft
that is still stored, whose revision is not 0. -/
def CandidateIsCurrent (world : RevisionWorld) : RevisionEvent → Prop
  | .revise index _ =>
      ∀ command candidate draft,
        world.store.commands[index]? = some command →
          world.store.candidates command.payloadRef = some candidate →
            world.store.drafts
                (planKey command.username command.planId) = some draft →
              candidate.stamp = world.store.applied ∧ draft.revision ≠ 0
  | _ => True

/-- Nothing is in flight yet for the plan of the draft. -/
def RevisionWorld.starting (username : String) (draft : PlanDraft)
    (loop : LoopState) : RevisionWorld where
  store :=
    { drafts :=
        Function.update (fun _ => none) (planKey username draft.planId)
          (some { draft with username := username }) }
  loop := { loop with inFlight := fun _ => none }

variable
  {username planId : String} {draft : PlanDraft} {world : RevisionWorld}

theorem RevisionWorld.dated_starting
    (username : String) (draft : PlanDraft) (loop : LoopState)
    {reads : Nat → Int → Prop} (now : reads 0 draft.currentRevision) :
    (RevisionWorld.starting username draft loop).Dated username
      draft.planId reads { draft with username := username } where
  stored := by
    unfold RevisionWorld.starting
    dsimp only
    rw [Function.update_self]
  owner := rfl
  plan := rfl
  now := now
  readings := by
    intro _ _ none
    cases none
  suggestions := by
    intro _ _ none
    cases none
  candidates := by
    intro _ _ none
    cases none
  commands := by
    intro _ none
    cases none

/-- Bases that were read before the present draft are below its revision. -/
def ReadBelow (world : RevisionWorld) (draft : PlanDraft) :
    Nat → Int → Prop :=
  ReadAt world.store.applied draft.currentRevision
    (· ≤ draft.currentRevision)

theorem currentRevision_of_ne_zero (nonzero : draft.revision ≠ 0) :
    draft.currentRevision = draft.revision :=
  if_neg nonzero

theorem revision_le_currentRevision (draft : PlanDraft) :
    draft.revision ≤ draft.currentRevision := by
  unfold PlanDraft.currentRevision
  split
  · omega
  · exact le_refl _

theorem candidateIsCurrent_iff
    (event : RevisionEvent) :
    CandidateIsCurrent world event ↔
      ∀ revision, world.applied? event = some revision →
        revision.record.stamp = world.store.applied ∧
          revision.replaced.revision ≠ 0 := by
  constructor
  · intro current revision applies
    obtain ⟨index, semanticGraph, command, candidate, held, rfl, published,
      found, stored, rfl⟩ := RevisionWorld.applied?_some_iff.mp applies
    exact current command candidate held published found stored
  · intro applies
    cases event with
    | revise index semanticGraph =>
        intro command candidate held published found stored
        exact applies _ (RevisionWorld.applied?_some_iff.mpr
          ⟨index, semanticGraph, command, candidate, held, rfl, published,
            found, stored, rfl⟩)
    | _ =>
        trivial

/-- One applied revision: it is in order exactly if its base was read from
the draft that it replaces. -/
theorem revisesInOrder_iff
    (dated : world.Dated username planId (ReadBelow world draft) draft)
    (event : RevisionEvent) :
    RevisesInOrder world event ↔ CandidateIsCurrent world event := by
  rw [candidateIsCurrent_iff]
  refine forall_congr' fun revision => imp_congr_right fun applies => ?_
  obtain ⟨index, semanticGraph, command, candidate, held, _, published,
    found, stored, same⟩ := RevisionWorld.applied?_some_iff.mp applies
  have based := dated.candidates _ candidate found
  have replaces := dated.replaced_of_applied applies
  have revised : revision.updated.revision =
      candidate.value.baseRevision + 1 := by
    rw [same]
    exact based.follows
  have parent : revision.record.value.parentRevision =
      some candidate.value.baseRevision := by
    rw [same]
    rfl
  have stamp : revision.record.stamp = candidate.stamp := by
    rw [same]
    rfl
  rw [replaces, revised, parent, stamp, Option.some.injEq]
  have current := based.read.stamp_eq_iff (by omega)
  constructor
  · rintro ⟨_, base⟩
    have nonzero : draft.revision ≠ 0 := base ▸ based.nonzero
    refine ⟨current.mpr ?_, nonzero⟩
    rw [currentRevision_of_ne_zero nonzero, base]
    omega
  · rintro ⟨known, nonzero⟩
    have base := based.read.current known
    rw [currentRevision_of_ne_zero nonzero] at base
    exact ⟨by omega, base⟩

/-- From every initial draft, over every order of task events, decisions and
revise commands, each command any number of times: all revisions that are
applied are in order, exactly when each is applied while the draft that its
candidate was computed from is still the stored one. -/
theorem revisions_in_order_iff
    (env : PlanEnv) (config : StrategistConfig) (username : String)
    (draft : PlanDraft) (loop : LoopState) (events : List RevisionEvent) :
    EveryStep
        (RevisionWorld.perform env config username draft.planId)
        RevisesInOrder (.starting username draft loop) events ↔
      EveryStep
        (RevisionWorld.perform env config username draft.planId)
        CandidateIsCurrent (.starting username draft loop) events := by
  apply everyStep_iff_of_invariant fun world =>
    ∃ present, world.Dated username draft.planId
      (ReadBelow world present) present
  · rintro world event ⟨present, dated⟩
    exact revisesInOrder_iff dated event
  · rintro world event ⟨present, dated⟩ current
    have inOrder := (revisesInOrder_iff dated event).mpr current
    rw [candidateIsCurrent_iff] at current
    cases applies : world.applied? event with
    | none =>
        obtain ⟨drafts, applied⟩ :=
          RevisionWorld.store_of_not_applied applies
        refine ⟨present, dated.perform event ?_ dated.owner dated.plan
          ?_ ?_⟩
        · rw [drafts]
          exact dated.stored
        · exact ReadAt.now _ _ _
        · intro stamp base read
          unfold ReadBelow
          rw [applied]
          exact read
    | some revision =>
        have replaced := dated.replaced_of_applied applies
        obtain ⟨owner, plan, stored, applied⟩ :=
          dated.store_of_applied applies
        refine ⟨revision.updated,
          dated.perform event stored owner plan ?_ ?_⟩
        · exact ReadAt.now _ _ _
        · intro stamp base read
          have raised := (inOrder revision applies).1
          have nonzero := (current revision applies).2
          rw [replaced] at raised nonzero
          have present_eq := currentRevision_of_ne_zero nonzero
          have next_le := revision_le_currentRevision revision.updated
          unfold ReadBelow
          rw [applied]
          exact read.replaced _ (fun other below => by omega) (by omega)
  · exact ⟨_, RevisionWorld.dated_starting username draft loop
      (ReadAt.now _ _ _)⟩

def savedPlan : PlanDraft where
  planId := "plan-1"
  username := "alice"
  pipelineId := "pipe-1"
  graphSpec := oneTaskGraph

/-- Two runs of the pipeline, both running. -/
def twoRuns : LoopState where
  runDocs := fun pipelineId runId =>
    if pipelineId = "pipe-1" ∧ (runId = "run-1" ∨ runId = "run-2") then
      some [("status", .str "RUNNING"), ("tasks", .dict [])]
    else none

def autoApplying : StrategistConfig where
  loopEnabled := true
  autoApply := true
  requireHuman := false
  minInterval := 5
  maxSuggestions := 10
  rejectionWindow := 3

def completedIn (runId : String) : RevisionEvent :=
  .taskEvent ⟨"COMPLETED", "pipe-1", runId⟩ 0

/-- The answer that gives the task of the plan a priority. -/
def prioritises (runId suggestionId : String) (priority : Int) :
    RevisionEvent :=
  .answered runId
    { delta :=
        some [("task_overrides",
          .dict [("collect", .dict [("priority", .int priority)])])]
      suggestionId := suggestionId
      checkedAt := "2025-01-01T00:00:00+00:00"
      shaclEngine := none }

/-- Both runs read revision 1, and the second candidate is applied after the
first. -/
def twoRevisionsOfOneDraft : List RevisionEvent :=
  [completedIn "run-1", completedIn "run-2",
    prioritises "run-1" "s-1" 1, .revise 0 none,
    prioritises "run-2" "s-2" 2, .revise 1 none]

theorem second_revision_replaces_first :
    ¬ EveryStep
      (RevisionWorld.perform plainEnv autoApplying "alice" "plan-1")
      RevisesInOrder (.starting "alice" savedPlan twoRuns)
      twoRevisionsOfOneDraft := by
  intro every
  have last := (everyStep_iff_split _ _ _ _).mp every
    (twoRevisionsOfOneDraft.take 5) (.revise 1 none) [] rfl
  have applied :
      ((run
          (RevisionWorld.perform plainEnv autoApplying "alice" "plan-1")
          (.starting "alice" savedPlan twoRuns)
          (twoRevisionsOfOneDraft.take 5)).applied?
            (.revise 1 none)).map
          (fun revision =>
            (revision.replaced.revision, revision.updated.revision)) =
        some (2, 2) := by
    decide +kernel
  obtain ⟨revision, applies, revisions⟩ :=
    Option.map_eq_some_iff.mp applied
  have raised := (last revision applies).1
  rw [Prod.mk.injEq] at revisions
  omega

end Agentcy.Plans
