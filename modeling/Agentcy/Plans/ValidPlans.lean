import Agentcy.Plans.PlanDrafts
import Agentcy.Library.Run

/-!
# Plans that are marked valid

Every service but one sets the verdict of a draft from a check of the graph
that it saves with it, or leaves the checked part of the graph alone.  The
human validator applies modifications and keeps the old verdict.
-/

namespace Agentcy.Plans

open Agentcy.Library

section Services

variable (env : PlanEnv)

/-- A draft that is marked valid has a graph that passes the structural
checks. -/
def SoundDraft (draft : PlanDraft) : Prop :=
  draft.isValid = true → Conforms env.python draft.graphSpec

def SoundCandidate (candidate : RevisionCandidate) : Prop :=
  (candidate.validation.get "conforms").truthy = true →
    Conforms env.python candidate.candidateGraph

/-- If the decision rewrites the graph of a plan that is marked valid, then
the modified graph still conforms. -/
def KeepsVerdict (decision : HumanDecision) (draft : PlanDraft) : Prop :=
  draft.isValid = true → decision.Rewrites →
    ∀ updatedGraph applied,
      applyDelta env.python draft.graphSpec
          (modificationsOf decision.payload) =
        .ok (updatedGraph, applied) →
      Conforms env.python updatedGraph

variable {env}

theorem soundDraft_builtDraft
    (planId username pipelineId : String)
    (pipelineRunId : Option String) (graphSpec : Fields) :
    SoundDraft env
      (builtDraft planId username pipelineId pipelineRunId graphSpec) := by
  intro valid
  cases valid

theorem soundDraft_validatedDraft
    {now : String} {reviews : Reviews} {draft validated : PlanDraft}
    (succeeded : validatedDraft env now reviews draft = .ok validated) :
    SoundDraft env validated := by
  unfold validatedDraft at succeeded
  rw [bind_eq_ok] at succeeded
  obtain ⟨report, reported, succeeded⟩ := succeeded
  cases succeeded
  intro valid
  dsimp only at valid
  rw [Bool.and_eq_true, Bool.and_eq_true] at valid
  exact (validateGraphSpec_conforms reported).mp valid.1.1

theorem soundDraft_cachedDraft
    {now : String} {draft cached : PlanDraft}
    (sound : SoundDraft env draft)
    (succeeded : cachedDraft env now draft = some cached) :
    SoundDraft env cached := by
  unfold cachedDraft at succeeded
  split at succeeded
  · rename_i valid
    cases succeeded
    intro _
    exact (conforms_set_iff env.python _ _ (by decide)).mpr (sound valid)
  · cases succeeded

theorem soundCandidate_proposedCandidate
    {now : String} {proposal : Proposal} {draft : PlanDraft}
    {candidate : RevisionCandidate}
    (succeeded :
      proposedCandidate env now proposal draft = .ok (some candidate)) :
    SoundCandidate env candidate := by
  unfold proposedCandidate at succeeded
  rw [bind_eq_ok] at succeeded
  obtain ⟨⟨candidateGraph, applied⟩, _, succeeded⟩ := succeeded
  dsimp only at succeeded
  split at succeeded
  · cases succeeded
  · rw [bind_eq_ok] at succeeded
    obtain ⟨report, reported, succeeded⟩ := succeeded
    split at succeeded
    · rename_i conforms
      rw [withMergePolicy_conforms] at conforms
      cases succeeded
      intro _
      exact validateCandidateGraph_sound reported conforms
    · cases succeeded

theorem soundDraft_revisedDraft
    {candidate : RevisionCandidate} (semanticGraph : Option Json)
    (draft : PlanDraft) (sound : SoundCandidate env candidate) :
    SoundDraft env (revisedDraft candidate semanticGraph draft) := by
  intro valid
  have conforms := sound valid
  cases semanticGraph with
  | none =>
      exact conforms
  | some exported =>
      exact
        (conforms_set_iff env.python _ _ (by decide)).mpr conforms

/-- The human validator saves nothing, or a draft that is sound exactly when
the decision keeps the verdict true. -/
theorem soundDraft_humanValidatedDraft_iff
    {decision : HumanDecision} {draft : PlanDraft}
    {modified : Option PlanDraft}
    (succeeded : humanValidatedDraft env decision draft = .ok modified) :
    (∀ saved, modified = some saved → SoundDraft env saved) ↔
      KeepsVerdict env decision draft := by
  unfold humanValidatedDraft at succeeded
  split at succeeded
  · rename_i rewrites
    rw [bind_eq_ok] at succeeded
    obtain ⟨⟨updatedGraph, applied⟩, changed, succeeded⟩ := succeeded
    cases succeeded
    simp only [Option.some.injEq, forall_eq', SoundDraft,
      conforms_set_iff env.python _ _
        (show "human_approval" ∉ ["tasks", "edges", "ontology"] by
          decide)]
    constructor
    · intro sound valid _ other count again
      rw [changed] at again
      cases again
      exact sound valid
    · intro keeps valid
      exact keeps valid rewrites updatedGraph applied changed
  · rename_i keepsGraph
    cases succeeded
    constructor
    · intro _ _ rewrites
      exact absurd rewrites keepsGraph
    · intro _ saved nothing
      cases nothing

end Services

section Runs

variable (env : PlanEnv)

/-- Every stored draft that is marked valid conforms. -/
def StoredPlansSound (world : PlanWorld) : Prop :=
  ∀ key draft, world.drafts key = some draft → SoundDraft env draft

structure PlanWorld.Sound (world : PlanWorld) : Prop where
  stored : StoredPlansSound env world
  loaded : ∀ draft ∈ world.loaded, SoundDraft env draft
  candidates : ∀ key candidate,
    world.candidates key = some candidate → SoundCandidate env candidate
  fetched : ∀ found ∈ world.fetched, SoundCandidate env found.2

/-- A human decision keeps the verdict of the plan that it modifies true, and
a draft that is posted as valid conforms. -/
def KeepsPlansSound (world : PlanWorld) : PlanStep → Prop
  | .humanValidate index _ decision =>
      ∀ draft, world.loaded[index]? = some draft →
        KeepsVerdict env decision draft
  | .post _ draft => SoundDraft env draft
  | _ => True

variable {env}

/-- What a step saves is sound exactly when the step keeps the plans sound. -/
theorem saved_sound_iff
    {world : PlanWorld} (sound : world.Sound env) (step : PlanStep) :
    (∀ username draft, world.saved? env step = some (username, draft) →
        SoundDraft env draft) ↔
      KeepsPlansSound env world step := by
  cases step with
  | build planId owner pipelineId pipelineRunId graphSpec =>
      refine iff_of_true ?_ trivial
      intro username draft saved
      cases saved
      exact soundDraft_builtDraft _ _ _ _ _
  | validate index owner now reviews =>
      refine iff_of_true ?_ trivial
      intro username draft saved
      simp only [PlanWorld.saved?, Option.bind_eq_bind,
        Option.bind_eq_some_iff, toOption_eq_some] at saved
      obtain ⟨before, _, validated, succeeded, saved⟩ := saved
      cases saved
      exact soundDraft_validatedDraft succeeded
  | humanValidate index owner decision =>
      simp only [PlanWorld.saved?, KeepsPlansSound, Option.bind_eq_bind,
        Option.bind_eq_some_iff, toOption_eq_some]
      constructor
      · intro saved before loaded valid rewrites
        cases outcome : humanValidatedDraft env decision before with
        | error raised =>
            intro updatedGraph applied changed
            simp [humanValidatedDraft, rewrites, changed, bind,
              Except.bind, pure, Except.pure] at outcome
        | ok modified =>
            apply
              (soundDraft_humanValidatedDraft_iff outcome).mp ?_ valid
                rewrites
            rintro draft rfl
            exact
              saved owner draft
                ⟨before, loaded, some draft, outcome, draft, rfl, rfl⟩
      · rintro keeps username draft
          ⟨before, loaded, modified, outcome, _, rfl, same⟩
        cases same
        exact
          (soundDraft_humanValidatedDraft_iff outcome).mpr
            (keeps before loaded) draft rfl
  | cache index owner now =>
      refine iff_of_true ?_ trivial
      intro username draft saved
      simp only [PlanWorld.saved?, Option.bind_eq_bind,
        Option.bind_eq_some_iff] at saved
      obtain ⟨before, loaded, cached, succeeded, saved⟩ := saved
      cases saved
      exact
        soundDraft_cachedDraft
          (sound.loaded before (List.mem_of_getElem? loaded)) succeeded
  | revise index candidate semanticGraph =>
      refine iff_of_true ?_ trivial
      intro username draft saved
      simp only [PlanWorld.saved?, Option.bind_eq_bind,
        Option.bind_eq_some_iff] at saved
      obtain ⟨before, _, ⟨command, found⟩, fetched, saved⟩ := saved
      split at saved
      · cases saved
        exact
          soundDraft_revisedDraft semanticGraph before
            (sound.fetched _ (List.mem_of_getElem? fetched))
      · cases saved
  | post owner draft =>
      constructor
      · intro saved
        exact saved owner draft rfl
      · intro posted username other saved
        cases saved
        exact posted
  | load key =>
      exact iff_of_true (by intro _ _ saved; cases saved) trivial
  | fetchCandidate index =>
      exact iff_of_true (by intro _ _ saved; cases saved) trivial
  | propose index now proposal =>
      exact iff_of_true (by intro _ _ saved; cases saved) trivial

/-- Reads and proposals leave the stored drafts alone; every other step writes
what it saves. -/
theorem drafts_perform (world : PlanWorld) (step : PlanStep) :
    (world.perform env step).drafts =
      match world.saved? env step with
      | none => world.drafts
      | some (username, draft) =>
          Function.update world.drafts (planKey username draft.planId)
            (some { draft with username := username }) := by
  cases step with
  | load key =>
      rfl
  | fetchCandidate index =>
      unfold PlanWorld.perform
      dsimp only [PlanWorld.saved?]
      split
      · rfl
      · rfl
  | propose index now proposal =>
      unfold PlanWorld.perform
      dsimp only [PlanWorld.saved?]
      split
      · rfl
      · split
        · rfl
        · rfl
  | _ =>
      unfold PlanWorld.perform
      dsimp only
      generalize world.saved? env _ = saved
      cases saved with
      | none => rfl
      | some saved => rfl

theorem storedPlansSound_perform_iff
    {world : PlanWorld} (sound : world.Sound env) (step : PlanStep) :
    StoredPlansSound env (world.perform env step) ↔
      KeepsPlansSound env world step := by
  rw [← saved_sound_iff sound step, StoredPlansSound, drafts_perform]
  cases saves : world.saved? env step with
  | none =>
      refine iff_of_true sound.stored ?_
      intro username draft saved
      cases saved
  | some saved =>
      obtain ⟨username, draft⟩ := saved
      dsimp only
      constructor
      · intro stored owner other same
        cases same
        exact
          stored (planKey username draft.planId)
            { draft with username := username }
            (Function.update_self _ _ _)
      · intro savedSound key other found
        by_cases here : key = planKey username draft.planId
        · rw [here, Function.update_self] at found
          cases found
          exact savedSound username draft rfl
        · rw [Function.update_of_ne here] at found
          exact sound.stored key other found

/-- What a service reads is sound, and so is what it proposes. -/
theorem PlanWorld.Sound.perform
    {world : PlanWorld} (sound : world.Sound env) (step : PlanStep)
    (stored : StoredPlansSound env (world.perform env step)) :
    (world.perform env step).Sound env := by
  cases step with
  | load key =>
      refine { sound with stored := stored, loaded := ?_ }
      intro draft among
      rcases List.mem_append.mp among with before | read
      · exact sound.loaded draft before
      · exact sound.stored key draft (Option.mem_toList.mp read)
  | fetchCandidate index =>
      unfold PlanWorld.perform at stored ⊢
      dsimp only at stored ⊢
      split
      · exact sound
      · refine { sound with fetched := ?_ }
        intro found among
        rcases List.mem_append.mp among with before | read
        · exact sound.fetched found before
        · obtain ⟨candidate, kept, rfl⟩ :=
            Option.map_eq_some_iff.mp (Option.mem_toList.mp read)
          exact sound.candidates _ candidate kept
  | propose index now proposal =>
      unfold PlanWorld.perform at stored ⊢
      dsimp only at stored ⊢
      split
      · exact sound
      · rename_i draft _
        split
        · rename_i candidate proposed
          refine { sound with candidates := ?_ }
          intro key other found
          dsimp only [PlanWorld.storeCandidate] at found
          rw [Function.update_apply] at found
          split at found
          · cases found
            exact soundCandidate_proposedCandidate proposed
          · exact sound.candidates key other found
        · exact sound
  | _ =>
      unfold PlanWorld.perform at stored ⊢
      dsimp only at stored ⊢
      split
      · exact sound
      · rename_i username draft saved
        rw [saved] at stored
        exact
          { stored := stored
            loaded := sound.loaded
            candidates := sound.candidates
            fetched := sound.fetched }

/-- From the empty store and over every interleaving of the services: all
stored plans that are marked valid conform, in every state, exactly when every
human decision keeps the verdict of the plan that it modifies true and every
draft that is posted as valid conforms. -/
theorem validPlans_conform_iff (env : PlanEnv) (steps : List PlanStep) :
    EveryState (PlanWorld.perform env) (StoredPlansSound env) {} steps ↔
      EveryStep (PlanWorld.perform env) (KeepsPlansSound env) {}
        steps := by
  apply everyState_iff_everyStep (PlanWorld.Sound env)
  · intro world sound
    exact sound.stored
  · intro world step sound
    exact storedPlansSound_perform_iff sound step
  · intro world step sound stored
    exact sound.perform step stored
  · exact
      { stored := by
          intro key draft found
          cases found
        loaded := by
          intro draft among
          cases among
        candidates := by
          intro key candidate found
          cases found
        fetched := by
          intro found among
          cases among }

end Runs

/-! ## An approved modification that breaks a valid plan -/

def plainEnv : PlanEnv where
  python :=
    { strOther := fun _ => ""
      dictOther := fun _ => .error .typeError
      upper := fun text => text
      lower := fun text => text }
  ruleset := none
  digest := fun _ => ""

def oneTaskGraph : Fields :=
  [("tasks", .list [.dict
      [("task_id", .str "collect"), ("assigned_agent", .str "agent-1"),
        ("required_capabilities", .list [.str "search"])]]),
    ("edges", .list [])]

def noReviews : Reviews where
  shaclEnabled := false
  shaclEngine := none
  llmRequired := false
  llmReview := none

/-- Approval with an edge to a task that the plan does not have. -/
def ghostEdge : HumanDecision where
  payload :=
    [("approved", .bool true),
      ("modifications", .dict
        [("add_edges", .list [.dict
          [("from", .str "collect"), ("to", .str "ghost")]])])]
  requiresHuman := true
  humanApprover := "human"
  decidedAt := "2025-01-01T00:00:00+00:00"

def buildValidateApprove : List PlanStep :=
  [.build "plan-1" "alice" "pipe-1" none oneTaskGraph,
    .load (planKey "alice" "plan-1"),
    .validate 0 "alice" "2025-01-01T00:00:00+00:00" noReviews,
    .load (planKey "alice" "plan-1"),
    .humanValidate 1 "alice" ghostEdge]

theorem approved_modification_breaks_valid_plan :
    ¬ EveryState (PlanWorld.perform plainEnv) (StoredPlansSound plainEnv)
      {} buildValidateApprove := by
  intro everywhere
  have last :=
    (everyState_iff_prefixes _ _ _ _).mp everywhere
      buildValidateApprove [] rfl
  have broken :
      ((run (PlanWorld.perform plainEnv) {} buildValidateApprove).drafts
        (planKey "alice" "plan-1")).map
          (fun draft =>
            (draft.isValid,
              decide (Conforms plainEnv.python draft.graphSpec))) =
        some (true, false) := by
    decide +kernel
  obtain ⟨draft, stored, verdicts⟩ := Option.map_eq_some_iff.mp broken
  rw [Prod.mk.injEq, decide_eq_false_iff_not] at verdicts
  exact verdicts.2 (last _ draft stored verdicts.1)

end Agentcy.Plans
