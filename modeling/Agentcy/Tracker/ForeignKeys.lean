import Agentcy.Tracker.System

/-!
# Keys of a run document that the run model does not know

The plan builder and the plan-revision consumer write `plan_id` and
`plan_revision` into a run document whose other keys are the fields of
`PipelineRun`.  A tracker validates the document into that model, which
ignores the two keys, and writes the dump of the model back as a whole.
-/

namespace Agentcy.Tracker

open Agentcy.Library
open Agentcy.Runs

/-- Every key of the document is a field of the run model. -/
structure OnlyModelKeys (doc : RunDoc) : Prop where
  planId : doc.planId = none
  planRevision : doc.planRevision = none
  extra : doc.extra = .empty

/-- Nothing but one task, the run status and the finish time differs. -/
structure FrameKept (taskId : String) (before after : RunDoc) : Prop where
  fields :
    after.run =
      { before.run with
        tasks := after.run.tasks
        status := after.run.status
        finishedAt := after.run.finishedAt }
  otherTasks :
    ∀ other, other ≠ taskId →
      after.run.tasks.get? other = before.run.tasks.get? other
  planId : after.planId = before.planId
  planRevision : after.planRevision = before.planRevision
  extra : after.extra = before.extra

section Call

variable (env : TrackerEnv) (clock : Clock) (faults : Faults)
  (stores : Stores) (admitted : Admitted) (event : TaskState)

theorem tryReforwardSync_fields (run : PipelineRun) :
    ∃ tasks,
      (tryReforwardSync env faults stores run event).run =
        { run with tasks := tasks } := by
  unfold tryReforwardSync
  split
  · dsimp only
    split
    · exact ⟨run.tasks, rfl⟩
    · exact ⟨_, rfl⟩
  · exact ⟨run.tasks, rfl⟩

/-- The model's own fields survive the write. -/
theorem closeUpdate_fields :
    let written :=
      (closeUpdate env clock faults stores admitted event).run
    written =
      { admitted.run with
        tasks := written.tasks
        status := written.status
        finishedAt := written.finishedAt } := by
  obtain ⟨tasks, helped⟩ :=
    tryReforwardSync_fields env faults stores event
      (putTask admitted.run event)
  intro written
  simp only [written, closeUpdate]
  split
  · split
    · rw [putTask, helped]
      rfl
    · rw [putTask, helped]
      rfl
  · split
    · rfl
    · rfl

/-- A call that lands keeps the frame exactly when the document had no key
outside the model. -/
theorem frameKept_closeUpdate_iff
    {before : RunDoc} (same : admitted.run = before.run) :
    FrameKept event.taskId before
        (closeUpdate env clock faults stores admitted
          event).run.modelDump ↔
      OnlyModelKeys before := by
  constructor
  · intro kept
    exact ⟨kept.planId.symm, kept.planRevision.symm, kept.extra.symm⟩
  · intro modelKeys
    refine
      ⟨?_, ?_, modelKeys.planId.symm, modelKeys.planRevision.symm,
        modelKeys.extra.symm⟩
    · rw [← same]
      exact closeUpdate_fields env clock faults stores admitted event
    · intro other different
      rw [PipelineRun.modelDump, closeUpdate_tasks, ← same]
      exact OrderedMap.get?_set_other _ _ different

end Call

/-- If the report is accepted for the run document under `key`, then it
leaves the frame of that document as it was. -/
def KeepsFrame
    (env : TrackerEnv) (key : String) (system : System)
    (report : Report) : Prop :=
  report.event.runKey = key → (system.landing? report).isSome →
    ∀ before after,
      system.stores.readRun key = some before →
        (system.handle env report).stores.readRun key = some after →
          FrameKept report.event.taskId before after

/-- If the report is accepted for the run document under `key`, then that
document holds the keys of the run model only. -/
def MeetsModelKeys
    (key : String) (system : System) (report : Report) : Prop :=
  report.event.runKey = key → (system.landing? report).isSome →
    ∀ doc, system.stores.readRun key = some doc → OnlyModelKeys doc

/-- The lookup of the re-forwarding helper finds the plan it found before. -/
def PlanStillFound
    (env : TrackerEnv) (key : String) (before after : Stores) : Prop :=
  ∀ event : TaskState, event.runKey = key →
    planForReforward? env after event = planForReforward? env before event

theorem keepsFrame_iff
    (env : TrackerEnv) (key : String) (system : System)
    (report : Report) :
    KeepsFrame env key system report ↔
      MeetsModelKeys key system report := by
  constructor
  · intro keeps sameKey landsSome doc stored
    obtain ⟨admitted, lands⟩ := Option.isSome_iff_exists.mp landsSome
    subst sameKey
    obtain ⟨found, foundStored, sameRun, _, _⟩ :=
      System.landing?_readRun lands
    have sameDoc : found = doc :=
      Option.some.inj (foundStored.symm.trans stored)
    subst sameDoc
    have kept :=
      keeps rfl landsSome _ _ stored
        (System.readRun_handle_of_landing env lands)
    exact (frameKept_closeUpdate_iff _ _ _ _ _ _ sameRun).mp kept
  · intro meets sameKey landsSome before after stored written
    have modelKeys := meets sameKey landsSome before stored
    obtain ⟨admitted, lands⟩ := Option.isSome_iff_exists.mp landsSome
    subst sameKey
    obtain ⟨found, foundStored, sameRun, _, _⟩ :=
      System.landing?_readRun lands
    have sameDoc : found = before :=
      Option.some.inj (foundStored.symm.trans stored)
    subst sameDoc
    rw [System.readRun_handle_of_landing env lands] at written
    rw [← Option.some.inj written]
    exact (frameKept_closeUpdate_iff _ _ _ _ _ _ sameRun).mpr modelKeys

/-- A step that keeps the frame leaves `plan_id` where it was. -/
theorem storedPlanId_of_meetsModelKeys
    (env : TrackerEnv) (key : String) (system : System)
    (report : Report) (meets : MeetsModelKeys key system report) :
    ((system.handle env report).stores.readRun key).bind RunDoc.planId =
      (system.stores.readRun key).bind RunDoc.planId := by
  cases lands : system.landing? report with
  | none =>
      rw [System.readRun_handle_of_elsewhere env _ _ _ (Or.inl lands)]
  | some admitted =>
      by_cases sameKey : report.event.runKey = key
      · obtain ⟨doc, stored, _⟩ := System.landing?_readRun lands
        have noPlan : doc.planId = none := by
          apply (meets sameKey _ doc (sameKey ▸ stored)).planId
          rw [lands]
          rfl
        subst sameKey
        rw [System.readRun_handle_of_landing env lands, stored]
        simp [PipelineRun.modelDump, noPlan]
      · rw [System.readRun_handle_of_elsewhere env _ _ _
          (Or.inr (Ne.symm sameKey))]

theorem planStillFound_of_sameStored
    (env : TrackerEnv) {key : String} {before after : Stores}
    (same :
      (after.readRun key).bind RunDoc.planId =
        (before.readRun key).bind RunDoc.planId) :
    PlanStillFound env key before after := by
  intro event sameKey
  rw [planForReforward?, planForReforward?, sameKey, same]

/-- Over any sequence of reports, from any stored documents: every accepted
event of a run keeps the frame of its document, and the plan is found as it
was before, exactly when each accepted event meets a document without keys
outside the run model. -/
theorem foreignKeys_kept_iff
    (env : TrackerEnv) (key : String) (system : System)
    (reports : List Report) :
    (EveryStep (System.handle env) (KeepsFrame env key) system reports ∧
        PlanStillFound env key system.stores
          (run (System.handle env) system reports).stores) ↔
      EveryStep (System.handle env) (MeetsModelKeys key) system
        reports := by
  have stepwise :
      EveryStep (System.handle env) (KeepsFrame env key) system
          reports ↔
        EveryStep (System.handle env) (MeetsModelKeys key) system
          reports := by
    simp only [everyStep_iff_split, keepsFrame_iff]
  constructor
  · rintro ⟨kept, _⟩
    exact stepwise.mp kept
  · intro meets
    refine ⟨stepwise.mpr meets, ?_⟩
    apply planStillFound_of_sameStored
    exact
      run_invariant
        (fun current : System =>
          (current.stores.readRun key).bind RunDoc.planId =
            (system.stores.readRun key).bind RunDoc.planId)
        (fun current report same here =>
          (storedPlanId_of_meetsModelKeys env key current report
            here).trans same)
        rfl meets

/-- An accepted event takes the plan away, and no later event of the run is
ever re-forwarded. -/
theorem no_plan_after_landing
    (env : TrackerEnv) {system : System} {report : Report}
    (landsSome : (system.landing? report).isSome)
    (later : List Report) (event : TaskState)
    (sameKey : event.runKey = report.event.runKey) :
    planForReforward? env
        (run (System.handle env) (system.handle env report)
          later).stores event = none := by
  obtain ⟨admitted, lands⟩ := Option.isSome_iff_exists.mp landsSome
  have noPlan :
      ((run (System.handle env) (system.handle env report)
        later).stores.readRun event.runKey).bind RunDoc.planId =
          none := by
    apply run_invariant_always
      (fun current : System =>
        (current.stores.readRun event.runKey).bind RunDoc.planId = none)
    · intro current next none
      rw [System.readRun_handle]
      cases System.landing? current next with
      | none =>
          exact none
      | some _ =>
          dsimp only
          split
          · rfl
          · exact none
    · rw [sameKey, System.readRun_handle_of_landing env lands]
      rfl
  rw [planForReforward?, noPlan, Option.filter_none]
  exact ite_self _

/-! ## A planned run whose task starts -/

/-- A seeded run of one task, with the plan that the plan builder wrote. -/
def plannedSystem : System where
  stores :=
    { runs := fun key =>
        if key = runKey "alice" "pipe-1" "run-1" then
          some
            { run := seedInitialRun "alice" "pipe-1" "run-1"
                { taskDict := .ofList
                    [("t", { availableServices := some "svc-a"
                             isFinalTask := true })] }
                none 0
              planId := some "plan-1"
              planRevision := some 1 }
        else
          none }

def taskStarts : Report where
  clock := ⟨0, 0, 0⟩
  event :=
    { status := .running
      pipelineRunId := "run-1"
      taskId := "t"
      username := "alice"
      pipelineId := "pipe-1"
      serviceName := "svc-a" }

theorem accepted_event_drops_plan :
    ¬ (EveryStep (System.handle {})
          (KeepsFrame {} taskStarts.event.runKey) plannedSystem
          [taskStarts] ∧
        PlanStillFound {} taskStarts.event.runKey plannedSystem.stores
          (run (System.handle {}) plannedSystem [taskStarts]).stores) := by
  rintro ⟨_, found⟩
  have lost := found taskStarts.event rfl
  revert lost
  decide +kernel

end Agentcy.Tracker
