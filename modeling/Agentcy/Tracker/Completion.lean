import Agentcy.Tracker.Reforwarding

/-!
# What a completed run has completed

The status of a run is decided from its final tasks alone.  A task that
failed before, and whose failure was re-forwarded or overridden since, does
not keep the run from being completed.
-/

namespace Agentcy.Tracker

open Agentcy.Library
open Agentcy.Runs

def FinalsDone
    (env : TrackerEnv) (username pipelineId : String)
    (run : PipelineRun) : Prop :=
  ∀ finalId ∈ finals env run username pipelineId,
    (run.tasks.get? finalId).map TaskState.status = some .completed

def NoFailedTask (run : PipelineRun) : Prop :=
  ∀ taskId, (run.tasks.get? taskId).map TaskState.status ≠ some .failed

/-- A run stored as completed has completed its final tasks, and none of its
tasks is stored as failed. -/
def CompleteWhenCompleted
    (env : TrackerEnv) (username pipelineId : String)
    (run : PipelineRun) : Prop :=
  run.status = .completed →
    FinalsDone env username pipelineId run ∧ NoFailedTask run

/-- The event is no failure and completes the final tasks of a run in which
another task is stored as failed. -/
def CompletesOverFailure
    (env : TrackerEnv) (admitted : Admitted) (event : TaskState) : Prop :=
  event.status ≠ .failed ∧
    allFinalsCompleted env (putTask admitted.run event) event.username
        event.pipelineId = true ∧
    ∃ other, other ≠ event.taskId ∧
      (admitted.run.tasks.get? other).map TaskState.status = some .failed

/-- The event leaves completed a run whose document names no final tasks, and
under the final flags that it merges the final tasks are not all
completed. -/
def MovesFinals
    (env : TrackerEnv) (username pipelineId : String)
    (admitted : Admitted) (event : TaskState) : Prop :=
  event.status ≠ .failed ∧ admitted.run.finalTaskIds = [] ∧
    (admitted.run.status = .completed ∨
      allFinalsCompleted env (putTask admitted.run event) event.username
        event.pipelineId = true) ∧
    ¬ FinalsDone env username pipelineId
      (putTask admitted.run (mergedTask admitted event))

theorem finals_congr
    (env : TrackerEnv) {first second : PipelineRun}
    (username pipelineId : String)
    (sameIds : first.finalTaskIds = second.finalTaskIds)
    (sameTasks : first.tasks = second.tasks) :
    finals env first username pipelineId =
      finals env second username pipelineId := by
  simp only [finals, sameIds, sameTasks]

theorem finals_of_named
    (env : TrackerEnv) {run : PipelineRun} (username pipelineId : String)
    (named : run.finalTaskIds ≠ []) :
    finals env run username pipelineId = run.finalTaskIds :=
  if_pos named

theorem finalsDone_of_allFinalsCompleted
    {env : TrackerEnv} {run : PipelineRun} {username pipelineId : String}
    (done : allFinalsCompleted env run username pipelineId = true) :
    FinalsDone env username pipelineId run := by
  simp only [allFinalsCompleted, Bool.and_eq_true, List.all_eq_true,
    decide_eq_true_eq] at done
  exact done.2

/-- What is stored of a task after an accepted event. -/
theorem taskStatus_putTask
    (run : PipelineRun) (task : TaskState) (taskId : String) :
    ((putTask run task).tasks.get? taskId).map TaskState.status =
      if taskId = task.taskId then some task.status
      else (run.tasks.get? taskId).map TaskState.status := by
  rw [putTask_tasks, OrderedMap.get?_set]
  split <;> rfl

section Step

variable {env : TrackerEnv} {username pipelineId : String}
  {stores : Stores} {admitted : Admitted} {event : TaskState}

theorem complete_closeUpdate_iff (clock : Clock) (faults : Faults) :
    CompleteWhenCompleted env username pipelineId
        (closeUpdate env clock faults stores admitted event).run ↔
      (decidedStatus env stores admitted event = .completed →
        FinalsDone env username pipelineId
            (putTask admitted.run (mergedTask admitted event)) ∧
          NoFailedTask
            (putTask admitted.run (mergedTask admitted event))) := by
  have sameTasks :
      (closeUpdate env clock faults stores admitted event).run.tasks =
        (putTask admitted.run (mergedTask admitted event)).tasks :=
    closeUpdate_tasks env clock faults stores admitted event
  have sameFinals :
      finals env
          (closeUpdate env clock faults stores admitted event).run
          username pipelineId =
        finals env (putTask admitted.run (mergedTask admitted event))
          username pipelineId :=
    finals_congr env username pipelineId
      (closeUpdate_finalTaskIds env clock faults stores admitted event)
      sameTasks
  rw [CompleteWhenCompleted, closeUpdate_status, FinalsDone, sameFinals,
    sameTasks, NoFailedTask, sameTasks]
  rfl

/-- The final tasks named by the document stay completed under an accepted
event that is no failure. -/
theorem finalsDone_putTask
    (named : admitted.run.finalTaskIds ≠ [])
    (found :
      admitted.run.tasks.get? event.taskId = some admitted.prevTask)
    (forward : order admitted.prevTask.status ≤ order event.status)
    (notFailed : event.status ≠ .failed)
    (done : FinalsDone env username pipelineId admitted.run) :
    FinalsDone env username pipelineId
      (putTask admitted.run (mergedTask admitted event)) := by
  intro finalId final
  rw [finals_of_named env username pipelineId (by simpa using named),
    putTask_finalTaskIds] at final
  rw [FinalsDone, finals_of_named env username pipelineId named] at done
  have before := done finalId final
  rw [taskStatus_putTask]
  by_cases same : finalId = event.taskId
  · subst same
    rw [found] at before
    have completed : admitted.prevTask.status = .completed :=
      Option.some.inj before
    rw [completed] at forward
    rw [mergedTask_taskId, if_pos rfl, mergedTask_status]
    cases status : event.status with
    | completed =>
        rfl
    | failed =>
        exact absurd status notFailed
    | pending =>
        rw [status] at forward
        exact absurd forward (by decide)
    | running =>
        rw [status] at forward
        exact absurd forward (by decide)
    | idle =>
        rw [status] at forward
        exact absurd forward (by decide)
  · rw [mergedTask_taskId, if_neg same]
    exact before

/-- The flags that an event merges do not matter to a run that names its
final tasks. -/
theorem finalsDone_merged_of_all
    (named : admitted.run.finalTaskIds ≠ []) {user pipeline : String}
    (done :
      allFinalsCompleted env (putTask admitted.run event) user pipeline =
        true) :
    FinalsDone env username pipelineId
      (putTask admitted.run (mergedTask admitted event)) := by
  have applied := finalsDone_of_allFinalsCompleted done
  intro finalId final
  rw [finals_of_named env username pipelineId (by simpa using named),
    putTask_finalTaskIds] at final
  rw [FinalsDone,
    finals_of_named env user pipeline (by simpa using named),
    putTask_finalTaskIds] at applied
  have here := applied finalId final
  rw [taskStatus_putTask] at here ⊢
  exact here

theorem noFailedTask_putTask_iff
    (notFailed : event.status ≠ .failed) :
    NoFailedTask (putTask admitted.run (mergedTask admitted event)) ↔
      ¬ ∃ other, other ≠ event.taskId ∧
        (admitted.run.tasks.get? other).map TaskState.status =
          some .failed := by
  constructor
  · rintro none ⟨other, different, failed⟩
    apply none other
    rw [taskStatus_putTask, mergedTask_taskId, if_neg different]
    exact failed
  · intro none taskId
    rw [taskStatus_putTask, mergedTask_taskId, mergedTask_status]
    by_cases same : taskId = event.taskId
    · rw [if_pos same]
      exact fun failed => notFailed (Option.some.inj failed)
    · rw [if_neg same]
      exact fun failed => none ⟨taskId, same, failed⟩

/-- From a document that is complete when it is completed, and that is not
re-forwarded once it is completed, an accepted event leads to such a document
exactly when it does not complete over a failure or move the finals. -/
theorem closeUpdate_complete_iff
    (clock : Clock) (faults : Faults)
    (found :
      admitted.run.tasks.get? event.taskId = some admitted.prevTask)
    (forward : order admitted.prevTask.status ≤ order event.status)
    (complete :
      CompleteWhenCompleted env username pipelineId admitted.run)
    (notReforwarded :
      admitted.run.status = .completed →
        reforwardTarget? env stores event = none) :
    CompleteWhenCompleted env username pipelineId
        (closeUpdate env clock faults stores admitted event).run ↔
      ¬ (CompletesOverFailure env admitted event ∨
        MovesFinals env username pipelineId admitted event) := by
  rw [complete_closeUpdate_iff]
  by_cases failed : event.status = .failed
  · have decided :
        decidedStatus env stores admitted event ≠ .completed := by
      rw [decidedStatus, if_pos failed]
      split
      · rename_i target
        intro completed
        rw [notReforwarded completed] at target
        cases target
      · decide
    constructor
    · rintro _ (overFailure | moves)
      · exact overFailure.1 failed
      · exact moves.1 failed
    · intro _ completed
      exact absurd completed decided
  · rw [noFailedTask_putTask_iff failed, decidedStatus, if_neg failed]
    by_cases closes :
        admitted.run.status = .completed ∨
          allFinalsCompleted env (putTask admitted.run event)
            event.username event.pipelineId = true
    · have decided :
          (if allFinalsCompleted env (putTask admitted.run event)
              event.username event.pipelineId = true then
            PipelineStatus.completed
          else
            admitted.run.status) = .completed := by
        split
        · rfl
        · rename_i notAll
          exact closes.resolve_right notAll
      constructor
      · intro holds
        obtain ⟨done, noneFailed⟩ := holds decided
        rintro (overFailure | moves)
        · exact noneFailed overFailure.2.2
        · exact moves.2.2.2 done
      · intro never _
        rcases closes with completed | all
        · obtain ⟨done, noneFailed⟩ := complete completed
          constructor
          · by_cases named : admitted.run.finalTaskIds = []
            · by_contra notDone
              exact never
                (Or.inr ⟨failed, named, Or.inl completed, notDone⟩)
            · exact finalsDone_putTask named found forward failed done
          · intro someFailed
            rcases someFailed with ⟨other, _, otherFailed⟩
            exact noneFailed other otherFailed
        · refine ⟨?_, fun otherFailed =>
            never (Or.inl ⟨failed, all, otherFailed⟩)⟩
          by_cases named : admitted.run.finalTaskIds = []
          · by_contra notDone
            exact never (Or.inr ⟨failed, named, Or.inr all, notDone⟩)
          · exact finalsDone_merged_of_all named all
    · obtain ⟨running, notAll⟩ := not_or.mp closes
      rw [if_neg notAll]
      constructor
      · rintro _ (overFailure | moves)
        · exact notAll overFailure.2.1
        · exact closes moves.2.2.1
      · intro _ completed
        exact absurd completed running

end Step

/-! ## Runs of reports -/

/-- The report is accepted for the run under `key` and completes it over a
failure, or moves its final tasks. -/
def MasksIncomplete
    (env : TrackerEnv) (username pipelineId key : String)
    (system : System) (report : Report) : Prop :=
  report.event.runKey = key ∧
    ∃ admitted, system.landing? report = some admitted ∧
      (CompletesOverFailure env admitted report.event ∨
        MovesFinals env username pipelineId admitted report.event)

def StoredComplete
    (env : TrackerEnv) (username pipelineId key : String)
    (system : System) : Prop :=
  ∀ doc, system.stores.readRun key = some doc →
    CompleteWhenCompleted env username pipelineId doc.run

/-- A completed run has lost its plan, so that it is never re-forwarded. -/
def UnplannedWhenCompleted (key : String) (system : System) : Prop :=
  ∀ doc, system.stores.readRun key = some doc →
    doc.run.status = .completed → doc.planId = none

theorem reforwardTarget?_of_no_plan
    (env : TrackerEnv) {stores : Stores} {event : TaskState}
    {doc : RunDoc} (stored : stores.readRun event.runKey = some doc)
    (unplanned : doc.planId = none) :
    reforwardTarget? env stores event = none := by
  have noPlan : planForReforward? env stores event = none := by
    simp [planForReforward?, stored, unplanned]
  rw [reforwardTarget?, noPlan, Option.bind_none]

theorem handle_storedComplete_iff
    (env : TrackerEnv) (username pipelineId key : String)
    (system : System) (report : Report)
    (complete : StoredComplete env username pipelineId key system)
    (unplanned : UnplannedWhenCompleted key system) :
    StoredComplete env username pipelineId key
        (system.handle env report) ↔
      ¬ MasksIncomplete env username pipelineId key system report := by
  cases lands : system.landing? report with
  | none =>
      rw [StoredComplete,
        System.readRun_handle_of_elsewhere env _ _ _ (Or.inl lands)]
      simp only [MasksIncomplete, lands, reduceCtorEq, false_and,
        exists_false, and_false, not_false_iff, iff_true]
      exact complete
  | some admitted =>
      by_cases sameKey : report.event.runKey = key
      · subst sameKey
        obtain ⟨doc, stored, sameRun, found, forward⟩ :=
          System.landing?_readRun lands
        have decides :=
          closeUpdate_complete_iff report.clock report.faults
            (sameRun ▸ found) forward (sameRun ▸ complete doc stored)
            fun completed =>
              reforwardTarget?_of_no_plan env stored
                (unplanned doc stored (sameRun ▸ completed))
        simp only [StoredComplete, MasksIncomplete, lands,
          System.readRun_handle_of_landing env lands, true_and,
          Option.some.injEq, exists_eq_left', forall_eq']
        exact decides
      · rw [StoredComplete,
          System.readRun_handle_of_elsewhere env _ _ _
            (Or.inr (Ne.symm sameKey))]
        simp only [MasksIncomplete, sameKey, false_and, not_false_iff,
          iff_true]
        exact complete

theorem unplannedWhenCompleted_kept_by_handle
    (env : TrackerEnv) (key : String) (system : System)
    (report : Report) (unplanned : UnplannedWhenCompleted key system) :
    UnplannedWhenCompleted key (system.handle env report) := by
  intro doc stored completed
  rw [System.readRun_handle] at stored
  cases lands : system.landing? report with
  | none =>
      rw [lands] at stored
      exact unplanned doc stored completed
  | some admitted =>
      rw [lands] at stored
      dsimp only at stored
      split at stored
      · cases stored
        rfl
      · exact unplanned doc stored completed

/-- The stores with the document of a fresh run, to which the plan builder
may have added a plan. -/
def seededStores
    (base : Stores) (username pipelineId runId : String)
    (cfg : PipelineConfigDoc) (pipelineConfigId : Option String)
    (now : Timestamp) (planId : Option String)
    (planRevision : Option Int) : Stores :=
  base.updateRun (runKey username pipelineId runId)
    { run :=
        seedInitialRun username pipelineId runId cfg pipelineConfigId now
      planId := planId
      planRevision := planRevision }

/-- From every seeded run and over every sequence of reports: each stored
state that is completed has its final tasks completed and no task failed,
exactly when no report completes the run over a failed task or moves the
final tasks of a run that names none. -/
theorem completedRun_complete_iff
    (env : TrackerEnv) (username pipelineId runId : String)
    (cfg : PipelineConfigDoc) (pipelineConfigId : Option String)
    (now : Timestamp) (planId : Option String)
    (planRevision : Option Int) (base : Stores)
    (trackers : Nat → TrackerState) (reports : List Report) :
    EveryState (System.handle env)
        (StoredComplete env username pipelineId
          (runKey username pipelineId runId))
        ⟨trackers, seededStores base username pipelineId runId cfg
          pipelineConfigId now planId planRevision⟩ reports ↔
      EveryStep (System.handle env)
        (fun system report =>
          ¬ MasksIncomplete env username pipelineId
            (runKey username pipelineId runId) system report)
        ⟨trackers, seededStores base username pipelineId runId cfg
          pipelineConfigId now planId planRevision⟩ reports := by
  let key := runKey username pipelineId runId
  have seeded :
      ∀ doc, (seededStores base username pipelineId runId cfg
          pipelineConfigId now planId planRevision).readRun key =
            some doc →
        doc.run.status ≠ .completed := by
    intro doc stored
    rw [seededStores, Stores.readRun_updateRun_self] at stored
    cases stored
    simp [seedInitialRun]
  apply
    everyState_iff_everyStep
      (fun system : System =>
        StoredComplete env username pipelineId key system ∧
          UnplannedWhenCompleted key system)
  · intro system good
    exact good.1
  · intro system report good
    exact
      handle_storedComplete_iff env username pipelineId key system report
        good.1 good.2
  · intro system report good after
    exact
      ⟨after,
        unplannedWhenCompleted_kept_by_handle env key system report
          good.2⟩
  · constructor
    · intro doc stored completed
      exact absurd completed (seeded doc stored)
    · intro doc stored completed
      exact absurd completed (seeded doc stored)

def checkAndShip : PipelineConfigDoc where
  taskDict :=
    .ofList
      [("check", { availableServices := some "checker" }),
        ("ship", { availableServices := some "shipper"
                   isFinalTask := true })]

def shipReport (taskId : String) (status : TaskStatus) : TaskState where
  status := status
  pipelineRunId := "run-1"
  taskId := taskId
  username := "alice"
  pipelineId := "pipe-1"

def checkFailsShipCompletes : List Report :=
  [{ clock := ⟨0, 0, 0⟩, event := shipReport "check" .failed },
    { clock := ⟨1, 1, 1⟩, event := shipReport "ship" .completed }]

theorem completed_run_with_failed_task :
    ¬ EveryState (System.handle {})
        (StoredComplete {} "alice" "pipe-1"
          (runKey "alice" "pipe-1" "run-1"))
        ⟨fun _ => {}, seededStores { runs := fun _ => none } "alice"
          "pipe-1" "run-1" checkAndShip none 0 none none⟩
        checkFailsShipCompletes := by
  intro everywhere
  have last :=
    (everyState_iff_prefixes _ _ _ _).mp everywhere
      checkFailsShipCompletes [] rfl
  have failed :
      storedTaskStatus?
        (run (System.handle {})
          ⟨fun _ => {}, seededStores { runs := fun _ => none } "alice"
            "pipe-1" "run-1" checkAndShip none 0 none none⟩
          checkFailsShipCompletes).stores
        (runKey "alice" "pipe-1" "run-1") "check" = some .failed := by
    decide +kernel
  have completed :
      storedStatus?
        (run (System.handle {})
          ⟨fun _ => {}, seededStores { runs := fun _ => none } "alice"
            "pipe-1" "run-1" checkAndShip none 0 none none⟩
          checkFailsShipCompletes).stores
        (runKey "alice" "pipe-1" "run-1") = some .completed := by
    decide +kernel
  obtain ⟨doc, stored, status⟩ := Option.map_eq_some_iff.mp completed
  rw [storedTaskStatus?, stored] at failed
  exact (last doc stored status).2 "check" failed

end Agentcy.Tracker
