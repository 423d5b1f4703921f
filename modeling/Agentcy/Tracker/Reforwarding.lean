import Agentcy.Tracker.System

/-!
# What becomes of a re-forwarded task

The helper puts a re-forwarded task back to pending, and the caller then
assigns the failed event to the task a second time before it writes.  The
stored task is failed, failure is the top of the forward-only order, and so no
later report of the task but another failure is ever accepted.
-/

namespace Agentcy.Tracker

open Agentcy.Library
open Agentcy.Runs

theorem eq_failed_of_order_le
    {status : TaskStatus} (above : order .failed ≤ order status) :
    status = .failed := by
  cases status <;> first | rfl | (exact absurd above (by decide))

/-- Only a failure is accepted for a task stored as failed. -/
theorem event_failed_of_landing
    {system : System} {report : Report} {admitted : Admitted}
    (lands : system.landing? report = some admitted)
    (stored :
      storedTaskStatus? system.stores report.event.runKey
        report.event.taskId = some .failed) :
    report.event.status = .failed := by
  obtain ⟨doc, found, _, prev, forward⟩ :=
    System.landing?_readRun lands
  have prevFailed : admitted.prevTask.status = .failed := by
    simpa [storedTaskStatus?, found, RunDoc.taskStatus?, prev]
      using stored
  rw [prevFailed] at forward
  exact eq_failed_of_order_le forward

theorem failed_task_kept_by_handle
    (env : TrackerEnv) (key taskId : String)
    (system : System) (report : Report)
    (failed :
      storedTaskStatus? system.stores key taskId = some .failed) :
    storedTaskStatus? (system.handle env report).stores key taskId =
      some .failed := by
  cases lands : system.landing? report with
  | none =>
      rw [storedTaskStatus?,
        System.readRun_handle_of_elsewhere env _ _ _ (Or.inl lands)]
      exact failed
  | some admitted =>
      by_cases sameKey : key = report.event.runKey
      · subst sameKey
        rw [System.storedTaskStatus?_handle_of_landing env lands]
        by_cases sameTask : taskId = report.event.taskId
        · subst sameTask
          rw [if_pos rfl, event_failed_of_landing lands failed]
        · rw [if_neg sameTask]
          exact failed
      · rw [storedTaskStatus?,
          System.readRun_handle_of_elsewhere env _ _ _ (Or.inr sameKey)]
        exact failed

/-- A task stored as failed stays failed under every sequence of reports. -/
theorem failed_task_kept_by_run
    (env : TrackerEnv) (key taskId : String)
    (system : System) (reports : List Report)
    (failed :
      storedTaskStatus? system.stores key taskId = some .failed) :
    storedTaskStatus? (run (System.handle env) system reports).stores
      key taskId = some .failed :=
  run_invariant_always
    (fun current : System =>
      storedTaskStatus? current.stores key taskId = some .failed)
    (failed_task_kept_by_handle env key taskId) reports failed

/-- The stored run waits for a final task that is recorded as failed. -/
def WaitsForFailedTask
    (key taskId : String) (stores : Stores) : Prop :=
  ∃ doc, stores.readRun key = some doc ∧
    taskId ∈ doc.run.finalTaskIds ∧
    doc.taskStatus? taskId = some .failed ∧
    doc.run.status ≠ .completed

theorem allFinalsCompleted_false
    (env : TrackerEnv) {run : PipelineRun} {taskId : String}
    (username pipelineId : String)
    (final : taskId ∈ run.finalTaskIds)
    (notDone :
      (run.tasks.get? taskId).map TaskState.status ≠ some .completed) :
    allFinalsCompleted env run username pipelineId = false := by
  have finalIds : finals env run username pipelineId =
      run.finalTaskIds := by
    rw [finals]
    exact if_pos (List.ne_nil_of_mem final)
  rw [allFinalsCompleted, finalIds]
  by_contra done
  simp only [Bool.not_eq_false, Bool.and_eq_true,
    List.all_eq_true, decide_eq_true_eq] at done
  exact notDone (done.2 taskId final)

theorem decidedStatus_ne_completed
    (env : TrackerEnv) (stores : Stores) {admitted : Admitted}
    {event : TaskState}
    (running : admitted.run.status ≠ .completed)
    (waits : event.status ≠ .failed →
      allFinalsCompleted env (putTask admitted.run event) event.username
        event.pipelineId = false) :
    decidedStatus env stores admitted event ≠ .completed := by
  rw [decidedStatus]
  by_cases failed : event.status = .failed
  · rw [if_pos failed]
    split
    · exact running
    · decide
  · rw [if_neg failed, waits failed]
    exact running

theorem waitsForFailedTask_kept_by_handle
    (env : TrackerEnv) (key taskId : String)
    (system : System) (report : Report)
    (waits : WaitsForFailedTask key taskId system.stores) :
    WaitsForFailedTask key taskId (system.handle env report).stores := by
  obtain ⟨doc, stored, final, failed, running⟩ := waits
  have stillFailed :=
    failed_task_kept_by_handle env key taskId system report
      (by simpa [storedTaskStatus?, stored] using failed)
  cases lands : system.landing? report with
  | none =>
      refine ⟨doc, ?_, final, failed, running⟩
      rw [System.readRun_handle_of_elsewhere env _ _ _ (Or.inl lands)]
      exact stored
  | some admitted =>
      by_cases sameKey : key = report.event.runKey
      · subst sameKey
        have written := System.readRun_handle_of_landing env lands
        obtain ⟨found, foundStored, sameRun, _, _⟩ :=
          System.landing?_readRun lands
        have sameDoc : found = doc := by
          rw [stored] at foundStored
          exact (Option.some.inj foundStored).symm
        subst sameDoc
        refine ⟨_, written, ?_, ?_, ?_⟩
        · simpa [PipelineRun.modelDump, closeUpdate_finalTaskIds,
            sameRun] using final
        · simpa [storedTaskStatus?, written] using stillFailed
        · simp only [PipelineRun.modelDump, closeUpdate_status]
          apply decidedStatus_ne_completed env _ (sameRun ▸ running)
          intro notFailed
          have notDone :
              ((putTask admitted.run report.event).tasks.get?
                taskId).map TaskState.status ≠ some .completed := by
            rw [putTask_tasks, OrderedMap.get?_set]
            by_cases sameTask : taskId = report.event.taskId
            · subst sameTask
              exact absurd
                (event_failed_of_landing lands
                  (by simpa [storedTaskStatus?, stored] using failed))
                notFailed
            · rw [if_neg sameTask, sameRun]
              rw [RunDoc.taskStatus?] at failed
              rw [failed]
              decide
          apply allFinalsCompleted_false env _ _ _ notDone
          simpa [sameRun] using final
      · refine ⟨doc, ?_, final, failed, running⟩
        rw [System.readRun_handle_of_elsewhere env _ _ _ (Or.inr sameKey)]
        exact stored

/-- The document written by the call holds the task as pending, with the
service that the re-forward chose. -/
def PersistsReset
    (stores : Stores) (key : String) (info : ReforwardInfo) : Prop :=
  ∃ doc task, stores.readRun key = some doc ∧
    doc.run.tasks.get? info.taskId = some task ∧
    task.status = .pending ∧ task.serviceName = info.newService

/-- Some later report of the task's completion is accepted. -/
def CompletionLands
    (env : TrackerEnv) (system : System) (key taskId : String) : Prop :=
  ∃ (reports : List Report) (completion : Report),
    completion.event.runKey = key ∧ completion.event.taskId = taskId ∧
      completion.event.status = .completed ∧
      ((run (System.handle env) system reports).landing?
        completion).isSome

/-- The run is stored as completed after some sequence of later reports. -/
def RunCompletes
    (env : TrackerEnv) (system : System) (key : String) : Prop :=
  ∃ reports : List Report,
    storedStatus? (run (System.handle env) system reports).stores key =
      some .completed

theorem reforwarded_landing
    {env : TrackerEnv} {system : System} {report : Report}
    {info : ReforwardInfo}
    (reforwarded :
      (system.respond env report).verdict.returned = some info) :
    ∃ admitted, system.landing? report = some admitted ∧
      report.event.status = .failed ∧
      info.taskId = report.event.taskId := by
  cases lands : system.landing? report with
  | none =>
      have nothing := (onTaskDone_of_no_landing env lands).1
      exact absurd (nothing.symm.trans reforwarded) (by simp)
  | some admitted =>
      have verdict := (onTaskDone_of_landing env lands).2.1
      have returned :
          (closeUpdate env report.clock report.faults system.stores
            admitted report.event).info = some info := by
        rw [← reforwarded]
        exact (congrArg Verdict.returned verdict).symm
      have failed : report.event.status = .failed := by
        have decided :=
          closeUpdate_info env report.clock report.faults system.stores
            admitted report.event
        rw [returned] at decided
        have both := decided.symm
        simp only [Option.isSome_some, Bool.and_eq_true,
          decide_eq_true_eq] at both
        exact both.1
      refine ⟨admitted, rfl, failed, ?_⟩
      exact
        closeUpdate_info_taskId env report.clock report.faults
          system.stores admitted report.event returned

/-- In every state and for every failed event that on_task_done answers with
a re-forward, the reset is not what is stored, no completion of the task is
ever accepted afterwards, and a run that waits for the task never completes. -/
theorem reforwarded_task_never_completes
    (env : TrackerEnv) (system : System) (report : Report)
    (info : ReforwardInfo)
    (reforwarded :
      (system.respond env report).verdict.returned = some info) :
    let key := report.event.runKey
    let after := system.handle env report
    ¬ PersistsReset after.stores key info ∧
      ¬ CompletionLands env after key info.taskId ∧
      ∀ doc, system.stores.readRun key = some doc →
        info.taskId ∈ doc.run.finalTaskIds →
          doc.run.status ≠ .completed →
            ¬ RunCompletes env after key := by
  intro key after
  obtain ⟨admitted, lands, failed, sameTask⟩ :=
    reforwarded_landing reforwarded
  have storedFailed :
      storedTaskStatus? after.stores key info.taskId = some .failed := by
    rw [System.storedTaskStatus?_handle_of_landing env lands, sameTask,
      if_pos rfl, failed]
  refine ⟨?_, ?_, ?_⟩
  · rintro ⟨doc, task, stored, found, pending, _⟩
    have status :
        storedTaskStatus? after.stores key info.taskId =
          some task.status := by
      simp [storedTaskStatus?, stored, RunDoc.taskStatus?, found]
    rw [storedFailed, pending] at status
    cases status
  · rintro ⟨reports, completion, sameKey, sameId, completed, accepted⟩
    obtain ⟨later, laterLands⟩ := Option.isSome_iff_exists.mp accepted
    have stillFailed :=
      failed_task_kept_by_run env key info.taskId after reports
        storedFailed
    rw [← sameKey, ← sameId] at stillFailed
    have alsoFailed := event_failed_of_landing laterLands stillFailed
    rw [completed] at alsoFailed
    cases alsoFailed
  · rintro doc stored final running ⟨reports, completes⟩
    obtain ⟨found, foundStored, sameRun, _, _⟩ :=
      System.landing?_readRun lands
    have sameDoc : found = doc :=
      Option.some.inj (foundStored.symm.trans stored)
    subst sameDoc
    have waits : WaitsForFailedTask key info.taskId after.stores := by
      refine ⟨_, System.readRun_handle_of_landing env lands, ?_, ?_, ?_⟩
      · simpa [PipelineRun.modelDump, closeUpdate_finalTaskIds, sameRun]
          using final
      · rw [storedTaskStatus?,
          System.readRun_handle_of_landing env lands,
          Option.bind_some] at storedFailed
        exact storedFailed
      · simp only [PipelineRun.modelDump, closeUpdate_status]
        apply decidedStatus_ne_completed env _ (sameRun ▸ running)
        intro notFailed
        exact absurd failed notFailed
    have stillWaits :=
      run_invariant_always
        (fun current : System =>
          WaitsForFailedTask key info.taskId current.stores)
        (waitsForFailedTask_kept_by_handle env key info.taskId)
        reports waits
    obtain ⟨last, lastStored, _, _, notCompleted⟩ := stillWaits
    simp only [storedStatus?, lastStored, Option.map_some,
      Option.some.injEq] at completes
    exact notCompleted completes

/-! ## A failed task with a second candidate -/

def twoCandidates : EvaluationSequence where
  taskId := "t"
  pipelineId := "pipe-1"
  planId := "plan-1"
  candidates :=
    [{ bidderId := "agent-a", bidScore := 9 / 10 },
      { bidderId := "agent-b", bidScore := 7 / 10 }]

def reforwardSystem : System where
  stores :=
    Stores.saveEvaluationSequence
      { runs := fun key =>
          if key = runKey "alice" "pipe-1" "run-1" then
            some
              { run := seedInitialRun "alice" "pipe-1" "run-1"
                  { taskDict := .ofList
                      [("t", { availableServices := some "svc-a"
                               isFinalTask := true })] }
                  none 0
                planId := some "plan-1" }
          else
            none }
      "alice" twoCandidates

def taskFailure : Report where
  clock := ⟨0, 0, 0⟩
  event :=
    { status := .failed
      pipelineRunId := "run-1"
      taskId := "t"
      username := "alice"
      pipelineId := "pipe-1"
      serviceName := "svc-a" }

def secondCandidate : ReforwardInfo where
  taskId := "t"
  newService := "agent-b"
  newAgentId := "agent-b"
  sequenceIndex := 1
  bidScore := 7 / 10

/-- The general statement at a run whose failed task has a second candidate. -/
theorem second_candidate_never_completes :
    (reforwardSystem.respond {} taskFailure).verdict.returned =
        some secondCandidate ∧
      ¬ CompletionLands {} (reforwardSystem.handle {} taskFailure)
        taskFailure.event.runKey "t" := by
  have reforwarded :
      (reforwardSystem.respond {} taskFailure).verdict.returned =
        some secondCandidate := by
    decide +kernel
  exact
    ⟨reforwarded,
      (reforwarded_task_never_completes {} reforwardSystem taskFailure
        secondCandidate reforwarded).2.1⟩

def taskCompletion : Report where
  clock := ⟨60, 60, 60⟩
  event := { taskFailure.event with status := .completed }

theorem second_candidate_reset_lost :
    (reforwardSystem.respond {} taskFailure).verdict.returned =
        some secondCandidate ∧
      ¬ PersistsReset (reforwardSystem.handle {} taskFailure).stores
        taskFailure.event.runKey secondCandidate ∧
      storedStatus?
        (run (System.handle {}) reforwardSystem
          [taskFailure, taskCompletion]).stores
        taskFailure.event.runKey = some .running := by
  refine ⟨by decide +kernel, ?_, by decide +kernel⟩
  rintro ⟨doc, task, stored, found, pending, _⟩
  have computed :
      storedTaskStatus? (reforwardSystem.handle {} taskFailure).stores
        taskFailure.event.runKey secondCandidate.taskId =
          some .failed := by
    decide +kernel
  have status :
      storedTaskStatus? (reforwardSystem.handle {} taskFailure).stores
        taskFailure.event.runKey secondCandidate.taskId =
          some task.status := by
    simp only [storedTaskStatus?, stored, Option.bind_some,
      RunDoc.taskStatus?, found, Option.map_some]
  rw [computed, pending] at status
  cases status

end Agentcy.Tracker
