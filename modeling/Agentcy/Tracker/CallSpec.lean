import Agentcy.Tracker.OnTaskDone

/-!
# What one tracker call does to the run documents

A call lands when its event is not remembered, its run document is found, the
task is known, the transition goes forward and the write succeeds.  A call
that lands replaces one document by a document described here; every other
call leaves all run documents alone.
-/

namespace Agentcy.Tracker

open Agentcy.Library
open Agentcy.Runs

/-- The duplicate check of a call. -/
def remembered
    (clock : Clock) (tracker : TrackerState) (event : TaskState) : Bool :=
  ((tracker.dedupe event.pipelineRunId).contains
    (eventKey event) clock.checkedAt).1

/-- The read half of a call whose write will go through. -/
def landing?
    (clock : Clock) (faults : Faults) (tracker : TrackerState)
    (stores : Stores) (event : TaskState) : Option Admitted :=
  if remembered clock tracker event || faults.updateRunFails then
    none
  else
    (stores.readRun event.runKey).bind fun doc =>
      (acceptEvent doc event).toOption

/-- The candidate that would take over the task of a failed event. -/
def reforwardTarget?
    (env : TrackerEnv) (stores : Stores) (event : TaskState) :
    Option (Candidate × Nat) :=
  (planForReforward? env stores event).bind fun planId =>
    stores.nextCandidate? event.username event.taskId planId

/-- Run status that a landing call writes. -/
def decidedStatus
    (env : TrackerEnv) (stores : Stores) (admitted : Admitted)
    (event : TaskState) : PipelineStatus :=
  if event.status = .failed then
    if (reforwardTarget? env stores event).isSome then
      admitted.run.status
    else
      .failed
  else if
      allFinalsCompleted env (putTask admitted.run event) event.username
        event.pipelineId then
    .completed
  else
    admitted.run.status

theorem acceptEvent_ok
    {doc : RunDoc} {event : TaskState} {admitted : Admitted}
    (ok : acceptEvent doc event = .ok admitted) :
    admitted.run = doc.run ∧
      doc.run.tasks.get? event.taskId = some admitted.prevTask ∧
      order admitted.prevTask.status ≤ order event.status := by
  unfold acceptEvent at ok
  cases found : doc.run.tasks.get? event.taskId with
  | none =>
      simp only [found] at ok
      cases ok
  | some prevTask =>
      simp only [found] at ok
      by_cases forward : forwardOnly prevTask.status event.status = true
      · rw [if_pos forward] at ok
        cases ok
        exact ⟨rfl, rfl, by simpa [forwardOnly] using forward⟩
      · rw [if_neg forward] at ok
        cases ok

theorem landing?_some
    {clock : Clock} {faults : Faults} {tracker : TrackerState}
    {stores : Stores} {event : TaskState} {admitted : Admitted}
    (lands : landing? clock faults tracker stores event = some admitted) :
    remembered clock tracker event = false ∧
      faults.updateRunFails = false ∧
      ∃ doc, stores.readRun event.runKey = some doc ∧
        acceptEvent doc event = .ok admitted := by
  unfold landing? at lands
  by_cases blocked :
      (remembered clock tracker event || faults.updateRunFails) = true
  · rw [if_pos blocked] at lands
    cases lands
  · rw [if_neg blocked] at lands
    obtain ⟨doc, stored, accepted⟩ := Option.bind_eq_some_iff.mp lands
    simp only [Bool.or_eq_true, not_or, Bool.not_eq_true] at blocked
    refine ⟨blocked.1, blocked.2, doc, stored, ?_⟩
    cases result : acceptEvent doc event with
    | error verdict =>
        simp [result, Except.toOption] at accepted
    | ok found =>
        simpa [result, Except.toOption] using accepted

section Helper

variable (env : TrackerEnv) (faults : Faults) (stores : Stores)
  (run : PipelineRun) (event : TaskState)

theorem tryReforwardSync_status :
    (tryReforwardSync env faults stores run event).run.status =
      run.status := by
  unfold tryReforwardSync
  split
  · dsimp only
    split <;> rfl
  · rfl

theorem tryReforwardSync_finalTaskIds :
    (tryReforwardSync env faults stores run event).run.finalTaskIds =
      run.finalTaskIds := by
  unfold tryReforwardSync
  split
  · dsimp only
    split <;> rfl
  · rfl

/-- A later write of the failed task hides what the helper put there. -/
theorem tryReforwardSync_tasks_set (task : TaskState) :
    (tryReforwardSync env faults stores run event).run.tasks.set
        event.taskId task =
      run.tasks.set event.taskId task := by
  unfold tryReforwardSync
  split
  · dsimp only
    split
    · rfl
    · exact OrderedMap.set_set_self _ _ _ _
  · rfl

theorem readRun_reassign
    (taskState : TaskState) (planId : String)
    (candidate : Candidate) (sequenceIndex : Nat) (key : String) :
    (reassign env faults stores run event taskState planId candidate
      sequenceIndex).stores.readRun key = stores.readRun key := by
  unfold reassign
  dsimp only
  split <;> rfl

theorem readRun_tryReforwardSync (key : String) :
    (tryReforwardSync env faults stores run event).stores.readRun key =
      stores.readRun key := by
  unfold tryReforwardSync
  split
  · dsimp only
    split
    · exact Stores.readRun_advanceEvaluationSequence _ _ _ _ _
    · rw [readRun_reassign, Stores.readRun_advanceEvaluationSequence]
  · rfl

/-- The helper re-forwards exactly when a plan is known and its sequence has
a next candidate. -/
theorem tryReforwardSync_info
    (known : (run.tasks.get? event.taskId).isSome) :
    (tryReforwardSync env faults stores run event).info =
      (reforwardTarget? env stores event).map fun target =>
        { taskId := event.taskId
          newService :=
            (serviceForTask env event.username event.pipelineId
              event.taskId).getD target.1.bidderId
          newAgentId := target.1.bidderId
          sequenceIndex := target.2
          bidScore := target.1.bidScore } := by
  obtain ⟨taskState, found⟩ := Option.isSome_iff_exists.mp known
  unfold tryReforwardSync reforwardTarget?
  cases plan : planForReforward? env stores event with
  | none =>
      simp
  | some planId =>
      simp only [found, Option.bind_some,
        Stores.advanceEvaluationSequence_snd]
      cases stores.nextCandidate? event.username event.taskId planId with
      | none =>
          rfl
      | some target =>
          rfl

end Helper

section Write

variable (env : TrackerEnv) (clock : Clock) (faults : Faults)
  (stores : Stores) (admitted : Admitted) (event : TaskState)

private theorem info_isSome_of_applied :
    (tryReforwardSync env faults stores (putTask admitted.run event)
      event).info.isSome = (reforwardTarget? env stores event).isSome := by
  have known :
      ((putTask admitted.run event).tasks.get? event.taskId).isSome := by
    simp [putTask]
  rw [tryReforwardSync_info env faults stores _ event known]
  exact Option.isSome_map

/-- Whatever the decision was, the task that is written is the event itself:
the second assignment hides what the helper put there. -/
theorem closeUpdate_tasks :
    (closeUpdate env clock faults stores admitted event).run.tasks =
      admitted.run.tasks.set event.taskId (mergedTask admitted event) := by
  have hidden :=
    tryReforwardSync_tasks_set env faults stores
      (putTask admitted.run event) event (mergedTask admitted event)
  rw [putTask_tasks, OrderedMap.set_set_self] at hidden
  unfold closeUpdate
  dsimp only
  rw [putTask_tasks, mergedTask_taskId]
  split
  · split <;> exact hidden
  · split <;> exact OrderedMap.set_set_self _ _ _ _

theorem closeUpdate_status :
    (closeUpdate env clock faults stores admitted event).run.status =
      decidedStatus env stores admitted event := by
  have target := info_isSome_of_applied env faults stores admitted event
  unfold closeUpdate decidedStatus
  dsimp only
  rw [putTask_status]
  by_cases failed : event.status = .failed
  · simp only [if_pos failed, ← target]
    cases info :
        (tryReforwardSync env faults stores (putTask admitted.run event)
          event).info with
    | none =>
        rfl
    | some _ =>
        exact tryReforwardSync_status env faults stores _ event
  · simp only [if_neg failed]
    split <;> rfl

theorem closeUpdate_info :
    (closeUpdate env clock faults stores admitted event).info.isSome =
      (decide (event.status = .failed) &&
        (reforwardTarget? env stores event).isSome) := by
  have target := info_isSome_of_applied env faults stores admitted event
  unfold closeUpdate
  dsimp only
  by_cases failed : event.status = .failed
  · simp only [if_pos failed, ← target]
    cases info :
        (tryReforwardSync env faults stores (putTask admitted.run event)
          event).info with
    | none =>
        simp only [failed, Option.isSome_none, Bool.and_false]
    | some _ =>
        simp only [info, failed, decide_true, Option.isSome_some,
          Bool.and_true]
  · rw [if_neg failed, decide_eq_false failed, Bool.false_and]
    split <;> rfl

/-- A failure is answered with the candidate that takes over. -/
theorem closeUpdate_info_of_failed (failed : event.status = .failed) :
    (closeUpdate env clock faults stores admitted event).info =
      (reforwardTarget? env stores event).map fun target =>
        { taskId := event.taskId
          newService :=
            (serviceForTask env event.username event.pipelineId
              event.taskId).getD target.1.bidderId
          newAgentId := target.1.bidderId
          sequenceIndex := target.2
          bidScore := target.1.bidScore } := by
  have known :
      ((putTask admitted.run event).tasks.get? event.taskId).isSome := by
    simp
  rw [← tryReforwardSync_info env faults stores _ event known]
  unfold closeUpdate
  dsimp only
  rw [if_pos failed]
  cases info :
      (tryReforwardSync env faults stores (putTask admitted.run event)
        event).info with
  | none =>
      rfl
  | some _ =>
      exact info

theorem closeUpdate_info_taskId {info : ReforwardInfo}
    (returned :
      (closeUpdate env clock faults stores admitted event).info =
        some info) :
    info.taskId = event.taskId := by
  have known :
      ((putTask admitted.run event).tasks.get? event.taskId).isSome := by
    simp
  have named :=
    tryReforwardSync_info env faults stores
      (putTask admitted.run event) event known
  unfold closeUpdate at returned
  dsimp only at returned
  split at returned
  · split at returned
    · rename_i found matched
      rw [returned] at named
      obtain ⟨target, _, same⟩ := Option.map_eq_some_iff.mp named.symm
      rw [← same]
    · rename_i missing
      rw [missing] at returned
      cases returned
  · split at returned <;> cases returned

theorem closeUpdate_finalTaskIds :
    (closeUpdate env clock faults stores admitted event).run.finalTaskIds =
      admitted.run.finalTaskIds := by
  have helperKeeps :=
    tryReforwardSync_finalTaskIds env faults stores
      (putTask admitted.run event) event
  unfold closeUpdate
  dsimp only
  split
  · split <;> exact helperKeeps
  · split <;> rfl

theorem readRun_closeUpdate (key : String) :
    (closeUpdate env clock faults stores admitted event).stores.readRun
        key = stores.readRun key := by
  have helperKeeps :=
    readRun_tryReforwardSync env faults stores
      (putTask admitted.run event) event key
  unfold closeUpdate
  dsimp only
  split
  · split <;> exact helperKeeps
  · split <;> rfl

end Write

/-! ## The whole call -/

section Call

variable (env : TrackerEnv) {clock : Clock} {faults : Faults}
  {tracker : TrackerState} {stores : Stores} {event : TaskState}

theorem onTaskDone_of_landing {admitted : Admitted}
    (lands : landing? clock faults tracker stores event = some admitted) :
    let closed := closeUpdate env clock faults stores admitted event
    let result := onTaskDone env clock faults tracker stores event
    result.stores =
        closed.stores.updateRun event.runKey closed.run.modelDump ∧
      result.verdict = .persisted closed.info ∧
      result.effects =
        closed.effects ++
          effectsAfterWrite env admitted.run.status closed.run event := by
  obtain ⟨fresh, written, doc, stored, accepted⟩ := landing?_some lands
  unfold remembered at fresh
  simp [onTaskDone, fresh, stored, accepted, written]

/-- A landing call remembers its event key. -/
theorem dedupe_onTaskDone_of_landing {admitted : Admitted}
    (lands : landing? clock faults tracker stores event = some admitted) :
    (onTaskDone env clock faults tracker stores event).tracker.dedupe
        event.pipelineRunId =
      (((tracker.dedupe event.pipelineRunId).contains (eventKey event)
        clock.checkedAt).2.add (eventKey event) clock.addedAt) := by
  obtain ⟨fresh, written, doc, stored, accepted⟩ := landing?_some lands
  rw [remembered] at fresh
  simp [onTaskDone, fresh, stored, accepted, written,
    TrackerState.setDeduper]

/-- The dump of the run drops the plan id, so that a run is re-forwarded at
most once. -/
theorem reforwardTarget?_after_landing {admitted : Admitted}
    (lands : landing? clock faults tracker stores event = some admitted)
    (later : TaskState) (sameRun : later.runKey = event.runKey) :
    reforwardTarget? env
        (onTaskDone env clock faults tracker stores event).stores later =
      none := by
  have noPlan :
      planForReforward? env
        (onTaskDone env clock faults tracker stores event).stores later =
          none := by
    rw [planForReforward?, (onTaskDone_of_landing env lands).1, sameRun,
      Stores.readRun_updateRun_self]
    simp [PipelineRun.modelDump]
  rw [reforwardTarget?, noPlan, Option.bind_none]

theorem onTaskDone_of_no_landing
    (misses : landing? clock faults tracker stores event = none) :
    let result := onTaskDone env clock faults tracker stores event
    result.verdict.returned = none ∧
      ∀ key, result.stores.readRun key = stores.readRun key := by
  unfold onTaskDone
  dsimp only
  by_cases duplicate : remembered clock tracker event = true
  · unfold remembered at duplicate
    simp [duplicate, Verdict.returned]
  · have fresh : remembered clock tracker event = false := by
      simpa using duplicate
    unfold landing? at misses
    rw [fresh, Bool.false_or] at misses
    unfold remembered at fresh
    rw [fresh]
    cases stored : stores.readRun event.runKey with
    | none =>
        simp [Verdict.returned]
    | some doc =>
        cases accepted : acceptEvent doc event with
        | error verdict =>
            have rejected : verdict.returned = none := by
              unfold acceptEvent at accepted
              split at accepted
              · cases accepted
                rfl
              · split at accepted
                · cases accepted
                · cases accepted
                  rfl
            simp [accepted, rejected]
        | ok admitted =>
            have raised : faults.updateRunFails = true := by
              by_contra writes
              simp [writes, stored, accepted, Except.toOption] at misses
            simp [accepted, raised, Verdict.returned,
              readRun_closeUpdate]

/-- The run documents after a call. -/
theorem readRun_onTaskDone (key : String) :
    (onTaskDone env clock faults tracker stores event).stores.readRun key =
      match landing? clock faults tracker stores event with
      | none => stores.readRun key
      | some admitted =>
          if key = event.runKey then
            some (closeUpdate env clock faults stores admitted
              event).run.modelDump
          else
            stores.readRun key := by
  cases lands : landing? clock faults tracker stores event with
  | none =>
      exact (onTaskDone_of_no_landing env lands).2 key
  | some admitted =>
      dsimp only
      rw [(onTaskDone_of_landing env lands).1]
      by_cases same : key = event.runKey
      · subst same
        simp
      · rw [Stores.readRun_updateRun_other _ _ same,
          readRun_closeUpdate, if_neg same]

end Call

end Agentcy.Tracker
