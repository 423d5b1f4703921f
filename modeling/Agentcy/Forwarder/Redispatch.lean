import Agentcy.Tracker.System

/-!
# The re-dispatch loop of the forwarder

`DefaultForwarder.forward` runs the microservice logic of a task, persists the
output, reports the final task state to its tracker, and starts over with the
next agent as long as the tracker re-forwards a failure and the cap on
re-forwards is not reached.
-/

namespace Agentcy.Forwarder

open Agentcy.Library
open Agentcy.Runs
open Agentcy.Tracker

/-- What the microservice logic returns, as far as it is persisted. -/
structure RawOutput where
  result : Option String := none

/-- The outcome of one pass through the loop. -/
structure Attempt where
  -- `none` is an exception that outlives the retries of the logic
  logic : Option RawOutput
  -- the reference of the stored output, or the text of the last error
  persist : Except String String := .ok ""
  clock : Clock
  faults : Faults := {}

def Attempt.succeeds (attempt : Attempt) : Bool :=
  attempt.logic.isSome && attempt.persist.toBool

/-- The base state after the logic has run.  The winner of an inline
resolution is recorded only with a success. -/
def executedState
    (payload base : TaskState) (winnerResolved : Bool)
    (attempt : Attempt) : TaskState :=
  match attempt.logic with
  | some _ =>
      { base with
        status := .completed
        lastUpdated := attempt.clock.wall
        serviceName :=
          if winnerResolved then payload.serviceName
          else base.serviceName }
  | none =>
      { base with
        status := .failed
        lastUpdated := attempt.clock.wall }

/-- The final task state of one pass: the executed state with the reference
of its output, or a failure when the output could not be stored. -/
def finalTaskState
    (payload base : TaskState) (winnerResolved : Bool)
    (attempt : Attempt) : TaskState :=
  let executed := executedState payload base winnerResolved attempt
  match attempt.persist with
  | .ok outputRef =>
      { executed with
        outputRef := some outputRef
        lastUpdated := attempt.clock.wall
        result := attempt.logic.bind RawOutput.result }
  | .error reason =>
      { executed with
        error := some ("Persistence error: " ++ reason)
        status := .failed
        lastUpdated := attempt.clock.wall }

/-- The base state of the next pass: the original input, given to the new
service. -/
def retryState
    (payload : TaskState) (info : ReforwardInfo) (attempt : Attempt) :
    TaskState :=
  { payload with
    status := .running
    error := none
    serviceName := info.newService
    lastUpdated := attempt.clock.wall }

/-- The answer of the tracker is looked at after a failure only. -/
def reforwardInfo?
    (finalState : TaskState) (result : TrackerResult) :
    Option ReforwardInfo :=
  if finalState.status = .failed then result.verdict.returned else none

/-- What the loop leaves behind. -/
structure Dispatched where
  finalState : TaskState
  tracker : TrackerState
  stores : Stores

section Loop

variable (env : TrackerEnv) (payload : TaskState) (winnerResolved : Bool)
  (attempts : Nat → Attempt)

/-- The loop with `remaining` re-forwards left before the cap; `count` is the
number of re-forwards made so far. -/
def dispatchLoop :
    Nat → Nat → TaskState → TrackerState → Stores → Dispatched
  | 0, count, base, tracker, stores =>
      let attempt := attempts count
      let finalState :=
        finalTaskState payload base winnerResolved attempt
      let result :=
        onTaskDone env attempt.clock attempt.faults tracker stores
          finalState
      ⟨finalState, result.tracker, result.stores⟩
  | remaining + 1, count, base, tracker, stores =>
      let attempt := attempts count
      let finalState :=
        finalTaskState payload base winnerResolved attempt
      let result :=
        onTaskDone env attempt.clock attempt.faults tracker stores
          finalState
      match reforwardInfo? finalState result with
      | some info =>
          dispatchLoop remaining (count + 1)
            (retryState payload info attempt) result.tracker
            result.stores
      | none => ⟨finalState, result.tracker, result.stores⟩

/-- The loop from its start.  The base state is the payload with the service
it had before an inline resolution; a cap below zero leaves no re-forward. -/
def dispatch
    (baseService : String) (maxReforwards : Int)
    (tracker : TrackerState) (stores : Stores) : Dispatched :=
  dispatchLoop env payload winnerResolved attempts
    maxReforwards.toNat 0 { payload with serviceName := baseService }
    tracker stores

end Loop

/-- Two states of one task of one run: what the stores and the tracker look
up by is the same. -/
structure SameTask (first second : TaskState) : Prop where
  taskId : first.taskId = second.taskId
  username : first.username = second.username
  pipelineId : first.pipelineId = second.pipelineId
  pipelineRunId : first.pipelineRunId = second.pipelineRunId
  attempts : first.attempts = second.attempts

namespace SameTask

variable {first second third : TaskState}

theorem symm (same : SameTask first second) : SameTask second first :=
  ⟨same.taskId.symm, same.username.symm, same.pipelineId.symm,
    same.pipelineRunId.symm, same.attempts.symm⟩

theorem trans
    (left : SameTask first second) (right : SameTask second third) :
    SameTask first third :=
  ⟨left.taskId.trans right.taskId, left.username.trans right.username,
    left.pipelineId.trans right.pipelineId,
    left.pipelineRunId.trans right.pipelineRunId,
    left.attempts.trans right.attempts⟩

theorem runKey (same : SameTask first second) :
    first.runKey = second.runKey := by
  simp only [TaskState.runKey, same.username, same.pipelineId,
    same.pipelineRunId]

theorem eventKey
    (same : SameTask first second)
    (status : first.status = second.status) :
    eventKey first = eventKey second := by
  simp only [Tracker.eventKey, same.taskId, same.attempts, status]

end SameTask

theorem executedState_sameTask
    {payload base : TaskState} (same : SameTask base payload)
    (winnerResolved : Bool) (attempt : Attempt) :
    SameTask (executedState payload base winnerResolved attempt)
      payload := by
  obtain ⟨taskId, username, pipelineId, runId, attempts⟩ := same
  rw [executedState]
  cases attempt.logic with
  | none =>
      exact ⟨taskId, username, pipelineId, runId, attempts⟩
  | some _ =>
      exact ⟨taskId, username, pipelineId, runId, attempts⟩

theorem finalTaskState_sameTask
    {payload base : TaskState} (same : SameTask base payload)
    (winnerResolved : Bool) (attempt : Attempt) :
    SameTask (finalTaskState payload base winnerResolved attempt)
      payload := by
  obtain ⟨taskId, username, pipelineId, runId, attempts⟩ :=
    executedState_sameTask same winnerResolved attempt
  rw [finalTaskState]
  cases attempt.persist with
  | ok _ =>
      exact ⟨taskId, username, pipelineId, runId, attempts⟩
  | error _ =>
      exact ⟨taskId, username, pipelineId, runId, attempts⟩

theorem retryState_sameTask
    (payload : TaskState) (info : ReforwardInfo) (attempt : Attempt) :
    SameTask (retryState payload info attempt) payload :=
  ⟨rfl, rfl, rfl, rfl, rfl⟩

theorem finalTaskState_status
    (payload base : TaskState) (winnerResolved : Bool)
    (attempt : Attempt) :
    (finalTaskState payload base winnerResolved attempt).status =
      if attempt.succeeds then .completed else .failed := by
  rw [finalTaskState, executedState, Attempt.succeeds]
  cases attempt.logic with
  | none =>
      cases attempt.persist with
      | ok _ => rfl
      | error _ => rfl
  | some _ =>
      cases attempt.persist with
      | ok _ => rfl
      | error _ => rfl

/-! ## At most two passes -/

/-- The key that the first report of a failure adds when it lands is still
remembered when the second report of the failure is checked. -/
def rememberedAtSecond
    (first second : Attempt) (tracker : TrackerState)
    (failure : TaskState) : Bool :=
  let key := eventKey failure
  let checked :=
    (tracker.dedupe failure.pipelineRunId).contains key
      first.clock.checkedAt
  ((checked.2.add key first.clock.addedAt).contains key
    second.clock.checkedAt).1

section Passes

variable (env : TrackerEnv) (payload : TaskState) (winnerResolved : Bool)
  (attempts : Nat → Attempt)

theorem dispatchLoop_of_no_reforward
    (remaining count : Nat) (base : TaskState)
    (tracker : TrackerState) (stores : Stores)
    (stops :
      reforwardInfo?
        (finalTaskState payload base winnerResolved (attempts count))
        (onTaskDone env (attempts count).clock (attempts count).faults
          tracker stores
          (finalTaskState payload base winnerResolved
            (attempts count))) = none) :
    dispatchLoop env payload winnerResolved attempts remaining count base
        tracker stores =
      dispatchLoop env payload winnerResolved attempts 0 count base
        tracker stores := by
  cases remaining with
  | zero =>
      rfl
  | succ remaining =>
      rw [dispatchLoop, dispatchLoop, stops]

/-- A report that finds no next candidate is not answered with one. -/
theorem reforwardInfo?_of_no_target
    {clock : Clock} {faults : Faults} {tracker : TrackerState}
    {stores : Stores} {finalState : TaskState}
    (noTarget : reforwardTarget? env stores finalState = none) :
    reforwardInfo? finalState
        (onTaskDone env clock faults tracker stores finalState) =
      none := by
  by_cases failed : finalState.status = .failed
  · refine (if_pos failed).trans ?_
    cases lands : landing? clock faults tracker stores finalState with
    | none =>
        exact (onTaskDone_of_no_landing env lands).1
    | some admitted =>
        have answer := returned_of_failed_landing env lands failed
        rw [noTarget] at answer
        exact Option.isNone_iff_eq_none.mp
          (Option.isSome_eq_false_iff.mp answer)
  · exact if_neg failed

/-- A report about a task stored as failed without a next candidate: a
completion is rejected, a failure is recorded if it lands. -/
theorem storedStatus?_report_on_failed_task
    {clock : Clock} {faults : Faults} {tracker : TrackerState}
    {stores : Stores} {finalState : TaskState}
    (storedFailed :
      storedTaskStatus? stores finalState.runKey finalState.taskId =
        some .failed)
    (noTarget : reforwardTarget? env stores finalState = none)
    (reports :
      finalState.status = .completed ∨ finalState.status = .failed) :
    storedStatus?
        (onTaskDone env clock faults tracker stores finalState).stores
        finalState.runKey =
      if finalState.status = .failed ∧
          remembered clock tracker finalState = false ∧
          faults.updateRunFails = false then
        some .failed
      else
        storedStatus? stores finalState.runKey := by
  have landsIff :=
    landing?_isSome_iff clock faults tracker stores finalState
  rw [storedFailed] at landsIff
  cases lands : landing? clock faults tracker stores finalState with
  | none =>
      rw [storedStatus?_onTaskDone_of_no_landing env lands]
      have blocked :
          ¬ (finalState.status = .failed ∧
            remembered clock tracker finalState = false ∧
            faults.updateRunFails = false) := by
        rintro ⟨failed, fresh, written⟩
        have forward :
            forwardOnly .failed finalState.status = true := by
          rw [failed]
          rfl
        rw [lands] at landsIff
        have impossible :=
          landsIff.mpr ⟨fresh, written, .failed, rfl, forward⟩
        cases impossible
      exact (if_neg blocked).symm
  | some admitted =>
      obtain ⟨fresh, written, prev, storedPrev, forward⟩ :=
        landsIff.mp (by rw [lands]; rfl)
      have failed : finalState.status = .failed := by
        rcases reports with completed | failed
        · rw [← Option.some.inj storedPrev, completed] at forward
          exact absurd forward (by decide)
        · exact failed
      rw [if_pos ⟨failed, fresh, written⟩,
        storedStatus?_onTaskDone_of_landing env lands, decidedStatus,
        if_pos failed, noTarget]
      rfl

/-- A pass that starts with the task stored as failed and without a plan is
the last one. -/
theorem last_pass
    (remaining count : Nat) {base : TaskState}
    {tracker : TrackerState} {stores : Stores}
    (same : SameTask base payload)
    (storedFailed :
      storedTaskStatus? stores payload.runKey payload.taskId =
        some .failed)
    (noTarget : ∀ event : TaskState, event.runKey = payload.runKey →
      reforwardTarget? env stores event = none) :
    let attempt := attempts count
    let finalState := finalTaskState payload base winnerResolved attempt
    let last :=
      dispatchLoop env payload winnerResolved attempts remaining count
        base tracker stores
    last.finalState = finalState ∧
      storedStatus? last.stores payload.runKey =
        if finalState.status = .failed ∧
            remembered attempt.clock tracker finalState = false ∧
            attempt.faults.updateRunFails = false then
          some .failed
        else
          storedStatus? stores payload.runKey := by
  intro attempt finalState last
  have sameFinal : SameTask finalState payload :=
    finalTaskState_sameTask same winnerResolved attempt
  have withoutTarget := noTarget finalState sameFinal.runKey
  have ends :
      last =
        dispatchLoop env payload winnerResolved attempts 0 count base
          tracker stores := by
    apply dispatchLoop_of_no_reforward
    exact reforwardInfo?_of_no_target env withoutTarget
  have reports :
      finalState.status = .completed ∨ finalState.status = .failed := by
    have status :=
      finalTaskState_status payload base winnerResolved attempt
    cases succeeds : attempt.succeeds with
    | true =>
        rw [succeeds] at status
        exact Or.inl status
    | false =>
        rw [succeeds] at status
        exact Or.inr status
  rw [ends]
  refine ⟨rfl, ?_⟩
  rw [← sameFinal.runKey, ← sameFinal.taskId] at storedFailed
  rw [← sameFinal.runKey]
  exact
    storedStatus?_report_on_failed_task env storedFailed withoutTarget
      reports

variable (baseService : String) (maxReforwards : Int)
  (tracker : TrackerState) (stores : Stores)

/-- The state that the first pass reports. -/
def firstReport : TaskState :=
  finalTaskState payload { payload with serviceName := baseService }
    winnerResolved (attempts 0)

theorem firstReport_sameTask :
    SameTask (firstReport payload winnerResolved attempts baseService)
      payload := by
  apply finalTaskState_sameTask
  exact ⟨rfl, rfl, rfl, rfl, rfl⟩

theorem firstReport_runKey :
    (firstReport payload winnerResolved attempts baseService).runKey =
      payload.runKey :=
  (firstReport_sameTask payload winnerResolved attempts
    baseService).runKey

theorem firstReport_status :
    (firstReport payload winnerResolved attempts baseService).status =
      if (attempts 0).succeeds then .completed else .failed :=
  finalTaskState_status _ _ _ _

theorem firstReport_failed (fails : (attempts 0).succeeds = false) :
    (firstReport payload winnerResolved attempts baseService).status =
      .failed := by
  rw [firstReport_status, fails]
  rfl

/-- The tracker's answer to the first pass. -/
def firstResult : TrackerResult :=
  onTaskDone env (attempts 0).clock (attempts 0).faults tracker stores
    (firstReport payload winnerResolved attempts baseService)

/-- The first failure lands, a candidate takes over, and the cap leaves room
for it. -/
def Redispatched : Prop :=
  let failure := firstReport payload winnerResolved attempts baseService
  (landing? (attempts 0).clock (attempts 0).faults tracker stores
      failure).isSome ∧
    (reforwardTarget? env stores failure).isSome ∧
    0 < maxReforwards

theorem dispatch_of_first_success
    (succeeds : (attempts 0).succeeds = true) :
    dispatch env payload winnerResolved attempts baseService
        maxReforwards tracker stores =
      ⟨firstReport payload winnerResolved attempts baseService,
        (firstResult env payload winnerResolved attempts baseService
          tracker stores).tracker,
        (firstResult env payload winnerResolved attempts baseService
          tracker stores).stores⟩ := by
  rw [dispatch, dispatchLoop_of_no_reforward]
  · rfl
  · rw [reforwardInfo?, finalTaskState_status, succeeds]
    rfl

/-- Without a re-dispatch the first pass is the only one. -/
theorem dispatch_of_not_redispatched
    (fails : (attempts 0).succeeds = false)
    (alone :
      ¬ Redispatched env payload winnerResolved attempts baseService
        maxReforwards tracker stores) :
    dispatch env payload winnerResolved attempts baseService
        maxReforwards tracker stores =
      ⟨firstReport payload winnerResolved attempts baseService,
        (firstResult env payload winnerResolved attempts baseService
          tracker stores).tracker,
        (firstResult env payload winnerResolved attempts baseService
          tracker stores).stores⟩ := by
  by_cases capped : 0 < maxReforwards
  · rw [dispatch, dispatchLoop_of_no_reforward]
    · rfl
    · cases target :
          reforwardTarget? env stores
            (firstReport payload winnerResolved attempts
              baseService) with
      | none =>
          exact reforwardInfo?_of_no_target env target
      | some candidate =>
          have failed :=
            firstReport_failed payload winnerResolved attempts
              baseService fails
          have noLanding :
              landing? (attempts 0).clock (attempts 0).faults tracker
                stores (firstReport payload winnerResolved attempts
                  baseService) = none := by
            by_contra lands
            apply alone
            refine ⟨Option.isSome_iff_ne_none.mpr lands, ?_, capped⟩
            rw [target]
            rfl
          refine (if_pos failed).trans ?_
          exact (onTaskDone_of_no_landing env noLanding).1
  · rw [dispatch, Int.toNat_of_nonpos (not_lt.mp capped)]
    rfl

theorem dispatch_eq_second_pass
    (fails : (attempts 0).succeeds = false)
    (again :
      Redispatched env payload winnerResolved attempts baseService
        maxReforwards tracker stores) :
    let result :=
      firstResult env payload winnerResolved attempts baseService tracker
        stores
    ∃ info,
      dispatch env payload winnerResolved attempts baseService
          maxReforwards tracker stores =
        dispatchLoop env payload winnerResolved attempts
          (maxReforwards.toNat - 1) 1
          (retryState payload info (attempts 0)) result.tracker
          result.stores := by
  intro result
  obtain ⟨landsSome, targetSome, capped⟩ := again
  obtain ⟨admitted, lands⟩ := Option.isSome_iff_exists.mp landsSome
  have failed :=
    firstReport_failed payload winnerResolved attempts baseService fails
  have answered : result.verdict.returned.isSome := by
    refine (returned_of_failed_landing env lands failed).trans ?_
    exact targetSome
  obtain ⟨info, returned⟩ := Option.isSome_iff_exists.mp answered
  have positive : maxReforwards.toNat = maxReforwards.toNat - 1 + 1 := by
    omega
  have goesOn :
      reforwardInfo?
        (finalTaskState payload
          { payload with serviceName := baseService } winnerResolved
          (attempts 0)) result = some info :=
    (if_pos failed).trans returned
  have asked :
      onTaskDone env (attempts 0).clock (attempts 0).faults tracker stores
          (finalTaskState payload
            { payload with serviceName := baseService } winnerResolved
            (attempts 0)) =
        result :=
    rfl
  refine ⟨info, ?_⟩
  rw [dispatch, positive, dispatchLoop, asked, goesOn]
  rfl

/-- Both failures have one key, so the second report meets what the first
one added. -/
theorem remembered_second_report
    (info : ReforwardInfo)
    (landsSome :
      (landing? (attempts 0).clock (attempts 0).faults tracker stores
        (firstReport payload winnerResolved attempts
          baseService)).isSome)
    (fails : (attempts 0).succeeds = false)
    (failsAgain : (attempts 1).succeeds = false) :
    remembered (attempts 1).clock
        (firstResult env payload winnerResolved attempts baseService
          tracker stores).tracker
        (finalTaskState payload (retryState payload info (attempts 0))
          winnerResolved (attempts 1)) =
      rememberedAtSecond (attempts 0) (attempts 1) tracker
        (firstReport payload winnerResolved attempts baseService) := by
  obtain ⟨admitted, lands⟩ := Option.isSome_iff_exists.mp landsSome
  have same : SameTask
      (finalTaskState payload (retryState payload info (attempts 0))
        winnerResolved (attempts 1))
      (firstReport payload winnerResolved attempts baseService) :=
    (finalTaskState_sameTask
      (retryState_sameTask payload info (attempts 0)) _ _).trans
        (firstReport_sameTask payload winnerResolved attempts
          baseService).symm
  have sameKey := same.eventKey <| by
    rw [firstReport_failed payload winnerResolved attempts baseService
      fails, finalTaskState_status, failsAgain]
    rfl
  have added :
      (firstResult env payload winnerResolved attempts baseService
        tracker stores).tracker.dedupe
          (firstReport payload winnerResolved attempts
            baseService).pipelineRunId = _ :=
    dedupe_onTaskDone_of_landing env lands
  rw [remembered, sameKey, same.pipelineRunId, added]
  rfl

/-- A re-dispatched task gets exactly one more pass, and the run status is
as it was when that pass starts. -/
theorem dispatch_of_redispatched
    (fails : (attempts 0).succeeds = false)
    (again :
      Redispatched env payload winnerResolved attempts baseService
        maxReforwards tracker stores) :
    let last :=
      dispatch env payload winnerResolved attempts baseService
        maxReforwards tracker stores
    let failure :=
      firstReport payload winnerResolved attempts baseService
    last.finalState.status =
        (if (attempts 1).succeeds then .completed else .failed) ∧
      storedStatus? last.stores payload.runKey =
        if (attempts 1).succeeds = false ∧
            rememberedAtSecond (attempts 0) (attempts 1) tracker
              failure = false ∧
            (attempts 1).faults.updateRunFails = false then
          some .failed
        else
          storedStatus? stores payload.runKey := by
  intro last failure
  obtain ⟨info, secondPass⟩ :=
    dispatch_eq_second_pass env payload winnerResolved attempts
      baseService maxReforwards tracker stores fails again
  obtain ⟨landsSome, targetSome, _⟩ := again
  obtain ⟨admitted, lands⟩ := Option.isSome_iff_exists.mp landsSome
  have failed : failure.status = .failed :=
    firstReport_failed payload winnerResolved attempts baseService fails
  have same : SameTask failure payload :=
    firstReport_sameTask payload winnerResolved attempts baseService
  let result :=
    firstResult env payload winnerResolved attempts baseService tracker
      stores
  have storedFailed :
      storedTaskStatus? result.stores payload.runKey payload.taskId =
        some .failed := by
    rw [← same.runKey, ← same.taskId]
    refine
      (storedTaskStatus?_onTaskDone_of_landing env lands
        failure.taskId).trans ?_
    rw [if_pos rfl, ← failed]
  have unchanged :
      storedStatus? result.stores payload.runKey =
        storedStatus? stores payload.runKey := by
    rw [← same.runKey]
    refine (storedStatus?_onTaskDone_of_landing env lands).trans ?_
    rw [decidedStatus, if_pos failed, if_pos targetSome]
    exact (storedStatus?_before_landing lands).symm
  obtain ⟨finalState, storedStatus⟩ :=
    last_pass env payload winnerResolved attempts
      (maxReforwards.toNat - 1) 1
      (retryState_sameTask payload info (attempts 0)) storedFailed
      fun event sameKey =>
        reforwardTarget?_after_landing env lands event
          (sameKey.trans same.runKey.symm)
  have secondStatus :=
    finalTaskState_status payload (retryState payload info (attempts 0))
      winnerResolved (attempts 1)
  rw [show last = _ from secondPass]
  constructor
  · rw [finalState]
    exact secondStatus
  · rw [storedStatus, unchanged, secondStatus]
    cases failsAgain : (attempts 1).succeeds with
    | true =>
        simp
    | false =>
        rw [remembered_second_report env payload winnerResolved attempts
          baseService tracker stores info landsSome fails failsAgain]
        simp [failure]

end Passes

end Agentcy.Forwarder
