import Agentcy.Forwarder.Redispatch
import Agentcy.Tracker.Reforwarding

/-!
# When a failed task fails its run

The loop may end with a failed final state while the stored run is still
running: the failure that ends it may be the one whose report was taken for a
duplicate, or one that was answered with a re-forward beyond the cap.
-/

namespace Agentcy.Forwarder

open Agentcy.Library
open Agentcy.Runs
open Agentcy.Tracker

section Loop

variable (env : TrackerEnv) (payload : TaskState) (winnerResolved : Bool)
  (attempts : Nat → Attempt) (baseService : String)
  (maxReforwards : Int) (tracker : TrackerState) (stores : Stores)

/-- The first failure lands and there is nobody to take over. -/
def FirstFailureStored : Prop :=
  let failure := firstReport payload winnerResolved attempts baseService
  (landing? (attempts 0).clock (attempts 0).faults tracker stores
      failure).isSome ∧
    reforwardTarget? env stores failure = none

/-- The second report of a re-dispatched task goes through: it is not taken
for a duplicate of the first, and its write succeeds. -/
def SecondReportGoesThrough : Prop :=
  rememberedAtSecond (attempts 0) (attempts 1) tracker
      (firstReport payload winnerResolved attempts baseService) = false ∧
    (attempts 1).faults.updateRunFails = false

/-- The completion that the first pass reports lands and completes the
run. -/
def CompletesRun : Prop :=
  let completion :=
    firstReport payload winnerResolved attempts baseService
  ∃ admitted,
    landing? (attempts 0).clock (attempts 0).faults tracker stores
        completion = some admitted ∧
      allFinalsCompleted env (putTask admitted.run completion)
        completion.username completion.pipelineId = true

/-- Condition on the inputs of the loop under which a failed final state
finds the run failed. -/
def FailureRecorded : Prop :=
  (attempts 0).succeeds = true ∨
    storedStatus? stores payload.runKey = some .failed ∨
    FirstFailureStored env payload winnerResolved attempts baseService
      tracker stores ∨
    (Redispatched env payload winnerResolved attempts baseService
        maxReforwards tracker stores ∧
      ((attempts 1).succeeds = true ∨
        SecondReportGoesThrough payload winnerResolved attempts
          baseService tracker))

/-- The run status after a first pass that fails. -/
theorem storedStatus?_firstResult_of_failure
    (fails : (attempts 0).succeeds = false) :
    storedStatus?
        (firstResult env payload winnerResolved attempts baseService
          tracker stores).stores payload.runKey = some .failed ↔
      storedStatus? stores payload.runKey = some .failed ∨
        FirstFailureStored env payload winnerResolved attempts
          baseService tracker stores := by
  have failed :=
    firstReport_failed payload winnerResolved attempts baseService fails
  rw [← firstReport_runKey payload winnerResolved attempts baseService,
    firstResult, FirstFailureStored]
  cases lands :
      landing? (attempts 0).clock (attempts 0).faults tracker stores
        (firstReport payload winnerResolved attempts baseService) with
  | none =>
      rw [storedStatus?_onTaskDone_of_no_landing env lands]
      simp
  | some admitted =>
      rw [storedStatus?_onTaskDone_of_landing env lands,
        storedStatus?_before_landing lands, decidedStatus,
        if_pos failed]
      cases reforwardTarget? env stores
          (firstReport payload winnerResolved attempts
            baseService) with
      | none =>
          simp
      | some _ =>
          simp

/-- The run status after a first pass that succeeds. -/
theorem storedStatus?_firstResult_of_success
    (succeeds : (attempts 0).succeeds = true) :
    storedStatus?
        (firstResult env payload winnerResolved attempts baseService
          tracker stores).stores payload.runKey = some .failed ↔
      storedStatus? stores payload.runKey = some .failed ∧
        ¬ CompletesRun env payload winnerResolved attempts baseService
          tracker stores := by
  have completed := firstReport_status payload winnerResolved attempts
    baseService
  rw [succeeds, if_pos rfl] at completed
  rw [← firstReport_runKey payload winnerResolved attempts baseService,
    firstResult, CompletesRun]
  cases lands :
      landing? (attempts 0).clock (attempts 0).faults tracker stores
        (firstReport payload winnerResolved attempts baseService) with
  | none =>
      rw [storedStatus?_onTaskDone_of_no_landing env lands]
      simp
  | some admitted =>
      rw [storedStatus?_onTaskDone_of_landing env lands,
        storedStatus?_before_landing lands, decidedStatus,
        if_neg (by rw [completed]; decide)]
      by_cases done :
          allFinalsCompleted env
            (putTask admitted.run
              (firstReport payload winnerResolved attempts
                baseService))
            (firstReport payload winnerResolved attempts
              baseService).username
            (firstReport payload winnerResolved attempts
              baseService).pipelineId = true
      · simp [done]
      · simp [done]

/-- The run status after a re-dispatched second pass. -/
theorem storedStatus?_of_redispatched
    (fails : (attempts 0).succeeds = false)
    (again :
      Redispatched env payload winnerResolved attempts baseService
        maxReforwards tracker stores) :
    storedStatus?
        (dispatch env payload winnerResolved attempts baseService
          maxReforwards tracker stores).stores payload.runKey =
            some .failed ↔
      storedStatus? stores payload.runKey = some .failed ∨
        ((attempts 1).succeeds = false ∧
          SecondReportGoesThrough payload winnerResolved attempts
            baseService tracker) := by
  have stored :=
    (dispatch_of_redispatched env payload winnerResolved attempts
      baseService maxReforwards tracker stores fails again).2
  rw [stored]
  split
  · rename_i through
    exact iff_of_true rfl (Or.inr through)
  · rename_i blocked
    exact (or_iff_left blocked).symm

theorem not_firstFailureStored_of_redispatched
    (again :
      Redispatched env payload winnerResolved attempts baseService
        maxReforwards tracker stores) :
    ¬ FirstFailureStored env payload winnerResolved attempts baseService
      tracker stores := by
  rintro ⟨_, noTarget⟩
  have someTarget := again.2.1
  rw [noTarget] at someTarget
  exact Bool.false_ne_true someTarget

/-- A final state that is published as failed finds the stored run failed. -/
def FailureNotSwallowed : Prop :=
  let last :=
    dispatch env payload winnerResolved attempts baseService
      maxReforwards tracker stores
  last.finalState.status = .failed →
    storedStatus? last.stores payload.runKey = some .failed

/-- For every cap, evaluation sequence, tracker state and sequence of
outcomes: a failure is not swallowed exactly when it is recorded. -/
theorem failure_not_swallowed_iff :
    FailureNotSwallowed env payload winnerResolved attempts baseService
        maxReforwards tracker stores ↔
      FailureRecorded env payload winnerResolved attempts baseService
        maxReforwards tracker stores := by
  rw [FailureNotSwallowed, FailureRecorded]
  cases first : (attempts 0).succeeds with
  | true =>
      have ends :=
        dispatch_of_first_success env payload winnerResolved attempts
          baseService maxReforwards tracker stores first
      have completed :
          (firstReport payload winnerResolved attempts
            baseService).status = .completed := by
        rw [firstReport_status, first]
        rfl
      rw [ends]
      simp [completed]
  | false =>
      by_cases again :
          Redispatched env payload winnerResolved attempts baseService
            maxReforwards tracker stores
      · have status :=
          (dispatch_of_redispatched env payload winnerResolved attempts
            baseService maxReforwards tracker stores first again).1
        have stored :=
          storedStatus?_of_redispatched env payload winnerResolved
            attempts baseService maxReforwards tracker stores first again
        have noFirst :=
          not_firstFailureStored_of_redispatched env payload
            winnerResolved attempts baseService maxReforwards tracker
            stores again
        rw [status, stored]
        cases second : (attempts 1).succeeds with
        | true =>
            simp [again]
        | false =>
            simp [noFirst, again]
      · have ends :=
          dispatch_of_not_redispatched env payload winnerResolved
            attempts baseService maxReforwards tracker stores first
            again
        have failed :=
          firstReport_failed payload winnerResolved attempts baseService
            first
        have stored :=
          storedStatus?_firstResult_of_failure env payload
            winnerResolved attempts baseService tracker stores first
        rw [ends]
        simp [failed, stored, again]

/-- Under a monotonic clock the second report of a failure is taken for a
duplicate as long as the time-to-live of the first one lasts. -/
theorem rememberedAtSecond_iff
    (first second : Attempt) (failure : TaskState)
    (fresh : remembered first.clock tracker failure = false)
    (room : 0 < (tracker.dedupe failure.pipelineRunId).maxItems)
    (limited : 0 < (tracker.dedupe failure.pipelineRunId).ttlSeconds)
    (stamps : ∀ entry ∈
      (tracker.dedupe failure.pipelineRunId).data.entries,
        entry.2 ≤ first.clock.addedAt) :
    rememberedAtSecond first second tracker failure = true ↔
      second.clock.checkedAt - first.clock.addedAt ≤
        (tracker.dedupe failure.pipelineRunId).ttlSeconds := by
  rw [rememberedAtSecond]
  rw [LRUSet.contains_snd_of_fresh _ _ _ fresh]
  refine
    (LRUSet.contains_add_iff _ _ _ _ ?_ ?_ ?_).trans ?_
  · rwa [LRUSet.purgeExpired_maxItems]
  · rwa [LRUSet.purgeExpired_ttlSeconds]
  · intro entry member
    exact stamps entry (LRUSet.purgeExpired_subset _ _ entry member)
  · rw [LRUSet.purgeExpired_ttlSeconds]

/-- Condition on the inputs of the loop under which it leaves the run
failed. -/
def LeavesRunFailed : Prop :=
  if (attempts 0).succeeds then
    storedStatus? stores payload.runKey = some .failed ∧
      ¬ CompletesRun env payload winnerResolved attempts baseService
        tracker stores
  else
    storedStatus? stores payload.runKey = some .failed ∨
      FirstFailureStored env payload winnerResolved attempts baseService
        tracker stores ∨
      (Redispatched env payload winnerResolved attempts baseService
          maxReforwards tracker stores ∧
        (attempts 1).succeeds = false ∧
        SecondReportGoesThrough payload winnerResolved attempts
          baseService tracker)

theorem run_failed_after_dispatch_iff :
    storedStatus?
        (dispatch env payload winnerResolved attempts baseService
          maxReforwards tracker stores).stores payload.runKey =
            some .failed ↔
      LeavesRunFailed env payload winnerResolved attempts baseService
        maxReforwards tracker stores := by
  rw [LeavesRunFailed]
  cases first : (attempts 0).succeeds with
  | true =>
      rw [dispatch_of_first_success env payload winnerResolved attempts
        baseService maxReforwards tracker stores first, if_pos rfl]
      exact
        storedStatus?_firstResult_of_success env payload winnerResolved
          attempts baseService tracker stores first
  | false =>
      rw [if_neg Bool.false_ne_true]
      by_cases again :
          Redispatched env payload winnerResolved attempts baseService
            maxReforwards tracker stores
      · have noFirst :=
          not_firstFailureStored_of_redispatched env payload
            winnerResolved attempts baseService maxReforwards tracker
            stores again
        rw [storedStatus?_of_redispatched env payload winnerResolved
          attempts baseService maxReforwards tracker stores first again]
        simp [noFirst, again]
      · rw [dispatch_of_not_redispatched env payload winnerResolved
          attempts baseService maxReforwards tracker stores first again,
          storedStatus?_firstResult_of_failure env payload
            winnerResolved attempts baseService tracker stores first]
        simp [again]

end Loop

/-! ## Two failures in a row -/

/-- Every pass fails, ten seconds after the one before. -/
def failingAttempts (count : Nat) : Attempt where
  logic := none
  clock := ⟨10 * count, 10 * count + 1, 10 * count⟩

def failingPayload : TaskState :=
  { taskFailure.event with status := .running }

theorem second_failure_swallowed :
    ¬ FailureNotSwallowed {} failingPayload false failingAttempts "svc-a"
      3 {} reforwardSystem.stores := by
  rw [FailureNotSwallowed]
  decide +kernel

end Agentcy.Forwarder
