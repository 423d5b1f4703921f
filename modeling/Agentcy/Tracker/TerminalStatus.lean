import Agentcy.Tracker.System

/-!
# When a terminal run status stays

The new run status is computed from the event alone, without looking at the
old one.  A terminal status is therefore overturned by exactly two kinds of
event: a failure that cannot be re-forwarded, reported into a completed run,
and a report that leaves every final task completed, made into a failed run.
-/

namespace Agentcy.Tracker

open Agentcy.Library
open Agentcy.Runs

/-- The report lands on a failed or completed run and writes the other
terminal status. -/
def Overturns
    (env : TrackerEnv) (key : String) (system : System)
    (report : Report) : Prop :=
  report.event.runKey = key ∧
    ∃ admitted, system.landing? report = some admitted ∧
      ((admitted.run.status = .completed ∧
          report.event.status = .failed ∧
          reforwardTarget? env system.stores report.event = none) ∨
        (admitted.run.status = .failed ∧
          report.event.status ≠ .failed ∧
          allFinalsCompleted env (putTask admitted.run report.event)
            report.event.username report.event.pipelineId = true))

def storedTerminal (status : Option PipelineStatus) : Prop :=
  status = some .completed ∨ status = some .failed

theorem decidedStatus_eq_of_terminal_iff
    (env : TrackerEnv) (stores : Stores) (admitted : Admitted)
    (event : TaskState) (terminal : admitted.run.status.IsTerminal) :
    decidedStatus env stores admitted event = admitted.run.status ↔
      ¬ ((admitted.run.status = .completed ∧ event.status = .failed ∧
            reforwardTarget? env stores event = none) ∨
          (admitted.run.status = .failed ∧ event.status ≠ .failed ∧
            allFinalsCompleted env (putTask admitted.run event)
              event.username event.pipelineId = true)) := by
  unfold decidedStatus
  by_cases failed : event.status = .failed
  · cases target : reforwardTarget? env stores event with
    | none =>
        rcases terminal with completed | alreadyFailed
        · simp [failed, completed]
        · simp [failed, alreadyFailed]
    | some _ =>
        simp [failed]
  · by_cases done :
        allFinalsCompleted env (putTask admitted.run event)
          event.username event.pipelineId = true
    · rcases terminal with completed | alreadyFailed
      · simp [failed, done, completed]
      · simp [failed, done, alreadyFailed]
    · simp [failed, done]

/-- One step moves a terminal run status exactly when it overturns it. -/
theorem handle_keeps_terminal_iff
    (env : TrackerEnv) (key : String) (system : System)
    (report : Report)
    (terminal : storedTerminal (storedStatus? system.stores key)) :
    storedStatus? (system.handle env report).stores key =
        storedStatus? system.stores key ↔
      ¬ Overturns env key system report := by
  cases lands : system.landing? report with
  | none =>
      have untouched :=
        System.readRun_handle_of_elsewhere env system report key
          (Or.inl lands)
      simp [storedStatus?, untouched, Overturns, lands]
  | some admitted =>
      by_cases same : report.event.runKey = key
      · subst same
        rw [System.storedStatus?_of_landing lands] at terminal ⊢
        rw [System.storedStatus?_handle_of_landing env lands,
          Option.some.injEq,
          decidedStatus_eq_of_terminal_iff env system.stores admitted
            report.event (by
            simpa [storedTerminal, PipelineStatus.IsTerminal] using
              terminal)]
        simp [Overturns, lands]
      · have untouched :=
          System.readRun_handle_of_elsewhere env system report key
            (Or.inr (Ne.symm same))
        simp [storedStatus?, untouched, Overturns, same]

/-- Over any sequence of reports, from any stored state, a terminal run
status is absorbing exactly when no step overturns it. -/
theorem terminalStatus_absorbing_iff
    (env : TrackerEnv) (key : String) (system : System)
    (reports : List Report) :
    Absorbing (System.handle env)
        (fun current => storedStatus? current.stores key)
        storedTerminal system reports ↔
      EveryStep (System.handle env)
        (fun current report => ¬ Overturns env key current report)
        system reports := by
  rw [absorbing_iff_everyStep, everyStep_iff_split, everyStep_iff_split]
  constructor
  · intro still before report after split overturned
    have terminal :
        storedTerminal
          (storedStatus? (run (System.handle env) system before).stores
            key) := by
      obtain ⟨sameKey, admitted, lands, kinds⟩ := overturned
      subst sameKey
      rw [System.storedStatus?_of_landing lands]
      rcases kinds with ⟨completed, _⟩ | ⟨failed, _⟩
      · exact Or.inl (congrArg some completed)
      · exact Or.inr (congrArg some failed)
    exact
      (handle_keeps_terminal_iff env key _ report terminal).mp
        (still before report after split terminal) overturned
  · intro never before report after split terminal
    exact
      (handle_keeps_terminal_iff env key _ report terminal).mpr
        (never before report after split)

/-- Two independent tasks, the second one final. -/
def twoTaskConfig : PipelineConfigDoc where
  taskDict :=
    .ofList
      [("a", { availableServices := some "svc-a" }),
        ("b", { availableServices := some "svc-b", isFinalTask := true })]

def reportOf (taskId : String) (status : TaskStatus) : TaskState where
  status := status
  pipelineRunId := "run-1"
  taskId := taskId
  username := "alice"
  pipelineId := "pipe-1"

def twoTaskSystem : System where
  stores :=
    { runs := fun key =>
        if key = runKey "alice" "pipe-1" "run-1" then
          some (seedInitialRun "alice" "pipe-1" "run-1" twoTaskConfig
            none 0).modelDump
        else
          none }

def failThenComplete : List Report :=
  [{ clock := ⟨0, 0, 0⟩, event := reportOf "a" .failed },
    { clock := ⟨1, 1, 1⟩, event := reportOf "b" .completed }]

theorem failed_run_becomes_completed :
    ¬ Absorbing (System.handle {})
        (fun current =>
          storedStatus? current.stores (runKey "alice" "pipe-1" "run-1"))
        storedTerminal twoTaskSystem failThenComplete := by
  intro absorbing
  have moved :=
    absorbing (failThenComplete.take 1) (failThenComplete.drop 1) []
      rfl (Or.inr (by decide +kernel))
  revert moved
  decide +kernel

end Agentcy.Tracker
