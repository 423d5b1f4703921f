import Agentcy.Forwarder.Resolution
import Agentcy.Runs.RunWriters
import Agentcy.Tracker.System

/-!
# Where the tracker looks for the ranking of a failed task

The inline resolution saves its ranking under the pipeline id.  The tracker
looks under the plan id that it finds in the run document, which the plan
builder puts there under an id of its own and which the tracker's own writes
take away.
-/

namespace Agentcy.Forwarder

open Agentcy.Library
open Agentcy.Runs
open Agentcy.Tracker

/-- What may happen to the hot stores between a resolution and a failure. -/
inductive HotStep where
  | report (report : Report)
  | createRun (key : String) (run : PipelineRun)
  | recordPlan (key planId : String) (revision : Int)
  | setRunPauseState
      (key : String) (paused : Bool) (reason suggestionId : Option String)
      (now : Timestamp)
  | saveSequence (username : String) (sequence : EvaluationSequence)
  | addAward (award : ContractAward)

def hotStep
    (env : TrackerEnv) (system : System) : HotStep → System
  | .report report => system.handle env report
  | .createRun key run =>
      { system with stores := system.stores.createRun key run }
  | .recordPlan key planId revision =>
      { system with stores := system.stores.recordPlan key planId revision }
  | .setRunPauseState key paused reason suggestionId now =>
      { system with
        stores :=
          system.stores.setRunPauseState key paused reason suggestionId
            now }
  | .saveSequence username sequence =>
      { system with
        stores := system.stores.saveEvaluationSequence username sequence }
  | .addAward award =>
      { system with stores := system.stores.addContractAward award }

/-- Key under which the tracker looks for the candidates of a failed task. -/
def lookupKey?
    (env : TrackerEnv) (stores : Stores) (event : TaskState) :
    Option String :=
  (planForReforward? env stores event).map
    (evalSeqKey event.username event.taskId)

/-- A state of the task that a resolution was made for. -/
structure AboutTask (event : TaskState) (task : ResolvedTask) : Prop where
  taskId : event.taskId = task.taskId
  username : event.username = task.username
  pipelineId : event.pipelineId = task.pipelineId
  pipelineRunId : event.pipelineRunId = task.pipelineRunId

/-- The failure is looked up under the key of `sequence`, and if the sequence
still lies there as it was saved, the task goes to its second candidate. -/
def AdvancesSaved
    (env : TrackerEnv) (system : System) (username : String)
    (failure : Report) (sequence : EvaluationSequence) : Prop :=
  lookupKey? env system.stores failure.event =
      some (evalSeqKey username sequence.taskId sequence.planId) ∧
    (system.stores.sequences
          (evalSeqKey username sequence.taskId sequence.planId) =
        some sequence →
      ∃ second info,
        sequence.candidates[1]? = some second ∧
          (system.respond env failure).verdict.returned = some info ∧
          info.newAgentId = second.bidderId ∧ info.sequenceIndex = 1)

theorem evalSeqKey_inj
    {username taskId first second : String}
    (same :
      evalSeqKey username taskId first =
        evalSeqKey username taskId second) :
    first = second := by
  unfold evalSeqKey at same
  simpa using same

theorem planForReforward?_eq_some_iff
    {env : TrackerEnv} (enabled : env.failureReforward = true)
    (hasStore : env.hasGraphMarkerStore = true)
    (stores : Stores) (event : TaskState) (planId : String) :
    planForReforward? env stores event = some planId ↔
      stores.storedPlan? event.runKey = some planId ∧ planId ≠ "" := by
  rw [planForReforward?, if_pos ⟨enabled, hasStore⟩,
    Option.filter_eq_some_iff, Stores.storedPlan?]
  simp

/-- The tracker looks under the key of a saved sequence exactly when the run
document carries the plan id of that sequence. -/
theorem lookupKey?_eq_some_iff
    {env : TrackerEnv} (enabled : env.failureReforward = true)
    (hasStore : env.hasGraphMarkerStore = true)
    (stores : Stores) (event : TaskState) (planId : String) :
    lookupKey? env stores event =
        some (evalSeqKey event.username event.taskId planId) ↔
      stores.storedPlan? event.runKey = some planId ∧ planId ≠ "" := by
  rw [← planForReforward?_eq_some_iff enabled hasStore, lookupKey?,
    Option.map_eq_some_iff]
  constructor
  · rintro ⟨found, plan, same⟩
    rw [← evalSeqKey_inj same]
    exact plan
  · intro plan
    exact ⟨planId, plan, rfl⟩

/-- The answer to an accepted failure names the candidate found by the
lookup. -/
theorem returned_of_target
    {env : TrackerEnv} {system : System} {failure : Report}
    (accepted : (system.landing? failure).isSome)
    (failed : failure.event.status = .failed)
    {candidate : Candidate} {index : Nat}
    (target :
      reforwardTarget? env system.stores failure.event =
        some (candidate, index)) :
    ∃ info,
      (system.respond env failure).verdict.returned = some info ∧
        info.newAgentId = candidate.bidderId ∧
        info.sequenceIndex = index := by
  obtain ⟨admitted, lands⟩ := Option.isSome_iff_exists.mp accepted
  have answer :=
    closeUpdate_info_of_failed env failure.clock failure.faults
      system.stores admitted failure.event failed
  rw [target, Option.map_some] at answer
  have verdict := (onTaskDone_of_landing env lands).2.1
  rw [answer] at verdict
  exact ⟨_, congrArg Verdict.returned verdict, rfl, rfl⟩

/-- For every resolution that ranks candidates, every history between it and
an accepted failure of the task: the failure is looked up under the key of the
saved ranking, and goes to its second candidate, exactly when the run document
carries the pipeline id as plan id at that moment. -/
theorem resolved_sequence_advanced_iff
    (trackerEnv : TrackerEnv) (env : ResolutionEnv) (stores : Stores)
    (trackers : Nat → TrackerState) (task : ResolvedTask)
    (availableServices : String) (sequence : EvaluationSequence)
    (between : List HotStep) (failure : Report)
    (resolved :
      (resolveCompetingService env stores task
        availableServices).sequence = some sequence)
    (about : AboutTask failure.event task)
    (failed : failure.event.status = .failed)
    (enabled : trackerEnv.failureReforward = true)
    (hasStore : trackerEnv.hasGraphMarkerStore = true)
    (accepted :
      ((run (hotStep trackerEnv)
        ⟨trackers,
          (resolveCompetingService env stores task
            availableServices).stores⟩ between).landing?
        failure).isSome) :
    AdvancesSaved trackerEnv
        (run (hotStep trackerEnv)
          ⟨trackers,
            (resolveCompetingService env stores task
              availableServices).stores⟩ between)
        task.username failure sequence ↔
      (run (hotStep trackerEnv)
        ⟨trackers,
          (resolveCompetingService env stores task
            availableServices).stores⟩ between).stores.storedPlan?
          failure.event.runKey = some task.pipelineId ∧
        task.pipelineId ≠ "" := by
  obtain ⟨_, winner, second, others, _, _, _, saved⟩ :=
    resolveCompetingService_some resolved
  have sameTask : sequence.taskId = failure.event.taskId := by
    rw [saved, about.taskId]
    rfl
  have samePlan : sequence.planId = task.pipelineId := by
    rw [saved]
    rfl
  generalize
    run (hotStep trackerEnv)
      ⟨trackers,
        (resolveCompetingService env stores task
          availableServices).stores⟩ between = system at accepted ⊢
  rw [AdvancesSaved, sameTask, samePlan, ← about.username,
    lookupKey?_eq_some_iff enabled hasStore]
  constructor
  · intro advances
    exact advances.1
  · intro planned
    refine ⟨planned, ?_⟩
    intro stored
    have plan :=
      (planForReforward?_eq_some_iff enabled hasStore system.stores
        failure.event task.pipelineId).mpr planned
    have target :
        reforwardTarget? trackerEnv system.stores failure.event =
          some (candidateOf env second, 1) := by
      rw [reforwardTarget?, plan, Option.bind_some,
        Stores.nextCandidate?, stored, saved]
      rfl
    obtain ⟨info, returned, agent, index⟩ :=
      returned_of_target accepted failed target
    refine ⟨candidateOf env second, info, ?_, returned, agent, index⟩
    rw [saved]
    rfl

/-! ## Which plan a run document carries -/

/-- The step notes a plan other than `planId`, or no plan. -/
def NotesOtherPlan (planId : String) : HotStep → Prop
  | .recordPlan _ noted _ => noted ≠ planId
  | _ => True

theorem storedPlan?_hotStep_ne
    (env : TrackerEnv) (key planId : String) (system : System)
    (step : HotStep) (notes : NotesOtherPlan planId step)
    (other : system.stores.storedPlan? key ≠ some planId) :
    (hotStep env system step).stores.storedPlan? key ≠ some planId := by
  cases step with
  | report report =>
      rw [hotStep, Stores.storedPlan?, System.readRun_handle]
      cases system.landing? report with
      | none =>
          exact other
      | some admitted =>
          dsimp only
          split
          · simp [PipelineRun.modelDump]
          · exact other
  | createRun created run =>
      dsimp only [hotStep]
      rcases system.stores.storedPlan?_createRun key created run with
        fresh | same
      · rw [fresh]
        exact (Option.some_ne_none planId).symm
      · rw [same]
        exact other
  | recordPlan noted plan revision =>
      dsimp only [hotStep]
      rw [Stores.storedPlan?_recordPlan]
      split
      · exact fun same => notes (Option.some.inj same)
      · exact other
  | setRunPauseState paused isPaused reason suggestionId now =>
      dsimp only [hotStep]
      rw [Stores.storedPlan?_setRunPauseState]
      exact other
  | saveSequence username sequence =>
      exact other
  | addAward award =>
      exact other

/-- As long as the plans that are noted have ids of their own, no run
document ever carries the pipeline id as its plan. -/
theorem storedPlan?_run_ne
    (env : TrackerEnv) (key planId : String) {system : System}
    {steps : List HotStep}
    (notes : ∀ step ∈ steps, NotesOtherPlan planId step)
    (other : system.stores.storedPlan? key ≠ some planId) :
    (run (hotStep env) system steps).stores.storedPlan? key ≠
      some planId :=
  run_invariant
    (fun current : System =>
      current.stores.storedPlan? key ≠ some planId)
    (fun current step differs here =>
      storedPlan?_hotStep_ne env key planId current step here differs)
    other (everyStep_of_forall_mem system notes)

def estimatorBids : ResolutionEnv :=
  estimatorEnv "agent-a"

def estimateTask : ResolvedTask where
  taskId := "estimate"
  username := "alice"
  pipelineId := "pipe-1"
  pipelineRunId := "run-1"

def estimateRanking : EvaluationSequence where
  taskId := "estimate"
  pipelineId := "pipe-1"
  pipelineRunId := some "run-1"
  planId := "pipe-1"
  candidates :=
    [{ bidderId := "agent-a"
       serviceName := some "cost-estimator"
       bidScore := 9 / 10 },
      { bidderId := "agent-b"
        serviceName := some "speed-estimator"
        bidScore := 7 / 10 }]

def estimateRun : PipelineRun :=
  seedInitialRun "alice" "pipe-1" "run-1"
    { taskDict :=
        .ofList
          [("estimate", { availableServices := some "cost-estimator"
                          isFinalTask := true })] }
    none 0

def estimateStores : Stores :=
  ({ runs := fun _ => none } : Stores).createRun
    (runKey "alice" "pipe-1" "run-1") estimateRun

def estimateFailure : Report where
  clock := ⟨0, 0, 0⟩
  event :=
    { status := .failed
      pipelineRunId := "run-1"
      taskId := "estimate"
      username := "alice"
      pipelineId := "pipe-1"
      serviceName := "cost-estimator" }

/-- The state in which the task fails, after `between`. -/
def estimateSystem (between : List HotStep) : System :=
  run (hotStep {})
    ⟨fun _ => {},
      (resolveCompetingService estimatorBids estimateStores estimateTask
        "deal_estimation").stores⟩ between

/-- With a plan named like the pipeline the second agent takes over. -/
theorem ranking_found_under_pipeline_id :
    AdvancesSaved {}
      (estimateSystem
        [.recordPlan (runKey "alice" "pipe-1" "run-1") "pipe-1" 1])
      "alice" estimateFailure estimateRanking := by
  apply
    (resolved_sequence_advanced_iff {} estimatorBids estimateStores
      (fun _ => {}) estimateTask "deal_estimation" estimateRanking
      [.recordPlan (runKey "alice" "pipe-1" "run-1") "pipe-1" 1]
      estimateFailure (by decide +kernel) ⟨rfl, rfl, rfl, rfl⟩ rfl rfl
      rfl (by decide +kernel)).mpr
  decide +kernel

/-- In a run as the orchestrator seeds it, and with the plan of the plan
builder, the ranking of the failed task is not found. -/
theorem ranking_not_found_under_plan_id :
    (resolveCompetingService estimatorBids estimateStores estimateTask
        "deal_estimation").sequence = some estimateRanking ∧
      ¬ AdvancesSaved {} (estimateSystem []) "alice" estimateFailure
        estimateRanking ∧
      ¬ AdvancesSaved {}
        (estimateSystem
          [.recordPlan (runKey "alice" "pipe-1" "run-1") "plan-1" 1])
        "alice" estimateFailure estimateRanking := by
  refine ⟨by decide +kernel, ?_, ?_⟩
  · rintro ⟨found, _⟩
    revert found
    decide +kernel
  · rintro ⟨found, _⟩
    revert found
    decide +kernel

end Agentcy.Forwarder
