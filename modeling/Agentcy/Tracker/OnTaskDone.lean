import Agentcy.PipelineStore.Documents
import Agentcy.Runs.EphemeralStore
import Agentcy.Tracker.LRUSet

/-!
# The pipeline-run tracker

`PipelineRunTracker.on_task_done` as the code runs it: de-duplication, the
read of the run document, the forward-only check, the decision about the run
status (with the re-forwarding helper), the whole-document write, and the
effects that follow the write.  The two halves around the read and the write
are definitions of their own, because calls of different tracker instances
interleave exactly there.
-/

namespace Agentcy.Tracker

open Agentcy.Library
open Agentcy.Runs

/-- Settings and read-only stores that a tracker sees. -/
structure TrackerEnv where
  -- the variable CNP_FAILURE_REFORWARD is not "0"
  failureReforward : Bool := true
  hasGraphMarkerStore : Bool := true
  -- what `pipeline_store.read` returns, the only one of the methods tried that
  -- the store has; `none` stands for a missing store and a failed read
  pipelineDoc : String → String → Option PipelineStore.StoredPipeline :=
    fun _ _ => none

/-- Clock readings of one call: the monotonic clock at the duplicate check and
at the final `add`, and the wall clock for `finished_at`. -/
structure Clock where
  checkedAt : ℚ
  addedAt : ℚ
  wall : Timestamp := 0

/-- Store writes of one call that raise. -/
structure Faults where
  awardFails : Bool := false
  updateRunFails : Bool := false

/-- One `_LRUSet` per run id. -/
structure TrackerState where
  dedupe : String → LRUSet String := fun _ => {}

structure ReforwardInfo where
  taskId : String
  newService : String
  newAgentId : String
  sequenceIndex : Nat
  bidScore : ℚ
  deriving DecidableEq

/-- Messages a call sends besides its store writes. -/
inductive Effect where
  | reassignTask (username pipelineId runId planId taskId failedAgent : String)
  | taskStateChanged
      (runId taskId : String) (status : TaskStatus) (error : Option String)
  | stopServices (services : List String)
  deriving DecidableEq

inductive Verdict where
  | duplicate
  | runNotFound
  | unknownTask
  | regressive
  | updateRaised
  | persisted (info : Option ReforwardInfo)
  deriving DecidableEq

/-- What the caller of `on_task_done` gets back, an exception being caught by
every caller and read as "no re-forward". -/
def Verdict.returned : Verdict → Option ReforwardInfo
  | .persisted info => info
  | _ => none

/-- Position in the forward-only order; unlisted statuses count as the
lowest. -/
def order : TaskStatus → Nat
  | .pending => 0
  | .running => 1
  | .completed => 2
  | .failed => 3
  | .idle => 0

def forwardOnly (prev new : TaskStatus) : Bool :=
  order prev ≤ order new

def statusText : TaskStatus → String
  | .pending => "TaskStatus.PENDING"
  | .running => "TaskStatus.RUNNING"
  | .completed => "TaskStatus.COMPLETED"
  | .failed => "TaskStatus.FAILED"
  | .idle => "TaskStatus.IDLE"

/-- A `TaskState` has no `sequence` and no `updated_at`, so the key ends with
the default sequence number. -/
def eventKey (task : TaskState) : String :=
  task.taskId ++ ":" ++ statusText task.status ++ ":" ++
    toString task.attempts ++ ":0"

/-- What the tracker looks up in the document that it reads.  A pipeline has
its tasks under `dag`; `task_dict`, `task_outputs`, `task_graph` and
`execution_order` are keys of the `pipeline_config` document alone. -/
def configOf : PipelineStore.StoredPipeline → PipelineConfigDoc
  | .stub .. => {}
  | .full _ => {}

def TrackerEnv.pipelineConfig
    (env : TrackerEnv) (username pipelineId : String) :
    Option PipelineConfigDoc :=
  (env.pipelineDoc username pipelineId).map configOf

def sinks (graph : OrderedMap String (List String)) :
    List String :=
  (graph.entries.filter fun entry => entry.2.isEmpty).map Prod.fst

/-- Final tasks according to the configuration: the tasks without outputs,
else those without successors in the graph, else the last one in order. -/
def deriveFinalsFromCfg
    (env : TrackerEnv) (username pipelineId : String) : List String :=
  match env.pipelineConfig username pipelineId with
  | none => []
  | some cfg =>
      let byOutputs := (cfg.taskOutputs.map sinks).getD []
      let byGraph := (cfg.taskGraph.map sinks).getD []
      if byOutputs ≠ [] then
        byOutputs
      else if byGraph ≠ [] then
        byGraph
      else
        ((cfg.executionOrder.getD []).getLast?).toList

/-- Tasks whose completion completes the run: the ids stored with the run,
else the tasks marked final, else those derived from the configuration. -/
def finals
    (env : TrackerEnv) (run : PipelineRun)
    (username pipelineId : String) : List String :=
  let hinted :=
    (run.tasks.entries.filter fun entry => entry.2.markedFinal).map
      Prod.fst
  if run.finalTaskIds ≠ [] then
    run.finalTaskIds
  else if hinted ≠ [] then
    hinted
  else
    deriveFinalsFromCfg env username pipelineId

def configuredService? (taskMeta : TaskMeta) : Option String :=
  match taskMeta.availableServices with
  | some service =>
      if service ≠ "" then some service
      else taskMeta.service.filter (· ≠ "")
  | none => taskMeta.service.filter (· ≠ "")

def serviceForTask
    (env : TrackerEnv) (username pipelineId taskId : String) :
    Option String := do
  let cfg ← env.pipelineConfig username pipelineId
  let taskMeta ← cfg.taskDict.get? taskId
  configuredService? taskMeta

def servicesFromCfg
    (env : TrackerEnv) (username pipelineId : String) : List String :=
  match env.pipelineConfig username pipelineId with
  | none => []
  | some cfg =>
      (cfg.taskDict.values.filterMap configuredService?).dedup

section Unread

variable (env : TrackerEnv) (username pipelineId : String)

theorem eq_empty_of_pipelineConfig {cfg : PipelineConfigDoc}
    (read : env.pipelineConfig username pipelineId = some cfg) :
    cfg = {} := by
  obtain ⟨doc, -, rfl⟩ := Option.map_eq_some_iff.mp read
  cases doc <;> rfl

/-- No service is ever found in the document that the tracker reads. -/
theorem serviceForTask_eq_none (taskId : String) :
    serviceForTask env username pipelineId taskId = none := by
  unfold serviceForTask
  cases read : env.pipelineConfig username pipelineId with
  | none =>
      rfl
  | some cfg =>
      rw [eq_empty_of_pipelineConfig env username pipelineId read]
      rfl

theorem servicesFromCfg_eq_nil :
    servicesFromCfg env username pipelineId = [] := by
  unfold servicesFromCfg
  cases read : env.pipelineConfig username pipelineId with
  | none =>
      rfl
  | some cfg =>
      rw [eq_empty_of_pipelineConfig env username pipelineId read]
      rfl

end Unread

/-! ## Re-forwarding -/

/-- Effects of the re-forwarding helper on the stores and on the run in
memory. -/
structure Reforward where
  stores : Stores
  run : PipelineRun
  info : Option ReforwardInfo
  effects : List Effect := []

/-- Plan under which the candidates of a failed task are looked up. -/
def planForReforward?
    (env : TrackerEnv) (stores : Stores) (event : TaskState) :
    Option String :=
  if env.failureReforward ∧ env.hasGraphMarkerStore then
    ((stores.readRun event.runKey).bind RunDoc.planId).filter (· ≠ "")
  else
    none

/-- Give the task of a failed event to `candidate`: a new award, the task back
to pending in `run`, and a reassignment command. -/
def reassign
    (env : TrackerEnv) (faults : Faults) (stores : Stores)
    (run : PipelineRun) (event taskState : TaskState) (planId : String)
    (candidate : Candidate) (sequenceIndex : Nat) : Reforward :=
  let award : ContractAward :=
    { username := event.username
      taskId := event.taskId
      bidderId := candidate.bidderId
      bidId := candidate.bidId
      cfpId := candidate.cfpId
      pipelineId := some event.pipelineId
      pipelineRunId := some event.pipelineRunId }
  let service :=
    (serviceForTask env event.username event.pipelineId
      event.taskId).getD candidate.bidderId
  let reset : TaskState :=
    { taskState with
      status := .pending
      error := none
      serviceName := service }
  let failedAgent :=
    if taskState.serviceName ≠ "" then taskState.serviceName
    else "unknown"
  { -- a failing award write is swallowed
    stores :=
      if faults.awardFails then stores
      else stores.addContractAward award
    run := { run with tasks := run.tasks.set event.taskId reset }
    info := some
      { taskId := event.taskId
        newService := service
        newAgentId := candidate.bidderId
        sequenceIndex := sequenceIndex
        bidScore := candidate.bidScore }
    effects := [.reassignTask event.username event.pipelineId
      event.pipelineRunId planId event.taskId failedAgent] }

/-- The helper `_try_reforward_sync`: advance the evaluation sequence of the
failed task and reassign the task to the candidate found there. -/
def tryReforwardSync
    (env : TrackerEnv) (faults : Faults) (stores : Stores)
    (run : PipelineRun) (event : TaskState) : Reforward :=
  match planForReforward? env stores event, run.tasks.get? event.taskId with
  | some planId, some taskState =>
      let advanced :=
        stores.advanceEvaluationSequence event.username event.taskId planId
      match advanced.2 with
      | none => { stores := advanced.1, run := run, info := none }
      | some (candidate, sequenceIndex) =>
          reassign env faults advanced.1 run event taskState planId
            candidate sequenceIndex
  | _, _ => { stores := stores, run := run, info := none }

/-- What a call keeps from its read: the run and the task as they were. -/
structure Admitted where
  run : PipelineRun
  prevTask : TaskState

/-- Sanity and forward-only checks on the document that was read. -/
def acceptEvent (doc : RunDoc) (event : TaskState) : Except Verdict Admitted :=
  match doc.run.tasks.get? event.taskId with
  | none => .error .unknownTask
  | some prevTask =>
      if forwardOnly prevTask.status event.status then
        .ok ⟨doc.run, prevTask⟩
      else
        .error .regressive

/-- The assignment `pipeline_run.tasks[task_id] = task`. -/
def putTask (run : PipelineRun) (task : TaskState) : PipelineRun :=
  { run with tasks := run.tasks.set task.taskId task }

/-- Every final task of the run is recorded as completed, and there is one. -/
def allFinalsCompleted
    (env : TrackerEnv) (run : PipelineRun)
    (username pipelineId : String) : Bool :=
  let finalIds := finals env run username pipelineId
  !finalIds.isEmpty &&
    finalIds.all fun finalId =>
      (run.tasks.get? finalId).map TaskState.status = some .completed

/-- The event with the final flags of the old and the new state merged. -/
def mergedTask (admitted : Admitted) (event : TaskState) : TaskState :=
  { event with
    isFinalTask :=
      some (admitted.prevTask.markedFinal || event.markedFinal) }

@[simp]
theorem putTask_tasks (run : PipelineRun) (task : TaskState) :
    (putTask run task).tasks = run.tasks.set task.taskId task :=
  rfl

@[simp]
theorem putTask_status (run : PipelineRun) (task : TaskState) :
    (putTask run task).status = run.status :=
  rfl

@[simp]
theorem putTask_finalTaskIds (run : PipelineRun) (task : TaskState) :
    (putTask run task).finalTaskIds = run.finalTaskIds :=
  rfl

@[simp]
theorem mergedTask_taskId (admitted : Admitted) (event : TaskState) :
    (mergedTask admitted event).taskId = event.taskId :=
  rfl

@[simp]
theorem mergedTask_status (admitted : Admitted) (event : TaskState) :
    (mergedTask admitted event).status = event.status :=
  rfl

/-- Everything between the forward-only check and the write: the event is
applied, the new run status is decided, and the event is applied once more
with the merged final flag. -/
def closeUpdate
    (env : TrackerEnv) (clock : Clock) (faults : Faults) (stores : Stores)
    (admitted : Admitted) (event : TaskState) : Reforward :=
  let applied := putTask admitted.run event
  let decided : Reforward :=
    if event.status = .failed then
      let reforward := tryReforwardSync env faults stores applied event
      match reforward.info with
      | some _ => reforward
      | none =>
          { reforward with
            run := { reforward.run with
              status := .failed
              finishedAt := some clock.wall } }
    else if
        allFinalsCompleted env applied event.username
          event.pipelineId then
      { stores := stores
        run := { applied with
          status := .completed
          finishedAt := some clock.wall }
        info := none }
    else
      { stores := stores, run := applied, info := none }
  { decided with run := putTask decided.run (mergedTask admitted event) }

/-- Services that get a stop command when the run ends. -/
def stopTargets
    (env : TrackerEnv) (run : PipelineRun)
    (username pipelineId : String) : List String :=
  let resolved :=
    run.tasks.entries.filterMap fun entry =>
      if entry.2.serviceName ≠ "" then some entry.2.serviceName
      else serviceForTask env username pipelineId entry.1
  if resolved ≠ [] then resolved.dedup
  else servicesFromCfg env username pipelineId

def effectsAfterWrite
    (env : TrackerEnv) (oldStatus : PipelineStatus) (run : PipelineRun)
    (event : TaskState) : List Effect :=
  .taskStateChanged event.pipelineRunId event.taskId event.status
      event.error ::
    if oldStatus = .running ∧ run.status.IsTerminal then
      [.stopServices
        (stopTargets env run event.username event.pipelineId)]
    else
      []

structure TrackerResult where
  tracker : TrackerState
  stores : Stores
  verdict : Verdict
  effects : List Effect := []

def TrackerState.setDeduper
    (tracker : TrackerState) (runId : String) (items : LRUSet String) :
    TrackerState where
  dedupe := Function.update tracker.dedupe runId items

/-- One call of `on_task_done`, from its duplicate check to its effects. -/
def onTaskDone
    (env : TrackerEnv) (clock : Clock) (faults : Faults)
    (tracker : TrackerState) (stores : Stores) (event : TaskState) :
    TrackerResult :=
  let key := eventKey event
  let checked := (tracker.dedupe event.pipelineRunId).contains key
    clock.checkedAt
  let checkedTracker := tracker.setDeduper event.pipelineRunId checked.2
  if checked.1 then
    { tracker := checkedTracker, stores := stores, verdict := .duplicate }
  else
    match stores.readRun event.runKey with
    | none =>
        { tracker := checkedTracker
          stores := stores
          verdict := .runNotFound }
    | some doc =>
        match acceptEvent doc event with
        | .error verdict =>
            { tracker := checkedTracker
              stores := stores
              verdict := verdict }
        | .ok admitted =>
            let closed :=
              closeUpdate env clock faults stores admitted event
            if faults.updateRunFails then
              { tracker := checkedTracker
                stores := closed.stores
                verdict := .updateRaised
                effects := closed.effects }
            else
              { tracker :=
                  checkedTracker.setDeduper event.pipelineRunId
                    (checked.2.add key clock.addedAt)
                stores :=
                  closed.stores.updateRun event.runKey
                    closed.run.modelDump
                verdict := .persisted closed.info
                effects :=
                  closed.effects ++
                    effectsAfterWrite env admitted.run.status closed.run
                      event }

end Agentcy.Tracker
