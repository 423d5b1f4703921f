import Agentcy.Library.DottedNames
import Agentcy.Parser.FrontEnd
import Agentcy.Parser.Parsing
import Agentcy.PipelineStore.Documents
import Agentcy.Tracker.Completion

/-!
# When a run is completed

The stored pipeline names its final tasks twice: the pipeline document has the
flagged tasks and the tasks that nothing depends on, and a fresh run takes the
flagged ones alone.  A run is therefore completed too early in exactly those
orders in which the last of the former to complete is not flagged.
-/

namespace Agentcy.Tracker

open Agentcy.Library
open Agentcy.Runs
open Agentcy.PipelineStore (DAGConfig deriveFinalTaskIds shopTask)
open Agentcy.Parser (SetOrder parseGraph)

def inputFields (inputs : PipelineStore.TaskInputs) : Fields :=
  match inputs.dependencies with
  | none => []
  | some dependencies =>
      [("dependencies", .list (dependencies.map Library.Json.str))]

/-- `dag.model_dump()`, with the keys that the parser reads. -/
def dagDump (dag : DAGConfig) : List Parser.Task :=
  dag.tasks.map fun task => {
    id := task.id
    name := task.name
    availableServices := task.availableServices
    inputs := task.inputs.map inputFields }

/-- The generated configuration, as far as run handling reads it: its
`task_dict` holds the dumped tasks with their flags. -/
def configDoc (dag : DAGConfig) (config : Parser.FinalConfig) :
    PipelineConfigDoc where
  taskDict := .ofList (dag.tasks.map fun task =>
    (task.id, {
      availableServices := some task.availableServices
      description := task.description
      isEntry := task.isEntry
      isFinalTask := task.isFinalTask
      inferredOutputs := ((config.taskDict.get? task.id).map
        fun inferred => inferred.inferredOutputs).getD [] }))
  taskOutputs := some config.taskOutputs
  taskGraph := some config.taskGraph
  executionOrder := some config.executionOrder

def taskIds (dag : DAGConfig) : List String :=
  dag.tasks.map PipelineStore.Task.id

def flaggedIds (dag : DAGConfig) : List String :=
  (dag.tasks.filter PipelineStore.Task.isFinalTask).map
    PipelineStore.Task.id

theorem flagged_subset_final (dag : DAGConfig) :
    flaggedIds dag ⊆ deriveFinalTaskIds dag := by
  intro taskId flagged
  rcases List.mem_map.mp flagged with ⟨task, member, same⟩
  have isTask := (List.mem_filter.mp member).1
  rw [deriveFinalTaskIds]
  apply List.mem_filter.mpr
  refine ⟨List.mem_map.mpr ⟨task, isTask, same⟩, ?_⟩
  rw [Bool.or_eq_true]
  exact Or.inr (List.contains_iff_mem.mpr flagged)

theorem final_subset_ids (dag : DAGConfig) :
    deriveFinalTaskIds dag ⊆ taskIds dag :=
  List.filter_subset_self _

theorem nodup_taskIds
    {keyOrder : SetOrder Library.Json.Key} {order : SetOrder String}
    {configId : Uuid} {dag : DAGConfig} {config : Parser.FinalConfig}
    (accepted : parseGraph keyOrder order configId (dagDump dag) =
      .ok config) : (taskIds dag).Nodup := by
  obtain ⟨parsing⟩ := Parser.parsing_of_parseGraph accepted
  have nodup := Parser.nodup_of_detectCyclesKahn parsing.passed
  rw [parsing.infers.ids, dagDump, List.map_map] at nodup
  exact nodup

section Seed

variable
  {dag : DAGConfig} (nodup : (taskIds dag).Nodup)
  (config : Parser.FinalConfig) (username pipelineId runId : String)
  (pipelineConfigId : Option String) (now : Timestamp)

include nodup

theorem entries_taskDict :
    (configDoc dag config).taskDict.entries =
      dag.tasks.map fun task =>
        (task.id, {
          availableServices := some task.availableServices
          description := task.description
          isEntry := task.isEntry
          isFinalTask := task.isFinalTask
          inferredOutputs := ((config.taskDict.get? task.id).map
            fun inferred => inferred.inferredOutputs).getD [] }) := by
  apply OrderedMap.entries_ofList_of_nodup
  rw [List.map_map]
  exact nodup

theorem finalTaskIds_seed :
    (seedInitialRun username pipelineId runId (configDoc dag config)
      pipelineConfigId now).finalTaskIds = flaggedIds dag := by
  rw [seedInitialRun]
  dsimp only
  rw [entries_taskDict nodup, List.filter_map, List.map_map]
  rfl

theorem pending_seed {taskId : String} (isTask : taskId ∈ taskIds dag) :
    ((seedInitialRun username pipelineId runId (configDoc dag config)
      pipelineConfigId now).tasks.get? taskId).map TaskState.status =
        some .pending := by
  rcases List.mem_map.mp isTask with ⟨task, member, rfl⟩
  have listed : ∃ taskMeta,
      (task.id, taskMeta) ∈ (configDoc dag config).taskDict.entries := by
    rw [entries_taskDict nodup]
    exact ⟨_, List.mem_map.mpr ⟨task, member, rfl⟩⟩
  rcases listed with ⟨taskMeta, inDict⟩
  rw [seedInitialRun]
  dsimp only
  rw [OrderedMap.get?_mapValues, OrderedMap.get?_of_mem inDict]
  rfl

end Seed

/-- A key names the task that was reported. -/
theorem taskId_of_eventKey
    {first second : TaskState} (sameStatus : first.status = second.status)
    (same : eventKey first = eventKey second) :
    first.taskId = second.taskId := by
  have lists := congrArg String.toList same
  have shape : ∀ task : TaskState, (eventKey task).toList =
      ((task.taskId.toList ++ ':' :: (statusText task.status).toList) ++
        ':' :: (toString task.attempts).toList) ++ ':' :: ['0'] := by
    intro task
    simp [eventKey]
  rw [shape, shape] at lists
  have parts := (append_separator_inj (by decide) (by decide) lists).1
  have noColon :=
    @PyText.not_mem_toString_int ':' (by decide) (by decide)
  have rest :=
    (append_separator_inj (noColon _) (noColon _) parts).1
  rw [sameStatus] at rest
  exact String.ext (List.append_cancel_right rest)

/-- The report that a task of the run has completed, whose write succeeds. -/
structure Completes (username pipelineId runId : String) (report : Report) :
    Prop where
  status : report.event.status = .completed
  username : report.event.username = username
  pipelineId : report.event.pipelineId = pipelineId
  runId : report.event.pipelineRunId = runId
  written : report.faults.updateRunFails = false

/-- What is stored once the tasks in `done` have completed, and what the
trackers remember. -/
structure Progress
    (key runId : String) (ids flagged done : List String)
    (system : System) : Prop where
  stored : ∃ doc, system.stores.readRun key = some doc ∧
    doc.run.finalTaskIds = flagged ∧
    doc.run.status =
      (if flagged ⊆ done then .completed else .running) ∧
    ∀ taskId ∈ ids, (doc.run.tasks.get? taskId).map TaskState.status =
      some (if taskId ∈ done then .completed else .pending)
  seen : ∀ index entry,
    entry ∈ ((system.trackers index).dedupe runId).data.entries →
      ∃ event : TaskState, event.status = .completed ∧
        event.taskId ∈ done ∧ entry.1 = eventKey event

section Step

variable
  {username pipelineId runId : String} {ids flagged done : List String}
  {system : System} {report : Report}

theorem runKey_of_completes
    (completes : Completes username pipelineId runId report) :
    report.event.runKey = runKey username pipelineId runId := by
  rw [TaskState.runKey, completes.username, completes.pipelineId,
    completes.runId]

theorem landing_of_progress
    (progress : Progress (runKey username pipelineId runId) runId ids
      flagged done system)
    (completes : Completes username pipelineId runId report)
    (isTask : report.event.taskId ∈ ids)
    (new : report.event.taskId ∉ done) :
    ∃ admitted, system.landing? report = some admitted := by
  have sameKey := runKey_of_completes completes
  apply Option.isSome_iff_exists.mp
  rw [System.landing?, landing?_isSome_iff]
  refine ⟨?_, completes.written, .pending, ?_, ?_⟩
  · -- A remembered key would be that of a task that has completed.
    rw [remembered, LRUSet.contains, completes.runId]
    apply Bool.eq_false_iff.mpr
    intro found
    split at found
    · rename_i inside
      have member := (OrderedMap.mem_keys_iff _ _).mpr inside
      rcases List.mem_map.mp member with ⟨entry, inPurged, sameEntry⟩
      have inSet := LRUSet.purgeExpired_subset _ _ entry inPurged
      obtain ⟨event, completed, isDone, sameEvent⟩ :=
        progress.seen report.tracker entry inSet
      have sameKeys : eventKey event = eventKey report.event :=
        sameEvent.symm.trans sameEntry
      have sameTask := taskId_of_eventKey
        (completed.trans completes.status.symm) sameKeys
      rw [sameTask] at isDone
      exact new isDone
    · cases found
  · obtain ⟨doc, stored, _, _, statuses⟩ := progress.stored
    rw [storedTaskStatus?, sameKey, stored]
    have pending := statuses report.event.taskId isTask
    rw [if_neg new] at pending
    exact pending
  · rw [completes.status]
    rfl

theorem allFinalsCompleted_iff
    {env : TrackerEnv} {run : PipelineRun} {user pipeline : String}
    (named : run.finalTaskIds ≠ []) :
    allFinalsCompleted env run user pipeline = true ↔
      ∀ finalId ∈ run.finalTaskIds,
        (run.tasks.get? finalId).map TaskState.status =
          some .completed := by
  rw [allFinalsCompleted, finals_of_named env user pipeline named]
  simp [named]

/-- The statuses of the tasks once a further one is put as completed. -/
theorem statuses_putTask
    {run : PipelineRun} {task : TaskState}
    (statuses : ∀ taskId ∈ ids,
      (run.tasks.get? taskId).map TaskState.status =
        some (if taskId ∈ done then .completed else .pending))
    (completed : task.status = .completed) :
    ∀ taskId ∈ ids,
      ((putTask run task).tasks.get? taskId).map TaskState.status =
        some (if taskId ∈ done ++ [task.taskId] then .completed
          else .pending) := by
  intro taskId isId
  rw [taskStatus_putTask, completed]
  by_cases here : taskId = task.taskId
  · rw [if_pos here, if_pos]
    rw [here]
    exact List.mem_append_right done List.mem_cons_self
  · rw [if_neg here, statuses taskId isId]
    simp [here]

theorem finals_completed_iff
    (env : TrackerEnv) {run : PipelineRun} {task : TaskState}
    (user pipeline : String)
    (finalIds : run.finalTaskIds = flagged) (named : flagged ≠ [])
    (inside : flagged ⊆ ids)
    (statuses : ∀ taskId ∈ ids,
      (run.tasks.get? taskId).map TaskState.status =
        some (if taskId ∈ done then .completed else .pending))
    (completed : task.status = .completed) :
    allFinalsCompleted env (putTask run task) user pipeline = true ↔
      flagged ⊆ done ++ [task.taskId] := by
  have applied := statuses_putTask statuses completed
  have namedRun : (putTask run task).finalTaskIds ≠ [] := by
    rw [putTask_finalTaskIds, finalIds]
    exact named
  rw [allFinalsCompleted_iff namedRun, putTask_finalTaskIds, finalIds]
  constructor
  · intro every finalId isFinal
    have here := every finalId isFinal
    rw [applied finalId (inside isFinal)] at here
    by_contra pending
    rw [if_neg pending] at here
    cases here
  · intro every finalId isFinal
    rw [applied finalId (inside isFinal), if_pos (every isFinal)]

/-- The trackers remember the reports of completed tasks only. -/
theorem seen_handle
    (env : TrackerEnv)
    (progress : Progress (runKey username pipelineId runId) runId ids
      flagged done system)
    (completes : Completes username pipelineId runId report)
    {admitted : Admitted}
    (lands : system.landing? report = some admitted) :
    ∀ index entry,
      entry ∈ (((system.handle env report).trackers index).dedupe
          runId).data.entries →
        ∃ event : TaskState, event.status = .completed ∧
          event.taskId ∈ done ++ [report.event.taskId] ∧
          entry.1 = eventKey event := by
  intro index entry member
  have before : ∀ old ∈
      ((system.trackers index).dedupe runId).data.entries,
      ∃ event : TaskState, event.status = .completed ∧
        event.taskId ∈ done ++ [report.event.taskId] ∧
        old.1 = eventKey event := by
    intro old inOld
    obtain ⟨event, completed, isDone, sameEvent⟩ :=
      progress.seen index old inOld
    exact ⟨event, completed, List.mem_append_left _ isDone, sameEvent⟩
  have fromReport : ∃ event : TaskState, event.status = .completed ∧
      event.taskId ∈ done ++ [report.event.taskId] ∧
      eventKey report.event = eventKey event :=
    ⟨report.event, completes.status,
      List.mem_append_right done List.mem_cons_self, rfl⟩
  rw [System.handle] at member
  dsimp only at member
  by_cases sameTracker : index = report.tracker
  · have remembers := dedupe_onTaskDone_of_landing env lands
    rw [sameTracker, Function.update_self, System.respond,
      ← completes.runId, remembers] at member
    rw [sameTracker, ← completes.runId] at before
    rcases LRUSet.keys_add _ _ _ entry member with
      same | ⟨middle, inMiddle, sameMiddle⟩
    · rw [same]
      exact fromReport
    · rw [← sameMiddle]
      rcases LRUSet.keys_contains _ _ _ middle inMiddle with
        same | ⟨old, inOld, sameOld⟩
      · rw [same]
        exact fromReport
      · rw [← sameOld]
        exact before old inOld
  · rw [Function.update_of_ne sameTracker] at member
    exact before entry member

/-- A further task completes. -/
theorem Progress.step
    (env : TrackerEnv)
    (progress : Progress (runKey username pipelineId runId) runId ids
      flagged done system)
    (named : flagged ≠ []) (inside : flagged ⊆ ids)
    (completes : Completes username pipelineId runId report)
    (isTask : report.event.taskId ∈ ids)
    (new : report.event.taskId ∉ done) :
    Progress (runKey username pipelineId runId) runId ids flagged
      (done ++ [report.event.taskId]) (system.handle env report) := by
  have sameKey := runKey_of_completes completes
  obtain ⟨admitted, lands⟩ :=
    landing_of_progress progress completes isTask new
  obtain ⟨doc, stored, finalIds, status, statuses⟩ := progress.stored
  obtain ⟨found, isStored, sameRun, _, _⟩ := System.landing?_readRun lands
  rw [sameKey, stored] at isStored
  rw [← Option.some.inj isStored] at sameRun
  rw [← sameRun] at finalIds status statuses
  refine ⟨⟨_, sameKey ▸ System.readRun_handle_of_landing env lands,
    ?_, ?_, ?_⟩, seen_handle env progress completes lands⟩
  · rw [PipelineRun.modelDump, closeUpdate_finalTaskIds]
    exact finalIds
  · have all := finals_completed_iff env report.event.username
      report.event.pipelineId finalIds named inside statuses
      completes.status
    rw [PipelineRun.modelDump, closeUpdate_status, decidedStatus,
      completes.status, if_neg (by decide)]
    by_cases every : flagged ⊆ done ++ [report.event.taskId]
    · rw [if_pos (all.mpr every), if_pos every]
    · have notBefore : ¬ flagged ⊆ done := fun before =>
        every fun taskId member =>
          List.mem_append_left _ (before member)
      rw [if_neg (mt all.mp every), if_neg every, status,
        if_neg notBefore]
  · intro taskId isId
    rw [PipelineRun.modelDump]
    dsimp only
    rw [closeUpdate_tasks]
    have merged : (mergedTask admitted report.event).status = .completed :=
      completes.status
    exact statuses_putTask statuses merged taskId isId

end Step

/-! ## Whole orders -/

/-- The trackers have handled no report of the run yet. -/
def Unreported (trackers : Nat → TrackerState) (runId : String) : Prop :=
  ∀ index, ((trackers index).dedupe runId).data.entries = []

/-- Every task of the pipeline is reported as completed, once. -/
structure CompletesAll
    (dag : DAGConfig) (username pipelineId runId : String)
    (reports : List Report) : Prop where
  completes : ∀ report ∈ reports,
    Completes username pipelineId runId report
  tasks : (reports.map fun report => report.event.taskId).Perm (taskIds dag)

/-- The run is stored as completed if and only if every final task of the
pipeline document is. -/
def CompletedExactly
    (dag : DAGConfig) (key : String) (system : System) : Prop :=
  storedStatus? system.stores key = some .completed ↔
    ∀ finalId ∈ deriveFinalTaskIds dag,
      storedTaskStatus? system.stores key finalId = some .completed

/-- The final task that completes last is a flagged one. -/
def LastFinalFlagged (dag : DAGConfig) (order : List String) : Prop :=
  ∀ front last back, order = front ++ last :: back →
    last ∈ deriveFinalTaskIds dag →
    (∀ later ∈ back, later ∉ deriveFinalTaskIds dag) →
      last ∈ flaggedIds dag

section Run

variable
  {keyOrder : SetOrder Library.Json.Key} {setOrder : SetOrder String}
  {configId : Uuid} {dag : DAGConfig} {config : Parser.FinalConfig}
  {username pipelineId runId : String} {trackers : Nat → TrackerState}

theorem progress_seeded
    (username pipelineId : String)
    (nodup : (taskIds dag).Nodup) (flagged : flaggedIds dag ≠ [])
    (base : Stores) (config : Parser.FinalConfig)
    (pipelineConfigId : Option String) (now : Timestamp)
    (planId : Option String) (planRevision : Option Int)
    (unreported : Unreported trackers runId) :
    Progress (runKey username pipelineId runId) runId (taskIds dag)
      (flaggedIds dag) []
      ⟨trackers, seededStores base username pipelineId runId
        (configDoc dag config) pipelineConfigId now planId
        planRevision⟩ := by
  constructor
  · refine ⟨_, Stores.readRun_updateRun_self _ _ _,
      finalTaskIds_seed nodup _ _ _ _ _ _, ?_, ?_⟩
    · have notYet : ¬ flaggedIds dag ⊆ [] := fun none =>
        flagged (List.subset_nil.mp none)
      rw [if_neg notYet]
      rfl
    · intro taskId isTask
      rw [if_neg List.not_mem_nil]
      exact pending_seed nodup _ _ _ _ _ _ isTask
  · intro index entry member
    rw [unreported index] at member
    cases member

/-- The tasks reported so far have completed, after each part of the run. -/
theorem progress_run
    (env : TrackerEnv) {ids flagged : List String} {system : System}
    (named : flagged ≠ []) (inside : flagged ⊆ ids)
    (reports : List Report) (done : List String)
    (completes : ∀ report ∈ reports,
      Completes username pipelineId runId report)
    (tasks : ∀ report ∈ reports, report.event.taskId ∈ ids)
    (distinct :
      (done ++ reports.map fun report => report.event.taskId).Nodup)
    (progress : Progress (runKey username pipelineId runId) runId ids
      flagged done system) :
    Progress (runKey username pipelineId runId) runId ids flagged
      (done ++ reports.map fun report => report.event.taskId)
      (run (System.handle env) system reports) := by
  induction reports generalizing done system with
  | nil =>
      rw [List.map_nil, List.append_nil]
      exact progress
  | cons report later inductionHypothesis =>
      rw [List.map_cons] at distinct ⊢
      have new : report.event.taskId ∉ done := fun before =>
        (List.nodup_append.mp distinct).2.2 _ before _
          List.mem_cons_self rfl
      have next := progress.step env named inside
        (completes report List.mem_cons_self)
        (tasks report List.mem_cons_self) new
      have rest := inductionHypothesis (done ++ [report.event.taskId])
        (fun other member =>
          completes other (List.mem_cons_of_mem report member))
        (fun other member =>
          tasks other (List.mem_cons_of_mem report member))
        (by rwa [List.append_assoc, List.singleton_append]) next
      rw [List.append_assoc, List.singleton_append] at rest
      exact rest

theorem Progress.completedExactly_iff
    {done : List String} {system : System} {key : String}
    (progress : Progress key runId (taskIds dag) (flaggedIds dag) done
      system) :
    CompletedExactly dag key system ↔
      (flaggedIds dag ⊆ done → deriveFinalTaskIds dag ⊆ done) := by
  obtain ⟨doc, stored, _, status, statuses⟩ := progress.stored
  have runStatus : storedStatus? system.stores key = some .completed ↔
      flaggedIds dag ⊆ done := by
    rw [storedStatus?, stored, Option.map_some, status, Option.some.injEq]
    split <;> simp_all
  have taskStatus : ∀ taskId ∈ taskIds dag,
      (storedTaskStatus? system.stores key taskId = some .completed ↔
        taskId ∈ done) := by
    intro taskId isTask
    rw [storedTaskStatus?, stored, Option.bind_some, RunDoc.taskStatus?,
      statuses taskId isTask, Option.some.injEq]
    split <;> simp_all
  have finals :
      (∀ finalId ∈ deriveFinalTaskIds dag,
        storedTaskStatus? system.stores key finalId =
          some .completed) ↔ deriveFinalTaskIds dag ⊆ done := by
    constructor
    · intro every finalId isFinal
      exact (taskStatus finalId (final_subset_ids dag isFinal)).mp
        (every finalId isFinal)
    · intro every finalId isFinal
      exact (taskStatus finalId (final_subset_ids dag isFinal)).mpr
        (every isFinal)
  rw [CompletedExactly, runStatus, finals]
  exact ⟨fun same => same.mp, fun enough => ⟨enough, fun every =>
    List.Subset.trans (flagged_subset_final dag) every⟩⟩

end Run

theorem exists_last
    {α : Type*} (p : α → Prop) {list : List α} {x : α}
    (member : x ∈ list) (holds : p x) :
    ∃ front last back, list = front ++ last :: back ∧ p last ∧
      ∀ later ∈ back, ¬ p later := by
  induction list generalizing x with
  | nil =>
      cases member
  | cons head tail inductionHypothesis =>
      by_cases later : ∃ y ∈ tail, p y
      · rcases later with ⟨y, inTail, holdsLater⟩
        obtain ⟨front, last, back, split, isLast, noLater⟩ :=
          inductionHypothesis inTail holdsLater
        refine ⟨head :: front, last, back, ?_, isLast, noLater⟩
        rw [split]
        rfl
      · have noLater : ∀ y ∈ tail, ¬ p y := fun y inTail holdsLater =>
          later ⟨y, inTail, holdsLater⟩
        rcases List.mem_cons.mp member with rfl | inTail
        · exact ⟨[], x, tail, rfl, holds, noLater⟩
        · exact absurd holds (noLater x inTail)

/-- In every prefix the flagged tasks are complete only with all final
tasks, exactly when the last final task is flagged. -/
theorem lastFinalFlagged_iff
    {dag : DAGConfig} {order : List String}
    (distinct : order.Nodup) (inside : taskIds dag ⊆ order) :
    LastFinalFlagged dag order ↔
      ∀ before after, order = before ++ after →
        flaggedIds dag ⊆ before → deriveFinalTaskIds dag ⊆ before := by
  constructor
  · intro lastFlagged before after split flagged finalId isFinal
    by_contra notBefore
    have isLater : finalId ∈ after := by
      have ordered := inside (final_subset_ids dag isFinal)
      rw [split] at ordered
      exact (List.mem_append.mp ordered).resolve_left notBefore
    obtain ⟨front, last, back, splitAfter, lastFinal, noLater⟩ :=
      exists_last (· ∈ deriveFinalTaskIds dag) isLater isFinal
    have whole : order = (before ++ front) ++ last :: back := by
      rw [split, splitAfter, List.append_assoc]
    have lastBefore := flagged
      (lastFlagged (before ++ front) last back whole lastFinal noLater)
    rw [split] at distinct
    have lastAfter : last ∈ after := by
      rw [splitAfter]
      exact List.mem_append_right front List.mem_cons_self
    exact (List.nodup_append.mp distinct).2.2 last lastBefore last
      lastAfter rfl
  · intro prefixes front last back split lastFinal noLater
    by_contra notFlagged
    have early : flaggedIds dag ⊆ front := by
      intro taskId flagged
      have isFinal := flagged_subset_final dag flagged
      have ordered := inside (final_subset_ids dag isFinal)
      rw [split] at ordered
      rcases List.mem_append.mp ordered with isFront | isBack
      · exact isFront
      · rcases List.mem_cons.mp isBack with same | isLater
        · rw [same] at flagged
          exact absurd flagged notFlagged
        · exact absurd isFinal (noLater taskId isLater)
    have again := prefixes front (last :: back) split early lastFinal
    rw [split] at distinct
    exact (List.nodup_append.mp distinct).2.2 last again last
      List.mem_cons_self rfl

theorem lastFinalFlagged_of_ends_flagged
    {dag : DAGConfig} (earlier : List String) {taskId : String}
    (flagged : taskId ∈ flaggedIds dag) :
    LastFinalFlagged dag (earlier ++ [taskId]) := by
  intro front last back split _ noLater
  cases back using List.reverseRecOn with
  | nil =>
      have same := List.singleton_inj.mp (List.append_inj' split rfl).2
      rw [← same]
      exact flagged
  | append_singleton middle final _ =>
      rw [← List.cons_append, ← List.append_assoc] at split
      have same := List.singleton_inj.mp (List.append_inj' split rfl).2
      rw [same] at flagged
      exact absurd (flagged_subset_final dag flagged)
        (noLater final (List.mem_append_right middle List.mem_cons_self))

/-- Over an accepted pipeline with a flagged task, and in any order of its
tasks: the run is stored as completed exactly while all final tasks are, if
and only if the final task that completes last is flagged. -/
theorem completion_exact_iff
    (env : TrackerEnv)
    (keyOrder : SetOrder Library.Json.Key) (setOrder : SetOrder String)
    (configId : Uuid) (dag : DAGConfig) (config : Parser.FinalConfig)
    (accepted : parseGraph keyOrder setOrder configId (dagDump dag) =
      .ok config)
    (flagged : flaggedIds dag ≠ [])
    (username pipelineId runId : String)
    (pipelineConfigId : Option String) (now : Timestamp)
    (planId : Option String) (planRevision : Option Int) (base : Stores)
    (trackers : Nat → TrackerState)
    (unreported : Unreported trackers runId)
    (reports : List Report)
    (completesAll : CompletesAll dag username pipelineId runId reports) :
    EveryState (System.handle env)
        (CompletedExactly dag (runKey username pipelineId runId))
        ⟨trackers, seededStores base username pipelineId runId
          (configDoc dag config) pipelineConfigId now planId planRevision⟩
        reports ↔
      LastFinalFlagged dag
        (reports.map fun report => report.event.taskId) := by
  have nodup := nodup_taskIds accepted
  have distinct := completesAll.tasks.nodup_iff.mpr nodup
  have seeded := progress_seeded username pipelineId nodup flagged base
    config pipelineConfigId now planId planRevision unreported
  have inside : flaggedIds dag ⊆ taskIds dag :=
    List.Subset.trans (flagged_subset_final dag) (final_subset_ids dag)
  have reached : ∀ before after, reports = before ++ after →
      Progress (runKey username pipelineId runId) runId (taskIds dag)
        (flaggedIds dag)
        (before.map fun report => report.event.taskId)
        (run (System.handle env) ⟨trackers, seededStores base username
          pipelineId runId (configDoc dag config) pipelineConfigId now
          planId planRevision⟩ before) := by
    intro before after split
    subst split
    rw [List.map_append] at distinct
    have progress := progress_run env flagged inside before []
      (fun report member =>
        completesAll.completes report (List.mem_append_left _ member))
      (fun report member => completesAll.tasks.subset
        (List.mem_map_of_mem (List.mem_append_left _ member)))
      (List.Nodup.of_append_left distinct) seeded
    exact progress
  rw [everyState_iff_prefixes,
    lastFinalFlagged_iff distinct completesAll.tasks.symm.subset]
  constructor
  · intro everywhere before after split
    obtain ⟨reported, rest, splitReports, isBefore, isAfter⟩ :=
      List.map_eq_append_iff.mp split
    rw [← isBefore]
    exact (reached reported rest splitReports).completedExactly_iff.mp
      (everywhere reported rest splitReports)
  · intro prefixes before after split
    apply (reached before after split).completedExactly_iff.mpr
    apply prefixes _ (after.map fun report => report.event.taskId)
    rw [split, List.map_append]

/-! ## A fork with one flagged branch -/

/-- Nothing depends on `ship` or `archive`, and `ship` alone is flagged. -/
def forkDag : DAGConfig where
  tasks :=
    [shopTask "pack" [] false, shopTask "ship" ["pack"] true,
      shopTask "archive" ["pack"] false]

def forkParsed : Except Parser.ParseError Parser.FinalConfig :=
  parseGraph .ofDedup .ofDedup
    ⟨"5", by decide, List.all_eq_true.mp (by decide)⟩ (dagDump forkDag)

def completedReports (taskIds : List String) : List Report :=
  taskIds.map fun taskId =>
    { clock := ⟨0, 0, 0⟩, event := shipReport taskId .completed }

def forkSystem (config : Parser.FinalConfig) : System where
  stores :=
    seededStores { runs := fun _ => none } "alice" "pipe-1" "run-1"
      (configDoc forkDag config) none 0 none none

theorem forkParsed_ok : ∃ config, forkParsed = .ok config := by
  have accepted : forkParsed.toOption.isSome = true := by
    decide +kernel
  cases parsed : forkParsed with
  | error error =>
      rw [parsed] at accepted
      cases accepted
  | ok config =>
      exact ⟨config, rfl⟩

theorem fork_exact_when_ship_is_last :
    ∃ config, forkParsed = .ok config ∧
      EveryState (System.handle {})
        (CompletedExactly forkDag (runKey "alice" "pipe-1" "run-1"))
        (forkSystem config)
        (completedReports ["pack", "archive", "ship"]) := by
  obtain ⟨config, accepted⟩ := forkParsed_ok
  have flagged : flaggedIds forkDag ≠ [] := by decide
  have completesAll : CompletesAll forkDag "alice" "pipe-1" "run-1"
      (completedReports ["pack", "archive", "ship"]) := by
    constructor
    · intro report member
      rcases List.mem_map.mp member with ⟨taskId, _, rfl⟩
      exact ⟨rfl, rfl, rfl, rfl, rfl⟩
    · decide
  have exact_iff := completion_exact_iff {} .ofDedup .ofDedup _ forkDag
    config accepted flagged "alice" "pipe-1" "run-1" none 0 none none
    { runs := fun _ => none } (fun _ => {}) (fun _ => rfl)
    (completedReports ["pack", "archive", "ship"]) completesAll
  refine ⟨config, accepted, exact_iff.mpr ?_⟩
  exact lastFinalFlagged_of_ends_flagged ["pack", "archive"]
    (by decide)

/-- The run is completed after `ship`, while `archive` is pending. -/
theorem fork_completed_too_early :
    ∃ config, forkParsed = .ok config ∧
      ¬ EveryState (System.handle {})
        (CompletedExactly forkDag (runKey "alice" "pipe-1" "run-1"))
        (forkSystem config)
        (completedReports ["pack", "ship", "archive"]) := by
  obtain ⟨config, accepted⟩ := forkParsed_ok
  refine ⟨config, accepted, ?_⟩
  intro everywhere
  have early := (everyState_iff_prefixes _ _ _ _).mp everywhere
    (completedReports ["pack", "ship"]) (completedReports ["archive"]) rfl
  have status : forkParsed.toOption.map (fun config =>
      storedStatus?
        (run (System.handle {}) (forkSystem config)
          (completedReports ["pack", "ship"])).stores
        (runKey "alice" "pipe-1" "run-1")) = some (some .completed) := by
    decide +kernel
  have pending : forkParsed.toOption.map (fun config =>
      storedTaskStatus?
        (run (System.handle {}) (forkSystem config)
          (completedReports ["pack", "ship"])).stores
        (runKey "alice" "pipe-1" "run-1") "archive") =
          some (some .pending) := by
    decide +kernel
  rw [accepted] at status pending
  have archived := early.mp (Option.some.inj status) "archive" (by decide)
  exact absurd ((Option.some.inj pending).symm.trans archived) (by decide)

end Agentcy.Tracker
