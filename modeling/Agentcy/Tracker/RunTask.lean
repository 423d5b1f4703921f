import Agentcy.Tracker.Completion

/-!
# Two rules for the end of a run

`Runner.run_task` writes a reported status into the run document and decides
about the run by itself: a failure fails it, and one completed final task
completes it.  The tracker waits for all final tasks, and drops reports that
it knows or that go backwards.  The two are run here side by side on the same
reports, each on its own store.
-/

namespace Agentcy.Tracker

open Agentcy.Library
open Agentcy.Runs

/-- The run status that `run_task` writes. -/
def runTaskStatus
    (status : PipelineStatus) (entry message : TaskState) :
    PipelineStatus :=
  let failing := if message.status = .failed then .failed else status
  if entry.markedFinal = true ∧ message.status = .completed then
    .completed
  else failing

/-- `Runner.run_task`: the stores after it, and whether it updated a run
document. -/
def runTask (stores : Stores) (message : TaskState) : Stores × Bool :=
  match stores.readRun message.runKey with
  | none => (stores, false)
  | some doc =>
      match doc.run.tasks.get? message.taskId with
      | none => (stores, false)
      | some entry =>
          let updated := { entry with status := message.status }
          (stores.updateRun message.runKey
            { doc with
              run :=
                { doc.run with
                  tasks := doc.run.tasks.set message.taskId updated
                  status :=
                    runTaskStatus doc.run.status entry message } },
            true)

structure Lockstep where
  runner : Stores
  tracked : System

def Lockstep.step
    (env : TrackerEnv) (pair : Lockstep) (report : Report) : Lockstep where
  runner := (runTask pair.runner report.event).1
  tracked := pair.tracked.handle env report

/-- Both have stored the same run status. -/
def SameStatus (key : String) (pair : Lockstep) : Prop :=
  storedStatus? pair.runner key = storedStatus? pair.tracked.stores key

def storedTask? (stores : Stores) (key taskId : String) :
    Option TaskState :=
  (stores.readRun key).bind fun doc => doc.run.tasks.get? taskId

/-- The tracker accepts the report and finds all final tasks completed. -/
def AllCompletedBy
    (env : TrackerEnv) (system : System) (report : Report) : Prop :=
  ∃ admitted, system.landing? report = some admitted ∧
    allFinalsCompleted env (putTask admitted.run report.event)
      report.event.username report.event.pipelineId = true

/-- A report about a task of the run on which the two rules do not part, from
a common run status: a failure is accepted by the tracker, a completed final
task is the last of the final tasks, and no other report completes the run in
the tracker.  A report that leaves the status as it is may be anything. -/
def InStep
    (env : TrackerEnv) (key : String) (pair : Lockstep)
    (report : Report) : Prop :=
  report.event.runKey = key →
    ∀ entry, storedTask? pair.runner key report.event.taskId = some entry →
      if report.event.status = .failed then
        (pair.tracked.landing? report).isSome = true ∨
          storedStatus? pair.runner key = some .failed
      else if entry.markedFinal = true ∧
          report.event.status = .completed then
        AllCompletedBy env pair.tracked report ∨
          storedStatus? pair.runner key = some .completed
      else
        AllCompletedBy env pair.tracked report →
          storedStatus? pair.runner key = some .completed

theorem readRun_runTask_of_elsewhere
    (stores : Stores) (message : TaskState) {key : String}
    (elsewhere : key ≠ message.runKey) :
    (runTask stores message).1.readRun key = stores.readRun key := by
  unfold runTask
  split
  · rfl
  · split
    · rfl
    · exact Stores.readRun_updateRun_other stores _ elsewhere

theorem runTask_of_unknown
    {stores : Stores} {message : TaskState}
    (unknown : storedTask? stores message.runKey message.taskId = none) :
    (runTask stores message).1 = stores := by
  unfold runTask
  unfold storedTask? at unknown
  cases stored : stores.readRun message.runKey with
  | none =>
      rfl
  | some doc =>
      rw [stored, Option.bind_some] at unknown
      simp only [unknown]

theorem readRun_runTask_of_known
    {stores : Stores} {message entry : TaskState}
    (known :
      storedTask? stores message.runKey message.taskId = some entry) :
    ∃ doc, stores.readRun message.runKey = some doc ∧
      doc.run.tasks.get? message.taskId = some entry ∧
      (runTask stores message).1.readRun message.runKey =
        some { doc with
          run :=
            { doc.run with
              tasks :=
                doc.run.tasks.set message.taskId
                  { entry with status := message.status }
              status := runTaskStatus doc.run.status entry message } } := by
  obtain ⟨doc, stored, found⟩ := Option.bind_eq_some_iff.mp known
  refine ⟨doc, stored, found, ?_⟩
  unfold runTask
  simp only [stored, found, Stores.readRun_updateRun_self]

/-- Which tasks a run has does not change. -/
theorem storedTask?_runTask_isSome
    (stores : Stores) (message : TaskState) (key taskId : String) :
    (storedTask? (runTask stores message).1 key taskId).isSome =
      (storedTask? stores key taskId).isSome := by
  by_cases here : key = message.runKey
  · subst here
    cases known : storedTask? stores message.runKey message.taskId with
    | none =>
        rw [runTask_of_unknown known]
    | some entry =>
        obtain ⟨doc, stored, found, written⟩ :=
          readRun_runTask_of_known known
        simp only [storedTask?, written, stored, Option.bind_some,
          OrderedMap.get?_set]
        split
        · rename_i same
          rw [same, found]
          rfl
        · rfl
  · rw [storedTask?, readRun_runTask_of_elsewhere stores message here]
    rfl

theorem storedTask?_handle_isSome
    (env : TrackerEnv) (system : System) (report : Report)
    (key taskId : String) :
    (storedTask? (system.handle env report).stores key taskId).isSome =
      (storedTask? system.stores key taskId).isSome := by
  cases lands : system.landing? report with
  | none =>
      rw [storedTask?,
        System.readRun_handle_of_elsewhere env system report key
          (Or.inl lands)]
      rfl
  | some admitted =>
      by_cases here : key = report.event.runKey
      · subst here
        obtain ⟨doc, stored, sameRun, found, _⟩ :=
          System.landing?_readRun lands
        simp only [storedTask?, stored,
          System.readRun_handle_of_landing env lands, Option.bind_some,
          PipelineRun.modelDump, closeUpdate_tasks, OrderedMap.get?_set,
          sameRun]
        split
        · rename_i same
          rw [same, found]
          rfl
        · rfl
      · rw [storedTask?,
          System.readRun_handle_of_elsewhere env system report key
            (Or.inr here)]
        rfl

/-- The tracker without re-forwarding. -/
def withoutReforward (env : TrackerEnv) : TrackerEnv :=
  { env with failureReforward := false }

theorem decidedStatus_withoutReforward
    (env : TrackerEnv) (stores : Stores) (admitted : Admitted)
    (event : TaskState) :
    decidedStatus (withoutReforward env) stores admitted event =
      if event.status = .failed then .failed
      else if
          allFinalsCompleted (withoutReforward env)
            (putTask admitted.run event) event.username
            event.pipelineId = true then
        .completed
      else admitted.run.status := by
  have noTarget :
      reforwardTarget? (withoutReforward env) stores event = none := by
    simp [reforwardTarget?, planForReforward?, withoutReforward]
  rw [decidedStatus, noTarget]
  rfl

/-! ## When the two agree -/

/-- The two know the same tasks of the run. -/
def SameTasks (key : String) (pair : Lockstep) : Prop :=
  ∀ taskId, (storedTask? pair.runner key taskId).isSome =
    (storedTask? pair.tracked.stores key taskId).isSome

theorem sameTasks_step
    (env : TrackerEnv) {key : String} {pair : Lockstep}
    (same : SameTasks key pair) (report : Report) :
    SameTasks key (pair.step env report) := by
  intro taskId
  rw [Lockstep.step, storedTask?_runTask_isSome, same taskId,
    storedTask?_handle_isSome]

/-- What the tracker has stored after a report, from what it had before. -/
theorem storedStatus?_handle_withoutReforward
    (env : TrackerEnv) (system : System) (report : Report) :
    storedStatus? (system.handle (withoutReforward env) report).stores
        report.event.runKey =
      match system.landing? report with
      | none => storedStatus? system.stores report.event.runKey
      | some admitted =>
          some
            (if report.event.status = .failed then .failed
            else if
                allFinalsCompleted (withoutReforward env)
                  (putTask admitted.run report.event)
                  report.event.username report.event.pipelineId = true then
              .completed
            else admitted.run.status) := by
  cases lands : system.landing? report with
  | none =>
      rw [storedStatus?,
        System.readRun_handle_of_elsewhere _ system report _
          (Or.inl lands)]
      rfl
  | some admitted =>
      rw [System.storedStatus?_handle_of_landing _ lands,
        decidedStatus_withoutReforward]

theorem sameStatus_step_iff
    (env : TrackerEnv) {key : String} {pair : Lockstep}
    (agree : SameStatus key pair) (tasks : SameTasks key pair)
    (report : Report) :
    SameStatus key (pair.step (withoutReforward env) report) ↔
      InStep (withoutReforward env) key pair report := by
  by_cases here : report.event.runKey = key
  · subst here
    cases known :
        storedTask? pair.runner report.event.runKey
          report.event.taskId with
    | none =>
        -- Neither of the two knows the task.
        have misses : pair.tracked.landing? report = none := by
          by_contra lands
          obtain ⟨admitted, landed⟩ := Option.ne_none_iff_exists'.mp lands
          obtain ⟨doc, stored, -, found, -⟩ :=
            System.landing?_readRun landed
          have tracked := tasks report.event.taskId
          rw [known, storedTask?, stored, Option.bind_some, found]
            at tracked
          cases tracked
        refine iff_of_true ?_ ?_
        · rw [SameStatus, Lockstep.step, runTask_of_unknown known,
            storedStatus?_handle_withoutReforward, misses]
          exact agree
        · intro _ entry found
          rw [known] at found
          cases found
    | some entry =>
        obtain ⟨doc, stored, -, written⟩ := readRun_runTask_of_known known
        have before :
            storedStatus? pair.runner report.event.runKey =
              some doc.run.status := by
          rw [storedStatus?, stored, Option.map_some]
        have after :
            storedStatus? (runTask pair.runner report.event).1
                report.event.runKey =
              some (runTaskStatus doc.run.status entry report.event) := by
          rw [storedStatus?, written, Option.map_some]
        have condition :
            InStep (withoutReforward env) report.event.runKey pair report ↔
              if report.event.status = .failed then
                (pair.tracked.landing? report).isSome = true ∨
                  doc.run.status = .failed
              else if entry.markedFinal = true ∧
                  report.event.status = .completed then
                AllCompletedBy (withoutReforward env) pair.tracked
                    report ∨
                  doc.run.status = .completed
              else
                AllCompletedBy (withoutReforward env) pair.tracked
                    report →
                  doc.run.status = .completed := by
          simp only [InStep, known, before, Option.some.injEq, forall_eq',
            forall_const]
        rw [SameStatus, Lockstep.step, after,
          storedStatus?_handle_withoutReforward, condition]
        have tracked :
            storedStatus? pair.tracked.stores report.event.runKey =
              some doc.run.status :=
          agree.symm.trans before
        cases lands : pair.tracked.landing? report with
        | none =>
            have never :
                ¬ AllCompletedBy (withoutReforward env) pair.tracked
                  report := by
              rintro ⟨admitted, landed, -⟩
              rw [lands] at landed
              cases landed
            simp only [tracked, never, Option.some.injEq, runTaskStatus]
            by_cases failure : report.event.status = .failed
            · have notFinal :
                  ¬ (entry.markedFinal = true ∧
                    report.event.status = .completed) := by
                simp [failure]
              rw [if_neg notFinal, if_pos failure, if_pos failure]
              simp only [Option.isSome_none, Bool.false_eq_true, false_or]
              exact eq_comm
            · by_cases final :
                  entry.markedFinal = true ∧
                    report.event.status = .completed
              · simp only [if_neg failure, if_pos final, false_or]
                exact eq_comm
              · simp only [if_neg failure, if_neg final, false_implies]
        | some admitted =>
            have sameRun : admitted.run.status = doc.run.status := by
              have read := System.storedStatus?_of_landing lands
              rw [tracked] at read
              exact (Option.some.inj read).symm
            have completes :
                AllCompletedBy (withoutReforward env) pair.tracked report ↔
                  allFinalsCompleted (withoutReforward env)
                    (putTask admitted.run report.event)
                    report.event.username
                    report.event.pipelineId = true := by
              simp only [AllCompletedBy, lands, Option.some.injEq,
                exists_eq_left']
            simp only [completes, Option.isSome_some, true_or,
              Option.some.injEq, runTaskStatus, sameRun]
            by_cases failure : report.event.status = .failed
            · simp [failure]
            · by_cases final :
                  entry.markedFinal = true ∧
                    report.event.status = .completed
              · rw [if_pos final, if_neg failure, if_neg failure,
                  if_pos final]
                split
                · rename_i all
                  exact iff_of_true rfl (Or.inl all)
                · rename_i notAll
                  rw [or_iff_right notAll]
                  exact eq_comm
              · rw [if_neg final, if_neg failure, if_neg failure,
                  if_neg failure, if_neg final]
                split
                · rename_i all
                  exact ⟨fun same _ => same, fun same => same all⟩
                · rename_i notAll
                  exact iff_of_true rfl fun all => absurd all notAll
  · refine iff_of_true ?_ fun same => absurd same here
    rw [SameStatus, storedStatus?, storedStatus?, Lockstep.step,
      readRun_runTask_of_elsewhere _ _ (Ne.symm here),
      System.readRun_handle_of_elsewhere _ _ _ _
        (Or.inr (Ne.symm here))]
    exact agree

/-- Over every sequence of reports about a run, the two store the same run
status throughout exactly if they stay in step at every report. -/
theorem run_task_agrees_iff
    (env : TrackerEnv) (key : String) (stores : Stores)
    (trackers : Nat → TrackerState) (reports : List Report) :
    EveryState (Lockstep.step (withoutReforward env)) (SameStatus key)
        ⟨stores, trackers, stores⟩ reports ↔
      EveryStep (Lockstep.step (withoutReforward env))
        (InStep (withoutReforward env) key)
        ⟨stores, trackers, stores⟩ reports := by
  apply
    everyState_iff_everyStep
      (fun pair => SameStatus key pair ∧ SameTasks key pair)
  · intro pair good
    exact good.1
  · intro pair report good
    exact sameStatus_step_iff env good.1 good.2 report
  · intro pair report good after
    exact ⟨after, sameTasks_step _ good.2 report⟩
  · exact ⟨rfl, fun _ => rfl⟩

def checkShipAndBill : PipelineConfigDoc where
  taskDict :=
    .ofList
      [("ship", { isFinalTask := true }), ("bill", { isFinalTask := true })]

theorem first_final_task_parts_the_rules :
    ¬ EveryState (Lockstep.step (withoutReforward {}))
        (SameStatus (runKey "alice" "pipe-1" "run-1"))
        ⟨seededStores { runs := fun _ => none } "alice" "pipe-1" "run-1"
          checkShipAndBill none 0 none none,
          fun _ => {},
          seededStores { runs := fun _ => none } "alice" "pipe-1" "run-1"
          checkShipAndBill none 0 none none⟩
        [{ clock := ⟨0, 0, 0⟩, event := shipReport "ship" .completed }] := by
  rintro ⟨_, parted⟩
  change storedStatus? _ _ = storedStatus? _ _ at parted
  exact absurd parted (by decide +kernel)

end Agentcy.Tracker
