import Agentcy.Tracker.TerminalStatus
import Mathlib.Data.List.Dedup

/-!
# Stop commands

A call broadcasts stop commands when it finds the run RUNNING and leaves it
completed or failed.  No call makes a run RUNNING again, so over any sequence
of reports the broadcast is made once, by the report that ends the run.  It
goes to the services that are recorded with the tasks: the configured ones are
looked for in a document that does not have them.
-/

namespace Agentcy.Tracker

open Agentcy.Library
open Agentcy.Runs

def Effect.stopped : Effect → Option (List String)
  | .stopServices services => some services
  | _ => none

/-- The broadcasts among the effects of a call, each with its recipients. -/
def broadcasts (effects : List Effect) : List (List String) :=
  effects.filterMap Effect.stopped

def configuredFor (config : PipelineConfigDoc) (taskId : String) :
    Option String :=
  (config.taskDict.get? taskId).bind configuredService?

/-- The service that is recorded with a task, or else configured for it. -/
def serviceOf
    (config : PipelineConfigDoc) (taskId : String) (task : TaskState) :
    Option String :=
  if task.serviceName ≠ "" then some task.serviceName
  else configuredFor config taskId

/-- The broadcasts about the run under `key` while the reports are handled. -/
def System.broadcastsOf
    (env : TrackerEnv) (key : String) :
    System → List Report → List (List String)
  | _, [] => []
  | system, report :: rest =>
      (if report.event.runKey = key then
        broadcasts (system.respond env report).effects
      else []) ++
        System.broadcastsOf env key (system.handle env report) rest

/-- Every task of the stored run with a recorded or configured service has it
among the recipients of each broadcast that the report causes. -/
def ReachesServices
    (env : TrackerEnv) (config : PipelineConfigDoc) (key : String)
    (system : System) (report : Report) : Prop :=
  report.event.runKey = key →
    ∀ services ∈ broadcasts (system.respond env report).effects,
      ∀ doc, (system.handle env report).stores.readRun key = some doc →
        ∀ taskId task, doc.run.tasks.get? taskId = some task →
          ∀ service, serviceOf config taskId task = some service →
            service ∈ services

/-- The tasks of the run once a report has been accepted. -/
def tasksAfter (admitted : Admitted) (event : TaskState) :
    OrderedMap String TaskState :=
  admitted.run.tasks.set event.taskId (mergedTask admitted event)

/-- An accepted report ends a running run: a failure that nobody takes over,
or any other report that leaves all final tasks completed. -/
def EndsRun
    (env : TrackerEnv) (stores : Stores) (admitted : Admitted)
    (event : TaskState) : Prop :=
  admitted.run.status = .running ∧
    ((event.status = .failed ∧
        reforwardTarget? env stores event = none) ∨
      (event.status ≠ .failed ∧
        allFinalsCompleted env (putTask admitted.run event)
          event.username event.pipelineId = true))

/-- A report that ends the run leaves no task without a recorded service whose
configured service is not recorded with another task either. -/
def RecordsServices
    (env : TrackerEnv) (config : PipelineConfigDoc) (key : String)
    (system : System) (report : Report) : Prop :=
  report.event.runKey = key →
    ∀ admitted, system.landing? report = some admitted →
      EndsRun env system.stores admitted report.event →
        ∀ taskId task,
          (tasksAfter admitted report.event).get? taskId = some task →
            task.serviceName = "" →
              ∀ service, configuredFor config taskId = some service →
                ∃ otherId other,
                  (tasksAfter admitted report.event).get? otherId =
                      some other ∧
                    other.serviceName = service

section Call

variable (env : TrackerEnv) (clock : Clock) (faults : Faults)
  (stores : Stores) (event : TaskState)

theorem broadcasts_tryReforwardSync (run : PipelineRun) :
    broadcasts (tryReforwardSync env faults stores run event).effects =
      [] := by
  unfold tryReforwardSync
  split
  · dsimp only
    split <;> rfl
  · rfl

theorem broadcasts_closeUpdate (admitted : Admitted) :
    broadcasts (closeUpdate env clock faults stores admitted
      event).effects = [] := by
  have helper :=
    broadcasts_tryReforwardSync env faults stores event
      (putTask admitted.run event)
  unfold closeUpdate
  dsimp only
  split
  · split <;> exact helper
  · split <;> rfl

theorem broadcasts_effectsAfterWrite
    (oldStatus : PipelineStatus) (run : PipelineRun) :
    broadcasts (effectsAfterWrite env oldStatus run event) =
      if oldStatus = .running ∧ run.status.IsTerminal then
        [stopTargets env run event.username event.pipelineId]
      else [] := by
  unfold effectsAfterWrite
  split <;> rfl

variable (tracker : TrackerState)

theorem broadcasts_onTaskDone_of_no_landing
    (misses : landing? clock faults tracker stores event = none) :
    broadcasts (onTaskDone env clock faults tracker stores
      event).effects = [] := by
  unfold onTaskDone
  dsimp only
  split
  · rfl
  · split
    · rfl
    · split
      · rfl
      · split
        · exact broadcasts_closeUpdate env clock faults stores event _
        · rename_i fresh _ doc stored _ admitted accepted writes
          simp [landing?, remembered, fresh, stored, accepted, writes,
            Except.toOption] at misses

end Call

theorem decidedStatus_same_or_terminal
    (env : TrackerEnv) (stores : Stores) (admitted : Admitted)
    (event : TaskState) :
    decidedStatus env stores admitted event = admitted.run.status ∨
      (decidedStatus env stores admitted event).IsTerminal := by
  unfold decidedStatus
  split
  · split
    · exact Or.inl rfl
    · exact Or.inr (Or.inr rfl)
  · split
    · exact Or.inr (Or.inl rfl)
    · exact Or.inl rfl

section Report

variable (env : TrackerEnv) {key : String} {system : System}
  {report : Report}

/-- A call that does not end a running run broadcasts nothing. -/
theorem broadcasts_respond_of_not_ending
    (sameKey : report.event.runKey = key)
    (notEnding :
      ¬ (storedStatus? system.stores key = some .running ∧
        storedTerminal
          (storedStatus? (system.handle env report).stores key))) :
    broadcasts (system.respond env report).effects = [] := by
  subst sameKey
  cases lands : system.landing? report with
  | none =>
      exact
        broadcasts_onTaskDone_of_no_landing env report.clock report.faults
          system.stores report.event (system.trackers report.tracker) lands
  | some admitted =>
      rw [System.respond, (onTaskDone_of_landing env lands).2.2, broadcasts,
        List.filterMap_append]
      rw [System.storedStatus?_of_landing lands,
        System.storedStatus?_handle_of_landing env lands] at notEnding
      have inner :=
        broadcasts_closeUpdate env report.clock report.faults
          system.stores report.event admitted
      have outer :=
        broadcasts_effectsAfterWrite env report.event admitted.run.status
          (closeUpdate env report.clock report.faults system.stores
            admitted report.event).run
      rw [broadcasts] at inner outer
      rw [inner, outer, closeUpdate_status, if_neg]
      · rfl
      · rintro ⟨running, terminal⟩
        exact notEnding
          ⟨congrArg some running,
            terminal.imp (congrArg some) (congrArg some)⟩

/-- A call that ends a running run makes one broadcast. -/
theorem broadcasts_respond_of_ending
    (sameKey : report.event.runKey = key)
    (running : storedStatus? system.stores key = some .running)
    (terminal :
      storedTerminal
        (storedStatus? (system.handle env report).stores key)) :
    ∃ doc, (system.handle env report).stores.readRun key = some doc ∧
      broadcasts (system.respond env report).effects =
        [stopTargets env doc.run report.event.username
          report.event.pipelineId] := by
  subst sameKey
  cases lands : system.landing? report with
  | none =>
      have untouched :=
        System.readRun_handle_of_elsewhere env system report
          report.event.runKey (Or.inl lands)
      rw [storedStatus?, untouched] at terminal
      rw [storedStatus?] at running
      rw [running] at terminal
      rcases terminal with completed | failed
      · cases completed
      · cases failed
  | some admitted =>
      refine ⟨_, System.readRun_handle_of_landing env lands, ?_⟩
      rw [System.storedStatus?_of_landing lands] at running
      rw [System.storedStatus?_handle_of_landing env lands] at terminal
      have inner :=
        broadcasts_closeUpdate env report.clock report.faults
          system.stores report.event admitted
      have outer :=
        broadcasts_effectsAfterWrite env report.event admitted.run.status
          (closeUpdate env report.clock report.faults system.stores
            admitted report.event).run
      rw [broadcasts] at inner outer
      rw [System.respond, (onTaskDone_of_landing env lands).2.2, broadcasts,
        List.filterMap_append, inner, outer, closeUpdate_status, if_pos]
      · rfl
      · exact
          ⟨Option.some.inj running,
            terminal.imp Option.some.inj Option.some.inj⟩

theorem storedStatus?_handle_same_or_terminal
    (env : TrackerEnv) (key : String) (system : System)
    (report : Report) :
    storedStatus? (system.handle env report).stores key =
        storedStatus? system.stores key ∨
      storedTerminal
        (storedStatus? (system.handle env report).stores key) := by
  cases lands : system.landing? report with
  | none =>
      left
      rw [storedStatus?,
        System.readRun_handle_of_elsewhere env system report key
          (Or.inl lands)]
      rfl
  | some admitted =>
      by_cases sameKey : report.event.runKey = key
      · subst sameKey
        rw [System.storedStatus?_of_landing lands,
          System.storedStatus?_handle_of_landing env lands]
        rcases decidedStatus_same_or_terminal env system.stores admitted
            report.event with same | terminal
        · exact Or.inl (congrArg some same)
        · exact Or.inr (terminal.imp (congrArg some) (congrArg some))
      · left
        rw [storedStatus?,
          System.readRun_handle_of_elsewhere env system report key
            (Or.inr (Ne.symm sameKey))]
        rfl

/-- The recipients of a broadcast are the services recorded with the tasks. -/
theorem mem_stopTargets_iff
    {run : PipelineRun} {username pipelineId service : String} :
    service ∈ stopTargets env run username pipelineId ↔
      service ≠ "" ∧
        ∃ taskId task, run.tasks.get? taskId = some task ∧
          task.serviceName = service := by
  have recorded (taskId : String) (task : TaskState) :
      (if task.serviceName ≠ "" then some task.serviceName
        else serviceForTask env username pipelineId taskId) = some service ↔
        service ≠ "" ∧ task.serviceName = service := by
    rw [serviceForTask_eq_none]
    split
    · rename_i named
      rw [Option.some.injEq]
      constructor
      · rintro rfl
        exact ⟨named, rfl⟩
      · exact And.right
    · rename_i unnamed
      constructor
      · nofun
      · rintro ⟨nonempty, rfl⟩
        exact absurd nonempty unnamed
  unfold stopTargets
  dsimp only
  rw [servicesFromCfg_eq_nil]
  have resolved :
      service ∈ (run.tasks.entries.filterMap fun entry =>
        if entry.2.serviceName ≠ "" then some entry.2.serviceName
        else serviceForTask env username pipelineId entry.1) ↔
      service ≠ "" ∧
        ∃ taskId task, run.tasks.get? taskId = some task ∧
          task.serviceName = service := by
    rw [List.mem_filterMap]
    constructor
    · rintro ⟨⟨taskId, task⟩, member, has⟩
      obtain ⟨nonempty, same⟩ := (recorded taskId task).mp has
      exact
        ⟨nonempty, taskId, task, OrderedMap.get?_of_mem member, same⟩
    · rintro ⟨nonempty, taskId, task, found, same⟩
      exact
        ⟨(taskId, task), OrderedMap.mem_of_get? found,
          (recorded taskId task).mpr ⟨nonempty, same⟩⟩
  split
  · rw [List.mem_dedup]
    exact resolved
  · rename_i none
    rw [← resolved, not_ne_iff.mp none]

theorem configuredService?_ne_empty
    {taskMeta : TaskMeta} {service : String}
    (configured : configuredService? taskMeta = some service) :
    service ≠ "" := by
  unfold configuredService? at configured
  split at configured
  · split at configured
    · rename_i nonempty
      obtain rfl := Option.some.inj configured
      exact nonempty
    · exact of_decide_eq_true (Option.filter_eq_some_iff.mp configured).2
  · exact of_decide_eq_true (Option.filter_eq_some_iff.mp configured).2

/-- Every task with a service has it among the targets exactly when what is
configured alone is also recorded. -/
theorem targets_reach_iff
    {run : PipelineRun} {username pipelineId : String}
    (config : PipelineConfigDoc) :
    (∀ taskId task, run.tasks.get? taskId = some task →
        ∀ service, serviceOf config taskId task = some service →
          service ∈ stopTargets env run username pipelineId) ↔
      ∀ taskId task, run.tasks.get? taskId = some task →
        task.serviceName = "" →
          ∀ service, configuredFor config taskId = some service →
            ∃ otherId other, run.tasks.get? otherId = some other ∧
              other.serviceName = service := by
  constructor
  · intro reach taskId task found unnamed service configured
    have has : serviceOf config taskId task = some service := by
      rw [serviceOf, if_neg (not_not.mpr unnamed)]
      exact configured
    exact ((mem_stopTargets_iff env).mp
      (reach taskId task found service has)).2
  · intro recorded taskId task found service has
    unfold serviceOf at has
    split at has
    · rename_i named
      obtain rfl := Option.some.inj has
      exact (mem_stopTargets_iff env).mpr ⟨named, taskId, task, found, rfl⟩
    · rename_i unnamed
      obtain ⟨taskMeta, -, configured⟩ := Option.bind_eq_some_iff.mp has
      exact (mem_stopTargets_iff env).mpr
        ⟨configuredService?_ne_empty configured,
          recorded taskId task found (not_not.mp unnamed) service has⟩

theorem endsRun_iff
    {stores : Stores} {admitted : Admitted} {event : TaskState} :
    EndsRun env stores admitted event ↔
      admitted.run.status = .running ∧
        (decidedStatus env stores admitted event).IsTerminal := by
  unfold EndsRun decidedStatus
  apply and_congr_right
  intro running
  by_cases failed : event.status = .failed
  · cases reforwardTarget? env stores event <;>
      simp [failed, running, PipelineStatus.IsTerminal]
  · cases allFinalsCompleted env (putTask admitted.run event)
        event.username event.pipelineId <;>
      simp [failed, running, PipelineStatus.IsTerminal]

/-- One report reaches all services exactly when it records them. -/
theorem reachesServices_iff (config : PipelineConfigDoc) :
    ReachesServices env config key system report ↔
      RecordsServices env config key system report := by
  apply forall_congr'
  intro sameKey
  cases lands : system.landing? report with
  | none =>
      have silent : broadcasts (system.respond env report).effects = [] :=
        broadcasts_onTaskDone_of_no_landing env report.clock report.faults
          system.stores report.event (system.trackers report.tracker) lands
      rw [silent]
      apply iff_of_true (fun _ broadcast => nomatch broadcast)
      intro admitted landed
      cases landed
  | some admitted =>
      subst sameKey
      have before := System.storedStatus?_of_landing lands
      have after := System.storedStatus?_handle_of_landing env lands
      have written := System.readRun_handle_of_landing env lands
      have terminal :
          storedTerminal (storedStatus? (system.handle env report).stores
              report.event.runKey) ↔
            (decidedStatus env system.stores admitted
              report.event).IsTerminal := by
        rw [after]
        simp [storedTerminal, PipelineStatus.IsTerminal]
      by_cases ends : EndsRun env system.stores admitted report.event
      · obtain ⟨running, decided⟩ := (endsRun_iff env).mp ends
        obtain ⟨doc, stored, only⟩ := broadcasts_respond_of_ending env rfl
          (before.trans (congrArg some running)) (terminal.mpr decided)
        have tasks : doc.run.tasks = tasksAfter admitted report.event := by
          rw [written] at stored
          obtain rfl := Option.some.inj stored
          exact closeUpdate_tasks env report.clock report.faults
            system.stores admitted report.event
        rw [only, stored]
        simp only [List.mem_singleton, forall_eq, Option.some.injEq,
          forall_eq', ends, forall_const]
        rw [← tasks]
        exact targets_reach_iff env config
      · have silent :
            broadcasts (system.respond env report).effects = [] := by
          apply broadcasts_respond_of_not_ending env rfl
          rintro ⟨running, decided⟩
          rw [before] at running
          exact ends ((endsRun_iff env).mpr
            ⟨Option.some.inj running, terminal.mp decided⟩)
        rw [silent]
        apply iff_of_true (fun _ broadcast => nomatch broadcast)
        intro other same ended
        obtain rfl := Option.some.inj same
        exact absurd ended ends

end Report

/-! ## Runs of reports -/

/-- The stored status becomes terminal at some point. -/
def BecomesTerminal
    (env : TrackerEnv) (key : String) (system : System)
    (reports : List Report) : Prop :=
  ∃ before after, reports = before ++ after ∧
    storedTerminal
      (storedStatus? (run (System.handle env) system before).stores key)

theorem broadcastsOf_of_terminal
    (env : TrackerEnv) {key : String} {system : System}
    (terminal : storedTerminal (storedStatus? system.stores key))
    (reports : List Report) :
    System.broadcastsOf env key system reports = [] := by
  induction reports generalizing system with
  | nil =>
      rfl
  | cons report rest inductionHypothesis =>
      have stays :
          storedTerminal
            (storedStatus? (system.handle env report).stores key) := by
        rcases storedStatus?_handle_same_or_terminal env key system
            report with same | after
        · rw [same]
          exact terminal
        · exact after
      have silent :
          (if report.event.runKey = key then
            broadcasts (system.respond env report).effects
          else []) = [] := by
        split
        · rename_i sameKey
          apply broadcasts_respond_of_not_ending env sameKey
          rintro ⟨running, -⟩
          rw [running] at terminal
          rcases terminal with completed | failed
          · cases completed
          · cases failed
        · rfl
      rw [System.broadcastsOf, silent, inductionHypothesis stays]
      rfl

theorem becomesTerminal_cons_iff
    (env : TrackerEnv) {key : String} {system : System}
    (running : storedStatus? system.stores key = some .running)
    (report : Report) (rest : List Report) :
    BecomesTerminal env key system (report :: rest) ↔
      BecomesTerminal env key (system.handle env report) rest := by
  constructor
  · rintro ⟨before, after, split, terminal⟩
    cases before with
    | nil =>
        rw [run_nil, running] at terminal
        rcases terminal with completed | failed
        · cases completed
        · cases failed
    | cons first others =>
        obtain ⟨rfl, restSplit⟩ := List.cons.inj split
        exact ⟨others, after, restSplit, terminal⟩
  · rintro ⟨before, after, rfl, terminal⟩
    exact ⟨report :: before, after, rfl, terminal⟩

/-- From a running run, the number of broadcasts. -/
theorem broadcastsOf_length
    (env : TrackerEnv) {key : String} {system : System}
    (running : storedStatus? system.stores key = some .running)
    (reports : List Report) :
    (BecomesTerminal env key system reports →
        (System.broadcastsOf env key system reports).length = 1) ∧
      (¬ BecomesTerminal env key system reports →
        System.broadcastsOf env key system reports = []) := by
  induction reports generalizing system with
  | nil =>
      refine ⟨?_, fun _ => rfl⟩
      rintro ⟨before, after, split, terminal⟩
      obtain ⟨rfl, -⟩ := List.append_eq_nil_iff.mp split.symm
      rw [run_nil, running] at terminal
      rcases terminal with completed | failed
      · cases completed
      · cases failed
  | cons report rest inductionHypothesis =>
      rw [becomesTerminal_cons_iff env running, System.broadcastsOf]
      by_cases terminal :
          storedTerminal
            (storedStatus? (system.handle env report).stores key)
      · have ends : report.event.runKey = key := by
          by_contra elsewhere
          rw [storedStatus?,
            System.readRun_handle_of_elsewhere env system report key
              (Or.inr (Ne.symm elsewhere))] at terminal
          rw [storedStatus?] at running
          rw [running] at terminal
          rcases terminal with completed | failed
          · cases completed
          · cases failed
        obtain ⟨doc, -, only⟩ :=
          broadcasts_respond_of_ending env ends running terminal
        rw [if_pos ends, only, broadcastsOf_of_terminal env terminal]
        refine ⟨fun _ => rfl, ?_⟩
        intro never
        exact absurd ⟨[], rest, rfl, terminal⟩ never
      · have silent :
            (if report.event.runKey = key then
              broadcasts (system.respond env report).effects
            else []) = [] := by
          split
          · rename_i sameKey
            apply broadcasts_respond_of_not_ending env sameKey
            exact fun ending => terminal ending.2
          · rfl
        have still :
            storedStatus? (system.handle env report).stores key =
              some .running := by
          rcases storedStatus?_handle_same_or_terminal env key system
              report with same | after
          · rw [same]
            exact running
          · exact absurd after terminal
        rw [silent, List.nil_append]
        exact inductionHypothesis still

/-- The stop commands are broadcast once if the run ever ends, and else never;
and each broadcast reaches the service of every task. -/
structure StopCommandsSent
    (env : TrackerEnv) (config : PipelineConfigDoc) (key : String)
    (system : System) (reports : List Report) : Prop where
  once : BecomesTerminal env key system reports →
    (System.broadcastsOf env key system reports).length = 1
  never : ¬ BecomesTerminal env key system reports →
    System.broadcastsOf env key system reports = []
  reach : EveryStep (System.handle env)
    (ReachesServices env config key) system reports

/-- From every running run and over every sequence of reports to any trackers,
the stop commands are sent as they should be exactly when the reports that end
the run leave the configured services recorded. -/
theorem stop_commands_sent_iff
    (env : TrackerEnv) (config : PipelineConfigDoc) (key : String)
    (system : System)
    (running : storedStatus? system.stores key = some .running)
    (reports : List Report) :
    StopCommandsSent env config key system reports ↔
      EveryStep (System.handle env) (RecordsServices env config key)
        system reports := by
  have counted := broadcastsOf_length env running reports
  have steps :
      EveryStep (System.handle env) (ReachesServices env config key)
          system reports ↔
        EveryStep (System.handle env) (RecordsServices env config key)
          system reports := by
    rw [everyStep_iff_split, everyStep_iff_split]
    simp only [reachesServices_iff]
  exact ⟨fun sent => steps.mp sent.reach,
    fun records => ⟨counted.1, counted.2, steps.mpr records⟩⟩

/-- Where every task names a service, what is configured does not matter. -/
theorem recordsServices_of_named
    {env : TrackerEnv} {config : PipelineConfigDoc} {key : String}
    {system : System} {report : Report}
    (reported : report.event.serviceName ≠ "")
    (named : ∀ doc, system.stores.readRun key = some doc →
      ∀ entry ∈ doc.run.tasks.entries, entry.2.serviceName ≠ "") :
    RecordsServices env config key system report := by
  rintro rfl admitted lands - taskId task found unnamed
  obtain ⟨doc, stored, same, -⟩ := System.landing?_readRun lands
  rw [tasksAfter, OrderedMap.get?_set] at found
  split at found
  · obtain rfl := Option.some.inj found
    exact absurd unnamed reported
  · rw [same] at found
    exact absurd unnamed (named doc stored _ (OrderedMap.mem_of_get? found))

/-- The pipeline document of the two tasks. -/
def twoTaskPipeline : PipelineStore.PipelineDocument where
  pipelineId := "pipe-1"
  vhost := "/"
  name := "two tasks"
  pipelineName := "two-tasks"
  lastUpdated := "2025-01-01T00:00:00+00:00"
  errorHandling := ⟨⟨3, "exponential"⟩, "abort"⟩
  finalTaskIds := ["a", "b"]
  dag := ⟨[
    { id := "a", name := "a", availableServices := "svc-a"
      action := "run", isEntry := true, isFinalTask := false },
    { id := "b", name := "b", availableServices := "svc-b"
      action := "run", isEntry := true, isFinalTask := true }]⟩
  rabbitmqConfigs := []

def twoTaskEnv : TrackerEnv where
  pipelineDoc _ _ := some (.full twoTaskPipeline)

/-- The failure of the first task, with the service that reports it. -/
def failureFrom (service : String) : Report where
  clock := ⟨0, 0, 0⟩
  event := { reportOf "a" .failed with serviceName := service }

/-- A failure that names its service stops the services of both tasks. -/
theorem stop_commands_of_named_failure :
    StopCommandsSent twoTaskEnv twoTaskConfig
      (runKey "alice" "pipe-1" "run-1") twoTaskSystem
      [failureFrom "svc-a"] := by
  apply (stop_commands_sent_iff twoTaskEnv twoTaskConfig
    (runKey "alice" "pipe-1" "run-1") twoTaskSystem (by decide +kernel)
    [failureFrom "svc-a"]).mpr
  refine ⟨recordsServices_of_named (by decide) ?_, trivial⟩
  intro doc stored
  obtain rfl := Option.some.inj stored
  decide +kernel

/-- One that names none stops the service of the other task alone. -/
theorem unnamed_service_not_stopped :
    ¬ StopCommandsSent twoTaskEnv twoTaskConfig
      (runKey "alice" "pipe-1" "run-1") twoTaskSystem
      [failureFrom ""] := by
  intro sent
  have sentTo :
      broadcasts (twoTaskSystem.respond twoTaskEnv
        (failureFrom "")).effects = [["svc-b"]] := by decide +kernel
  have overwritten :
      (((twoTaskSystem.handle twoTaskEnv (failureFrom "")).stores.readRun
          (runKey "alice" "pipe-1" "run-1")).bind fun doc =>
        (doc.run.tasks.get? "a").map TaskState.serviceName) = some "" := by
    decide +kernel
  obtain ⟨doc, stored, recorded⟩ :=
    Option.bind_eq_some_iff.mp overwritten
  obtain ⟨task, found, unnamed⟩ := Option.map_eq_some_iff.mp recorded
  have configured : serviceOf twoTaskConfig "a" task = some "svc-a" := by
    rw [serviceOf, if_neg (not_not.mpr unnamed)]
    decide
  have reached := sent.reach.1 rfl ["svc-b"]
    (by rw [sentTo]; exact List.mem_singleton_self _) doc stored "a" task
    found "svc-a" configured
  exact absurd reached (by decide)

end Agentcy.Tracker
