import Agentcy.Bootstrap.PipelineEvent

/-!
# How often an entry task is executed

The process of the launcher service gets both messages of a launch, every
other process only the broadcast, and each of them makes the process forward
its entry tasks once more.
-/

namespace Agentcy.Bootstrap

open Agentcy.Library
open Agentcy.Runs

section Counting

variable {finalConfig : String → String → Option PipelineConfigDoc}
  {cfg : PipelineConfigDoc} {run : RunRef} {toTask : String}

theorem nodup_entryTasks (cfg : PipelineConfigDoc) :
    (entryTasks cfg).Nodup :=
  cfg.taskDict.keysNodup.sublist (List.filter_sublist.map _)

theorem countP_forwardEntries_of_run
    (isEntry : toTask ∈ entryTasks cfg) (serviceName : String)
    (entry : EntryMessage)
    (sameRun :
      entry.username = run.username ∧ entry.pipelineId = run.pipelineId ∧
        entry.pipelineRunId = run.runId) :
    (forwardEntries cfg serviceName entry).countP (run.executes toTask) =
      if entryService cfg toTask = serviceName then 1 else 0 := by
  have same :
      run.executes toTask ∘ BootAction.forwardEntry entry =
        fun task => task == toTask := by
    funext task
    simp [RunRef.executes, sameRun, Bool.beq_eq_decide_eq]
  have counted :
      (forwardEntries cfg serviceName entry).countP
          (run.executes toTask) =
        ((entryTasks cfg).filter fun taskId =>
          entryService cfg taskId = serviceName).count toTask := by
    rw [forwardEntries, List.countP_map, same]
    rfl
  rw [counted, ((nodup_entryTasks cfg).filter _).count]
  simp [isEntry]

/-- A forwarded entry message carries the data of the event. -/
theorem forwardEntry_mem_onPipelineEvent
    {serviceName : String} {bootstrapped : List String}
    {event : PipelineEvent} {entry : EntryMessage} {task : String}
    (member : BootAction.forwardEntry entry task ∈
      (onPipelineEvent finalConfig serviceName bootstrapped event).2) :
    event.bootstraps = true ∧ event.username = some entry.username ∧
      event.pipelineId = some entry.pipelineId ∧
      event.pipelineRunId = some entry.pipelineRunId ∧
      event.taskId = none := by
  rw [onPipelineEvent] at member
  split at member
  · rename_i username pipelineId runId boots sameUser samePipeline sameRun
    have notCreated : ∀ already : Bool,
        BootAction.forwardEntry entry task ∉
          (if already = true then []
            else [.createConsumers username pipelineId runId]) := by
      intro already
      cases already <;> simp
    dsimp only at member
    split at member
    · exact absurd member (notCreated _)
    · rename_i noTask
      split at member
      · exact absurd member (notCreated _)
      · rcases List.mem_append.mp member with created | forwarded
        · exact absurd created (notCreated _)
        · obtain ⟨_, _, sameAction⟩ := List.mem_map.mp forwarded
          obtain ⟨rfl, _⟩ := BootAction.forwardEntry.inj sameAction
          exact
            ⟨boots, sameUser, samePipeline, sameRun, by
              simpa using noTask⟩
  · cases member

/-- An event that boots the run executes the entry tasks of the service once,
and any other event none of them. -/
theorem countP_onPipelineEvent
    (loads : finalConfig run.username run.pipelineId = some cfg)
    (isEntry : toTask ∈ entryTasks cfg) (serviceName : String)
    (bootstrapped : List String) (event : PipelineEvent) :
    (onPipelineEvent finalConfig serviceName bootstrapped
        event).2.countP (run.executes toTask) =
      if run.bootedBy event ∧ entryService cfg toTask = serviceName then
        1
      else
        0 := by
  by_cases booted : run.bootedBy event = true
  · have parts := booted
    simp only [RunRef.bootedBy, Bool.and_eq_true, decide_eq_true_eq,
      Option.isNone_iff_eq_none] at parts
    obtain ⟨⟨⟨⟨boots, sameUser⟩, samePipeline⟩, sameRun⟩, noTask⟩ := parts
    have created : ∀ already : Bool,
        (if already = true then []
          else [BootAction.createConsumers run.username run.pipelineId
            run.runId]).countP (run.executes toTask) = 0 := by
      intro already
      cases already <;> simp [RunRef.executes]
    let entry : EntryMessage :=
      { pipelineId := run.pipelineId
        username := run.username
        pipelineRunId := run.runId
        pipelineConfigId := event.pipelineConfigId.getD run.pipelineId }
    have counted :
        (forwardEntries cfg serviceName entry).countP
            (run.executes toTask) = _ :=
      countP_forwardEntries_of_run isEntry serviceName entry
        ⟨rfl, rfl, rfl⟩
    simp only [onPipelineEvent, boots, sameUser, samePipeline, sameRun,
      noTask, loads, Option.isSome_none, if_neg Bool.false_ne_true,
      List.countP_append, created, Nat.zero_add, booted, true_and]
    exact counted
  · have none :
        (onPipelineEvent finalConfig serviceName bootstrapped
          event).2.countP (run.executes toTask) = 0 := by
      rw [List.countP_eq_zero]
      intro action member executes
      cases action with
      | createConsumers _ _ _ =>
          exact Bool.false_ne_true executes
      | forwardEntry entry task =>
          obtain ⟨boots, sameUser, samePipeline, sameRun, noTask⟩ :=
            forwardEntry_mem_onPipelineEvent member
          refine booted ?_
          simp only [RunRef.executes, Bool.and_eq_true,
            decide_eq_true_eq] at executes
          simp [RunRef.bootedBy, boots, sameUser, samePipeline, sameRun,
            noTask, executes]
    rw [none, if_neg (fun both => booted both.1)]

/-- An entry task is executed once for every event that boots the run at the
process of its service. -/
theorem executions_run
    (loads : finalConfig run.username run.pipelineId = some cfg)
    (isEntry : toTask ∈ entryTasks cfg)
    (processes : Processes) (deliveries : List Delivered) :
    executions run toTask
        (Library.run (Processes.deliver finalConfig) processes
          deliveries) =
      executions run toTask processes +
        deliveries.countP fun delivered =>
          run.bootedBy delivered.event &&
            entryService cfg toTask = delivered.service := by
  induction deliveries generalizing processes with
  | nil =>
      rfl
  | cons delivered rest inductionHypothesis =>
      have step :
          executions run toTask
              (processes.deliver finalConfig delivered) =
            executions run toTask processes +
              if run.bootedBy delivered.event ∧
                entryService cfg toTask = delivered.service
              then 1 else 0 := by
        rw [executions, Processes.deliver, List.countP_append,
          countP_onPipelineEvent loads isEntry]
        rfl
      rw [run_cons, inductionHypothesis, step, List.countP_cons]
      simp only [Bool.and_eq_true, decide_eq_true_eq]
      omega

end Counting

/-- The messages of one launch reach the processes: the seed only and at
least once the launcher, the broadcast every process at least once.  Events
of other runs and kinds may be delivered as well. -/
structure Launched
    (cfg : PipelineConfigDoc) (run : RunRef) (services : List String)
    (launcher : String) (deliveries : List Delivered) : Prop where
  entryServices : ∀ taskId ∈ entryTasks cfg,
    entryService cfg taskId ∈ services
  bootMessages : ∀ delivered ∈ deliveries,
    run.bootedBy delivered.event = true →
      delivered.event = run.seed ∨ delivered.event = run.started
  seedAtLauncher : ∀ delivered ∈ deliveries,
    delivered.event = run.seed → delivered.service = launcher
  seeded : ⟨launcher, run.seed⟩ ∈ deliveries
  started : ∀ service ∈ services, ⟨service, run.started⟩ ∈ deliveries

def countAt
    (service : String) (event : PipelineEvent)
    (deliveries : List Delivered) : Nat :=
  deliveries.countP fun delivered =>
    delivered.service = service && delivered.event = event

theorem seed_ne_started (run : RunRef) : run.seed ≠ run.started := by
  intro same
  have names := congrArg PipelineEvent.event same
  cases names

theorem bootedBy_seed (run : RunRef) : run.bootedBy run.seed = true := by
  simp [RunRef.bootedBy, RunRef.seed, PipelineEvent.bootstraps]

theorem bootedBy_started (run : RunRef) :
    run.bootedBy run.started = true := by
  simp [RunRef.bootedBy, RunRef.started, RunRef.seed,
    PipelineEvent.bootstraps]

/-- Every boot of the run at a service is a seed or a broadcast. -/
theorem countP_bootedBy
    {run : RunRef} {deliveries : List Delivered}
    (bootMessages : ∀ delivered ∈ deliveries,
      run.bootedBy delivered.event = true →
        delivered.event = run.seed ∨ delivered.event = run.started)
    (service : String) :
    (deliveries.countP fun delivered =>
        run.bootedBy delivered.event && service = delivered.service) =
      countAt service run.seed deliveries +
        countAt service run.started deliveries := by
  induction deliveries with
  | nil =>
      rfl
  | cons delivered rest inductionHypothesis =>
      have later := inductionHypothesis fun each member =>
        bootMessages each (List.mem_cons_of_mem _ member)
      have here := bootMessages delivered List.mem_cons_self
      simp only [countAt, List.countP_cons] at later ⊢
      rw [later]
      by_cases same : delivered.service = service
      · by_cases booted : run.bootedBy delivered.event = true
        · rcases here booted with isSeed | isStarted
          · simp [isSeed, same, bootedBy_seed, seed_ne_started]
            omega
          · simp [isStarted, same, bootedBy_started,
              (seed_ne_started run).symm]
            omega
        · have notSeed : delivered.event ≠ run.seed :=
            fun equal => booted (equal ▸ bootedBy_seed run)
          have notStarted : delivered.event ≠ run.started :=
            fun equal => booted (equal ▸ bootedBy_started run)
          simp [booted, notSeed, notStarted]
      · simp [same, Ne.symm same]

def EntryTasksOnce
    (cfg : PipelineConfigDoc) (run : RunRef) (processes : Processes) :
    Prop :=
  ∀ toTask ∈ entryTasks cfg, executions run toTask processes = 1

/-- For every configuration, launch, set of processes and order of
deliveries: each entry task is executed exactly once when none of them
belongs to the launcher's service and the broadcast reaches the process of
each of them exactly once. -/
theorem entryTasks_executed_once_iff
    (finalConfig : String → String → Option PipelineConfigDoc)
    (cfg : PipelineConfigDoc) (run : RunRef) (services : List String)
    (launcher : String) (deliveries : List Delivered)
    (loads : finalConfig run.username run.pipelineId = some cfg)
    (launched : Launched cfg run services launcher deliveries) :
    EntryTasksOnce cfg run
        (Library.run (Processes.deliver finalConfig) {} deliveries) ↔
      ∀ toTask ∈ entryTasks cfg,
        entryService cfg toTask ≠ launcher ∧
          countAt (entryService cfg toTask) run.started deliveries =
            1 := by
  refine forall_congr' fun toTask => forall_congr' fun isEntry => ?_
  have total :=
    executions_run loads isEntry {} deliveries
  rw [countP_bootedBy launched.bootMessages] at total
  have initial : executions run toTask {} = 0 := rfl
  rw [initial, Nat.zero_add] at total
  rw [total]
  have broadcast :
      0 < countAt (entryService cfg toTask) run.started deliveries :=
    List.countP_pos_iff.mpr
      ⟨_, launched.started _ (launched.entryServices toTask isEntry), by
        simp⟩
  by_cases atLauncher : entryService cfg toTask = launcher
  · have seed :
        0 < countAt (entryService cfg toTask) run.seed deliveries :=
      List.countP_pos_iff.mpr
        ⟨_, launched.seeded, by simp [atLauncher]⟩
    constructor
    · intro once
      omega
    · rintro ⟨elsewhere, _⟩
      exact absurd atLauncher elsewhere
  · have noSeed :
        countAt (entryService cfg toTask) run.seed deliveries = 0 := by
      refine List.countP_eq_zero.mpr ?_
      intro delivered member here
      simp only [Bool.and_eq_true, decide_eq_true_eq] at here
      have atL := launched.seedAtLauncher delivered member here.2
      exact atLauncher (here.1.symm.trans atL)
    rw [noSeed, Nat.zero_add]
    exact (and_iff_right atLauncher).symm

/-! ## An entry task of the launcher -/

def entryConfig (service : String) : PipelineConfigDoc where
  taskDict :=
    .ofList [("t", { availableServices := some service, isEntry := true })]

def launchedRun : RunRef where
  username := "alice"
  pipelineId := "pipe-1"
  runId := "run-1"
  configId := "cfg-1"

def launchDeliveries : List Delivered :=
  [⟨"launcher", launchedRun.seed⟩, ⟨"launcher", launchedRun.started⟩,
    ⟨"worker", launchedRun.started⟩]

theorem launchDeliveries_launched (service : String)
    (known : service = "launcher" ∨ service = "worker") :
    Launched (entryConfig service) launchedRun ["launcher", "worker"]
      "launcher" launchDeliveries where
  entryServices := by
    rcases known with rfl | rfl
    · decide +kernel
    · decide +kernel
  bootMessages := by
    simp [launchDeliveries]
  seedAtLauncher := by
    simp [launchDeliveries, (seed_ne_started launchedRun).symm]
  seeded := by
    simp [launchDeliveries]
  started := by
    simp [launchDeliveries]

/-- The general statement at an entry task of another service. -/
theorem worker_entry_executed_once :
    EntryTasksOnce (entryConfig "worker") launchedRun
      (Library.run
        (Processes.deliver fun _ _ => some (entryConfig "worker")) {}
        launchDeliveries) := by
  refine
    (entryTasks_executed_once_iff _ (entryConfig "worker") launchedRun
      ["launcher", "worker"] "launcher" launchDeliveries rfl
      (launchDeliveries_launched "worker" (Or.inr rfl))).mpr ?_
  decide +kernel

theorem launcher_entry_executed_twice :
    Launched (entryConfig "launcher") launchedRun ["launcher", "worker"]
        "launcher" launchDeliveries ∧
      "t" ∈ entryTasks (entryConfig "launcher") ∧
      executions launchedRun "t"
        (Library.run
          (Processes.deliver fun _ _ => some (entryConfig "launcher")) {}
          launchDeliveries) = 2 :=
  ⟨launchDeliveries_launched "launcher" (Or.inl rfl), by decide +kernel,
    by decide +kernel⟩

end Agentcy.Bootstrap
