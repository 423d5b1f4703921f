import Agentcy.Library.DataflowPeaks
import Agentcy.Pipeline.ServiceConfigs

/-!
# The network of a pipeline

The tasks of a pipeline are nodes, their dependencies are edges, and a message
in the queue of an edge is a token on it.  A listener is a line of entry tasks:
each is started once for every event that boots the run at the process of its
service.
-/

namespace Agentcy.Pipeline

open Agentcy.Bootstrap (EntryMessage BootAction PipelineEvent Processes)
open Agentcy.Broker
open Agentcy.Forwarder
open Agentcy.Library
open Agentcy.Parser
open Agentcy.Runs
open Agentcy.Tracker

namespace LaunchedPipeline

variable (pipeline : LaunchedPipeline)

def ids : List String :=
  pipeline.tasks.map Task.id

/-- The entry tasks of the listeners, in the order in which each forwards
them. -/
def lines : List (List String) :=
  pipeline.listeners.map fun listener =>
    (pipeline.entriesOf listener).map Prod.snd

/-- How often the task is forwarded as an entry task. -/
def starts (taskId : String) : ℕ :=
  pipeline.lines.flatten.count taskId

theorem edge_inside
    {fromTask toTask : String}
    (edge : toTask ∈ downstream pipeline.tasks fromTask) :
    fromTask ∈ pipeline.ids ∧ toTask ∈ pipeline.ids := by
  obtain ⟨stages⟩ := pipeline.exists_stages
  exact stages.infers.edges_inside
    ((stages.infers.mem_edges_iff (fromTask, toTask)).mpr edge)

/-- The execution order has every task after its dependencies. -/
theorem executionOrder_lt
    {fromTask toTask : String}
    (edge : toTask ∈ downstream pipeline.tasks fromTask) :
    pipeline.config.executionOrder.idxOf fromTask <
      pipeline.config.executionOrder.idxOf toTask := by
  obtain ⟨stages⟩ := pipeline.exists_stages
  have inside : ∀ edge ∈ edges stages.dag,
      edge.1 ∈ stages.dag.map (fun task => task.id) ∧
        edge.2 ∈ stages.dag.map (fun task => task.id) := by
    intro edge member
    rw [stages.infers.ids]
    exact stages.infers.edges_inside member
  have isServed : (Kahn.loop .fifo (Kahn.outgoing (edges stages.dag))
      (stages.dag.map fun task => task.id).length
      { queue := (stages.dag.map fun task => task.id).filter fun node =>
          (Kahn.incoming (edges stages.dag) node : Int) == 0
        indegree := fun node =>
          Kahn.incoming (edges stages.dag) node }).served =
      pipeline.config.executionOrder := by
    rw [stages.executionOrder_eq, kahnOrder, nodeIds_of_nodup stages.nodup]
  have full : pipeline.config.executionOrder.length =
      (stages.dag.map fun task => task.id).length := by
    rw [stages.executionOrder_eq, length_kahnOrder stages.passed,
      List.length_map]
  obtain ⟨perm, ordered⟩ :=
    Kahn.served_ofEdges_of_full .fifo stages.nodup inside isServed full
  have isEdge := (stages.infers.mem_edges_iff (fromTask, toTask)).mpr edge
  have served : toTask ∈ pipeline.config.executionOrder :=
    perm.mem_iff.mpr (inside _ isEdge).2
  obtain ⟨front, back, split⟩ := List.append_of_mem served
  have earlier := ordered front toTask back split fromTask isEdge
  have distinct := perm.nodup_iff.mpr stages.nodup
  rw [split] at distinct ⊢
  have absent : toTask ∉ front := fun member =>
    (List.nodup_append.mp distinct).2.2 toTask member toTask
      List.mem_cons_self rfl
  rw [List.idxOf_append_of_mem earlier, List.idxOf_append_of_notMem absent]
  exact Nat.lt_of_lt_of_le (List.idxOf_lt_length_of_mem earlier)
    (Nat.le_add_right _ _)

variable {pipeline}

theorem entryTask_mem_ids
    {taskId : String}
    (isEntry : taskId ∈ Bootstrap.entryTasks pipeline.doc) :
    taskId ∈ pipeline.ids := by
  unfold Bootstrap.entryTasks doc at isEntry
  rw [entries_taskDict (nodup_taskIds pipeline.accepted)] at isEntry
  obtain ⟨entry, kept, rfl⟩ := List.mem_map.mp isEntry
  obtain ⟨stored, isStored, rfl⟩ :=
    List.mem_map.mp (List.mem_filter.mp kept).1
  unfold ids tasks dagDump
  rw [List.map_map]
  exact List.mem_map.mpr ⟨stored, isStored, rfl⟩

/-- The entry tasks that an event makes a process forward. -/
theorem entryTask_of_forwarded
    {service : String} {bootstrapped : List String}
    {event : Bootstrap.PipelineEvent} {entry : EntryMessage}
    {taskId : String}
    (member : BootAction.forwardEntry entry taskId ∈
      (Bootstrap.onPipelineEvent pipeline.finalConfig service
        bootstrapped event).2)
    (own : pipeline.launch.executes taskId
      (.forwardEntry entry taskId) = true) :
    taskId ∈ Bootstrap.entryTasks pipeline.doc := by
  obtain ⟨boots, isUser, isPipeline, isRun, noTask⟩ :=
    Bootstrap.forwardEntry_mem_onPipelineEvent member
  simp only [Bootstrap.RunRef.executes, Bool.and_eq_true,
    decide_eq_true_eq] at own
  rw [own.1.1.2] at isUser
  rw [own.1.2] at isPipeline
  rw [Bootstrap.onPipelineEvent, boots, isUser, isPipeline, isRun]
    at member
  dsimp only at member
  rw [noTask, Option.isSome_none, if_neg Bool.false_ne_true,
    pipeline.stored] at member
  rcases List.mem_append.mp member with created | forwarded
  · split at created
    · cases created
    · cases List.mem_singleton.mp created
  · obtain ⟨task, kept, same⟩ := List.mem_map.mp forwarded
    rw [(BootAction.forwardEntry.inj same).2] at kept
    exact (List.mem_filter.mp kept).1

theorem entryOf_eq_some
    {action : BootAction} {found : EntryMessage × String}
    (isEntry : pipeline.entryOf action = some found) :
    action = .forwardEntry found.1 found.2 ∧
      pipeline.launch.executes found.2 action = true ∧
        found.1.pipelineRunId = pipeline.run.id.text := by
  cases action with
  | createConsumers _ _ _ =>
      cases isEntry
  | forwardEntry entry task =>
      unfold entryOf at isEntry
      dsimp only at isEntry
      split at isEntry
      · rename_i own
        cases isEntry
        refine ⟨rfl, own, ?_⟩
        simp only [Bootstrap.RunRef.executes, Bool.and_eq_true,
          decide_eq_true_eq] at own
        exact own.2.trans pipeline.sameRun
      · cases isEntry

/-- A listener forwards entry tasks of the pipeline for the run. -/
theorem entry_of_listener
    {listener : Listener} {entry : EntryMessage × String}
    (member : entry ∈ pipeline.entriesOf listener) :
    entry.2 ∈ Bootstrap.entryTasks pipeline.doc ∧
      entry.1.pipelineRunId = pipeline.run.id.text := by
  obtain ⟨event, _, forwarded⟩ := List.mem_flatMap.mp member
  obtain ⟨action, among, isEntry⟩ := List.mem_filterMap.mp forwarded
  obtain ⟨rfl, executes, sameRun⟩ := entryOf_eq_some isEntry
  exact ⟨entryTask_of_forwarded among executes, sameRun⟩

theorem mem_ids_of_mem_lines
    {taskId : String} (member : taskId ∈ pipeline.lines.flatten) :
    taskId ∈ pipeline.ids := by
  obtain ⟨line, isLine, inLine⟩ := List.mem_flatten.mp member
  obtain ⟨listener, _, rfl⟩ := List.mem_map.mp isLine
  obtain ⟨entry, forwarded, rfl⟩ := List.mem_map.mp inLine
  exact entryTask_mem_ids (entry_of_listener forwarded).1

variable (pipeline) in
def network : Network String where
  nodes := pipeline.ids.toFinset
  inputs taskId := pipeline.ids.toFinset.filter fun upstream =>
    taskId ∈ downstream pipeline.tasks upstream
  lines := pipeline.lines
  copies upstream _ := (downstream pipeline.tasks upstream).length
  depth taskId := pipeline.config.executionOrder.idxOf taskId
  known _ member := List.mem_toFinset.mpr (mem_ids_of_mem_lines member)
  closed _ _ := Finset.filter_subset _ _
  deeper _ _ _ isInput :=
    pipeline.executionOrder_lt (Finset.mem_filter.mp isInput).2
  positive _ _ _ isInput :=
    List.length_pos_of_mem (Finset.mem_filter.mp isInput).2

theorem mem_nodes_iff {taskId : String} :
    taskId ∈ pipeline.network.nodes ↔ taskId ∈ pipeline.ids :=
  List.mem_toFinset

theorem mem_inputs_iff {upstream taskId : String} :
    upstream ∈ pipeline.network.inputs taskId ↔
      taskId ∈ downstream pipeline.tasks upstream := by
  refine Finset.mem_filter.trans (and_iff_right_of_imp ?_)
  intro edge
  exact List.mem_toFinset.mpr (pipeline.edge_inside edge).1

theorem mem_successors_iff {upstream taskId : String} :
    taskId ∈ pipeline.network.successors upstream ↔
      taskId ∈ downstream pipeline.tasks upstream := by
  refine (pipeline.network.mem_successors_iff).trans ?_
  rw [mem_inputs_iff]
  refine and_iff_right_of_imp ?_
  intro edge
  exact mem_nodes_iff.mpr (pipeline.edge_inside edge).2

/-! ## Processes that listen -/

theorem mem_bootstrapped_onPipelineEvent
    {service runId : String} {bootstrapped : List String}
    {event : Bootstrap.PipelineEvent}
    (known : runId ∈ bootstrapped ∨
      event.bootstraps = true ∧ event.username.isSome = true ∧
        event.pipelineId.isSome = true ∧
          event.pipelineRunId = some runId) :
    runId ∈ (Bootstrap.onPipelineEvent pipeline.finalConfig service
      bootstrapped event).1 := by
  have remembers : ∀ {other : String},
      runId ∈ bootstrapped ∨ runId = other →
        runId ∈ (if bootstrapped.contains other = true then bootstrapped
          else other :: bootstrapped) := by
    intro other either
    split
    · rename_i already
      rcases either with earlier | same
      · exact earlier
      · rw [same]
        exact List.contains_iff_mem.mp already
    · exact List.mem_cons.mpr either.symm
  unfold Bootstrap.onPipelineEvent
  split
  · rename_i username pipelineId other _ _ _ sameRun
    have either : runId ∈ bootstrapped ∨ runId = other := by
      rcases known with earlier | ⟨_, _, _, isRun⟩
      · exact Or.inl earlier
      · rw [sameRun] at isRun
        exact Or.inr (Option.some.inj isRun).symm
    dsimp only
    split
    · exact remembers either
    · split
      · exact remembers either
      · exact remembers either
  · rename_i incomplete
    rcases known with earlier | ⟨boots, isUser, isPipeline, isRun⟩
    · exact earlier
    · obtain ⟨username, sameUser⟩ := Option.isSome_iff_exists.mp isUser
      obtain ⟨pipelineId, samePipeline⟩ :=
        Option.isSome_iff_exists.mp isPipeline
      exact absurd isRun (incomplete username pipelineId runId boots sameUser
        samePipeline)

/-- A process listens once it has got an event of the run. -/
theorem listens_of_delivered
    {delivered : Bootstrap.Delivered}
    (among : delivered ∈ pipeline.deliveries)
    (boots : pipeline.launch.bootedBy delivered.event = true) :
    pipeline.Listens delivered.service := by
  simp only [Bootstrap.RunRef.bootedBy, Bool.and_eq_true,
    decide_eq_true_eq] at boots
  have event : delivered.event.bootstraps = true ∧
      delivered.event.username.isSome = true ∧
        delivered.event.pipelineId.isSome = true ∧
          delivered.event.pipelineRunId = some pipeline.launch.runId := by
    rw [boots.1.1.1.2, boots.1.1.2]
    exact ⟨boots.1.1.1.1, rfl, rfl, boots.1.2⟩
  have step : ∀ (processes : Processes) (next : Bootstrap.Delivered),
      pipeline.launch.runId ∈ processes.bootstrapped delivered.service ∨
          next = delivered →
        pipeline.launch.runId ∈ (processes.deliver
          pipeline.finalConfig next).bootstrapped
            delivered.service := by
    intro processes next either
    unfold Processes.deliver
    dsimp only
    by_cases same : delivered.service = next.service
    · rw [same, Function.update_self]
      apply mem_bootstrapped_onPipelineEvent
      rcases either with earlier | rfl
      · rw [← same]
        exact Or.inl earlier
      · exact Or.inr event
    · rw [Function.update_of_ne same]
      rcases either with earlier | rfl
      · exact earlier
      · exact absurd rfl same
  have holds : ∀ (deliveries : List Bootstrap.Delivered)
      (processes : Processes),
      pipeline.launch.runId ∈ processes.bootstrapped delivered.service ∨
          delivered ∈ deliveries →
        pipeline.launch.runId ∈ (Library.run
          (Processes.deliver pipeline.finalConfig) processes
          deliveries).bootstrapped delivered.service := by
    intro deliveries
    induction deliveries with
    | nil =>
        rintro processes (earlier | none)
        · exact earlier
        · cases none
    | cons next rest inductionHypothesis =>
        intro processes either
        rw [run_cons]
        apply inductionHypothesis
        rcases either with earlier | member
        · exact Or.inl (step processes next (Or.inl earlier))
        · rcases List.mem_cons.mp member with here | later
          · exact Or.inl (step processes next (Or.inr here.symm))
          · exact Or.inr later
  exact holds pipeline.deliveries {} (Or.inr among)

end LaunchedPipeline

end Agentcy.Pipeline
