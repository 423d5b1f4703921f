import Agentcy.Library.Depth
import Agentcy.Parser.Connectivity
import Agentcy.Parser.EdgeQueues

/-!
# Parallel tasks

`find_parallel_tasks` gives every task a level, one below the last of its
dependencies, and returns the levels that more than one task shares.
-/

namespace Agentcy.Parser

open Agentcy.Library
open Agentcy.Library.Kahn (IsDepth)

/-- `task_levels`, as the search leaves it. -/
def taskLevels
    (executionOrder : List String)
    (taskGraph : OrderedMap String (List String)) :
    OrderedMap String Nat :=
  let indegree : String → Int := fun task =>
    (taskGraph.values.flatten.count task : Nat)
  let initialTasks := executionOrder.filter fun task => indegree task == 0
  assignLevels (fun task => (taskGraph.get? task).getD [])
    executionOrder.length
    (initialTasks.foldl (fun levels task => levels.set task 0) .empty)
    initialTasks indegree

theorem findParallelTasks_eq
    (executionOrder : List String)
    (taskGraph : OrderedMap String (List String)) :
    findParallelTasks executionOrder taskGraph =
      (OrderedMap.gather
        ((taskLevels executionOrder taskGraph).entries.map fun entry =>
          (entry.2, entry.1))).values.filter
        fun tasksInLevel => 1 < tasksInLevel.length :=
  rfl

def levelOf (levels : OrderedMap String Nat) (taskId : String) : Nat :=
  (levels.get? taskId).getD 0

section Search

variable {graph : Kahn.Graph String}

/-- The search keeps levels right, and reaches the end of the queue. -/
theorem assignLevels_spec
    (fuel : Nat) {served queue : List String} {indegree : String → Int}
    {levels : OrderedMap String Nat}
    (invariant : graph.Invariant
      { served := served, queue := queue, indegree := indegree })
    (levelled : graph.Levelled (levelOf levels)
      { served := served, queue := queue, indegree := indegree })
    (keys : ∀ taskId, taskId ∈ levels.keys ↔ taskId ∈ served ++ queue)
    (enough : graph.nodes.length ≤ served.length + fuel) :
    ∃ final : Kahn.State String, final.queue = [] ∧
      graph.Invariant final ∧
      graph.Levelled
        (levelOf (assignLevels graph.successors fuel levels queue indegree))
        final ∧
      ∀ taskId, taskId ∈
          (assignLevels graph.successors fuel levels queue indegree).keys ↔
        taskId ∈ final.served := by
  induction fuel generalizing served queue indegree levels with
  | zero =>
      have inside : served ++ queue ⊆ graph.nodes := by
        intro node among
        exact ((invariant.ready node).mp among).1
      have short : (served ++ queue).length ≤ graph.nodes.length :=
        (invariant.nodup.subperm inside).length_le
      rw [List.length_append] at short
      have empty : queue = [] := by
        apply List.eq_nil_of_length_eq_zero
        omega
      subst empty
      refine ⟨_, rfl, invariant, levelled, ?_⟩
      simpa [assignLevels] using keys
  | succ fuel inductionHypothesis =>
      cases queue with
      | nil =>
          refine ⟨_, rfl, invariant, levelled, ?_⟩
          simpa [assignLevels] using keys
      | cons current rest =>
          rw [assignLevels]
          have stepped := graph.invariant_serveNext invariant
          have assigned := OrderedMap.get?_foldl_set levels
            (Kahn.reached (graph.successors current) indegree)
            ((levels.get? current).getD 0 + 1)
          apply inductionHypothesis stepped
          · apply levelled.serve invariant
            · intro other new
              rw [levelOf, assigned, if_pos new]
              rfl
            · intro other old
              rw [levelOf, assigned, if_neg old]
              rfl
          · intro taskId
            rw [OrderedMap.mem_keys_iff, assigned, Kahn.relax_queue]
            have before := keys taskId
            rw [OrderedMap.mem_keys_iff] at before
            split
            · rename_i new
              simp [new]
            · rename_i old
              rw [before]
              simp [old]
          · rw [List.length_append, List.length_singleton]
            omega

theorem assignLevels_start
    {indegree : String → Int}
    (counted : ∀ node, indegree node = graph.openEdges [] node)
    (acyclic : graph.Acyclic) :
    let levels := assignLevels graph.successors graph.nodes.length
      ((graph.start indegree).queue.foldl
        (fun levels task => levels.set task 0) .empty)
      (graph.start indegree).queue indegree
    (∀ taskId, taskId ∈ levels.keys ↔ taskId ∈ graph.nodes) ∧
      ∀ taskId ∈ graph.nodes,
        IsDepth graph.Edge (fun root => ∀ source, ¬ graph.Edge source root)
          taskId (levelOf levels taskId) := by
  have started := OrderedMap.get?_foldl_set (.empty : OrderedMap String Nat)
    (graph.start indegree).queue 0
  obtain ⟨final, finished, invariant, levelled, keys⟩ :=
    assignLevels_spec graph.nodes.length
      (graph.invariant_start counted)
      (graph.levelled_start counted (by
        intro node waiting
        rw [levelOf, started, if_pos waiting]
        rfl))
      (by
        intro taskId
        rw [OrderedMap.mem_keys_iff, started]
        by_cases waiting : taskId ∈ (graph.start indegree).queue
        · rw [if_pos waiting]
          exact iff_of_true rfl (List.mem_append_right _ waiting)
        · rw [if_neg waiting]
          exact iff_of_false Bool.false_ne_true waiting)
      (by simp)
  constructor
  · intro taskId
    refine (keys taskId).trans ?_
    constructor
    · intro served
      exact ((invariant.ready taskId).mp
        (List.mem_append_left _ served)).1
    · intro member
      exact graph.served_of_acyclic invariant finished acyclic member
  · intro taskId member
    exact levelled.isDepth invariant finished acyclic member

end Search

/-- The search for reachable tasks writes nothing new into the graph. -/
theorem visitReachable_keeps
    (fuel : Nat) (taskGraph : OrderedMap String (List String))
    (visited queue : List String) :
    let searched := (visitReachable fuel taskGraph visited queue).2
    (∀ taskId, (searched.get? taskId).getD [] =
        (taskGraph.get? taskId).getD []) ∧
      ∀ taskId, searched.values.flatten.count taskId =
        taskGraph.values.flatten.count taskId := by
  induction fuel generalizing taskGraph visited queue with
  | zero =>
      exact ⟨fun _ => rfl, fun _ => rfl⟩
  | succ fuel inductionHypothesis =>
      cases queue with
      | nil =>
          exact ⟨fun _ => rfl, fun _ => rfl⟩
      | cons current rest =>
          rw [visitReachable]
          by_cases old : current ∈ visited
          · rw [if_pos old]
            exact inductionHypothesis _ _ _
          · rw [if_neg old]
            obtain ⟨read, counts⟩ := inductionHypothesis
              (taskGraph.set current
                ((taskGraph.get? current).getD []))
              (visited ++ [current])
              (rest ++ (taskGraph.get? current).getD [])
            constructor
            · intro taskId
              rw [read, OrderedMap.get?_set]
              split
              · rename_i here
                rw [here]
                rfl
              · rfl
            · intro taskId
              rw [counts]
              have stored := OrderedMap.count_values_set taskGraph current
                ((taskGraph.get? current).getD []) taskId
              omega

/-- The graph that the parser passes on has the dependents of all tasks. -/
theorem searched_eq
    {dag : List InferredTask} {searched : OrderedMap String (List String)}
    (connected : validateSingleConnectedDag dag
      (OrderedMap.gather (edges dag)) = .ok searched) :
    (∀ taskId, (searched.get? taskId).getD [] =
        Kahn.outgoing (edges dag) taskId) ∧
      ∀ taskId, searched.values.flatten.count taskId =
        Kahn.incoming (edges dag) taskId := by
  cases dag with
  | nil =>
      cases connected
  | cons first rest =>
      rw [validateSingleConnectedDag] at connected
      dsimp only at connected
      split at connected
      · obtain ⟨read, counts⟩ := visitReachable_keeps
          ((edges (first :: rest)).length + 1)
          (OrderedMap.gather (edges (first :: rest))) [] [first.id]
        rw [← Except.ok.inj connected]
        constructor
        · intro taskId
          rw [read, OrderedMap.getD_gather]
          rfl
        · intro taskId
          rw [counts, OrderedMap.count_values_gather]
          rfl
      · cases connected

/-! ## Groups -/

/-- `target` depends on `source`. -/
def Feeds (tasks : List Task) (source target : String) : Prop :=
  target ∈ downstream tasks source

/-- A task without dependencies. -/
def IsRoot (tasks : List Task) (taskId : String) : Prop :=
  ∀ source, ¬ Feeds tasks source taskId

/-- Levels are depths, and the groups are the levels with several tasks. -/
structure GroupedByDepth
    (tasks : List Task) (levels : OrderedMap String Nat)
    (groups : List (List String)) : Prop where
  assigned : ∀ taskId,
    taskId ∈ levels.keys ↔ taskId ∈ tasks.map Task.id
  depth : ∀ {taskId level}, levels.get? taskId = some level →
    IsDepth (Feeds tasks) (IsRoot tasks) taskId level
  group : ∀ group ∈ groups, 1 < group.length ∧ group.Nodup ∧
    ∃ level, ∀ taskId,
      taskId ∈ group ↔ levels.get? taskId = some level
  complete : ∀ {first second level}, first ≠ second →
    levels.get? first = some level → levels.get? second = some level →
    ∃ group ∈ groups, first ∈ group ∧ second ∈ group
  disjoint : groups.Pairwise List.Disjoint
  independent : ∀ group ∈ groups, ∀ first ∈ group, ∀ second ∈ group,
    ¬ Relation.TransGen (Feeds tasks) first second

section Groups

variable (levels : OrderedMap String Nat)

/-- The tasks of a level, in the order in which they got it. -/
def tasksAt (level : Nat) : List String :=
  ((levels.entries.map fun entry => (entry.2, entry.1)).filter fun entry =>
    decide (entry.1 = level)).map Prod.snd

theorem mem_tasksAt_iff (level : Nat) (taskId : String) :
    taskId ∈ tasksAt levels level ↔ levels.get? taskId = some level := by
  unfold tasksAt
  simp only [List.mem_map, List.mem_filter, decide_eq_true_eq]
  constructor
  · rintro ⟨_, ⟨⟨entry, member, rfl⟩, rfl⟩, rfl⟩
    exact OrderedMap.get?_of_mem member
  · intro found
    exact ⟨(level, taskId),
      ⟨⟨(taskId, level), OrderedMap.mem_of_get? found, rfl⟩, rfl⟩, rfl⟩

theorem nodup_tasksAt (level : Nat) : (tasksAt levels level).Nodup := by
  have keys : ((levels.entries.map fun entry =>
      (entry.2, entry.1)).map Prod.snd).Nodup := by
    rw [List.map_map]
    exact levels.keysNodup
  exact keys.sublist (List.filter_sublist.map Prod.snd)

variable {levels} {executionOrder : List String}
  {taskGraph : OrderedMap String (List String)}

theorem mem_findParallelTasks_iff
    (isLevels : taskLevels executionOrder taskGraph = levels)
    (group : List String) :
    group ∈ findParallelTasks executionOrder taskGraph ↔
      ∃ level, group = tasksAt levels level ∧ 1 < group.length := by
  rw [findParallelTasks_eq, isLevels, List.mem_filter, decide_eq_true_eq,
    OrderedMap.mem_values_gather_iff]
  constructor
  · rintro ⟨⟨level, isLevel, _⟩, several⟩
    exact ⟨level, isLevel, several⟩
  · rintro ⟨level, isLevel, several⟩
    refine ⟨⟨level, isLevel, ?_⟩, several⟩
    rintro rfl
    cases several

theorem disjoint_findParallelTasks :
    (findParallelTasks executionOrder taskGraph).Pairwise
      List.Disjoint := by
  rw [findParallelTasks_eq]
  apply List.Pairwise.filter
  apply OrderedMap.pairwise_values
  intro level other tasks otherTasks different isLevel isOther taskId
    member otherMember
  have atLevel : tasks =
      tasksAt (taskLevels executionOrder taskGraph) level := by
    rw [tasksAt, ← OrderedMap.getD_gather, isLevel]
    rfl
  have atOther : otherTasks =
      tasksAt (taskLevels executionOrder taskGraph) other := by
    rw [tasksAt, ← OrderedMap.getD_gather, isOther]
    rfl
  rw [atLevel, mem_tasksAt_iff] at member
  rw [atOther, mem_tasksAt_iff, member] at otherMember
  exact different (Option.some.inj otherMember)

end Groups

section Accepted

variable
  {keyOrder : SetOrder Json.Key} {order : SetOrder String}
  {pipelineId : Uuid} {tasks : List Task} {config : FinalConfig}

/-- The execution order visits every task once. -/
theorem Stages.kahnOrder_perm
    (stages : Stages keyOrder order pipelineId tasks config) :
    (kahnOrder stages.dag).Perm (tasks.map Task.id) := by
  have sameIds : nodeIds stages.dag = tasks.map Task.id := by
    rw [nodeIds_of_nodup stages.nodup, stages.infers.ids]
  have inside : ∀ edge ∈ edges stages.dag,
      edge.1 ∈ nodeIds stages.dag ∧ edge.2 ∈ nodeIds stages.dag := by
    intro edge member
    rw [sameIds]
    exact stages.infers.edges_inside member
  have nodup : (nodeIds stages.dag).Nodup := by
    rw [nodeIds_of_nodup stages.nodup]
    exact stages.nodup
  have full : (kahnOrder stages.dag).length =
      (nodeIds stages.dag).length := by
    rw [length_kahnOrder stages.passed, nodeIds_of_nodup stages.nodup,
      List.length_map]
  rw [← sameIds]
  exact (Kahn.served_ofEdges_of_full .fifo nodup inside rfl full).1

theorem Stages.levels
    (stages : Stages keyOrder order pipelineId tasks config) :
    let levels := taskLevels config.executionOrder config.taskGraph
    (∀ taskId, taskId ∈ levels.keys ↔ taskId ∈ tasks.map Task.id) ∧
      ∀ taskId ∈ tasks.map Task.id,
        IsDepth (Feeds tasks) (IsRoot tasks) taskId
          (levelOf levels taskId) := by
  have infers := stages.infers
  have acyclic := acyclic_of_detectCyclesKahn infers stages.passed
  have permuted := stages.kahnOrder_perm
  have nodup : (kahnOrder stages.dag).Nodup :=
    permuted.nodup_iff.mpr (infers.ids ▸ stages.nodup)
  have inside : ∀ edge ∈ edges stages.dag,
      edge.1 ∈ kahnOrder stages.dag ∧ edge.2 ∈ kahnOrder stages.dag := by
    intro edge member
    obtain ⟨source, target⟩ := infers.edges_inside member
    exact ⟨permuted.mem_iff.mpr source, permuted.mem_iff.mpr target⟩
  let graph := Kahn.Graph.ofEdges (kahnOrder stages.dag)
    (edges stages.dag) nodup
    (fun edge among => (inside edge among).2)
  have sameEdges : graph.Edge = Feeds tasks := by
    rw [Kahn.Graph.edge_ofEdges nodup inside]
    funext source target
    exact propext (infers.mem_edges_iff (source, target))
  obtain ⟨dependents, counts⟩ := searched_eq stages.connected
  obtain ⟨keys, depths⟩ := @assignLevels_start graph
    (fun taskId => Kahn.incoming (edges stages.dag) taskId)
    (by
      intro taskId
      rw [Kahn.Graph.openEdges_ofEdges nodup inside])
    (by
      rw [Kahn.Graph.Acyclic,
        Kahn.Graph.edge_ofEdges nodup inside]
      exact acyclic)
  have sameLevels :
      taskLevels config.executionOrder config.taskGraph =
        assignLevels graph.successors graph.nodes.length
          ((graph.start fun taskId =>
              Kahn.incoming (edges stages.dag) taskId).queue.foldl
            (fun levels task => levels.set task 0) .empty)
          (graph.start fun taskId =>
            Kahn.incoming (edges stages.dag) taskId).queue
          (fun taskId => Kahn.incoming (edges stages.dag) taskId) := by
    unfold taskLevels
    rw [stages.executionOrder_eq, stages.taskGraph_eq]
    simp only [dependents, counts]
    rfl
  rw [sameEdges] at depths
  intro levels
  rw [show levels = _ from sameLevels]
  constructor
  · intro taskId
    exact (keys taskId).trans permuted.mem_iff
  · intro taskId member
    exact depths taskId (permuted.mem_iff.mpr member)

theorem parallel_tasks_are_levels
    (accepted : parseGraph keyOrder order pipelineId tasks = .ok config) :
    GroupedByDepth tasks
      (taskLevels config.executionOrder config.taskGraph)
      config.parallelTasks := by
  obtain ⟨stages⟩ := stages_of_parseGraph accepted
  obtain ⟨assigned, depths⟩ := stages.levels
  have groups := stages.parallelTasks_eq
  rw [← stages.executionOrder_eq, ← stages.taskGraph_eq] at groups
  rw [groups]
  generalize isLevels :
    taskLevels config.executionOrder config.taskGraph = levels
    at assigned depths ⊢
  have depth : ∀ {taskId level}, levels.get? taskId = some level →
      IsDepth (Feeds tasks) (IsRoot tasks) taskId level := by
    intro taskId level found
    have member : taskId ∈ tasks.map Task.id := by
      rw [← assigned, OrderedMap.mem_keys_iff, found]
      rfl
    have isDepth := depths taskId member
    rwa [levelOf, found] at isDepth
  have isGroup := mem_findParallelTasks_iff isLevels
  refine
    { assigned := assigned
      depth := depth
      group := ?_
      complete := ?_
      disjoint := disjoint_findParallelTasks
      independent := ?_ }
  · intro group member
    obtain ⟨level, rfl, several⟩ := (isGroup group).mp member
    exact ⟨several, nodup_tasksAt levels level, level,
      mem_tasksAt_iff levels level⟩
  · intro first second level different isFirst isSecond
    have firstMember := (mem_tasksAt_iff levels level first).mpr isFirst
    have secondMember :=
      (mem_tasksAt_iff levels level second).mpr isSecond
    refine ⟨tasksAt levels level, ?_, firstMember, secondMember⟩
    refine (isGroup _).mpr ⟨level, rfl, ?_⟩
    have pair : [first, second] ⊆ tasksAt levels level := by
      simp [firstMember, secondMember]
    have nodup : [first, second].Nodup := by
      simp [different]
    exact (nodup.subperm pair).length_le
  · intro group member first isFirst second isSecond path
    obtain ⟨level, rfl, _⟩ := (isGroup group).mp member
    have firstDepth :=
      depth ((mem_tasksAt_iff levels level first).mp isFirst)
    have secondDepth :=
      depth ((mem_tasksAt_iff levels level second).mp isSecond)
    refine lt_irrefl level
      (firstDepth.lt_of_transGen ?_ secondDepth path)
    intro source target leads
    obtain ⟨task, among, _, rfl⟩ := mem_downstream_iff.mp leads
    exact ⟨_, depths task.id (List.mem_map_of_mem among)⟩

end Accepted

/-- Task `d` comes after `b` and after `c`, but has a longer way through
`b`. -/
theorem diamond_levels :
    let tasks : List Task :=
      [{ id := "a" }, dependent "b" ["a"], dependent "c" ["a"],
        dependent "e" ["b"], dependent "d" ["c", "e"]]
    ∃ config,
      parseGraph .ofDedup .ofDedup examplePipeline tasks = .ok config ∧
        config.parallelTasks = [["b", "c"]] ∧
        GroupedByDepth tasks
          (taskLevels config.executionOrder config.taskGraph)
          config.parallelTasks := by
  intro tasks
  have parsed := @accepted_of_isSome tasks (by decide +kernel)
  refine ⟨_, parsed, ?_, parallel_tasks_are_levels parsed⟩
  decide +kernel

end Agentcy.Parser
