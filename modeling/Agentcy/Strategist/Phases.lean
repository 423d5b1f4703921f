import Agentcy.Library.LongestPath
import Agentcy.Plans.PlanValidator

/-!
# Phases and the critical path

The baseline strategy of a plan: tasks that may run together form a phase, and
the critical path is a longest chain of dependencies.  One search serves the
graph phase by phase, the other one node by node.
-/

namespace Agentcy.Strategist

open Library Library.Kahn Plans

/-- The keys of `adjacency`, in the order of their first task. -/
def taskKeys : List Json → Except PyError (List Json.Key)
  | [] => .ok []
  | task :: rest => do
      let fields ← task.fields
      let taskId := fields.get "task_id"
      if taskId.truthy then
        let key ← taskId.hash
        let later ← taskKeys rest
        return key :: later.filter fun other => decide (other ≠ key)
      else
        taskKeys rest

/-- The tasks and the edges between them, which are read as in
`_detect_cycle`. -/
def buildAdjacency (tasks edges : List Json) :
    Except PyError (List Json.Key × List (Json.Key × Json.Key)) := do
  let taskIds ← taskKeys tasks
  let known ← knownEdges taskIds edges
  return (taskIds, known)

def topologicalPhases (tasks edges : List Json) :
    Except PyError (List (List Json.Key)) := do
  let (taskIds, known) ← buildAdjacency tasks edges
  let indegree := fun taskId => (incoming known taskId : Int)
  return phaseLoop (outgoing known) taskIds.length indegree
    (taskIds.filter fun taskId => indegree taskId == 0)

def criticalPath (tasks edges : List Json) :
    Except PyError (List Json.Key) := do
  let (taskIds, known) ← buildAdjacency tasks edges
  let indegree := fun taskId => (incoming known taskId : Int)
  let order :=
    (loop .fifo (outgoing known) taskIds.length
      { queue := taskIds.filter fun taskId => indegree taskId == 0
        indegree := indegree }).served
  return Kahn.criticalPath (outgoing known) taskIds order

theorem taskKeys_nodup
    {tasks : List Json} {taskIds : List Json.Key}
    (read : taskKeys tasks = .ok taskIds) :
    taskIds.Nodup := by
  induction tasks generalizing taskIds with
  | nil =>
      cases read
      exact List.nodup_nil
  | cons task rest inductionHypothesis =>
      rw [taskKeys, bind_eq_ok] at read
      obtain ⟨fields, _, read⟩ := read
      dsimp only at read
      split at read
      · rw [bind_eq_ok] at read
        obtain ⟨key, _, read⟩ := read
        rw [bind_eq_ok] at read
        obtain ⟨later, readLater, read⟩ := read
        cases read
        refine List.nodup_cons.mpr ⟨?_, ?_⟩
        · simp
        · exact (inductionHypothesis readLater).filter _
      · exact inductionHypothesis read

section Adjacency

variable
  {tasks edges : List Json} {taskIds : List Json.Key}
  {known : List (Json.Key × Json.Key)}

theorem buildAdjacency_spec
    (built : buildAdjacency tasks edges = .ok (taskIds, known)) :
    taskIds.Nodup ∧
      ∀ edge ∈ known, edge.1 ∈ taskIds ∧ edge.2 ∈ taskIds := by
  rw [buildAdjacency, bind_eq_ok] at built
  obtain ⟨ids, read, built⟩ := built
  rw [bind_eq_ok] at built
  obtain ⟨kept, keptOk, built⟩ := built
  cases built
  exact ⟨taskKeys_nodup read, knownEdges_inside keptOk⟩

/-- `target` waits for `source`. -/
def Precedes (known : List (Json.Key × Json.Key))
    (source target : Json.Key) : Prop :=
  (source, target) ∈ known

/-- The phases sort the tasks by depth, and the path is a longest one, with a
task for each phase. -/
structure Strategy
    (taskIds : List Json.Key) (known : List (Json.Key × Json.Key))
    (phases : List (List Json.Key)) (path : List Json.Key) : Prop where
  partition : phases.flatten.Perm taskIds
  nonempty : ∀ phase ∈ phases, phase ≠ []
  depth : ∀ number taskId, taskId ∈ phases.getD number [] ↔
    taskId ∈ taskIds ∧
      IsDepth (Precedes known) (fun _ => True) taskId number
  forward : ∀ {source target}, Precedes known source target →
    ∃ earlier later, earlier < later ∧
      source ∈ phases.getD earlier [] ∧ target ∈ phases.getD later []
  chain : List.IsChain (Precedes known) path
  tasks : ∀ taskId ∈ path, taskId ∈ taskIds
  longest : ∀ other : List Json.Key,
    List.IsChain (Precedes known) other →
    (∀ taskId ∈ other, taskId ∈ taskIds) →
    other.length ≤ path.length
  perPhase : path.length = phases.length

theorem phases_and_path_by_depth
    (built : buildAdjacency tasks edges = .ok (taskIds, known))
    (acyclic : ∀ taskId,
      ¬ Relation.TransGen (Precedes known) taskId taskId) :
    ∃ phases path,
      topologicalPhases tasks edges = .ok phases ∧
        criticalPath tasks edges = .ok path ∧
        Strategy taskIds known phases path := by
  obtain ⟨nodup, inside⟩ := buildAdjacency_spec built
  let graph := Graph.ofEdges taskIds known nodup
    (fun edge among => (inside edge among).2)
  have counted : ∀ taskId,
      (incoming known taskId : Int) = graph.openEdges [] taskId := by
    intro taskId
    rw [Graph.openEdges_ofEdges nodup inside]
  have sameEdges : graph.Edge = Precedes known :=
    Graph.edge_ofEdges nodup inside
  have noCycle : graph.Acyclic := by
    rw [Graph.Acyclic, sameEdges]
    exact acyclic
  have full := (graph.length_served_iff .fifo counted).mpr noCycle
  let order := (loop .fifo graph.successors graph.nodes.length
    (graph.start fun taskId => incoming known taskId)).served
  obtain ⟨permuted, ordered⟩ : order.Perm graph.nodes ∧
      Ordered graph.Edge order :=
    graph.served_of_full .fifo counted full
  refine ⟨graph.phases fun taskId => incoming known taskId,
    Kahn.criticalPath graph.successors graph.nodes order, ?_, ?_, ?_⟩
  · rw [topologicalPhases, built]
    rfl
  · rw [criticalPath, built]
    rfl
  · have depth := graph.mem_phase_iff counted noCycle
    have perm := graph.phases_perm counted noCycle
    rw [sameEdges] at depth
    refine
      { partition := perm
        nonempty := fun phase member => ne_nil_of_mem_phaseLoop member
        depth := depth
        forward := ?_
        chain := ?_
        tasks := fun taskId member =>
          mem_nodes_of_mem_criticalPath permuted ordered member
        longest := ?_
        perPhase := length_criticalPath counted permuted ordered noCycle }
    · intro source target leads
      have targetInside := (inside _ leads).2
      obtain ⟨later, member⟩ :=
        mem_flatten_iff_getD.mp (perm.mem_iff.mpr targetInside)
      rw [← sameEdges] at leads
      obtain ⟨earlier, less, before⟩ :=
        (graph.layering_phases counted).earlier member leads
      exact ⟨earlier, later, less, before, member⟩
    · have chain := criticalPath_isChain permuted ordered noCycle
      rwa [sameEdges] at chain
    · intro other chain among
      rw [← sameEdges] at chain
      exact length_le_criticalPath permuted ordered noCycle chain among

end Adjacency

/-- A short way and a long way from `a` to `d`: the task is in the phase of
the long one. -/
theorem long_way_decides_phase :
    let tasks : List Json :=
      [.dict [("task_id", .str "a")], .dict [("task_id", .str "d")],
        .dict [("task_id", .str "b")], .dict [("task_id", .str "c")]]
    let edges : List Json :=
      [.dict [("from", .str "a"), ("to", .str "d")],
        .dict [("from", .str "a"), ("to", .str "b")],
        .dict [("from", .str "b"), ("to", .str "d")],
        .dict [("from", .str "a"), ("to", .str "c")]]
    ∃ phases path,
      topologicalPhases tasks edges = .ok phases ∧
        criticalPath tasks edges = .ok path ∧
        Strategy [.str "a", .str "d", .str "b", .str "c"]
          [(.str "a", .str "d"), (.str "a", .str "b"),
            (.str "b", .str "d"), (.str "a", .str "c")] phases path := by
  intro tasks edges
  apply phases_and_path_by_depth
    (show buildAdjacency tasks edges = .ok (_, _) from rfl)
  intro taskId cycle
  let rank : Json.Key → Nat := fun key =>
    if key = .str "a" then 0
    else if key = .str "d" then 2
    else 1
  have rises : ∀ source target,
      Precedes [(.str "a", .str "d"), (.str "a", .str "b"),
        (.str "b", .str "d"), (.str "a", .str "c")] source target →
      rank source < rank target := by
    intro source target leads
    simp only [Precedes, List.mem_cons, Prod.mk.injEq, List.not_mem_nil,
      or_false] at leads
    rcases leads with ⟨rfl, rfl⟩ | ⟨rfl, rfl⟩ | ⟨rfl, rfl⟩ | ⟨rfl, rfl⟩ <;>
      decide
  have ascending := cycle.lift rank rises
  rw [Relation.transGen_eq_self] at ascending
  exact lt_irrefl _ ascending

end Agentcy.Strategist
