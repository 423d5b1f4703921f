import Agentcy.Parser.ConfigParser

/-!
# The DAG that a parsed task list stands for

The dependencies that `infer_dependencies_and_outputs` writes are those that
the tasks name, each once; a list that also passes `detect_cycles_kahn` has
distinct identifiers and no cycle.
-/

namespace Agentcy.Parser

open Agentcy.Library

/-- The text of a JSON string. -/
def text? : Json → Option String
  | .str text => some text
  | _ => none

/-- The tasks that a task names as its dependencies. -/
def Task.upstream (task : Task) : List String :=
  match task.dependencyItems with
  | .error _ => []
  | .ok items => (items.filterMap text?).dedup

/-- The tasks that name a task as a dependency. -/
def downstream (tasks : List Task) (taskId : String) : List String :=
  (tasks.filter fun task => decide (taskId ∈ task.upstream)).map Task.id

theorem mem_downstream_iff
    {tasks : List Task} {taskId dependent : String} :
    dependent ∈ downstream tasks taskId ↔
      ∃ task ∈ tasks, taskId ∈ task.upstream ∧ task.id = dependent := by
  simp [downstream, and_assoc]

theorem checkDependencies_ok
    {taskIds : List String} {taskId : String}
    {keys : List Json.Key} {dependencies : List String}
    (checked : checkDependencies taskIds taskId keys =
      .ok dependencies) :
    keys = dependencies.map Json.Key.str ∧
      ∀ dependency ∈ dependencies, dependency ∈ taskIds := by
  induction keys generalizing dependencies with
  | nil =>
      cases checked
      simp
  | cons key rest inductionHypothesis =>
      cases key with
      | str dependency =>
          rw [checkDependencies] at checked
          split at checked
          · rename_i known
            rw [bind_eq_ok] at checked
            rcases checked with ⟨later, restChecked, checked⟩
            rw [pure_eq_ok] at checked
            have tail := inductionHypothesis restChecked
            rw [← checked, tail.1]
            refine ⟨rfl, ?_⟩
            intro other member
            rcases List.mem_cons.mp member with same | inRest
            · rw [same]
              exact known
            · exact tail.2 other inRest
          · cases checked
      | null => cases checked
      | number _ => cases checked

theorem raising_eq_ok
    {α : Type} {computed : Except PyError α} {value : α} :
    raising computed = .ok value ↔ computed = .ok value := by
  cases computed with
  | error _ =>
      simp [raising, Except.mapError]
  | ok _ =>
      simp [raising, Except.mapError]

/-- What the loop over one task leaves. -/
structure Names (task : Task) (taskIds dependencies : List String) :
    Prop where
  nodup : dependencies.Nodup
  mem_iff : ∀ dependency, dependency ∈ dependencies ↔
    dependency ∈ task.upstream
  known : ∀ dependency ∈ dependencies, dependency ∈ taskIds

theorem names_of_taskDependencies
    {keyOrder : SetOrder Json.Key} {taskIds : List String} {task : Task}
    {dependencies : List String}
    (found : taskDependencies keyOrder taskIds task = .ok dependencies) :
    Names task taskIds dependencies := by
  rw [taskDependencies, bind_eq_ok] at found
  rcases found with ⟨items, read, found⟩
  rw [raising_eq_ok] at read
  rw [bind_eq_ok] at found
  rcases found with ⟨keys, hashed, checked⟩
  rw [raising_eq_ok] at hashed
  have strings := checkDependencies_ok checked
  have visited := keyOrder.nodup keys
  rw [strings.1] at visited
  refine ⟨List.Nodup.of_map _ visited, ?_, strings.2⟩
  intro dependency
  have inKeys : dependency ∈ dependencies ↔
      Json.Key.str dependency ∈ keyOrder.visit keys := by
    rw [strings.1]
    simp
  rw [inKeys, keyOrder.mem_visit, mem_hashes hashed, Task.upstream, read]
  simp only [List.mem_dedup, List.mem_filterMap]
  constructor
  · intro member
    exact ⟨.str dependency, member, rfl⟩
  · intro member
    rcases member with ⟨item, among, isText⟩
    cases item with
    | str text =>
        cases isText
        exact among
    | null => cases isText
    | bool _ => cases isText
    | int _ => cases isText
    | float _ => cases isText
    | list _ => cases isText
    | dict _ => cases isText

theorem readDependencies_ok
    {keyOrder : SetOrder Json.Key} {taskIds : List String}
    {tasks : List Task} {pairs : List (Task × List String)}
    (read : readDependencies keyOrder taskIds tasks = .ok pairs) :
    pairs.map Prod.fst = tasks ∧
      ∀ pair ∈ pairs, Names pair.1 taskIds pair.2 := by
  induction tasks generalizing pairs with
  | nil =>
      cases read
      simp
  | cons task rest inductionHypothesis =>
      rw [readDependencies, bind_eq_ok] at read
      rcases read with ⟨dependencies, here, read⟩
      rw [bind_eq_ok] at read
      rcases read with ⟨later, restRead, read⟩
      rw [pure_eq_ok] at read
      have tail := inductionHypothesis restRead
      rw [← read]
      constructor
      · rw [List.map_cons, tail.1]
      · intro pair member
        rcases List.mem_cons.mp member with same | inRest
        · rw [same]
          exact names_of_taskDependencies here
        · exact tail.2 pair inRest

/-- The inferred tasks are those of the list, with the dependencies that they
name. -/
structure Infers (tasks : List Task) (dag : List InferredTask)
    (outputs : OrderedMap String (List String)) : Prop where
  tasks_eq : dag.map InferredTask.toTask = tasks
  names : ∀ task ∈ dag,
    Names task.toTask (tasks.map Task.id) task.dependencies
  outputs_eq : ∀ taskId,
    (outputs.get? taskId).getD [] = Kahn.outgoing (edges dag) taskId

theorem getD_taskOutputs
    (pairs : List (Task × List String)) (taskId : String) :
    ((taskOutputs pairs).get? taskId).getD [] =
      Kahn.outgoing (pairs.flatMap fun pair =>
        pair.2.map fun dependency => (dependency, pair.1.id)) taskId := by
  rw [taskOutputs, Kahn.outgoing, ← OrderedMap.getD_gather]
  generalize OrderedMap.gather (pairs.flatMap fun pair =>
    pair.2.map fun dependency => (dependency, pair.1.id)) = met
  induction pairs generalizing met with
  | nil =>
      rfl
  | cons pair rest inductionHypothesis =>
      rw [List.foldl_cons, inductionHypothesis]
      by_cases known : met.contains pair.1.id = true
      · rw [if_pos known]
      · rw [if_neg known, OrderedMap.get?_set]
        by_cases here : taskId = pair.1.id
        · have absent : met.get? pair.1.id = none := by
            simpa [OrderedMap.contains] using known
          rw [if_pos here, here, absent]
          rfl
        · rw [if_neg here]

theorem infers_of_ok
    {keyOrder : SetOrder Json.Key} {order : SetOrder String}
    {tasks : List Task} {dag : List InferredTask}
    {outputs : OrderedMap String (List String)}
    (inferred : inferDependenciesAndOutputs keyOrder order tasks =
      .ok (dag, outputs)) :
    Infers tasks dag outputs := by
  rw [inferDependenciesAndOutputs, bind_eq_ok] at inferred
  rcases inferred with ⟨pairs, read, inferred⟩
  rw [pure_eq_ok, Prod.mk.injEq] at inferred
  rcases inferred with ⟨sameDag, sameOutputs⟩
  have facts := readDependencies_ok read
  refine ⟨?_, ?_, ?_⟩
  · rw [← sameDag, List.map_map]
    exact facts.1
  · intro task member
    rw [← sameDag] at member
    rcases List.mem_map.mp member with ⟨pair, among, same⟩
    rw [← same]
    exact facts.2 pair among
  · intro taskId
    rw [← sameOutputs, getD_taskOutputs, ← sameDag, edges,
      List.flatMap_map]

namespace Infers

variable
  {tasks : List Task} {dag : List InferredTask}
  {outputs : OrderedMap String (List String)}

theorem ids (infers : Infers tasks dag outputs) :
    dag.map (fun task => task.id) = tasks.map Task.id := by
  rw [← infers.tasks_eq, List.map_map]
  rfl

theorem mem_tasks
    (infers : Infers tasks dag outputs)
    {task : InferredTask} (member : task ∈ dag) : task.toTask ∈ tasks := by
  rw [← infers.tasks_eq]
  exact List.mem_map.mpr ⟨task, member, rfl⟩

/-- The edges that leave a task lead to the tasks that name it. -/
theorem outgoing_eq_downstream
    (infers : Infers tasks dag outputs) (taskId : String) :
    Kahn.outgoing (edges dag) taskId = downstream tasks taskId := by
  have perTask : ∀ listed : List InferredTask,
      (∀ task ∈ listed, Names task.toTask (tasks.map Task.id)
        task.dependencies) →
      Kahn.outgoing (edges listed) taskId =
        downstream (listed.map InferredTask.toTask) taskId := by
    intro listed names
    induction listed with
    | nil =>
        rfl
    | cons task rest inductionHypothesis =>
        have here := names task List.mem_cons_self
        have tail := inductionHypothesis fun other member =>
          names other (List.mem_cons_of_mem _ member)
        have own : Kahn.outgoing
            (task.dependencies.map fun dependency =>
              (dependency, task.id)) taskId =
            if taskId ∈ task.dependencies then [task.id] else [] := by
          have counted :
              Kahn.outgoing (task.dependencies.map fun dependency =>
                (dependency, task.id)) taskId =
              List.replicate (task.dependencies.count taskId)
                task.id := by
            induction task.dependencies with
            | nil =>
                rfl
            | cons dependency others inductionHypothesis =>
                rw [Kahn.outgoing] at inductionHypothesis ⊢
                rw [List.map_cons, List.count_cons]
                by_cases same : dependency = taskId
                · simp [same, inductionHypothesis,
                    List.replicate_succ]
                · simp [same, inductionHypothesis]
          rw [counted, here.nodup.count]
          split
          · rfl
          · rfl
        have split :
            Kahn.outgoing (edges (task :: rest)) taskId =
              Kahn.outgoing (task.dependencies.map fun dependency =>
                (dependency, task.id)) taskId ++
                Kahn.outgoing (edges rest) taskId := by
          simp [Kahn.outgoing, edges]
        rw [split, own, tail, downstream, downstream, List.map_cons]
        by_cases named : taskId ∈ task.dependencies
        · have upstream := (here.mem_iff taskId).mp named
          simp [named, upstream]
        · have upstream : taskId ∉ task.toTask.upstream := fun member =>
            named ((here.mem_iff taskId).mpr member)
          simp [named, upstream]
  rw [perTask dag infers.names, infers.tasks_eq]

theorem mem_edges_iff
    (infers : Infers tasks dag outputs) (edge : String × String) :
    edge ∈ edges dag ↔ edge.2 ∈ downstream tasks edge.1 := by
  rw [← infers.outgoing_eq_downstream]
  exact Kahn.mem_outgoing_iff.symm

/-- Both ends of an edge are tasks. -/
theorem edges_inside
    (infers : Infers tasks dag outputs)
    {edge : String × String} (member : edge ∈ edges dag) :
    edge.1 ∈ tasks.map Task.id ∧ edge.2 ∈ tasks.map Task.id := by
  rcases List.mem_flatMap.mp member with ⟨task, among, inTask⟩
  rcases List.mem_map.mp inTask with ⟨dependency, named, same⟩
  rw [← same]
  refine ⟨(infers.names task among).known dependency named, ?_⟩
  exact List.mem_map.mpr ⟨task.toTask, infers.mem_tasks among, rfl⟩

end Infers

/-! ## No cycles -/

theorem length_served_loop_le
    (service : Kahn.Service String) (successors : String → List String)
    (fuel : Nat) (state : Kahn.State String) :
    (Kahn.loop service successors fuel state).served.length ≤
      state.served.length + fuel := by
  induction fuel generalizing state with
  | zero =>
      exact le_refl _
  | succ fuel inductionHypothesis =>
      rw [Kahn.loop]
      cases service.take state.queue with
      | none =>
          exact Nat.le_add_right _ _
      | some taken =>
          refine (inductionHypothesis _).trans ?_
          rw [List.length_append, List.length_singleton]
          omega

section Cycles

variable
  {tasks : List Task} {dag : List InferredTask}
  {outputs : OrderedMap String (List String)}

theorem length_kahnOrder
    (passed : detectCyclesKahn dag = .ok ()) :
    (kahnOrder dag).length = dag.length := by
  by_contra different
  rw [detectCyclesKahn, if_pos different] at passed
  cases passed

/-- Identifiers that occur twice make the count fall short. -/
theorem nodup_of_detectCyclesKahn
    (passed : detectCyclesKahn dag = .ok ()) :
    (dag.map fun task => task.id).Nodup := by
  have served := length_kahnOrder passed
  have bounded : (kahnOrder dag).length ≤ 0 + (nodeIds dag).length :=
    length_served_loop_le _ _ _ _
  have sublist :=
    (List.dedup_sublist (dag.map fun task => task.id).reverse)
  have short : (nodeIds dag).length =
      ((dag.map fun task => task.id).reverse.dedup).length := by
    rw [nodeIds, List.length_reverse]
  have whole : ((dag.map fun task => task.id).reverse.dedup) =
      (dag.map fun task => task.id).reverse := by
    apply sublist.eq_of_length_le
    rw [List.length_reverse, List.length_map]
    omega
  have nodup := List.nodup_dedup (dag.map fun task => task.id).reverse
  rw [whole, List.nodup_reverse] at nodup
  exact nodup

theorem nodeIds_of_nodup
    (nodup : (dag.map fun task => task.id).Nodup) :
    nodeIds dag = dag.map fun task => task.id := by
  rw [nodeIds, List.Nodup.dedup (List.nodup_reverse.mpr nodup),
    List.reverse_reverse]

/-- A list that passes has no cycle of dependencies. -/
theorem acyclic_of_detectCyclesKahn
    (infers : Infers tasks dag outputs)
    (passed : detectCyclesKahn dag = .ok ()) (taskId : String) :
    ¬ Relation.TransGen
      (fun source target => (source, target) ∈ edges dag)
      taskId taskId := by
  have nodup := nodup_of_detectCyclesKahn passed
  have served := length_kahnOrder passed
  have inside : ∀ edge ∈ edges dag,
      edge.1 ∈ dag.map (fun task => task.id) ∧
        edge.2 ∈ dag.map (fun task => task.id) := by
    intro edge member
    rw [infers.ids]
    exact infers.edges_inside member
  rw [kahnOrder, nodeIds_of_nodup nodup] at served
  refine (Kahn.length_served_ofEdges_iff .fifo nodup inside).mp ?_ taskId
  rw [served, List.length_map]

/-- No task depends on itself. -/
theorem ne_of_downstream
    (infers : Infers tasks dag outputs)
    (passed : detectCyclesKahn dag = .ok ())
    {taskId dependent : String}
    (member : dependent ∈ downstream tasks taskId) :
    taskId ≠ dependent := by
  intro same
  have edge := (infers.mem_edges_iff (taskId, dependent)).mpr member
  rw [← same] at edge
  exact acyclic_of_detectCyclesKahn infers passed taskId
    (Relation.TransGen.single edge)

end Cycles

end Agentcy.Parser
