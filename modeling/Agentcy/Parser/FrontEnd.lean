import Agentcy.Parser.Dependencies

/-!
# What the front end accepts

`infer_dependencies_and_outputs` followed by `detect_cycles_kahn` accepts
exactly the task lists that stand for a DAG, and the execution order of an
accepted list is a linear extension of its dependencies.
-/

namespace Agentcy.Parser

open Agentcy.Library

/-- The dependency list of a task whose `inputs` is a dictionary; without the
key it is empty. -/
def Task.dependencyList? (task : Task) : Option (List Json) :=
  match task.inputs with
  | none => none
  | some inputs =>
      match (OrderedMap.lookupEntries "dependencies" inputs).getD
          (.list []) with
      | .list items => some items
      | _ => none

/-- A task whose `inputs` is a dictionary with a dependency list. -/
def Task.Listed (task : Task) : Prop :=
  ∃ items, task.dependencyList? = some items

/-- One task of the list names the other as its dependency. -/
def DependsOn (tasks : List Task) (dependency taskId : String) : Prop :=
  ∃ task ∈ tasks, task.id = taskId ∧
    ∃ items, task.dependencyList? = some items ∧ .str dependency ∈ items

/-- A task list that stands for a DAG. -/
structure ValidDag (tasks : List Task) : Prop where
  distinct : (tasks.map Task.id).Nodup
  known : ∀ task ∈ tasks, ∀ items, task.dependencyList? = some items →
    ∀ item ∈ items, ∃ other ∈ tasks, item = .str other.id
  acyclic : ∀ taskId,
    ¬ Relation.TransGen (DependsOn tasks) taskId taskId

section FrontEnd

variable (keyOrder : SetOrder Json.Key) (order : SetOrder String)

/-- The first two stages of `parse_graph`. -/
def frontEnd (tasks : List Task) :
    Except ParseError (List InferredTask) := do
  let (dag, _) ← inferDependenciesAndOutputs keyOrder order tasks
  detectCyclesKahn dag
  return dag

end FrontEnd

theorem dependencyItems_of_list
    {task : Task} {items : List Json}
    (listed : task.dependencyList? = some items) :
    task.dependencyItems = .ok items := by
  rw [Task.dependencyList?] at listed
  rw [Task.dependencyItems]
  cases present : task.inputs with
  | none =>
      rw [present] at listed
      cases listed
  | some inputs =>
      rw [present] at listed
      dsimp only at listed ⊢
      split at listed
      · rename_i found isList
        rw [isList, ← Option.some.inj listed]
        rfl
      · cases listed

theorem mem_upstream_of_list
    {task : Task} {items : List Json}
    (listed : task.dependencyList? = some items) (dependency : String) :
    dependency ∈ task.upstream ↔ .str dependency ∈ items := by
  rw [Task.upstream, dependencyItems_of_list listed]
  simp only [List.mem_dedup, List.mem_filterMap]
  constructor
  · rintro ⟨item, member, isText⟩
    cases item with
    | str text =>
        cases isText
        exact member
    | null => cases isText
    | bool _ => cases isText
    | int _ => cases isText
    | float _ => cases isText
    | list _ => cases isText
    | dict _ => cases isText
  · intro member
    exact ⟨.str dependency, member, rfl⟩

theorem mapM_hash_of_strings
    {items : List Json}
    (strings : ∀ item ∈ items, ∃ text, item = .str text) :
    ∃ texts : List String, items = texts.map Json.str ∧
      items.mapM Json.hash = .ok (texts.map Json.Key.str) := by
  induction items with
  | nil =>
      exact ⟨[], rfl, rfl⟩
  | cons item rest inductionHypothesis =>
      obtain ⟨text, isText⟩ := strings item List.mem_cons_self
      obtain ⟨texts, restTexts, restHashed⟩ := inductionHypothesis
        fun other member => strings other (List.mem_cons_of_mem _ member)
      refine ⟨text :: texts, by rw [isText, restTexts, List.map_cons], ?_⟩
      rw [List.mapM_cons, restHashed, isText]
      rfl

theorem checkDependencies_of_known
    {taskIds : List String} (taskId : String) {keys : List Json.Key}
    (known : ∀ key ∈ keys, ∃ dependency ∈ taskIds, key = .str dependency) :
    ∃ dependencies, checkDependencies taskIds taskId keys =
      .ok dependencies := by
  induction keys with
  | nil =>
      exact ⟨[], rfl⟩
  | cons key rest inductionHypothesis =>
      obtain ⟨dependency, member, same⟩ := known key List.mem_cons_self
      obtain ⟨later, restChecked⟩ := inductionHypothesis
        fun other among => known other (List.mem_cons_of_mem _ among)
      refine ⟨dependency :: later, ?_⟩
      rw [same, checkDependencies, if_pos member, restChecked]
      rfl

theorem taskDependencies_of_known
    (keyOrder : SetOrder Json.Key) {taskIds : List String} {task : Task}
    {items : List Json}
    (listed : task.dependencyList? = some items)
    (known : ∀ item ∈ items, ∃ taskId ∈ taskIds, item = .str taskId) :
    ∃ dependencies, taskDependencies keyOrder taskIds task =
      .ok dependencies := by
  have strings : ∀ item ∈ items, ∃ text, item = .str text := by
    intro item member
    obtain ⟨taskId, _, same⟩ := known item member
    exact ⟨taskId, same⟩
  obtain ⟨texts, areTexts, hashed⟩ := mapM_hash_of_strings strings
  have inside : ∀ key ∈ keyOrder.visit (texts.map Json.Key.str),
      ∃ dependency ∈ taskIds, key = .str dependency := by
    intro key visited
    have among := (keyOrder.mem_visit _ key).mp visited
    rcases List.mem_map.mp among with ⟨text, member, same⟩
    have isItem : Json.str text ∈ items := by
      rw [areTexts]
      exact List.mem_map.mpr ⟨text, member, rfl⟩
    obtain ⟨taskId, isTask, sameText⟩ := known _ isItem
    rw [Json.str.inj sameText] at same
    exact ⟨taskId, isTask, same.symm⟩
  obtain ⟨dependencies, checked⟩ :=
    checkDependencies_of_known task.id inside
  refine ⟨dependencies, ?_⟩
  rw [taskDependencies, bind_eq_ok]
  refine ⟨items, raising_eq_ok.mpr (dependencyItems_of_list listed), ?_⟩
  rw [bind_eq_ok]
  exact ⟨_, raising_eq_ok.mpr hashed, checked⟩

theorem readDependencies_of_known
    (keyOrder : SetOrder Json.Key) {taskIds : List String}
    {tasks : List Task}
    (listed : ∀ task ∈ tasks, task.Listed)
    (known : ∀ task ∈ tasks, ∀ items,
      task.dependencyList? = some items →
        ∀ item ∈ items, ∃ taskId ∈ taskIds, item = .str taskId) :
    ∃ pairs, readDependencies keyOrder taskIds tasks = .ok pairs := by
  induction tasks with
  | nil =>
      exact ⟨[], rfl⟩
  | cons task rest inductionHypothesis =>
      obtain ⟨items, here⟩ := listed task List.mem_cons_self
      obtain ⟨dependencies, found⟩ := taskDependencies_of_known
        keyOrder here
        (known task List.mem_cons_self items here)
      obtain ⟨later, restRead⟩ := inductionHypothesis
        (fun other member => listed other (List.mem_cons_of_mem _ member))
        (fun other member => known other (List.mem_cons_of_mem _ member))
      refine ⟨(task, dependencies) :: later, ?_⟩
      rw [readDependencies, bind_eq_ok]
      refine ⟨dependencies, found, ?_⟩
      rw [bind_eq_ok]
      exact ⟨later, restRead, rfl⟩

theorem infer_of_known
    (keyOrder : SetOrder Json.Key) (order : SetOrder String)
    {tasks : List Task} (listed : ∀ task ∈ tasks, task.Listed)
    (known : ∀ task ∈ tasks, ∀ items,
      task.dependencyList? = some items →
        ∀ item ∈ items, ∃ other ∈ tasks, item = .str other.id) :
    ∃ inferred, inferDependenciesAndOutputs keyOrder order tasks =
      .ok inferred := by
  have inside : ∀ task ∈ tasks, ∀ items,
      task.dependencyList? = some items →
        ∀ item ∈ items, ∃ taskId ∈ tasks.map Task.id,
          item = .str taskId := by
    intro task member items here item among
    obtain ⟨other, isTask, same⟩ := known task member items here item among
    exact ⟨other.id, List.mem_map.mpr ⟨other, isTask, rfl⟩, same⟩
  obtain ⟨pairs, read⟩ := readDependencies_of_known keyOrder
    listed inside
  unfold inferDependenciesAndOutputs
  exact ⟨_, bind_eq_ok.mpr ⟨pairs, read, rfl⟩⟩

/-! ## An inferred list names its tasks -/

theorem known_of_readDependencies
    {keyOrder : SetOrder Json.Key} {taskIds : List String}
    {tasks : List Task} {pairs : List (Task × List String)}
    (read : readDependencies keyOrder taskIds tasks = .ok pairs)
    {task : Task} (member : task ∈ tasks)
    {items : List Json} (listed : task.dependencyList? = some items)
    {item : Json} (among : item ∈ items) :
    ∃ taskId ∈ taskIds, item = .str taskId := by
  induction tasks generalizing pairs with
  | nil =>
      cases member
  | cons first rest inductionHypothesis =>
      rw [readDependencies, bind_eq_ok] at read
      rcases read with ⟨dependencies, here, read⟩
      rw [bind_eq_ok] at read
      rcases read with ⟨later, restRead, _⟩
      rcases List.mem_cons.mp member with same | inRest
      · rw [taskDependencies, bind_eq_ok] at here
        rcases here with ⟨found, isFound, here⟩
        rw [raising_eq_ok, ← same, dependencyItems_of_list listed,
          Except.ok.injEq] at isFound
        rw [bind_eq_ok] at here
        rcases here with ⟨keys, hashed, checked⟩
        rw [raising_eq_ok, ← isFound] at hashed
        have strings := checkDependencies_ok checked
        obtain ⟨key, visited, isKey⟩ :=
          exists_result_of_mapM hashed among
        have inOrder := (keyOrder.mem_visit keys key).mpr visited
        rw [strings.1] at inOrder
        rcases List.mem_map.mp inOrder with ⟨dependency, known, sameKey⟩
        rw [← sameKey] at isKey
        exact ⟨dependency, strings.2 dependency known,
          key_eq_str_iff.mp isKey⟩
      · exact inductionHypothesis restRead inRest

section Edges

variable
  {tasks : List Task} {dag : List InferredTask}
  {outputs : OrderedMap String (List String)}

theorem Infers.mem_edges_iff_dependsOn
    (infers : Infers tasks dag outputs)
    (listed : ∀ task ∈ tasks, task.Listed) (dependency taskId : String) :
    (dependency, taskId) ∈ edges dag ↔
      DependsOn tasks dependency taskId := by
  rw [infers.mem_edges_iff, mem_downstream_iff]
  constructor
  · rintro ⟨task, member, named, same⟩
    obtain ⟨items, here⟩ := listed task member
    exact ⟨task, member, same, items, here,
      (mem_upstream_of_list here dependency).mp named⟩
  · rintro ⟨task, member, same, items, here, among⟩
    exact ⟨task, member, (mem_upstream_of_list here dependency).mpr among,
      same⟩

theorem Infers.edges_eq_dependsOn
    (infers : Infers tasks dag outputs)
    (listed : ∀ task ∈ tasks, task.Listed) :
    (fun dependency taskId => (dependency, taskId) ∈ edges dag) =
      DependsOn tasks := by
  funext dependency taskId
  exact propext (infers.mem_edges_iff_dependsOn listed dependency taskId)

theorem detectCyclesKahn_of_valid
    (infers : Infers tasks dag outputs)
    (listed : ∀ task ∈ tasks, task.Listed) (valid : ValidDag tasks) :
    detectCyclesKahn dag = .ok () := by
  have nodup : (dag.map fun task => task.id).Nodup := by
    rw [infers.ids]
    exact valid.distinct
  have inside : ∀ edge ∈ edges dag,
      edge.1 ∈ dag.map (fun task => task.id) ∧
        edge.2 ∈ dag.map (fun task => task.id) := by
    intro edge member
    rw [infers.ids]
    exact infers.edges_inside member
  have acyclic := valid.acyclic
  rw [← infers.edges_eq_dependsOn listed] at acyclic
  have served :=
    (Kahn.length_served_ofEdges_iff .fifo nodup inside).mpr acyclic
  rw [detectCyclesKahn, kahnOrder, nodeIds_of_nodup nodup, served,
    List.length_map]
  simp

/-- The execution order of a list that passes has every task once, after its
dependencies. -/
theorem kahnOrder_of_passed
    (infers : Infers tasks dag outputs)
    (listed : ∀ task ∈ tasks, task.Listed)
    (passed : detectCyclesKahn dag = .ok ()) :
    (kahnOrder dag).Perm (tasks.map Task.id) ∧
      Kahn.Ordered (DependsOn tasks) (kahnOrder dag) := by
  have nodup := nodup_of_detectCyclesKahn passed
  have inside : ∀ edge ∈ edges dag,
      edge.1 ∈ dag.map (fun task => task.id) ∧
        edge.2 ∈ dag.map (fun task => task.id) := by
    intro edge member
    rw [infers.ids]
    exact infers.edges_inside member
  have full := length_kahnOrder passed
  rw [← infers.ids, ← infers.edges_eq_dependsOn listed]
  apply Kahn.served_ofEdges_of_full .fifo nodup inside
  · rw [kahnOrder, nodeIds_of_nodup nodup]
  · rw [full, List.length_map]

end Edges

theorem frontEnd_eq_ok
    {keyOrder : SetOrder Json.Key} {order : SetOrder String}
    {tasks : List Task} {dag : List InferredTask} :
    frontEnd keyOrder order tasks = .ok dag ↔
      ∃ outputs, inferDependenciesAndOutputs keyOrder order tasks =
          .ok (dag, outputs) ∧
        detectCyclesKahn dag = .ok () := by
  rw [frontEnd, bind_eq_ok]
  constructor
  · rintro ⟨⟨found, outputs⟩, inferred, rest⟩
    dsimp only at rest
    rw [bind_eq_ok] at rest
    rcases rest with ⟨_, passed, same⟩
    rw [pure_eq_ok] at same
    rw [same] at inferred passed
    exact ⟨outputs, inferred, passed⟩
  · rintro ⟨outputs, inferred, passed⟩
    exact ⟨(dag, outputs), inferred,
      bind_eq_ok.mpr ⟨(), passed, rfl⟩⟩

theorem validDag_of_accepted
    {keyOrder : SetOrder Json.Key} {order : SetOrder String}
    {tasks : List Task} {dag : List InferredTask}
    {outputs : OrderedMap String (List String)}
    (listed : ∀ task ∈ tasks, task.Listed)
    (inferred : inferDependenciesAndOutputs keyOrder order tasks =
      .ok (dag, outputs))
    (passed : detectCyclesKahn dag = .ok ()) : ValidDag tasks := by
  have infers := infers_of_ok inferred
  refine ⟨?_, ?_, ?_⟩
  · rw [← infers.ids]
    exact nodup_of_detectCyclesKahn passed
  · intro task member items here item among
    rw [inferDependenciesAndOutputs, bind_eq_ok] at inferred
    rcases inferred with ⟨pairs, read, _⟩
    obtain ⟨taskId, isTask, same⟩ :=
      known_of_readDependencies read member here among
    rcases List.mem_map.mp isTask with ⟨other, isOther, sameId⟩
    exact ⟨other, isOther, by rw [same, sameId]⟩
  · intro taskId
    rw [← infers.edges_eq_dependsOn listed]
    exact acyclic_of_detectCyclesKahn infers passed taskId

/-- The front end accepts exactly the lists that stand for a DAG, and the
order that `parse_dag` then gives is a permutation of the tasks in which
every task comes after its dependencies. -/
theorem frontEnd_sound_and_complete
    (keyOrder : SetOrder Json.Key) (order : SetOrder String)
    {tasks : List Task} (listed : ∀ task ∈ tasks, task.Listed) :
    ((∃ dag, frontEnd keyOrder order tasks = .ok dag) ↔ ValidDag tasks) ∧
      ∀ dag, frontEnd keyOrder order tasks = .ok dag →
        (parseDag dag).1.Perm (tasks.map Task.id) ∧
          Kahn.Ordered (DependsOn tasks) (parseDag dag).1 := by
  refine ⟨⟨?_, ?_⟩, ?_⟩
  · rintro ⟨dag, accepted⟩
    obtain ⟨outputs, inferred, passed⟩ := frontEnd_eq_ok.mp accepted
    exact validDag_of_accepted listed inferred passed
  · intro valid
    obtain ⟨⟨dag, outputs⟩, inferred⟩ :=
      infer_of_known keyOrder order listed valid.known
    refine ⟨dag, frontEnd_eq_ok.mpr ⟨outputs, inferred, ?_⟩⟩
    exact detectCyclesKahn_of_valid (infers_of_ok inferred) listed valid
  · intro dag accepted
    obtain ⟨outputs, inferred, passed⟩ := frontEnd_eq_ok.mp accepted
    exact kahnOrder_of_passed (infers_of_ok inferred) listed passed

/-- A set visited in the order of the last insertions. -/
def SetOrder.ofDedup {α : Type} [DecidableEq α] : SetOrder α where
  visit := List.dedup
  nodup := List.nodup_dedup
  mem_visit := fun _ _ => List.mem_dedup

def dependent (id : String) (dependencies : List String) : Task where
  id := id
  inputs := some
    [("dependencies", .list (dependencies.map Json.str))]

def chainTasks : List Task :=
  [{ id := "a" }, dependent "b" ["a"]]

/-- Two branches that meet again; one of them names its dependency twice. -/
def diamondTasks : List Task :=
  [dependent "d" ["b", "c"], dependent "b" ["a", "a"],
    dependent "c" ["a"], { id := "a" }]

theorem diamond_accepted :
    ValidDag diamondTasks ∧
      ∃ dag, frontEnd .ofDedup .ofDedup diamondTasks = .ok dag ∧
        (parseDag dag).1.Perm ["d", "b", "c", "a"] ∧
        Kahn.Ordered (DependsOn diamondTasks) (parseDag dag).1 := by
  have listed : ∀ task ∈ diamondTasks, task.Listed := by
    have all : diamondTasks.all
        (fun task => task.dependencyList?.isSome) = true := by
      decide
    intro task member
    exact Option.isSome_iff_exists.mp (List.all_eq_true.mp all task member)
  have decided :=
    frontEnd_sound_and_complete .ofDedup .ofDedup listed
  have accepted : (frontEnd .ofDedup .ofDedup diamondTasks).toOption.isSome =
      true := by
    decide +kernel
  cases parsed : frontEnd .ofDedup .ofDedup diamondTasks with
  | error error =>
      rw [parsed] at accepted
      cases accepted
  | ok dag =>
      exact ⟨decided.1.mp ⟨dag, parsed⟩, dag, rfl, decided.2 dag parsed⟩

end Agentcy.Parser
