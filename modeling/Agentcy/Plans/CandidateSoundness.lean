import Agentcy.Plans.ValidPlans

/-!
# What the verdict on a candidate graph is worth

A candidate that `validate_candidate_graph` lets through is compared with the
run that goes on under the current graph: its shape, the tasks that have
started, their agents and their predecessors.  The checks name tasks by the
texts of their identifiers, and edges meet tasks through Python's equality.
-/

namespace Agentcy.Plans

open Agentcy.Library

/-- The dicts among the items that a graph has under a name. -/
def graphItems (graph : Fields) (name : String) : List Fields :=
  match (graph.get name).itemsOrEmpty with
  | .ok items => dicts items
  | .error _ => []

def taskText (python : PyBuiltins) (task : Fields) : String :=
  (task.get "task_id").pyStr python

/-- The task that a graph has under a name; of several the last one counts. -/
def taskNamed (python : PyBuiltins) (graph : Fields) (name : String) :
    Option Fields :=
  (graphItems graph "tasks").reverse.find? fun task =>
    (task.get "task_id").truthy && decide (taskText python task = name)

/-- The states of the tasks of a run, by the names of the tasks. -/
def runStates (python : PyBuiltins) (runDoc : Fields) :
    List (String × Option String) :=
  match runDoc.get "tasks" with
  | .dict runTasks =>
      runTasks.filterMap fun entry =>
        match entry.2 with
        | .dict fields =>
            some (entry.1, taskStatus python (Fields.get fields "status"))
        | _ => none
  | _ => []

section Run

variable (python : PyBuiltins) (runDoc : Fields)

def completedTasks : List String :=
  tasksWithStatus "COMPLETED" (runStates python runDoc)

def runningTasks : List String :=
  tasksWithStatus "RUNNING" (runStates python runDoc)

def failedTasks : List String :=
  tasksWithStatus "FAILED" (runStates python runDoc)

end Run

section Candidate

variable (python : PyBuiltins) (baseGraph candidate runDoc : Fields)

/-- An edge of the candidate between two identifiers. -/
def HasEdge (source target : Json.Key) : Prop :=
  ∃ edge ∈ graphItems candidate "edges",
    (edge.get "from").key? = some source ∧
      (edge.get "to").key? = some target

/-- The candidate is a graph that can take the place of the current one under
the run. -/
structure ReplacesSafely : Prop where
  distinct :
    ((graphItems candidate "tasks").map (taskText python)).Nodup
  closed : ∀ edge ∈ graphItems candidate "edges",
    ∀ side ∈ ["from", "to"], ∃ task ∈ graphItems candidate "tasks",
      edge.get side = task.get "task_id"
  acyclic : ∀ taskId,
    ¬ Relation.TransGen (HasEdge candidate) taskId taskId
  keepsStarted : ∀ name ∈ completedTasks python runDoc ++
      runningTasks python runDoc ++ failedTasks python runDoc,
    ∃ task ∈ graphItems candidate "tasks", taskText python task = name
  keepsAgents : ∀ name ∈ runningTasks python runDoc,
    ∀ base, taskNamed python baseGraph name = some base →
      (base.get "assigned_agent").truthy = true →
        ∀ task ∈ graphItems candidate "tasks",
          taskText python task = name →
            (base.get "assigned_agent").pyEq
              (task.get "assigned_agent") = true
  predecessors : ∀ edge ∈ graphItems candidate "edges",
    ∀ source ∈ graphItems candidate "tasks",
      ∀ target ∈ graphItems candidate "tasks",
        edge.get "from" = source.get "task_id" →
          edge.get "to" = target.get "task_id" →
            taskText python target ∈ completedTasks python runDoc ++
                runningTasks python runDoc →
              taskText python source ∈ completedTasks python runDoc

/-- Identifiers with one text are equal, as `1` and `"1"` are not. -/
def TextsTellApart : Prop :=
  ∀ first ∈ graphItems candidate "tasks",
    ∀ second ∈ graphItems candidate "tasks",
      taskText python first = taskText python second →
        (first.get "task_id").key? = (second.get "task_id").key?

/-- An edge that meets a task names it by the task's own identifier, not by
an equal value of another type, as `True` or `1.0` for `1`. -/
def EdgesNameTasks : Prop :=
  ∀ edge ∈ graphItems candidate "edges", ∀ side ∈ ["from", "to"],
    ∀ task ∈ graphItems candidate "tasks",
      (edge.get side).key? = (task.get "task_id").key? →
        edge.get side = task.get "task_id"

/-- No running task with an agent gets a value for an agent that Python takes
for false: zero, `False`, or an empty list or dict. -/
def NoEmptyAgents : Prop :=
  ∀ name ∈ runningTasks python runDoc,
    ∀ base, taskNamed python baseGraph name = some base →
      (base.get "assigned_agent").truthy = true →
        ∀ task ∈ graphItems candidate "tasks",
          taskText python task = name →
            (task.get "assigned_agent").truthy = true

end Candidate

theorem graphItems_eq
    {graph : Fields} {name : String} {items : List Json}
    (found : (graph.get name).itemsOrEmpty = .ok items) :
    graphItems graph name = dicts items := by
  unfold graphItems
  rw [found]

@[simp]
theorem dicts_cons_dict (fields : Fields) (rest : List Json) :
    dicts (.dict fields :: rest) = fields :: dicts rest :=
  rfl

theorem listed_iff {taskIds : List Json.Key} {value : Json} :
    listed taskIds value = true ↔
      ∃ key ∈ taskIds, value.key? = some key := by
  unfold listed
  cases value.key? with
  | none =>
      simp
  | some key =>
      simp

theorem extractTaskIds_clean
    {python : PyBuiltins} {index : Nat} {seen : List Json.Key}
    {tasks : List Json} {taskIds : List Json.Key}
    (extracted :
      extractTaskIds python index seen tasks = .ok (taskIds, [])) :
    (∀ task ∈ dicts tasks, (task.get "task_id").truthy = true) ∧
      (dicts tasks).map (fun task => (task.get "task_id").key?) =
        taskIds.map some := by
  induction tasks generalizing index seen taskIds with
  | nil =>
      cases extracted
      exact ⟨by simp [dicts], rfl⟩
  | cons task rest inductionHypothesis =>
      rw [extractTaskIds, bind_eq_ok] at extracted
      obtain ⟨fields, isDict, extracted⟩ := extracted
      obtain rfl := Json.dict_of_fields isDict
      dsimp only at extracted
      split at extracted
      · rename_i named
        rw [bind_eq_ok] at extracted
        obtain ⟨key, hashed, extracted⟩ := extracted
        split at extracted
        · rw [bind_eq_ok] at extracted
          obtain ⟨found, _, extracted⟩ := extracted
          cases extracted
        · rw [bind_eq_ok] at extracted
          obtain ⟨⟨later, violations⟩, extractedLater, extracted⟩ :=
            extracted
          dsimp only at extracted
          split at extracted
          · cases extracted
          · cases extracted
            obtain ⟨truthy, keys⟩ := inductionHypothesis extractedLater
            rw [dicts_cons_dict]
            constructor
            · intro other member
              rcases List.mem_cons.mp member with rfl | among
              · exact named
              · exact truthy other among
            · rw [List.map_cons, List.map_cons, keys,
                hash_eq_ok_iff.mp hashed]
      · rw [bind_eq_ok] at extracted
        obtain ⟨found, _, extracted⟩ := extracted
        cases extracted

/-- The edges of a clean graph join its tasks, and none is left out of the
cycle check. -/
theorem edgeViolations_clean
    {python : PyBuiltins} {taskIds : List Json.Key} {edges : List Json}
    (clean : edgeViolations python taskIds edges = .ok []) :
    (∀ edge ∈ dicts edges, ∀ side ∈ ["from", "to"],
        ∃ key ∈ taskIds, (edge.get side).key? = some key) ∧
      ∃ known, knownEdges taskIds edges = .ok known ∧
        ∀ edge ∈ dicts edges, ∀ source target,
          (edge.get "from").key? = some source →
            (edge.get "to").key? = some target →
              (source, target) ∈ known := by
  induction edges with
  | nil =>
      exact ⟨by simp [dicts], [], rfl, by simp [dicts]⟩
  | cons edge rest inductionHypothesis =>
      rw [edgeViolations, bind_eq_ok] at clean
      obtain ⟨fields, isDict, clean⟩ := clean
      obtain rfl := Json.dict_of_fields isDict
      dsimp only at clean
      rw [bind_eq_ok] at clean
      obtain ⟨violations, cleanLater, clean⟩ := clean
      split at clean
      · rename_i both
        cases clean
        rw [Bool.and_eq_true, listed_iff, listed_iff] at both
        obtain ⟨⟨source, sourceKnown, isSource⟩,
          ⟨target, targetKnown, isTarget⟩⟩ := both
        obtain ⟨inside, known, kept, complete⟩ :=
          inductionHypothesis cleanLater
        rw [dicts_cons_dict]
        refine ⟨?_, (source, target) :: known, ?_, ?_⟩
        · intro other member side isSide
          rcases List.mem_cons.mp member with rfl | among
          · rcases List.mem_cons.mp isSide with rfl | last
            · exact ⟨source, sourceKnown, isSource⟩
            · rw [List.mem_singleton.mp last]
              exact ⟨target, targetKnown, isTarget⟩
          · exact inside other among side isSide
        · rw [knownEdges, Json.fields]
          simp only [bind, Except.bind]
          rw [hash_eq_ok_iff.mpr isSource, hash_eq_ok_iff.mpr isTarget,
            kept]
          simp [sourceKnown, targetKnown, pure, Except.pure]
        · intro other member first second isFirst isSecond
          rcases List.mem_cons.mp member with rfl | among
          · rw [isSource] at isFirst
            rw [isTarget] at isSecond
            obtain rfl := Option.some.inj isFirst
            obtain rfl := Option.some.inj isSecond
            exact List.mem_cons_self
          · exact
              List.mem_cons_of_mem _
                (complete other among first second isFirst isSecond)
      · cases clean

theorem checkGraphSpec_clean
    {python : PyBuiltins} {graphSpec : Fields} {checked : Checked}
    (succeeded : checkGraphSpec python graphSpec = .ok checked)
    (clean : checked.violations = []) :
    ∃ tasks, (graphSpec.get "tasks").itemsOrEmpty = .ok tasks ∧
      (graphSpec.get "edges").itemsOrEmpty = .ok checked.edges ∧
      extractTaskIds python 0 [] tasks = .ok (checked.taskIds, []) ∧
      edgeViolations python checked.taskIds checked.edges = .ok [] := by
  rw [checkGraphSpec, bind_eq_ok] at succeeded
  obtain ⟨tasks, isTasks, succeeded⟩ := succeeded
  rw [bind_eq_ok] at succeeded
  obtain ⟨edges, isEdges, succeeded⟩ := succeeded
  dsimp only at succeeded
  rw [bind_eq_ok] at succeeded
  obtain ⟨⟨taskIds, idViolations⟩, extracted, succeeded⟩ := succeeded
  dsimp only at succeeded
  rw [bind_eq_ok] at succeeded
  obtain ⟨ofEdges, checkedEdges, succeeded⟩ := succeeded
  rw [bind_eq_ok] at succeeded
  obtain ⟨cyclic, _, succeeded⟩ := succeeded
  rw [bind_eq_ok] at succeeded
  obtain ⟨perTask, _, succeeded⟩ := succeeded
  cases succeeded
  simp only [List.append_eq_nil_iff] at clean
  obtain ⟨⟨⟨⟨_, noIds⟩, noEdges⟩, _⟩, _⟩ := clean
  rw [noIds] at extracted
  rw [noEdges] at checkedEdges
  exact ⟨tasks, isTasks, isEdges, extracted, checkedEdges⟩

/-- What the structural checks guarantee, in the terms of the graph. -/
structure CleanGraph (graph : Fields) (taskIds : List Json.Key) :
    Prop where
  truthy : ∀ task ∈ graphItems graph "tasks",
    (task.get "task_id").truthy = true
  keys : (graphItems graph "tasks").map
    (fun task => (task.get "task_id").key?) = taskIds.map some
  nodup : taskIds.Nodup
  inside : ∀ edge ∈ graphItems graph "edges", ∀ side ∈ ["from", "to"],
    ∃ key ∈ taskIds, (edge.get side).key? = some key
  acyclic : ∀ taskId,
    ¬ Relation.TransGen (HasEdge graph) taskId taskId

theorem Conforms.cleanGraph
    {python : PyBuiltins} {graph : Fields}
    (conforms : Conforms python graph) :
    ∃ taskIds, CleanGraph graph taskIds := by
  obtain ⟨checked, succeeded, nodup, acyclic⟩ := conforms.acyclic
  obtain ⟨other, again, clean⟩ := conforms
  rw [succeeded] at again
  obtain rfl := Except.ok.inj again
  obtain ⟨tasks, isTasks, isEdges, extracted, cleanEdges⟩ :=
    checkGraphSpec_clean succeeded clean
  have ids := extractTaskIds_clean extracted
  obtain ⟨inside, known, kept, complete⟩ :=
    edgeViolations_clean cleanEdges
  rw [← graphItems_eq isTasks] at ids
  rw [← graphItems_eq isEdges] at inside complete
  refine ⟨checked.taskIds, ids.1, ids.2, nodup, inside, ?_⟩
  intro taskId cycle
  have included : HasEdge graph ≤
      fun source target => (source, target) ∈ known := by
    rintro source target ⟨edge, member, isSource, isTarget⟩
    exact complete edge member source target isSource isTarget
  exact
    acyclic known kept taskId
      (Relation.TransGen.mono included taskId taskId cycle)

namespace CleanGraph

variable {graph : Fields} {taskIds : List Json.Key}

theorem nodup_keys (cleanGraph : CleanGraph graph taskIds) :
    ((graphItems graph "tasks").map
      (fun task => (task.get "task_id").key?)).Nodup := by
  rw [cleanGraph.keys]
  exact cleanGraph.nodup.map (Option.some_injective _)

theorem exists_task
    (cleanGraph : CleanGraph graph taskIds) {edge : Fields}
    (member : edge ∈ graphItems graph "edges") {side : String}
    (isSide : side ∈ ["from", "to"]) :
    ∃ task ∈ graphItems graph "tasks",
      (edge.get side).key? = (task.get "task_id").key? := by
  obtain ⟨key, known, isKey⟩ := cleanGraph.inside edge member side isSide
  have listed : some key ∈ (graphItems graph "tasks").map
      (fun task => (task.get "task_id").key?) := by
    rw [cleanGraph.keys]
    exact List.mem_map_of_mem known
  obtain ⟨task, among, same⟩ := List.mem_map.mp listed
  exact ⟨task, among, isKey.trans same.symm⟩

end CleanGraph

/-! ## Candidates that pass the checks against the run -/

theorem runStatuses_eq
    {python : PyBuiltins} {runTasks : Fields}
    {statuses : List (String × Option String)}
    (read : runStatuses python runTasks = .ok statuses) :
    statuses = runTasks.filterMap fun entry =>
      match entry.2 with
      | .dict fields =>
          some (entry.1, taskStatus python (Fields.get fields "status"))
      | _ => none := by
  unfold runStatuses at read
  induction runTasks generalizing statuses with
  | nil =>
      rw [List.mapM_nil, pure_eq_ok] at read
      exact read.symm
  | cons entry rest inductionHypothesis =>
      rw [List.mapM_cons, bind_eq_ok] at read
      obtain ⟨status, here, read⟩ := read
      rw [bind_eq_ok] at read
      obtain ⟨later, readLater, read⟩ := read
      rw [pure_eq_ok] at read
      rw [bind_eq_ok] at here
      obtain ⟨fields, isDict, here⟩ := here
      rw [pure_eq_ok] at here
      have value := Json.dict_of_fields isDict
      rw [← read, ← here, inductionHypothesis readLater,
        List.filterMap_cons, value]

theorem lookup_taskMap
    {python : PyBuiltins} {items : List Json}
    {entries : List (String × Fields)}
    (mapped : taskMap python items = .ok entries) (name : String) :
    OrderedMap.lookupEntries name entries =
      (dicts items).reverse.find? fun task =>
        (task.get "task_id").truthy &&
          decide (taskText python task = name) := by
  induction items generalizing entries with
  | nil =>
      cases mapped
      rfl
  | cons item rest inductionHypothesis =>
      rw [taskMap, bind_eq_ok] at mapped
      obtain ⟨fields, isDict, mapped⟩ := mapped
      obtain rfl := Json.dict_of_fields isDict
      dsimp only at mapped
      rw [bind_eq_ok] at mapped
      obtain ⟨later, mappedLater, mapped⟩ := mapped
      rw [pure_eq_ok] at mapped
      rw [dicts_cons_dict, List.reverse_cons, List.find?_append,
        ← inductionHypothesis mappedLater, ← mapped]
      by_cases named : (fields.get "task_id").truthy = true
      · rw [if_pos named, OrderedMap.lookupEntries_append]
        by_cases same : taskText python fields = name
        · have found : (fields.get "task_id").pyStr python = name := same
          simp [OrderedMap.lookupEntries, named, same, found]
        · have found : (fields.get "task_id").pyStr python ≠ name := same
          simp [OrderedMap.lookupEntries, named, same, found]
      · rw [if_neg named]
        simp [named]

theorem taskNamed_eq
    {python : PyBuiltins} {graph : Fields} {items : List Json}
    {entries : List (String × Fields)}
    (found : (graph.get "tasks").itemsOrEmpty = .ok items)
    (mapped : taskMap python items = .ok entries) (name : String) :
    OrderedMap.lookupEntries name entries =
      taskNamed python graph name := by
  rw [lookup_taskMap mapped, taskNamed, graphItems_eq found]

theorem predecessorPairs_mem
    {python : PyBuiltins} {edges : List Json}
    {pairs : List (String × String)}
    (read : predecessorPairs python edges = .ok pairs) :
    ∀ edge ∈ dicts edges, (edge.get "from").truthy = true →
      (edge.get "to").truthy = true →
        ((edge.get "from").pyStr python, (edge.get "to").pyStr python) ∈
          pairs := by
  induction edges generalizing pairs with
  | nil =>
      simp [dicts]
  | cons edge rest inductionHypothesis =>
      rw [predecessorPairs, bind_eq_ok] at read
      obtain ⟨fields, isDict, read⟩ := read
      obtain rfl := Json.dict_of_fields isDict
      dsimp only at read
      rw [bind_eq_ok] at read
      obtain ⟨later, readLater, read⟩ := read
      rw [pure_eq_ok] at read
      have tail := inductionHypothesis readLater
      intro other member source target
      rw [dicts_cons_dict] at member
      rcases List.mem_cons.mp member with rfl | among
      · rw [source, target] at read
        rw [← read]
        exact List.mem_cons_self
      · have inLater := tail other among source target
        rw [← read]
        split
        · exact List.mem_cons_of_mem _ inLater
        · exact inLater

theorem mem_sortedNames {names : List String} {name : String} :
    name ∈ sortedNames names ↔ name ∈ names := by
  rw [sortedNames, List.mem_insertionSort, List.mem_dedup]

theorem kept_of_removedTaskViolations
    {candidates : List (String × Fields)} {started : List String}
    (clean : removedTaskViolations candidates started = []) :
    ∀ name ∈ started,
      ∃ task, OrderedMap.lookupEntries name candidates = some task := by
  intro name member
  have unflagged := List.filterMap_eq_nil_iff.mp clean name
    (mem_sortedNames.mpr member)
  split at unflagged
  · rename_i task found
    exact ⟨task, found⟩
  · cases unflagged

theorem pyEq_of_reassignedTaskViolations
    {bases candidates : List (String × Fields)} {running : List String}
    (clean : reassignedTaskViolations bases candidates running = [])
    {name : String} (member : name ∈ running) {base task : Fields}
    (isBase : OrderedMap.lookupEntries name bases = some base)
    (isTask : OrderedMap.lookupEntries name candidates = some task)
    (assigned : (base.get "assigned_agent").truthy = true)
    (reassigned : (task.get "assigned_agent").truthy = true) :
    (base.get "assigned_agent").pyEq (task.get "assigned_agent") =
      true := by
  have unflagged := List.filterMap_eq_nil_iff.mp clean name
    (mem_sortedNames.mpr member)
  dsimp only at unflagged
  rw [isBase, isTask] at unflagged
  by_contra different
  simp [assigned, reassigned, different] at unflagged

theorem completed_of_newPrerequisiteViolations
    {pairs : List (String × String)} {completed running : List String}
    (clean : newPrerequisiteViolations pairs completed running = [])
    {pair : String × String} (among : pair ∈ pairs)
    (member : pair.2 ∈ completed ++ running) : pair.1 ∈ completed := by
  have unflagged := List.filterMap_eq_nil_iff.mp clean pair.2
    (mem_sortedNames.mpr member)
  dsimp only at unflagged
  split at unflagged
  · rename_i noneInvalid
    rw [List.isEmpty_iff, List.filter_eq_nil_iff] at noneInvalid
    have isPredecessor : pair.1 ∈
        ((pairs.filter fun other =>
          decide (other.2 = pair.2)).map Prod.fst).dedup := by
      rw [List.mem_dedup]
      exact
        List.mem_map_of_mem
          (List.mem_filter.mpr ⟨among, decide_eq_true rfl⟩)
    have valid := noneInvalid pair.1 isPredecessor
    simpa using valid
  · cases unflagged

/-- What the checks against the run say, in the terms of the graphs. -/
structure RuntimeChecked
    (python : PyBuiltins) (baseGraph candidate runDoc : Fields) :
    Prop where
  started : ∀ name ∈ completedTasks python runDoc ++
      runningTasks python runDoc ++ failedTasks python runDoc,
    ∃ task, taskNamed python candidate name = some task
  agents : ∀ name ∈ runningTasks python runDoc, ∀ base task,
    taskNamed python baseGraph name = some base →
      taskNamed python candidate name = some task →
        (base.get "assigned_agent").truthy = true →
          (task.get "assigned_agent").truthy = true →
            (base.get "assigned_agent").pyEq
              (task.get "assigned_agent") = true
  predecessors : ∀ edge ∈ graphItems candidate "edges",
    (edge.get "from").truthy = true → (edge.get "to").truthy = true →
      (edge.get "to").pyStr python ∈ completedTasks python runDoc ++
          runningTasks python runDoc →
        (edge.get "from").pyStr python ∈ completedTasks python runDoc

theorem runtimeChecked_of_no_states
    {python : PyBuiltins} {baseGraph candidate runDoc : Fields}
    (noStates : runStates python runDoc = []) :
    RuntimeChecked python baseGraph candidate runDoc := by
  have nobody : ∀ status,
      tasksWithStatus status (runStates python runDoc) = [] := by
    intro status
    rw [noStates]
    rfl
  constructor
  · intro name member
    rw [completedTasks, runningTasks, failedTasks, nobody, nobody, nobody]
      at member
    cases member
  · intro name member
    rw [runningTasks, nobody] at member
    cases member
  · intro edge _ _ _ member
    rw [completedTasks, runningTasks, nobody, nobody] at member
    cases member

theorem runtimeChecked_of_ok
    {python : PyBuiltins} {baseGraph candidate runDoc : Fields}
    (clean : validateRuntimeConstraints python baseGraph candidate runDoc =
      .ok []) :
    RuntimeChecked python baseGraph candidate runDoc := by
  cases states : runDoc.get "tasks" with
  | dict runTasks =>
      rw [validateRuntimeConstraints] at clean
      dsimp only at clean
      rw [states, bind_eq_ok] at clean
      obtain ⟨statuses, read, clean⟩ := clean
      have isStates : statuses = runStates python runDoc := by
        rw [runStatuses_eq read, runStates, states]
      have isDict : ¬ ((Json.dict runTasks).truthy &&
          decide ((Json.dict runTasks).fields.toBool = false)) = true := by
        simp [Json.fields, Except.toBool]
      rw [if_neg isDict, bind_eq_ok] at clean
      obtain ⟨baseItems, isBaseItems, clean⟩ := clean
      rw [bind_eq_ok] at clean
      obtain ⟨bases, mappedBase, clean⟩ := clean
      rw [bind_eq_ok] at clean
      obtain ⟨items, isItems, clean⟩ := clean
      rw [bind_eq_ok] at clean
      obtain ⟨candidates, mapped, clean⟩ := clean
      rw [bind_eq_ok] at clean
      obtain ⟨edges, isEdges, clean⟩ := clean
      rw [bind_eq_ok] at clean
      obtain ⟨pairs, readPairs, clean⟩ := clean
      rw [pure_eq_ok, List.append_eq_nil_iff, List.append_eq_nil_iff,
        isStates] at clean
      obtain ⟨⟨noneRemoved, noneReassigned⟩, noneNew⟩ := clean
      have taskOf := taskNamed_eq isItems mapped
      constructor
      · intro name member
        obtain ⟨task, found⟩ :=
          kept_of_removedTaskViolations noneRemoved name member
        exact ⟨task, (taskOf name).symm.trans found⟩
      · intro name member base task isBase isTask
        rw [← taskNamed_eq isBaseItems mappedBase] at isBase
        rw [← taskOf] at isTask
        exact
          pyEq_of_reassignedTaskViolations noneReassigned member isBase
            isTask
      · intro edge member source target
        rw [graphItems_eq isEdges] at member
        have isPair :=
          predecessorPairs_mem readPairs edge member source target
        exact completed_of_newPrerequisiteViolations noneNew isPair
  | null => exact runtimeChecked_of_no_states (by rw [runStates, states])
  | bool _ => exact runtimeChecked_of_no_states (by rw [runStates, states])
  | int _ => exact runtimeChecked_of_no_states (by rw [runStates, states])
  | float _ =>
      exact runtimeChecked_of_no_states (by rw [runStates, states])
  | str _ => exact runtimeChecked_of_no_states (by rw [runStates, states])
  | list _ => exact runtimeChecked_of_no_states (by rw [runStates, states])

/-! ## The verdict -/

def keyTruthy : Json.Key → Bool
  | .null => false
  | .number value => decide (value ≠ 0)
  | .str text => decide (text ≠ "")

theorem truthy_of_key
    {value : Json} {key : Json.Key} (isKey : value.key? = some key) :
    value.truthy = keyTruthy key := by
  cases value with
  | null =>
      obtain rfl := Option.some.inj isKey
      rfl
  | bool flag =>
      obtain rfl := Option.some.inj isKey
      cases flag with
      | true => rfl
      | false => rfl
  | int number =>
      obtain rfl := Option.some.inj isKey
      simp [Json.truthy, keyTruthy]
  | float number =>
      obtain rfl := Option.some.inj isKey
      rfl
  | str text =>
      obtain rfl := Option.some.inj isKey
      rfl
  | list _ => cases isKey
  | dict _ => cases isKey

/-- Equal values are true or false alike. -/
theorem truthy_of_pyEq
    {first second : Json} (same : first.pyEq second = true)
    (truthy : first.truthy = true) : second.truthy = true := by
  cases first with
  | null =>
      cases truthy
  | list items =>
      cases second with
      | list others =>
          cases items with
          | nil =>
              cases truthy
          | cons item rest =>
              cases others with
              | nil => cases same
              | cons other later => rfl
      | null => cases same
      | bool _ => cases same
      | int _ => cases same
      | float _ => cases same
      | str _ => cases same
      | dict _ => cases same
  | dict fields =>
      cases second with
      | dict others =>
          rw [Json.pyEq, Bool.and_eq_true, decide_eq_true_eq] at same
          simp only [Json.truthy, Bool.not_eq_true',
            List.isEmpty_eq_false_iff] at truthy ⊢
          intro empty
          rw [empty, List.length_nil, List.length_eq_zero_iff] at same
          exact truthy same.1
      | null => cases same
      | bool _ => cases same
      | int _ => cases same
      | float _ => cases same
      | str _ => cases same
      | list _ => cases same
  | bool value =>
      rw [Json.pyEq, decide_eq_true_eq] at same
      rw [truthy_of_key same, ← @truthy_of_key (.bool value) _ rfl]
      exact truthy
  | int value =>
      rw [Json.pyEq, decide_eq_true_eq] at same
      rw [truthy_of_key same, ← @truthy_of_key (.int value) _ rfl]
      exact truthy
  | float value =>
      rw [Json.pyEq, decide_eq_true_eq] at same
      rw [truthy_of_key same, ← @truthy_of_key (.float value) _ rfl]
      exact truthy
  | str text =>
      rw [Json.pyEq, decide_eq_true_eq] at same
      rw [truthy_of_key same, ← @truthy_of_key (.str text) _ rfl]
      exact truthy

theorem mem_of_taskNamed
    {python : PyBuiltins} {graph : Fields} {name : String} {task : Fields}
    (found : taskNamed python graph name = some task) :
    task ∈ graphItems graph "tasks" ∧ taskText python task = name := by
  unfold taskNamed at found
  have member := List.mem_of_find?_eq_some found
  have test := List.find?_some found
  rw [Bool.and_eq_true, decide_eq_true_eq] at test
  exact ⟨List.mem_reverse.mp member, test.2⟩

/-- The name of a task of a graph leads to the task if texts tell tasks
apart. -/
theorem taskNamed_of_mem
    {python : PyBuiltins} {graph : Fields}
    (distinct : ((graphItems graph "tasks").map (taskText python)).Nodup)
    {task : Fields} (member : task ∈ graphItems graph "tasks")
    (truthy : (task.get "task_id").truthy = true) :
    taskNamed python graph (taskText python task) = some task := by
  have found : (taskNamed python graph
      (taskText python task)).isSome = true := by
    rw [taskNamed, List.find?_isSome]
    exact ⟨task, List.mem_reverse.mpr member, by simp [truthy]⟩
  obtain ⟨other, isOther⟩ := Option.isSome_iff_exists.mp found
  obtain ⟨among, same⟩ := mem_of_taskNamed isOther
  rw [isOther, List.inj_on_of_nodup_map distinct among member same]

section Verdict

variable
  {python : PyBuiltins} {baseGraph candidate runDoc : Fields}
  {taskIds : List Json.Key}

theorem ReplacesSafely.condition
    (cleanGraph : CleanGraph candidate taskIds)
    (safely : ReplacesSafely python baseGraph candidate runDoc) :
    TextsTellApart python candidate ∧ EdgesNameTasks candidate ∧
      NoEmptyAgents python baseGraph candidate runDoc := by
  refine ⟨?_, ?_, ?_⟩
  · intro first isFirst second isSecond same
    rw [List.inj_on_of_nodup_map safely.distinct isFirst isSecond same]
  · intro edge isEdge side isSide task isTask same
    obtain ⟨named, isNamed, found⟩ :=
      safely.closed edge isEdge side isSide
    rw [found] at same ⊢
    rw [List.inj_on_of_nodup_map cleanGraph.nodup_keys isNamed isTask
      same]
  · intro name running base isBase assigned task isTask named
    exact
      truthy_of_pyEq
        (safely.keepsAgents name running base isBase assigned task isTask
          named)
        assigned

theorem replacesSafely_of_condition
    (cleanGraph : CleanGraph candidate taskIds)
    (checked : RuntimeChecked python baseGraph candidate runDoc)
    (tellApart : TextsTellApart python candidate)
    (named : EdgesNameTasks candidate)
    (agents : NoEmptyAgents python baseGraph candidate runDoc) :
    ReplacesSafely python baseGraph candidate runDoc := by
  have distinct :
      ((graphItems candidate "tasks").map (taskText python)).Nodup := by
    have keys := cleanGraph.nodup_keys
    unfold List.Nodup at keys ⊢
    rw [List.pairwise_map] at keys ⊢
    apply keys.imp_of_mem
    intro first second isFirst isSecond different same
    exact different (tellApart first isFirst second isSecond same)
  have closed : ∀ edge ∈ graphItems candidate "edges",
      ∀ side ∈ ["from", "to"], ∃ task ∈ graphItems candidate "tasks",
        edge.get side = task.get "task_id" := by
    intro edge isEdge side isSide
    obtain ⟨task, isTask, same⟩ := cleanGraph.exists_task isEdge isSide
    exact ⟨task, isTask, named edge isEdge side isSide task isTask same⟩
  refine ⟨distinct, closed, cleanGraph.acyclic, ?_, ?_, ?_⟩
  · intro name started
    obtain ⟨task, found⟩ := checked.started name started
    exact ⟨task, mem_of_taskNamed found⟩
  · intro name running base isBase assigned task isTask isNamed
    have found := taskNamed_of_mem distinct isTask
      (cleanGraph.truthy task isTask)
    rw [isNamed] at found
    exact
      checked.agents name running base task isBase found assigned
        (agents name running base isBase assigned task isTask isNamed)
  · intro edge isEdge source isSource target isTarget sameSource
      sameTarget started
    unfold taskText at started ⊢
    rw [← sameTarget] at started
    rw [← sameSource]
    apply checked.predecessors edge isEdge _ _ started
    · rw [sameSource]
      exact cleanGraph.truthy source isSource
    · rw [sameTarget]
      exact cleanGraph.truthy target isTarget

end Verdict

/-- A candidate that is reported to conform can take the place of the current
graph exactly if texts tell its tasks apart, its edges name tasks by their own
identifiers, and no running task gets an empty value for its agent. -/
theorem conforming_candidate_iff
    {env : CheckEnv} {candidateGraph baseGraph runDoc report : Fields}
    {shaclEngine : Option Fields}
    (reported :
      validateCandidateGraph env candidateGraph baseGraph runDoc
        shaclEngine = .ok report)
    (conforms : (report.get "conforms").truthy = true) :
    ReplacesSafely env.python baseGraph candidateGraph runDoc ↔
      TextsTellApart env.python candidateGraph ∧
        EdgesNameTasks candidateGraph ∧
          NoEmptyAgents env.python baseGraph candidateGraph runDoc := by
  obtain ⟨structural, constrained⟩ :=
    validateCandidateGraph_clean reported conforms
  obtain ⟨taskIds, cleanGraph⟩ := structural.cleanGraph
  have checked := runtimeChecked_of_ok constrained
  constructor
  · exact ReplacesSafely.condition cleanGraph
  · rintro ⟨tellApart, named, agents⟩
    exact
      replacesSafely_of_condition cleanGraph checked tellApart named
        agents

/-! ## A running task, and a value that is no agent -/

def plainChecks : CheckEnv where
  python := plainEnv.python
  checkedAt := "2025-01-01T00:00:00+00:00"
  ruleset := none

def collectTask (agent : Json) : Fields :=
  [("task_id", .str "collect"), ("assigned_agent", agent),
    ("required_capabilities", .list [.str "search"])]

def collectGraph (agent : Json) : Fields :=
  [("tasks", .list [.dict (collectTask agent)]), ("edges", .list [])]

def collectRunning : Fields :=
  [("tasks", .dict
    [("collect", .dict [("status", .str "RUNNING")])])]

theorem graphItems_collectGraph (agent : Json) :
    graphItems (collectGraph agent) "tasks" = [collectTask agent] :=
  rfl

/-- A candidate with the same agent. -/
theorem unchanged_candidate_is_safe :
    ReplacesSafely plainChecks.python (collectGraph (.str "agent-1"))
      (collectGraph (.str "agent-1")) collectRunning := by
  have judged :
      ((validateCandidateGraph plainChecks
          (collectGraph (.str "agent-1")) (collectGraph (.str "agent-1"))
          collectRunning none).toOption.map fun report =>
            (report.get "conforms").truthy) = some true := by
    decide +kernel
  obtain ⟨report, computed, conforms⟩ := Option.map_eq_some_iff.mp judged
  rw [toOption_eq_some] at computed
  refine (conforming_candidate_iff computed conforms).mpr ⟨?_, ?_, ?_⟩
  · intro first isFirst second isSecond _
    rw [graphItems_collectGraph, List.mem_singleton] at isFirst isSecond
    rw [isFirst, isSecond]
  · intro edge isEdge
    cases isEdge
  · intro name _ base _ _ task isTask _
    rw [graphItems_collectGraph, List.mem_singleton] at isTask
    rw [isTask]
    rfl

/-- `False` is neither `None` nor the empty text, so the structural checks
take it for an agent, and the checks against the run do not compare it. -/
theorem running_task_loses_its_agent :
    ∃ report,
      validateCandidateGraph plainChecks (collectGraph (.bool false))
          (collectGraph (.str "agent-1")) collectRunning none =
        .ok report ∧
      (report.get "conforms").truthy = true ∧
      ¬ ReplacesSafely plainChecks.python (collectGraph (.str "agent-1"))
        (collectGraph (.bool false)) collectRunning := by
  have judged :
      ((validateCandidateGraph plainChecks (collectGraph (.bool false))
          (collectGraph (.str "agent-1")) collectRunning
          none).toOption.map fun report =>
            (report.get "conforms").truthy) = some true := by
    decide +kernel
  obtain ⟨report, computed, conforms⟩ := Option.map_eq_some_iff.mp judged
  rw [toOption_eq_some] at computed
  refine ⟨report, computed, conforms, ?_⟩
  intro safely
  have running :
      "collect" ∈ runningTasks plainChecks.python collectRunning := by
    decide +kernel
  have kept := safely.keepsAgents "collect" running
    (collectTask (.str "agent-1")) rfl rfl (collectTask (.bool false))
    List.mem_cons_self rfl
  revert kept
  decide

end Agentcy.Plans
