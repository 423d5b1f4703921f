import Agentcy.Library.PyJson
import Agentcy.Library.PyText
import Agentcy.Library.Kahn
import Mathlib.Data.List.Sort

/-!
# The structural checks of the plan validator

`_validate_graph_spec` and its helpers.  A graph specification is an arbitrary
JSON object, so that every access can fail the way Python's does; a plan
conforms when the checks run through and report nothing.
-/

namespace Agentcy.Plans

open Agentcy.Library

/-- An entry of the report, a dict with a code and a message. -/
abbrev Violation := Fields

def violation (code message : String) (details : Fields) : Violation :=
  ("code", .str code) :: ("message", .str message) :: details

/-- The three vocabularies of the ontology, sets of stripped strings. -/
structure Ontology where
  capabilities : List String := []
  tags : List String := []
  taskTypes : List String := []

/-- `_extract_task_ids`, from the task at `index` on, where `seen` are the
keys of the identifiers found before. -/
def extractTaskIds (python : PyBuiltins) :
    Nat → List Json.Key → List Json →
      Except PyError (List Json.Key × List Violation)
  | _, _, [] => .ok ([], [])
  | index, seen, task :: rest => do
      let fields ← task.fields
      let taskId := fields.get "task_id"
      if taskId.truthy then
        let key ← taskId.hash
        let name := taskId.pyStr python
        if key ∈ seen then
          let (taskIds, violations) ←
            extractTaskIds python (index + 1) seen rest
          return (taskIds,
            violation "duplicate_task_id" s!"Duplicate task_id '{name}'"
              [("task_id", taskId)] :: violations)
        else
          let (taskIds, violations) ←
            extractTaskIds python (index + 1) (key :: seen) rest
          let assigned := fields.get "assigned_agent"
          if assigned.pyEq .null || assigned.pyEq (.str "") then
            return (key :: taskIds,
              violation "missing_assignment"
                s!"Task '{name}' missing assigned_agent"
                [("task_id", taskId)] :: violations)
          else
            return (key :: taskIds, violations)
      else
        let (taskIds, violations) ←
          extractTaskIds python (index + 1) seen rest
        return (taskIds,
          violation "missing_task_id" "Task missing task_id"
            [("index", .int index)] :: violations)

/-- `value in task_ids` for the list of task identifiers, where lists and
dicts are in no such list. -/
def listed (taskIds : List Json.Key) (value : Json) : Bool :=
  match value.key? with
  | some key => decide (key ∈ taskIds)
  | none => false

/-- The violations of the edges, each of which must join two tasks. -/
def edgeViolations (python : PyBuiltins) (taskIds : List Json.Key) :
    List Json → Except PyError (List Violation)
  | [] => .ok []
  | edge :: rest => do
      let fields ← edge.fields
      let source := fields.get "from"
      let target := fields.get "to"
      let violations ← edgeViolations python taskIds rest
      if listed taskIds source && listed taskIds target then
        return violations
      else
        let sourceName := source.pyStr python
        let targetName := target.pyStr python
        return violation "edge_missing_task"
          s!"Edge {sourceName}->{targetName} references unknown task"
          [("from", source), ("to", target)] :: violations

/-- The edges that `_detect_cycle` keeps: those between known tasks.  The
target is looked up only after the source. -/
def knownEdges (taskIds : List Json.Key) :
    List Json → Except PyError (List (Json.Key × Json.Key))
  | [] => .ok []
  | edge :: rest => do
      let fields ← edge.fields
      let source ← (fields.get "from").hash
      if source ∈ taskIds then
        let target ← (fields.get "to").hash
        let edges ← knownEdges taskIds rest
        return if target ∈ taskIds then (source, target) :: edges else edges
      else
        knownEdges taskIds rest

/-- `_detect_cycle`: the queue is served from its end, and a cycle is found
when some task is never served. -/
def detectCycle (taskIds : List Json.Key) (edges : List Json) :
    Except PyError Bool := do
  let known ← knownEdges taskIds edges
  let indegree := fun taskId => (Kahn.incoming known taskId : Int)
  let final :=
    Kahn.loop .lifo (Kahn.outgoing known) taskIds.length
      { queue := taskIds.filter fun taskId => indegree taskId == 0
        indegree := indegree }
  return decide (final.served.length ≠ taskIds.length)

/-- The stripped strings of one vocabulary, or its violation. -/
def vocabulary (key : String) (values : Json) :
    List String × List Violation :=
  match values with
  | .null => ([], [])
  | .list items =>
      (items.filterMap fun item =>
        match item with
        | .str text =>
            if PyText.strip text ≠ "" then some (PyText.strip text)
            else none
        | _ => none, [])
  | _ =>
      ([], [violation "invalid_ontology_values"
        s!"Ontology '{key}' must be a list" []])

/-- `_parse_ontology`. -/
def parseOntology (graphSpec : Fields) : Ontology × List Violation :=
  match graphSpec.get "ontology" with
  | .null => ({}, [])
  | .dict raw =>
      let capabilities :=
        vocabulary "capabilities" (Fields.get raw "capabilities")
      let tags := vocabulary "tags" (Fields.get raw "tags")
      let taskTypes := vocabulary "task_types" (Fields.get raw "task_types")
      ({ capabilities := capabilities.1
         tags := tags.1
         taskTypes := taskTypes.1 },
        capabilities.2 ++ tags.2 ++ taskTypes.2)
  | _ =>
      ({}, [violation "invalid_ontology" "Ontology must be an object" []])

/-- The items that are not in the vocabulary, whose lookup hashes them. -/
def unknownItems (words : List String) (items : List Json) :
    Except PyError (List Json) :=
  items.filterM fun item => do
    let key ← item.hash
    return decide (key ∉ words.map Json.Key.str)

def blankCapability (capability : Json) : Bool :=
  match capability with
  | .str text => decide (PyText.strip text = "")
  | _ => true

def capabilityViolations (ontology : Ontology) (taskId : Json)
    (required : Json) : Except PyError (List Violation) :=
  match required with
  | .list [] =>
      .ok [violation "missing_required_capabilities"
        "Task missing required_capabilities" [("task_id", taskId)]]
  | .list capabilities => do
      let invalid :=
        if capabilities.any blankCapability then
          [violation "invalid_capability"
            "Task has invalid capability values" [("task_id", taskId)]]
        else []
      if ontology.capabilities ≠ [] then
        let unknown ← unknownItems ontology.capabilities capabilities
        if unknown ≠ [] then
          return invalid ++ [violation "unknown_capability"
            "Task references capabilities outside ontology"
            [("task_id", taskId), ("unknown", .list unknown)]]
        else
          return invalid
      else
        return invalid
  | _ =>
      .ok [violation "invalid_required_capabilities"
        "required_capabilities must be a list" [("task_id", taskId)]]

def tagViolations (ontology : Ontology) (taskId : Json) (tags : Json) :
    Except PyError (List Violation) :=
  match tags with
  | .null => .ok []
  | .list items =>
      if ontology.tags ≠ [] then do
        let unknown ← unknownItems ontology.tags items
        if unknown ≠ [] then
          return [violation "unknown_tag"
            "Task references tags outside ontology"
            [("task_id", taskId), ("unknown", .list unknown)]]
        else
          return []
      else
        .ok []
  | _ =>
      .ok [violation "invalid_tags" "tags must be a list when provided"
        [("task_id", taskId)]]

def taskTypeViolations (ontology : Ontology) (taskId : Json)
    (taskType : Json) : Except PyError (List Violation) :=
  if ontology.taskTypes = [] then
    .ok []
  else if taskType.truthy then do
    let key ← taskType.hash
    if key ∈ ontology.taskTypes.map Json.Key.str then
      return []
    else
      return [violation "unknown_task_type"
        "Task type not defined in ontology"
        [("task_id", taskId), ("task_type", taskType)]]
  else
    .ok [violation "missing_task_type"
      "Task missing task_type required by ontology" [("task_id", taskId)]]

def taskViolations (ontology : Ontology) (task : Json) :
    Except PyError (List Violation) := do
  let fields ← task.fields
  let taskId := fields.get "task_id"
  let capabilities ←
    capabilityViolations ontology taskId
      (fields.get "required_capabilities")
  let tags ← tagViolations ontology taskId (fields.get "tags")
  let taskType ←
    taskTypeViolations ontology taskId (fields.get "task_type")
  return capabilities ++ tags ++ taskType

/-! ## The whole graph -/

/-- What the checks found out about a graph. -/
structure Checked where
  taskIds : List Json.Key
  edges : List Json
  ontology : Ontology
  violations : List Violation

/-- The cycle check is made only when there are tasks and edges. -/
def containsCycle (taskIds : List Json.Key) (edges : List Json) :
    Except PyError Bool :=
  if taskIds.isEmpty || edges.isEmpty then .ok false
  else detectCycle taskIds edges

/-- The checks of `_validate_graph_spec`. -/
def checkGraphSpec (python : PyBuiltins) (graphSpec : Fields) :
    Except PyError Checked := do
  let tasks ← (graphSpec.get "tasks").itemsOrEmpty
  let edges ← (graphSpec.get "edges").itemsOrEmpty
  let (ontology, ontologyViolations) := parseOntology graphSpec
  let noTasks :=
    if tasks.isEmpty then
      [violation "no_tasks" "Graph has no tasks" []]
    else []
  let (taskIds, idViolations) ← extractTaskIds python 0 [] tasks
  let edgeViolations ← edgeViolations python taskIds edges
  let cyclic ← containsCycle taskIds edges
  let cycle :=
    if cyclic then
      [violation "cycle_detected" "Graph contains a cycle" []]
    else []
  let perTask ← tasks.mapM (taskViolations ontology)
  return {
    taskIds := taskIds
    edges := edges
    ontology := ontology
    violations :=
      ontologyViolations ++ noTasks ++ idViolations ++ edgeViolations ++
        cycle ++ perTask.flatten }

/-- The rule file that the report names, when there is one. -/
structure Ruleset where
  path : String
  version : Json
  digest : String

/-- What a check reads outside the graph. -/
structure CheckEnv where
  python : PyBuiltins
  checkedAt : String
  ruleset : Option Ruleset

def sortedWords (words : List String) : Json :=
  .list ((words.dedup.insertionSort (· ≤ ·)).map .str)

def ontologyReport (ontology : Ontology) : Fields :=
  [("capabilities", ontology.capabilities), ("tags", ontology.tags),
    ("task_types", ontology.taskTypes)].filterMap fun entry =>
      if entry.2 = [] then none else some (entry.1, sortedWords entry.2)

/-- `_validate_graph_spec`. -/
def validateGraphSpec (env : CheckEnv) (graphSpec : Fields) :
    Except PyError Fields := do
  let checked ← checkGraphSpec env.python graphSpec
  let report : Fields :=
    [("conforms", .bool checked.violations.isEmpty),
      ("checked_at", .str env.checkedAt),
      ("stats", .dict
        [("task_count", .int checked.taskIds.length),
          ("edge_count", .int checked.edges.length)]),
      ("ontology", .dict (ontologyReport checked.ontology)),
      ("violations", .list (checked.violations.map .dict))]
  match env.ruleset with
  | none => return report
  | some ruleset =>
      return report ++
        [("ruleset", .dict
          [("path", .str ruleset.path), ("version", ruleset.version),
            ("hash", .str ruleset.digest)])]

/-- The checks run through and report no violation. -/
def Conforms (python : PyBuiltins) (graphSpec : Fields) : Prop :=
  ∃ checked, checkGraphSpec python graphSpec = .ok checked ∧
    checked.violations = []

instance (python : PyBuiltins) (graphSpec : Fields) :
    Decidable (Conforms python graphSpec) :=
  match result : checkGraphSpec python graphSpec with
  | .error _ =>
      .isFalse (by
        rintro ⟨checked, succeeded, _⟩
        rw [result] at succeeded
        cases succeeded)
  | .ok checked =>
      decidable_of_iff (checked.violations.isEmpty = true) (by
        simp [Conforms, result])

theorem extractTaskIds_nodup
    {python : PyBuiltins} {index : Nat} {seen : List Json.Key}
    {tasks : List Json} {taskIds : List Json.Key}
    {violations : List Violation}
    (extracted :
      extractTaskIds python index seen tasks = .ok (taskIds, violations)) :
    taskIds.Nodup ∧ ∀ taskId ∈ taskIds, taskId ∉ seen := by
  induction tasks generalizing index seen taskIds violations with
  | nil =>
      cases extracted
      simp
  | cons task rest inductionHypothesis =>
      rw [extractTaskIds, bind_eq_ok] at extracted
      obtain ⟨fields, _, extracted⟩ := extracted
      dsimp only at extracted
      split at extracted
      · rw [bind_eq_ok] at extracted
        obtain ⟨key, _, extracted⟩ := extracted
        split at extracted
        · rw [bind_eq_ok] at extracted
          obtain ⟨found, later, extracted⟩ := extracted
          cases extracted
          exact inductionHypothesis later
        · rename_i unseen
          rw [bind_eq_ok] at extracted
          obtain ⟨found, later, extracted⟩ := extracted
          obtain ⟨nodup, fresh⟩ := inductionHypothesis later
          have absent : key ∉ found.1 := by
            intro again
            exact fresh key again List.mem_cons_self
          have both : (key :: found.1).Nodup ∧
              ∀ taskId ∈ key :: found.1, taskId ∉ seen := by
            refine ⟨List.nodup_cons.mpr ⟨absent, nodup⟩, ?_⟩
            intro taskId member before
            rcases List.mem_cons.mp member with rfl | among
            · exact unseen before
            · exact fresh taskId among (List.mem_cons_of_mem _ before)
          split at extracted
          · cases extracted
            exact both
          · cases extracted
            exact both
      · rw [bind_eq_ok] at extracted
        obtain ⟨found, later, extracted⟩ := extracted
        cases extracted
        exact inductionHypothesis later

theorem knownEdges_inside
    {taskIds : List Json.Key} {edges : List Json}
    {known : List (Json.Key × Json.Key)}
    (kept : knownEdges taskIds edges = .ok known) :
    ∀ edge ∈ known, edge.1 ∈ taskIds ∧ edge.2 ∈ taskIds := by
  induction edges generalizing known with
  | nil =>
      cases kept
      simp
  | cons edge rest inductionHypothesis =>
      rw [knownEdges, bind_eq_ok] at kept
      obtain ⟨fields, _, kept⟩ := kept
      rw [bind_eq_ok] at kept
      obtain ⟨source, _, kept⟩ := kept
      split at kept
      · rename_i sourceKnown
        rw [bind_eq_ok] at kept
        obtain ⟨target, _, kept⟩ := kept
        rw [bind_eq_ok] at kept
        obtain ⟨later, keptLater, kept⟩ := kept
        have inside := inductionHypothesis keptLater
        split at kept
        · rename_i targetKnown
          cases kept
          intro other member
          rcases List.mem_cons.mp member with rfl | among
          · exact ⟨sourceKnown, targetKnown⟩
          · exact inside other among
        · cases kept
          exact inside
      · exact inductionHypothesis kept

/-- The cycle check is right about the edges between known tasks. -/
theorem detectCycle_iff
    {taskIds : List Json.Key} {edges : List Json}
    {known : List (Json.Key × Json.Key)}
    (nodup : taskIds.Nodup)
    (kept : knownEdges taskIds edges = .ok known) :
    detectCycle taskIds edges = .ok false ↔
      ∀ taskId,
        ¬ Relation.TransGen
          (fun source target => (source, target) ∈ known)
          taskId taskId := by
  rw [← Kahn.length_served_ofEdges_iff .lifo nodup
    (knownEdges_inside kept)]
  simp [detectCycle, kept, bind, Except.bind, pure, Except.pure]

/-- The tasks of a conforming graph have distinct identifiers, and its edges
between them form no cycle. -/
theorem Conforms.acyclic
    {python : PyBuiltins} {graphSpec : Fields}
    (conforms : Conforms python graphSpec) :
    ∃ checked, checkGraphSpec python graphSpec = .ok checked ∧
      checked.taskIds.Nodup ∧
      ∀ known, knownEdges checked.taskIds checked.edges = .ok known →
        ∀ taskId,
          ¬ Relation.TransGen
            (fun source target => (source, target) ∈ known)
            taskId taskId := by
  obtain ⟨checked, succeeded, clean⟩ := conforms
  refine ⟨checked, succeeded, ?_⟩
  rw [checkGraphSpec, bind_eq_ok] at succeeded
  obtain ⟨tasks, _, succeeded⟩ := succeeded
  rw [bind_eq_ok] at succeeded
  obtain ⟨edges, _, succeeded⟩ := succeeded
  dsimp only at succeeded
  rw [bind_eq_ok] at succeeded
  obtain ⟨⟨taskIds, idViolations⟩, extracted, succeeded⟩ := succeeded
  dsimp only at succeeded
  rw [bind_eq_ok] at succeeded
  obtain ⟨ofEdges, _, succeeded⟩ := succeeded
  rw [bind_eq_ok] at succeeded
  obtain ⟨cyclic, detected, succeeded⟩ := succeeded
  rw [bind_eq_ok] at succeeded
  obtain ⟨perTask, _, succeeded⟩ := succeeded
  cases succeeded
  have nodup := (extractTaskIds_nodup extracted).1
  refine ⟨nodup, ?_⟩
  intro known kept
  dsimp only at kept
  have uncyclic : cyclic = false := by
    by_contra cycle
    rw [Bool.not_eq_false] at cycle
    simp [cycle] at clean
  rw [uncyclic, containsCycle] at detected
  split at detected
  · rename_i trivially
    have nothing : known = [] := by
      rw [Bool.or_eq_true, List.isEmpty_iff, List.isEmpty_iff]
        at trivially
      rcases trivially with noTasks | noEdges
      · apply List.eq_nil_iff_forall_not_mem.mpr
        intro edge among
        have inside := (knownEdges_inside kept edge among).1
        rw [noTasks] at inside
        cases inside
      · rw [noEdges] at kept
        cases kept
        rfl
    intro taskId cycle
    obtain ⟨next, edge, _⟩ := Relation.TransGen.head'_iff.mp cycle
    rw [nothing] at edge
    cases edge
  · exact (detectCycle_iff nodup kept).mp detected

/-- The checks read three fields of the graph and no others. -/
theorem checkGraphSpec_congr
    (python : PyBuiltins) {graphSpec other : Fields}
    (tasks : graphSpec.get "tasks" = other.get "tasks")
    (edges : graphSpec.get "edges" = other.get "edges")
    (ontology : graphSpec.get "ontology" = other.get "ontology") :
    checkGraphSpec python graphSpec = checkGraphSpec python other := by
  have sameOntology : parseOntology graphSpec = parseOntology other := by
    rw [parseOntology, parseOntology, ontology]
  rw [checkGraphSpec, checkGraphSpec, tasks, edges, sameOntology]

/-- Writing another field of the graph does not change the verdict. -/
theorem conforms_set_iff
    (python : PyBuiltins) (graphSpec : Fields) {name : String}
    (value : Json)
    (unread : name ∉ ["tasks", "edges", "ontology"]) :
    Conforms python (Fields.set graphSpec name value) ↔
      Conforms python graphSpec := by
  have kept : ∀ read ∈ ["tasks", "edges", "ontology"],
      (Fields.set graphSpec name value).get read =
        graphSpec.get read := by
    intro read member
    apply Fields.get_set_other
    rintro rfl
    exact unread member
  rw [Conforms, Conforms,
    checkGraphSpec_congr python (kept "tasks" (by simp))
      (kept "edges" (by simp)) (kept "ontology" (by simp))]

/-- The report of a graph that conforms says so, and no other report does. -/
theorem validateGraphSpec_conforms
    {env : CheckEnv} {graphSpec report : Fields}
    (reported : validateGraphSpec env graphSpec = .ok report) :
    (report.get "conforms").truthy = true ↔
      Conforms env.python graphSpec := by
  rw [validateGraphSpec, bind_eq_ok] at reported
  obtain ⟨checked, succeeded, reported⟩ := reported
  have verdict :
      (report.get "conforms").truthy = checked.violations.isEmpty := by
    dsimp only at reported
    split at reported
    · cases reported
      rfl
    · cases reported
      rfl
  rw [verdict, Conforms, succeeded]
  simp

end Agentcy.Plans
