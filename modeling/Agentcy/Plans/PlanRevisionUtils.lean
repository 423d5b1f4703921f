import Agentcy.Plans.PlanValidator

/-!
# Deltas and candidate graphs

`apply_delta` rewrites the tasks and edges of a graph, and
`validate_candidate_graph` judges the result: the structural checks, the
SHACL engine, and what the tasks that already ran allow.
-/

namespace Agentcy.Plans

open Agentcy.Library

/-- The lookup `overrides.get(task_id)`, which hashes its argument; the keys
of the overrides are strings. -/
def overrideFor (overrides : Fields) (taskId : Json) :
    Except PyError Json := do
  match ← taskId.hash with
  | .str name => return overrides.get name
  | _ => return .null

/-- The first part of `apply_delta`: every task with an identifier takes the
patch that is named after it.  The number counts the patches. -/
def overrideTasks (overrides : Fields) :
    List Fields → Except PyError (List Fields × Nat)
  | [] => .ok ([], 0)
  | task :: rest => do
      let taskId := task.get "task_id"
      if taskId.truthy then
        let patch ← overrideFor overrides taskId
        let (changed, applied) ← overrideTasks overrides rest
        match patch with
        | .dict patch => return (task.update patch :: changed, applied + 1)
        | _ => return (task :: changed, applied)
      else
        let (changed, applied) ← overrideTasks overrides rest
        return (task :: changed, applied)

/-- `edge.get("from") not in remove_set and edge.get("to") not in remove_set`,
for a set of strings. -/
def avoidsRemoved (removeSet : List String) (edge : Fields) :
    Except PyError Bool := do
  let source ← (edge.get "from").hash
  if source ∈ removeSet.map Json.Key.str then
    return false
  else
    let target ← (edge.get "to").hash
    return decide (target ∉ removeSet.map Json.Key.str)

/-- The pair under which `apply_delta` compares edges. -/
def edgePair (edge : Fields) : Except PyError (Json.Key × Json.Key) := do
  let source ← (edge.get "from").hash
  let target ← (edge.get "to").hash
  return (source, target)

/-- The dicts among the items of a list. -/
def dicts (items : List Json) : List Fields :=
  items.filterMap fun item =>
    match item with
    | .dict fields => some fields
    | _ => none

/-- `apply_delta`: the new graph and the number of changes. -/
def applyDelta (python : PyBuiltins) (graphSpec delta : Fields) :
    Except PyError (Fields × Nat) := do
  let tasks ←
    (← (graphSpec.get "tasks").itemsOrEmpty).mapM (Json.toDict python)
  let edges ←
    (← (graphSpec.get "edges").itemsOrEmpty).mapM (Json.toDict python)
  let (tasks, overridden) ←
    match delta.get "task_overrides" with
    | .dict overrides => overrideTasks overrides tasks
    | _ => pure (tasks, 0)
  let removeSet :=
    match delta.get "remove_tasks" with
    | .list removeIds => (removeIds.map (Json.pyStr python)).dedup
    | _ => []
  let tasks :=
    tasks.filter fun task =>
      decide ((task.get "task_id").pyStr python ∉ removeSet)
  let edges ←
    if removeSet.isEmpty then pure edges
    else edges.filterM (avoidsRemoved removeSet)
  let added :=
    match delta.get "add_tasks" with
    | .list addTasks =>
        (dicts addTasks).filter fun task => (task.get "task_id").truthy
    | _ => []
  let addedEdges :=
    match delta.get "add_edges" with
    | .list addEdges =>
        (dicts addEdges).filter fun edge =>
          (edge.get "from").truthy && (edge.get "to").truthy
    | _ => []
  let removePairs ←
    match delta.get "remove_edges" with
    | .list removeEdges => do
        let pairs ← (dicts removeEdges).mapM edgePair
        pure pairs.dedup
    | _ => pure []
  let edges := edges ++ addedEdges
  let edges ←
    if removePairs.isEmpty then pure edges
    else edges.filterM fun edge => do
      let pair ← edgePair edge
      return decide (pair ∉ removePairs)
  let updated :=
    Fields.set graphSpec "tasks" (.list ((tasks ++ added).map .dict))
  pure <|
    (Fields.set updated "edges" (.list (edges.map .dict)),
      overridden + removeSet.length + added.length + addedEdges.length +
        removePairs.length)

/-- `_task_status`. -/
def taskStatus (python : PyBuiltins) (value : Json) : Option String :=
  match value with
  | .null => none
  | _ => some (python.upper (value.pyStr python))

/-- The names of the run's tasks with the given status. -/
def tasksWithStatus (status : String)
    (statuses : List (String × Option String)) : List String :=
  statuses.filterMap fun entry =>
    if entry.2 = some status then some entry.1 else none

/-- `_task_map`: tasks by the text of their identifiers, later ones first. -/
def taskMap (python : PyBuiltins) :
    List Json → Except PyError (List (String × Fields))
  | [] => .ok []
  | task :: rest => do
      let fields ← task.fields
      let taskId := fields.get "task_id"
      let later ← taskMap python rest
      return if taskId.truthy then
        later ++ [(taskId.pyStr python, fields)]
      else later

/-- The candidate's edges as pairs of texts, less those with an empty end. -/
def predecessorPairs (python : PyBuiltins) :
    List Json → Except PyError (List (String × String))
  | [] => .ok []
  | edge :: rest => do
      let fields ← edge.fields
      let source := fields.get "from"
      let target := fields.get "to"
      let later ← predecessorPairs python rest
      return if source.truthy && target.truthy then
        (source.pyStr python, target.pyStr python) :: later
      else later

def sortedNames (names : List String) : List String :=
  names.dedup.insertionSort (· ≤ ·)

def removedTaskViolations
    (candidates : List (String × Fields)) (started : List String) :
    List Violation :=
  (sortedNames started).filterMap fun taskId =>
    match OrderedMap.lookupEntries taskId candidates with
    | some _ => none
    | none =>
        some (violation "remove_started_task"
          s!"Task '{taskId}' already started and cannot be removed"
          [("task_id", .str taskId)])

def reassignedTaskViolations
    (bases candidates : List (String × Fields)) (running : List String) :
    List Violation :=
  (sortedNames running).filterMap fun taskId => do
    let base ← OrderedMap.lookupEntries taskId bases
    let candidate ← OrderedMap.lookupEntries taskId candidates
    let baseAgent := base.get "assigned_agent"
    let candidateAgent := candidate.get "assigned_agent"
    if baseAgent.truthy && candidateAgent.truthy &&
        !baseAgent.pyEq candidateAgent then
      some (violation "running_assignment_change"
        s!"Task '{taskId}' is running; assigned_agent cannot change"
        [("task_id", .str taskId), ("from", baseAgent),
          ("to", candidateAgent)])
    else
      none

def newPrerequisiteViolations
    (pairs : List (String × String)) (completed running : List String) :
    List Violation :=
  (sortedNames (completed ++ running)).filterMap fun taskId =>
    let predecessors :=
      (pairs.filter fun pair => decide (pair.2 = taskId)).map Prod.fst
    let invalid :=
      predecessors.dedup.filter fun source => decide (source ∉ completed)
    if invalid.isEmpty then
      none
    else
      some (violation "invalid_runtime_dependency"
        s!"Task '{taskId}' already started; new dependencies are not allowed"
        [("task_id", .str taskId),
          ("invalid_predecessors", .list (invalid.map .str))])

/-- The names and statuses of the tasks in a run document. -/
def runStatuses (python : PyBuiltins) (runTasks : Fields) :
    Except PyError (List (String × Option String)) :=
  runTasks.mapM fun entry => do
    let fields ← entry.2.fields
    return (entry.1, taskStatus python (fields.get "status"))

/-- `validate_runtime_constraints`. -/
def validateRuntimeConstraints (python : PyBuiltins)
    (baseGraph candidateGraph runDoc : Fields) :
    Except PyError (List Violation) := do
  let runTasks := runDoc.get "tasks"
  let statuses ←
    match runTasks with
    | .dict runTasks => runStatuses python runTasks
    | _ => pure []
  -- A run document whose tasks are neither a dict nor empty is not judged.
  if runTasks.truthy && runTasks.fields.toBool = false then
    return []
  let completed := tasksWithStatus "COMPLETED" statuses
  let running := tasksWithStatus "RUNNING" statuses
  let failed := tasksWithStatus "FAILED" statuses
  let bases ← taskMap python (← (baseGraph.get "tasks").itemsOrEmpty)
  let candidates ←
    taskMap python (← (candidateGraph.get "tasks").itemsOrEmpty)
  let pairs ←
    predecessorPairs python (← (candidateGraph.get "edges").itemsOrEmpty)
  pure <|
    removedTaskViolations candidates (completed ++ running ++ failed) ++
      reassignedTaskViolations bases candidates running ++
      newPrerequisiteViolations pairs completed running

/-! ## Judging a candidate -/

/-- `validate_candidate_graph`, where `shaclEngine` is the answer of the SHACL
engine, if there is one. -/
def validateCandidateGraph (env : CheckEnv)
    (candidateGraph baseGraph runDoc : Fields)
    (shaclEngine : Option Fields) : Except PyError Fields := do
  let staticReport ← validateGraphSpec env candidateGraph
  let shaclReport : Fields :=
    shaclEngine.getD
      [("conforms", .null), ("error", .str "shacl_engine_unavailable")]
  let shaclOk :=
    match shaclEngine with
    | none => true
    | some report => (report.get "conforms").truthy
  let runtimeViolations ←
    validateRuntimeConstraints env.python baseGraph candidateGraph runDoc
  pure <|
    [("checked_at", .str env.checkedAt),
      ("static", .dict staticReport),
      ("shacl_engine", .dict shaclReport),
      ("runtime", .dict
        [("conforms", .bool runtimeViolations.isEmpty),
          ("violations", .list (runtimeViolations.map .dict))]),
      ("conforms", .bool
        ((staticReport.get "conforms").truthy && shaclOk &&
          runtimeViolations.isEmpty))]

/-- A candidate that is reported to conform passes the structural checks and
those against the run. -/
theorem validateCandidateGraph_clean
    {env : CheckEnv} {candidateGraph baseGraph runDoc report : Fields}
    {shaclEngine : Option Fields}
    (reported :
      validateCandidateGraph env candidateGraph baseGraph runDoc
        shaclEngine = .ok report)
    (conforms : (report.get "conforms").truthy = true) :
    Conforms env.python candidateGraph ∧
      validateRuntimeConstraints env.python baseGraph candidateGraph
        runDoc = .ok [] := by
  unfold validateCandidateGraph at reported
  rw [bind_eq_ok] at reported
  obtain ⟨staticReport, checked, reported⟩ := reported
  dsimp only at reported
  rw [bind_eq_ok] at reported
  obtain ⟨runtimeViolations, constrained, reported⟩ := reported
  cases reported
  change
    ((staticReport.get "conforms").truthy && _ &&
      runtimeViolations.isEmpty) = true at conforms
  rw [Bool.and_eq_true, Bool.and_eq_true] at conforms
  rw [List.isEmpty_iff.mp conforms.2] at constrained
  exact
    ⟨(validateGraphSpec_conforms checked).mp conforms.1.1, constrained⟩

theorem validateCandidateGraph_sound
    {env : CheckEnv} {candidateGraph baseGraph runDoc report : Fields}
    {shaclEngine : Option Fields}
    (reported :
      validateCandidateGraph env candidateGraph baseGraph runDoc
        shaclEngine = .ok report)
    (conforms : (report.get "conforms").truthy = true) :
    Conforms env.python candidateGraph :=
  (validateCandidateGraph_clean reported conforms).1

end Agentcy.Plans
