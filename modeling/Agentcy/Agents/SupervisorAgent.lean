import Agentcy.Agents.AgentUtils
import Agentcy.Library.MarkedNames

/-!
# The supervisor agent without a language model

`_stub_generate_specs` makes a task spec of every dict among the candidates of
the payload.  An entry without an id gets one from its index, and a repeated
id is extended by the index.
-/

namespace Agentcy.Agents

open Agentcy.Cnp (RiskLevel TaskSpec)
open Agentcy.Library
open Agentcy.Plans (orElse)

/-- The conversions of numbers.  `coerceInt` and `coerceFloat` return `none`
inside for a value that is no number, and fail where another exception than
`TypeError` or `ValueError` leaves them; `floatOf` fails for integers that no
`float` holds. -/
structure SupervisorEnv where
  python : PyBuiltins
  coerceInt : Json → Option (Option Int)
  coerceFloat : Json → Option (Option Rat)
  floatOf : Int → Option Rat

def stubCandidates (payload : Fields) : List Json :=
  match orElse (orElse (payload.get "task_specs") (payload.get "tasks"))
      (payload.get "task_spec") with
  | .dict fields => [.dict fields]
  | .list items => items
  | _ => []

/-- The id an entry asks for. -/
def requestedId (idx : Nat) (item : Fields) : String :=
  PyText.strip
    (match item.get "task_id" with
    | .str taskId =>
        if PyText.strip taskId = "" then s!"stub-task-{idx}" else taskId
    | _ => s!"stub-task-{idx}")

/-- The id of a repeated entry. -/
def numberedId (idx : Nat) (taskId : String) : String :=
  taskId ++ "-" ++ toString idx

def defaultPriority (risk : String) : Int :=
  if risk = "high" then 5 else if risk = "low" then 1 else 3

def defaultStimulus (priority : Int) : Rat :=
  2 / 10 + (priority - 1) / 4 * (6 / 10)

def defaultReward (priority : Int) : Rat :=
  1 / 10 + priority

/-- `_coerce_risk_level` on one of the three words. -/
def riskLevelOf (risk : String) : RiskLevel :=
  if risk = "low" then .low else if risk = "high" then .high else .medium

/-- `metadata.setdefault(name, value)`. -/
def setDefault (fields : Fields) (name : String) (value : Json) : Fields :=
  if (OrderedMap.lookupEntries name fields).isSome then fields
  else fields.set name value

section Stub

variable (env : SupervisorEnv) (payload : Fields)
  (pipelineId runId : String)

def riskRaw (item : Fields) : String :=
  let risk := env.python.lower
    ((orElse (orElse (item.get "risk_level") (payload.get "risk_level"))
      (.str "medium")).pyStr env.python)
  if risk ∈ ["low", "medium", "high"] then risk else "medium"

/-- The spec of one entry, whose id is settled. -/
def stubSpec (idx : Nat) (item : Fields) (taskId : String) :
    Option TaskSpec := do
  let description :=
    (orElse
      (orElse (item.get "description") (item.get "task_description"))
      (.str s!"Task {idx}")).pyStr env.python
  let requiredCapabilities :=
    match orElse (item.get "required_capabilities")
        (item.get "capabilities") with
    | .list (cap :: caps) => asList env.python (.list (cap :: caps))
    | _ => ["general"]
  let tags :=
    match item.get "tags" with
    | .list tags => asList env.python (.list tags)
    | _ => []
  let risk := riskRaw env payload item
  let requiresHuman :=
    match item.get "requires_human_approval" with
    | .bool required => required
    | _ => decide (risk = "high")
  let inferredType := requiredCapabilities.headD "general"
  let taskType :=
    match item.get "task_type" with
    | .str given =>
        if PyText.strip given = "" then inferredType else given
    | _ => inferredType
  let given := (← env.coerceInt (item.get "priority")).getD
    (defaultPriority risk)
  let priority := (clamp (← env.floatOf given) 1 5).floor
  let stimulus := clamp
    ((← env.coerceFloat (item.get "stimulus")).getD
      (defaultStimulus priority)) 0 1
  let reward := clamp
    ((← env.coerceFloat (item.get "reward")).getD
      (defaultReward priority)) (1 / 10) 6
  let metadata ←
    ((orElse (item.get "metadata") (.dict [])).toDict env.python).toOption
  let metadata := setDefault metadata "pipeline_id" (.str pipelineId)
  let metadata := setDefault metadata "pipeline_run_id" (.str runId)
  return {
    taskId
    description := PyText.strip description
    requiredCapabilities, tags
    riskLevel := riskLevelOf risk
    requiresHumanApproval := requiresHuman
    metadata := metadata.update
      [("source", .str "supervisor_agent_stub"),
        ("task_type", .str taskType), ("priority", .int priority),
        ("stimulus", .float stimulus), ("reward", .float reward),
        ("llm_used", .bool false)] }

/-- One round of the loop; an entry that is not a dict is skipped. -/
def stubRound
    (state : List String × List TaskSpec) (entry : Json × Nat) :
    Option (List String × List TaskSpec) :=
  match entry with
  | (.dict item, idx) => do
      let taskId :=
        markedName numberedId state.1 (idx, requestedId idx item)
      let spec ← stubSpec env payload pipelineId runId idx item taskId
      return (state.1 ++ [taskId], state.2 ++ [spec])
  | _ => some state

/-- The spec for a payload that lists none. -/
def defaultSpec : TaskSpec :=
  let desc := orElse
    (orElse (orElse (payload.get "task_description")
      (payload.get "objective")) (payload.get "description"))
    (.str "Default task")
  let priority := defaultPriority "medium"
  { taskId := "stub-task-1"
    description := desc.pyStr env.python
    requiredCapabilities := ["general"]
    metadata :=
      [("pipeline_id", .str pipelineId), ("pipeline_run_id", .str runId),
        ("source", .str "supervisor_agent_stub"),
        ("task_type", .str "general"), ("priority", .int priority),
        ("stimulus", .float (defaultStimulus priority)),
        ("reward", .float (defaultReward priority)),
        ("llm_used", .bool false)] }

def stubGenerateSpecs : Option (List TaskSpec) := do
  let (_, specs) ← ((stubCandidates payload).zipIdx 1).foldlM
    (stubRound env payload pipelineId runId) ([], [])
  return if specs.isEmpty then
    [defaultSpec env payload pipelineId runId]
  else specs

end Stub

/-- The dicts among the entries, each with its index and the id it asks
for. -/
def requestsOf (entries : List (Json × Nat)) : List (Nat × String) :=
  entries.filterMap fun entry =>
    match entry with
    | (.dict item, idx) => some (idx, requestedId idx item)
    | _ => none

def requests (payload : Fields) : List (Nat × String) :=
  requestsOf ((stubCandidates payload).zipIdx 1)

theorem nodup_requests (payload : Fields) :
    ((requests payload).map Prod.fst).Nodup := by
  have indices : ∀ entries : List (Json × Nat),
      ((requestsOf entries).map Prod.fst).Sublist
        (entries.map Prod.snd) := by
    intro entries
    induction entries with
    | nil =>
        exact List.Sublist.slnil
    | cons entry rest inductionHypothesis =>
        obtain ⟨item, idx⟩ := entry
        cases item with
        | dict fields => exact inductionHypothesis.cons_cons idx
        | _ => exact inductionHypothesis.cons idx
  apply (indices _).nodup
  rw [List.zipIdx_map_snd]
  exact List.nodup_range'

/-- The number at the end of an extended id says whose it is. -/
theorem numberedId_apart : MarksApart numberedId := by
  intro first second name other same
  have lists := congrArg String.toList same
  have shape (idx : Nat) (taskId : String) :
      (numberedId idx taskId).toList =
        taskId.toList ++ '-' :: (toString idx).toList := by
    simp [numberedId]
  rw [shape, shape] at lists
  have noHyphen := @PyText.not_mem_toString_nat '-' (by decide)
  have numbers :=
    (append_separator_inj (noHyphen first) (noHyphen second) lists).2
  exact PyText.toString_nat_inj numbers

variable {env : SupervisorEnv} {payload : Fields}
  {pipelineId runId : String}

theorem taskId_of_stubSpec
    {idx : Nat} {item : Fields} {taskId : String} {spec : TaskSpec}
    (built : stubSpec env payload pipelineId runId idx item taskId =
      some spec) :
    spec.taskId = taskId := by
  unfold stubSpec at built
  simp only [Option.bind_eq_bind, Option.bind_eq_some_iff,
    Option.pure_def, Option.some.injEq] at built
  obtain ⟨_, _, _, _, _, _, _, _, _, _, rfl⟩ := built
  rfl

/-- The specs so far carry the ids so far, and these are made from the
requests so far. -/
structure Named
    (done : List (Nat × String))
    (state : List String × List TaskSpec) : Prop where
  ids : state.1 = markedNames numberedId done
  specs : state.2.map TaskSpec.taskId = state.1

theorem Named.round
    {done : List (Nat × String)} {state next : List String × List TaskSpec}
    {entry : Json × Nat} (named : Named done state)
    (ran : stubRound env payload pipelineId runId state entry = some next) :
    Named (done ++ requestsOf [entry]) next := by
  obtain ⟨item, idx⟩ := entry
  cases item with
  | dict fields =>
      rw [stubRound, Option.bind_eq_bind, Option.bind_eq_some_iff] at ran
      obtain ⟨spec, built, kept⟩ := ran
      cases kept
      have ids : state.1 ++
          [markedName numberedId state.1 (idx, requestedId idx fields)] =
            markedNames numberedId
              (done ++ [(idx, requestedId idx fields)]) := by
        rw [markedNames_concat, named.ids]
      constructor
      · exact ids
      · rw [List.map_append, named.specs, List.map_singleton,
          taskId_of_stubSpec built]
  | _ =>
      cases ran
      simpa [requestsOf] using named

theorem Named.rounds
    {entries : List (Json × Nat)} :
    ∀ {done : List (Nat × String)}
      {state next : List String × List TaskSpec},
      Named done state →
      entries.foldlM (stubRound env payload pipelineId runId) state =
        some next →
      Named (done ++ requestsOf entries) next := by
  induction entries with
  | nil =>
      intro done state next named ran
      cases ran
      simpa [requestsOf] using named
  | cons entry rest inductionHypothesis =>
      intro done state next named ran
      rw [List.foldlM_cons, Option.bind_eq_bind,
        Option.bind_eq_some_iff] at ran
      obtain ⟨between, first, later⟩ := ran
      have run := inductionHypothesis (named.round first) later
      rwa [List.append_assoc, requestsOf, requestsOf,
        ← List.filterMap_append, List.singleton_append] at run

/-- Two specs get one id exactly when an entry asks for a taken id and an
earlier one has asked for its extension. -/
theorem nodup_taskIds_iff
    {specs : List TaskSpec}
    (built : stubGenerateSpecs env payload pipelineId runId = some specs) :
    (specs.map TaskSpec.taskId).Nodup ↔
      ¬ Clash numberedId (requests payload) := by
  rw [← nodup_markedNames_iff numberedId_apart (nodup_requests payload)]
  unfold stubGenerateSpecs at built
  rw [Option.bind_eq_bind, Option.bind_eq_some_iff] at built
  obtain ⟨⟨ids, made⟩, ran, returned⟩ := built
  have start : Named [] ([], []) := ⟨rfl, rfl⟩
  have named := start.rounds ran
  have names : made.map TaskSpec.taskId =
      markedNames numberedId (requests payload) :=
    named.specs.trans named.ids
  cases returned
  cases made with
  | nil =>
      rw [← names]
      simp [defaultSpec]
  | cons first rest =>
      rw [← names]
      exact Iff.rfl

/-! ## Entries with repeated ids -/

/-- Built-ins for entries that give nothing but an id. -/
def plainEnv : SupervisorEnv where
  python :=
    { strOther := fun _ => ""
      dictOther := fun _ => .error .typeError
      upper := id
      lower := id }
  coerceInt := fun _ => some none
  coerceFloat := fun _ => some none
  floatOf := fun number => some number

def payloadOf (taskIds : List String) : Fields :=
  [("tasks", .list (taskIds.map fun taskId =>
    .dict [("task_id", .str taskId)]))]

/-- One repetition alone is told apart. -/
theorem repeated_id_is_extended :
    ∃ specs, stubGenerateSpecs plainEnv (payloadOf ["a", "a"]) "p" "r" =
        some specs ∧
      ((specs.map TaskSpec.taskId).Nodup ↔
        ¬ Clash numberedId (requests (payloadOf ["a", "a"]))) := by
  have built : (stubGenerateSpecs plainEnv (payloadOf ["a", "a"]) "p"
      "r").isSome = true := by
    decide +kernel
  obtain ⟨specs, returned⟩ := Option.isSome_iff_exists.mp built
  exact ⟨specs, returned, nodup_taskIds_iff returned⟩

/-- The extended id of the third entry is the one the second asked for. -/
theorem extended_id_is_repeated :
    ∃ specs,
      stubGenerateSpecs plainEnv (payloadOf ["a", "a-3", "a"]) "p" "r" =
          some specs ∧
        specs.map TaskSpec.taskId = ["a", "a-3", "a-3"] ∧
          ¬ (specs.map TaskSpec.taskId).Nodup := by
  have named :
      (stubGenerateSpecs plainEnv (payloadOf ["a", "a-3", "a"]) "p" "r").map
          (fun specs => specs.map TaskSpec.taskId) =
        some ["a", "a-3", "a-3"] := by
    decide +kernel
  obtain ⟨specs, returned, ids⟩ := Option.map_eq_some_iff.mp named
  refine ⟨specs, returned, ids, ?_⟩
  rw [ids]
  decide

end Agentcy.Agents
