import Agentcy.Agents.CapabilityTaxonomy
import Agentcy.Library.Triples
import Agentcy.Plans.SystemExecutor

/-!
# The RDF export of a plan

A plan draft is written as a set of triples.  Tasks are nodes under their own
ids, agents, capabilities and tags are nodes under a slug of their names.
-/

namespace Agentcy.Semantic

open Agentcy.Agents (Hierarchy)
open Agentcy.Library
open Agentcy.Plans (orElse)

inductive OntologyClass where
  | plan
  | task
  | agent
  | capability
  | tag
  | taskType
  | hazmatTask
  | humanApproval
  | coldStorageTask
  | criticalDealTask
  | warehouseAssignment
  deriving DecidableEq

inductive ProvClass where
  | entity
  | agent
  deriving DecidableEq

inductive Datatype where
  | plain
  | string
  | integer
  | boolean
  deriving DecidableEq

/-- `resource` is a URI under `RESOURCE`, by what follows this namespace. -/
inductive Term where
  | resource (path : String)
  | ontology (name : OntologyClass)
  | prov (name : ProvClass)
  | literal (text : String) (datatype : Datatype)
  deriving DecidableEq

/-- `RDF.type`, `RDFS.label` and the properties of the ontology. -/
inductive Property where
  | type
  | label
  | planId
  | pipelineId
  | username
  | hasTask
  | taskId
  | agentId
  | assignedAgent
  | requiresCapability
  | subCapabilityOf
  | hasTag
  | taskType
  | approvedBy
  | requiredTemperatureRange
  | riskLevel
  | securityLevel
  | leaseTermMonths
  | requiresComplianceCheck
  | dependsOn
  deriving DecidableEq

abbrev Graph := List (Triple Term Property)

/-- The class `[a-zA-Z0-9\-_.]`. -/
def slugClass (letter : Char) : Bool :=
  (97 ≤ letter.toNat && letter.toNat ≤ 122) ||
    (65 ≤ letter.toNat && letter.toNat ≤ 90) ||
    (48 ≤ letter.toNat && letter.toNat ≤ 57) ||
    letter == '-' || letter == '_' || letter == '.'

/-- The letters of `strip("-_.")`. -/
def slugEdge (letter : Char) : Bool :=
  letter == '-' || letter == '_' || letter == '.'

def slug (value : String) : String :=
  if value = "" then "unknown"
  else
    let cleaned :=
      PyText.hyphenate slugClass (PyText.stripChars value.toList)
    let trimmed :=
      ((cleaned.dropWhile slugEdge).reverse.dropWhile slugEdge).reverse
    if trimmed = [] then "unknown" else String.ofList trimmed

def planUri (planId : String) : Term :=
  .resource ("plan/" ++ planId)

def taskUri (planId taskId : String) : Term :=
  .resource ("task/" ++ planId ++ "/" ++ taskId)

def approvalUri (planId taskId : String) : Term :=
  .resource ("approval/" ++ planId ++ "/" ++ taskId)

def agentUri (agentId : String) : Term :=
  .resource ("agent/" ++ slug agentId)

def capabilityUri (capability : String) : Term :=
  .resource ("capability/" ++ slug capability)

def tagUri (tag : String) : Term :=
  .resource ("tag/" ++ slug tag)

def taskTypeUri (taskType : String) : Term :=
  .resource ("task-type/" ++ slug taskType)

/-- `str(value)` of a value that counts as true. -/
def textOf (python : PyBuiltins) (value : Json) : Option String :=
  if value.truthy then some (value.pyStr python) else none

/-- The texts of the items that count as true. -/
def namesOf (python : PyBuiltins) (value : Json) :
    Except PyError (List String) := do
  let items ← value.itemsOrEmpty
  return items.filterMap (textOf python)

structure PlanTask where
  taskId : String
  assignedAgent : Option String
  requiredCapabilities : List String
  tags : List String
  taskType : Option String

/-- A task of the spec, unless it has no id. -/
def planTask (python : PyBuiltins) (task : Fields) :
    Except PyError (Option PlanTask) :=
  match textOf python (task.get "task_id") with
  | none => return none
  | some taskId => do
      let capabilities ← namesOf python (task.get "required_capabilities")
      let tags ← namesOf python (task.get "tags")
      return some
        { taskId := taskId
          assignedAgent := textOf python (task.get "assigned_agent")
          requiredCapabilities := capabilities
          tags := tags
          taskType := textOf python (task.get "task_type") }

/-- The ends of an edge, if it has both. -/
def planEdge (python : PyBuiltins) (edge : Json) :
    Except PyError (Option (String × String)) := do
  let fields ← edge.fields
  match textOf python (fields.get "from"),
      textOf python (fields.get "to") with
  | some source, some target => return some (source, target)
  | _, _ => return none

/-- The names in the ontology of a spec. -/
structure OntologyNames where
  capabilities : List String
  tags : List String
  taskTypes : List String

/-- The arguments of `build_plan_graph` besides the spec, and what it uses of
its surroundings: the hierarchy that `load_hierarchy` returns, and `int`. -/
structure ExportEnv where
  python : PyBuiltins
  intOf : Json → Except PyError Int
  hierarchy : Hierarchy
  planId : String
  pipelineId : Option String
  username : Option String
  includeProv : Bool := true

def typed (node : Term) (name : OntologyClass) : Triple Term Property :=
  ⟨node, .type, .ontology name⟩

/-- A node with a class and the name that it was made from. -/
def labelled (node : Term) (name : OntologyClass) (text : String) : Graph :=
  [typed node name, ⟨node, .label, .literal text .plain⟩]

namespace ExportEnv

variable (env : ExportEnv)

def provTyped (node : Term) (name : ProvClass) : Graph :=
  if env.includeProv then [⟨node, .type, .prov name⟩] else []

/-- A property of the plan that the caller may leave out. -/
def optional (property : Property) : Option String → Graph
  | none => []
  | some value =>
      if value = "" then []
      else [⟨planUri env.planId, property, .literal value .plain⟩]

def planTriples : Graph :=
  let plan := planUri env.planId
  typed plan .plan :: env.provTyped plan .entity ++
    [⟨plan, .planId, .literal env.planId .plain⟩] ++
    env.optional .pipelineId env.pipelineId ++
    env.optional .username env.username

def agentTriples (task : Term) (agentId : String) : Graph :=
  let agent := agentUri agentId
  typed agent .agent :: env.provTyped agent .agent ++
    [⟨agent, .agentId, .literal agentId .string⟩,
      ⟨task, .assignedAgent, agent⟩]

/-- The broader capability that the hierarchy has for a required one. -/
def parentOf (capability : String) : Option String :=
  (env.hierarchy.get?
    (PyText.strip (env.python.lower capability))).filter (· ≠ "")

def parentTriples (capability : String) : Graph :=
  match env.parentOf capability with
  | none => []
  | some parent =>
      labelled (capabilityUri parent) .capability parent ++
        [⟨capabilityUri capability, .subCapabilityOf,
          capabilityUri parent⟩]

def capabilityTriples (task : Term) (capability : String) : Graph :=
  labelled (capabilityUri capability) .capability capability ++
    [⟨task, .requiresCapability, capabilityUri capability⟩] ++
    env.parentTriples capability

def tagTriples (task : Term) (tag : String) : Graph :=
  labelled (tagUri tag) .tag tag ++ [⟨task, .hasTag, tagUri tag⟩]

def taskTypeTriples (task : Term) (taskType : String) : Graph :=
  labelled (taskTypeUri taskType) .taskType taskType ++
    [⟨task, .taskType, taskTypeUri taskType⟩]

def taskNodeTriples (task : Term) (taskId : String) : Graph :=
  typed task .task :: env.provTyped task .entity ++
    [⟨task, .taskId, .literal taskId .string⟩,
      ⟨planUri env.planId, .hasTask, task⟩]

def planTaskTriples (task : PlanTask) : Graph :=
  let node := taskUri env.planId task.taskId
  env.taskNodeTriples node task.taskId ++
    task.assignedAgent.toList.flatMap (env.agentTriples node) ++
    task.requiredCapabilities.flatMap (env.capabilityTriples node) ++
    task.tags.flatMap (tagTriples node) ++
    task.taskType.toList.flatMap (taskTypeTriples node)

/-! ## Types of the domain -/

def mentions (text word : String) : Bool :=
  decide (word.toList <:+: text.toList)

def literalOf (value : Json) : Term :=
  .literal (value.pyStr env.python) .string

def hazmatTriples (node : Term) (taskId : String) (details : Fields) :
    Graph :=
  typed node .hazmatTask ::
    if (details.get "requires_human_approval").truthy then
      let approval := approvalUri env.planId taskId
      [typed approval .humanApproval, ⟨node, .approvedBy, approval⟩]
    else
      []

def coldStorageTriples (node : Term) (details : Fields) : Graph :=
  let range := details.get "temperature_range"
  typed node .coldStorageTask ::
    if range.truthy then
      [⟨node, .requiredTemperatureRange, env.literalOf range⟩]
    else
      []

def criticalDealTriples
    (node : Term) (riskLevel : Json) (details : Fields) : Graph :=
  let security := details.get "security_level"
  let risk := env.python.lower (riskLevel.pyStr env.python)
  typed node .criticalDealTask ::
    (if riskLevel.truthy then
      [⟨node, .riskLevel, .literal risk .string⟩]
    else
      []) ++
    if security.truthy then
      [⟨node, .securityLevel, env.literalOf security⟩]
    else
      []

/-- An edge into the task comes from a task with "compliance" in its id. -/
def complianceEdge (taskId : String) (edge : Json) :
    Except PyError Bool := do
  let fields ← edge.fields
  let source := (OrderedMap.lookupEntries "from" fields).getD (.str "")
  return decide ((fields.get "to").pyStr env.python = taskId) &&
    mentions (env.python.lower (source.pyStr env.python)) "compliance"

def complianceDependency
    (edges : List Json) (taskId : String) (task : Fields) :
    Except PyError Bool := do
  if ← edges.anyM (env.complianceEdge taskId) then
    return true
  else
    let dependencies ← (task.get "dependencies").itemsOrEmpty
    return dependencies.any fun dependency =>
      mentions (env.python.lower (dependency.pyStr env.python))
        "compliance"

def leaseTriples (node : Term) : Json → Except PyError Graph
  | .null => return []
  | term => do
      let months ← env.intOf term
      return [⟨node, .leaseTermMonths, .literal (toString months) .integer⟩]

def warehouseTriples
    (edges : List Json) (node : Term) (taskId : String)
    (task details : Fields) : Except PyError Graph := do
  let lease ← env.leaseTriples node (details.get "lease_term_months")
  let dependency ← env.complianceDependency edges taskId task
  return typed node .warehouseAssignment :: lease ++
    [⟨node, .requiresComplianceCheck,
      .literal (if dependency then "true" else "false") .boolean⟩]

/-- The further triples of a task, from its metadata and its description. -/
def domainTriples (edges : List Json) (taskId : String) (task : Fields) :
    Except PyError Graph := do
  let node := taskUri env.planId taskId
  let details ← (orElse (task.get "metadata") (.dict [])).fields
  let lowered := fun value : Json =>
    env.python.lower ((orElse value (.str "")).pyStr env.python)
  let description := lowered (task.get "description")
  let special := lowered (details.get "special_requirements")
  let hazmat :=
    if mentions description "hazmat" || mentions special "hazmat" then
      env.hazmatTriples node taskId details
    else
      []
  let cold :=
    if mentions description "cold" || mentions special "cold storage" then
      env.coldStorageTriples node details
    else
      []
  let riskLevel :=
    orElse (details.get "risk_level") (task.get "risk_level")
  let urgent :=
    decide ((details.get "priority").pyStr env.python = "1") ||
      decide (env.python.lower (riskLevel.pyStr env.python) = "high")
  let critical :=
    if urgent then env.criticalDealTriples node riskLevel details else []
  let required ← (task.get "required_capabilities").itemsOrEmpty
  let matching := required.any fun capability =>
    decide (env.python.lower (capability.pyStr env.python) =
      "warehouse_matching")
  let warehouse ←
    (if matching || mentions description "warehouse" then
      env.warehouseTriples edges node taskId task details
    else
      pure [] : Except PyError Graph)
  return hazmat ++ cold ++ critical ++ warehouse

def taskTriples (edges : List Json) (task : Json) :
    Except PyError Graph := do
  let fields ← task.fields
  match ← planTask env.python fields with
  | none => return []
  | some read => do
      let domain ← env.domainTriples edges read.taskId fields
      return env.planTaskTriples read ++ domain

/-- The ids of `task_index`. -/
def taskIndex (tasks : List Json) : List String :=
  tasks.filterMap fun task =>
    match task with
    | .dict fields => textOf env.python (Fields.get fields "task_id")
    | _ => none

/-- The target of an edge depends on its source. -/
def edgeTriples (index : List String) (edge : Json) :
    Except PyError Graph := do
  match ← planEdge env.python edge with
  | none => return []
  | some (source, target) =>
      if source ∈ index ∧ target ∈ index then
        return [⟨taskUri env.planId target, .dependsOn,
          taskUri env.planId source⟩]
      else
        return []

/-- The items of a list in the ontology of the spec, all by their text. -/
def ontologyNames (ontology : Fields) (key : String) :
    Except PyError (List String) := do
  let items ← (ontology.get key).itemsOrEmpty
  return items.map (Json.pyStr env.python)

def planOntology : Json → Except PyError OntologyNames
  | .dict ontology => do
      let capabilities ← env.ontologyNames ontology "capabilities"
      let tags ← env.ontologyNames ontology "tags"
      let taskTypes ← env.ontologyNames ontology "task_types"
      return ⟨capabilities, tags, taskTypes⟩
  | _ => return ⟨[], [], []⟩

def ontologyTriples (names : OntologyNames) : Graph :=
  (names.capabilities.flatMap fun name =>
      labelled (capabilityUri name) .capability name) ++
    (names.tags.flatMap fun name => labelled (tagUri name) .tag name) ++
    names.taskTypes.flatMap fun name =>
      labelled (taskTypeUri name) .taskType name

def buildPlanGraph (spec : Fields) : Except PyError Graph := do
  let tasks ← (spec.get "tasks").itemsOrEmpty
  let edges ← (spec.get "edges").itemsOrEmpty
  let ofTasks ← tasks.mapM (env.taskTriples edges)
  let ofEdges ← edges.mapM (env.edgeTriples (env.taskIndex tasks))
  let names ← env.planOntology (spec.get "ontology")
  return env.planTriples ++ ofTasks.flatten ++ ofEdges.flatten ++
    ontologyTriples names

end ExportEnv

end Agentcy.Semantic
