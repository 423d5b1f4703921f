import Agentcy.Semantic.PlanGraph
import Mathlib.Data.List.ReduceOption

/-!
# Reading a plan back from its triples

Tasks and edges come back as they were.  Agents, capabilities and tags come
back exactly unless a different name of the same draft has the same slug.
-/

namespace Agentcy.Semantic

open Agentcy.Library

/-- The parts of a spec that the plan consists of. -/
structure Plan where
  tasks : List PlanTask
  edges : List (String × String)
  ontology : OntologyNames

def Plan.taskIds (plan : Plan) : List String :=
  plan.tasks.map PlanTask.taskId

def readTask (python : PyBuiltins) (task : Json) :
    Except PyError (Option PlanTask) := do
  let fields ← task.fields
  planTask python fields

namespace ExportEnv

variable (env : ExportEnv)

def readPlan (spec : Fields) : Except PyError Plan := do
  let tasks ← (spec.get "tasks").itemsOrEmpty
  let edges ← (spec.get "edges").itemsOrEmpty
  let readTasks ← tasks.mapM (readTask env.python)
  let readEdges ← edges.mapM (planEdge env.python)
  let ontology ← env.planOntology (spec.get "ontology")
  return ⟨readTasks.reduceOption, readEdges.reduceOption, ontology⟩

def domainProperties : List Property :=
  [.type, .approvedBy, .requiredTemperatureRange, .riskLevel,
    .securityLevel, .leaseTermMonths, .requiresComplianceCheck]

/-- All triples have properties that no other part of the export needs to be
read back. -/
def OfDomain (graph : Graph) : Prop :=
  ∀ triple ∈ graph, triple.property ∈ domainProperties

theorem ofDomain_nil : OfDomain [] :=
  fun _ member => absurd member List.not_mem_nil

theorem OfDomain.append
    {first second : Graph} (ofFirst : OfDomain first)
    (ofSecond : OfDomain second) : OfDomain (first ++ second) := by
  intro triple member
  rcases List.mem_append.mp member with inFirst | inSecond
  · exact ofFirst triple inFirst
  · exact ofSecond triple inSecond

theorem OfDomain.cons
    {triple : Triple Term Property} {graph : Graph}
    (here : triple.property ∈ domainProperties) (rest : OfDomain graph) :
    OfDomain (triple :: graph) := by
  intro other member
  rcases List.mem_cons.mp member with rfl | later
  · exact here
  · exact rest other later

theorem ofDomain_ite
    {chosen : Prop} [Decidable chosen] {graph : Graph}
    (ofGraph : OfDomain graph) :
    OfDomain (if chosen then graph else []) := by
  split
  · exact ofGraph
  · exact ofDomain_nil

theorem ofDomain_hazmatTriples
    (node : Term) (taskId : String) (details : Fields) :
    OfDomain (env.hazmatTriples node taskId details) := by
  refine .cons (by decide : Property.type ∈ domainProperties)
    (ofDomain_ite ?_)
  exact .cons (by decide : Property.type ∈ domainProperties)
    (.cons (by decide : Property.approvedBy ∈ domainProperties) ofDomain_nil)

theorem ofDomain_coldStorageTriples (node : Term) (details : Fields) :
    OfDomain (env.coldStorageTriples node details) :=
  .cons (by decide : Property.type ∈ domainProperties)
    (ofDomain_ite
      (.cons
        (by decide : Property.requiredTemperatureRange ∈ domainProperties)
        ofDomain_nil))

theorem ofDomain_criticalDealTriples
    (node : Term) (riskLevel : Json) (details : Fields) :
    OfDomain (env.criticalDealTriples node riskLevel details) := by
  refine .cons (by decide : Property.type ∈ domainProperties)
    (.append (ofDomain_ite ?_) (ofDomain_ite ?_))
  · exact .cons (by decide : Property.riskLevel ∈ domainProperties)
      ofDomain_nil
  · exact .cons (by decide : Property.securityLevel ∈ domainProperties)
      ofDomain_nil

theorem ofDomain_leaseTriples
    {node : Term} {term : Json} {lease : Graph}
    (built : env.leaseTriples node term = .ok lease) : OfDomain lease := by
  unfold leaseTriples at built
  split at built
  · obtain rfl := (pure_eq_ok _ _).mp built
    exact ofDomain_nil
  · obtain ⟨months, _, built⟩ := bind_eq_ok.mp built
    obtain rfl := (pure_eq_ok _ _).mp built
    exact .cons (by decide : Property.leaseTermMonths ∈ domainProperties)
      ofDomain_nil

theorem ofDomain_warehouseTriples
    {edges : List Json} {node : Term} {taskId : String}
    {task details : Fields} {warehouse : Graph}
    (built :
      env.warehouseTriples edges node taskId task details =
        .ok warehouse) :
    OfDomain warehouse := by
  unfold warehouseTriples at built
  obtain ⟨lease, ofLease, built⟩ := bind_eq_ok.mp built
  obtain ⟨dependency, _, built⟩ := bind_eq_ok.mp built
  obtain rfl := (pure_eq_ok _ _).mp built
  refine .append (.cons (by decide : Property.type ∈ domainProperties)
    (env.ofDomain_leaseTriples ofLease)) ?_
  exact .cons
    (by decide : Property.requiresComplianceCheck ∈ domainProperties)
    ofDomain_nil

theorem ofDomain_domainTriples
    {edges : List Json} {taskId : String} {task : Fields} {domain : Graph}
    (built : env.domainTriples edges taskId task = .ok domain) :
    OfDomain domain := by
  unfold domainTriples at built
  obtain ⟨details, _, built⟩ := bind_eq_ok.mp built
  obtain ⟨required, _, built⟩ := bind_eq_ok.mp built
  obtain ⟨warehouse, ofWarehouse, built⟩ := bind_eq_ok.mp built
  obtain rfl := (pure_eq_ok _ _).mp built
  refine .append (.append (.append ?_ ?_) ?_) ?_
  · exact ofDomain_ite (env.ofDomain_hazmatTriples _ _ _)
  · exact ofDomain_ite (env.ofDomain_coldStorageTriples _ _)
  · exact ofDomain_ite (env.ofDomain_criticalDealTriples _ _ _)
  · split at ofWarehouse
    · exact env.ofDomain_warehouseTriples ofWarehouse
    · obtain rfl := (pure_eq_ok _ _).mp ofWarehouse
      exact ofDomain_nil

theorem taskTriples_ok
    {edges : List Json} {task : Json} {part : Graph}
    (built : env.taskTriples edges task = .ok part) :
    ∃ read domain, readTask env.python task = .ok read ∧
      OfDomain domain ∧
      part = read.toList.flatMap env.planTaskTriples ++ domain := by
  unfold taskTriples at built
  obtain ⟨fields, isDict, built⟩ := bind_eq_ok.mp built
  obtain ⟨read, reads, built⟩ := bind_eq_ok.mp built
  have readsTask : readTask env.python task = .ok read :=
    bind_eq_ok.mpr ⟨fields, isDict, reads⟩
  cases read with
  | none =>
      obtain rfl := (pure_eq_ok _ _).mp built
      exact ⟨none, [], readsTask, ofDomain_nil, rfl⟩
  | some read =>
      obtain ⟨domain, ofDomain, built⟩ := bind_eq_ok.mp built
      obtain rfl := (pure_eq_ok _ _).mp built
      refine ⟨some read, domain, readsTask,
        env.ofDomain_domainTriples ofDomain, ?_⟩
      rw [Option.toList_some, List.flatMap_singleton]

theorem mapM_taskTriples_ok
    {edges tasks : List Json} {parts : List Graph}
    (built : tasks.mapM (env.taskTriples edges) = .ok parts) :
    ∃ reads domain, tasks.mapM (readTask env.python) = .ok reads ∧
      OfDomain domain ∧
      ∀ triple, triple ∈ parts.flatten ↔
        (∃ task ∈ reads.reduceOption,
          triple ∈ env.planTaskTriples task) ∨ triple ∈ domain := by
  have pairs := mapM_eq_ok_iff.mp built
  clear built
  induction pairs with
  | nil => exact ⟨[], [], rfl, ofDomain_nil, by simp [List.reduceOption]⟩
  | cons here _ inductionHypothesis =>
      obtain ⟨read, domain, reads, ofDomain, rfl⟩ := env.taskTriples_ok here
      obtain ⟨others, later, readsRest, ofLater, parts⟩ :=
        inductionHypothesis
      refine ⟨read :: others, domain ++ later, ?_,
        ofDomain.append ofLater, ?_⟩
      · rw [List.mapM_cons, reads, readsRest]
        rfl
      · intro triple
        rw [List.flatten_cons, List.mem_append, parts, List.mem_append,
          List.mem_append]
        cases read with
        | none => simp [List.reduceOption_cons_of_none, or_left_comm]
        | some read =>
            simp [List.reduceOption_cons_of_some, or_assoc, or_left_comm]

theorem textOf_of_planTask
    {python : PyBuiltins} {task : Fields} {read : Option PlanTask}
    (reads : planTask python task = .ok read) :
    read.map PlanTask.taskId = textOf python (task.get "task_id") := by
  unfold planTask at reads
  split at reads
  · rename_i absent
    obtain rfl := (pure_eq_ok _ _).mp reads
    exact absent.symm
  · rename_i taskId found
    obtain ⟨capabilities, _, reads⟩ := bind_eq_ok.mp reads
    obtain ⟨tags, _, reads⟩ := bind_eq_ok.mp reads
    obtain rfl := (pure_eq_ok _ _).mp reads
    exact found.symm

theorem taskIndex_eq
    {tasks : List Json} {reads : List (Option PlanTask)}
    (all : tasks.mapM (readTask env.python) = .ok reads) :
    env.taskIndex tasks = reads.reduceOption.map PlanTask.taskId := by
  have pairs := mapM_eq_ok_iff.mp all
  clear all
  induction pairs with
  | nil => rfl
  | @cons task read rest others here _ inductionHypothesis =>
      obtain ⟨fields, isDict, reads⟩ := bind_eq_ok.mp here
      obtain rfl := Json.dict_of_fields isDict
      have text := textOf_of_planTask reads
      rw [taskIndex, List.filterMap_cons]
      simp only
      rw [← text]
      cases read with
      | none => exact inductionHypothesis
      | some read => exact congrArg _ inductionHypothesis

theorem edgeTriples_ok
    {index : List String} {edge : Json} {part : Graph}
    (built : env.edgeTriples index edge = .ok part) :
    ∃ read, planEdge env.python edge = .ok read ∧
      ∀ triple, triple ∈ part ↔
        ∃ source target, read = some (source, target) ∧
          source ∈ index ∧ target ∈ index ∧
          triple = ⟨taskUri env.planId target, .dependsOn,
            taskUri env.planId source⟩ := by
  obtain ⟨read, reads, built⟩ := bind_eq_ok.mp built
  refine ⟨read, reads, fun triple => ?_⟩
  cases read with
  | none =>
      obtain rfl := (pure_eq_ok _ _).mp built
      simp
  | some ends =>
      obtain ⟨source, target⟩ := ends
      simp only at built
      split at built
      · rename_i listed
        obtain rfl := (pure_eq_ok _ _).mp built
        rw [List.mem_singleton]
        constructor
        · intro isTriple
          exact ⟨source, target, rfl, listed.1, listed.2, isTriple⟩
        · intro ends
          obtain ⟨_, _, same, _, _, isTriple⟩ := ends
          obtain ⟨rfl, rfl⟩ := Prod.mk.inj (Option.some.inj same)
          exact isTriple
      · rename_i unlisted
        obtain rfl := (pure_eq_ok _ _).mp built
        refine iff_of_false List.not_mem_nil fun ends => unlisted ?_
        obtain ⟨_, _, same, sourceListed, targetListed, _⟩ := ends
        obtain ⟨rfl, rfl⟩ := Prod.mk.inj (Option.some.inj same)
        exact ⟨sourceListed, targetListed⟩

theorem mapM_edgeTriples_ok
    {index : List String} {edges : List Json} {parts : List Graph}
    (built : edges.mapM (env.edgeTriples index) = .ok parts) :
    ∃ reads, edges.mapM (planEdge env.python) = .ok reads ∧
      ∀ triple, triple ∈ parts.flatten ↔
        ∃ source target, (source, target) ∈ reads.reduceOption ∧
          source ∈ index ∧ target ∈ index ∧
          triple = ⟨taskUri env.planId target, .dependsOn,
            taskUri env.planId source⟩ := by
  have pairs := mapM_eq_ok_iff.mp built
  clear built
  induction pairs with
  | nil => exact ⟨[], rfl, by simp [List.reduceOption]⟩
  | cons here _ inductionHypothesis =>
      obtain ⟨others, readsRest, parts⟩ := inductionHypothesis
      obtain ⟨read, reads, part⟩ := env.edgeTriples_ok here
      refine ⟨read :: others, ?_, ?_⟩
      · rw [List.mapM_cons, reads, readsRest]
        rfl
      · intro triple
        rw [List.flatten_cons, List.mem_append, part, parts]
        simp only [List.reduceOption_mem_iff, List.mem_cons, or_and_right,
          exists_or, eq_comm]

/-- What a graph that was built consists of. -/
theorem mem_graph_iff
    {spec : Fields} {graph : Graph}
    (built : env.buildPlanGraph spec = .ok graph) :
    ∃ plan domain, env.readPlan spec = .ok plan ∧ OfDomain domain ∧
      ∀ triple, triple ∈ graph ↔
        triple ∈ env.planTriples ∨
          (∃ task ∈ plan.tasks, triple ∈ env.planTaskTriples task) ∨
          triple ∈ domain ∨
          (∃ source target, (source, target) ∈ plan.edges ∧
            source ∈ plan.taskIds ∧ target ∈ plan.taskIds ∧
            triple = ⟨taskUri env.planId target, .dependsOn,
              taskUri env.planId source⟩) ∨
          triple ∈ ontologyTriples plan.ontology := by
  obtain ⟨tasks, isTasks, built⟩ := bind_eq_ok.mp built
  obtain ⟨edges, isEdges, built⟩ := bind_eq_ok.mp built
  obtain ⟨ofTasks, taskParts, built⟩ := bind_eq_ok.mp built
  obtain ⟨ofEdges, edgeParts, built⟩ := bind_eq_ok.mp built
  obtain ⟨names, isOntology, built⟩ := bind_eq_ok.mp built
  obtain rfl := (pure_eq_ok _ _).mp built
  obtain ⟨readTasks, domain, reads, ofDomain, inTasks⟩ :=
    env.mapM_taskTriples_ok taskParts
  obtain ⟨readEdges, readsEdges, inEdges⟩ :=
    env.mapM_edgeTriples_ok edgeParts
  rw [env.taskIndex_eq reads] at inEdges
  refine ⟨⟨readTasks.reduceOption, readEdges.reduceOption, names⟩, domain,
    ?_, ofDomain, ?_⟩
  · rw [readPlan, isTasks, isEdges]
    simp only [bind, Except.bind, reads, readsEdges, isOntology]
    rfl
  · intro triple
    rw [List.mem_append, List.mem_append, List.mem_append, inTasks,
      inEdges]
    simp only [or_assoc, Plan.taskIds]

/-! ## Links and names -/

/-- The triples with properties outside the domain are those of the plan. -/
def Exports (graph : Graph) (plan : Plan) : Prop :=
  ∀ triple : Triple Term Property, triple.property ∉ domainProperties →
    (triple ∈ graph ↔
      triple ∈ env.planTriples ∨
        (∃ task ∈ plan.tasks, triple ∈ env.planTaskTriples task) ∨
        (∃ source target, (source, target) ∈ plan.edges ∧
          source ∈ plan.taskIds ∧ target ∈ plan.taskIds ∧
          triple = ⟨taskUri env.planId target, .dependsOn,
            taskUri env.planId source⟩) ∨
        triple ∈ ontologyTriples plan.ontology)

theorem exports_of_built
    {spec : Fields} {graph : Graph} {plan : Plan}
    (built : env.buildPlanGraph spec = .ok graph)
    (reads : env.readPlan spec = .ok plan) : env.Exports graph plan := by
  obtain ⟨other, domain, readsOther, ofDomain, parts⟩ :=
    env.mem_graph_iff built
  obtain rfl : other = plan :=
    Except.ok.inj (readsOther.symm.trans reads)
  intro triple outside
  have notDomain : triple ∉ domain := fun member =>
    outside (ofDomain triple member)
  simp only [parts, notDomain, false_or]

@[simp]
theorem mem_provTyped_iff
    (node : Term) (name : ProvClass) (triple : Triple Term Property) :
    triple ∈ env.provTyped node name ↔
      env.includeProv = true ∧ triple = ⟨node, .type, .prov name⟩ := by
  unfold provTyped
  split
  · simp [*]
  · simp [*]

@[simp]
theorem mem_optional_iff
    (property : Property) (value : Option String)
    (triple : Triple Term Property) :
    triple ∈ env.optional property value ↔
      ∃ text, value = some text ∧ text ≠ "" ∧
        triple = ⟨planUri env.planId, property, .literal text .plain⟩ := by
  cases value with
  | none => simp [optional]
  | some text =>
      by_cases blank : text = ""
      · simp [optional, blank]
      · simp [optional, blank]

@[simp]
theorem mem_labelled_iff
    (node : Term) (name : OntologyClass) (text : String)
    (triple : Triple Term Property) :
    triple ∈ labelled node name text ↔
      triple = ⟨node, .type, .ontology name⟩ ∨
        triple = ⟨node, .label, .literal text .plain⟩ := by
  simp [labelled, typed]

@[simp]
theorem mem_parentTriples_iff
    (capability : String) (triple : Triple Term Property) :
    triple ∈ env.parentTriples capability ↔
      ∃ parent, env.parentOf capability = some parent ∧
        (triple ∈ labelled (capabilityUri parent) .capability parent ∨
          triple = ⟨capabilityUri capability, .subCapabilityOf,
            capabilityUri parent⟩) := by
  unfold parentTriples
  split
  · simp [*]
  · simp [*]

@[simp]
theorem mem_planTriples_iff (triple : Triple Term Property) :
    triple ∈ env.planTriples ↔
      triple = typed (planUri env.planId) .plan ∨
        triple ∈ env.provTyped (planUri env.planId) .entity ∨
        triple = ⟨planUri env.planId, .planId,
          .literal env.planId .plain⟩ ∨
        triple ∈ env.optional .pipelineId env.pipelineId ∨
        triple ∈ env.optional .username env.username := by
  simp [planTriples]

@[simp]
theorem mem_taskNodeTriples_iff
    (task : Term) (taskId : String) (triple : Triple Term Property) :
    triple ∈ env.taskNodeTriples task taskId ↔
      triple = typed task .task ∨ triple ∈ env.provTyped task .entity ∨
        triple = ⟨task, .taskId, .literal taskId .string⟩ ∨
        triple = ⟨planUri env.planId, .hasTask, task⟩ := by
  simp [taskNodeTriples]

@[simp]
theorem mem_agentTriples_iff
    (task : Term) (agentId : String) (triple : Triple Term Property) :
    triple ∈ env.agentTriples task agentId ↔
      triple = typed (agentUri agentId) .agent ∨
        triple ∈ env.provTyped (agentUri agentId) .agent ∨
        triple = ⟨agentUri agentId, .agentId,
          .literal agentId .string⟩ ∨
        triple = ⟨task, .assignedAgent, agentUri agentId⟩ := by
  simp [agentTriples]

@[simp]
theorem mem_capabilityTriples_iff
    (task : Term) (capability : String) (triple : Triple Term Property) :
    triple ∈ env.capabilityTriples task capability ↔
      triple ∈ labelled (capabilityUri capability) .capability
          capability ∨
        triple = ⟨task, .requiresCapability, capabilityUri capability⟩ ∨
        triple ∈ env.parentTriples capability := by
  simp [capabilityTriples, or_assoc]

@[simp]
theorem mem_tagTriples_iff
    (task : Term) (tag : String) (triple : Triple Term Property) :
    triple ∈ tagTriples task tag ↔
      triple ∈ labelled (tagUri tag) .tag tag ∨
        triple = ⟨task, .hasTag, tagUri tag⟩ := by
  simp [tagTriples, or_assoc]

@[simp]
theorem mem_taskTypeTriples_iff
    (task : Term) (taskType : String) (triple : Triple Term Property) :
    triple ∈ taskTypeTriples task taskType ↔
      triple ∈ labelled (taskTypeUri taskType) .taskType taskType ∨
        triple = ⟨task, .taskType, taskTypeUri taskType⟩ := by
  simp [taskTypeTriples, or_assoc]

@[simp]
theorem mem_ontologyTriples_iff
    (names : OntologyNames) (triple : Triple Term Property) :
    triple ∈ ontologyTriples names ↔
      (∃ name ∈ names.capabilities,
          triple ∈ labelled (capabilityUri name) .capability name) ∨
        (∃ name ∈ names.tags,
          triple ∈ labelled (tagUri name) .tag name) ∨
        ∃ name ∈ names.taskTypes,
          triple ∈ labelled (taskTypeUri name) .taskType name := by
  simp only [ontologyTriples, List.mem_append, List.mem_flatMap, or_assoc]

/-- The statements about a task, one line for each kind. -/
@[simp]
theorem mem_planTaskTriples_iff
    (task : PlanTask) (triple : Triple Term Property) :
    triple ∈ env.planTaskTriples task ↔
      triple ∈ env.taskNodeTriples (taskUri env.planId task.taskId)
          task.taskId ∨
        (∃ agentId, task.assignedAgent = some agentId ∧
          triple ∈ env.agentTriples (taskUri env.planId task.taskId)
            agentId) ∨
        (∃ capability ∈ task.requiredCapabilities,
          triple ∈ env.capabilityTriples
            (taskUri env.planId task.taskId) capability) ∨
        (∃ tag ∈ task.tags,
          triple ∈ tagTriples (taskUri env.planId task.taskId) tag) ∨
        ∃ taskType, task.taskType = some taskType ∧
          triple ∈ taskTypeTriples (taskUri env.planId task.taskId)
            taskType := by
  simp only [planTaskTriples, List.mem_append, List.mem_flatMap,
    Option.mem_toList, or_assoc]

variable {env} {graph : Graph} {plan : Plan} (subject object : Term)

theorem Exports.taskId_iff (exported : env.Exports graph plan) :
    ⟨subject, .taskId, object⟩ ∈ graph ↔
      ∃ task ∈ plan.tasks, subject = taskUri env.planId task.taskId ∧
        object = .literal task.taskId .string := by
  rw [exported _ (by decide : Property.taskId ∉ domainProperties)]
  simp [typed]

theorem Exports.assignedAgent_iff (exported : env.Exports graph plan) :
    ⟨subject, .assignedAgent, object⟩ ∈ graph ↔
      ∃ task ∈ plan.tasks, ∃ agentId,
        task.assignedAgent = some agentId ∧
          subject = taskUri env.planId task.taskId ∧
          object = agentUri agentId := by
  rw [exported _ (by decide : Property.assignedAgent ∉ domainProperties)]
  simp [typed]

theorem Exports.agentId_iff (exported : env.Exports graph plan) :
    ⟨subject, .agentId, object⟩ ∈ graph ↔
      ∃ task ∈ plan.tasks, ∃ agentId,
        task.assignedAgent = some agentId ∧
          subject = agentUri agentId ∧
          object = .literal agentId .string := by
  rw [exported _ (by decide : Property.agentId ∉ domainProperties)]
  simp [typed]

theorem Exports.requiresCapability_iff
    (exported : env.Exports graph plan) :
    ⟨subject, .requiresCapability, object⟩ ∈ graph ↔
      ∃ task ∈ plan.tasks, ∃ capability ∈ task.requiredCapabilities,
        subject = taskUri env.planId task.taskId ∧
          object = capabilityUri capability := by
  rw [exported _
    (by decide : Property.requiresCapability ∉ domainProperties)]
  simp [typed]

theorem Exports.hasTag_iff (exported : env.Exports graph plan) :
    ⟨subject, .hasTag, object⟩ ∈ graph ↔
      ∃ task ∈ plan.tasks, ∃ tag ∈ task.tags,
        subject = taskUri env.planId task.taskId ∧
          object = tagUri tag := by
  rw [exported _ (by decide : Property.hasTag ∉ domainProperties)]
  simp [typed]

theorem Exports.dependsOn_iff (exported : env.Exports graph plan) :
    ⟨subject, .dependsOn, object⟩ ∈ graph ↔
      ∃ source target, (source, target) ∈ plan.edges ∧
        source ∈ plan.taskIds ∧ target ∈ plan.taskIds ∧
        subject = taskUri env.planId target ∧
        object = taskUri env.planId source := by
  rw [exported _ (by decide : Property.dependsOn ∉ domainProperties)]
  simp [typed]

/-! ## Labels -/

theorem capabilityUri_ne_tagUri (capability tag : String) :
    capabilityUri capability ≠ tagUri tag := by
  intro same
  have paths := congrArg String.toList (Term.resource.inj same)
  simp at paths

theorem capabilityUri_ne_taskTypeUri (capability taskType : String) :
    capabilityUri capability ≠ taskTypeUri taskType := by
  intro same
  have paths := congrArg String.toList (Term.resource.inj same)
  simp at paths

theorem tagUri_ne_taskTypeUri (tag taskType : String) :
    tagUri tag ≠ taskTypeUri taskType := by
  intro same
  have paths := congrArg String.toList (Term.resource.inj same)
  simp at paths

/-- The names that a capability node may carry. -/
def capabilityLabels (env : ExportEnv) (plan : Plan) : List String :=
  plan.tasks.flatMap (fun task =>
    task.requiredCapabilities ++
      task.requiredCapabilities.filterMap env.parentOf) ++
    plan.ontology.capabilities

def tagLabels (plan : Plan) : List String :=
  plan.tasks.flatMap PlanTask.tags ++ plan.ontology.tags

theorem Exports.capability_label_iff
    (exported : env.Exports graph plan) (name : String) :
    ⟨capabilityUri name, .label, object⟩ ∈ graph ↔
      (∃ task ∈ plan.tasks, ∃ capability ∈ task.requiredCapabilities,
        (capabilityUri name = capabilityUri capability ∧
            object = .literal capability .plain) ∨
          ∃ parent, env.parentOf capability = some parent ∧
            capabilityUri name = capabilityUri parent ∧
            object = .literal parent .plain) ∨
        ∃ other ∈ plan.ontology.capabilities,
          capabilityUri name = capabilityUri other ∧
            object = .literal other .plain := by
  rw [exported _ (by decide : Property.label ∉ domainProperties)]
  simp [typed, capabilityUri_ne_tagUri, capabilityUri_ne_taskTypeUri]

theorem Exports.tag_label_iff
    (exported : env.Exports graph plan) (name : String) :
    ⟨tagUri name, .label, object⟩ ∈ graph ↔
      (∃ task ∈ plan.tasks, ∃ tag ∈ task.tags,
        tagUri name = tagUri tag ∧ object = .literal tag .plain) ∨
        ∃ other ∈ plan.ontology.tags,
          tagUri name = tagUri other ∧ object = .literal other .plain := by
  rw [exported _ (by decide : Property.label ∉ domainProperties)]
  simp [typed, (capabilityUri_ne_tagUri _ _).symm, tagUri_ne_taskTypeUri]

theorem Exports.capability_names (exported : env.Exports graph plan) :
    NamesOf graph .label capabilityUri (.literal · .plain)
      (· ∈ capabilityLabels env plan) := by
  intro name object
  rw [exported.capability_label_iff]
  simp only [capabilityLabels, List.mem_append, List.mem_flatMap,
    List.mem_filterMap]
  constructor
  · intro named
    rcases named with
      ⟨task, member, capability, required, own | ofParent⟩ | ofOntology
    · exact ⟨capability, .inl ⟨task, member, .inl required⟩, own.1.symm,
        own.2⟩
    · obtain ⟨parent, isParent, same, text⟩ := ofParent
      exact ⟨parent, .inl ⟨task, member, .inr ⟨_, required, isParent⟩⟩,
        same.symm, text⟩
    · obtain ⟨other, listed, same, text⟩ := ofOntology
      exact ⟨other, .inr listed, same.symm, text⟩
  · intro named
    obtain ⟨other, source, same, text⟩ := named
    rcases source with ⟨task, member, required | ofParent⟩ | listed
    · exact .inl ⟨task, member, other, required, .inl ⟨same.symm, text⟩⟩
    · obtain ⟨capability, required, isParent⟩ := ofParent
      exact .inl ⟨task, member, capability, required,
        .inr ⟨other, isParent, same.symm, text⟩⟩
    · exact .inr ⟨other, listed, same.symm, text⟩

theorem Exports.tag_names (exported : env.Exports graph plan) :
    NamesOf graph .label tagUri (.literal · .plain)
      (· ∈ tagLabels plan) := by
  intro name object
  rw [exported.tag_label_iff]
  simp only [tagLabels, List.mem_append, List.mem_flatMap]
  constructor
  · intro named
    rcases named with ⟨task, member, tag, owned, same, text⟩ | ofOntology
    · exact ⟨tag, .inl ⟨task, member, owned⟩, same.symm, text⟩
    · obtain ⟨other, listed, same, text⟩ := ofOntology
      exact ⟨other, .inr listed, same.symm, text⟩
  · intro named
    obtain ⟨other, source, same, text⟩ := named
    rcases source with ⟨task, member, owned⟩ | listed
    · exact .inl ⟨task, member, other, owned, same.symm, text⟩
    · exact .inr ⟨other, listed, same.symm, text⟩

theorem Exports.agent_names (exported : env.Exports graph plan) :
    NamesOf graph .agentId agentUri (.literal · .string)
      (fun agentId => ∃ task ∈ plan.tasks,
        task.assignedAgent = some agentId) := by
  intro name object
  rw [exported.agentId_iff]
  constructor
  · intro named
    obtain ⟨task, member, agentId, assigned, same, text⟩ := named
    exact ⟨agentId, ⟨task, member, assigned⟩, same.symm, text⟩
  · intro named
    obtain ⟨agentId, ⟨task, member, assigned⟩, same, text⟩ := named
    exact ⟨task, member, agentId, assigned, same.symm, text⟩

theorem taskUri_inj {planId first second : String} :
    taskUri planId first = taskUri planId second ↔ first = second := by
  constructor
  · intro same
    exact (String.append_right_inj _).mp (Term.resource.inj same)
  · intro same
    rw [same]

/-- Of two tasks with one id, both are the same. -/
theorem eq_of_taskId
    (distinct : plan.taskIds.Nodup) {first second : PlanTask}
    (firstListed : first ∈ plan.tasks) (secondListed : second ∈ plan.tasks)
    (same : first.taskId = second.taskId) : first = second :=
  List.inj_on_of_nodup_map distinct firstListed secondListed same

/-- What a graph says of a plan is what the plan says: its tasks with their
agents, capabilities and tags, and its edges between them. -/
structure Faithful (env : ExportEnv) (graph : Graph) (plan : Plan) :
    Prop where
  tasks : ∀ node taskId,
    ⟨node, .taskId, .literal taskId .string⟩ ∈ graph ↔
      taskId ∈ plan.taskIds ∧ node = taskUri env.planId taskId
  agents : ∀ task ∈ plan.tasks, ∀ agentId,
    Reads graph .assignedAgent .agentId (taskUri env.planId task.taskId)
        (.literal agentId .string) ↔
      task.assignedAgent = some agentId
  capabilities : ∀ task ∈ plan.tasks, ∀ capability,
    Reads graph .requiresCapability .label
        (taskUri env.planId task.taskId) (.literal capability .plain) ↔
      capability ∈ task.requiredCapabilities
  tags : ∀ task ∈ plan.tasks, ∀ tag,
    Reads graph .hasTag .label (taskUri env.planId task.taskId)
        (.literal tag .plain) ↔
      tag ∈ task.tags
  edges : ∀ source ∈ plan.taskIds, ∀ target ∈ plan.taskIds,
    ⟨taskUri env.planId target, .dependsOn, taskUri env.planId source⟩ ∈
        graph ↔
      (source, target) ∈ plan.edges
  ends : ∀ target source, ⟨target, .dependsOn, source⟩ ∈ graph →
    (∃ taskId ∈ plan.taskIds, target = taskUri env.planId taskId) ∧
      ∃ taskId ∈ plan.taskIds, source = taskUri env.planId taskId

/-- No agent, capability or tag of a task shares its slug with another name
that the draft puts on such nodes. -/
structure SlugsApart (env : ExportEnv) (plan : Plan) : Prop where
  agents : ∀ task ∈ plan.tasks, ∀ agentId,
    task.assignedAgent = some agentId →
      ∀ other ∈ plan.tasks, ∀ otherId,
        other.assignedAgent = some otherId →
          slug otherId = slug agentId → otherId = agentId
  capabilities : ∀ task ∈ plan.tasks,
    ∀ capability ∈ task.requiredCapabilities,
      ∀ label ∈ capabilityLabels env plan,
        slug label = slug capability → label ∈ task.requiredCapabilities
  tags : ∀ task ∈ plan.tasks, ∀ tag ∈ task.tags,
    ∀ label ∈ tagLabels plan, slug label = slug tag → label ∈ task.tags

theorem agentUri_inj {first second : String} :
    agentUri first = agentUri second ↔ slug first = slug second := by
  rw [agentUri, agentUri, Term.resource.injEq, String.append_right_inj]

theorem capabilityUri_inj {first second : String} :
    capabilityUri first = capabilityUri second ↔
      slug first = slug second := by
  rw [capabilityUri, capabilityUri, Term.resource.injEq,
    String.append_right_inj]

theorem tagUri_inj {first second : String} :
    tagUri first = tagUri second ↔ slug first = slug second := by
  rw [tagUri, tagUri, Term.resource.injEq, String.append_right_inj]

theorem literal_injective (datatype : Datatype) :
    Function.Injective (Term.literal · datatype) :=
  fun _ _ same => (Term.literal.inj same).1

section Links

variable (exported : env.Exports graph plan)
variable (distinct : plan.taskIds.Nodup)
variable {task : PlanTask} (listed : task ∈ plan.tasks)

include exported distinct listed

theorem Exports.agent_links :
    LinksTo graph .assignedAgent (taskUri env.planId task.taskId) agentUri
      (task.assignedAgent = some ·) := by
  intro node
  rw [exported.assignedAgent_iff]
  constructor
  · intro linked
    obtain ⟨other, member, agentId, assigned, same, isNode⟩ := linked
    obtain rfl :=
      eq_of_taskId distinct listed member (taskUri_inj.mp same)
    exact ⟨agentId, assigned, isNode⟩
  · intro linked
    obtain ⟨agentId, assigned, isNode⟩ := linked
    exact ⟨task, listed, agentId, assigned, rfl, isNode⟩

theorem Exports.capability_links :
    LinksTo graph .requiresCapability (taskUri env.planId task.taskId)
      capabilityUri (· ∈ task.requiredCapabilities) := by
  intro node
  rw [exported.requiresCapability_iff]
  constructor
  · intro linked
    obtain ⟨other, member, capability, required, same, isNode⟩ := linked
    obtain rfl :=
      eq_of_taskId distinct listed member (taskUri_inj.mp same)
    exact ⟨capability, required, isNode⟩
  · intro linked
    obtain ⟨capability, required, isNode⟩ := linked
    exact ⟨task, listed, capability, required, rfl, isNode⟩

theorem Exports.tag_links :
    LinksTo graph .hasTag (taskUri env.planId task.taskId) tagUri
      (· ∈ task.tags) := by
  intro node
  rw [exported.hasTag_iff]
  constructor
  · intro linked
    obtain ⟨other, member, tag, owned, same, isNode⟩ := linked
    obtain rfl :=
      eq_of_taskId distinct listed member (taskUri_inj.mp same)
    exact ⟨tag, owned, isNode⟩
  · intro linked
    obtain ⟨tag, owned, isNode⟩ := linked
    exact ⟨task, listed, tag, owned, rfl, isNode⟩

/-! ## Each reading is exact where the slugs are apart -/

theorem Exports.agents_exact_iff :
    (∀ agentId,
      Reads graph .assignedAgent .agentId (taskUri env.planId task.taskId)
          (.literal agentId .string) ↔
        task.assignedAgent = some agentId) ↔
      ∀ agentId, task.assignedAgent = some agentId →
        ∀ other ∈ plan.tasks, ∀ otherId,
          other.assignedAgent = some otherId →
            slug otherId = slug agentId → otherId = agentId := by
  rw [reads_exactly_iff (exported.agent_links distinct listed)
    exported.agent_names (literal_injective .string)
    (fun _ assigned => ⟨task, listed, assigned⟩)]
  simp only [agentUri_inj]
  constructor
  · intro apart agentId assigned other member otherId otherAssigned same
    have owned :=
      apart agentId otherId assigned ⟨other, member, otherAssigned⟩ same
    exact Option.some.inj (owned.symm.trans assigned)
  · intro apart agentId otherId assigned known same
    obtain ⟨other, member, otherAssigned⟩ := known
    rw [apart agentId assigned other member otherId otherAssigned same]
    exact assigned

theorem Exports.capabilities_exact_iff :
    (∀ capability,
      Reads graph .requiresCapability .label
          (taskUri env.planId task.taskId) (.literal capability .plain) ↔
        capability ∈ task.requiredCapabilities) ↔
      ∀ capability ∈ task.requiredCapabilities,
        ∀ label ∈ capabilityLabels env plan,
          slug label = slug capability →
            label ∈ task.requiredCapabilities := by
  have known : ∀ capability ∈ task.requiredCapabilities,
      capability ∈ capabilityLabels env plan := fun capability required =>
    List.mem_append_left _
      (List.mem_flatMap.mpr
        ⟨task, listed, List.mem_append_left _ required⟩)
  rw [reads_exactly_iff (exported.capability_links distinct listed)
    exported.capability_names (literal_injective .plain) known]
  simp only [capabilityUri_inj]
  constructor
  · intro apart capability required label labelled same
    exact apart capability label required labelled same
  · intro apart capability label required labelled same
    exact apart capability required label labelled same

theorem Exports.tags_exact_iff :
    (∀ tag,
      Reads graph .hasTag .label (taskUri env.planId task.taskId)
          (.literal tag .plain) ↔
        tag ∈ task.tags) ↔
      ∀ tag ∈ task.tags, ∀ label ∈ tagLabels plan,
        slug label = slug tag → label ∈ task.tags := by
  have known : ∀ tag ∈ task.tags, tag ∈ tagLabels plan :=
    fun tag owned => List.mem_append_left _
      (List.mem_flatMap.mpr ⟨task, listed, owned⟩)
  rw [reads_exactly_iff (exported.tag_links distinct listed)
    exported.tag_names (literal_injective .plain) known]
  simp only [tagUri_inj]
  constructor
  · intro apart tag owned label labelled same
    exact apart tag label owned labelled same
  · intro apart tag label owned labelled same
    exact apart tag owned label labelled same

end Links

/-- Tasks and edges are read back in any case. -/
theorem Exports.tasks_exact
    (exported : env.Exports graph plan) (node : Term) (taskId : String) :
    ⟨node, .taskId, .literal taskId .string⟩ ∈ graph ↔
      taskId ∈ plan.taskIds ∧ node = taskUri env.planId taskId := by
  rw [exported.taskId_iff, Plan.taskIds, List.mem_map]
  constructor
  · intro written
    obtain ⟨task, listed, isNode, isText⟩ := written
    obtain rfl := (Term.literal.inj isText).1
    exact ⟨⟨task, listed, rfl⟩, isNode⟩
  · intro written
    obtain ⟨⟨task, listed, rfl⟩, isNode⟩ := written
    exact ⟨task, listed, isNode, rfl⟩

theorem Exports.edges_exact
    (exported : env.Exports graph plan) {source target : String}
    (sourceListed : source ∈ plan.taskIds)
    (targetListed : target ∈ plan.taskIds) :
    ⟨taskUri env.planId target, .dependsOn, taskUri env.planId source⟩ ∈
        graph ↔
      (source, target) ∈ plan.edges := by
  rw [exported.dependsOn_iff]
  constructor
  · intro written
    obtain ⟨first, second, edge, _, _, isTarget, isSource⟩ := written
    rw [taskUri_inj] at isTarget isSource
    rw [isTarget, isSource]
    exact edge
  · intro edge
    exact ⟨source, target, edge, sourceListed, targetListed, rfl, rfl⟩

/-- The graph that is built is faithful to the plan exactly when the slugs
keep its names apart. -/
theorem built_faithful_iff
    (env : ExportEnv) {spec : Fields} {plan : Plan} {graph : Graph}
    (reads : env.readPlan spec = .ok plan)
    (distinct : plan.taskIds.Nodup)
    (built : env.buildPlanGraph spec = .ok graph) :
    Faithful env graph plan ↔ SlugsApart env plan := by
  have exported := env.exports_of_built built reads
  constructor
  · intro faithful
    exact
      { agents := fun task listed =>
          (exported.agents_exact_iff distinct listed).mp
            (faithful.agents task listed)
        capabilities := fun task listed =>
          (exported.capabilities_exact_iff distinct listed).mp
            (faithful.capabilities task listed)
        tags := fun task listed =>
          (exported.tags_exact_iff distinct listed).mp
            (faithful.tags task listed) }
  · intro apart
    exact
      { tasks := exported.tasks_exact
        agents := fun task listed =>
          (exported.agents_exact_iff distinct listed).mpr
            (apart.agents task listed)
        capabilities := fun task listed =>
          (exported.capabilities_exact_iff distinct listed).mpr
            (apart.capabilities task listed)
        tags := fun task listed =>
          (exported.tags_exact_iff distinct listed).mpr
            (apart.tags task listed)
        edges := fun _ sourceListed _ targetListed =>
          exported.edges_exact sourceListed targetListed
        ends := by
          intro target source written
          obtain ⟨first, second, _, firstListed, secondListed, isTarget,
            isSource⟩ := (exported.dependsOn_iff _ _).mp written
          exact ⟨⟨second, secondListed, isTarget⟩,
            ⟨first, firstListed, isSource⟩⟩ }

/-- An export without hierarchy and without PROV types, in an environment
that lowers ASCII letters only. -/
def plainExport : ExportEnv where
  python :=
    { strOther := fun _ => "value"
      dictOther := fun _ => .error .typeError
      upper := id
      lower := fun text => String.ofList (PyText.lowerChars text.toList) }
  intOf := fun _ => .error .valueError
  hierarchy := OrderedMap.empty
  planId := "p"
  pipelineId := none
  username := none
  includeProv := false

/-- Two tasks in a row, each with its agent. -/
def twoAgents (first second : String) : Fields :=
  let task := fun taskId agentId : String =>
    Json.dict
      [("task_id", .str taskId), ("assigned_agent", .str agentId),
        ("required_capabilities", .list [.str "plan"])]
  [("tasks", .list [task "t1" first, task "t2" second]),
    ("edges", .list [.dict [("from", .str "t1"), ("to", .str "t2")]])]

def graphOf (spec : Fields) : Graph :=
  (plainExport.buildPlanGraph spec).toOption.getD []

def planOf (spec : Fields) : Plan :=
  (plainExport.readPlan spec).toOption.getD ⟨[], [], ⟨[], [], []⟩⟩

theorem plain_agents_faithful_iff :
    Faithful plainExport (graphOf (twoAgents "planner" "executor"))
        (planOf (twoAgents "planner" "executor")) ↔
      SlugsApart plainExport (planOf (twoAgents "planner" "executor")) :=
  built_faithful_iff plainExport
    (rfl :
      plainExport.readPlan (twoAgents "planner" "executor") =
        .ok (planOf (twoAgents "planner" "executor")))
    (by decide)
    (rfl :
      plainExport.buildPlanGraph (twoAgents "planner" "executor") =
        .ok (graphOf (twoAgents "planner" "executor")))

/-- Two agents that differ in punctuation only can be swapped without a
trace, and each task is read back with both. -/
theorem swapped_agents_unseen :
    plainExport.readPlan (twoAgents "data agent" "data-agent") =
        .ok (planOf (twoAgents "data agent" "data-agent")) ∧
      (planOf (twoAgents "data agent" "data-agent")).taskIds.Nodup ∧
      plainExport.buildPlanGraph (twoAgents "data agent" "data-agent") =
        .ok (graphOf (twoAgents "data agent" "data-agent")) ∧
      plainExport.buildPlanGraph (twoAgents "data-agent" "data agent") =
        .ok (graphOf (twoAgents "data-agent" "data agent")) ∧
      (∀ triple, triple ∈ graphOf (twoAgents "data agent" "data-agent") ↔
        triple ∈ graphOf (twoAgents "data-agent" "data agent")) ∧
      ¬ Faithful plainExport
        (graphOf (twoAgents "data agent" "data-agent"))
        (planOf (twoAgents "data agent" "data-agent")) := by
  have forth :
      graphOf (twoAgents "data agent" "data-agent") ⊆
        graphOf (twoAgents "data-agent" "data agent") := by
    decide +kernel
  have back :
      graphOf (twoAgents "data-agent" "data agent") ⊆
        graphOf (twoAgents "data agent" "data-agent") := by
    decide +kernel
  refine ⟨rfl, by decide, rfl, rfl,
    fun _ => ⟨fun member => forth member, fun member => back member⟩, ?_⟩
  intro faithful
  have links :
      (⟨taskUri "p" "t1", .assignedAgent, agentUri "data-agent"⟩ :
        Triple Term Property) ∈
          graphOf (twoAgents "data agent" "data-agent") := by
    decide +kernel
  have named :
      (⟨agentUri "data-agent", .agentId, .literal "data-agent" .string⟩ :
        Triple Term Property) ∈
          graphOf (twoAgents "data agent" "data-agent") := by
    decide +kernel
  have assigned :=
    (faithful.agents _ List.mem_cons_self "data-agent").mp
      ⟨_, links, named⟩
  exact absurd assigned (by decide)

end ExportEnv

end Agentcy.Semantic
