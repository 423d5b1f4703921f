import Agentcy.Parser.EdgeQueues

/-!
# The later stages of the parser

After the tasks have passed the checks of the front end and the check for
connectedness, all tables that the later stages look tasks up in have an entry
for every task.
-/

namespace Agentcy.Parser

open Agentcy.Library
open Agentcy.Broker

theorem exists_ok_bind
    {ε α β : Type} {first : Except ε α} {next : α → Except ε β} {value : α}
    (here : first = .ok value) (later : ∃ result, next value = .ok result) :
    ∃ result, (first >>= next) = .ok result := by
  obtain ⟨result, isResult⟩ := later
  exact ⟨result, bind_eq_ok.mpr ⟨value, here, isResult⟩⟩

theorem exists_get?_of_mem_keys
    {α : Type} {items : OrderedMap String α} {key : String}
    (member : key ∈ items.keys) : ∃ value, items.get? key = some value := by
  rw [OrderedMap.mem_keys_iff] at member
  exact Option.isSome_iff_exists.mp member

theorem visited_subset
    (fuel : Nat) (taskGraph : OrderedMap String (List String))
    (visited queue : List String) :
    visited ⊆ (visitReachable fuel taskGraph visited queue).1 := by
  induction fuel generalizing taskGraph visited queue with
  | zero => exact List.Subset.refl _
  | succ fuel inductionHypothesis =>
      cases queue with
      | nil => exact List.Subset.refl _
      | cons current rest =>
          rw [visitReachable]
          split
          · exact inductionHypothesis _ _ _
          · exact List.Subset.trans (List.subset_append_left _ _)
              (inductionHypothesis _ _ _)

/-- Looking the visited tasks up has left an entry for each of them, and for
no other task. -/
theorem mem_keys_visitReachable_iff
    (fuel : Nat) (taskGraph : OrderedMap String (List String))
    (visited queue : List String)
    (known : ∀ taskId ∈ visited, taskId ∈ taskGraph.keys)
    (taskId : String) :
    taskId ∈ (visitReachable fuel taskGraph visited queue).2.keys ↔
      taskId ∈ taskGraph.keys ∨
        taskId ∈ (visitReachable fuel taskGraph visited queue).1 := by
  induction fuel generalizing taskGraph visited queue with
  | zero => exact ⟨Or.inl, fun either => either.elim id (known taskId)⟩
  | succ fuel inductionHypothesis =>
      cases queue with
      | nil => exact ⟨Or.inl, fun either => either.elim id (known taskId)⟩
      | cons current rest =>
          rw [visitReachable]
          split
          · exact inductionHypothesis _ _ _ known
          · have stillKnown : ∀ other ∈ visited ++ [current],
                other ∈ (taskGraph.set current
                  ((taskGraph.get? current).getD [])).keys := by
              intro other member
              rw [OrderedMap.mem_keys_set]
              rcases List.mem_append.mp member with old | new
              · exact Or.inr (known other old)
              · exact Or.inl (List.mem_singleton.mp new)
            rw [inductionHypothesis _ _ _ stillKnown,
              OrderedMap.mem_keys_set]
            have visits := visited_subset fuel
              (taskGraph.set current ((taskGraph.get? current).getD []))
              (visited ++ [current])
              (rest ++ (taskGraph.get? current).getD [])
              (List.mem_append_right visited List.mem_cons_self)
            constructor
            · intro found
              rcases found with (rfl | old) | later
              · exact Or.inr visits
              · exact Or.inl old
              · exact Or.inr later
            · intro found
              rcases found with old | later
              · exact Or.inl (Or.inr old)
              · exact Or.inr later

theorem source_of_mem_keys
    {known : List (String × String)} {taskId : String}
    (member : taskId ∈ (OrderedMap.gather known).keys) :
    ∃ target, (taskId, target) ∈ known := by
  obtain ⟨targets, found⟩ := exists_get?_of_mem_keys member
  have listed : targets = Kahn.outgoing known taskId := by
    have read := OrderedMap.getD_gather known taskId
    rw [found] at read
    exact read
  obtain ⟨target, isTarget⟩ :=
    List.exists_mem_of_ne_nil _ (OrderedMap.ne_nil_of_get?_gather found)
  rw [listed] at isTarget
  exact ⟨target, Kahn.mem_outgoing_iff.mp isTarget⟩

theorem suggestForGraph_ok
    {taskDict : OrderedMap String InferredTask}
    {taskGraph : List (String × List String)}
    (known : ∀ node ∈ taskGraph, node.1 ∈ taskDict.keys)
    (suggestions : OrderedMap String ExchangeSuggestion) :
    ∃ result, suggestForGraph taskDict taskGraph suggestions =
        .ok result ∧
      ∀ taskId, taskId ∈ suggestions.keys ∨
          taskId ∈ taskGraph.map Prod.fst →
        taskId ∈ result.keys := by
  induction taskGraph generalizing suggestions with
  | nil =>
      refine ⟨suggestions, rfl, fun taskId either => ?_⟩
      exact either.resolve_right List.not_mem_nil
  | cons node rest inductionHypothesis =>
      obtain ⟨task, found⟩ :=
        exists_get?_of_mem_keys (known node List.mem_cons_self)
      obtain ⟨result, suggested, covers⟩ := inductionHypothesis
        (fun other member => known other (List.mem_cons_of_mem _ member))
        (suggestions.set node.1
          { exchangeType := (suggestType node.2).1
            reason := (suggestType node.2).2
            taskName := task.name })
      refine ⟨result, ?_, fun taskId either => covers taskId ?_⟩
      · rw [suggestForGraph, found]
        exact suggested
      · rw [OrderedMap.mem_keys_set]
        rcases either with old | inGraph
        · exact Or.inl (Or.inr old)
        · rcases List.mem_cons.mp inGraph with here | later
          · exact Or.inl (Or.inl here)
          · exact Or.inr later

theorem mem_keys_suggestForFanIn
    {taskDict : OrderedMap String InferredTask} (fanInSteps : List String)
    {suggestions : OrderedMap String ExchangeSuggestion} {taskId : String}
    (member : taskId ∈ suggestions.keys) :
    taskId ∈
      (fanInSteps.foldl (suggestForFanIn taskDict) suggestions).keys := by
  induction fanInSteps generalizing suggestions with
  | nil => exact member
  | cons step rest inductionHypothesis =>
      apply inductionHypothesis
      rw [suggestForFanIn, OrderedMap.mem_keys_set]
      exact Or.inr member

/-- Both ends of the queues have suggestions. -/
def Suggested
    (suggestions : OrderedMap String ExchangeSuggestion)
    (entry : String × QueueInfo) : Prop :=
  ∃ fromTask, entry.2.fromTask = some fromTask ∧
    fromTask ∈ suggestions.keys ∧ entry.2.toTask ∈ suggestions.keys

theorem prepareQueue_ok
    {suggestions : OrderedMap String ExchangeSuggestion}
    {entry : String × QueueInfo} (suggested : Suggested suggestions entry)
    (outputs : OrderedMap String (List String)) (endTasks : List String) :
    ∃ result, prepareQueue suggestions outputs endTasks entry =
      .ok result := by
  obtain ⟨fromTask, source, fromKnown, toKnown⟩ := suggested
  obtain ⟨suggestion, fromFound⟩ := exists_get?_of_mem_keys fromKnown
  obtain ⟨ending, toFound⟩ := exists_get?_of_mem_keys toKnown
  rw [prepareQueue, source]
  simp only [fromFound, toFound]
  split
  · exact ⟨_, rfl⟩
  · exact ⟨_, rfl⟩

theorem prepareQueues_ok
    {suggestions : OrderedMap String ExchangeSuggestion}
    {queues : List (String × QueueInfo)}
    (suggested : ∀ entry ∈ queues, Suggested suggestions entry)
    (outputs : OrderedMap String (List String)) (endTasks : List String) :
    ∃ configs, prepareQueues suggestions outputs endTasks queues =
      .ok configs := by
  induction queues generalizing endTasks with
  | nil => exact ⟨[], rfl⟩
  | cons entry rest inductionHypothesis =>
      obtain ⟨⟨own, processed⟩, here⟩ :=
        prepareQueue_ok (suggested entry List.mem_cons_self) outputs
          endTasks
      obtain ⟨later, ofRest⟩ := inductionHypothesis
        (fun other member =>
          suggested other (List.mem_cons_of_mem _ member)) processed
      exact exists_ok_bind here (exists_ok_bind ofRest ⟨_, rfl⟩)

theorem parseFanInMetadata_ok
    (pipelineId : Uuid) {dag : List InferredTask} {steps : List String}
    (known : ∀ step ∈ steps, step ∈ dag.map fun task => task.id)
    (metadata : OrderedMap String FanInMetadata) :
    ∃ result, parseFanInMetadata pipelineId dag steps metadata =
      .ok result := by
  induction steps generalizing metadata with
  | nil => exact ⟨metadata, rfl⟩
  | cons step rest inductionHypothesis =>
      obtain ⟨task, inDag, isStep⟩ :=
        List.mem_map.mp (known step List.mem_cons_self)
      rw [parseFanInMetadata]
      split
      · rename_i missing
        have different := List.find?_eq_none.mp missing task inDag
        exact absurd (decide_eq_true isStep) different
      · exact inductionHypothesis
          (fun other member => known other (List.mem_cons_of_mem _ member))
          _

/-! ## After the checks -/

section Checked

variable {tasks : List Task} {dag : List InferredTask}
variable {outputs taskGraph : OrderedMap String (List String)}

/-- The graph that the check for connectedness leaves has an entry for every
task, and for nothing else. -/
theorem mem_keys_taskGraph_iff
    (infers : Infers tasks dag outputs)
    (connected :
      validateSingleConnectedDag dag (parseDag dag).2 = .ok taskGraph)
    (taskId : String) :
    taskId ∈ taskGraph.keys ↔ taskId ∈ dag.map fun task => task.id := by
  cases dag with
  | nil => cases connected
  | cons first rest =>
      rw [validateSingleConnectedDag] at connected
      dsimp only at connected
      split at connected
      · rename_i complete
        rw [Bool.and_eq_true, List.isEmpty_iff, List.filter_eq_nil_iff,
          List.all_eq_true] at complete
        obtain rfl := Except.ok.inj connected
        rw [mem_keys_visitReachable_iff _ _ _ _
          (fun _ member => absurd member List.not_mem_nil)]
        have nodes : taskId ∈ nodeIds (first :: rest) ↔
            taskId ∈ (first :: rest).map fun task => task.id := by
          rw [nodeIds, List.mem_reverse, List.mem_dedup, List.mem_reverse]
        rw [← nodes]
        constructor
        · intro either
          rcases either with source | visited
          · obtain ⟨target, edge⟩ := source_of_mem_keys source
            rw [nodes, infers.ids]
            exact (infers.edges_inside edge).1
          · exact of_decide_eq_true (complete.2 taskId visited)
        · intro isNode
          have notMissing := complete.1 taskId isNode
          rw [decide_eq_true_eq, not_not] at notMissing
          exact Or.inr notMissing
      · cases connected

theorem mem_keys_taskDictOf_iff (taskId : String) :
    taskId ∈ (taskDictOf dag).keys ↔
      taskId ∈ dag.map fun task => task.id := by
  rw [taskDictOf, OrderedMap.mem_keys_ofList_iff, List.map_map]
  rfl

theorem mem_identifyFanInSteps
    {step : String} (member : step ∈ identifyFanInSteps (taskDictOf dag)) :
    step ∈ dag.map fun task => task.id := by
  obtain ⟨entry, kept, rfl⟩ := List.mem_map.mp member
  rw [← mem_keys_taskDictOf_iff]
  exact List.mem_map_of_mem (List.mem_filter.mp kept).1

/-- Every queue stands for an edge between two tasks. -/
theorem suggested_of_queue
    (infers : Infers tasks dag outputs)
    (nodup : (dag.map fun task => task.id).Nodup)
    {suggestions : OrderedMap String ExchangeSuggestion}
    (covers : ∀ taskId ∈ dag.map (fun task => task.id),
      taskId ∈ suggestions.keys)
    {entry : String × QueueInfo}
    (member : entry ∈ (identifyQueues (taskDictOf dag)).entries) :
    Suggested suggestions entry := by
  have values : (taskDictOf dag).values = dag := by
    rw [OrderedMap.values, entries_taskDictOf nodup, List.map_map]
    exact List.map_id _
  obtain ⟨edge, isEdge, rfl⟩ :=
    List.mem_map.mp (OrderedMap.mem_entries_ofList member)
  rw [values] at isEdge
  obtain ⟨source, target⟩ := infers.edges_inside isEdge
  rw [← infers.ids] at source target
  exact ⟨edge.1, rfl, covers edge.1 source, covers edge.2 target⟩

/-- Tasks that have passed the checks meet none of the errors of the later
stages; unless a task is alone, the parser returns a configuration. -/
theorem later_stages_succeed
    {keyOrder : SetOrder Json.Key} {order : SetOrder String}
    (inferred : inferDependenciesAndOutputs keyOrder order tasks =
      .ok (dag, outputs))
    (acyclic : detectCyclesKahn dag = .ok ())
    (connected :
      validateSingleConnectedDag dag (parseDag dag).2 = .ok taskGraph)
    (pipelineId : Uuid) :
    ∃ suggestions configs metadata,
      suggestExchangeTypes taskGraph (taskDictOf dag)
          (identifyFanInSteps (taskDictOf dag)) = .ok suggestions ∧
        prepareRabbitmqConfigs suggestions
          (identifyPublishersSubscribersQueues taskGraph
            (taskDictOf dag)).2.2 outputs = .ok configs ∧
        parseFanInMetadata pipelineId dag
          (identifyFanInSteps (taskDictOf dag)) .empty = .ok metadata ∧
        (validateNoSoloNodes dag (parseDag dag).2 = .ok () →
          ∃ config,
            parseGraph keyOrder order pipelineId tasks = .ok config) := by
  have infers := infers_of_ok inferred
  have nodup := nodup_of_detectCyclesKahn acyclic
  have inGraph := mem_keys_taskGraph_iff infers connected
  have known : ∀ node ∈ taskGraph.entries,
      node.1 ∈ (taskDictOf dag).keys := by
    intro node member
    rw [mem_keys_taskDictOf_iff, ← inGraph]
    exact List.mem_map_of_mem member
  obtain ⟨base, ofGraph, covers⟩ := suggestForGraph_ok known .empty
  have suggested : suggestExchangeTypes taskGraph (taskDictOf dag)
      (identifyFanInSteps (taskDictOf dag)) =
        .ok ((identifyFanInSteps (taskDictOf dag)).foldl
          (suggestForFanIn (taskDictOf dag)) base) := by
    rw [suggestExchangeTypes, ofGraph]
    rfl
  obtain ⟨configs, prepared⟩ :=
    prepareQueues_ok
      (fun entry member => suggested_of_queue infers nodup
        (fun taskId isTask => mem_keys_suggestForFanIn _
          (covers taskId (Or.inr ((inGraph taskId).mpr isTask)))) member)
      outputs []
  obtain ⟨metadata, fanIn⟩ :=
    parseFanInMetadata_ok pipelineId
      (fun step member => mem_identifyFanInSteps member) .empty
  refine ⟨_, configs, metadata, suggested, prepared, fanIn, ?_⟩
  intro notSolo
  refine exists_ok_bind inferred (exists_ok_bind acyclic ?_)
  refine exists_ok_bind notSolo (exists_ok_bind connected ?_)
  refine exists_ok_bind suggested (exists_ok_bind prepared ?_)
  exact exists_ok_bind fanIn ⟨_, rfl⟩

end Checked

/-- The tasks of the chain with what is inferred for them. -/
def chainDag : List InferredTask :=
  [{ id := "a", dependencies := [], inferredOutputs := ["b"] },
    { dependent "b" ["a"] with dependencies := ["a"], inferredOutputs := [] }]

/-- The outputs of the chain, and the graph that is searched. -/
def chainOutputs : OrderedMap String (List String) :=
  .ofList [("a", ["b"]), ("b", [])]

theorem chain_later_stages :
    ∃ suggestions configs metadata,
      suggestExchangeTypes chainOutputs (taskDictOf chainDag)
          (identifyFanInSteps (taskDictOf chainDag)) = .ok suggestions ∧
        prepareRabbitmqConfigs suggestions
          (identifyPublishersSubscribersQueues chainOutputs
            (taskDictOf chainDag)).2.2 chainOutputs = .ok configs ∧
        parseFanInMetadata examplePipeline chainDag
          (identifyFanInSteps (taskDictOf chainDag)) .empty =
            .ok metadata ∧
        (validateNoSoloNodes chainDag (parseDag chainDag).2 = .ok () →
          ∃ config,
            parseGraph .ofDedup .ofDedup examplePipeline chainTasks =
              .ok config) :=
  later_stages_succeed (by rfl) (by rfl) (by rfl) examplePipeline

end Agentcy.Parser
