import Agentcy.Parser.Dependencies

/-!
# Queues and broker entries of a parsed pipeline

Every queue of an edge has one entry, under the task that publishes on it,
with the exchange type that the degrees of that task call for; a task on which
nothing depends has at most one entry, for an exchange of its own.
-/

namespace Agentcy.Parser

open Agentcy.Library
open Agentcy.Broker

/-- The task has several dependents, or several dependencies. -/
def fansOut (tasks : List Task) (taskId : String) : Bool :=
  decide (1 < (downstream tasks taskId).length) ||
    tasks.any fun task =>
      decide (task.id = taskId) && decide (1 < task.upstream.length)

def exchangeTypeFor (tasks : List Task) (taskId : String) : String :=
  if fansOut tasks taskId then "fanout" else "direct"

theorem suggestForGraph_mem
    {taskDict : OrderedMap String InferredTask}
    {taskGraph : List (String × List String)}
    {suggestions result : OrderedMap String ExchangeSuggestion}
    (suggested : suggestForGraph taskDict taskGraph suggestions =
      .ok result)
    {taskId : String} {suggestion : ExchangeSuggestion}
    (found : result.get? taskId = some suggestion) :
    (∃ dependents, (taskId, dependents) ∈ taskGraph ∧
        suggestion.exchangeType = (suggestType dependents).1) ∨
      suggestions.get? taskId = some suggestion := by
  induction taskGraph generalizing suggestions with
  | nil =>
      cases suggested
      exact Or.inr found
  | cons node rest inductionHypothesis =>
      rw [suggestForGraph] at suggested
      cases known : taskDict.get? node.1 with
      | none =>
          rw [known] at suggested
          cases suggested
      | some task =>
          rw [known] at suggested
          rcases inductionHypothesis suggested with later | here
          · rcases later with ⟨dependents, member, type⟩
            exact Or.inl
              ⟨dependents, List.mem_cons_of_mem _ member, type⟩
          · rw [OrderedMap.get?_set] at here
            split at here
            · rename_i same
              refine Or.inl ⟨node.2, ?_, ?_⟩
              · rw [same]
                exact List.mem_cons_self
              · rw [← Option.some.inj here]
            · exact Or.inr here

theorem suggestForFanIn_get?
    {taskDict : OrderedMap String InferredTask}
    {suggestions : OrderedMap String ExchangeSuggestion}
    (fanInSteps : List String)
    {taskId : String} {suggestion : ExchangeSuggestion}
    (found : (fanInSteps.foldl (suggestForFanIn taskDict)
      suggestions).get? taskId = some suggestion) :
    (taskId ∈ fanInSteps ∧ suggestion.exchangeType = "fanout") ∨
      (taskId ∉ fanInSteps ∧
        suggestions.get? taskId = some suggestion) := by
  induction fanInSteps using List.reverseRecOn with
  | nil =>
      exact Or.inr ⟨List.not_mem_nil, found⟩
  | append_singleton front last inductionHypothesis =>
      rw [List.foldl_append] at found
      have unfolded := found
      rw [List.foldl_cons, List.foldl_nil, suggestForFanIn,
        OrderedMap.get?_set] at unfolded
      split at unfolded
      · rename_i same
        refine Or.inl ⟨?_, ?_⟩
        · rw [same]
          exact List.mem_append_right front List.mem_cons_self
        · rw [← Option.some.inj unfolded]
      · rename_i different
        rcases inductionHypothesis unfolded with inFront | absent
        · exact Or.inl
            ⟨List.mem_append_left [last] inFront.1, inFront.2⟩
        · refine Or.inr ⟨?_, absent.2⟩
          intro member
          rcases List.mem_append.mp member with before | atLast
          · exact absent.1 before
          · exact different (List.mem_singleton.mp atLast)

/-- The search for reachable tasks leaves the dependents as they are. -/
theorem getD_visitReachable
    (fuel : Nat) (taskGraph : OrderedMap String (List String))
    (visited queue : List String) (taskId : String) :
    ((visitReachable fuel taskGraph visited queue).2.get? taskId).getD
        [] =
      (taskGraph.get? taskId).getD [] := by
  induction fuel generalizing taskGraph visited queue with
  | zero =>
      rfl
  | succ fuel inductionHypothesis =>
      cases queue with
      | nil =>
          rfl
      | cons current rest =>
          rw [visitReachable]
          split
          · exact inductionHypothesis _ _ _
          · rw [inductionHypothesis, OrderedMap.get?_set]
            split
            · rename_i same
              rw [same]
              rfl
            · rfl

theorem getD_validateSingleConnectedDag
    {tasks : List InferredTask}
    {dependents taskGraph : OrderedMap String (List String)}
    (connected : validateSingleConnectedDag tasks dependents =
      .ok taskGraph) (taskId : String) :
    (taskGraph.get? taskId).getD [] =
      (dependents.get? taskId).getD [] := by
  cases tasks with
  | nil =>
      cases connected
  | cons first rest =>
      rw [validateSingleConnectedDag] at connected
      dsimp only at connected
      split at connected
      · rw [← Except.ok.inj connected]
        exact getD_visitReachable _ _ _ _ _
      · cases connected

section Suggestions

variable
  {tasks : List Task} {dag : List InferredTask}
  {outputs : OrderedMap String (List String)}

theorem entries_taskDictOf
    (nodup : (dag.map fun task => task.id).Nodup) :
    (taskDictOf dag).entries = dag.map fun task => (task.id, task) := by
  apply OrderedMap.entries_ofList_of_nodup
  rw [List.map_map]
  exact nodup

theorem nodup_upstream (task : Task) : task.upstream.Nodup := by
  rw [Task.upstream]
  split
  · exact List.nodup_nil
  · exact List.nodup_dedup _

theorem length_dependencies
    (infers : Infers tasks dag outputs)
    {task : InferredTask} (member : task ∈ dag) :
    task.dependencies.length = task.toTask.upstream.length := by
  have names := infers.names task member
  have same : task.dependencies.Perm task.toTask.upstream :=
    (List.perm_ext_iff_of_nodup names.nodup
      (nodup_upstream task.toTask)).mpr names.mem_iff
  exact same.length_eq

theorem mem_identifyFanInSteps_iff
    (infers : Infers tasks dag outputs)
    (nodup : (dag.map fun task => task.id).Nodup) (taskId : String) :
    taskId ∈ identifyFanInSteps (taskDictOf dag) ↔
      ∃ task ∈ tasks, task.id = taskId ∧ 1 < task.upstream.length := by
  rw [identifyFanInSteps, entries_taskDictOf nodup]
  constructor
  · intro member
    rcases List.mem_map.mp member with ⟨entry, kept, same⟩
    rcases List.mem_filter.mp kept with ⟨among, several⟩
    rcases List.mem_map.mp among with ⟨task, inDag, isEntry⟩
    have count := length_dependencies infers inDag
    refine ⟨task.toTask, infers.mem_tasks inDag, ?_, ?_⟩
    · rw [← same, ← isEntry]
    · rw [← count]
      rw [← isEntry] at several
      simpa using several
  · intro joins
    rcases joins with ⟨task, member, same, several⟩
    rw [← infers.tasks_eq] at member
    rcases List.mem_map.mp member with ⟨inferred, inDag, isTask⟩
    have count := length_dependencies infers inDag
    refine List.mem_map.mpr ⟨(inferred.id, inferred), ?_, ?_⟩
    · refine List.mem_filter.mpr
        ⟨List.mem_map.mpr ⟨inferred, inDag, rfl⟩, ?_⟩
      rw [← isTask] at several
      simp only [decide_eq_true_eq]
      omega
    · rw [← same, ← isTask]

/-- The suggested types are those that the degrees call for. -/
theorem exchangeType_of_suggested
    (infers : Infers tasks dag outputs)
    (nodup : (dag.map fun task => task.id).Nodup)
    {taskGraph : OrderedMap String (List String)}
    (connected : validateSingleConnectedDag dag
      (OrderedMap.gather (edges dag)) = .ok taskGraph)
    {suggestions : OrderedMap String ExchangeSuggestion}
    (suggested : suggestExchangeTypes taskGraph (taskDictOf dag)
      (identifyFanInSteps (taskDictOf dag)) = .ok suggestions)
    {taskId : String} {suggestion : ExchangeSuggestion}
    (found : suggestions.get? taskId = some suggestion) :
    suggestion.exchangeType = exchangeTypeFor tasks taskId := by
  rw [suggestExchangeTypes, bind_eq_ok] at suggested
  rcases suggested with ⟨base, fromGraph, suggested⟩
  rw [pure_eq_ok] at suggested
  rw [← suggested] at found
  have fanIn := mem_identifyFanInSteps_iff infers nodup taskId
  rcases suggestForFanIn_get? _ found with joins | single
  · have several : fansOut tasks taskId = true := by
      rcases fanIn.mp joins.1 with ⟨task, member, same, count⟩
      rw [fansOut, Bool.or_eq_true, List.any_eq_true]
      exact Or.inr ⟨task, member, by simp [same, count]⟩
    rw [joins.2, exchangeTypeFor, if_pos several]
  · rcases suggestForGraph_mem fromGraph single.2 with inGraph | before
    · rcases inGraph with ⟨dependents, member, type⟩
      have dependentsEq : dependents = downstream tasks taskId := by
        have looked := OrderedMap.get?_of_mem member
        have same := getD_validateSingleConnectedDag connected taskId
        rw [looked, OrderedMap.getD_gather] at same
        rw [← infers.outgoing_eq_downstream]
        exact same
      have noFanIn : ¬ ∃ task ∈ tasks,
          task.id = taskId ∧ 1 < task.upstream.length :=
        fun joins => single.1 (fanIn.mpr joins)
      have byDegree : fansOut tasks taskId =
          decide (1 < (downstream tasks taskId).length) := by
        rw [fansOut, Bool.or_eq_left_iff_imp]
        intro joins
        rcases List.any_eq_true.mp joins with ⟨task, member, both⟩
        simp only [Bool.and_eq_true, decide_eq_true_eq] at both
        exact absurd ⟨task, member, both⟩ noFanIn
      rw [type, dependentsEq, exchangeTypeFor, byDegree, suggestType]
      by_cases one : (downstream tasks taskId).length = 1
      · simp [one]
      · by_cases several : 1 < (downstream tasks taskId).length
        · simp [one, several]
        · simp [one, several]
    · cases before

end Suggestions

/-! ## Entries of the queues -/

def edgeConfig (fromTask exchangeType name : String) : RabbitConfig :=
  ⟨fromTask, edgeRabbit fromTask exchangeType name⟩

def endConfig (toTask exchangeType name : String) : RabbitConfig :=
  ⟨toTask, endRabbit toTask exchangeType name⟩

/-- The entries of a list of queues, when every task has the exchange type
that `typeOf` gives it. -/
inductive Prepared (typeOf : String → String) (isEnd : String → Prop) :
    List (String × QueueInfo) → List RabbitConfig → Prop
  | nil : Prepared typeOf isEnd [] []
  | edge {name : String} {info : QueueInfo} {fromTask : String}
      {queues : List (String × QueueInfo)} {configs : List RabbitConfig}
      (source : info.fromTask = some fromTask)
      (rest : Prepared typeOf isEnd queues configs) :
      Prepared typeOf isEnd ((name, info) :: queues)
        (edgeConfig fromTask (typeOf fromTask) name :: configs)
  | ending {name : String} {info : QueueInfo} {fromTask : String}
      {queues : List (String × QueueInfo)} {configs : List RabbitConfig}
      (source : info.fromTask = some fromTask)
      (last : isEnd info.toTask)
      (rest : Prepared typeOf isEnd queues configs) :
      Prepared typeOf isEnd ((name, info) :: queues)
        (edgeConfig fromTask (typeOf fromTask) name ::
          endConfig info.toTask (typeOf info.toTask) info.queueName ::
            configs)

theorem prepared_of_ok
    {suggestions : OrderedMap String ExchangeSuggestion}
    {outputs : OrderedMap String (List String)}
    {typeOf : String → String} {isEnd : String → Prop}
    (types : ∀ taskId suggestion,
      suggestions.get? taskId = some suggestion →
        suggestion.exchangeType = typeOf taskId)
    (ends : ∀ taskId, (outputs.get? taskId).getD [] = [] → isEnd taskId)
    {endTasks : List String} {queues : List (String × QueueInfo)}
    {configs : List RabbitConfig}
    (prepared : prepareQueues suggestions outputs endTasks queues =
      .ok configs) :
    Prepared typeOf isEnd queues configs := by
  induction queues generalizing endTasks configs with
  | nil =>
      cases prepared
      exact Prepared.nil
  | cons entry rest inductionHypothesis =>
      rw [prepareQueues, bind_eq_ok] at prepared
      rcases prepared with ⟨⟨own, processed⟩, here, prepared⟩
      rw [bind_eq_ok] at prepared
      rcases prepared with ⟨later, restPrepared, prepared⟩
      rw [pure_eq_ok] at prepared
      have tail := inductionHypothesis restPrepared
      rw [prepareQueue] at here
      cases source : entry.2.fromTask with
      | none =>
          rw [source] at here
          cases here
      | some fromTask =>
          rw [source] at here
          dsimp only at here
          cases suggested : suggestions.get? fromTask with
          | none =>
              rw [suggested] at here
              cases here
          | some suggestion =>
              have type := types fromTask suggestion suggested
              rw [suggested] at here
              dsimp only at here
              rw [type] at here
              split at here
              · rename_i last
                have isLast := ends entry.2.toTask
                  (List.isEmpty_iff.mp last.1)
                cases ending : suggestions.get? entry.2.toTask with
                | none =>
                    rw [ending] at here
                    cases here
                | some endSuggestion =>
                    have endType :=
                      types entry.2.toTask endSuggestion ending
                    rw [ending] at here
                    dsimp only at here
                    rw [endType] at here
                    cases here
                    rw [← prepared]
                    exact Prepared.ending source isLast tail
              · cases here
                rw [← prepared]
                exact Prepared.edge source tail

/-- Every final task that a queue leads to has an entry of its own for one of
its queues. -/
theorem endConfig_mem_of_ok
    {suggestions : OrderedMap String ExchangeSuggestion}
    {outputs : OrderedMap String (List String)}
    {endTasks : List String} {queues : List (String × QueueInfo)}
    {configs : List RabbitConfig}
    (prepared : prepareQueues suggestions outputs endTasks queues =
      .ok configs)
    {entry : String × QueueInfo} (member : entry ∈ queues)
    (final : (outputs.get? entry.2.toTask).getD [] = []) :
    entry.2.toTask ∈ endTasks ∨
      ∃ other ∈ queues, other.2.toTask = entry.2.toTask ∧
        ∃ type, endConfig entry.2.toTask type other.2.queueName ∈
          configs := by
  induction queues generalizing endTasks configs with
  | nil =>
      cases member
  | cons first rest inductionHypothesis =>
      rw [prepareQueues, bind_eq_ok] at prepared
      rcases prepared with ⟨⟨own, processed⟩, here, prepared⟩
      rw [bind_eq_ok] at prepared
      rcases prepared with ⟨later, restPrepared, prepared⟩
      rw [pure_eq_ok] at prepared
      have step : (processed = endTasks ∧
            ((outputs.get? first.2.toTask).getD [] = [] →
              first.2.toTask ∈ endTasks)) ∨
          (processed = first.2.toTask :: endTasks ∧
            ∃ type, endConfig first.2.toTask type first.2.queueName ∈
              own) := by
        rw [prepareQueue] at here
        split at here
        · cases here
        · split at here
          · cases here
          · dsimp only at here
            split at here
            · split at here
              · cases here
              · rename_i ending _
                cases here
                exact Or.inr ⟨rfl, ending.exchangeType,
                  List.mem_cons_of_mem _ List.mem_cons_self⟩
            · rename_i done
              cases here
              refine Or.inl ⟨rfl, fun empty => ?_⟩
              by_contra fresh
              exact done ⟨List.isEmpty_iff.mpr empty, fresh⟩
      have fromRest :
          (∃ other ∈ rest, other.2.toTask = entry.2.toTask ∧
            ∃ type, endConfig entry.2.toTask type other.2.queueName ∈
              later) →
          ∃ other ∈ first :: rest, other.2.toTask = entry.2.toTask ∧
            ∃ type, endConfig entry.2.toTask type other.2.queueName ∈
              configs := by
        rintro ⟨other, among, same, type, isConfig⟩
        refine ⟨other, List.mem_cons_of_mem _ among, same, type, ?_⟩
        rw [← prepared]
        exact List.mem_append_right _ isConfig
      have fromFirst : first.2.toTask = entry.2.toTask →
          (∃ type, endConfig first.2.toTask type first.2.queueName ∈
            own) →
          ∃ other ∈ first :: rest, other.2.toTask = entry.2.toTask ∧
            ∃ type, endConfig entry.2.toTask type other.2.queueName ∈
              configs := by
        rintro same ⟨type, isConfig⟩
        refine ⟨first, List.mem_cons_self, same, type, ?_⟩
        rw [← prepared, ← same]
        exact List.mem_append_left _ isConfig
      rcases List.mem_cons.mp member with isFirst | inRest
      · rw [isFirst] at final fromFirst ⊢
        rcases step with ⟨_, done⟩ | ⟨_, own⟩
        · exact Or.inl (done final)
        · exact Or.inr (fromFirst rfl own)
      · rcases inductionHypothesis restPrepared inRest with
          before | found
        · rcases step with ⟨same, _⟩ | ⟨same, own⟩
          · rw [same] at before
            exact Or.inl before
          · rw [same] at before
            rcases List.mem_cons.mp before with isFirst | earlier
            · exact Or.inr (fromFirst isFirst.symm own)
            · exact Or.inl earlier
        · exact Or.inr (fromRest found)

theorem mem_of_parseFanInMetadata
    {pipelineId : Uuid} {tasks : List InferredTask}
    {steps : List String}
    {metadata result : OrderedMap String FanInMetadata}
    (parsed : parseFanInMetadata pipelineId tasks steps metadata =
      .ok result)
    {taskId : String} (found : taskId ∈ result.keys) :
    taskId ∈ steps ∨ taskId ∈ metadata.keys := by
  induction steps generalizing metadata with
  | nil =>
      cases parsed
      exact Or.inr found
  | cons step rest inductionHypothesis =>
      rw [parseFanInMetadata] at parsed
      split at parsed
      · cases parsed
      · rcases inductionHypothesis parsed with later | before
        · exact Or.inl (List.mem_cons_of_mem _ later)
        · rw [OrderedMap.mem_keys_set] at before
          rcases before with same | earlier
          · rw [same]
            exact Or.inl List.mem_cons_self
          · exact Or.inr earlier

namespace Prepared

variable
  {typeOf : String → String} {isEnd : String → Prop}
  {queues : List (String × QueueInfo)} {configs : List RabbitConfig}

theorem mem_configs
    (prepared : Prepared typeOf isEnd queues configs)
    {config : RabbitConfig} (member : config ∈ configs) :
    ∃ name info, (name, info) ∈ queues ∧
      ((∃ fromTask, info.fromTask = some fromTask ∧
          config = edgeConfig fromTask (typeOf fromTask) name) ∨
        (isEnd info.toTask ∧ config =
          endConfig info.toTask (typeOf info.toTask) info.queueName)) := by
  induction prepared with
  | nil =>
      cases member
  | @edge name info fromTask queues configs source rest
      inductionHypothesis =>
      rcases List.mem_cons.mp member with here | later
      · exact ⟨name, info, List.mem_cons_self,
          Or.inl ⟨fromTask, source, here⟩⟩
      · rcases inductionHypothesis later with ⟨other, found, among, shape⟩
        exact ⟨other, found, List.mem_cons_of_mem _ among, shape⟩
  | @ending name info fromTask queues configs source last rest
      inductionHypothesis =>
      rcases List.mem_cons.mp member with here | later
      · exact ⟨name, info, List.mem_cons_self,
          Or.inl ⟨fromTask, source, here⟩⟩
      · rcases List.mem_cons.mp later with atEnd | after
        · exact ⟨name, info, List.mem_cons_self, Or.inr ⟨last, atEnd⟩⟩
        · rcases inductionHypothesis after with
            ⟨other, found, among, shape⟩
          exact ⟨other, found, List.mem_cons_of_mem _ among, shape⟩

theorem edgeConfig_mem
    (prepared : Prepared typeOf isEnd queues configs)
    {name : String} {info : QueueInfo} (member : (name, info) ∈ queues)
    {fromTask : String} (source : info.fromTask = some fromTask) :
    edgeConfig fromTask (typeOf fromTask) name ∈ configs := by
  induction prepared with
  | nil =>
      cases member
  | edge first rest inductionHypothesis =>
      rcases List.mem_cons.mp member with here | later
      · cases here
        rw [source] at first
        cases first
        exact List.mem_cons_self
      · exact List.mem_cons_of_mem _ (inductionHypothesis later)
  | ending first last rest inductionHypothesis =>
      rcases List.mem_cons.mp member with here | later
      · cases here
        rw [source] at first
        cases first
        exact List.mem_cons_self
      · exact List.mem_cons_of_mem _
          (List.mem_cons_of_mem _ (inductionHypothesis later))

/-- The first entry that names the queue of an edge is the edge's own. -/
theorem find?_queue
    (prepared : Prepared typeOf isEnd queues configs)
    (nodup : (queues.map Prod.fst).Nodup)
    (named : ∀ entry ∈ queues, entry.2.queueName = entry.1)
    {name : String} {info : QueueInfo} (member : (name, info) ∈ queues)
    {fromTask : String} (source : info.fromTask = some fromTask)
    {test : RabbitConfig → Bool}
    (tests : ∀ config ∈ configs, test config = true ↔
      config.rabbitmq.bind Rabbit.queue = some name) :
    configs.find? test =
      some (edgeConfig fromTask (typeOf fromTask) name) := by
  induction prepared with
  | nil =>
      cases member
  | @edge first firstInfo firstSource queues configs isSource rest
      inductionHypothesis =>
      rw [List.map_cons, List.nodup_cons] at nodup
      have head := tests _ List.mem_cons_self
      rcases List.mem_cons.mp member with here | later
      · cases here
        rw [source] at isSource
        cases isSource
        rw [List.find?_cons_of_pos (head.mpr rfl)]
      · have different : ¬ test (edgeConfig firstSource
            (typeOf firstSource) first) = true := by
          intro passes
          have same : first = name := Option.some.inj (head.mp passes)
          rw [same] at nodup
          exact nodup.1 (List.mem_map.mpr ⟨_, later, rfl⟩)
        rw [List.find?_cons_of_neg different]
        apply inductionHypothesis nodup.2 _ later
        · intro config among
          exact tests config (List.mem_cons_of_mem _ among)
        · intro entry among
          exact named entry (List.mem_cons_of_mem _ among)
  | @ending first firstInfo firstSource queues configs isSource last
      rest inductionHypothesis =>
      rw [List.map_cons, List.nodup_cons] at nodup
      have head := tests _ List.mem_cons_self
      have second := tests _ (List.mem_cons_of_mem _ List.mem_cons_self)
      have own : firstInfo.queueName = first :=
        named _ List.mem_cons_self
      rcases List.mem_cons.mp member with here | later
      · cases here
        rw [source] at isSource
        cases isSource
        rw [List.find?_cons_of_pos (head.mpr rfl)]
      · have apart : first ≠ name := by
          intro same
          rw [same] at nodup
          exact nodup.1 (List.mem_map.mpr ⟨_, later, rfl⟩)
        have different : ¬ test (edgeConfig firstSource
            (typeOf firstSource) first) = true := fun passes =>
          apart (Option.some.inj (head.mp passes))
        have differentEnd : ¬ test (endConfig firstInfo.toTask
            (typeOf firstInfo.toTask) firstInfo.queueName) = true := by
          intro passes
          have same : firstInfo.queueName = name :=
            Option.some.inj (second.mp passes)
          exact apart (own.symm.trans same)
        rw [List.find?_cons_of_neg different,
          List.find?_cons_of_neg differentEnd]
        apply inductionHypothesis nodup.2 _ later
        · intro config among
          exact tests config
            (List.mem_cons_of_mem _ (List.mem_cons_of_mem _ among))
        · intro entry among
          exact named entry (List.mem_cons_of_mem _ among)

/-- A task on which others depend publishes on the queues of its edges. -/
theorem outgoingEdges_eq
    (prepared : Prepared typeOf isEnd queues configs)
    {taskId : String} (inner : ¬ isEnd taskId) :
    outgoingEdges configs taskId =
      (queues.filter fun entry =>
        decide (entry.2.fromTask = some taskId)).map fun entry =>
          edgeRabbit taskId (typeOf taskId) entry.1 := by
  have ownEdge : ∀ (fromTask name : String) (tail : List RabbitConfig),
      outgoingEdges (edgeConfig fromTask (typeOf fromTask) name :: tail)
          taskId =
        if fromTask = taskId then
          edgeRabbit taskId (typeOf taskId) name ::
            outgoingEdges tail taskId
        else outgoingEdges tail taskId := by
    intro fromTask name tail
    by_cases same : fromTask = taskId
    · subst same
      simp [outgoingEdges, edgeConfig]
    · simp [outgoingEdges, edgeConfig, same]
  induction prepared with
  | nil =>
      rfl
  | @edge name info fromTask queues configs source rest
      inductionHypothesis =>
      rw [ownEdge, inductionHypothesis]
      by_cases same : fromTask = taskId
      · simp [same, source]
      · simp [same, source]
  | @ending name info fromTask queues configs source last rest
      inductionHypothesis =>
      have notHere : info.toTask ≠ taskId := by
        intro same
        rw [same] at last
        exact inner last
      have dropped :
          outgoingEdges
            (endConfig info.toTask (typeOf info.toTask)
              info.queueName :: configs) taskId =
            outgoingEdges configs taskId := by
        simp [outgoingEdges, endConfig, notHere]
      rw [ownEdge, dropped, inductionHypothesis]
      by_cases same : fromTask = taskId
      · simp [same, source]
      · simp [same, source]

end Prepared

end Agentcy.Parser
