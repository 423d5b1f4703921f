import Agentcy.Parser.FrontEnd
import Agentcy.Parser.Parsing

/-!
# One queue for each edge

The queue of an edge is named after its two tasks, with a separator between
them that the names of tasks may contain.  Two edges share a queue exactly
when the separator can be found in two places of its name.
-/

namespace Agentcy.Parser

open Agentcy.Library
open Agentcy.Broker

/-- The names of the second edge divide the joined names of the first one at
a later place: behind the separator, or at the underscore that ends it. -/
def LaterDivision (first second : String × String) : Prop :=
  (∃ middle, second.1 = first.1 ++ "_to_" ++ middle ∧
      first.2 = middle ++ "_to_" ++ second.2) ∨
    (second.1 = first.1 ++ "_to" ∧ first.2 = "to_" ++ second.2)

theorem separator_overlap
    {between back rest : List Char}
    (same : "_to_".toList ++ back =
      between ++ ("_to_".toList ++ rest)) :
    between = [] ∨
      (∃ middle, between = "_to_".toList ++ middle ∧
        back = middle ++ ("_to_".toList ++ rest)) ∨
      between = "_to".toList ∧ back = "to_".toList ++ rest := by
  have separator : "_to_".toList = ['_', 't', 'o', '_'] := by
    decide
  rw [separator] at same ⊢
  match between with
  | [] =>
      exact Or.inl rfl
  | [letter] =>
      simp at same
  | [letter, second] =>
      simp at same
  | [letter, second, third] =>
      simp only [List.cons_append, List.nil_append, List.cons.injEq]
        at same
      obtain ⟨rfl, rfl, rfl, _, same⟩ := same
      exact Or.inr (Or.inr ⟨by decide, same⟩)
  | letter :: second :: third :: fourth :: middle =>
      simp only [List.cons_append, List.nil_append, List.cons.injEq]
        at same
      obtain ⟨rfl, rfl, rfl, rfl, same⟩ := same
      exact Or.inr (Or.inl ⟨middle, rfl, same⟩)

theorem eq_or_laterDivision
    {first second : String × String} {between : List Char}
    (longer : second.1.toList = first.1.toList ++ between)
    (same : "_to_".toList ++ first.2.toList =
      between ++ ("_to_".toList ++ second.2.toList)) :
    first = second ∨ LaterDivision first second := by
  rcases separator_overlap same with
    rfl | ⟨middle, rfl, back⟩ | ⟨rfl, back⟩
  · left
    rw [List.append_nil] at longer
    rw [List.nil_append, List.append_cancel_left_eq] at same
    exact Prod.ext (String.ext longer.symm) (String.ext same)
  · right
    left
    refine ⟨String.ofList middle, String.ext ?_, String.ext ?_⟩
    · simpa using longer
    · simpa using back
  · right
    right
    refine ⟨String.ext ?_, String.ext ?_⟩
    · simpa using longer
    · simpa using back

theorem queueName_of_laterDivision
    {first second : String × String}
    (later : LaterDivision first second) :
    queueName first.1 first.2 = queueName second.1 second.2 := by
  apply String.ext
  rw [toList_queueName, toList_queueName]
  rcases later with ⟨middle, front, back⟩ | ⟨front, back⟩
  · rw [front, back]
    simp
  · rw [front, back]
    simp

/-- A text is shorter than the same text with more behind it. -/
theorem not_laterDivision_self (edge : String × String) :
    ¬ LaterDivision edge edge := by
  rintro (⟨_, longer, _⟩ | ⟨longer, _⟩)
  · have counts := congrArg (fun text => text.toList.length) longer
    simp at counts
  · have counts := congrArg (fun text => text.toList.length) longer
    simp at counts

/-- Edges share a queue exactly if they are one, or their names divide the
name of the queue differently. -/
theorem queueName_eq_iff (first second : String × String) :
    queueName first.1 first.2 = queueName second.1 second.2 ↔
      first = second ∨ LaterDivision first second ∨
        LaterDivision second first := by
  constructor
  · intro same
    have lists := congrArg String.toList same
    rw [toList_queueName, toList_queueName,
      List.append_cancel_left_eq] at lists
    rcases List.append_eq_append_iff.mp lists with
      ⟨between, longer, rest⟩ | ⟨between, longer, rest⟩
    · exact (eq_or_laterDivision longer rest).imp_right Or.inl
    · exact
        (eq_or_laterDivision longer rest).imp Eq.symm fun later =>
          Or.inr later
  · rintro (rfl | later | later)
    · rfl
    · exact queueName_of_laterDivision later
    · exact (queueName_of_laterDivision later).symm

namespace FinalConfig

variable (config : FinalConfig)

def queuesOf (edge : String × String) : List (String × QueueInfo) :=
  config.queues.entries.filter fun entry =>
    decide (entry.2.fromTask = some edge.1 ∧ entry.2.toTask = edge.2)

/-- The task that the queue of a broker entry leads to. -/
def targetOf (item : RabbitConfig) : Option String :=
  (item.rabbitmq.bind Rabbit.queue).bind fun name =>
    (config.queues.get? name).map QueueInfo.toTask

/-- The broker entry is for publishing along the edge. -/
def PublishesOn (item : RabbitConfig) (edge : String × String) : Prop :=
  item.taskId = edge.1 ∧ config.targetOf item = some edge.2

instance (item : RabbitConfig) (edge : String × String) :
    Decidable (config.PublishesOn item edge) :=
  inferInstanceAs (Decidable (_ ∧ _))

def publishersOf (edge : String × String) : List RabbitConfig :=
  config.rabbitmqConfigs.filter fun item =>
    decide (config.PublishesOn item edge)

end FinalConfig

/-- An edge of the task list, from a dependency to the task that names it. -/
def IsEdge (tasks : List Task) (edge : String × String) : Prop :=
  edge.2 ∈ downstream tasks edge.1

/-- Edges, queues and broker entries correspond to each other, the entry of
the pipeline and the entries of final tasks apart. -/
structure EdgesMatchQueues
    (pipelineId : Uuid) (tasks : List Task) (config : FinalConfig) :
    Prop where
  oneQueue : ∀ edge, IsEdge tasks edge →
    (config.queuesOf edge).length = 1
  onePublisher : ∀ edge, IsEdge tasks edge →
    (config.publishersOf edge).length = 1
  noOtherQueue : ∀ entry ∈ config.queues.entries,
    entry = (entryQueueName pipelineId, entryQueue pipelineId) ∨
      ∃ edge, IsEdge tasks edge ∧ entry ∈ config.queuesOf edge
  noOtherPublisher : ∀ item ∈ config.rabbitmqConfigs,
    item = ⟨"entry", entryRabbit pipelineId⟩ ∨
      (∃ edge, IsEdge tasks edge ∧ config.PublishesOn item edge) ∨
        (downstream tasks item.taskId = [] ∧
          config.targetOf item = some item.taskId)
  distinctNames : ∀ first second, IsEdge tasks first →
    IsEdge tasks second →
      queueName first.1 first.2 = queueName second.1 second.2 →
        first = second

/-- No two edges divide one name at different places. -/
def NoLaterDivision (tasks : List Task) : Prop :=
  ∀ first second, IsEdge tasks first → IsEdge tasks second →
    ¬ LaterDivision first second

/-- The entries made from a list of queues that pass a test, if it fails the
entries of final tasks and agrees with a test of queues otherwise. -/
theorem Prepared.length_filter
    {typeOf : String → String} {isEnd : String → Prop}
    {queues : List (String × QueueInfo)} {configs : List RabbitConfig}
    (prepared : Prepared typeOf isEnd queues configs)
    {test : RabbitConfig → Bool} {picks : String × QueueInfo → Bool}
    (edges : ∀ entry ∈ queues, ∀ fromTask,
      entry.2.fromTask = some fromTask →
        test (edgeConfig fromTask (typeOf fromTask) entry.1) =
          picks entry)
    (ends : ∀ entry ∈ queues, isEnd entry.2.toTask →
      test (endConfig entry.2.toTask (typeOf entry.2.toTask)
        entry.2.queueName) = false) :
    (configs.filter test).length = (queues.filter picks).length := by
  induction prepared with
  | nil =>
      rfl
  | @edge name info fromTask queues configs source rest
      inductionHypothesis =>
      have here := edges (name, info) List.mem_cons_self fromTask source
      have tail := inductionHypothesis
        (fun entry member => edges entry (List.mem_cons_of_mem _ member))
        (fun entry member => ends entry (List.mem_cons_of_mem _ member))
      dsimp only at here
      rw [List.filter_cons, List.filter_cons, here]
      by_cases picked : picks (name, info) = true
      · rw [if_pos picked, if_pos picked, List.length_cons,
          List.length_cons, tail]
      · rw [if_neg picked, if_neg picked, tail]
  | @ending name info fromTask queues configs source last rest
      inductionHypothesis =>
      have here := edges (name, info) List.mem_cons_self fromTask source
      have atEnd := ends (name, info) List.mem_cons_self last
      have tail := inductionHypothesis
        (fun entry member => edges entry (List.mem_cons_of_mem _ member))
        (fun entry member => ends entry (List.mem_cons_of_mem _ member))
      dsimp only at here atEnd
      rw [List.filter_cons, List.filter_cons, List.filter_cons, here,
        atEnd, if_neg Bool.false_ne_true]
      by_cases picked : picks (name, info) = true
      · rw [if_pos picked, if_pos picked, List.length_cons,
          List.length_cons, tail]
      · rw [if_neg picked, if_neg picked, tail]

theorem length_filter_eq_one
    {α : Type} {items : List α} (nodup : items.Nodup) {item : α}
    (member : item ∈ items) {test : α → Bool}
    (only : ∀ other ∈ items, test other = true ↔ other = item) :
    (items.filter test).length = 1 := by
  classical
  calc (items.filter test).length
      = items.countP test := List.countP_eq_length_filter.symm
    _ = items.count item := by
        apply List.countP_congr
        intro other among
        rw [only other among, beq_iff_eq]
    _ = 1 := List.count_eq_one_of_mem nodup member

namespace Parsing

variable
  {pipelineId : Uuid} {tasks : List Task} {config : FinalConfig}
  (parsing : Parsing pipelineId tasks config)

include parsing

theorem isEdge_iff (edge : String × String) :
    IsEdge tasks edge ↔ edge ∈ edges parsing.dag :=
  (parsing.infers.mem_edges_iff edge).symm

theorem nodup_edges : (edges parsing.dag).Nodup := by
  have distinct := nodup_of_detectCyclesKahn parsing.passed
  have names := parsing.infers.names
  unfold edges
  rw [List.nodup_flatMap]
  constructor
  · intro task member
    apply (names task member).nodup.map
    intro first second same
    exact congrArg Prod.fst same
  · unfold List.Nodup at distinct
    rw [List.pairwise_map] at distinct
    apply distinct.imp
    intro first second different edge inFirst inSecond
    obtain ⟨_, _, rfl⟩ := List.mem_map.mp inFirst
    obtain ⟨_, _, same⟩ := List.mem_map.mp inSecond
    exact different (congrArg Prod.snd same).symm

theorem edgeQueues_eq
    (apart : ∀ first second, IsEdge tasks first →
      IsEdge tasks second →
        queueName first.1 first.2 = queueName second.1 second.2 →
          first = second) :
    parsing.edgeQueues =
      (edges parsing.dag).map fun edge =>
        (queueName edge.1 edge.2, edgeQueue edge) := by
  unfold edgeQueues identifyQueues
  rw [parsing.values_taskDict]
  apply OrderedMap.entries_ofList_of_nodup
  rw [List.map_map]
  apply List.Nodup.map_on _ parsing.nodup_edges
  intro first isFirst second isSecond same
  exact
    apart first second ((parsing.isEdge_iff first).mpr isFirst)
      ((parsing.isEdge_iff second).mpr isSecond) same

theorem get?_queues
    {entry : String × QueueInfo} (member : entry ∈ parsing.edgeQueues) :
    config.queues.get? entry.1 = some entry.2 :=
  OrderedMap.get?_of_mem (parsing.mem_queues_of_edge member)

theorem targetOf_of_mem
    {entry : String × QueueInfo} (member : entry ∈ parsing.edgeQueues)
    {item : RabbitConfig}
    (isQueue : item.rabbitmq.bind Rabbit.queue = some entry.1) :
    config.targetOf item = some entry.2.toTask := by
  unfold FinalConfig.targetOf
  rw [isQueue, Option.bind_some, parsing.get?_queues member]
  rfl

theorem targetOf_entry :
    config.targetOf ⟨"entry", entryRabbit pipelineId⟩ = some "entry" := by
  have member : (entryQueueName pipelineId, entryQueue pipelineId) ∈
      config.queues.entries := by
    rw [parsing.queues_entries]
    exact List.mem_append_right _ List.mem_cons_self
  change
    (config.queues.get? (entryQueueName pipelineId)).map
      QueueInfo.toTask = _
  rw [OrderedMap.get?_of_mem member]
  rfl

/-- The queues that lead along an edge are queues of edges. -/
theorem queuesOf_eq (edge : String × String) :
    config.queuesOf edge =
      parsing.edgeQueues.filter fun entry =>
        decide (entry.2.fromTask = some edge.1 ∧
          entry.2.toTask = edge.2) := by
  unfold FinalConfig.queuesOf
  rw [parsing.queues_entries, List.filter_append]
  have last :
      [(entryQueueName pipelineId, entryQueue pipelineId)].filter
        (fun entry => decide (entry.2.fromTask = some edge.1 ∧
          entry.2.toTask = edge.2)) = [] := by
    simp [entryQueue]
  rw [last, List.append_nil]

/-- There are as many publishers of an edge as queues for it. -/
theorem length_publishersOf
    {edge : String × String} (isEdge : IsEdge tasks edge) :
    (config.publishersOf edge).length = (config.queuesOf edge).length := by
  have different : edge.1 ≠ edge.2 := parsing.ne_of_edge isEdge
  unfold FinalConfig.publishersOf
  rw [parsing.configs_eq, List.filter_append, List.length_append,
    parsing.queuesOf_eq]
  have last :
      ([⟨"entry", entryRabbit pipelineId⟩].filter fun item =>
        decide (config.PublishesOn item edge)) = [] := by
    rw [List.filter_eq_nil_iff]
    intro item isLast publishes
    rw [List.mem_singleton.mp isLast, decide_eq_true_eq,
      FinalConfig.PublishesOn, parsing.targetOf_entry, Option.some_inj]
      at publishes
    exact different (publishes.1.symm.trans publishes.2)
  rw [last, List.length_nil, Nat.add_zero]
  apply parsing.prepared.length_filter
  · intro entry member fromTask source
    have target :
        config.targetOf
            (edgeConfig fromTask (exchangeTypeFor tasks fromTask)
              entry.1) =
          some entry.2.toTask :=
      parsing.targetOf_of_mem member rfl
    apply decide_eq_decide.mpr
    unfold FinalConfig.PublishesOn
    rw [target, source, Option.some_inj, Option.some_inj]
    exact Iff.rfl
  · intro entry member _
    have named : entry.2.queueName = entry.1 := parsing.named member
    have target :
        config.targetOf
            (endConfig entry.2.toTask
              (exchangeTypeFor tasks entry.2.toTask)
              entry.2.queueName) =
          some entry.2.toTask :=
      parsing.targetOf_of_mem member (congrArg some named)
    rw [decide_eq_false_iff_not, FinalConfig.PublishesOn, target,
      Option.some_inj]
    rintro ⟨isSource, isTarget⟩
    exact different (isSource.symm.trans isTarget)

theorem noOtherQueue :
    ∀ entry ∈ config.queues.entries,
      entry = (entryQueueName pipelineId, entryQueue pipelineId) ∨
        ∃ edge, IsEdge tasks edge ∧ entry ∈ config.queuesOf edge := by
  intro entry member
  refine (parsing.mem_queues member).symm.imp_right ?_
  intro ofEdge
  obtain ⟨fromTask, toTask, isEdge, rfl⟩ := parsing.mem_edgeQueues ofEdge
  exact
    ⟨(fromTask, toTask), isEdge,
      List.mem_filter.mpr ⟨member, decide_eq_true ⟨rfl, rfl⟩⟩⟩

theorem noOtherPublisher :
    ∀ item ∈ config.rabbitmqConfigs,
      item = ⟨"entry", entryRabbit pipelineId⟩ ∨
        (∃ edge, IsEdge tasks edge ∧ config.PublishesOn item edge) ∨
          (downstream tasks item.taskId = [] ∧
            config.targetOf item = some item.taskId) := by
  intro item member
  rw [parsing.configs_eq] at member
  rcases List.mem_append.mp member with own | last
  · right
    obtain ⟨name, info, among, shape⟩ := parsing.prepared.mem_configs own
    have target := @targetOf_of_mem pipelineId tasks config parsing
      (name, info) among
    obtain ⟨fromTask, toTask, isEdge, same⟩ :=
      parsing.mem_edgeQueues among
    rcases shape with ⟨source, isSource, rfl⟩ | ⟨isEnd, rfl⟩
    · left
      rw [Prod.mk.injEq] at same
      rw [same.2] at isSource target
      refine ⟨(fromTask, toTask), isEdge, ?_, target rfl⟩
      exact (Option.some.inj isSource).symm
    · right
      have named : info.queueName = name := parsing.named among
      exact ⟨isEnd, target (congrArg some named)⟩
  · exact Or.inl (List.mem_singleton.mp last)

/-- With different names, every edge keeps its queue. -/
theorem oneQueue
    (apart : ∀ first second, IsEdge tasks first →
      IsEdge tasks second →
        queueName first.1 first.2 = queueName second.1 second.2 →
          first = second)
    {edge : String × String} (isEdge : IsEdge tasks edge) :
    (config.queuesOf edge).length = 1 := by
  rw [parsing.queuesOf_eq, parsing.edgeQueues_eq apart, List.filter_map,
    List.length_map]
  apply length_filter_eq_one parsing.nodup_edges
    ((parsing.isEdge_iff edge).mp isEdge)
  intro other _
  rw [Function.comp_apply, decide_eq_true_eq, Prod.ext_iff]
  exact and_congr_left fun _ => Option.some_inj

end Parsing

/-- Edges correspond to queues and publishers exactly when no name of a queue
can be divided into the names of two different edges. -/
theorem edgesMatchQueues_iff
    {keyOrder : SetOrder Json.Key} {order : SetOrder String}
    {pipelineId : Uuid} {tasks : List Task} {config : FinalConfig}
    (accepted : parseGraph keyOrder order pipelineId tasks = .ok config) :
    EdgesMatchQueues pipelineId tasks config ↔ NoLaterDivision tasks := by
  obtain ⟨parsing⟩ := parsing_of_parseGraph accepted
  constructor
  · intro matching first second isFirst isSecond later
    have same :=
      matching.distinctNames first second isFirst isSecond
        (queueName_of_laterDivision later)
    subst same
    exact not_laterDivision_self first later
  · intro undivided
    have apart : ∀ first second, IsEdge tasks first →
        IsEdge tasks second →
          queueName first.1 first.2 = queueName second.1 second.2 →
            first = second := by
      intro first second isFirst isSecond same
      rcases (queueName_eq_iff first second).mp same with
        equal | later | later
      · exact equal
      · exact absurd later (undivided first second isFirst isSecond)
      · exact absurd later (undivided second first isSecond isFirst)
    constructor
    · intro edge isEdge
      exact parsing.oneQueue apart isEdge
    · intro edge isEdge
      rw [parsing.length_publishersOf isEdge]
      exact parsing.oneQueue apart isEdge
    · exact parsing.noOtherQueue
    · exact parsing.noOtherPublisher
    · exact apart

/-! ## A chain, and a name with two divisions -/

def examplePipeline : Uuid :=
  ⟨"0", by decide, List.all_eq_true.mp (by decide)⟩

theorem accepted_of_isSome
    {tasks : List Task}
    (accepted :
      (parseGraph .ofDedup .ofDedup examplePipeline
        tasks).toOption.isSome = true) :
    parseGraph .ofDedup .ofDedup examplePipeline tasks =
      .ok ((parseGraph .ofDedup .ofDedup examplePipeline
        tasks).toOption.get accepted) := by
  revert accepted
  cases parseGraph .ofDedup .ofDedup examplePipeline tasks with
  | error error =>
      intro accepted
      cases accepted
  | ok config =>
      intro _
      rfl

theorem chain_matches_queues :
    ∃ config,
      parseGraph .ofDedup .ofDedup examplePipeline
          [{ id := "a" }, dependent "b" ["a"]] = .ok config ∧
        EdgesMatchQueues examplePipeline
          [{ id := "a" }, dependent "b" ["a"]] config := by
  have parsed :=
    @accepted_of_isSome [{ id := "a" }, dependent "b" ["a"]]
      (by decide +kernel)
  refine ⟨_, parsed, (edgesMatchQueues_iff parsed).mpr ?_⟩
  have only : ∀ edge : String × String,
      IsEdge [{ id := "a" }, dependent "b" ["a"]] edge →
        edge = ("a", "b") := by
    intro edge isEdge
    obtain ⟨task, member, named, same⟩ := mem_downstream_iff.mp isEdge
    rcases List.mem_cons.mp member with rfl | later
    · cases named
    · obtain rfl := List.mem_singleton.mp later
      exact Prod.ext (List.mem_singleton.mp named) same.symm
  intro first second isFirst isSecond later
  rw [only first isFirst, only second isSecond] at later
  exact not_laterDivision_self _ later

/-- The edges from `a` to `b_to_c` and from `a_to_b` to `c` have one queue. -/
def dividedTasks : List Task :=
  [{ id := "a" }, dependent "a_to_b" ["a"], dependent "b_to_c" ["a"],
    dependent "c" ["a_to_b"]]

theorem divided_edge_has_no_queue :
    ∃ config,
      parseGraph .ofDedup .ofDedup examplePipeline dividedTasks =
          .ok config ∧
        IsEdge dividedTasks ("a", "b_to_c") ∧
        config.queuesOf ("a", "b_to_c") = [] ∧
        ¬ EdgesMatchQueues examplePipeline dividedTasks config := by
  have parsed := @accepted_of_isSome dividedTasks (by decide +kernel)
  have isEdge : IsEdge dividedTasks ("a", "b_to_c") := by
    change _ ∈ _
    decide +kernel
  have noQueue :
      ((parseGraph .ofDedup .ofDedup examplePipeline
        dividedTasks).toOption.get (by decide +kernel)).queuesOf
          ("a", "b_to_c") = [] := by
    decide +kernel
  refine ⟨_, parsed, isEdge, noQueue, ?_⟩
  intro matching
  have one := matching.oneQueue _ isEdge
  rw [noQueue] at one
  cases one

end Agentcy.Parser
