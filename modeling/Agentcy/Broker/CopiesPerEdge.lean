import Agentcy.Broker.BoundQueues
import Agentcy.Forwarder.Publish

/-!
# Copies of an envelope

One call publishes at least once for each outgoing edge of a task, every time
on the exchange of the task.  On a direct exchange the key picks out one queue;
a fanout exchange copies each of the messages to all queues bound to it.
-/

namespace Agentcy.Broker

open Agentcy.Library
open Agentcy.Parser
open Agentcy.Forwarder
open PyText

/-- The queues that the envelopes of a call are put into, with repetitions. -/
def delivered
    (config : FinalConfig) (order : SetOrder String) (suffixed : Bool)
    (live : List (LaunchedRun config)) (runId : Uuid)
    (sent : List Sent) : List String :=
  sent.flatMap fun each =>
    publishTo suffixed (liveBindings config order suffixed live) runId
      each.edge

/-- The queues of the outgoing edges of a task in a run. -/
def edgeQueuesOf
    (tasks : List Task) (suffixed : Bool) (runId : Uuid)
    (taskId : String) : List String :=
  (downstream tasks taskId).map fun dependent =>
    consumerQueue suffixed runId (queueName taskId dependent)

/-- One copy in the queue of each outgoing edge and none elsewhere. -/
def OneCopyPerEdge
    (tasks : List Task) (suffixed : Bool) (runId : Uuid)
    (taskId : String) (queues : List String) : Prop :=
  ∀ queue, queues.count queue =
    if queue ∈ edgeQueuesOf tasks suffixed runId taskId then 1 else 0

/-- The task is not called `entry`, and either nothing depends on it, or one
task does: then a single dependency at most, and no white space at the end of
the dependent, or several dependencies, and no queue of the edge but the one
of the run. -/
def PublishesOnce
    {config : FinalConfig} (tasks : List Task) (suffixed : Bool)
    (live : List (LaunchedRun config)) (run : LaunchedRun config)
    (task : Task) : Prop :=
  task.id ≠ "entry" ∧
    (downstream tasks task.id = [] ∨
      ∃ dependent, downstream tasks task.id = [dependent] ∧
        ((task.upstream.length ≤ 1 ∧ ¬ EndsInSpace dependent) ∨
          (1 < task.upstream.length ∧
            ((suffixed = true ∧ ∀ other ∈ live, other = run) ∨
              (suffixed = false ∧
                (task.id = "" ∨ dependent = ""))))))

section Accepted

variable
  {pipelineId : Uuid} {tasks : List Task} {config : FinalConfig}
  (order : SetOrder String) (suffixed : Bool)
  (live : List (LaunchedRun config))
  (parsing : Parsing pipelineId tasks config)

theorem mem_edgeQueuesOf_iff
    {runId : Uuid} {taskId queue : String} :
    queue ∈ edgeQueuesOf tasks suffixed runId taskId ↔
      ∃ dependent ∈ downstream tasks taskId,
        queue = consumerQueue suffixed runId (queueName taskId dependent) := by
  rw [edgeQueuesOf, List.mem_map]
  constructor
  · intro listed
    rcases listed with ⟨dependent, edge, same⟩
    exact ⟨dependent, edge, same.symm⟩
  · intro listed
    rcases listed with ⟨dependent, edge, same⟩
    exact ⟨dependent, edge, same.symm⟩

/-- The queues that a list of entries publishes to. -/
def reachedBy (runId : Uuid) (rabbits : List Rabbit) : List String :=
  rabbits.flatMap fun rabbit =>
    publishTo suffixed (liveBindings config order suffixed live) runId
      rabbit

theorem delivered_eq (runId : Uuid) (sent : List Sent) :
    delivered config order suffixed live runId sent =
      reachedBy order suffixed live runId (sent.map Sent.edge) := by
  rw [delivered, reachedBy, List.flatMap_map]

variable (run : LaunchedRun config)

include parsing

/-- The entry queue of the pipeline is bound to the exchange on which a task
of that name publishes too. -/
theorem entry_not_once
    (isLive : run ∈ live) (isTask : "entry" ∈ tasks.map Task.id)
    {rabbits : List Rabbit} (sends : entryRabbit pipelineId ∈ rabbits) :
    ¬ OneCopyPerEdge tasks suffixed run.id "entry"
      (reachedBy order suffixed live run.id rabbits) := by
  intro once
  have entryKnown : entryQueueName pipelineId ∈ config.queues.keys := by
    rw [OrderedMap.keys, parsing.queues_entries, List.map_append]
    exact List.mem_append_right _ List.mem_cons_self
  have key := (publishedKey_eq_iff suffixed
    (entryQueueName_ne_empty pipelineId)
    (run.fresh _ entryKnown)).mpr (strip_entryQueueName pipelineId)
  have reached : consumerQueue suffixed run.id
      (entryQueueName pipelineId) ∈
        reachedBy order suffixed live run.id rabbits := by
    refine List.mem_flatMap.mpr ⟨entryRabbit pipelineId, sends, ?_⟩
    rw [publishTo_lane (lane_entryRabbit pipelineId),
      typeName_entryRabbit, key, mem_route_iff]
    refine ⟨consumerBinding suffixed run.id
      (entryExchangeName pipelineId) (entryQueueName pipelineId), ?_, rfl,
      decide_eq_true rfl, rfl⟩
    refine List.mem_flatMap.mpr ⟨run, isLive, ?_⟩
    exact (mem_runBindings_iff order suffixed run parsing _).mpr
      (Or.inr ⟨isTask, rfl⟩)
  have counted := once (consumerQueue suffixed run.id
    (entryQueueName pipelineId))
  have positive := List.count_pos_iff.mpr reached
  split at counted
  · rename_i listed
    rcases (mem_edgeQueuesOf_iff suffixed).mp listed with
      ⟨dependent, _, same⟩
    exact queueName_ne_entryQueueName _ _ _
      (consumerQueue_inj suffixed same).symm
  · omega

theorem unbound_of_no_dependents
    {taskId : String} (none : downstream tasks taskId = [])
    (queue : String) :
    ¬ BoundToTask suffixed live parsing taskId queue := by
  intro bound
  rcases bound with ⟨_, _, dependent, member, _⟩
  have edge := parsing.edge_of_mem member
  rw [none] at edge
  cases edge

theorem once_of_no_dependents
    {taskId : String} (ordinary : taskId ≠ "entry")
    (none : downstream tasks taskId = []) {rabbits : List Rabbit}
    (own : ∀ rabbit ∈ rabbits,
      rabbit ∈ outgoingEdges config.rabbitmqConfigs taskId)
    (runId : Uuid) :
    OneCopyPerEdge tasks suffixed runId taskId
      (reachedBy order suffixed live runId rabbits) := by
  intro queue
  have nowhere : queue ∉ reachedBy order suffixed live runId rabbits := by
    intro reached
    rcases List.mem_flatMap.mp reached with ⟨rabbit, sent, published⟩
    rcases lane_of_outgoing parsing ordinary (own rabbit sent) with
      ⟨name, _, lane, type⟩
    have bound := ((mem_publishTo_iff order suffixed live parsing lane
      type runId queue).mp published).2
    exact unbound_of_no_dependents suffixed live parsing none queue bound
  rw [List.count_eq_zero.mpr nowhere, edgeQueuesOf, none]
  rfl

/-- The queues of a task's edges that have kept their names. -/
theorem mem_survivors
    {taskId : String} {entry : String × QueueInfo}
    (member : entry ∈ parsing.edgeQueues.filter fun entry =>
      decide (entry.2.fromTask = some taskId)) :
    ∃ dependent ∈ downstream tasks taskId,
      entry = (queueName taskId dependent,
        edgeQueue (taskId, dependent)) := by
  rcases List.mem_filter.mp member with ⟨among, own⟩
  have source : entry.2.fromTask = some taskId := of_decide_eq_true own
  rcases parsing.mem_edgeQueues among with ⟨fromTask, toTask, edge, same⟩
  rw [same] at source
  have sameTask : fromTask = taskId := Option.some.inj source
  rw [sameTask] at edge same
  exact ⟨toTask, edge, same⟩

theorem mem_survivors_of_edge
    {taskId dependent : String}
    (member : (queueName taskId dependent, edgeQueue (taskId, dependent)) ∈
      parsing.edgeQueues) :
    (queueName taskId dependent, edgeQueue (taskId, dependent)) ∈
      parsing.edgeQueues.filter fun entry =>
        decide (entry.2.fromTask = some taskId) :=
  List.mem_filter.mpr ⟨member, decide_eq_true rfl⟩

theorem nodup_downstream (taskId : String) :
    (downstream tasks taskId).Nodup :=
  parsing.nodup_ids.sublist (List.filter_sublist.map _)

theorem exists_other_dependent
    {taskId : String} (several : 1 < (downstream tasks taskId).length)
    (dependent : String) :
    ∃ other ∈ downstream tasks taskId, other ≠ dependent := by
  by_contra none
  have same : ∀ other ∈ downstream tasks taskId, other = dependent := by
    intro other member
    by_contra different
    exact none ⟨other, member, different⟩
  have copies := List.eq_replicate_of_mem same
  have nodup := nodup_downstream parsing taskId
  rw [copies, List.nodup_replicate] at nodup
  omega

/-- The queues of different edges of a task have different names in all runs. -/
theorem ne_of_other_dependent
    {taskId dependent other : String}
    (edge : other ∈ downstream tasks taskId) (different : other ≠ dependent)
    (second : LaunchedRun config) :
    consumerQueue suffixed run.id (queueName taskId other) ≠
        consumerQueue suffixed second.id (queueName taskId dependent) ∧
      consumerQueue suffixed run.id (queueName taskId other) ≠
        second.id.dotted (queueName taskId dependent) := by
  have apart : queueName taskId other ≠ queueName taskId dependent :=
    fun same => different (queueName_inj_right same)
  cases suffixed with
  | true =>
      exact ⟨fun same => apart (Uuid.dotted_inj same).1,
        fun same => apart (Uuid.dotted_inj same).1⟩
  | false =>
      refine ⟨apart, ?_⟩
      intro same
      have fresh := second.fresh _ (parsing.queueName_mem_keys edge)
      have named : queueName taskId other =
          second.id.dotted (queueName taskId dependent) := same
      rw [named, Uuid.endsWith_dotted] at fresh
      cases fresh

theorem several_not_once
    (isLive : run ∈ live) {taskId : String} (ordinary : taskId ≠ "entry")
    (several : 1 < (downstream tasks taskId).length)
    {rabbits : List Rabbit}
    (sent : (outgoingEdges config.rabbitmqConfigs taskId).Sublist rabbits)
    (own : ∀ rabbit ∈ rabbits,
      rabbit ∈ outgoingEdges config.rabbitmqConfigs taskId)
    (nonempty : outgoingEdges config.rabbitmqConfigs taskId ≠ []) :
    ¬ OneCopyPerEdge tasks suffixed run.id taskId
      (reachedBy order suffixed live run.id rabbits) := by
  intro once
  have inner : downstream tasks taskId ≠ [] := by
    intro empty
    rw [empty] at several
    cases several
  have fans : fansOut tasks taskId = true := by
    rw [fansOut, decide_eq_true several]
    rfl
  have published : ∀ rabbit ∈ rabbits, ∀ queue,
      queue ∈ publishTo suffixed
          (liveBindings config order suffixed live) run.id rabbit ↔
        BoundToTask suffixed live parsing taskId queue := by
    intro rabbit among queue
    rcases lane_of_outgoing parsing ordinary (own rabbit among) with
      ⟨name, _, lane, type⟩
    rw [mem_publishTo_iff order suffixed live parsing lane type, fans]
    exact and_iff_right (Or.inl rfl)
  have entries := parsing.outgoingEdges_eq inner ordinary
  have survivor : ∃ kept : String × QueueInfo, kept ∈
      parsing.edgeQueues.filter fun entry =>
        decide (entry.2.fromTask = some taskId) := by
    apply List.exists_mem_of_ne_nil
    intro empty
    rw [entries, empty] at nonempty
    exact nonempty rfl
  rcases survivor with ⟨entry, kept⟩
  rcases mem_survivors parsing kept with ⟨dependent, edge, isEntry⟩
  have member := (List.mem_filter.mp kept).1
  rw [isEntry] at member
  -- every message of the call is copied to this queue
  have bound : BoundToTask suffixed live parsing taskId
      (consumerQueue suffixed run.id (queueName taskId dependent)) :=
    ⟨run, isLive, dependent, member, Or.inl rfl⟩
  have copies : (reachedBy order suffixed live run.id rabbits).count
      (consumerQueue suffixed run.id (queueName taskId dependent)) =
        rabbits.length := by
    rw [reachedBy, List.count_flatMap]
    have ones : rabbits.map (List.count (consumerQueue suffixed run.id
        (queueName taskId dependent)) ∘ fun rabbit =>
          publishTo suffixed (liveBindings config order suffixed live)
            run.id rabbit) = List.replicate rabbits.length 1 := by
      refine List.eq_replicate_iff.mpr ⟨List.length_map _, ?_⟩
      intro amount counted
      rcases List.mem_map.mp counted with ⟨rabbit, among, same⟩
      rw [← same, Function.comp_apply, count_publishTo,
        if_pos ((published rabbit among _).mpr bound)]
    rw [ones, List.sum_replicate_nat, Nat.mul_one]
  have single := once
    (consumerQueue suffixed run.id (queueName taskId dependent))
  rw [copies, if_pos ((mem_edgeQueuesOf_iff suffixed).mpr
    ⟨dependent, edge, rfl⟩)] at single
  -- so that one edge has kept its queue, and another one gets nothing
  rcases exists_other_dependent parsing several dependent with
    ⟨other, otherEdge, different⟩
  have received := once
    (consumerQueue suffixed run.id (queueName taskId other))
  rw [if_pos ((mem_edgeQueuesOf_iff suffixed).mpr
    ⟨other, otherEdge, rfl⟩)] at received
  have reached : consumerQueue suffixed run.id (queueName taskId other) ∈
      reachedBy order suffixed live run.id rabbits := by
    apply List.count_pos_iff.mp
    omega
  rcases List.mem_flatMap.mp reached with ⟨rabbit, among, arrives⟩
  rcases (published rabbit among _).mp arrives with
    ⟨second, _, third, thirdMember, shape⟩
  have alone : parsing.edgeQueues.filter (fun entry =>
      decide (entry.2.fromTask = some taskId)) = [entry] := by
    have lengths : (parsing.edgeQueues.filter fun entry =>
        decide (entry.2.fromTask = some taskId)).length ≤ 1 := by
      have whole := sent.length_le
      rw [entries, List.length_map] at whole
      omega
    have positive := List.length_pos_of_mem kept
    rcases List.length_eq_one_iff.mp (le_antisymm lengths positive) with
      ⟨only, isOnly⟩
    rw [isOnly] at kept ⊢
    rw [List.mem_singleton.mp kept]
  have sameEntry := mem_survivors_of_edge parsing thirdMember
  rw [alone, List.mem_singleton, isEntry] at sameEntry
  have sameName : queueName taskId third = queueName taskId dependent :=
    congrArg Prod.fst sameEntry
  have apart := ne_of_other_dependent suffixed parsing run otherEdge
    different second
  rw [sameName] at shape
  rcases shape with same | ⟨_, _, same⟩
  · exact apart.1 same
  · exact apart.2 same

/-! ## One dependent -/

theorem survivors_of_single
    {taskId dependent : String} (single : downstream tasks taskId = [dependent])
    (ordinary : taskId ≠ "entry")
    (nonempty : outgoingEdges config.rabbitmqConfigs taskId ≠ []) :
    (parsing.edgeQueues.filter fun entry =>
        decide (entry.2.fromTask = some taskId)) =
      [(queueName taskId dependent, edgeQueue (taskId, dependent))] := by
  have inner : downstream tasks taskId ≠ [] := by
    rw [single]
    exact List.cons_ne_nil _ _
  have entries := parsing.outgoingEdges_eq inner ordinary
  have same : ∀ entry ∈ parsing.edgeQueues.filter (fun entry =>
      decide (entry.2.fromTask = some taskId)),
        entry = (queueName taskId dependent,
          edgeQueue (taskId, dependent)) := by
    intro entry kept
    rcases mem_survivors parsing kept with ⟨other, edge, isEntry⟩
    rw [single, List.mem_singleton] at edge
    rw [isEntry, edge]
  have copies := List.eq_replicate_of_mem same
  have distinct : (parsing.edgeQueues.filter fun entry =>
      decide (entry.2.fromTask = some taskId)).Nodup :=
    (List.Nodup.of_map Prod.fst parsing.nodup_edgeQueues).filter _
  rw [copies, List.nodup_replicate] at distinct
  have positive : 0 < (parsing.edgeQueues.filter fun entry =>
      decide (entry.2.fromTask = some taskId)).length := by
    rw [List.length_pos_iff]
    intro empty
    rw [entries, empty] at nonempty
    exact nonempty rfl
  have length : (parsing.edgeQueues.filter fun entry =>
      decide (entry.2.fromTask = some taskId)).length = 1 := by
    omega
  rw [length] at copies
  exact copies

omit parsing in
/-- Several messages on the entry put several copies into the queue of the
edge, or none. -/
theorem once_replicate_iff
    {taskId dependent : String} (single : downstream tasks taskId = [dependent])
    (runId : Uuid) (copies : Nat) (rabbit : Rabbit) :
    OneCopyPerEdge tasks suffixed runId taskId
        (reachedBy order suffixed live runId
          (List.replicate copies rabbit)) ↔
      copies = 1 ∧
        OneCopyPerEdge tasks suffixed runId taskId
          (reachedBy order suffixed live runId [rabbit]) := by
  constructor
  · intro once
    have own : consumerQueue suffixed runId
        (queueName taskId dependent) ∈
          edgeQueuesOf tasks suffixed runId taskId := by
      rw [edgeQueuesOf, single]
      exact List.mem_cons_self
    have counted := once (consumerQueue suffixed runId
      (queueName taskId dependent))
    rw [if_pos own, reachedBy, List.count_flatMap, List.map_replicate,
      List.sum_replicate_nat] at counted
    have one := Nat.eq_one_of_mul_eq_one_right counted
    subst one
    exact ⟨rfl, once⟩
  · rintro ⟨rfl, once⟩
    exact once

/-- What the only entry of a task publishes. -/
theorem once_single_iff
    {taskId dependent : String} (single : downstream tasks taskId = [dependent])
    (runId : Uuid) :
    OneCopyPerEdge tasks suffixed runId taskId
        (reachedBy order suffixed live runId
          [edgeRabbit taskId (exchangeTypeFor tasks taskId)
            (queueName taskId dependent)]) ↔
      ∀ queue,
        ((fansOut tasks taskId = true ∨ queue =
            publishedKey suffixed runId (queueName taskId dependent)) ∧
          BoundToTask suffixed live parsing taskId queue) ↔
        queue = consumerQueue suffixed runId
          (queueName taskId dependent) := by
  have lane := lane_edgeRabbit tasks taskId
    (queueName_ne_empty taskId dependent)
  have published := mem_publishTo_iff order suffixed live parsing lane
    (typeName_of_type rfl) runId
  have one : edgeQueuesOf tasks suffixed runId taskId =
      [consumerQueue suffixed runId (queueName taskId dependent)] := by
    rw [edgeQueuesOf, single]
    rfl
  rw [reachedBy, List.flatMap_singleton, OneCopyPerEdge, one]
  apply forall_congr'
  intro queue
  have listed : queue ∈
      [consumerQueue suffixed runId (queueName taskId dependent)] ↔
        queue = consumerQueue suffixed runId
          (queueName taskId dependent) := List.mem_singleton
  rw [count_publishTo, ← published queue, ← listed]
  constructor
  · intro counted
    split at counted
    · rename_i reached
      split at counted
      · rename_i same
        exact iff_of_true reached same
      · cases counted
    · rename_i absent
      split at counted
      · cases counted
      · rename_i different
        exact iff_of_false absent different
  · intro same
    exact if_congr same rfl rfl

/-- On a direct exchange the key has to be that of the queue. -/
theorem once_direct_iff
    (isLive : run ∈ live) {taskId dependent : String}
    (single : downstream tasks taskId = [dependent])
    (member : (queueName taskId dependent, edgeQueue (taskId, dependent)) ∈
      parsing.edgeQueues)
    (direct : fansOut tasks taskId = false) :
    OneCopyPerEdge tasks suffixed run.id taskId
        (reachedBy order suffixed live run.id
          [edgeRabbit taskId (exchangeTypeFor tasks taskId)
            (queueName taskId dependent)]) ↔
      ¬ EndsInSpace dependent := by
  rw [once_single_iff order suffixed live parsing single]
  exact reaches_direct_iff suffixed live parsing isLive member direct

/-- On a fanout exchange nothing else may be bound. -/
theorem once_fanout_iff
    (isLive : run ∈ live) {taskId dependent : String}
    (single : downstream tasks taskId = [dependent])
    (member : (queueName taskId dependent, edgeQueue (taskId, dependent)) ∈
      parsing.edgeQueues)
    (fans : fansOut tasks taskId = true) :
    OneCopyPerEdge tasks suffixed run.id taskId
        (reachedBy order suffixed live run.id
          [edgeRabbit taskId (exchangeTypeFor tasks taskId)
            (queueName taskId dependent)]) ↔
      (suffixed = true ∧ ∀ other ∈ live, other = run) ∨
        (suffixed = false ∧ (taskId = "" ∨ dependent = "")) := by
  have only : OnlyDependent parsing taskId dependent := by
    intro target kept
    have edge := parsing.edge_of_mem kept
    rw [single, List.mem_singleton] at edge
    exact edge
  rw [once_single_iff order suffixed live parsing single,
    reaches_fanout_iff suffixed live parsing isLive member fans]
  exact and_iff_right only

end Accepted

/-- With one dependent it is the task's own dependencies that decide the type
of its exchange. -/
theorem fansOut_single_iff
    {tasks : List Task} (nodup : (tasks.map Task.id).Nodup)
    {task : Task} (isTask : task ∈ tasks) {dependent : String}
    (single : downstream tasks task.id = [dependent]) :
    fansOut tasks task.id = true ↔ 1 < task.upstream.length := by
  rw [fansOut, single, Bool.or_eq_true, decide_eq_true_eq,
    List.any_eq_true]
  constructor
  · intro fans
    rcases fans with impossible | ⟨other, among, both⟩
    · exact absurd impossible (lt_irrefl 1)
    · rw [Bool.and_eq_true, decide_eq_true_eq, decide_eq_true_eq] at both
      have same := List.inj_on_of_nodup_map nodup among isTask both.1
      rw [← same]
      exact both.2
  · intro several
    refine Or.inr ⟨task, isTask, ?_⟩
    rw [Bool.and_eq_true]
    exact ⟨decide_eq_true rfl, decide_eq_true several⟩

theorem publishesOnce_single_iff
    {config : FinalConfig} {tasks : List Task} {suffixed : Bool}
    {live : List (LaunchedRun config)} {run : LaunchedRun config}
    {task : Task} (ordinary : task.id ≠ "entry") {dependent : String}
    (single : downstream tasks task.id = [dependent]) :
    PublishesOnce tasks suffixed live run task ↔
      (task.upstream.length ≤ 1 ∧ ¬ EndsInSpace dependent) ∨
        (1 < task.upstream.length ∧
          ((suffixed = true ∧ ∀ other ∈ live, other = run) ∨
            (suffixed = false ∧ (task.id = "" ∨ dependent = "")))) := by
  constructor
  · intro condition
    rcases condition.2 with none | ⟨other, isOther, shape⟩
    · rw [none] at single
      cases single
    · rw [single] at isOther
      rw [(List.cons.inj isOther).1]
      exact shape
  · intro shape
    exact ⟨ordinary, Or.inr ⟨dependent, single, shape⟩⟩

/-- The case of one dependent, whose edge has kept its queue. -/
theorem once_of_single_iff
    {pipelineId : Uuid} {tasks : List Task} {config : FinalConfig}
    (parsing : Parsing pipelineId tasks config)
    (order : SetOrder String) (suffixed : Bool)
    {live : List (LaunchedRun config)} {run : LaunchedRun config}
    (isLive : run ∈ live) {task : Task} (isTask : task ∈ tasks)
    (ordinary : task.id ≠ "entry") {dependent : String}
    (single : downstream tasks task.id = [dependent])
    (nonempty : outgoingEdges config.rabbitmqConfigs task.id ≠ []) :
    ∃ rabbit, outgoingEdges config.rabbitmqConfigs task.id = [rabbit] ∧
      (OneCopyPerEdge tasks suffixed run.id task.id
          (reachedBy order suffixed live run.id [rabbit]) ↔
        PublishesOnce tasks suffixed live run task) := by
  have survivors := survivors_of_single parsing single ordinary nonempty
  have member : (queueName task.id dependent,
      edgeQueue (task.id, dependent)) ∈ parsing.edgeQueues := by
    have kept := List.mem_singleton_self
      (queueName task.id dependent, edgeQueue (task.id, dependent))
    rw [← survivors] at kept
    exact (List.mem_filter.mp kept).1
  have inner : downstream tasks task.id ≠ [] := by
    rw [single]
    exact List.cons_ne_nil _ _
  have edges := parsing.outgoingEdges_eq inner ordinary
  rw [survivors, List.map_singleton] at edges
  refine ⟨_, edges, ?_⟩
  have type := fansOut_single_iff parsing.nodup_ids isTask single
  rw [publishesOnce_single_iff ordinary single]
  by_cases joins : 1 < task.upstream.length
  · rw [once_fanout_iff order suffixed live parsing run isLive single
      member (type.mpr joins)]
    constructor
    · intro condition
      exact Or.inr ⟨joins, condition⟩
    · intro condition
      rcases condition with ⟨few, _⟩ | ⟨_, rest⟩
      · omega
      · exact rest
  · have direct : fansOut tasks task.id = false :=
      Bool.eq_false_iff.mpr fun fans => joins (type.mp fans)
    rw [once_direct_iff order suffixed live parsing run isLive single
      member direct]
    constructor
    · intro plain
      exact Or.inl ⟨Nat.le_of_not_lt joins, plain⟩
    · intro condition
      rcases condition with ⟨_, plain⟩ | ⟨many, _⟩
      · exact plain
      · exact absurd many joins

/-- A call that does not fail puts one copy of the envelope into the queue of
each edge of its task, and none elsewhere, only on a direct exchange with one
queue, on a fanout exchange with no other queue, or when there is no edge; and
on the one edge it must not leave a copy behind an error. -/
theorem oneCopyPerEdge_iff
    {keyOrder : SetOrder Json.Key} {parserOrder : SetOrder String}
    {pipelineId : Uuid} {tasks : List Task} {config : FinalConfig}
    (accepted : parseGraph keyOrder parserOrder pipelineId tasks =
      .ok config)
    (order : SetOrder String) (suffixed : Bool)
    {live : List (LaunchedRun config)} {run : LaunchedRun config}
    (isLive : run ∈ live) {task : Task} (isTask : task ∈ tasks)
    {attempts : Nat → PublishAttempt}
    (succeeds : (callPublishWithRetry
      (outgoingEdges config.rabbitmqConfigs task.id) attempts).2 = none) :
    OneCopyPerEdge tasks suffixed run.id task.id
        (delivered config order suffixed live run.id
          (callPublishWithRetry
            (outgoingEdges config.rabbitmqConfigs task.id) attempts).1) ↔
      PublishesOnce tasks suffixed live run task ∧
        (downstream tasks task.id = [] ∨
          ¬ CallLeavesCopy
            (outgoingEdges config.rabbitmqConfigs task.id) attempts) := by
  rcases parsing_of_parseGraph accepted with ⟨parsing⟩
  have sent := publishRetrying_sublist succeeds
  have nonempty : outgoingEdges config.rabbitmqConfigs task.id ≠ [] := by
    intro empty
    rw [empty] at succeeds
    exact publishRetrying_nil _ _ _ succeeds
  have own : ∀ rabbit ∈ (callPublishWithRetry
      (outgoingEdges config.rabbitmqConfigs task.id) attempts).1.map
        Sent.edge,
      rabbit ∈ outgoingEdges config.rabbitmqConfigs task.id := by
    intro rabbit member
    rcases List.mem_map.mp member with ⟨each, isSent, same⟩
    rw [← same]
    exact edge_of_sent isSent
  rw [delivered_eq]
  by_cases isEntry : task.id = "entry"
  · have known : "entry" ∈ tasks.map Task.id :=
      List.mem_map.mpr ⟨task, isTask, isEntry⟩
    have notOnce := entry_not_once order suffixed live parsing run isLive
      known (sent.subset (by
        rw [isEntry]
        exact parsing.entryRabbit_mem))
    refine iff_of_false ?_ fun condition => condition.1.1 isEntry
    rwa [isEntry] at notOnce ⊢
  · rcases Nat.lt_or_ge 1 (downstream tasks task.id).length with
      several | few
    · refine iff_of_false ?_ ?_
      · exact several_not_once order suffixed live parsing run isLive
          isEntry several sent own nonempty
      · intro condition
        rcases condition.1.2 with none | ⟨dependent, one, _⟩
        · rw [none] at several
          cases several
        · rw [one] at several
          exact lt_irrefl 1 several
    · cases dependents : downstream tasks task.id with
      | nil =>
          refine iff_of_true ?_
            ⟨⟨isEntry, Or.inl dependents⟩, Or.inl rfl⟩
          exact once_of_no_dependents order suffixed live parsing isEntry
            dependents own run.id
      | cons dependent rest =>
          have one : downstream tasks task.id = [dependent] := by
            rw [dependents, List.length_cons] at few
            have none : rest = [] := List.length_eq_zero_iff.mp (by omega)
            rw [dependents, none]
          rcases once_of_single_iff parsing order suffixed isLive isTask
            isEntry one nonempty with ⟨rabbit, edges, once⟩
          rw [edges] at succeeds own ⊢
          have copies := List.eq_replicate_of_mem fun edge member =>
            List.mem_singleton.mp (own edge member)
          rw [copies, List.length_map, once_replicate_iff order suffixed
            live one, once, CallLeavesCopy,
            ← publishRetrying_single succeeds, or_iff_right
              (List.cons_ne_nil dependent rest), and_comm]
          rfl

/-! ## A task with two dependents -/

/-- A task with one dependency. -/
def following (dependency id : String) : Task where
  id := id
  inputs := some [("dependencies", .list [.str dependency])]

/-- Two tasks depend on `a`, one of which has a dependent of its own. -/
def forkTasks : List Task :=
  [{ id := "a" }, following "a" "b", following "a" "c",
    following "b" "d"]

def firstOrder {α : Type} [DecidableEq α] : SetOrder α where
  visit := List.dedup
  nodup := List.nodup_dedup
  mem_visit := fun _ _ => List.mem_dedup

def pipelineOne : Uuid :=
  ⟨"1", by decide, List.all_eq_true.mp (by decide)⟩

def parsedFork : Except ParseError FinalConfig :=
  parseGraph firstOrder firstOrder pipelineOne forkTasks

def forkConfig : FinalConfig :=
  parsedFork.toOption.get (by decide +kernel)

def forkRun : LaunchedRun forkConfig where
  id := ⟨"2", by decide, List.all_eq_true.mp (by decide)⟩
  fresh := by decide +kernel

theorem parseGraph_fork :
    parseGraph firstOrder firstOrder pipelineOne forkTasks =
      .ok forkConfig := by
  have shape : ∀ (parsed : Except ParseError FinalConfig)
      (isSome : parsed.toOption.isSome),
        parsed = .ok (parsed.toOption.get isSome) := by
    intro parsed isSome
    cases parsed with
    | error error => cases isSome
    | ok config => rfl
  exact shape parsedFork (by decide +kernel)

/-- The broker refuses the first attempt, and the channel of the second one
is closed before its message is out. -/
def troubledAttempts (count : Nat) : PublishAttempt where
  edge _ :=
    if count = 0 then { first := .raised .amqp false }
    else { first := .channelClosed false }

/-- The general statement at the task with one dependent. -/
theorem single_dependent_gets_one_copy :
    OneCopyPerEdge forkTasks true forkRun.id "b"
      (delivered forkConfig firstOrder true [forkRun] forkRun.id
        (callPublishWithRetry
          (outgoingEdges forkConfig.rabbitmqConfigs "b")
          troubledAttempts).1) := by
  have isTask : following "a" "b" ∈ forkTasks :=
    List.mem_cons_of_mem _ List.mem_cons_self
  refine (oneCopyPerEdge_iff parseGraph_fork firstOrder true
    (List.mem_cons_self) isTask (by decide +kernel)).mpr ⟨?_, Or.inr ?_⟩
  · refine ⟨by decide, Or.inr ⟨"d", by decide +kernel, Or.inl ⟨?_, ?_⟩⟩⟩
    · decide +kernel
    · intro ends
      rcases ends with ⟨last, isLast, space⟩
      have known : "d".toList.getLast? = some 'd' := by
        decide
      rw [known] at isLast
      rw [← Option.some.inj isLast] at space
      exact absurd space (by decide)
  · rintro (left | ⟨_, left | ⟨_, left⟩⟩)
    · exact (BusPublish.copies_eq_iff _).mp rfl left.2
    · exact (BusPublish.copies_eq_iff _).mp rfl left.2
    · exact (BusPublish.copies_eq_iff _).mp rfl left.2

/-- The other task sends two messages, and both go to both queues. -/
theorem each_dependent_gets_two_copies :
    parseGraph firstOrder firstOrder pipelineOne forkTasks =
        .ok forkConfig ∧
      (callPublishWithRetry
        (outgoingEdges forkConfig.rabbitmqConfigs "a")
        fun _ => {}).2 = none ∧
      ¬ OneCopyPerEdge forkTasks true forkRun.id "a"
        (delivered forkConfig firstOrder true [forkRun] forkRun.id
          (callPublishWithRetry
            (outgoingEdges forkConfig.rabbitmqConfigs "a")
            fun _ => {}).1) := by
  refine ⟨parseGraph_fork, by decide +kernel, ?_⟩
  intro once
  have single := once "queue_a_to_b.2"
  revert single
  decide +kernel

end Agentcy.Broker
