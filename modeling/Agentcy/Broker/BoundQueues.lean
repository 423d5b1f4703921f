import Agentcy.Broker.EdgeBindings

/-!
# Queues that a message reaches

The publisher takes white space off a key and adds the run to it, and what is
left is compared with the keys of the bindings, or ignored.  Either way a
message on the exchange of a task stays among the queues of its edges.
-/

namespace Agentcy.Broker

open Agentcy.Library
open Agentcy.Parser
open PyText

/-- What is bound while the consumers of some runs are up. -/
def liveBindings
    (config : FinalConfig) (order : SetOrder String) (suffixed : Bool)
    (live : List (LaunchedRun config)) : List Binding :=
  live.flatMap fun run => runBindings config order suffixed run.id

def EndsInSpace (text : String) : Prop :=
  ∃ last, text.toList.getLast? = some last ∧ isSpace last = true

/-- The key that a publish on an entry of the parser gets. -/
def publishedKey (suffixed : Bool) (runId : Uuid) (name : String) :
    String :=
  if suffixed && decide (strip name ≠ "") &&
      !endsWith (strip name) runId.tail then
    runId.dotted (strip name)
  else
    strip name

theorem publishTo_lane
    {rabbit : Rabbit} {exchange name : String}
    (lane : Lane rabbit exchange name) (suffixed : Bool)
    (bindings : List Binding) (runId : Uuid) :
    publishTo suffixed bindings runId rabbit =
      route bindings (busType rabbit.typeName) exchange
        (publishedKey suffixed runId name) := by
  have names : getDynamicNamesFromConfig suffixed rabbit runId =
      (exchange, publishedKey suffixed runId name, rabbit.typeName) := by
    rw [getDynamicNamesFromConfig, lane.publishKey_eq, lane.shared,
      lane.exchange_eq]
    rfl
  rw [publishTo, names]

/-- The key is that of the queue unless white space is taken off the name. -/
theorem publishedKey_eq_iff
    (suffixed : Bool) {runId : Uuid} {name : String} (nonempty : name ≠ "")
    (fresh : endsWith name runId.tail = false) :
    publishedKey suffixed runId name =
        consumerQueue suffixed runId name ↔
      strip name = name := by
  have shorter := length_strip_le name
  constructor
  · intro same
    by_contra different
    cases suffixed with
    | false =>
        exact different same
    | true =>
        rw [publishedKey] at same
        split at same
        · exact different (Uuid.dotted_inj same).1
        · have lengths := congrArg String.toList same
          rw [consumerQueue, if_pos rfl, Uuid.toList_dotted] at lengths
          have counted := congrArg List.length lengths
          rw [List.length_append, List.length_cons] at counted
          omega
  · intro same
    cases suffixed with
    | false =>
        exact same
    | true =>
        rw [publishedKey, same, consumerQueue, if_pos rfl, if_pos]
        simp [nonempty, fresh]

theorem strip_queueName_iff (fromTask toTask : String) :
    strip (queueName fromTask toTask) = queueName fromTask toTask ↔
      ¬ EndsInSpace toTask := by
  have shape : (queueName fromTask toTask).toList =
      'q' :: ("ueue_".toList ++ (fromTask.toList ++
        ("_to_".toList ++ toTask.toList))) := by
    rw [toList_queueName]
    rfl
  rw [strip_eq_self_iff shape (by decide), toList_queueName]
  have back : "_to_".toList.getLast? = some '_' := by
    decide
  have last : ("queue_".toList ++ (fromTask.toList ++
      ("_to_".toList ++ toTask.toList))).getLast? =
        some (toTask.toList.getLast?.getD '_') := by
    rw [← List.append_assoc, ← List.append_assoc, List.getLast?_append,
      List.getLast?_append, back]
    cases toTask.toList.getLast? with
    | none => rfl
    | some letter => rfl
  rw [last, EndsInSpace]
  constructor
  · intro plain ends
    rcases ends with ⟨letter, isLast, space⟩
    have notSpace := plain letter (by rw [isLast]; rfl)
    rw [space] at notSpace
    cases notSpace
  · intro plain letter isLast
    cases ending : toTask.toList.getLast? with
    | none =>
        rw [ending] at isLast
        rw [← Option.some.inj isLast]
        decide
    | some found =>
        rw [ending] at isLast
        have same : found = letter := Option.some.inj isLast
        rw [← same]
        by_contra space
        exact plain ⟨found, ending, by simpa using space⟩

theorem strip_entryQueueName (pipelineId : Uuid) :
    strip (entryQueueName pipelineId) = entryQueueName pipelineId :=
  @Uuid.strip_append "pipeline_entry_queue_" 'p'
    "ipeline_entry_queue_".toList (by decide) (by decide) pipelineId

section Accepted

variable
  {pipelineId : Uuid} {tasks : List Task} {config : FinalConfig}
  (order : SetOrder String) (suffixed : Bool)
  (live : List (LaunchedRun config))
  (parsing : Parsing pipelineId tasks config)

/-- A queue bound to the exchange of a task: of some edge that has kept its
queue, for some live run. -/
def BoundToTask (taskId queue : String) : Prop :=
  ∃ other ∈ live, ∃ dependent,
    (queueName taskId dependent, edgeQueue (taskId, dependent)) ∈
      parsing.edgeQueues ∧
    (queue = consumerQueue suffixed other.id (queueName taskId dependent) ∨
      (taskId ≠ "" ∧ dependent ≠ "" ∧
        queue = other.id.dotted (queueName taskId dependent)))

theorem mem_route_exchange_iff (taskId key queue : String) :
    queue ∈ route (liveBindings config order suffixed live)
        (busType (if fansOut tasks taskId then "fanout" else "direct"))
        (exchangeName taskId) key ↔
      (fansOut tasks taskId = true ∨ queue = key) ∧
        BoundToTask suffixed live parsing taskId queue := by
  have type : busType
      (if fansOut tasks taskId then "fanout" else "direct") =
        if fansOut tasks taskId then ExchangeType.fanout
        else ExchangeType.direct := by
    cases fansOut tasks taskId with
    | true => rfl
    | false => rfl
  rw [mem_route_iff, type]
  constructor
  · intro reached
    rcases reached with ⟨binding, among, exchange, accepted, isQueue⟩
    rcases List.mem_flatMap.mp among with ⟨other, isLive, ofRun⟩
    rcases (mem_runBindings_iff order suffixed other parsing
      binding).mp ofRun with
      ⟨fromTask, toTask, edge, shape⟩ | ⟨_, same⟩
    · have sameTask : fromTask = taskId := by
        apply exchangeName_inj
        rw [← exchange]
        rcases shape with ⟨_, _, same⟩ | same
        · rw [same]
          rfl
        · rw [same]
          rfl
      rw [sameTask] at edge shape
      refine ⟨?_, other, isLive, toTask, edge, ?_⟩
      · cases fans : fansOut tasks taskId with
        | true =>
            exact Or.inl rfl
        | false =>
            refine Or.inr ?_
            rw [fans, if_neg Bool.false_ne_true] at accepted
            have sameKey : binding.routingKey = key :=
              of_decide_eq_true accepted
            rw [← sameKey, ← isQueue]
            rcases shape with ⟨_, _, same⟩ | same
            · rw [same, topologyBinding, fans]
              rfl
            · rw [same]
              rfl
      · rcases shape with ⟨source, target, same⟩ | same
        · refine Or.inr ⟨source, target, ?_⟩
          rw [← isQueue, same]
          rfl
        · refine Or.inl ?_
          rw [← isQueue, same]
          rfl
    · rw [same] at exchange
      exact absurd exchange.symm
        (exchangeName_ne_entryExchangeName taskId pipelineId)
  · intro bound
    rcases bound with ⟨passes, other, isLive, dependent, edge, shape⟩
    have inLive : ∀ binding,
        binding ∈ runBindings config order suffixed other.id →
          binding ∈ liveBindings config order suffixed live :=
      fun binding ofRun => List.mem_flatMap.mpr ⟨other, isLive, ofRun⟩
    have declared := mem_runBindings_iff order suffixed other parsing
    rcases shape with same | ⟨source, target, same⟩
    · refine ⟨consumerBinding suffixed other.id (exchangeName taskId)
        (queueName taskId dependent), ?_, rfl, ?_, same.symm⟩
      · apply inLive
        exact (declared _).mpr
          (Or.inl ⟨taskId, dependent, edge, Or.inr rfl⟩)
      · rcases passes with fans | sameKey
        · rw [fans]
          rfl
        · cases fansOut tasks taskId with
          | true => rfl
          | false => exact decide_eq_true (same.symm.trans sameKey)
    · refine ⟨topologyBinding tasks other.id taskId
        (queueName taskId dependent), ?_, rfl, ?_, same.symm⟩
      · apply inLive
        exact (declared _).mpr
          (Or.inl ⟨taskId, dependent, edge,
            Or.inl ⟨source, target, rfl⟩⟩)
      · rw [topologyBinding]
        rcases passes with fans | sameKey
        · rw [fans]
          rfl
        · cases fansOut tasks taskId with
          | true => rfl
          | false => exact decide_eq_true (same.symm.trans sameKey)

/-- What an entry of a task publishes reaches the queues of its exchange, on a
direct exchange the one that the key names. -/
theorem mem_publishTo_iff
    {taskId name : String} {rabbit : Rabbit}
    (lane : Lane rabbit (exchangeName taskId) name)
    (type : rabbit.typeName =
      if fansOut tasks taskId then "fanout" else "direct")
    (runId : Uuid) (queue : String) :
    queue ∈ publishTo suffixed
        (liveBindings config order suffixed live) runId rabbit ↔
      (fansOut tasks taskId = true ∨
        queue = publishedKey suffixed runId name) ∧
      BoundToTask suffixed live parsing taskId queue := by
  rw [publishTo_lane lane, type]
  exact mem_route_exchange_iff order suffixed live parsing taskId _ queue

theorem count_publishTo
    (bindings : List Binding) (runId : Uuid) (rabbit : Rabbit)
    (queue : String) :
    (publishTo suffixed bindings runId rabbit).count queue =
      if queue ∈ publishTo suffixed bindings runId rabbit then 1
      else 0 :=
  count_route _ _ _ _ _

/-! ## Queues that one message reaches -/

/-- No other task has kept a queue for an edge from the task. -/
def OnlyDependent (taskId dependent : String) : Prop :=
  ∀ target,
    (queueName taskId target, edgeQueue (taskId, target)) ∈
      parsing.edgeQueues → target = dependent

theorem bound_only_iff
    {taskId dependent : String}
    (only : OnlyDependent parsing taskId dependent)
    (member : (queueName taskId dependent, edgeQueue (taskId, dependent)) ∈
      parsing.edgeQueues) (queue : String) :
    BoundToTask suffixed live parsing taskId queue ↔
      ∃ other ∈ live,
        queue = consumerQueue suffixed other.id
            (queueName taskId dependent) ∨
          (taskId ≠ "" ∧ dependent ≠ "" ∧
            queue = other.id.dotted (queueName taskId dependent)) := by
  constructor
  · intro bound
    rcases bound with ⟨other, isLive, target, kept, shape⟩
    rw [only target kept] at shape
    exact ⟨other, isLive, shape⟩
  · intro bound
    rcases bound with ⟨other, isLive, shape⟩
    exact ⟨other, isLive, dependent, member, shape⟩

/-- On a direct exchange the key has to be that of the queue. -/
theorem reaches_direct_iff
    {run : LaunchedRun config} (isLive : run ∈ live)
    {taskId dependent : String}
    (member : (queueName taskId dependent, edgeQueue (taskId, dependent)) ∈
      parsing.edgeQueues)
    (direct : fansOut tasks taskId = false) :
    (∀ queue,
        ((fansOut tasks taskId = true ∨ queue =
            publishedKey suffixed run.id (queueName taskId dependent)) ∧
          BoundToTask suffixed live parsing taskId queue) ↔
        queue = consumerQueue suffixed run.id
          (queueName taskId dependent)) ↔
      ¬ EndsInSpace dependent := by
  have known : queueName taskId dependent ∈ config.queues.keys :=
    mem_keys_of_edge parsing member
  rw [direct, ← strip_queueName_iff taskId dependent,
    ← publishedKey_eq_iff suffixed (queueName_ne_empty taskId dependent)
      (run.fresh _ known)]
  constructor
  · intro exactly
    have reached := (exactly _).mpr rfl
    rcases reached.1 with fans | isKey
    · cases fans
    · exact isKey.symm
  · intro sameKey queue
    rw [sameKey]
    constructor
    · intro reached
      rcases reached.1 with fans | isKey
      · cases fans
      · exact isKey
    · intro same
      exact ⟨Or.inr same, run, isLive, dependent, member, Or.inl same⟩

/-- On a fanout exchange no other queue may be bound. -/
theorem reaches_fanout_iff
    {run : LaunchedRun config} (isLive : run ∈ live)
    {taskId dependent : String}
    (member : (queueName taskId dependent, edgeQueue (taskId, dependent)) ∈
      parsing.edgeQueues)
    (fans : fansOut tasks taskId = true) :
    (∀ queue,
        ((fansOut tasks taskId = true ∨ queue =
            publishedKey suffixed run.id (queueName taskId dependent)) ∧
          BoundToTask suffixed live parsing taskId queue) ↔
        queue = consumerQueue suffixed run.id
          (queueName taskId dependent)) ↔
      OnlyDependent parsing taskId dependent ∧
        ((suffixed = true ∧ ∀ other ∈ live, other = run) ∨
          (suffixed = false ∧ (taskId = "" ∨ dependent = ""))) := by
  rw [fans]
  constructor
  · intro exactly
    have only : OnlyDependent parsing taskId dependent := by
      intro target kept
      have same := (exactly (consumerQueue suffixed run.id
        (queueName taskId target))).mp
          ⟨Or.inl rfl, run, isLive, target, kept, Or.inl rfl⟩
      exact queueName_inj_right (consumerQueue_inj suffixed same)
    have bound := bound_only_iff suffixed live parsing only member
    refine ⟨only, ?_⟩
    cases suffixed with
    | true =>
        refine Or.inl ⟨rfl, ?_⟩
        intro other among
        have same := (exactly (other.id.dotted
          (queueName taskId dependent))).mp
            ⟨Or.inl rfl, (bound _).mpr ⟨other, among, Or.inl rfl⟩⟩
        have ids := (Uuid.dotted_inj same).2
        cases other
        cases run
        cases ids
        rfl
    | false =>
        refine Or.inr ⟨rfl, ?_⟩
        by_contra named
        rw [not_or] at named
        have same := (exactly (run.id.dotted
          (queueName taskId dependent))).mp
            ⟨Or.inl rfl, (bound _).mpr
              ⟨run, isLive, Or.inr ⟨named.1, named.2, rfl⟩⟩⟩
        exact Uuid.ne_dotted _ _ same.symm
  · rintro ⟨only, condition⟩ queue
    have bound := bound_only_iff suffixed live parsing only member
    refine ⟨?_, fun same =>
      ⟨Or.inl rfl, (bound queue).mpr ⟨run, isLive, Or.inl same⟩⟩⟩
    intro reached
    obtain ⟨other, among, shape⟩ := (bound queue).mp reached.2
    rcases condition with ⟨rfl, alone⟩ | ⟨rfl, unnamed⟩
    · rw [alone other among] at shape
      rcases shape with same | ⟨_, _, same⟩
      · exact same
      · exact same
    · rcases shape with same | ⟨source, target, _⟩
      · exact same
      · rcases unnamed with empty | empty
        · exact absurd empty source
        · exact absurd empty target

end Accepted

end Agentcy.Broker
