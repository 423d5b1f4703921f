import Agentcy.Consumer.Aggregator

/-!
# How often a fan-in task is forwarded

Seen from one run and one task, the consumer manager collects messages into
batches that cover the required upstreams, one forward call a batch.  Nothing
remembers a flushed batch, so messages redelivered after the flush start the
next one.
-/

namespace Agentcy.Consumer

open Agentcy.Library
open Agentcy.Runs

/-- Forward calls made for one task of one run. -/
def callsFor
    (runId toTask : String) (forwarded : List ForwardCall) :
    List ForwardCall :=
  forwarded.filter fun call =>
    call.toTask = toTask ∧ call.nextState.pipelineRunId = runId

/-- Messages delivered for one task of one run. -/
def messagesFor
    (runId toTask : String) (deliveries : List Delivery) :
    List Envelope :=
  (deliveries.filter fun delivery =>
    delivery.context? = some (runId, toTask)).map Delivery.message

/-- No delivery for another run or task shares the buffer of this one. -/
def OwnBuffer
    (runId toTask : String) (delivery : Delivery) : Prop :=
  ∀ other, delivery.context? = some other →
    aggregatorKey other.1 other.2 = aggregatorKey runId toTask →
      other = (runId, toTask)

/-- The manager, seen from one run and task, collects batches. -/
structure Collects
    (cfg : ConsumerConfig) (runId toTask : String)
    (manager : Manager) (collected : Collected Envelope) : Prop where
  calls :
    callsFor runId toTask manager.forwarded =
      collected.batches.map (batchCall cfg toTask)
  buffer :
    cfg.requiredUpstreams toTask ≠ [] →
      (manager.store.get? (aggregatorKey runId toTask)).getD .empty =
        bundleOf collected.pending
  nothingPending :
    cfg.requiredUpstreams toTask = [] → collected.pending = []

section Simulation

variable {cfg : ConsumerConfig} {runId toTask : String}

theorem context?_some
    {delivery : Delivery}
    (here : delivery.context? = some (runId, toTask)) :
    delivery.message.pipelineRunId.getD "" = runId := by
  rw [Delivery.context?] at here
  split at here
  · rename_i foundRun foundTask sameRun sameTask
    obtain ⟨stored, _⟩ := Option.filter_eq_some_iff.mp sameRun
    rw [stored, Option.getD_some]
    exact (Prod.ext_iff.mp (Option.some.inj here)).1
  · cases here

theorem callsFor_append (earlier later : List ForwardCall) :
    callsFor runId toTask (earlier ++ later) =
      callsFor runId toTask earlier ++ callsFor runId toTask later :=
  List.filter_append _ _

theorem batchCall_context
    (cfg : ConsumerConfig) (toTask : String)
    (pending : List Envelope) (message : Envelope) :
    (batchCall cfg toTask (pending ++ [message])).toTask = toTask ∧
      (batchCall cfg toTask
        (pending ++ [message])).nextState.pipelineRunId =
          message.pipelineRunId.getD "" := by
  rw [batchCall, List.getLastD_concat]
  split <;> exact ⟨rfl, rfl⟩

theorem callsFor_batchCall
    (cfg : ConsumerConfig) {delivery : Delivery}
    (here : delivery.context? = some (runId, toTask))
    (pending : List Envelope) :
    callsFor runId toTask
        [batchCall cfg toTask (pending ++ [delivery.message])] =
      [batchCall cfg toTask (pending ++ [delivery.message])] := by
  obtain ⟨sameTask, sameRun⟩ :=
    batchCall_context cfg toTask pending delivery.message
  rw [context?_some here] at sameRun
  rw [callsFor, List.filter_cons_of_pos]
  · rfl
  · simp [sameTask, sameRun]

/-- What aggregating for one run and task leaves alone. -/
theorem aggregate_frame
    (cfg : ConsumerConfig) (store : AggregatorStore)
    (otherRun otherTask : String) (message : Envelope) (key : String)
    (different : key ≠ aggregatorKey otherRun otherTask) :
    (aggregate cfg store otherRun otherTask message).1.get? key =
        store.get? key ∧
      ∀ call ∈ (aggregate cfg store otherRun otherTask message).2,
        call.toTask = otherTask ∧
          call.nextState.pipelineRunId =
            message.pipelineRunId.getD "" := by
  rw [aggregate]
  split
  · refine ⟨OrderedMap.get?_set_other _ _ different, ?_⟩
    rintro call ⟨rfl⟩
    exact ⟨rfl, rfl⟩
  · split
    · split
      · refine ⟨?_, by simp⟩
        rw [OrderedMap.get?_erase, if_neg different]
        exact OrderedMap.get?_set_other _ _ different
      · refine ⟨?_, ?_⟩
        · rw [OrderedMap.get?_erase, if_neg different]
          exact OrderedMap.get?_set_other _ _ different
        · rintro call ⟨rfl⟩
          exact ⟨rfl, rfl⟩
    · exact ⟨OrderedMap.get?_set_other _ _ different, by simp⟩

/-- A delivery for the run and task is collected. -/
theorem Collects.handle_here
    {manager : Manager} {collected : Collected Envelope}
    (collects : Collects cfg runId toTask manager collected)
    {delivery : Delivery}
    (here : delivery.context? = some (runId, toTask)) :
    Collects cfg runId toTask (manager.handle cfg delivery)
      (collect (Covers (cfg.requiredUpstreams toTask)) collected
        delivery.message) := by
  have handled :
      defaultHandler cfg manager.store delivery =
        aggregate cfg manager.store runId toTask delivery.message := by
    rw [defaultHandler, here]
  by_cases fanIn : cfg.requiredUpstreams toTask = []
  · have nothing := collects.nothingPending fanIn
    have covers :
        Covers (cfg.requiredUpstreams toTask)
          (collected.pending ++ [delivery.message]) := by
      rw [nothing, fanIn]
      exact ⟨by simp, by simp⟩
    have single :
        (aggregate cfg manager.store runId toTask delivery.message).2 =
          some (batchCall cfg toTask [delivery.message]) := by
      simp [aggregate, batchCall, fanIn]
    rw [collect_of_full _ covers, Manager.handle, handled, single]
    refine ⟨?_, fun several => absurd fanIn several, fun _ => rfl⟩
    rw [nothing, List.map_append, ← collects.calls, callsFor_append]
    exact congrArg _ (callsFor_batchCall cfg here [])
  · have step :=
      aggregate_of_buffer cfg manager.store runId toTask delivery.message
        collected.pending fanIn (collects.buffer fanIn)
    rw [Manager.handle, handled, step]
    by_cases covers :
        Covers (cfg.requiredUpstreams toTask)
          (collected.pending ++ [delivery.message])
    · rw [if_pos covers, collect_of_full _ covers]
      refine ⟨?_, fun _ => ?_, fun single => absurd single fanIn⟩
      · rw [List.map_append, ← collects.calls, callsFor_append]
        exact
          congrArg _ (callsFor_batchCall cfg here collected.pending)
      · rw [OrderedMap.get?_erase_self]
        rfl
    · rw [if_neg covers, collect_of_not_full _ covers]
      refine ⟨?_, fun _ => ?_, fun single => absurd single fanIn⟩
      · rw [← collects.calls]
        exact congrArg (callsFor runId toTask) (List.append_nil _)
      · rw [OrderedMap.get?_set_self]
        rfl

/-- A delivery for another run or task changes nothing here. -/
theorem Collects.handle_elsewhere
    {manager : Manager} {collected : Collected Envelope}
    (collects : Collects cfg runId toTask manager collected)
    {delivery : Delivery} (own : OwnBuffer runId toTask delivery)
    (elsewhere : delivery.context? ≠ some (runId, toTask)) :
    Collects cfg runId toTask (manager.handle cfg delivery)
      collected := by
  cases context : delivery.context? with
  | none =>
      rw [Manager.handle, defaultHandler, context]
      exact
        ⟨(congrArg (callsFor runId toTask) (List.append_nil _)).trans
            collects.calls,
          collects.buffer, collects.nothingPending⟩
  | some other =>
      have differentKey :
          aggregatorKey runId toTask ≠ aggregatorKey other.1 other.2 :=
        fun same => elsewhere (context.trans (congrArg some
          (own other context same.symm)))
      obtain ⟨sameBuffer, otherCall⟩ :=
        aggregate_frame cfg manager.store other.1 other.2
          delivery.message (aggregatorKey runId toTask) differentKey
      have handled :
          defaultHandler cfg manager.store delivery =
            aggregate cfg manager.store other.1 other.2
              delivery.message := by
        rw [defaultHandler, context]
      rw [Manager.handle, handled]
      refine ⟨?_, fun fanIn => ?_, collects.nothingPending⟩
      · rw [callsFor_append, ← collects.calls]
        refine List.append_right_eq_self.mpr ?_
        rw [callsFor, List.filter_eq_nil_iff]
        intro call member matched
        obtain ⟨sameTask, sameRun⟩ :=
          otherCall call (Option.mem_toList.mp member)
        rw [context?_some context] at sameRun
        simp only [sameTask, sameRun, decide_eq_true_eq] at matched
        refine elsewhere (context.trans (congrArg some ?_))
        exact Prod.ext matched.2 matched.1
      · rw [sameBuffer]
        exact collects.buffer fanIn

theorem Collects.run
    {manager : Manager} {collected : Collected Envelope}
    (collects : Collects cfg runId toTask manager collected)
    (deliveries : List Delivery)
    (own : ∀ delivery ∈ deliveries, OwnBuffer runId toTask delivery) :
    Collects cfg runId toTask
      (Library.run (Manager.handle cfg) manager deliveries)
      (Library.run (collect (Covers (cfg.requiredUpstreams toTask)))
        collected (messagesFor runId toTask deliveries)) := by
  induction deliveries generalizing manager collected with
  | nil =>
      exact collects
  | cons delivery rest inductionHypothesis =>
      have ownRest : ∀ later ∈ rest, OwnBuffer runId toTask later :=
        fun later member => own later (List.mem_cons_of_mem _ member)
      by_cases here : delivery.context? = some (runId, toTask)
      · have messages :
            messagesFor runId toTask (delivery :: rest) =
              delivery.message :: messagesFor runId toTask rest := by
          simp [messagesFor, here]
        rw [messages, run_cons, run_cons]
        exact inductionHypothesis (collects.handle_here here) ownRest
      · have messages :
            messagesFor runId toTask (delivery :: rest) =
              messagesFor runId toTask rest := by
          simp [messagesFor, here]
        rw [messages, run_cons]
        exact
          inductionHypothesis
            (collects.handle_elsewhere
              (own delivery List.mem_cons_self) here)
            ownRest

end Simulation

/-! ## Exactly once -/

def consume (cfg : ConsumerConfig) (deliveries : List Delivery) :
    Manager :=
  run (Manager.handle cfg) {} deliveries

/-- The bundle passed to the forwarder holds an envelope of the upstream. -/
def ForwardCall.HasEnvelopeFrom
    (call : ForwardCall) (upstream : String) : Prop :=
  ∃ fields message,
    call.nextState.data.get? "upstreams" = some (.object fields) ∧
      (upstream, Envelope.toJson message) ∈ fields ∧
      message.sender = upstream

section Consume

variable (cfg : ConsumerConfig) (runId toTask : String)
  (deliveries : List Delivery)

/-- The forward calls of a run and task are those of its batches. -/
theorem callsFor_consume
    (own : ∀ delivery ∈ deliveries, OwnBuffer runId toTask delivery) :
    callsFor runId toTask (consume cfg deliveries).forwarded =
      (batchesOf (Covers (cfg.requiredUpstreams toTask))
        (messagesFor runId toTask deliveries)).map
          (batchCall cfg toTask) := by
  have initial : Collects cfg runId toTask {} {} :=
    ⟨rfl, fun _ => rfl, fun _ => rfl⟩
  exact (initial.run deliveries own).calls

/-- The task is forwarded exactly once, not before every required upstream
has arrived, and with all of their envelopes. -/
structure ForwardsOnce : Prop where
  once :
    (callsFor runId toTask (consume cfg deliveries).forwarded).length = 1
  notBefore : ∀ before after, deliveries = before ++ after →
    callsFor runId toTask (consume cfg before).forwarded ≠ [] →
      ∀ upstream ∈ cfg.requiredUpstreams toTask,
        upstream ∈ (messagesFor runId toTask before).map Envelope.sender
  complete : ∀ call ∈
      callsFor runId toTask (consume cfg deliveries).forwarded,
    ∀ upstream ∈ cfg.requiredUpstreams toTask,
      call.HasEnvelopeFrom upstream

theorem sender_of_mem_bundleOf (messages : List Envelope) :
    ∀ entry ∈ (bundleOf messages).entries,
      entry.2.sender = entry.1 := by
  induction messages using List.reverseRecOn with
  | nil =>
      intro entry member
      cases member
  | append_singleton messages last inductionHypothesis =>
      intro entry member
      rw [bundleOf_concat] at member
      rcases OrderedMap.mem_entries_set member with new | old
      · rw [new]
      · exact inductionHypothesis entry old

theorem batchCall_hasEnvelopeFrom
    {batch : List Envelope}
    (covers : Covers (cfg.requiredUpstreams toTask) batch) :
    ∀ upstream ∈ cfg.requiredUpstreams toTask,
      (batchCall cfg toTask batch).HasEnvelopeFrom upstream := by
  intro upstream required
  have several : (cfg.requiredUpstreams toTask).isEmpty = false := by
    rw [List.isEmpty_eq_false_iff]
    exact List.ne_nil_of_mem required
  have inBundle : upstream ∈ (bundleOf batch).keys :=
    (mem_keys_bundleOf batch upstream).mpr (covers.2 upstream required)
  obtain ⟨entry, member, sameKey⟩ := List.mem_map.mp inBundle
  refine
    ⟨(bundleOf batch).entries.map fun entry =>
        (entry.1, entry.2.toJson), entry.2, ?_, ?_, ?_⟩
  · rw [batchCall, several]
    rfl
  · exact List.mem_map.mpr ⟨entry, member, by rw [sameKey]⟩
  · rw [sender_of_mem_bundleOf batch entry member, sameKey]

/-- Over any deliveries, with any others between them: the task is forwarded
exactly once when its messages cover the required upstreams, and those that
follow the first cover do not cover them a second time. -/
theorem forwardsOnce_iff
    (own : ∀ delivery ∈ deliveries, OwnBuffer runId toTask delivery) :
    ForwardsOnce cfg runId toTask deliveries ↔
      ∃ first last rest,
        messagesFor runId toTask deliveries = first ++ last :: rest ∧
          ¬ Covers (cfg.requiredUpstreams toTask) first ∧
          Covers (cfg.requiredUpstreams toTask) (first ++ [last]) ∧
          ¬ Covers (cfg.requiredUpstreams toTask) rest := by
  rw [← batchesOf_length_eq_one_iff _ Covers.append
    (not_covers_nil _)]
  have calls := callsFor_consume cfg runId toTask deliveries own
  constructor
  · intro forwards
    have once := forwards.once
    rwa [calls, List.length_map] at once
  · intro oneBatch
    refine ⟨?_, ?_, ?_⟩
    · rwa [calls, List.length_map]
    · intro before after split called
      have ownBefore :
          ∀ delivery ∈ before, OwnBuffer runId toTask delivery := by
        intro delivery member
        exact own delivery (split ▸ List.mem_append_left after member)
      rw [callsFor_consume cfg runId toTask before ownBefore] at called
      by_contra missing
      refine called ?_
      rw [batchesOf_of_not_full _ Covers.append]
      · rfl
      · exact fun covers => missing covers.2
    · intro call member
      rw [calls] at member
      obtain ⟨batch, inBatches, sameCall⟩ := List.mem_map.mp member
      rw [← sameCall]
      exact
        batchCall_hasEnvelopeFrom cfg toTask
          (full_of_mem_batchesOf _ inBatches)

end Consume

def joinConfig : ConsumerConfig where
  requiredSteps := .ofList [("join", ["a", "b"])]

def toJoin (fromTask : String) : Delivery where
  toTask := some "join"
  message :=
    { pipelineRunId := some "run-1"
      fromTask := some fromTask
      username := some "alice"
      pipelineId := some "pipe-1" }

theorem toJoin_ownBuffer (fromTask : String) :
    OwnBuffer "run-1" "join" (toJoin fromTask) := by
  intro other context _
  have here :
      (toJoin fromTask).context? = some ("run-1", "join") := by
    rfl
  exact Option.some.inj (context.symm.trans here)

/-- The general statement at two messages and one redelivery. -/
theorem partly_redelivered_forwardsOnce :
    ForwardsOnce joinConfig "run-1" "join"
      [toJoin "a", toJoin "b", toJoin "a"] := by
  have own : ∀ delivery ∈ [toJoin "a", toJoin "b", toJoin "a"],
      OwnBuffer "run-1" "join" delivery := by
    simp [toJoin_ownBuffer]
  refine
    (forwardsOnce_iff joinConfig "run-1" "join" _ own).mpr
      ⟨[(toJoin "a").message], (toJoin "b").message,
        [(toJoin "a").message], by rfl, ?_, ?_, ?_⟩
  · decide +kernel
  · decide +kernel
  · decide +kernel

theorem redelivered_bundle_forwarded_twice :
    (∀ upstream ∈ joinConfig.requiredUpstreams "join",
        upstream ∈
          (messagesFor "run-1" "join"
            [toJoin "a", toJoin "b", toJoin "b", toJoin "a"]).map
              Envelope.sender) ∧
      ¬ ForwardsOnce joinConfig "run-1" "join"
        [toJoin "a", toJoin "b", toJoin "b", toJoin "a"] := by
  refine ⟨by decide +kernel, ?_⟩
  intro forwards
  have once := forwards.once
  revert once
  decide +kernel

end Agentcy.Consumer
