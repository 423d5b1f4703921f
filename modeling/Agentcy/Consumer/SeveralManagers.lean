import Agentcy.Consumer.FanIn

/-!
# Several consumer managers on the same queues

The queues are declared non-exclusive, and the broker hands each message to
one of the managers that consume them.  A manager aggregates what it is handed
in its own memory, so the messages of one fan-in meet only if they are all
handed to the same manager.
-/

namespace Agentcy.Consumer

open Agentcy.Library
open Agentcy.Runs

universe u

variable {ι : Type u} [DecidableEq ι]

/-- A delivery handed to one of the managers. -/
structure Handed (ι : Type u) where
  manager : ι
  delivery : Delivery

def handleAmong
    (cfg : ConsumerConfig) (managers : ι → Manager) (handed : Handed ι) :
    ι → Manager :=
  Function.update managers handed.manager
    ((managers handed.manager).handle cfg handed.delivery)

def consumeAmong
    (cfg : ConsumerConfig) (handed : List (Handed ι)) : ι → Manager :=
  run (handleAmong cfg) (fun _ => {}) handed

def deliveriesOf
    (manager : ι) (handed : List (Handed ι)) : List Delivery :=
  (handed.filter fun each => each.manager = manager).map Handed.delivery

/-- Every manager acts as if it were alone with its own deliveries. -/
theorem run_handleAmong
    (cfg : ConsumerConfig) (managers : ι → Manager)
    (handed : List (Handed ι)) (manager : ι) :
    run (handleAmong cfg) managers handed manager =
      run (Manager.handle cfg) (managers manager)
        (deliveriesOf manager handed) := by
  induction handed generalizing managers with
  | nil =>
      rfl
  | cons each rest inductionHypothesis =>
      rw [run_cons, inductionHypothesis]
      by_cases same : each.manager = manager
      · have deliveries :
            deliveriesOf manager (each :: rest) =
              each.delivery :: deliveriesOf manager rest := by
          simp [deliveriesOf, same]
        rw [deliveries, run_cons, handleAmong, same,
          Function.update_self]
      · have deliveries :
            deliveriesOf manager (each :: rest) =
              deliveriesOf manager rest := by
          simp [deliveriesOf, same]
        rw [deliveries, handleAmong,
          Function.update_of_ne (Ne.symm same)]

theorem consumeAmong_apply
    (cfg : ConsumerConfig) (handed : List (Handed ι)) (manager : ι) :
    consumeAmong cfg handed manager =
      consume cfg (deliveriesOf manager handed) :=
  run_handleAmong cfg _ handed manager

section FanIn

variable (cfg : ConsumerConfig) (runId toTask : String)
  (handed : List (Handed ι))

/-- The messages of the fan-in, whoever they were handed to. -/
def allMessages : List Envelope :=
  messagesFor runId toTask (handed.map Handed.delivery)

def messagesOf (manager : ι) : List Envelope :=
  messagesFor runId toTask (deliveriesOf manager handed)

/-- A fan-in task whose required upstream messages are each delivered once,
to some manager. -/
structure DeliveredOnce : Prop where
  fanIn : cfg.requiredUpstreams toTask ≠ []
  once : ∀ upstream ∈ cfg.requiredUpstreams toTask,
    ((allMessages runId toTask handed).map Envelope.sender).count
      upstream = 1
  own : ∀ each ∈ handed, OwnBuffer runId toTask each.delivery

/-- All required upstream messages are handed to this manager. -/
def AllHandedTo (manager : ι) : Prop :=
  ∀ each ∈ handed, each.delivery.context? = some (runId, toTask) →
    each.delivery.message.sender ∈ cfg.requiredUpstreams toTask →
      each.manager = manager

/-- The delivery is a message of this fan-in from the upstream. -/
def isFrom (upstream : String) (delivery : Delivery) : Bool :=
  delivery.context? = some (runId, toTask) &&
    delivery.message.sender = upstream

omit [DecidableEq ι] in
theorem count_messagesFor
    (deliveries : List Delivery) (upstream : String) :
    ((messagesFor runId toTask deliveries).map Envelope.sender).count
        upstream = deliveries.countP (isFrom runId toTask upstream) := by
  rw [messagesFor, List.map_map, List.count, List.countP_map,
    List.countP_filter]
  refine List.countP_congr fun delivery _ => ?_
  simp [isFrom, and_comm]

omit [DecidableEq ι] in
theorem count_allMessages (upstream : String) :
    ((allMessages runId toTask handed).map Envelope.sender).count
        upstream =
      handed.countP fun each =>
        isFrom runId toTask upstream each.delivery := by
  rw [allMessages, count_messagesFor, List.countP_map]
  rfl

theorem count_messagesOf (manager : ι) (upstream : String) :
    ((messagesOf runId toTask handed manager).map Envelope.sender).count
        upstream =
      (handed.filter fun each => each.manager = manager).countP
        fun each => isFrom runId toTask upstream each.delivery := by
  rw [messagesOf, count_messagesFor, deliveriesOf, List.countP_map]
  rfl

/-- The messages of a manager cover the required upstreams exactly when all
of them were handed to it. -/
theorem covers_messagesOf_iff
    (delivered : DeliveredOnce cfg runId toTask handed) (manager : ι) :
    Covers (cfg.requiredUpstreams toTask)
        (messagesOf runId toTask handed manager) ↔
      AllHandedTo cfg runId toTask handed manager := by
  constructor
  · intro covers each member here required
    by_contra elsewhere
    have total := delivered.once each.delivery.message.sender required
    rw [count_allMessages,
      List.countP_eq_countP_filter_add _ _
        (fun each : Handed ι => each.manager = manager)] at total
    have mine :
        0 < ((messagesOf runId toTask handed manager).map
          Envelope.sender).count each.delivery.message.sender :=
      List.count_pos_iff.mpr (covers.2 _ required)
    rw [count_messagesOf] at mine
    have other : 0 <
        (handed.filter fun each : Handed ι =>
          !decide (each.manager = manager)).countP fun other =>
            isFrom runId toTask each.delivery.message.sender
              other.delivery := by
      refine List.countP_pos_iff.mpr ⟨each, ?_, ?_⟩
      · exact List.mem_filter.mpr ⟨member, by simp [elsewhere]⟩
      · simp [isFrom, here]
    omega
  · intro all
    have arrived : ∀ upstream ∈ cfg.requiredUpstreams toTask,
        upstream ∈ (messagesOf runId toTask handed manager).map
          Envelope.sender := by
      intro upstream required
      have present := delivered.once upstream required
      rw [count_allMessages] at present
      obtain ⟨each, member, isIt⟩ :=
        List.countP_pos_iff.mp (present ▸ Nat.one_pos)
      simp only [isFrom, Bool.and_eq_true, decide_eq_true_eq] at isIt
      obtain ⟨here, sameSender⟩ := isIt
      have mine : each.manager = manager :=
        all each member here (sameSender ▸ required)
      rw [← List.count_pos_iff, count_messagesOf]
      refine List.countP_pos_iff.mpr ⟨each, ?_, ?_⟩
      · exact List.mem_filter.mpr ⟨member, by simp [mine]⟩
      · simp [isFrom, here, sameSender]
    obtain ⟨upstream, required⟩ :=
      List.exists_mem_of_ne_nil _ delivered.fanIn
    refine ⟨?_, arrived⟩
    intro nothing
    have present := arrived upstream required
    rw [nothing] at present
    cases present

/-- A manager completes at most one batch, since it would need every
required message a second time. -/
theorem one_batch_of_covers
    (delivered : DeliveredOnce cfg runId toTask handed) (manager : ι)
    (covers :
      Covers (cfg.requiredUpstreams toTask)
        (messagesOf runId toTask handed manager)) :
    (batchesOf (Covers (cfg.requiredUpstreams toTask))
      (messagesOf runId toTask handed manager)).length = 1 := by
  obtain ⟨first, last, rest, split, notYet, filled⟩ :=
    exists_first_batch _ (not_covers_nil _) covers
  refine
    (batchesOf_length_eq_one_iff _ Covers.append
      (not_covers_nil _) _).mpr
      ⟨first, last, rest, split, notYet, filled, ?_⟩
  intro again
  obtain ⟨upstream, required⟩ :=
    List.exists_mem_of_ne_nil _ delivered.fanIn
  have early :
      0 < ((first ++ [last]).map Envelope.sender).count upstream :=
    List.count_pos_iff.mpr (filled.2 upstream required)
  have late : 0 < (rest.map Envelope.sender).count upstream :=
    List.count_pos_iff.mpr (again.2 upstream required)
  have total := delivered.once upstream required
  have atMost :
      ((messagesOf runId toTask handed manager).map
          Envelope.sender).count upstream ≤
        ((allMessages runId toTask handed).map Envelope.sender).count
          upstream := by
    rw [count_messagesOf, count_allMessages]
    exact List.filter_sublist.countP_le
  have regrouped :
      first ++ last :: rest = (first ++ [last]) ++ rest := by
    simp
  rw [split, regrouped, List.map_append, List.count_append] at atMost
  omega

/-- A manager forwards the task when all of its required messages were
handed to it, and then once and with all of their envelopes; otherwise it
does not forward the task. -/
theorem forwards_iff_allHandedTo
    (delivered : DeliveredOnce cfg runId toTask handed) (manager : ι) :
    let calls :=
      callsFor runId toTask (consumeAmong cfg handed manager).forwarded
    (calls.length = 1 ↔ AllHandedTo cfg runId toTask handed manager) ∧
      (calls = [] ↔ ¬ AllHandedTo cfg runId toTask handed manager) ∧
      ∀ call ∈ calls, ∀ upstream ∈ cfg.requiredUpstreams toTask,
        call.HasEnvelopeFrom upstream := by
  intro calls
  have own : ∀ delivery ∈ deliveriesOf manager handed,
      OwnBuffer runId toTask delivery := by
    intro delivery member
    obtain ⟨each, inFilter, sameDelivery⟩ := List.mem_map.mp member
    rw [← sameDelivery]
    exact delivered.own each (List.mem_filter.mp inFilter).1
  have calls_eq :
      calls =
        (batchesOf (Covers (cfg.requiredUpstreams toTask))
          (messagesOf runId toTask handed manager)).map
            (batchCall cfg toTask) := by
    rw [show calls = callsFor runId toTask
        (consumeAmong cfg handed manager).forwarded from rfl,
      consumeAmong_apply]
    exact
      callsFor_consume cfg runId toTask (deliveriesOf manager handed) own
  have coversIff :=
    covers_messagesOf_iff cfg runId toTask handed delivered manager
  have noneIff :=
    batchesOf_eq_nil_iff _ Covers.append
      (not_covers_nil (cfg.requiredUpstreams toTask))
      (messagesOf runId toTask handed manager)
  refine ⟨?_, ?_, ?_⟩
  · rw [calls_eq, List.length_map, ← coversIff]
    constructor
    · intro one
      by_contra notCovers
      rw [noneIff.mpr notCovers] at one
      cases one
    · exact
        one_batch_of_covers cfg runId toTask handed delivered manager
  · rw [calls_eq, List.map_eq_nil_iff, noneIff, coversIff]
  · intro call member
    rw [calls_eq] at member
    obtain ⟨batch, inBatches, sameCall⟩ := List.mem_map.mp member
    rw [← sameCall]
    exact
      batchCall_hasEnvelopeFrom cfg toTask
        (full_of_mem_batchesOf _ inBatches)

end FanIn

/-! ## A fan-in split between two managers -/

def handedToJoin (first second : Fin 2) : List (Handed (Fin 2)) :=
  [⟨first, toJoin "a"⟩, ⟨second, toJoin "b"⟩]

theorem handedToJoin_deliveredOnce (first second : Fin 2) :
    DeliveredOnce joinConfig "run-1" "join"
      (handedToJoin first second) where
  fanIn := by
    decide +kernel
  once := by
    revert first second
    decide +kernel
  own := by
    simp [handedToJoin, toJoin_ownBuffer]

/-- The general statement where one manager gets both messages. -/
theorem both_handed_to_one_manager :
    (callsFor "run-1" "join"
      (consumeAmong joinConfig (handedToJoin 0 0) 0).forwarded).length =
        1 := by
  refine
    (forwards_iff_allHandedTo joinConfig "run-1" "join" _
      (handedToJoin_deliveredOnce 0 0) 0).1.mpr ?_
  intro each member _ _
  revert each
  simp [handedToJoin]

theorem split_fanIn_never_forwarded :
    DeliveredOnce joinConfig "run-1" "join" (handedToJoin 0 1) ∧
      ¬ ∃ manager,
        (callsFor "run-1" "join"
          (consumeAmong joinConfig (handedToJoin 0 1)
            manager).forwarded).length = 1 := by
  refine ⟨handedToJoin_deliveredOnce 0 1, ?_⟩
  decide +kernel

end Agentcy.Consumer
