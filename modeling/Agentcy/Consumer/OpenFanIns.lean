import Agentcy.Consumer.FanIn
import Agentcy.Library.DottedNames
import Mathlib.Data.List.Dedup
import Mathlib.Data.List.Perm.Subperm

/-!
# Entries of the aggregator

Every message writes into the buffer of its run and task before the handler
knows whether the task has required upstreams, and only a completed fan-in
takes the buffer out again.
-/

namespace Agentcy.Consumer

open Agentcy.Library
open Agentcy.Runs

/-- Runs and tasks that messages were handled for. -/
def contexts (handled : List Delivery) : List (String × String) :=
  handled.filterMap Delivery.context?

section Definitions

variable (cfg : ConsumerConfig) (handled : List Delivery)

/-- The messages of a run and task since its last flush. -/
def sinceFlush (runId toTask : String) : List Envelope :=
  (run (collect (Covers (cfg.requiredUpstreams toTask))) {}
    (messagesFor runId toTask handled)).pending

/-- The task has required upstreams, and at least one but not all of them
have arrived since the last flush. -/
def OpenFanIn (fanIn : String × String) : Prop :=
  cfg.requiredUpstreams fanIn.2 ≠ [] ∧
    (∃ upstream ∈ cfg.requiredUpstreams fanIn.2,
      upstream ∈
        (sinceFlush cfg handled fanIn.1 fanIn.2).map Envelope.sender) ∧
    ¬ ∀ upstream ∈ cfg.requiredUpstreams fanIn.2,
      upstream ∈
        (sinceFlush cfg handled fanIn.1 fanIn.2).map Envelope.sender

instance : DecidablePred (OpenFanIn cfg handled) :=
  fun _ => inferInstanceAs (Decidable (_ ∧ _ ∧ ¬ _))

def openFanIns : List (String × String) :=
  (contexts handled).dedup.filter fun fanIn => OpenFanIn cfg handled fanIn

/-- The store of a manager after these messages holds the open fan-ins and
nothing else. -/
structure HoldsOpenFanIns : Prop where
  entry_iff : ∀ fanIn ∈ contexts handled,
    ((consume cfg handled).store.get?
        (aggregatorKey fanIn.1 fanIn.2)).isSome = true ↔
      OpenFanIn cfg handled fanIn
  ofMessage : ∀ key ∈ (consume cfg handled).store.keys,
    ∃ fanIn ∈ contexts handled, key = aggregatorKey fanIn.1 fanIn.2
  bounded :
    (consume cfg handled).store.entries.length ≤
      (openFanIns cfg handled).length

/-- The message comes from a required upstream, or one has already arrived
since the last flush. -/
def BelongsToFanIn (delivery : Delivery) : Prop :=
  ∀ runId toTask, delivery.context? = some (runId, toTask) →
    ∃ upstream ∈ cfg.requiredUpstreams toTask,
      upstream = delivery.message.sender ∨
        upstream ∈
          (sinceFlush cfg handled runId toTask).map Envelope.sender

/-- No two of the runs and tasks share a key. -/
def KeysApart : Prop :=
  ∀ first ∈ contexts handled, ∀ second ∈ contexts handled,
    aggregatorKey first.1 first.2 = aggregatorKey second.1 second.2 →
      first = second

end Definitions

theorem mem_contexts_iff
    (handled : List Delivery) (fanIn : String × String) :
    fanIn ∈ contexts handled ↔
      ∃ delivery ∈ handled, delivery.context? = some fanIn :=
  List.mem_filterMap

theorem contexts_concat (handled : List Delivery) (delivery : Delivery) :
    contexts (handled ++ [delivery]) =
      contexts handled ++ delivery.context?.toList := by
  rw [contexts, contexts, List.filterMap_append]
  cases context : delivery.context? <;> simp [context]

theorem KeysApart.ownBuffer
    {handled : List Delivery} (apart : KeysApart handled)
    {fanIn : String × String} (member : fanIn ∈ contexts handled) :
    ∀ delivery ∈ handled, OwnBuffer fanIn.1 fanIn.2 delivery := by
  intro delivery inHandled other context same
  exact apart other
    ((mem_contexts_iff handled other).mpr ⟨delivery, inHandled, context⟩)
    fanIn member same

theorem KeysApart.before
    {before after : List Delivery}
    (apart : KeysApart (before ++ after)) : KeysApart before := by
  have grows : ∀ fanIn ∈ contexts before,
      fanIn ∈ contexts (before ++ after) := by
    intro fanIn member
    rw [contexts, List.filterMap_append]
    exact List.mem_append_left _ member
  intro first inFirst second inSecond same
  exact apart first (grows first inFirst) second (grows second inSecond)
    same

/-- Keys of runs whose names have no underscore, as those of generated runs,
are apart. -/
theorem keysApart_of_plainRuns
    {handled : List Delivery}
    (plain : ∀ fanIn ∈ contexts handled, '_' ∉ fanIn.1.toList) :
    KeysApart handled := by
  intro first inFirst second inSecond same
  have lists := congrArg (fun key => key.toList.reverse) same
  simp only [aggregatorKey, String.toList_append, List.reverse_append,
    show "_".toList = ['_'] from rfl, List.reverse_cons,
    List.append_assoc, List.singleton_append] at lists
  have absent : ∀ fanIn ∈ contexts handled,
      '_' ∉ fanIn.1.toList.reverse := by
    intro fanIn member
    rw [List.mem_reverse]
    exact plain fanIn member
  have parts :=
    append_separator_inj (absent first inFirst) (absent second inSecond)
      lists
  exact Prod.ext (String.ext (List.reverse_injective parts.2))
    (String.ext (List.reverse_injective parts.1))

theorem aggregate_stores
    (cfg : ConsumerConfig) (store : AggregatorStore)
    (runId toTask : String) (message : Envelope) :
    ∃ arrived : Bundle, arrived.entries ≠ [] ∧
      ((aggregate cfg store runId toTask message).1 =
          store.set (aggregatorKey runId toTask) arrived ∨
        (aggregate cfg store runId toTask message).1 =
          (store.set (aggregatorKey runId toTask) arrived).erase
            (aggregatorKey runId toTask)) := by
  refine ⟨((store.get? (aggregatorKey runId toTask)).getD .empty).set
    message.sender message, ?_, ?_⟩
  · intro nothing
    have member :
        message.sender ∈
          (((store.get? (aggregatorKey runId toTask)).getD .empty).set
            message.sender message).keys :=
      (OrderedMap.mem_keys_set _ _ _ _).mpr (Or.inl rfl)
    rw [OrderedMap.keys, nothing] at member
    cases member
  · rw [aggregate]
    dsimp only
    split
    · exact Or.inl rfl
    · split
      · split
        · exact Or.inr rfl
        · exact Or.inr rfl
      · exact Or.inl rfl

/-- Stored bundles have an envelope, and their keys are those of handled
messages. -/
structure Stored (handled : List Delivery) (store : AggregatorStore) :
    Prop where
  notEmpty : ∀ key bundle, store.get? key = some bundle →
    bundle.entries ≠ []
  ofMessage : ∀ key ∈ store.keys,
    ∃ fanIn ∈ contexts handled, key = aggregatorKey fanIn.1 fanIn.2

theorem consume_concat
    (cfg : ConsumerConfig) (handled : List Delivery)
    (delivery : Delivery) :
    consume cfg (handled ++ [delivery]) =
      (consume cfg handled).handle cfg delivery := by
  rw [consume, run_append]
  rfl

theorem handle_store_of_context
    (cfg : ConsumerConfig) (manager : Manager) {delivery : Delivery}
    {fanIn : String × String}
    (context : delivery.context? = some fanIn) :
    (manager.handle cfg delivery).store =
      (aggregate cfg manager.store fanIn.1 fanIn.2
        delivery.message).1 := by
  rw [Manager.handle, defaultHandler, context]

theorem handle_store_of_no_context
    (cfg : ConsumerConfig) (manager : Manager) {delivery : Delivery}
    (ignored : delivery.context? = none) :
    (manager.handle cfg delivery).store = manager.store := by
  rw [Manager.handle, defaultHandler, ignored]

theorem stored_consume (cfg : ConsumerConfig) (handled : List Delivery) :
    Stored handled (consume cfg handled).store := by
  induction handled using List.reverseRecOn with
  | nil =>
      refine ⟨?_, ?_⟩
      · intro key bundle found
        cases found
      · intro key member
        cases member
  | append_singleton handled delivery inductionHypothesis =>
      obtain ⟨notEmpty, ofMessage⟩ := inductionHypothesis
      have earlier : ∀ key ∈ (consume cfg handled).store.keys,
          ∃ fanIn ∈ contexts (handled ++ [delivery]),
            key = aggregatorKey fanIn.1 fanIn.2 := by
        intro key member
        obtain ⟨fanIn, inContexts, same⟩ := ofMessage key member
        refine ⟨fanIn, ?_, same⟩
        rw [contexts_concat]
        exact List.mem_append_left _ inContexts
      rw [consume_concat]
      cases context : delivery.context? with
      | none =>
          rw [handle_store_of_no_context cfg _ context]
          exact ⟨notEmpty, earlier⟩
      | some fanIn =>
          rw [handle_store_of_context cfg _ context]
          obtain ⟨arrived, filled, stores⟩ :=
            aggregate_stores cfg (consume cfg handled).store fanIn.1
              fanIn.2 delivery.message
          have new : ∀ key bundle,
              ((consume cfg handled).store.set
                (aggregatorKey fanIn.1 fanIn.2) arrived).get? key =
                  some bundle → bundle.entries ≠ [] := by
            intro key bundle found
            rw [OrderedMap.get?_set] at found
            split at found
            · rwa [← Option.some.inj found]
            · exact notEmpty key bundle found
          have newKey : ∀ key ∈ ((consume cfg handled).store.set
                (aggregatorKey fanIn.1 fanIn.2) arrived).keys,
              ∃ fanIn ∈ contexts (handled ++ [delivery]),
                key = aggregatorKey fanIn.1 fanIn.2 := by
            intro key member
            rcases (OrderedMap.mem_keys_set _ _ _ _).mp member with
              here | old
            · refine ⟨fanIn, ?_, here⟩
              rw [contexts_concat, context]
              exact List.mem_append_right _ List.mem_cons_self
            · exact earlier key old
          rcases stores with kept | flushed
          · rw [kept]
            exact ⟨new, newKey⟩
          · rw [flushed]
            refine ⟨?_, ?_⟩
            · intro key bundle found
              rw [OrderedMap.get?_erase] at found
              split at found
              · cases found
              · exact new key bundle found
            · intro key member
              apply newKey
              rw [OrderedMap.mem_keys_iff, OrderedMap.get?_erase] at member
              split at member
              · cases member
              · exact (OrderedMap.mem_keys_iff _ _).mpr member

/-! ## Entries and arrivals -/

theorem bundleOf_entries_eq_nil_iff (messages : List Envelope) :
    (bundleOf messages).entries = [] ↔ messages = [] := by
  constructor
  · intro nothing
    rw [List.eq_nil_iff_forall_not_mem]
    intro message member
    have inKeys :=
      (mem_keys_bundleOf messages message.sender).mpr
        (List.mem_map_of_mem member)
    rw [OrderedMap.keys, nothing] at inKeys
    cases inKeys
  · rintro rfl
    rfl

section Entries

variable {cfg : ConsumerConfig} {handled : List Delivery}
variable {runId toTask : String}

/-- A fan-in is open exactly when a required upstream has arrived since the
last flush; not all of them can have. -/
theorem openFanIn_iff (fanIn : String × String) :
    OpenFanIn cfg handled fanIn ↔
      ∃ upstream ∈ cfg.requiredUpstreams fanIn.2,
        upstream ∈
          (sinceFlush cfg handled fanIn.1 fanIn.2).map
            Envelope.sender := by
  constructor
  · intro isOpen
    exact isOpen.2.1
  · rintro ⟨upstream, required, arrived⟩
    refine ⟨List.ne_nil_of_mem required, ⟨upstream, required, arrived⟩, ?_⟩
    intro all
    refine not_full_pending _ (not_covers_nil _) _ ⟨?_, all⟩
    intro nothing
    rw [sinceFlush, nothing] at arrived
    cases arrived

theorem collects_consume
    (cfg : ConsumerConfig) (apart : KeysApart handled)
    (member : (runId, toTask) ∈ contexts handled) :
    Collects cfg runId toTask (consume cfg handled)
      (run (collect (Covers (cfg.requiredUpstreams toTask))) {}
        (messagesFor runId toTask handled)) := by
  have initial : Collects cfg runId toTask {} {} :=
    ⟨rfl, fun _ => rfl, fun _ => rfl⟩
  exact initial.run handled (apart.ownBuffer member)

/-- The entry of a fan-in is there exactly when a message has arrived since
the last flush. -/
theorem entry_iff_sinceFlush
    (apart : KeysApart handled)
    (member : (runId, toTask) ∈ contexts handled)
    (fanIn : cfg.requiredUpstreams toTask ≠ []) :
    ((consume cfg handled).store.get?
        (aggregatorKey runId toTask)).isSome = true ↔
      sinceFlush cfg handled runId toTask ≠ [] := by
  have buffer := (collects_consume cfg apart member).buffer fanIn
  rw [← not_iff_not, not_ne_iff, ← bundleOf_entries_eq_nil_iff]
  cases found : (consume cfg handled).store.get?
      (aggregatorKey runId toTask) with
  | none =>
      rw [found] at buffer
      rw [sinceFlush, ← buffer]
      exact iff_of_true Bool.false_ne_true rfl
  | some bundle =>
      rw [found] at buffer
      rw [sinceFlush, ← buffer]
      exact iff_of_false (fun absent => absent rfl)
        ((stored_consume cfg handled).notEmpty _ bundle found)

/-- The entry of a task without required upstreams stays. -/
theorem entry_of_no_upstreams
    (apart : KeysApart handled)
    (member : (runId, toTask) ∈ contexts handled)
    (none : cfg.requiredUpstreams toTask = []) :
    ((consume cfg handled).store.get?
      (aggregatorKey runId toTask)).isSome = true := by
  induction handled using List.reverseRecOn with
  | nil =>
      cases member
  | append_singleton handled delivery inductionHypothesis =>
      rw [consume_concat]
      by_cases here : delivery.context? = some (runId, toTask)
      · rw [handle_store_of_context cfg _ here, aggregate]
        dsimp only
        rw [none, List.isEmpty_nil, if_pos rfl, OrderedMap.get?_set_self]
        rfl
      · have earlier : (runId, toTask) ∈ contexts handled := by
          rw [contexts_concat, List.mem_append, Option.mem_toList] at member
          exact member.resolve_right here
        have kept := inductionHypothesis apart.before earlier
        cases context : delivery.context? with
        | none =>
            rwa [handle_store_of_no_context cfg _ context]
        | some other =>
            have different : aggregatorKey runId toTask ≠
                aggregatorKey other.1 other.2 := by
              intro same
              have own :=
                apart.ownBuffer member delivery
                  (List.mem_append_right _ List.mem_cons_self) other
                  context same.symm
              exact here (context.trans (congrArg some own))
            rwa [handle_store_of_context cfg _ context,
              (aggregate_frame cfg _ other.1 other.2 delivery.message _
                different).1]

end Entries

/-- The task has required upstreams, and one of them is among the messages
since the last flush if there are any. -/
def Awaited
    (cfg : ConsumerConfig) (handled : List Delivery)
    (fanIn : String × String) : Prop :=
  cfg.requiredUpstreams fanIn.2 ≠ [] ∧
    (sinceFlush cfg handled fanIn.1 fanIn.2 ≠ [] →
      ∃ upstream ∈ cfg.requiredUpstreams fanIn.2,
        upstream ∈
          (sinceFlush cfg handled fanIn.1 fanIn.2).map Envelope.sender)

theorem holdsOpenFanIns_iff
    (cfg : ConsumerConfig) {handled : List Delivery}
    (apart : KeysApart handled) :
    HoldsOpenFanIns cfg handled ↔
      ∀ fanIn ∈ contexts handled, Awaited cfg handled fanIn := by
  constructor
  · intro holds fanIn member
    have entry := holds.entry_iff fanIn member
    by_cases none : cfg.requiredUpstreams fanIn.2 = []
    · have isOpen := entry.mp (entry_of_no_upstreams apart member none)
      exact absurd none isOpen.1
    · refine ⟨none, ?_⟩
      intro arrived
      rw [entry_iff_sinceFlush apart member none] at entry
      exact (entry.mp arrived).2.1
  · intro awaited
    have entry : ∀ fanIn ∈ contexts handled,
        ((consume cfg handled).store.get?
            (aggregatorKey fanIn.1 fanIn.2)).isSome = true ↔
          OpenFanIn cfg handled fanIn := by
      intro fanIn member
      obtain ⟨several, some⟩ := awaited fanIn member
      rw [entry_iff_sinceFlush apart member several, openFanIn_iff]
      refine ⟨some, ?_⟩
      rintro ⟨upstream, _, arrived⟩ nothing
      rw [nothing] at arrived
      cases arrived
    have stored := stored_consume cfg handled
    refine ⟨entry, stored.ofMessage, ?_⟩
    have inside : (consume cfg handled).store.keys ⊆
        (openFanIns cfg handled).map
          fun fanIn => aggregatorKey fanIn.1 fanIn.2 := by
      intro key member
      obtain ⟨fanIn, inContexts, same⟩ := stored.ofMessage key member
      rw [OrderedMap.mem_keys_iff, same] at member
      refine List.mem_map.mpr ⟨fanIn, ?_, same.symm⟩
      rw [openFanIns, List.mem_filter, List.mem_dedup]
      exact ⟨inContexts,
        decide_eq_true ((entry fanIn inContexts).mp member)⟩
    have short :=
      (List.subperm_of_subset
        (consume cfg handled).store.keysNodup inside).length_le
    rwa [List.length_map, List.length_map] at short

section Messages

variable {cfg : ConsumerConfig} {handled : List Delivery}
variable {delivery : Delivery} {runId toTask : String}

theorem messagesFor_concat_here
    (here : delivery.context? = some (runId, toTask)) :
    messagesFor runId toTask (handled ++ [delivery]) =
      messagesFor runId toTask handled ++ [delivery.message] := by
  simp [messagesFor, List.filter_append, here]

theorem messagesFor_concat_elsewhere
    (elsewhere : delivery.context? ≠ some (runId, toTask)) :
    messagesFor runId toTask (handled ++ [delivery]) =
      messagesFor runId toTask handled := by
  simp [messagesFor, List.filter_append, elsewhere]

theorem sinceFlush_concat_here
    (here : delivery.context? = some (runId, toTask)) :
    sinceFlush cfg (handled ++ [delivery]) runId toTask =
      if Covers (cfg.requiredUpstreams toTask)
          (sinceFlush cfg handled runId toTask ++ [delivery.message]) then
        []
      else
        sinceFlush cfg handled runId toTask ++ [delivery.message] := by
  rw [sinceFlush, messagesFor_concat_here here, run_append, run_cons,
    run_nil, collect, ← sinceFlush]
  split <;> rfl

theorem sinceFlush_concat_elsewhere
    (elsewhere : delivery.context? ≠ some (runId, toTask)) :
    sinceFlush cfg (handled ++ [delivery]) runId toTask =
      sinceFlush cfg handled runId toTask := by
  rw [sinceFlush, messagesFor_concat_elsewhere elsewhere, sinceFlush]

/-- A message keeps every fan-in awaited exactly when it belongs to one. -/
theorem awaited_concat_iff
    (awaited : ∀ fanIn ∈ contexts handled, Awaited cfg handled fanIn) :
    (∀ fanIn ∈ contexts (handled ++ [delivery]),
        Awaited cfg (handled ++ [delivery]) fanIn) ↔
      BelongsToFanIn cfg handled delivery := by
  constructor
  · intro after runId toTask here
    have member : (runId, toTask) ∈ contexts (handled ++ [delivery]) := by
      rw [contexts_concat, here]
      exact List.mem_append_right _ List.mem_cons_self
    obtain ⟨several, arrives⟩ := after _ member
    dsimp only at several arrives
    rw [sinceFlush_concat_here here] at arrives
    have found : ∃ upstream ∈ cfg.requiredUpstreams toTask,
        upstream ∈ (sinceFlush cfg handled runId toTask ++
          [delivery.message]).map Envelope.sender := by
      by_cases covers : Covers (cfg.requiredUpstreams toTask)
          (sinceFlush cfg handled runId toTask ++ [delivery.message])
      · obtain ⟨upstream, required⟩ := List.exists_mem_of_ne_nil _ several
        exact ⟨upstream, required, covers.2 upstream required⟩
      · rw [if_neg covers] at arrives
        exact arrives (by simp)
    obtain ⟨upstream, required, arrived⟩ := found
    refine ⟨upstream, required, ?_⟩
    rw [List.map_append, List.mem_append, List.map_singleton,
      List.mem_singleton] at arrived
    exact arrived.symm
  · intro belongs fanIn member
    by_cases here : delivery.context? = some fanIn
    · obtain ⟨upstream, required, arrived⟩ := belongs fanIn.1 fanIn.2 here
      refine ⟨List.ne_nil_of_mem required, ?_⟩
      rw [sinceFlush_concat_here here]
      intro remains
      split at remains
      · exact absurd rfl remains
      · rename_i open_
        rw [if_neg open_]
        refine ⟨upstream, required, ?_⟩
        rw [List.map_append, List.mem_append, List.map_singleton,
          List.mem_singleton]
        exact arrived.symm
    · have earlier : fanIn ∈ contexts handled := by
        rw [contexts_concat, List.mem_append, Option.mem_toList] at member
        exact member.resolve_right here
      rw [Awaited, sinceFlush_concat_elsewhere here]
      exact awaited fanIn earlier

end Messages

/-! ## Every state -/

/-- With keys apart, the store holds the open fan-ins after every message
exactly when every message belongs to a fan-in. -/
theorem holdsOpenFanIns_everywhere_iff
    (cfg : ConsumerConfig) {deliveries : List Delivery}
    (apart : KeysApart deliveries) :
    (∀ before after, deliveries = before ++ after →
        HoldsOpenFanIns cfg before) ↔
      ∀ before delivery after, deliveries = before ++ delivery :: after →
        BelongsToFanIn cfg before delivery := by
  have apartBefore : ∀ before after, deliveries = before ++ after →
      KeysApart before := by
    intro before after split
    rw [split] at apart
    exact apart.before
  constructor
  · intro holds before delivery after split
    have splitAfter : deliveries = (before ++ [delivery]) ++ after := by
      rw [split, List.append_assoc, List.singleton_append]
    have awaited :=
      (holdsOpenFanIns_iff cfg (apartBefore before _ split)).mp
        (holds before _ split)
    exact (awaited_concat_iff awaited).mp
      ((holdsOpenFanIns_iff cfg (apartBefore _ _ splitAfter)).mp
        (holds _ _ splitAfter))
  · intro belongs before after split
    rw [holdsOpenFanIns_iff cfg (apartBefore before after split)]
    induction before using List.reverseRecOn generalizing after with
    | nil =>
        intro fanIn member
        cases member
    | append_singleton before delivery inductionHypothesis =>
        have splitBefore : deliveries = before ++ delivery :: after := by
          rw [split, List.append_assoc, List.singleton_append]
        exact (awaited_concat_iff
          (inductionHypothesis (delivery :: after) splitBefore)).mpr
            (belongs before delivery after splitBefore)

/-- Two upstreams of one fan-in, in a run of one message each. -/
theorem join_holdsOpenFanIns :
    (∀ before after, [toJoin "a", toJoin "b"] = before ++ after →
        HoldsOpenFanIns joinConfig before) ↔
      ∀ before delivery after,
        [toJoin "a", toJoin "b"] = before ++ delivery :: after →
          BelongsToFanIn joinConfig before delivery := by
  apply holdsOpenFanIns_everywhere_iff
  apply keysApart_of_plainRuns
  decide +kernel

/-- A message for a task that is not in the fan-in metadata. -/
def toStart : Delivery where
  toTask := some "start"
  message := { pipelineRunId := some "run-1", fromTask := some "entry" }

/-- A task without required upstreams leaves an entry behind, and so does a
sender that the fan-in does not wait for. -/
theorem entries_stay_behind :
    ((consume joinConfig [toStart]).store.get?
        (aggregatorKey "run-1" "start")).isSome = true ∧
      ¬ HoldsOpenFanIns joinConfig [toStart] ∧
      ((consume joinConfig
          [toJoin "a", toJoin "b", toJoin "c"]).store.get?
        (aggregatorKey "run-1" "join")).isSome = true ∧
      ¬ HoldsOpenFanIns joinConfig
        [toJoin "a", toJoin "b", toJoin "c"] := by
  refine ⟨by decide +kernel, ?_, by decide +kernel, ?_⟩
  · intro holds
    have isOpen :=
      (holds.entry_iff ("run-1", "start") (by decide +kernel)).mp
        (by decide +kernel)
    revert isOpen
    decide +kernel
  · intro holds
    have isOpen :=
      (holds.entry_iff ("run-1", "join") (by decide +kernel)).mp
        (by decide +kernel)
    revert isOpen
    decide +kernel

end Agentcy.Consumer
