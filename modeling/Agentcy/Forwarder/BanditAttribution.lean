import Agentcy.Cnp.CfpInvariant
import Agentcy.Forwarder.BanditUpdates
import Agentcy.Library.Run

/-!
# Attribution of outcomes

A decision that nobody executed yet is as it was recorded, and an execution
closes the first open record that it finds.  So outcomes go where they belong
as long as every execution finds the record of its own run, or none.
-/

namespace Agentcy.Forwarder

open Agentcy.Cnp (QueryOrder UuidSource id_of_suffix)
open Agentcy.GraphStore (MarkerKey)
open Agentcy.Library

/-- No own execution came yet, and the record is as it was saved. -/
structure Untouched (store : BanditStore) (decided : Decided) : Prop where
  executions : decided.executions = []
  outcomes : decided.outcomes = []
  rewards : decided.rewards = []
  stored : decided.stored? store = some decided.record
  learnt : decided.learnt store = []

/-- An own execution has been recorded. -/
structure Settled (store : BanditStore) (decided : Decided) : Prop where
  executions : decided.executions ≠ []
  closed :
    ∃ execution, decided.decision.Owns execution ∧
      decided.outcomes = [execution] ∧ decided.rewards = [execution] ∧
        decided.stored? store = some (decided.closedBy execution) ∧
        decided.learnt store = [decided.lessonOf execution]

theorem standing_of_same
    {before after : BanditStore} {decided : Decided}
    (standing : Untouched before decided ∨ Settled before decided)
    (sameStored : decided.stored? before = decided.stored? after)
    (sameLearnt : decided.learnt before = decided.learnt after) :
    Untouched after decided ∨ Settled after decided := by
  rcases standing with untouched | settled
  · exact
      .inl
        ⟨untouched.executions, untouched.outcomes, untouched.rewards,
          sameStored ▸ untouched.stored, sameLearnt ▸ untouched.learnt⟩
  · obtain ⟨first, owns, outcomes, rewards, stored, learnt⟩ :=
      settled.closed
    exact
      .inr
        ⟨settled.executions, first, owns, outcomes, rewards,
          sameStored ▸ stored, sameLearnt ▸ learnt⟩

theorem Decided.closedBy_ne_record
    (decided : Decided) (execution : TaskExecution) :
    decided.closedBy execution ≠ decided.record := by
  intro same
  cases congrArg DecisionRecord.outcome same

theorem Settled.not_stored
    {store : BanditStore} {decided : Decided}
    (settled : Settled store decided) :
    decided.stored? store ≠ some decided.record := by
  obtain ⟨execution, _, _, _, stored, _⟩ := settled.closed
  intro isOpen
  rw [stored] at isOpen
  exact decided.closedBy_ne_record execution (Option.some.inj isOpen)

theorem Untouched.attributedTo
    {store : BanditStore} {decided : Decided}
    (untouched : Untouched store decided) :
    AttributedTo store decided where
  own := by
    rw [untouched.outcomes, untouched.rewards]
    rintro execution (member | member)
    · cases member
    · cases member
  once := fun executed => absurd untouched.executions executed

theorem Settled.attributedTo
    {store : BanditStore} {decided : Decided}
    (settled : Settled store decided) :
    AttributedTo store decided := by
  obtain ⟨execution, owns, outcomes, rewards, stored, learnt⟩ :=
    settled.closed
  refine ⟨?_, fun _ => ⟨execution, outcomes, rewards, stored, learnt⟩⟩
  rw [outcomes, rewards]
  rintro other (member | member)
  · rw [List.mem_singleton.mp member]
    exact owns
  · rw [List.mem_singleton.mp member]
    exact owns

/-- An execution that leaves the record and the lessons of a decision alone is
no own one, or comes after one that is recorded. -/
theorem attributedTo_observe
    {before after : BanditStore} {decided : Decided}
    {execution : TaskExecution}
    (standing : Untouched before decided ∨ Settled before decided)
    (spared :
      decided.decision.Owns execution →
        decided.stored? before ≠ some decided.record)
    (sameStored : decided.stored? before = decided.stored? after)
    (sameLearnt : decided.learnt before = decided.learnt after) :
    AttributedTo after (decided.observe before after execution) := by
  rw [Decided.observe, if_pos sameStored, if_pos sameLearnt]
  rcases standing with untouched | settled
  · have foreign : ¬ decided.decision.Owns execution := fun owns =>
      spared owns untouched.stored
    rw [if_neg foreign]
    exact
      (Untouched.mk untouched.executions untouched.outcomes
        untouched.rewards (sameStored ▸ untouched.stored)
        (sameLearnt ▸ untouched.learnt)).attributedTo
  · obtain ⟨first, owns, outcomes, rewards, stored, learnt⟩ :=
      settled.closed
    refine
      Settled.attributedTo
        ⟨?_, first, owns, outcomes, rewards, sameStored ▸ stored,
          sameLearnt ▸ learnt⟩
    dsimp only
    split
    · exact List.append_ne_nil_of_right_ne_nil _ (by simp)
    · exact settled.executions

/-- Standing is kept by what is attributed rightly. -/
theorem standing_of_attributedTo
    {before after : BanditStore} {decided : Decided}
    {execution : TaskExecution}
    (standing : Untouched before decided ∨ Settled before decided)
    (attributed :
      AttributedTo after (decided.observe before after execution)) :
    Untouched after (decided.observe before after execution) ∨
      Settled after (decided.observe before after execution) := by
  by_cases executed :
      (decided.observe before after execution).executions = []
  · refine .inl ?_
    have foreign : ¬ decided.decision.Owns execution := by
      intro owns
      rw [Decided.observe] at executed
      simp [owns] at executed
    have untouched : Untouched before decided := by
      rcases standing with untouched | settled
      · exact untouched
      · rw [Decided.observe, if_neg foreign] at executed
        exact absurd executed settled.executions
    have sameStored :
        decided.stored? before = decided.stored? after := by
      by_contra changed
      refine foreign (attributed.own execution (.inl ?_))
      rw [Decided.observe, if_neg changed]
      simp
    have sameLearnt :
        decided.learnt before = decided.learnt after := by
      by_contra changed
      refine foreign (attributed.own execution (.inr ?_))
      rw [Decided.observe, if_neg changed]
      simp
    refine
      ⟨executed, ?_, ?_, sameStored ▸ untouched.stored,
        sameLearnt ▸ untouched.learnt⟩
    · rw [Decided.observe, if_pos sameStored]
      exact untouched.outcomes
    · rw [Decided.observe, if_pos sameLearnt]
      exact untouched.rewards
  · refine .inr ⟨executed, ?_⟩
    obtain ⟨first, outcomes, rewards, stored, learnt⟩ :=
      attributed.once executed
    refine ⟨first, ?_, outcomes, rewards, stored, learnt⟩
    apply attributed.own first
    rw [outcomes]
    exact .inl (List.mem_singleton_self first)

/-- What a run keeps as long as all executions are attributed rightly. -/
structure Consistent (uuid : UuidSource) (state : BanditState) :
    Prop where
  drawn :
    ∀ decided ∈ state.decisions,
      ∃ index < state.drawn, decided.decisionId = uuid.id index
  distinct : (state.decisions.map Decided.decisionId).Nodup
  rows :
    ∀ row ∈ state.store.records.entries,
      ∃ decided ∈ state.decisions, row.1 = decided.key
  taught :
    ∀ lesson ∈ state.store.lessons,
      ∃ decided ∈ state.decisions,
        lesson.decisionId = decided.decisionId
  standing :
    ∀ decided ∈ state.decisions,
      Untouched state.store decided ∨ Settled state.store decided

theorem decisionKey_id
    (uuid : UuidSource) {username other taskId task : String}
    {first second : Nat}
    (same :
      decisionKey username taskId (uuid.id first) =
        decisionKey other task (uuid.id second)) :
    first = second := by
  have lists := congrArg String.toList same
  simp only [decisionKey, MarkerKey.text, MarkerKey.kind,
    MarkerKey.components, MarkerKey.joined, String.toList_append]
    at lists
  have ends :
      ("decision::".toList ++ username.toList ++ "::".toList ++
            taskId.toList ++ [':']) ++ ':' :: (uuid.id first).toList =
        ("decision::".toList ++ other.toList ++ "::".toList ++
            task.toList ++ [':']) ++ ':' :: (uuid.id second).toList := by
    simpa using lists
  exact id_of_suffix uuid ends

theorem update_of_no_target
    {store : BanditStore} {execution : TaskExecution}
    (nothing :
      execution.reaches = false ∨ execution.target? store = none) :
    updateBanditDecision store execution = store := by
  unfold updateBanditDecision
  rcases nothing with unreached | absent
  · simp [unreached]
  · simp [absent]

theorem update_cases
    (store : BanditStore) (execution : TaskExecution) :
    updateBanditDecision store execution = store ∨
      ∃ record,
        execution.reaches = true ∧
          execution.target? store = some record := by
  by_cases reaches : execution.reaches = true
  · cases found : execution.target? store with
    | none => exact .inl (update_of_no_target (.inr found))
    | some record => exact .inr ⟨record, reaches, rfl⟩
  · exact
      .inl (update_of_no_target (.inl (by simpa using reaches)))

theorem update_of_target
    {store : BanditStore} {execution : TaskExecution}
    {target : Decided} (reaches : execution.reaches = true)
    (found : execution.target? store = some target.record) :
    let written :=
      store.updateDecisionOutcome execution.pass.finalState.username
        execution.pass.finalState.taskId target.decisionId
        execution.outcome (computeReward execution.outcome)
    updateBanditDecision store execution =
      if execution.learns then
        written.recordReward execution.pass.finalState.username
          target.record target.decision.chosen.features
          (computeReward execution.outcome)
      else written := by
  unfold updateBanditDecision
  simp only [reaches, found]
  rfl

/-- What the model learns does not concern the records. -/
theorem records_update
    {store : BanditStore} {execution : TaskExecution}
    {target : Decided} (reaches : execution.reaches = true)
    (found : execution.target? store = some target.record) :
    (updateBanditDecision store execution).records =
      (store.updateDecisionOutcome execution.pass.finalState.username
        execution.pass.finalState.taskId target.decisionId
        execution.outcome (computeReward execution.outcome)).records := by
  rw [update_of_target reaches found]
  cases execution.learns with
  | true => rfl
  | false => rfl

/-- The record that is found does not stand where its outcome would be
written, and the model does not learn from it. -/
structure Strays (store : BanditStore) (execution : TaskExecution) : Prop where
  unlearnt : execution.learns = false
  missing : ∀ record, execution.target? store = some record →
    store.records.get?
      (decisionKey execution.pass.finalState.username
        execution.pass.finalState.taskId record.decisionId) = none

theorem row_updateDecisionOutcome
    {store : BanditStore} {username taskId decisionId : String}
    {outcome : ExecutionOutcome} {reward : ℚ}
    {row : String × DecisionRecord}
    (isRow :
      row ∈ (store.updateDecisionOutcome username taskId decisionId
        outcome reward).records.entries) :
    ∃ old ∈ store.records.entries, row.1 = old.1 := by
  unfold BanditStore.updateDecisionOutcome at isRow
  dsimp only at isRow
  split at isRow
  · exact ⟨row, isRow, rfl⟩
  · rename_i record stored
    rcases OrderedMap.mem_entries_set isRow with rfl | old
    · exact ⟨_, OrderedMap.mem_of_get? stored, rfl⟩
    · exact ⟨row, old, rfl⟩

theorem update_of_strays
    {store : BanditStore} {execution : TaskExecution} {target : Decided}
    (found : execution.target? store = some target.record)
    (strays : Strays store execution) :
    updateBanditDecision store execution = store := by
  by_cases reaches : execution.reaches = true
  · have missing := strays.missing _ found
    rw [update_of_target reaches found, strays.unlearnt,
      BanditStore.updateDecisionOutcome]
    dsimp only [Decided.record, decisionRecord] at missing ⊢
    rw [missing]
    rfl
  · exact update_of_no_target (.inl (by simpa using reaches))

theorem lessons_updateDecisionOutcome
    (store : BanditStore) (username taskId decisionId : String)
    (outcome : ExecutionOutcome) (reward : ℚ) :
    (store.updateDecisionOutcome username taskId decisionId outcome
      reward).lessons = store.lessons := by
  unfold BanditStore.updateDecisionOutcome
  dsimp only
  split
  · rfl
  · rfl

section Targeted

variable {state : BanditState} {decided target : Decided}
  {execution : TaskExecution}

theorem stored?_update_own
    (untouched : Untouched state.store target)
    (owns : target.decision.Owns execution)
    (reaches : execution.reaches = true)
    (found : execution.target? state.store = some target.record) :
    target.stored? (updateBanditDecision state.store execution) =
      some (target.closedBy execution) := by
  obtain ⟨user, task, _, _⟩ := owns
  have stored := untouched.stored
  rw [Decided.stored?, Decided.key] at stored
  rw [Decided.stored?, records_update reaches found,
    BanditStore.updateDecisionOutcome, ← user, ← task]
  rw [stored]
  exact OrderedMap.get?_set_self _ _ _

theorem learnt_update
    (reaches : execution.reaches = true)
    (found : execution.target? state.store = some target.record) :
    decided.learnt (updateBanditDecision state.store execution) =
      decided.learnt state.store ++
        if execution.learns = true ∧
            target.decisionId = decided.decisionId then
          [{ modelKey :=
               banditModelKey execution.pass.finalState.username
                 target.decision.taskType
             features := target.decision.chosen.features
             reward := computeReward execution.outcome
             decisionId := target.decisionId }]
        else [] := by
  rw [update_of_target reaches found, Decided.learnt, Decided.learnt]
  cases learns : execution.learns with
  | false =>
      rw [if_neg Bool.false_ne_true, lessons_updateDecisionOutcome,
        if_neg fun both => Bool.false_ne_true both.1, List.append_nil]
  | true =>
      rw [if_pos rfl, BanditStore.recordReward,
        lessons_updateDecisionOutcome, List.filter_append]
      congr 1
      by_cases same : target.decisionId = decided.decisionId
      · rw [if_pos ⟨rfl, same⟩]
        exact List.filter_cons_of_pos (decide_eq_true same)
      · rw [if_neg fun both => same both.2]
        exact
          List.filter_cons_of_neg fun yes => same (of_decide_eq_true yes)

end Targeted

namespace Consistent

variable {uuid : UuidSource} {state : BanditState}
  {decided other : Decided} {execution : TaskExecution}

theorem eq_of_id
    (consistent : Consistent uuid state)
    (first : decided ∈ state.decisions)
    (second : other ∈ state.decisions)
    (same : decided.decisionId = other.decisionId) : decided = other :=
  List.inj_on_of_nodup_map consistent.distinct first second same

theorem eq_of_key
    (consistent : Consistent uuid state)
    (first : decided ∈ state.decisions)
    (second : other ∈ state.decisions) {username taskId : String}
    (same :
      decided.key = decisionKey username taskId other.decisionId) :
    decided = other := by
  obtain ⟨index, _, id⟩ := consistent.drawn decided first
  obtain ⟨next, _, nextId⟩ := consistent.drawn other second
  apply consistent.eq_of_id first second
  rw [Decided.key, id, nextId] at same
  rw [id, nextId, decisionKey_id uuid same]

/-- Only the record of an untouched decision is found. -/
theorem untouched_of_target
    (consistent : Consistent uuid state) {record : DecisionRecord}
    (found : execution.target? state.store = some record) :
    ∃ decided ∈ state.decisions,
      record = decided.record ∧ Untouched state.store decided := by
  have pending := List.find?_some found
  have inListing := List.mem_of_find?_eq_some found
  obtain ⟨inRows, _⟩ := List.mem_filter.mp inListing
  obtain ⟨row, isRow, rfl⟩ :=
    List.mem_map.mp ((execution.listing.perm _).mem_iff.mp inRows)
  have stored := (List.mem_filter.mp isRow).1
  obtain ⟨decided, inDecisions, atKey⟩ := consistent.rows row stored
  have isStored : decided.stored? state.store = some row.2 := by
    rw [Decided.stored?, ← atKey]
    exact OrderedMap.get?_of_mem stored
  refine ⟨decided, inDecisions, ?_⟩
  rcases consistent.standing decided inDecisions with untouched | settled
  · exact
      ⟨Option.some.inj (isStored.symm.trans untouched.stored), untouched⟩
  · obtain ⟨first, _, _, _, closed, _⟩ := settled.closed
    have isClosed := Option.some.inj (isStored.symm.trans closed)
    rw [TaskExecution.isPending, isClosed] at pending
    simp [Decided.closedBy] at pending

/-- The record of another decision stays as it is. -/
theorem stored?_update_other
    (consistent : Consistent uuid state) {target : Decided}
    (inDecisions : decided ∈ state.decisions)
    (isTarget : target ∈ state.decisions) (differs : decided ≠ target)
    (reaches : execution.reaches = true)
    (found : execution.target? state.store = some target.record) :
    decided.stored? (updateBanditDecision state.store execution) =
      decided.stored? state.store := by
  rw [Decided.stored?, Decided.stored?, records_update reaches found,
    BanditStore.updateDecisionOutcome]
  split
  · rfl
  · refine OrderedMap.get?_set_other _ _ ?_
    intro same
    exact differs (consistent.eq_of_key inDecisions isTarget same)

/-- A record that is found and stands where its outcome is written is the one
that is closed. -/
theorem stored?_update_present
    (consistent : Consistent uuid state) {target : Decided}
    (isDecision : target ∈ state.decisions)
    (untouched : Untouched state.store target)
    (reaches : execution.reaches = true)
    (found : execution.target? state.store = some target.record)
    (present : state.store.records.get?
      (decisionKey execution.pass.finalState.username
        execution.pass.finalState.taskId target.record.decisionId) ≠ none) :
    target.stored? (updateBanditDecision state.store execution) =
      some (target.closedBy execution) := by
  have present : state.store.records.get?
      (decisionKey execution.pass.finalState.username
        execution.pass.finalState.taskId target.decisionId) ≠ none := present
  obtain ⟨record, isStored⟩ := Option.ne_none_iff_exists'.mp present
  obtain ⟨other, isOther, atKey⟩ :=
    consistent.rows _ (OrderedMap.mem_of_get? isStored)
  obtain rfl : other = target :=
    consistent.eq_of_key isOther isDecision atKey.symm
  have stored := untouched.stored
  rw [Decided.stored?, ← atKey] at stored
  rw [Decided.stored?, ← atKey, records_update reaches found,
    BanditStore.updateDecisionOutcome]
  dsimp only
  rw [stored]
  exact OrderedMap.get?_set_self _ _ _

end Consistent

/-! ## When every outcome goes where it belongs -/

/-- What an execution has to find.  If a decision of its own is still as it
was recorded, the store is reached and the model learns, the service is called
like the chosen bidder, and no other open record of that bidder is listed
before; if there is none, no open record of a bidder with that name is listed,
unless it strays. -/
structure FindsOwn
    (state : BanditState) (execution : TaskExecution) : Prop where
  own :
    ∀ decided ∈ state.decisions,
      decided.stored? state.store = some decided.record →
        decided.decision.Owns execution →
          execution.reaches = true ∧ execution.learns = true ∧
            decided.decision.chosen.entry.agentId =
              execution.pass.finalState.serviceName ∧
            ∃ front back,
              execution.listed state.store =
                  front ++ decided.record :: back ∧
                ∀ record ∈ front, execution.isPending record = false
  foreign :
    (∀ decided ∈ state.decisions,
        decided.stored? state.store = some decided.record →
          ¬ decided.decision.Owns execution) →
      execution.reaches = false ∨
        (∀ record ∈ execution.listed state.store,
          execution.isPending record = false) ∨
        Strays state.store execution

def FitsBandit (state : BanditState) : BanditEvent → Prop
  | .decide _ => True
  | .execute execution => FindsOwn state execution

theorem target?_eq_record_iff
    (execution : TaskExecution) (store : BanditStore)
    (decided : Decided) :
    execution.target? store = some decided.record ↔
      decided.decision.chosen.entry.agentId =
          execution.pass.finalState.serviceName ∧
        ∃ front back,
          execution.listed store = front ++ decided.record :: back ∧
            ∀ record ∈ front, execution.isPending record = false := by
  have pending :
      execution.isPending decided.record = true ↔
        decided.decision.chosen.entry.agentId =
          execution.pass.finalState.serviceName := by
    simp [TaskExecution.isPending, Decided.record, decisionRecord]
  rw [TaskExecution.target?, List.find?_eq_some_iff_append, pending]
  simp only [Bool.not_eq_true']

theorem target?_eq_none_iff
    (execution : TaskExecution) (store : BanditStore) :
    execution.target? store = none ↔
      ∀ record ∈ execution.listed store,
        execution.isPending record = false := by
  rw [TaskExecution.target?, List.find?_eq_none]
  simp

namespace Consistent

variable {uuid : UuidSource} {state : BanditState}
  {execution : TaskExecution}

theorem attributed (consistent : Consistent uuid state) :
    Attributed state := by
  intro decided inDecisions
  rcases consistent.standing decided inDecisions with untouched | settled
  · exact untouched.attributedTo
  · exact settled.attributedTo

theorem untouched_of_stored
    (consistent : Consistent uuid state) {decided : Decided}
    (inDecisions : decided ∈ state.decisions)
    (isOpen : decided.stored? state.store = some decided.record) :
    Untouched state.store decided := by
  rcases consistent.standing decided inDecisions with untouched | settled
  · exact untouched
  · exact absurd isOpen settled.not_stored

theorem settled_of_own
    {target : Decided} (untouched : Untouched state.store target)
    (owns : target.decision.Owns execution)
    (reaches : execution.reaches = true)
    (learns : execution.learns = true)
    (found : execution.target? state.store = some target.record) :
    Settled (updateBanditDecision state.store execution)
      (target.observe state.store
        (updateBanditDecision state.store execution) execution) := by
  have stored := stored?_update_own untouched owns reaches found
  have learnt :
      target.learnt (updateBanditDecision state.store execution) =
        [target.lessonOf execution] := by
    rw [learnt_update reaches found, if_pos ⟨learns, rfl⟩,
      untouched.learnt, ← owns.1]
    rfl
  have changed :
      target.stored? state.store ≠
        target.stored? (updateBanditDecision state.store execution) := by
    rw [untouched.stored, stored]
    intro same
    exact
      target.closedBy_ne_record execution (Option.some.inj same).symm
  have taught :
      target.learnt state.store ≠
        target.learnt (updateBanditDecision state.store execution) := by
    rw [untouched.learnt, learnt]
    exact (List.cons_ne_nil _ _).symm
  refine ⟨?_, execution, owns, ?_, ?_, stored, learnt⟩
  · simp [Decided.observe, owns]
  · rw [Decided.observe, if_neg changed, untouched.outcomes]
    rfl
  · rw [Decided.observe, if_neg taught, untouched.rewards]
    rfl

theorem attributed_of_findsOwn
    (consistent : Consistent uuid state)
    (finds : FindsOwn state execution) :
    Attributed (state.step uuid (.execute execution)) := by
  intro observed inObserved
  obtain ⟨decided, inDecisions, rfl⟩ := List.mem_map.mp inObserved
  have standing := consistent.standing decided inDecisions
  by_cases someOwn :
      ∃ target ∈ state.decisions,
        target.stored? state.store = some target.record ∧
          target.decision.Owns execution
  · obtain ⟨target, isTarget, isOpen, owns⟩ := someOwn
    obtain ⟨reaches, learns, first⟩ :=
      finds.own target isTarget isOpen owns
    have found :=
      (target?_eq_record_iff execution state.store target).mpr first
    by_cases same : decided = target
    · subst same
      exact
        (settled_of_own
          (consistent.untouched_of_stored inDecisions isOpen) owns
          reaches learns found).attributedTo
    · have differs : ¬ target.decisionId = decided.decisionId :=
        fun sameId =>
          same (consistent.eq_of_id inDecisions isTarget sameId.symm)
      apply attributedTo_observe standing
      · intro alsoOwn alsoOpen
        obtain ⟨_, _, alsoFirst⟩ :=
          finds.own decided inDecisions alsoOpen alsoOwn
        have alsoFound :=
          (target?_eq_record_iff execution state.store decided).mpr
            alsoFirst
        have records := Option.some.inj (found.symm.trans alsoFound)
        exact differs (congrArg DecisionRecord.decisionId records)
      · exact
          (consistent.stored?_update_other inDecisions isTarget same
            reaches found).symm
      · have kept :
            decided.learnt (updateBanditDecision state.store execution) =
              decided.learnt state.store := by
          rw [learnt_update reaches found,
            if_neg fun both => differs both.2, List.append_nil]
        exact kept.symm
  · have noneOwn : ∀ target ∈ state.decisions,
        target.stored? state.store = some target.record →
          ¬ target.decision.Owns execution :=
      fun target isTarget isOpen owns =>
        someOwn ⟨target, isTarget, isOpen, owns⟩
    have still :
        updateBanditDecision state.store execution = state.store := by
      rcases finds.foreign noneOwn with unreached | none | strays
      · exact update_of_no_target (.inl unreached)
      · exact update_of_no_target
          (.inr ((target?_eq_none_iff execution state.store).mpr none))
      · cases isTarget : execution.target? state.store with
        | none => exact update_of_no_target (.inr isTarget)
        | some record =>
            obtain ⟨target, _, rfl, _⟩ :=
              consistent.untouched_of_target isTarget
            exact update_of_strays isTarget strays
    dsimp only [BanditState.step]
    rw [still]
    apply attributedTo_observe standing
    · intro owns isOpen
      exact someOwn ⟨decided, inDecisions, isOpen, owns⟩
    · rfl
    · rfl

/-- Only the decision that an execution finds has its document changed. -/
theorem target?_of_changed
    (consistent : Consistent uuid state) {decided : Decided}
    (inDecisions : decided ∈ state.decisions)
    (changed :
      decided.stored? (updateBanditDecision state.store execution) ≠
        decided.stored? state.store) :
    execution.reaches = true ∧
      execution.target? state.store = some decided.record := by
  have reaches : execution.reaches = true := by
    by_contra unreached
    exact changed
      (by rw [update_of_no_target (.inl (by simpa using unreached))])
  refine ⟨reaches, ?_⟩
  cases isTarget : execution.target? state.store with
  | none =>
      exact absurd (by rw [update_of_no_target (.inr isTarget)]) changed
  | some record =>
      obtain ⟨target, isDecision, rfl, _⟩ :=
        consistent.untouched_of_target isTarget
      by_cases same : decided = target
      · rw [same]
      · exact
          absurd
            (consistent.stored?_update_other inDecisions isDecision same
              reaches isTarget)
            changed

/-- An execution that is attributed to nobody else's decision neither teaches
from the record it finds nor closes it. -/
theorem strays_of_foreign
    {target : Decided} (consistent : Consistent uuid state)
    (isDecision : target ∈ state.decisions)
    (untouched : Untouched state.store target)
    (reaches : execution.reaches = true)
    (isTarget : execution.target? state.store = some target.record)
    (foreign : ¬ target.decision.Owns execution)
    (attributed :
      AttributedTo (updateBanditDecision state.store execution)
        (target.observe state.store
          (updateBanditDecision state.store execution) execution)) :
    Strays state.store execution := by
  have own := attributed.own execution
  constructor
  · rw [← Bool.not_eq_true]
    intro learns
    refine foreign (own (.inr ?_))
    have taught :
        target.learnt state.store ≠
          target.learnt (updateBanditDecision state.store execution) := by
      rw [learnt_update reaches isTarget, if_pos ⟨learns, rfl⟩,
        untouched.learnt]
      exact (List.cons_ne_nil _ _).symm
    rw [Decided.observe, if_neg taught]
    simp
  · rintro record isRecord
    obtain rfl := Option.some.inj (isTarget.symm.trans isRecord)
    by_contra present
    refine foreign (own (.inl ?_))
    have changed :
        target.stored? state.store ≠
          target.stored? (updateBanditDecision state.store execution) := by
      rw [consistent.stored?_update_present isDecision untouched reaches
        isTarget present, untouched.stored]
      intro same
      exact target.closedBy_ne_record execution
        (Option.some.inj same).symm
    rw [Decided.observe, if_neg changed]
    simp

/-- What is attributed rightly was found. -/
theorem findsOwn_of_attributed
    (consistent : Consistent uuid state)
    (attributed : Attributed (state.step uuid (.execute execution))) :
    FindsOwn state execution := by
  have observed := fun decided inDecisions =>
    attributed
      (decided.observe state.store
        (updateBanditDecision state.store execution) execution)
      (List.mem_map.mpr ⟨decided, inDecisions, rfl⟩)
  constructor
  · intro decided inDecisions isOpen owns
    have untouched :=
      consistent.untouched_of_stored inDecisions isOpen
    obtain ⟨_, _, _, stored, learnt⟩ :=
      (observed decided inDecisions).once (by
        simp [Decided.observe, owns])
    have changed :
        decided.stored? (updateBanditDecision state.store execution) ≠
          decided.stored? state.store := by
      intro same
      have after :
          decided.stored?
              (updateBanditDecision state.store execution) =
            some (decided.closedBy _) :=
        stored
      rw [same, isOpen] at after
      exact
        decided.closedBy_ne_record _ (Option.some.inj after).symm
    obtain ⟨reaches, found⟩ :=
      consistent.target?_of_changed inDecisions changed
    have learns : execution.learns = true := by
      by_contra unlearnt
      have taught :
          decided.learnt (updateBanditDecision state.store execution) =
            [decided.lessonOf _] :=
        learnt
      rw [learnt_update reaches found, if_neg fun both => unlearnt both.1,
        List.append_nil, untouched.learnt] at taught
      cases taught
    exact
      ⟨reaches, learns,
        (target?_eq_record_iff execution state.store decided).mp found⟩
  · intro noneOwn
    by_cases reaches : execution.reaches = true
    · right
      cases isTarget : execution.target? state.store with
      | none =>
          exact .inl ((target?_eq_none_iff execution state.store).mp isTarget)
      | some record =>
          obtain ⟨target, isDecision, rfl, untouched⟩ :=
            consistent.untouched_of_target isTarget
          exact .inr
            (consistent.strays_of_foreign isDecision untouched reaches
              isTarget (noneOwn target isDecision untouched.stored)
              (observed target isDecision))
    · exact .inl (by simpa using reaches)

/-! ## Runs -/

theorem start (uuid : UuidSource) : Consistent uuid {} where
  drawn := fun _ member => absurd member List.not_mem_nil
  distinct := List.nodup_nil
  rows := fun _ member => absurd member List.not_mem_nil
  taught := fun _ member => absurd member List.not_mem_nil
  standing := fun _ member => absurd member List.not_mem_nil

theorem decide
    (consistent : Consistent uuid state) (decision : Decision) :
    Consistent uuid (state.step uuid (.decide decision)) := by
  have fresh :
      ∀ decided ∈ state.decisions,
        decided.decisionId ≠ uuid.id state.drawn := by
    intro decided inDecisions same
    obtain ⟨index, below, id⟩ := consistent.drawn decided inDecisions
    exact below.ne (uuid.id_injective (id.symm.trans same))
  constructor
  · intro decided inDecisions
    rcases List.mem_append.mp inDecisions with old | new
    · obtain ⟨index, below, id⟩ := consistent.drawn decided old
      exact ⟨index, Nat.lt_succ_of_lt below, id⟩
    · rw [List.mem_singleton.mp new]
      exact ⟨state.drawn, Nat.lt_succ_self _, rfl⟩
  · dsimp only [BanditState.step]
    rw [List.map_append, List.nodup_append]
    refine ⟨consistent.distinct, by simp, ?_⟩
    intro id old _ new
    obtain ⟨decided, inDecisions, rfl⟩ := List.mem_map.mp old
    rw [List.mem_singleton.mp new]
    exact fresh decided inDecisions
  · intro row isRow
    rcases OrderedMap.mem_entries_set isRow with rfl | old
    · exact ⟨_, List.mem_append_right _ (List.mem_singleton_self _), rfl⟩
    · obtain ⟨decided, inDecisions, atKey⟩ := consistent.rows row old
      exact ⟨decided, List.mem_append_left _ inDecisions, atKey⟩
  · intro lesson isLesson
    obtain ⟨decided, inDecisions, same⟩ :=
      consistent.taught lesson isLesson
    exact ⟨decided, List.mem_append_left _ inDecisions, same⟩
  · intro decided inDecisions
    rcases List.mem_append.mp inDecisions with old | new
    · refine standing_of_same (consistent.standing decided old) ?_ rfl
      obtain ⟨index, below, id⟩ := consistent.drawn decided old
      refine (OrderedMap.get?_set_other _ _ ?_).symm
      rw [Decided.key, id]
      intro same
      exact below.ne (decisionKey_id uuid same)
    · rw [List.mem_singleton.mp new]
      refine .inl ⟨rfl, rfl, rfl, OrderedMap.get?_set_self _ _ _, ?_⟩
      refine List.filter_eq_nil_iff.mpr ?_
      intro lesson isLesson same
      obtain ⟨decided, inDecisions, ofDecided⟩ :=
        consistent.taught lesson isLesson
      exact
        fresh decided inDecisions
          (ofDecided.symm.trans (of_decide_eq_true same))

theorem execute
    (consistent : Consistent uuid state)
    (attributed : Attributed (state.step uuid (.execute execution))) :
    Consistent uuid (state.step uuid (.execute execution)) := by
  have observes : ∀ decided ∈ state.decisions,
      decided.observe state.store
          (updateBanditDecision state.store execution) execution ∈
        (state.step uuid (.execute execution)).decisions :=
    fun decided inDecisions =>
      List.mem_map.mpr ⟨decided, inDecisions, rfl⟩
  constructor
  · intro observed inObserved
    obtain ⟨decided, inDecisions, rfl⟩ := List.mem_map.mp inObserved
    exact consistent.drawn decided inDecisions
  · dsimp only [BanditState.step]
    rw [List.map_map]
    exact consistent.distinct
  · intro row isRow
    have old :
        ∃ before ∈ state.store.records.entries, row.1 = before.1 := by
      dsimp only [BanditState.step] at isRow
      rcases update_cases state.store execution with same | found
      · rw [same] at isRow
        exact ⟨row, isRow, rfl⟩
      · obtain ⟨record, reaches, isTarget⟩ := found
        obtain ⟨target, _, rfl, _⟩ :=
          consistent.untouched_of_target isTarget
        rw [records_update reaches isTarget] at isRow
        exact row_updateDecisionOutcome isRow
    obtain ⟨before, isBefore, sameKey⟩ := old
    obtain ⟨decided, inDecisions, atKey⟩ :=
      consistent.rows before isBefore
    exact ⟨_, observes decided inDecisions, sameKey.trans atKey⟩
  · intro lesson isLesson
    dsimp only [BanditState.step] at isLesson
    rcases update_cases state.store execution with same | found
    · rw [same] at isLesson
      obtain ⟨decided, inDecisions, ofDecided⟩ :=
        consistent.taught lesson isLesson
      exact ⟨_, observes decided inDecisions, ofDecided⟩
    · obtain ⟨record, reaches, isTarget⟩ := found
      obtain ⟨target, isDecision, rfl, _⟩ :=
        consistent.untouched_of_target isTarget
      have either : lesson ∈ state.store.lessons ∨
          lesson.decisionId = target.decisionId := by
        rw [update_of_target reaches isTarget] at isLesson
        split at isLesson
        · rw [BanditStore.recordReward, lessons_updateDecisionOutcome]
            at isLesson
          refine (List.mem_append.mp isLesson).imp_right ?_
          intro new
          rw [List.mem_singleton.mp new]
          rfl
        · rw [lessons_updateDecisionOutcome] at isLesson
          exact .inl isLesson
      rcases either with old | new
      · obtain ⟨decided, inDecisions, ofDecided⟩ :=
          consistent.taught lesson old
        exact ⟨_, observes decided inDecisions, ofDecided⟩
      · exact ⟨_, observes target isDecision, new⟩
  · intro observed inObserved
    obtain ⟨decided, inDecisions, rfl⟩ := List.mem_map.mp inObserved
    exact
      standing_of_attributedTo (consistent.standing decided inDecisions)
        (attributed _ (observes decided inDecisions))

end Consistent

/-- For every sequence of recorded decisions and executions: throughout it, a
decision is touched by its own executions only and, once one came, has the
outcome and reward of exactly one of them, exactly when each execution finds
what it has to. -/
theorem attributed_iff (uuid : UuidSource) (events : List BanditEvent) :
    EveryState (BanditState.step uuid) Attributed {} events ↔
      EveryStep (BanditState.step uuid) FitsBandit {} events := by
  apply
    everyState_iff_everyStep (Consistent uuid)
      (fun _ consistent => consistent.attributed) _ _ events
      (Consistent.start uuid)
  · intro state event consistent
    cases event with
    | decide decision =>
        exact iff_of_true (consistent.decide decision).attributed trivial
    | execute execution =>
        exact
          ⟨consistent.findsOwn_of_attributed,
            consistent.attributed_of_findsOwn⟩
  · intro state event consistent attributed
    cases event with
    | decide decision => exact consistent.decide decision
    | execute execution => exact consistent.execute attributed

def newestFirst : QueryOrder DecisionRecord :=
  ⟨List.reverse, List.reverse_perm⟩

def reviewDecision (runId : String) : Decision where
  username := "alice"
  runId := runId
  spec := { taskId := "review" }
  chosen := { entry := { agentId := "reviewer" }, bidScore := 9 / 10 }

/-- The chosen bidder, whose service has its name, executes the task in the
first run. -/
def firstReview : TaskExecution where
  pass :=
    { agentId := "reviewer"
      logic := .configured
      finalState :=
        { status := .completed
          pipelineRunId := "run-1"
          taskId := "review"
          username := "alice"
          serviceName := "reviewer" }
      credited := none }
  listing := newestFirst

def twoReviews : List BanditEvent :=
  [.decide (reviewDecision "run-1"), .decide (reviewDecision "run-2"),
    .execute firstReview]

/-- The outcome of the first run becomes that of the decision for the second
one. -/
theorem outcome_goes_to_other_run :
    ¬ EveryState (BanditState.step Cnp.countedIds) Attributed {}
        twoReviews := by
  intro every
  have noted :
      ((run (BanditState.step Cnp.countedIds) {}
          twoReviews).decisions[1]?).map
          (fun decided =>
            (decided.decision.runId,
              decided.outcomes.map fun execution =>
                execution.pass.finalState.pipelineRunId)) =
        some ("run-2", ["run-1"]) := by
    decide +kernel
  obtain ⟨decided, atOne, shape⟩ := Option.map_eq_some_iff.mp noted
  rw [Prod.mk.injEq] at shape
  obtain ⟨ofSecond, outcomes⟩ := shape
  obtain ⟨execution, rest, isFirst, ofFirst, _⟩ :=
    List.map_eq_cons_iff.mp outcomes
  have attributed : Attributed _ := every.2.2.2
  have owns :=
    (attributed decided (List.mem_of_getElem? atOne)).own execution
      (.inl (by rw [isFirst]; exact List.mem_cons_self))
  have sameRun := owns.2.2.1
  rw [ofSecond, ofFirst] at sameRun
  revert sameRun
  decide

end Agentcy.Forwarder
