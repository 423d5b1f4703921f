import Agentcy.Cnp.CnpUtils
import Agentcy.Library.Run
import Mathlib.Tactic.GCongr
import Mathlib.Tactic.Linarith
import Mathlib.Tactic.NormNum
import Mathlib.Tactic.Positivity
import Mathlib.Tactic.Ring

/-!
# Trust and outcomes

Trust mixes the share of the received tasks that were acquired with the share
of the acquired tasks that were completed.  A reported outcome raises the
number of acquired tasks, whether it is a success or not; this lifts the first
share, and a failure lowers only the second.
-/

namespace Agentcy.Cnp

open Agentcy.Library

/-- An award of a task to the agent, or the outcome of one. -/
inductive CounterEvent where
  | award
  | feedback (success : Bool)
  deriving DecidableEq

def countStep (lmaxDefault : Int) (doc : AgentDoc) :
    CounterEvent → AgentDoc
  | .award => receivedTask lmaxDefault doc
  | .feedback success => updateCnpMetadata lmaxDefault doc success

def CounterEvent.IsFeedback (event : CounterEvent) : Prop :=
  event ≠ .award

instance (event : CounterEvent) : Decidable event.IsFeedback :=
  inferInstanceAs (Decidable (event ≠ .award))

/-- Each feedback answers an earlier award. -/
def EachAnswersAward (history : List CounterEvent) : Prop :=
  ∀ before after, history = before ++ after →
    before.countP (fun event => decide event.IsFeedback) ≤
      before.count .award

section Counters

variable (lmaxDefault : Int)

/-- No task was received yet. -/
structure Fresh (doc : AgentDoc) : Prop where
  received : (agentCnpState lmaxDefault doc).tasksReceived = 0
  acquired : (agentCnpState lmaxDefault doc).tasksAcquired = 0
  completed : (agentCnpState lmaxDefault doc).tasksCompleted = 0

variable (start : AgentDoc) (history : List CounterEvent)

theorem tasksReceived_run :
    (agentCnpState lmaxDefault
        (run (countStep lmaxDefault) start history)).tasksReceived =
      (agentCnpState lmaxDefault start).tasksReceived +
        history.count .award := by
  induction history generalizing start with
  | nil => simp
  | cons event rest inductionHypothesis =>
      rw [run_cons, inductionHypothesis]
      cases event with
      | award => simp [countStep, receivedTask, agentCnpState]; omega
      | feedback success =>
          simp [countStep, updateCnpMetadata, agentCnpState]

theorem tasksAcquired_run :
    (agentCnpState lmaxDefault
        (run (countStep lmaxDefault) start history)).tasksAcquired =
      (agentCnpState lmaxDefault start).tasksAcquired +
        history.countP (fun event => decide event.IsFeedback) := by
  induction history generalizing start with
  | nil => simp
  | cons event rest inductionHypothesis =>
      rw [run_cons, inductionHypothesis]
      cases event with
      | award =>
          simp [countStep, receivedTask, agentCnpState,
            CounterEvent.IsFeedback]
      | feedback success =>
          simp [countStep, updateCnpMetadata, agentCnpState,
            CounterEvent.IsFeedback]
          omega

theorem tasksCompleted_run :
    (agentCnpState lmaxDefault
        (run (countStep lmaxDefault) start history)).tasksCompleted =
      (agentCnpState lmaxDefault start).tasksCompleted +
        history.count (.feedback true) := by
  induction history generalizing start with
  | nil => simp
  | cons event rest inductionHypothesis =>
      rw [run_cons, inductionHypothesis]
      cases event with
      | award => simp [countStep, receivedTask, agentCnpState]
      | feedback success =>
          cases success with
          | true =>
              simp [countStep, updateCnpMetadata, agentCnpState]
              omega
          | false => simp [countStep, updateCnpMetadata, agentCnpState]

/-- The order of the counters of an agent that started fresh. -/
structure CountersOrdered (state : CnpState) : Prop where
  nonneg : 0 ≤ state.tasksCompleted
  completed : state.tasksCompleted ≤ state.tasksAcquired

variable {lmaxDefault start}

theorem countersOrdered_run (fresh : Fresh lmaxDefault start) :
    CountersOrdered
      (agentCnpState lmaxDefault
        (run (countStep lmaxDefault) start history)) := by
  have acquired := tasksAcquired_run lmaxDefault start history
  have completed := tasksCompleted_run lmaxDefault start history
  rw [fresh.acquired, zero_add] at acquired
  rw [fresh.completed, zero_add] at completed
  have fewer :
      history.count (.feedback true) ≤
        history.countP (fun event => decide event.IsFeedback) := by
    apply List.countP_mono_left
    intro event _ success
    rw [beq_iff_eq.mp success]
    rfl
  constructor
  · omega
  · omega

theorem acquired_le_received
    (fresh : Fresh lmaxDefault start)
    (answers : EachAnswersAward history) :
    (agentCnpState lmaxDefault
        (run (countStep lmaxDefault) start history)).tasksAcquired ≤
      (agentCnpState lmaxDefault
        (run (countStep lmaxDefault) start history)).tasksReceived := by
  rw [tasksAcquired_run, tasksReceived_run, fresh.acquired,
    fresh.received]
  have all := answers history [] (List.append_nil history).symm
  omega

end Counters

section Trust

variable (weights : TrustWeights) (state : CnpState)

/-- The weighted sum of the two shares, before it is divided by the sum of the
weights. -/
def sharesMix : ℚ :=
  weights.lambda1 * (state.tasksAcquired / state.tasksReceived) +
    weights.lambda2 * (state.tasksCompleted / state.tasksAcquired)

def totalWeight : ℚ :=
  max (weights.lambda1 + weights.lambda2) (1 / 1000000)

theorem totalWeight_pos : 0 < totalWeight weights :=
  lt_max_of_lt_right (by norm_num)

theorem trustScore_of_received (received : 0 < state.tasksReceived) :
    trustScore weights state =
      clamp (sharesMix weights state / totalWeight weights) 0 1 := by
  rw [trustScore, if_neg (not_le.mpr received)]
  refine congrArg (fun value => clamp value 0 1) ?_
  by_cases none : state.tasksAcquired = 0
  · rw [if_pos none, sharesMix, totalWeight, none, Int.cast_zero]
    ring
  · rw [if_neg none, sharesMix, totalWeight]
    ring

/-- What a failure would take from the second share is worth the part of the
first that it adds, or the trust is full. -/
def FailureLowers : Prop :=
  1 ≤ trustScore weights state ∨
    weights.lambda1 / state.tasksReceived ≤
      weights.lambda2 *
        (state.tasksCompleted / state.tasksAcquired -
          state.tasksCompleted / (state.tasksAcquired + 1))

variable {weights state}

/-- A share grows when one is added above and below. -/
theorem share_le_share_succ
    {part whole : Int} (nonneg : 0 ≤ part) (le : part ≤ whole) :
    (part / whole : ℚ) ≤ (part + 1) / (whole + 1) := by
  have partNonneg : (0 : ℚ) ≤ part := by exact_mod_cast nonneg
  have partLe : (part : ℚ) ≤ whole := by exact_mod_cast le
  rcases eq_or_lt_of_le (nonneg.trans le) with empty | some
  · rw [← empty, Int.cast_zero, div_zero]
    positivity
  · have wholePos : (0 : ℚ) < whole := by exact_mod_cast some
    rw [div_le_div_iff₀ wholePos (by linarith)]
    linarith

/-- A share shrinks when the whole grows. -/
theorem share_succ_whole_le
    {part whole : Int} (nonneg : 0 ≤ part) (le : part ≤ whole) :
    (part / (whole + 1) : ℚ) ≤ part / whole := by
  have partNonneg : (0 : ℚ) ≤ part := by exact_mod_cast nonneg
  rcases eq_or_lt_of_le (nonneg.trans le) with empty | some
  · have none : part = 0 := le_antisymm (le.trans empty.ge) nonneg
    simp [none]
  · have wholePos : (0 : ℚ) < whole := by exact_mod_cast some
    gcongr
    linarith

/-- A failure moves the mix by the two changes of the shares. -/
theorem mix_le_mix_iff
    {lambda1 lambda2 acquired received completed total : ℚ}
    (positive : 0 < total) :
    (lambda1 * ((acquired + 1) / received) +
          lambda2 * (completed / (acquired + 1))) / total ≤
        (lambda1 * (acquired / received) +
          lambda2 * (completed / acquired)) / total ↔
      lambda1 / received ≤
        lambda2 * (completed / acquired - completed / (acquired + 1)) := by
  have gained : lambda1 * ((acquired + 1) / received) =
      lambda1 * (acquired / received) + lambda1 / received := by
    ring
  rw [div_le_div_iff_of_pos_right positive, gained, mul_sub]
  constructor
  · intro le
    linarith
  · intro le
    linarith

theorem sharesMix_nonneg
    (first : 0 ≤ weights.lambda1) (second : 0 ≤ weights.lambda2)
    (ordered : CountersOrdered state) (received : 0 < state.tasksReceived) :
    0 ≤ sharesMix weights state := by
  have receivedPos : (0 : ℚ) < state.tasksReceived := by
    exact_mod_cast received
  have completed : (0 : ℚ) ≤ state.tasksCompleted := by
    exact_mod_cast ordered.nonneg
  have acquired : (0 : ℚ) ≤ state.tasksAcquired := by
    exact_mod_cast ordered.nonneg.trans ordered.completed
  unfold sharesMix
  positivity

theorem trustScore_of_none (none : state.tasksReceived ≤ 0) :
    trustScore weights state = 0 := by
  rw [trustScore, if_pos none]

section Outcomes

variable (lmaxDefault : Int) (doc : AgentDoc)

theorem trustScore_update_of_none
    (none : (agentCnpState lmaxDefault doc).tasksReceived ≤ 0)
    (success : Bool) :
    trustScore weights
        (agentCnpState lmaxDefault
          (updateCnpMetadata lmaxDefault doc success)) =
      0 :=
  trustScore_of_none none

/-- The trust after an outcome of the agent. -/
theorem trustScore_update_of_received
    (received : 0 < (agentCnpState lmaxDefault doc).tasksReceived)
    (success : Bool) :
    trustScore weights
        (agentCnpState lmaxDefault
          (updateCnpMetadata lmaxDefault doc success)) =
      let state := agentCnpState lmaxDefault doc
      clamp
        ((weights.lambda1 *
            ((state.tasksAcquired + 1) / state.tasksReceived) +
          weights.lambda2 *
            ((state.tasksCompleted + if success then 1 else 0) /
              (state.tasksAcquired + 1))) / totalWeight weights)
        0 1 := by
  refine
    (trustScore_of_received weights
      (agentCnpState lmaxDefault
        (updateCnpMetadata lmaxDefault doc success)) received).trans ?_
  cases success with
  | true => simp [sharesMix, updateCnpMetadata, agentCnpState]
  | false => simp [sharesMix, updateCnpMetadata, agentCnpState]

/-- A success lowers neither share. -/
theorem trustScore_le_success
    (first : 0 ≤ weights.lambda1) (second : 0 ≤ weights.lambda2)
    (ordered : CountersOrdered (agentCnpState lmaxDefault doc)) :
    trustScore weights (agentCnpState lmaxDefault doc) ≤
      trustScore weights
        (agentCnpState lmaxDefault
          (updateCnpMetadata lmaxDefault doc true)) := by
  rcases le_or_gt (agentCnpState lmaxDefault doc).tasksReceived 0 with
    none | received
  · rw [trustScore_of_none none,
      trustScore_update_of_none lmaxDefault doc none]
  · rw [trustScore_of_received weights _ received,
      trustScore_update_of_received lmaxDefault doc received, sharesMix]
    apply clamp_mono
    have total := totalWeight_pos weights
    have completed := share_le_share_succ ordered.nonneg ordered.completed
    have receivedPos :
        (0 : ℚ) < (agentCnpState lmaxDefault doc).tasksReceived := by
      exact_mod_cast received
    simp only [if_true]
    gcongr
    linarith

/-- When a failure does not raise the trust. -/
theorem failure_le_trustScore_iff
    (first : 0 ≤ weights.lambda1) (second : 0 ≤ weights.lambda2)
    (ordered : CountersOrdered (agentCnpState lmaxDefault doc))
    (sometimes : 0 ≤ (agentCnpState lmaxDefault doc).tasksReceived) :
    trustScore weights
          (agentCnpState lmaxDefault
            (updateCnpMetadata lmaxDefault doc false)) ≤
        trustScore weights (agentCnpState lmaxDefault doc) ↔
      FailureLowers weights (agentCnpState lmaxDefault doc) := by
  have lower := share_succ_whole_le ordered.nonneg ordered.completed
  rcases eq_or_lt_of_le sometimes with none | received
  · rw [trustScore_of_none none.ge,
      trustScore_update_of_none lmaxDefault doc none.ge]
    refine iff_of_true le_rfl (Or.inr ?_)
    rw [← none, Int.cast_zero, div_zero]
    exact mul_nonneg second (by linarith)
  · have total := totalWeight_pos weights
    have full (mix : ℚ) : 1 ≤ clamp mix 0 1 ↔ 1 ≤ mix := by
      simp [clamp]
    have mixNonneg := sharesMix_nonneg first second ordered received
    rw [FailureLowers, trustScore_of_received weights _ received,
      trustScore_update_of_received lmaxDefault doc received,
      clamp_le_clamp_iff zero_lt_one, full]
    simp only [Bool.false_eq_true, if_false, add_zero]
    rw [← mix_le_mix_iff total]
    constructor
    · intro reason
      rcases reason with within | small | large
      · exact Or.inr within
      · exact Or.inr (small.trans (div_nonneg mixNonneg total.le))
      · exact Or.inl large
    · intro reason
      rcases reason with large | within
      · exact Or.inr (Or.inr large)
      · exact Or.inl within

end Outcomes

end Trust

/-! ## Every history -/

/-- For non-negative weights and every history of a fresh agent: a success
does not lower its trust, a failure does not raise it exactly when it lowers
the mix of the shares or the trust is full, and the counters are ordered if
each feedback answers an earlier award. -/
theorem trust_follows_outcomes
    (weights : TrustWeights)
    (first : 0 ≤ weights.lambda1) (second : 0 ≤ weights.lambda2)
    (lmaxDefault : Int) (start : AgentDoc)
    (fresh : Fresh lmaxDefault start) (history : List CounterEvent) :
    let doc := run (countStep lmaxDefault) start history
    let state := agentCnpState lmaxDefault doc
    let trustAfter (success : Bool) :=
      trustScore weights
        (agentCnpState lmaxDefault
          (updateCnpMetadata lmaxDefault doc success))
    trustScore weights state ≤ trustAfter true ∧
      (trustAfter false ≤ trustScore weights state ↔
        FailureLowers weights state) ∧
      (EachAnswersAward history →
        state.tasksCompleted ≤ state.tasksAcquired ∧
          state.tasksAcquired ≤ state.tasksReceived) := by
  intro doc state trustAfter
  have ordered : CountersOrdered state :=
    countersOrdered_run history fresh
  have received : 0 ≤ state.tasksReceived := by
    have count := tasksReceived_run lmaxDefault start history
    rw [fresh.received, zero_add] at count
    exact count ▸ Int.natCast_nonneg _
  refine ⟨?_, ?_, ?_⟩
  · exact trustScore_le_success lmaxDefault doc first second ordered
  · exact
      failure_le_trustScore_iff lmaxDefault doc first second ordered received
  · intro answers
    exact ⟨ordered.completed, acquired_le_received history fresh answers⟩

/-- With the default weights, an award and a failure give more trust than the
award alone. -/
theorem failure_raises_trust :
    let doc := run (countStep 3) {} [.award]
    (agentCnpState 3 doc).tasksReceived = 1 ∧
      trustScore {} (agentCnpState 3 doc) = 0 ∧
      trustScore {} (agentCnpState 3 (updateCnpMetadata 3 doc false)) =
        1 / 2 := by
  refine ⟨rfl, ?_, ?_⟩
  · decide +kernel
  · decide +kernel

/-- One task completed, one failed, and one that is still open. -/
def mixedHistory : List CounterEvent :=
  [.award, .feedback true, .award, .award, .feedback false]

theorem mixedHistory_answers : EachAnswersAward mixedHistory := by
  have prefixes : ∀ before ∈ mixedHistory.inits,
      before.countP (fun event => decide event.IsFeedback) ≤
        before.count .award := by
    decide
  intro before after split
  exact prefixes before ((List.mem_inits _ _).mpr ⟨after, split.symm⟩)

theorem success_after_mixed_history :
    let state := agentCnpState 3 (run (countStep 3) {} mixedHistory)
    let trustAfter (success : Bool) :=
      trustScore {}
        (agentCnpState 3
          (updateCnpMetadata 3 (run (countStep 3) {} mixedHistory) success))
    trustScore {} state ≤ trustAfter true ∧
      (trustAfter false ≤ trustScore {} state ↔ FailureLowers {} state) ∧
      state.tasksCompleted ≤ state.tasksAcquired ∧
        state.tasksAcquired ≤ state.tasksReceived := by
  intro state trustAfter
  obtain ⟨success, failure, counters⟩ :=
    trust_follows_outcomes {} (by norm_num) (by norm_num) 3 {}
      ⟨rfl, rfl, rfl⟩ mixedHistory
  exact ⟨success, failure, counters mixedHistory_answers⟩

end Agentcy.Cnp
