import Agentcy.Topology.RuntimePolicy

/-!
# How restrictive the runtime policy is

The rules overwrite what earlier rules decided.  The coalition mode and the
verification mode are brought to a closed form, from which the policies of two
signal values can be compared.
-/

namespace Agentcy.Topology

section Modes

variable (thresholds : PolicyThresholds)
variable (signals : HealthSignals) (state : PolicyState)

/-- The rules that leave the coalition mode as it is. -/
def rulesBesidesCoalitions :
    List (HealthSignals → PolicyState → PolicyState) :=
  [ruleTimeoutSpike thresholds, rulePolicyIncidentSpike thresholds,
    ruleCostBurnHigh thresholds, ruleHumanBacklog thresholds,
    ruleRetryRateHigh thresholds]

/-- The rules that leave the verification mode as it is. -/
def rulesBesidesVerification :
    List (HealthSignals → PolicyState → PolicyState) :=
  [ruleQueueLagDiscouragesCoalitions thresholds,
    ruleVerifierSaturation thresholds, ruleTimeoutSpike thresholds,
    ruleHandoffFrictionSpike thresholds, ruleHumanBacklog thresholds,
    ruleAgentPoolPressure thresholds, ruleRetryRateHigh thresholds]

theorem coalitionMode_of_other_rule
    {rule : HealthSignals → PolicyState → PolicyState}
    (other : rule ∈ rulesBesidesCoalitions thresholds) :
    (rule signals state).coalitionMode = state.coalitionMode := by
  simp only [rulesBesidesCoalitions, List.mem_cons, List.not_mem_nil,
    or_false] at other
  rcases other with rfl | rfl | rfl | rfl | rfl
  · unfold ruleTimeoutSpike
    split <;> rfl
  · unfold rulePolicyIncidentSpike
    split <;> rfl
  · unfold ruleCostBurnHigh
    split <;> rfl
  · unfold ruleHumanBacklog
    split <;> rfl
  · unfold ruleRetryRateHigh
    split <;> rfl

theorem verificationMode_of_other_rule
    {rule : HealthSignals → PolicyState → PolicyState}
    (other : rule ∈ rulesBesidesVerification thresholds) :
    (rule signals state).verificationMode = state.verificationMode := by
  simp only [rulesBesidesVerification, List.mem_cons, List.not_mem_nil,
    or_false] at other
  rcases other with rfl | rfl | rfl | rfl | rfl | rfl | rfl
  · unfold ruleQueueLagDiscouragesCoalitions
    split
    · rfl
    · split <;> rfl
  · unfold ruleVerifierSaturation
    split <;> rfl
  · unfold ruleTimeoutSpike
    split <;> rfl
  · unfold ruleHandoffFrictionSpike
    split <;> rfl
  · unfold ruleHumanBacklog
    split <;> rfl
  · unfold ruleAgentPoolPressure
    split <;> rfl
  · unfold ruleRetryRateHigh
    split <;> rfl

/-- The agent pool decides last, and before it the handoff failures. -/
theorem coalitionMode_evaluate :
    (evaluate true thresholds signals).coalitionMode =
      if thresholds.agentSatHigh ≤ signals.agentPoolSaturation then
        .disabled
      else if thresholds.handoffFailHigh ≤
          signals.recentCoalitionHandoffFailureRate then .discouraged
      else if thresholds.queueLagCritical ≤ signals.queueLagMs then
        .disabled
      else if thresholds.queueLagHigh ≤ signals.queueLagMs ∨
          thresholds.verifierSatHigh ≤ signals.verifierPoolSaturation then
        .discouraged
      else .enabled := by
  have keeps := fun rule member state =>
    @coalitionMode_of_other_rule thresholds signals state rule member
  unfold evaluate
  rw [if_pos rfl]
  simp only [policyRules, rulesBeforeHumanBacklog, rulesAfterHumanBacklog,
    List.cons_append, List.nil_append, List.foldl_cons, List.foldl_nil]
  rw [keeps (ruleRetryRateHigh thresholds)
    (by simp [rulesBesidesCoalitions])]
  unfold ruleAgentPoolPressure
  split
  · rfl
  rw [keeps (ruleHumanBacklog thresholds)
      (by simp [rulesBesidesCoalitions]),
    keeps (ruleCostBurnHigh thresholds)
      (by simp [rulesBesidesCoalitions])]
  unfold ruleHandoffFrictionSpike
  split
  · rfl
  rw [keeps (rulePolicyIncidentSpike thresholds)
      (by simp [rulesBesidesCoalitions]),
    keeps (ruleTimeoutSpike thresholds)
      (by simp [rulesBesidesCoalitions])]
  unfold ruleVerifierSaturation ruleQueueLagDiscouragesCoalitions
  by_cases critical : thresholds.queueLagCritical ≤ signals.queueLagMs
  · rw [if_pos critical, if_pos critical]
    split <;> rfl
  · rw [if_neg critical, if_neg critical]
    by_cases high : thresholds.queueLagHigh ≤ signals.queueLagMs
    · rw [if_pos high, if_pos (Or.inl high)]
      split <;> rfl
    · rw [if_neg high]
      simp only [high, false_or]
      split <;> rfl

theorem verificationMode_evaluate :
    (evaluate true thresholds signals).verificationMode =
      if thresholds.costBurnHigh ≤ signals.costBurnRatePerMin then
        .minimal
      else if thresholds.policyIncidentHigh ≤
          signals.recentPolicyIncidentRate then .stricter
      else .normal := by
  have keeps := fun rule member state =>
    @verificationMode_of_other_rule thresholds signals state rule member
  unfold evaluate
  rw [if_pos rfl]
  simp only [policyRules, rulesBeforeHumanBacklog, rulesAfterHumanBacklog,
    List.cons_append, List.nil_append, List.foldl_cons, List.foldl_nil]
  rw [keeps (ruleRetryRateHigh thresholds)
      (by simp [rulesBesidesVerification]),
    keeps (ruleAgentPoolPressure thresholds)
      (by simp [rulesBesidesVerification]),
    keeps (ruleHumanBacklog thresholds)
      (by simp [rulesBesidesVerification])]
  unfold ruleCostBurnHigh
  split
  · rfl
  rw [keeps (ruleHandoffFrictionSpike thresholds)
    (by simp [rulesBesidesVerification])]
  unfold rulePolicyIncidentSpike
  split
  · rfl
  rw [keeps (ruleTimeoutSpike thresholds)
      (by simp [rulesBesidesVerification]),
    keeps (ruleVerifierSaturation thresholds)
      (by simp [rulesBesidesVerification]),
    keeps (ruleQueueLagDiscouragesCoalitions thresholds)
      (by simp [rulesBesidesVerification])]

end Modes

def CoalitionPolicyMode.restriction : CoalitionPolicyMode → Nat
  | .enabled => 0
  | .discouraged => 1
  | .disabled => 2

def VerificationPolicyMode.restriction : VerificationPolicyMode → Nat
  | .minimal => 0
  | .normal => 1
  | .stricter => 2

/-- The second signals are at least as bad, each of them. -/
structure AtLeastAsBad (first second : HealthSignals) : Prop where
  queueLagMs : first.queueLagMs ≤ second.queueLagMs
  agentPoolSaturation :
    first.agentPoolSaturation ≤ second.agentPoolSaturation
  verifierPoolSaturation :
    first.verifierPoolSaturation ≤ second.verifierPoolSaturation
  costBurnRatePerMin :
    first.costBurnRatePerMin ≤ second.costBurnRatePerMin
  recentTimeoutRate : first.recentTimeoutRate ≤ second.recentTimeoutRate
  recentPolicyIncidentRate :
    first.recentPolicyIncidentRate ≤ second.recentPolicyIncidentRate
  recentCoalitionHandoffFailureRate :
    first.recentCoalitionHandoffFailureRate ≤
      second.recentCoalitionHandoffFailureRate
  recentRetryRate : first.recentRetryRate ≤ second.recentRetryRate
  humanApprovalBacklog :
    first.humanApprovalBacklog ≤ second.humanApprovalBacklog

section Comparison

variable (thresholds : PolicyThresholds) {first second : HealthSignals}

/-- Where the lag alone disables coalitions for the first signals, the
handoff failures of the second ones do not decide for them. -/
def LagStays (first second : HealthSignals) : Prop :=
  thresholds.queueLagCritical ≤ first.queueLagMs →
    first.recentCoalitionHandoffFailureRate < thresholds.handoffFailHigh →
    thresholds.handoffFailHigh ≤
      second.recentCoalitionHandoffFailureRate →
    thresholds.agentSatHigh ≤ second.agentPoolSaturation

theorem coalition_restriction_le
    (worse : AtLeastAsBad first second)
    (lagStays : LagStays thresholds first second) :
    (evaluate true thresholds first).coalitionMode.restriction ≤
      (evaluate true thresholds second).coalitionMode.restriction := by
  rw [coalitionMode_evaluate, coalitionMode_evaluate]
  have atMostTwo (mode : CoalitionPolicyMode) : mode.restriction ≤ 2 := by
    cases mode <;> decide
  by_cases saturated :
      thresholds.agentSatHigh ≤ second.agentPoolSaturation
  · rw [if_pos saturated]
    exact atMostTwo _
  rw [if_neg saturated, if_neg fun firstSaturated =>
    saturated (firstSaturated.trans worse.agentPoolSaturation)]
  by_cases frictionBefore : thresholds.handoffFailHigh ≤
      first.recentCoalitionHandoffFailureRate
  · rw [if_pos frictionBefore, if_pos
      (frictionBefore.trans worse.recentCoalitionHandoffFailureRate)]
  rw [if_neg frictionBefore]
  by_cases friction : thresholds.handoffFailHigh ≤
      second.recentCoalitionHandoffFailureRate
  · -- What the first signals lead to is not the critical lag.
    have notCritical :
        ¬ thresholds.queueLagCritical ≤ first.queueLagMs := by
      intro critical
      exact saturated
        (lagStays critical (lt_of_not_ge frictionBefore) friction)
    rw [if_pos friction, if_neg notCritical]
    split <;> decide
  rw [if_neg friction]
  by_cases critical : thresholds.queueLagCritical ≤ second.queueLagMs
  · rw [if_pos critical]
    exact atMostTwo _
  rw [if_neg critical, if_neg fun criticalBefore =>
    critical (criticalBefore.trans worse.queueLagMs)]
  by_cases pressed : thresholds.queueLagHigh ≤ first.queueLagMs ∨
      thresholds.verifierSatHigh ≤ first.verifierPoolSaturation
  · have pressedAfter : thresholds.queueLagHigh ≤ second.queueLagMs ∨
        thresholds.verifierSatHigh ≤ second.verifierPoolSaturation :=
      pressed.imp (fun high => high.trans worse.queueLagMs)
        (fun high => high.trans worse.verifierPoolSaturation)
    rw [if_pos pressed, if_pos pressedAfter]
  · rw [if_neg pressed]
    exact Nat.zero_le _

theorem verification_restriction_le_iff
    (worse : AtLeastAsBad first second) :
    (evaluate true thresholds first).verificationMode.restriction ≤
        (evaluate true thresholds second).verificationMode.restriction ↔
      (thresholds.costBurnHigh ≤ second.costBurnRatePerMin →
        thresholds.costBurnHigh ≤ first.costBurnRatePerMin) := by
  rw [verificationMode_evaluate, verificationMode_evaluate]
  by_cases burnsBefore :
      thresholds.costBurnHigh ≤ first.costBurnRatePerMin
  · rw [if_pos burnsBefore]
    exact ⟨fun _ _ => burnsBefore, fun _ => Nat.zero_le _⟩
  rw [if_neg burnsBefore]
  by_cases burns : thresholds.costBurnHigh ≤ second.costBurnRatePerMin
  · rw [if_pos burns]
    have someMode : ¬ VerificationPolicyMode.restriction
        (if thresholds.policyIncidentHigh ≤
          first.recentPolicyIncidentRate then .stricter
        else .normal) ≤ VerificationPolicyMode.minimal.restriction := by
      split <;> decide
    exact ⟨fun le => absurd le someMode,
      fun still => absurd (still burns) burnsBefore⟩
  rw [if_neg burns]
  refine ⟨fun _ isBurning => absurd isBurning burns, fun _ => ?_⟩
  by_cases incidents : thresholds.policyIncidentHigh ≤
      first.recentPolicyIncidentRate
  · rw [if_pos incidents,
      if_pos (incidents.trans worse.recentPolicyIncidentRate)]
  · rw [if_neg incidents]
    split <;> decide

/-- Worse signals do not relax the coalition mode unless their handoff
failures take over from a critical lag, and relax the verification mode exactly
when their cost burn has become high. -/
theorem worse_signals_restrict
    (enabled : Bool) (worse : AtLeastAsBad first second) :
    ((enabled = true → LagStays thresholds first second) →
      (evaluate enabled thresholds first).coalitionMode.restriction ≤
        (evaluate enabled thresholds second).coalitionMode.restriction) ∧
    ((evaluate enabled thresholds first).verificationMode.restriction ≤
        (evaluate enabled thresholds second).verificationMode.restriction ↔
      (enabled = true →
        thresholds.costBurnHigh ≤ second.costBurnRatePerMin →
        thresholds.costBurnHigh ≤ first.costBurnRatePerMin)) := by
  cases enabled with
  | false =>
      refine ⟨fun _ => le_refl _, fun _ isEnabled => ?_,
        fun _ => le_refl _⟩
      cases isEnabled
  | true =>
      refine ⟨fun lagStays => ?_, ?_⟩
      · exact coalition_restriction_le thresholds worse (lagStays rfl)
      · rw [verification_restriction_le_iff thresholds worse,
          forall_prop_of_true rfl]

end Comparison

/-! ## Signals that get worse -/

def laggingSignals : HealthSignals where
  queueLagMs := 2000
  recentPolicyIncidentRate := 5 / 100

/-- The lag with an empty verifier pool. -/
def saturatedSignals : HealthSignals :=
  { laggingSignals with verifierPoolSaturation := 1 }

/-- The lag with failing handoffs and a high cost burn. -/
def burningSignals : HealthSignals :=
  { laggingSignals with
    recentCoalitionHandoffFailureRate := 20 / 100
    costBurnRatePerMin := 5 }

theorem saturated_signals_restrict :
    (evaluate true {} laggingSignals).coalitionMode.restriction ≤
        (evaluate true {} saturatedSignals).coalitionMode.restriction ∧
      (evaluate true {} laggingSignals).verificationMode.restriction ≤
        (evaluate true {} saturatedSignals).verificationMode.restriction :=
    by
  have worse : AtLeastAsBad laggingSignals saturatedSignals := by
    constructor <;> decide +kernel
  have restricts := worse_signals_restrict {} true worse
  refine ⟨restricts.1 fun _ _ _ friction => ?_,
    restricts.2.mpr fun _ burns => burns⟩
  have calm : ¬ ((20 / 100 : Rat) ≤ 0) := by decide +kernel
  exact absurd friction calm

/-- Coalitions come back from disabled to discouraged, and verification from
stricter to minimal. -/
theorem burning_signals_relax :
    AtLeastAsBad laggingSignals burningSignals ∧
      (evaluate true {} laggingSignals).coalitionMode = .disabled ∧
      (evaluate true {} burningSignals).coalitionMode = .discouraged ∧
      (evaluate true {} laggingSignals).verificationMode = .stricter ∧
      (evaluate true {} burningSignals).verificationMode = .minimal := by
  refine ⟨?_, ?_, ?_, ?_, ?_⟩
  · constructor <;> decide +kernel
  all_goals decide +kernel

end Agentcy.Topology
