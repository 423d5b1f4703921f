import Mathlib.Algebra.Order.Ring.Rat

/-!
# The runtime policy

`RuntimePolicyEngine.evaluate` runs a fixed list of rules over a neutral
policy.  Each rule compares one health signal with a threshold.
-/

namespace Agentcy.Topology

/-- The health signals that the rules read. -/
structure HealthSignals where
  queueLagMs : Rat := 0
  agentPoolSaturation : Rat := 0
  verifierPoolSaturation : Rat := 0
  costBurnRatePerMin : Rat := 0
  recentTimeoutRate : Rat := 0
  recentPolicyIncidentRate : Rat := 0
  recentCoalitionHandoffFailureRate : Rat := 0
  recentRetryRate : Rat := 0
  humanApprovalBacklog : Nat := 0

/-- The thresholds, which the environment may replace. -/
structure PolicyThresholds where
  queueLagHigh : Rat := 500
  queueLagCritical : Rat := 2000
  verifierSatHigh : Rat := 7 / 10
  timeoutRateHigh : Rat := 15 / 100
  policyIncidentHigh : Rat := 5 / 100
  handoffFailHigh : Rat := 20 / 100
  costBurnHigh : Rat := 5
  humanBacklogHigh : Rat := 10
  agentSatHigh : Rat := 8 / 10
  retryRateHigh : Rat := 25 / 100

inductive CoalitionPolicyMode where
  | enabled
  | discouraged
  | disabled
  deriving DecidableEq

inductive VerificationPolicyMode where
  | normal
  | stricter
  | minimal
  deriving DecidableEq

inductive FallbackPolicyMode where
  | normal
  | aggressive
  deriving DecidableEq

inductive TopologyVariantBias where
  | baseline
  | lowLatency
  | highSafety
  | lowCost
  deriving DecidableEq

inductive HumanGateBias where
  | normal
  | earlier
  | later
  deriving DecidableEq

structure PolicyState where
  coalitionMode : CoalitionPolicyMode := .enabled
  verificationMode : VerificationPolicyMode := .normal
  fallbackPolicy : FallbackPolicyMode := .normal
  topologyVariantBias : TopologyVariantBias := .baseline
  humanGateBias : HumanGateBias := .normal
  coalitionMarginOverride : Option Rat := none
  retryBudgetMultiplier : Rat := 1
  mutationSuppression : List String := []
  mutationEscalation : List String := []
  triggeredRules : List String := []

def PolicyState.trigger (state : PolicyState) (name : String) :
    PolicyState :=
  { state with triggeredRules := state.triggeredRules ++ [name] }

section Rules

variable (thresholds : PolicyThresholds)
variable (signals : HealthSignals) (state : PolicyState)

def ruleQueueLagDiscouragesCoalitions : PolicyState :=
  if thresholds.queueLagCritical ≤ signals.queueLagMs then
    { state with coalitionMode := .disabled }.trigger
      "queue_lag_critical_disables_coalitions"
  else if thresholds.queueLagHigh ≤ signals.queueLagMs then
    { state with
      coalitionMode := .discouraged
      coalitionMarginOverride := some (15 / 100) }.trigger
      "queue_lag_high_discourages_coalitions"
  else state

def ruleVerifierSaturation : PolicyState :=
  if thresholds.verifierSatHigh ≤ signals.verifierPoolSaturation then
    { state with
      coalitionMode :=
        match state.coalitionMode with
        | .enabled => .discouraged
        | mode => mode
      fallbackPolicy := .aggressive }.trigger
      "verifier_saturated_prefer_solo"
  else state

def ruleTimeoutSpike : PolicyState :=
  if thresholds.timeoutRateHigh ≤ signals.recentTimeoutRate then
    { state with
      retryBudgetMultiplier :=
        max (1 / 2) (state.retryBudgetMultiplier * (7 / 10))
      fallbackPolicy := .aggressive }.trigger
      "timeout_spike_tighten_retries"
  else state

def rulePolicyIncidentSpike : PolicyState :=
  if thresholds.policyIncidentHigh ≤
      signals.recentPolicyIncidentRate then
    { state with verificationMode := .stricter }.trigger
      "policy_incidents_force_stricter_verification"
  else state

def ruleHandoffFrictionSpike : PolicyState :=
  if thresholds.handoffFailHigh ≤
      signals.recentCoalitionHandoffFailureRate then
    { state with
      coalitionMode := .discouraged
      coalitionMarginOverride := some (12 / 100) }.trigger
      "handoff_friction_discourages_coalitions"
  else state

def ruleCostBurnHigh : PolicyState :=
  if thresholds.costBurnHigh ≤ signals.costBurnRatePerMin then
    { state with
      topologyVariantBias := .lowCost
      verificationMode := .minimal }.trigger
      "cost_burn_high_prefer_cheap"
  else state

/-- The backlog alone decides: no rule sees the template, nor how critical
its decisions are. -/
def ruleHumanBacklog : PolicyState :=
  if thresholds.humanBacklogHigh ≤ signals.humanApprovalBacklog then
    { state with humanGateBias := .later }.trigger
      "human_backlog_defer_gates"
  else state

def ruleAgentPoolPressure : PolicyState :=
  if thresholds.agentSatHigh ≤ signals.agentPoolSaturation then
    { state with
      coalitionMode := .disabled
      retryBudgetMultiplier := min state.retryBudgetMultiplier (1 / 2)
      }.trigger "agent_pool_pressure_disable_coalitions"
  else state

def ruleRetryRateHigh : PolicyState :=
  if thresholds.retryRateHigh ≤ signals.recentRetryRate then
    { state with topologyVariantBias := .highSafety }.trigger
      "retry_rate_high_prefer_safety"
  else state

end Rules

def rulesBeforeHumanBacklog (thresholds : PolicyThresholds) :
    List (HealthSignals → PolicyState → PolicyState) :=
  [ruleQueueLagDiscouragesCoalitions thresholds,
    ruleVerifierSaturation thresholds,
    ruleTimeoutSpike thresholds,
    rulePolicyIncidentSpike thresholds,
    ruleHandoffFrictionSpike thresholds,
    ruleCostBurnHigh thresholds]

def rulesAfterHumanBacklog (thresholds : PolicyThresholds) :
    List (HealthSignals → PolicyState → PolicyState) :=
  [ruleAgentPoolPressure thresholds, ruleRetryRateHigh thresholds]

/-- `_RULES`, in the order in which they are evaluated. -/
def policyRules (thresholds : PolicyThresholds) :
    List (HealthSignals → PolicyState → PolicyState) :=
  rulesBeforeHumanBacklog thresholds ++
    ruleHumanBacklog thresholds :: rulesAfterHumanBacklog thresholds

/-- `RuntimePolicyEngine.evaluate`; `enabled` is
`RUNTIME_POLICY_ENABLE`. -/
def evaluate
    (enabled : Bool) (thresholds : PolicyThresholds)
    (signals : HealthSignals) : PolicyState :=
  if enabled then
    (policyRules thresholds).foldl (fun state rule => rule signals state) {}
  else {}

/-- The parts of a policy that only the rule of the backlog, or no rule at
all, decides. -/
def PolicyState.gates (state : PolicyState) :
    HumanGateBias × List String × List String :=
  (state.humanGateBias, state.mutationSuppression,
    state.mutationEscalation)

theorem gates_of_other_rule
    (thresholds : PolicyThresholds)
    {rule : HealthSignals → PolicyState → PolicyState}
    (other : rule ∈ rulesBeforeHumanBacklog thresholds ∨
      rule ∈ rulesAfterHumanBacklog thresholds)
    (signals : HealthSignals) (state : PolicyState) :
    (rule signals state).gates = state.gates := by
  simp only [rulesBeforeHumanBacklog, rulesAfterHumanBacklog,
    List.mem_cons, List.not_mem_nil, or_false] at other
  rcases other with
    (rfl | rfl | rfl | rfl | rfl | rfl) | (rfl | rfl)
  · unfold ruleQueueLagDiscouragesCoalitions
    split
    · rfl
    · split <;> rfl
  · unfold ruleVerifierSaturation
    split <;> rfl
  · unfold ruleTimeoutSpike
    split <;> rfl
  · unfold rulePolicyIncidentSpike
    split <;> rfl
  · unfold ruleHandoffFrictionSpike
    split <;> rfl
  · unfold ruleCostBurnHigh
    split <;> rfl
  · unfold ruleAgentPoolPressure
    split <;> rfl
  · unfold ruleRetryRateHigh
    split <;> rfl

theorem gates_of_other_rules
    {rules : List (HealthSignals → PolicyState → PolicyState)}
    (signals : HealthSignals) (state : PolicyState)
    (others : ∀ rule ∈ rules, ∀ state,
      (rule signals state).gates = state.gates) :
    (rules.foldl (fun state rule => rule signals state) state).gates =
      state.gates := by
  induction rules generalizing state with
  | nil =>
      rfl
  | cons rule rest inductionHypothesis =>
      have restOthers : ∀ later ∈ rest, ∀ state,
          (later signals state).gates = state.gates := by
        intro later member
        exact others later (List.mem_cons_of_mem _ member)
      rw [List.foldl_cons, inductionHypothesis _ restOthers,
        others rule List.mem_cons_self]

/-- The engine defers human gates exactly when the backlog is high, and it
never suppresses or escalates a mutation. -/
theorem gates_evaluate
    (enabled : Bool) (thresholds : PolicyThresholds)
    (signals : HealthSignals) :
    (evaluate enabled thresholds signals).gates =
      (if enabled ∧
          thresholds.humanBacklogHigh ≤ signals.humanApprovalBacklog then
        .later
      else .normal, [], []) := by
  cases enabled with
  | false =>
      simp [evaluate, PolicyState.gates]
  | true =>
      have before (state : PolicyState) :=
        gates_of_other_rules signals state fun rule member state =>
          gates_of_other_rule thresholds (Or.inl member) signals state
      have after (state : PolicyState) :=
        gates_of_other_rules signals state fun rule member state =>
          gates_of_other_rule thresholds (Or.inr member) signals state
      unfold evaluate policyRules
      rw [if_pos rfl, List.foldl_append, List.foldl_cons, after]
      unfold ruleHumanBacklog
      simp only [true_and]
      split
      · have neutral := before {}
        simp only [PolicyState.gates, PolicyState.trigger,
          Prod.mk.injEq] at neutral ⊢
        exact ⟨trivial, neutral.2⟩
      · exact before {}

end Agentcy.Topology
