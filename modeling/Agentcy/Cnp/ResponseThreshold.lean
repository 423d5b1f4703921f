import Agentcy.Cnp.CnpUtils
import Mathlib.Tactic.NormNum

/-!
# Response thresholds

An agent bids on a spec if the stimulus reaches its threshold for the type of
the task.  Each reported outcome stores a new threshold: a success above the
stimulus of the spec, by the trust in the agent and more, and a failure below
it.
-/

namespace Agentcy.Cnp

open Agentcy.Agents
open Agentcy.Library
open Agentcy.Plans (orElse)

/-- What `alpha_beta` uses of `math`. -/
structure PyMath where
  pi : ℚ
  sin : ℚ → ℚ
  exp : ℚ → ℚ

/-- The built-ins and the environment of the threshold functions.
`thresholdDefault` is the value of `CNP_RESPONSE_THRESHOLD_DEFAULT`. -/
structure ThresholdEnv where
  python : PyBuiltins
  numbers : PyNumbers
  math : PyMath
  weights : TrustWeights := {}
  lmaxDefault : Int := 3
  thresholdDefault : ℚ := 1 / 2

/-- `float(value)` of a `float` is that value. -/
def PyNumbers.ReadsFloats (numbers : PyNumbers) : Prop :=
  ∀ value, numbers.toFloat (.float value) = some value

/-- The steps up and down. -/
def alphaBeta (math : PyMath) (priority : Int) (reward : ℚ) : ℚ × ℚ :=
  let alpha := priority / 100 + reward / 10
  let beta :=
    math.sin (2 * math.pi * priority * reward) / 100 +
      math.exp (-(3 * reward) ^ 2) / 10
  (clamp alpha (1 / 1000) (1 / 10), clamp beta (1 / 1000) (1 / 10))

def updateThreshold
    (stimulus trust alpha beta : ℚ) (success : Bool) : ℚ :=
  let value :=
    if success then stimulus + trust + alpha else stimulus - beta
  clamp value 0 1

theorem alphaBeta_pos
    (math : PyMath) (priority : Int) (reward : ℚ) :
    0 < (alphaBeta math priority reward).1 ∧
      0 < (alphaBeta math priority reward).2 := by
  constructor
  · exact lt_of_lt_of_le (by norm_num) (low_le_clamp _ _ _)
  · exact lt_of_lt_of_le (by norm_num) (low_le_clamp _ _ _)

theorem trustScore_nonneg (weights : TrustWeights) (state : CnpState) :
    0 ≤ trustScore weights state := by
  unfold trustScore
  split
  · exact le_rfl
  · exact low_le_clamp _ _ _

/-- The thresholds that `agent_cnp_state` copies. -/
def thresholdsOf (python : PyBuiltins) (agent : Fields) :
    Except PyError Fields :=
  let cnp := dictOrEmpty ((dictOrEmpty (agent.get "metadata")).get "cnp")
  (orElse (cnp.get "thresholds") (.dict [])).toDict python

/-- An outcome as it is reported to `update_cnp_metadata`. -/
structure TaskOutcome where
  taskType : String
  stimulus : ℚ
  priority : Int
  reward : ℚ

namespace ThresholdEnv

variable (env : ThresholdEnv)

def responseThreshold (taskType : String) (thresholds : Fields) : ℚ :=
  match OrderedMap.lookupEntries taskType thresholds with
  | some value => clamp (env.numbers.coerceFloat value 0) 0 1
  | none => clamp env.thresholdDefault 0 1

/-- The threshold of an agent for tasks of a type. -/
def thresholdFor (taskType : String) (agent : Fields) :
    Except PyError ℚ := do
  let thresholds ← thresholdsOf env.python agent
  return env.responseThreshold taskType thresholds

def stateOf (agent : Fields) : Except PyError CnpState :=
  cnpStateOf env.python env.numbers env.lmaxDefault agent

/-- The threshold that an outcome stores. -/
def newThreshold
    (state : CnpState) (outcome : TaskOutcome) (success : Bool) : ℚ :=
  let steps := alphaBeta env.math outcome.priority outcome.reward
  updateThreshold outcome.stimulus (trustScore env.weights state)
    steps.1 steps.2 success

/-- What `update_cnp_metadata` puts under `cnp`. -/
def cnpAfter
    (state : CnpState) (thresholds : Fields) (outcome : TaskOutcome)
    (success : Bool) : Fields :=
  let threshold := env.newThreshold state outcome success
  let completed := state.tasksCompleted + if success then 1 else 0
  [("tasks_received", .int state.tasksReceived),
    ("tasks_acquired", .int (state.tasksAcquired + 1)),
    ("tasks_completed", .int completed),
    ("load", .int (max (state.load - 1) 0)),
    ("max_load", .int state.maxLoad),
    ("thresholds",
      .dict (thresholds.set outcome.taskType (.float threshold))),
    ("last_update",
      .dict
        [("task_type", .str outcome.taskType), ("success", .bool success),
          ("stimulus", .float outcome.stimulus),
          ("priority", .int outcome.priority),
          ("reward", .float outcome.reward)])]

/-- `update_cnp_metadata`: the metadata after a reported outcome. -/
def updateCnpMetadata
    (agent : Fields) (outcome : TaskOutcome) (success : Bool) :
    Except PyError Fields := do
  let state ← env.stateOf agent
  let thresholds ← thresholdsOf env.python agent
  return (dictOrEmpty (agent.get "metadata")).set "cnp"
    (.dict (env.cnpAfter state thresholds outcome success))

/-- The agent with its new metadata, which have all the keys of the old. -/
def agentAfter
    (agent : Fields) (outcome : TaskOutcome) (success : Bool) :
    Except PyError Fields := do
  let metadata ← env.updateCnpMetadata agent outcome success
  return agent.set "metadata" (.dict metadata)

variable {env}

theorem thresholdsOf_of_dict
    (python : PyBuiltins) {agent metadata cnp thresholds : Fields}
    (hasMetadata : agent.get "metadata" = .dict metadata)
    (hasCnp : metadata.get "cnp" = .dict cnp)
    (hasThresholds : cnp.get "thresholds" = .dict thresholds)
    (nonempty : thresholds ≠ []) :
    thresholdsOf python agent = .ok thresholds := by
  have truthy : (Json.dict thresholds).truthy = true := by
    simp [Json.truthy, nonempty]
  simp only [thresholdsOf, hasMetadata, dictOrEmpty, hasCnp,
    hasThresholds, orElse, truthy, if_true]
  rfl

theorem clamp_newThreshold
    (state : CnpState) (outcome : TaskOutcome) (success : Bool) :
    clamp (env.newThreshold state outcome success) 0 1 =
      env.newThreshold state outcome success :=
  clamp_clamp zero_le_one

/-- What an outcome stores is what is read afterwards. -/
theorem thresholdFor_after
    (reads : env.numbers.ReadsFloats) {agent after : Fields}
    {outcome : TaskOutcome} {success : Bool}
    (done : env.agentAfter agent outcome success = .ok after) :
    ∃ state, env.stateOf agent = .ok state ∧
      env.thresholdFor outcome.taskType after =
        .ok (env.newThreshold state outcome success) := by
  rw [agentAfter, bind_eq_ok] at done
  obtain ⟨metadata, updated, whole⟩ := done
  rw [updateCnpMetadata, bind_eq_ok] at updated
  obtain ⟨state, known, updated⟩ := updated
  rw [bind_eq_ok] at updated
  obtain ⟨thresholds, _, updated⟩ := updated
  cases whole
  cases updated
  refine ⟨state, known, ?_⟩
  have stored :
      OrderedMap.lookupEntries outcome.taskType
          (thresholds.set outcome.taskType
            (.float (env.newThreshold state outcome success))) =
        some (.float (env.newThreshold state outcome success)) := by
    rw [Fields.set, OrderedMap.lookupEntries_setEntries, if_pos rfl]
  have nonempty :
      thresholds.set outcome.taskType
        (.float (env.newThreshold state outcome success)) ≠ [] := by
    intro none
    rw [none] at stored
    cases stored
  have inCnp :
      (env.cnpAfter state thresholds outcome success).get "thresholds" =
        .dict
          (thresholds.set outcome.taskType
            (.float (env.newThreshold state outcome success))) :=
    rfl
  have copied :=
    thresholdsOf_of_dict env.python (Fields.get_set_self agent _ _)
      (Fields.get_set_self (dictOrEmpty (agent.get "metadata")) _ _)
      inCnp nonempty
  rw [thresholdFor, copied]
  change Except.ok (env.responseThreshold _ _) = _
  rw [responseThreshold, stored]
  change Except.ok (clamp (env.numbers.coerceFloat _ 0) 0 1) = _
  rw [PyNumbers.coerceFloat, reads, Option.getD_some, clamp_newThreshold]

/-- The outcome is recorded for any agent whose counters can be read. -/
theorem agentAfter_of_state
    {agent : Fields} {state : CnpState}
    (known : env.stateOf agent = .ok state)
    (outcome : TaskOutcome) (success : Bool) :
    ∃ after, env.agentAfter agent outcome success = .ok after := by
  have parts := known
  rw [stateOf, cnpStateOf, bind_eq_ok] at parts
  obtain ⟨thresholds, copied, _⟩ := parts
  have same : thresholdsOf env.python agent = .ok thresholds := copied
  rw [agentAfter, updateCnpMetadata, known]
  simp only [bind, Except.bind, same, pure, Except.pure]
  exact ⟨_, rfl⟩

/-! ## After a success and after a failure -/

variable (env)

/-- The threshold that is read after a success is not higher than the one that
is read after a failure. -/
def SuccessNotHigher (agent : Fields) (outcome : TaskOutcome) : Prop :=
  ∀ succeeded failed high low,
    env.agentAfter agent outcome true = .ok succeeded →
      env.agentAfter agent outcome false = .ok failed →
        env.thresholdFor outcome.taskType succeeded = .ok high →
          env.thresholdFor outcome.taskType failed = .ok low →
            high ≤ low

/-- Both thresholds are at the same end of the scale. -/
def BothAtBound (state : CnpState) (outcome : TaskOutcome) : Prop :=
  let steps := alphaBeta env.math outcome.priority outcome.reward
  1 ≤ outcome.stimulus - steps.2 ∨
    outcome.stimulus + trustScore env.weights state + steps.1 ≤ 0

variable {env}

theorem newThreshold_le_iff
    (state : CnpState) (outcome : TaskOutcome) :
    env.newThreshold state outcome true ≤
        env.newThreshold state outcome false ↔
      env.BothAtBound state outcome := by
  obtain ⟨alpha, beta⟩ :=
    alphaBeta_pos env.math outcome.priority outcome.reward
  have trust := trustScore_nonneg env.weights state
  simp only [newThreshold, updateThreshold, if_true, Bool.false_eq_true,
    if_false, clamp_le_clamp_iff zero_lt_one, BothAtBound]
  constructor
  · intro reason
    rcases reason with less | atLow | atHigh
    · linarith
    · exact Or.inr atLow
    · exact Or.inl atHigh
  · intro reason
    rcases reason with atHigh | atLow
    · exact Or.inr (Or.inr atHigh)
    · exact Or.inr (Or.inl atLow)

theorem successNotHigher_iff
    (reads : env.numbers.ReadsFloats)
    (agent : Fields) (outcome : TaskOutcome) :
    env.SuccessNotHigher agent outcome ↔
      ∀ state, env.stateOf agent = .ok state →
        env.BothAtBound state outcome := by
  constructor
  · intro notHigher state known
    obtain ⟨succeeded, success⟩ := agentAfter_of_state known outcome true
    obtain ⟨failed, failure⟩ := agentAfter_of_state known outcome false
    obtain ⟨same, read, high⟩ := thresholdFor_after reads success
    obtain ⟨again, reread, low⟩ := thresholdFor_after reads failure
    rw [known] at read reread
    cases read
    cases reread
    rw [← newThreshold_le_iff]
    exact notHigher succeeded failed _ _ success failure high low
  · intro bound succeeded failed high low success failure isHigh isLow
    obtain ⟨state, known, read⟩ := thresholdFor_after reads success
    obtain ⟨again, reread, readLow⟩ := thresholdFor_after reads failure
    rw [known] at reread
    cases reread
    rw [read] at isHigh
    rw [readLow] at isLow
    cases isHigh
    cases isLow
    exact (newThreshold_le_iff state outcome).mpr (bound state known)

end ThresholdEnv

section FirstRound

variable (env : ThresholdEnv) (bidder : BidderRun Fields)

/-- The outcome of a spec as the feedback reports it. -/
def outcomeOf (spec : TaskSpec) : TaskOutcome :=
  let params := taskParams env.numbers spec
  { taskType := taskTypeOf env.python spec
    stimulus := params.stimulus
    priority := params.priority
    reward := params.reward }

/-- The stimulus of the calls reaches the threshold of the agent. -/
def Eligible
    (spec : TaskSpec) (cfps : List CallForProposal) (agent : Fields) :
    Prop :=
  ∃ threshold,
    env.thresholdFor (taskTypeOf env.python spec) agent = .ok threshold ∧
      threshold ≤ bidder.activeStimulus spec cfps

/-- An agent that was eligible for the calls of a spec and succeeded is
eligible for this one, if it would be after a failure. -/
def KeepsEligible
    (spec : TaskSpec) (cfps : List CallForProposal)
    (call : CallForProposal) (agent : Fields) : Prop :=
  Eligible env bidder spec cfps agent →
    ∀ succeeded failed,
      env.agentAfter agent (outcomeOf env spec) true = .ok succeeded →
        env.agentAfter agent (outcomeOf env spec) false = .ok failed →
          Eligible env bidder spec [call] failed →
            Eligible env bidder spec [call] succeeded

/-- The spec has the full stimulus and a call may have it too, or not even a
failure would make the agent eligible. -/
def FullStimulus (spec : TaskSpec) : Prop :=
  let outcome := outcomeOf env spec
  let steps := alphaBeta env.math outcome.priority outcome.reward
  let stimulusMax := bidder.settings.stimulusMax
  0 ≤ stimulusMax → outcome.stimulus - steps.2 ≤ stimulusMax →
    outcome.stimulus = 1 ∧ 1 ≤ stimulusMax

variable {env bidder}

theorem activeStimulus_first
    {uuid : UuidSource} {store : CnpStore} {spec : TaskSpec}
    {pipelineId : Option String}
    (appraised : bidder.appraisal.params spec = taskParams env.numbers spec)
    (first : (bidder.nextCfp uuid store spec pipelineId).round = 1) :
    bidder.activeStimulus spec
        [bidder.nextCfp uuid store spec pipelineId] =
      min (outcomeOf env spec).stimulus bidder.settings.stimulusMax := by
  have stimulus :
      (bidder.nextCfp uuid store spec pipelineId).stimulus =
        some
          (min ((taskParams env.numbers spec).stimulus +
              (((bidder.nextCfp uuid store spec pipelineId).round - 1 : ℕ) :
                ℚ) * bidder.settings.stimulusStep)
            bidder.settings.stimulusMax) := by
    rw [← appraised]
    rfl
  rw [first] at stimulus
  simp [BidderRun.activeStimulus, stimulus, outcomeOf]

theorem stimulus_bounds (spec : TaskSpec) :
    0 ≤ (outcomeOf env spec).stimulus ∧
      (outcomeOf env spec).stimulus ≤ 1 :=
  ⟨low_le_clamp _ _ _, clamp_le_high _ zero_le_one⟩

/-- After a success only the full stimulus reaches the threshold. -/
theorem success_reaches_iff
    (state : CnpState) (spec : TaskSpec) (stimulusMax : ℚ) :
    env.newThreshold state (outcomeOf env spec) true ≤
        min (outcomeOf env spec).stimulus stimulusMax ↔
      (outcomeOf env spec).stimulus = 1 ∧ 1 ≤ stimulusMax := by
  obtain ⟨_, atMost⟩ := @stimulus_bounds env spec
  obtain ⟨alpha, _⟩ :=
    alphaBeta_pos env.math (outcomeOf env spec).priority
      (outcomeOf env spec).reward
  have trust := trustScore_nonneg env.weights state
  simp only [ThresholdEnv.newThreshold, updateThreshold, if_true,
    le_min_iff]
  constructor
  · intro reaches
    obtain ⟨within, belowMax⟩ := reaches
    have raised := (le_max_right 0 _).trans within
    rcases min_le_iff.mp raised with full | less
    · have isFull := le_antisymm atMost full
      refine ⟨isFull, le_trans ?_ belowMax⟩
      rw [isFull]
      exact le_max_of_le_right (le_min le_rfl (by linarith))
    · linarith
  · intro full
    obtain ⟨isFull, belowMax⟩ := full
    have top := clamp_le_high
      ((outcomeOf env spec).stimulus + trustScore env.weights state +
        (alphaBeta env.math (outcomeOf env spec).priority
          (outcomeOf env spec).reward).1) (zero_le_one' ℚ)
    exact ⟨top.trans isFull.ge, top.trans belowMax⟩

/-- After a failure the stimulus of the spec reaches the threshold, as far as
a call may have it. -/
theorem failure_reaches_iff
    (state : CnpState) (spec : TaskSpec) (stimulusMax : ℚ) :
    env.newThreshold state (outcomeOf env spec) false ≤
        min (outcomeOf env spec).stimulus stimulusMax ↔
      0 ≤ stimulusMax ∧
        (outcomeOf env spec).stimulus -
            (alphaBeta env.math (outcomeOf env spec).priority
              (outcomeOf env spec).reward).2 ≤ stimulusMax := by
  obtain ⟨nonneg, atMost⟩ := @stimulus_bounds env spec
  obtain ⟨_, beta⟩ :=
    alphaBeta_pos env.math (outcomeOf env spec).priority
      (outcomeOf env spec).reward
  simp only [ThresholdEnv.newThreshold, updateThreshold,
    Bool.false_eq_true, if_false, le_min_iff, clamp, max_le_iff]
  rw [min_eq_right (by linarith)]
  constructor
  · intro reaches
    exact reaches.2
  · intro reaches
    exact ⟨⟨nonneg, by linarith⟩, reaches⟩

theorem eligible_iff_of_threshold
    {spec : TaskSpec} {cfps : List CallForProposal} {agent : Fields}
    {threshold : ℚ}
    (read : env.thresholdFor (taskTypeOf env.python spec) agent =
      .ok threshold) :
    Eligible env bidder spec cfps agent ↔
      threshold ≤ bidder.activeStimulus spec cfps := by
  simp [Eligible, read]

theorem keepsEligible_iff
    {uuid : UuidSource} {store : CnpStore} {spec : TaskSpec}
    {pipelineId : Option String}
    (reads : env.numbers.ReadsFloats)
    (appraised : bidder.appraisal.params spec = taskParams env.numbers spec)
    (first : (bidder.nextCfp uuid store spec pipelineId).round = 1)
    (cfps : List CallForProposal) (agent : Fields) :
    KeepsEligible env bidder spec cfps
        (bidder.nextCfp uuid store spec pipelineId) agent ↔
      (Eligible env bidder spec cfps agent →
        ∀ state, env.stateOf agent = .ok state →
          FullStimulus env bidder spec) := by
  have active := activeStimulus_first appraised first
  refine forall_congr' fun _ => ?_
  constructor
  · intro keeps state known nonneg below
    obtain ⟨succeeded, success⟩ :=
      ThresholdEnv.agentAfter_of_state known (outcomeOf env spec) true
    obtain ⟨failed, failure⟩ :=
      ThresholdEnv.agentAfter_of_state known (outcomeOf env spec) false
    obtain ⟨_, read, high⟩ :=
      ThresholdEnv.thresholdFor_after reads success
    obtain ⟨_, reread, low⟩ :=
      ThresholdEnv.thresholdFor_after reads failure
    rw [known] at read reread
    cases read
    cases reread
    have kept := keeps succeeded failed success failure
    rw [eligible_iff_of_threshold high, eligible_iff_of_threshold low,
      active, success_reaches_iff, failure_reaches_iff] at kept
    exact kept ⟨nonneg, below⟩
  · intro full succeeded failed success failure
    obtain ⟨state, known, high⟩ :=
      ThresholdEnv.thresholdFor_after reads success
    obtain ⟨_, reread, low⟩ :=
      ThresholdEnv.thresholdFor_after reads failure
    rw [known] at reread
    cases reread
    rw [eligible_iff_of_threshold high, eligible_iff_of_threshold low,
      active, success_reaches_iff, failure_reaches_iff]
    intro reaches
    exact full state known reaches.1 reaches.2

end FirstRound

/-- For every agent, every outcome that is reported for it, and every spec
that may be called for again in a first round: the threshold after a success
is not higher than after a failure exactly when both are at one end of the
scale, and an agent that was eligible for the spec stays as eligible as after
a failure exactly when the spec has the full stimulus. -/
theorem success_keeps_eligibility_iff
    (env : ThresholdEnv) (reads : env.numbers.ReadsFloats)
    (agent : Fields) :
    (∀ outcome,
      env.SuccessNotHigher agent outcome ↔
        ∀ state, env.stateOf agent = .ok state →
          env.BothAtBound state outcome) ∧
    ∀ (bidder : BidderRun Fields) uuid store spec pipelineId cfps,
      bidder.appraisal.params spec = taskParams env.numbers spec →
        (bidder.nextCfp uuid store spec pipelineId).round = 1 →
          (KeepsEligible env bidder spec cfps
              (bidder.nextCfp uuid store spec pipelineId) agent ↔
            (Eligible env bidder spec cfps agent →
              ∀ state, env.stateOf agent = .ok state →
                FullStimulus env bidder spec)) := by
  constructor
  · intro outcome
    exact ThresholdEnv.successNotHigher_iff reads agent outcome
  · intro bidder uuid store spec pipelineId cfps appraised first
    exact keepsEligible_iff reads appraised first cfps agent

/-! ## One agent and one spec -/

def plainNumbers : PyNumbers where
  toFloat
    | .float value => some value
    | .int value => some value
    | _ => none
  toInt
    | .int value => some value
    | _ => none

/-- The sine at the only place where it is used here; the exponential there is
close to zero. -/
def plainMath : PyMath where
  pi := 3141593 / 1000000
  sin := fun _ => 951 / 1000
  exp := fun _ => 0

def plainEnv : ThresholdEnv where
  python := plainPython
  numbers := plainNumbers
  math := plainMath

theorem plainNumbers_readsFloats : plainNumbers.ReadsFloats :=
  fun _ => rfl

/-- A task with the stimulus in its metadata. -/
def specOfStimulus (stimulus : ℚ) : TaskSpec where
  taskId := "t1"
  metadata := [("stimulus", .float stimulus)]

def specBidder : BidderRun Fields where
  username := "alice"
  specs := []
  agents := []
  appraisal :=
    { agentId := fun _ => "anna"
      params := taskParams plainNumbers
      entryOf := fun _ _ => {}
      scoreOf := fun _ _ _ => 0
      explore := fun _ _ => none }

def firstCall (stimulus : ℚ) : CallForProposal :=
  specBidder.nextCfp countedIds {} (specOfStimulus stimulus) none

/-- With the full stimulus nobody loses eligibility. -/
theorem full_stimulus_keeps_eligible :
    KeepsEligible plainEnv specBidder (specOfStimulus 1) [firstCall 1]
      (firstCall 1) [] :=
  ((success_keeps_eligibility_iff plainEnv plainNumbers_readsFloats []).2
    specBidder countedIds {} (specOfStimulus 1) none [firstCall 1]
    rfl rfl).mpr
    fun _ _ _ _ _ => ⟨by decide +kernel, by decide +kernel⟩

/-- A new agent bids on a spec with half the stimulus, and after a success it
no longer would. -/
theorem success_starves_new_agent :
    ¬ plainEnv.SuccessNotHigher []
        (outcomeOf plainEnv (specOfStimulus (1 / 2))) ∧
      ¬ KeepsEligible plainEnv specBidder (specOfStimulus (1 / 2))
        [firstCall (1 / 2)] (firstCall (1 / 2)) [] := by
  constructor
  · rw [ThresholdEnv.successNotHigher_iff plainNumbers_readsFloats]
    intro bound
    have atBound := bound _ rfl
    revert atBound
    unfold ThresholdEnv.BothAtBound
    decide +kernel
  · unfold firstCall
    rw [keepsEligible_iff plainNumbers_readsFloats rfl rfl]
    intro keeps
    have full := keeps ⟨1 / 2, by decide +kernel, by decide +kernel⟩ _ rfl
    revert full
    unfold FullStimulus
    decide +kernel

end Agentcy.Cnp
