import Mathlib.Algebra.Order.Field.Rat
import Mathlib.Tactic.Linarith
import Agentcy.Library.Clamp

/-!
# The score of a bid

`score_bid` weighs the trust in an agent against its cost and its load, both
relative to the field of candidates, and adds what is known of its history,
its recent failures and what the bandit learnt.  It is monotone in every one
of the first six, whatever the others and the field are.
-/

namespace Agentcy.Cnp

open Agentcy.Library

/-- The weights, which the environment may replace. -/
structure ScoreWeights where
  lambda3 : ℚ := 6 / 10
  lambda4 : ℚ := 6 / 10
  lambda5 : ℚ := 15 / 100
  lambda6 : ℚ := 10 / 100
  lambda7 : ℚ := 25 / 100
  lambdaBandit : ℚ := 20 / 100

/-- The extremes of cost and load over the candidates. -/
structure ScoreField where
  tmin : ℚ
  tmax : ℚ
  lmin : Int
  lmax : Int

structure ScoreInputs where
  trust : ℚ
  cost : ℚ
  load : Int
  historicalSuccessRate : Option ℚ := none
  historicalAvgDuration : Option ℚ := none
  durationBaseline : Option ℚ := none
  failurePenaltyScore : Option ℚ := none
  learnedContextBias : Option ℚ := none

def timeNorm (field : ScoreField) (cost : ℚ) : ℚ :=
  if field.tmin < field.tmax then
    (cost - field.tmin) / (field.tmax - field.tmin)
  else 0

def loadNorm (field : ScoreField) (load : Int) : ℚ :=
  if field.lmin < field.lmax then
    ((load - field.lmin : Int) : ℚ) / ((field.lmax - field.lmin : Int) : ℚ)
  else 0

section Terms

variable (weights : ScoreWeights)

def successBoost (rate : Option ℚ) : ℚ :=
  match rate with
  | none => 0
  | some rate => weights.lambda5 * rate

def speedBoost (duration baseline : Option ℚ) : ℚ :=
  match duration, baseline with
  | some duration, some baseline =>
      if 0 < baseline then
        weights.lambda6 * max (1 - min (duration / baseline) 1) 0
      else 0
  | _, _ => 0

def failureTerm (penalty : Option ℚ) : ℚ :=
  match penalty with
  | none => 0
  | some penalty => if 0 < penalty then weights.lambda7 * penalty else 0

def biasTerm (bias : Option ℚ) : ℚ :=
  match bias with
  | none => 0
  | some bias => weights.lambdaBandit * bias

def rawScore (field : ScoreField) (inputs : ScoreInputs) : ℚ :=
  weights.lambda3 * inputs.trust -
      weights.lambda4 * timeNorm field inputs.cost -
      (1 - weights.lambda4) * loadNorm field inputs.load +
      successBoost weights inputs.historicalSuccessRate +
      speedBoost weights inputs.historicalAvgDuration
        inputs.durationBaseline -
      failureTerm weights inputs.failurePenaltyScore +
    biasTerm weights inputs.learnedContextBias

def scoreBid (field : ScoreField) (inputs : ScoreInputs) : ℚ :=
  clamp (1 / 2 + rawScore weights field inputs / 2) 0 1

end Terms

structure ScoreWeights.Sound (weights : ScoreWeights) : Prop where
  lambda3 : 0 ≤ weights.lambda3
  lambda4 : 0 ≤ weights.lambda4 ∧ weights.lambda4 ≤ 1
  lambda5 : 0 ≤ weights.lambda5
  lambda6 : 0 ≤ weights.lambda6
  lambda7 : 0 ≤ weights.lambda7

theorem timeNorm_mono
    (field : ScoreField) {lower higher : ℚ} (le : lower ≤ higher) :
    timeNorm field lower ≤ timeNorm field higher := by
  unfold timeNorm
  split
  · rename_i range
    have width : 0 ≤ field.tmax - field.tmin := by linarith
    exact div_le_div_of_nonneg_right (by linarith) width
  · exact le_refl _

theorem loadNorm_mono
    (field : ScoreField) {lower higher : Int} (le : lower ≤ higher) :
    loadNorm field lower ≤ loadNorm field higher := by
  unfold loadNorm
  split
  · rename_i range
    have width : (0 : ℚ) ≤ ((field.lmax - field.lmin : Int) : ℚ) := by
      exact_mod_cast Int.sub_nonneg_of_le range.le
    refine div_le_div_of_nonneg_right ?_ width
    exact_mod_cast Int.sub_le_sub_right le _
  · exact le_refl _

section Monotone

variable {weights : ScoreWeights} (sound : weights.Sound)

include sound

theorem successBoost_mono {lower higher : ℚ} (le : lower ≤ higher) :
    successBoost weights (some lower) ≤
      successBoost weights (some higher) :=
  mul_le_mul_of_nonneg_left le sound.lambda5

/-- A longer duration does not make an agent faster, whatever the baseline
is. -/
theorem speedBoost_antitone
    {lower higher : ℚ} (le : lower ≤ higher) (baseline : Option ℚ) :
    speedBoost weights (some higher) baseline ≤
      speedBoost weights (some lower) baseline := by
  cases baseline with
  | none =>
      exact le_refl _
  | some baseline =>
      dsimp only [speedBoost]
      split
      · rename_i positive
        have ratio : lower / baseline ≤ higher / baseline :=
          div_le_div_of_nonneg_right le positive.le
        have capped := min_le_min_right 1 ratio
        exact
          mul_le_mul_of_nonneg_left
            (max_le_max_right 0 (by linarith)) sound.lambda6
      · exact le_refl _

theorem failureTerm_mono {lower higher : ℚ} (le : lower ≤ higher) :
    failureTerm weights (some lower) ≤
      failureTerm weights (some higher) := by
  dsimp only [failureTerm]
  by_cases low : 0 < lower
  · rw [if_pos low, if_pos (low.trans_le le)]
    exact mul_le_mul_of_nonneg_left le sound.lambda7
  · rw [if_neg low]
    split
    · rename_i high
      exact mul_nonneg sound.lambda7 high.le
    · exact le_refl _

end Monotone

theorem scoreBid_le_of_rawScore_le
    {weights : ScoreWeights} {field : ScoreField}
    {first second : ScoreInputs}
    (le : rawScore weights field first ≤ rawScore weights field second) :
    scoreBid weights field first ≤ scoreBid weights field second :=
  clamp_mono (by linarith) 0 1

theorem scoreBid_mem (weights : ScoreWeights) (field : ScoreField)
    (inputs : ScoreInputs) :
    0 ≤ scoreBid weights field inputs ∧
      scoreBid weights field inputs ≤ 1 :=
  ⟨low_le_clamp _ _ _, clamp_le_high _ zero_le_one⟩

/-- No sign of the other terms and no order of the field is needed: each
argument has its own term, and the clamp keeps the order of the sums. -/
theorem scoreBid_monotone
    {weights : ScoreWeights} (sound : weights.Sound) (field : ScoreField)
    (inputs : ScoreInputs) :
    (∀ lower higher, lower ≤ higher →
      scoreBid weights field { inputs with trust := lower } ≤
        scoreBid weights field { inputs with trust := higher }) ∧
    (∀ lower higher, lower ≤ higher →
      scoreBid weights field
          { inputs with historicalSuccessRate := some lower } ≤
        scoreBid weights field
          { inputs with historicalSuccessRate := some higher }) ∧
    (∀ lower higher, lower ≤ higher →
      scoreBid weights field { inputs with cost := higher } ≤
        scoreBid weights field { inputs with cost := lower }) ∧
    (∀ lower higher, lower ≤ higher →
      scoreBid weights field { inputs with load := higher } ≤
        scoreBid weights field { inputs with load := lower }) ∧
    (∀ lower higher, lower ≤ higher →
      scoreBid weights field
          { inputs with historicalAvgDuration := some higher } ≤
        scoreBid weights field
          { inputs with historicalAvgDuration := some lower }) ∧
    (∀ lower higher, lower ≤ higher →
      scoreBid weights field
          { inputs with failurePenaltyScore := some higher } ≤
        scoreBid weights field
          { inputs with failurePenaltyScore := some lower }) ∧
    (0 ≤ scoreBid weights field inputs ∧
      scoreBid weights field inputs ≤ 1) ∧
    scoreBid weights field { inputs with failurePenaltyScore := none } =
      scoreBid weights field
        { inputs with failurePenaltyScore := some 0 } := by
  refine ⟨?_, ?_, ?_, ?_, ?_, ?_, scoreBid_mem weights field inputs, ?_⟩
  · intro lower higher le
    have term := mul_le_mul_of_nonneg_left le sound.lambda3
    exact scoreBid_le_of_rawScore_le (by dsimp only [rawScore]; linarith)
  · intro lower higher le
    have term := successBoost_mono sound le
    exact scoreBid_le_of_rawScore_le (by dsimp only [rawScore]; linarith)
  · intro lower higher le
    have term :=
      mul_le_mul_of_nonneg_left (timeNorm_mono field le) sound.lambda4.left
    exact scoreBid_le_of_rawScore_le (by dsimp only [rawScore]; linarith)
  · intro lower higher le
    have weight : 0 ≤ 1 - weights.lambda4 := by
      linarith [sound.lambda4.right]
    have term := mul_le_mul_of_nonneg_left (loadNorm_mono field le) weight
    exact scoreBid_le_of_rawScore_le (by dsimp only [rawScore]; linarith)
  · intro lower higher le
    have term := speedBoost_antitone sound le inputs.durationBaseline
    exact scoreBid_le_of_rawScore_le (by dsimp only [rawScore]; linarith)
  · intro lower higher le
    have term := failureTerm_mono sound le
    exact scoreBid_le_of_rawScore_le (by dsimp only [rawScore]; linarith)
  · rfl

def defaultWeights : ScoreWeights := {}

theorem defaultWeights_sound : defaultWeights.Sound := by
  constructor <;> norm_num [defaultWeights]

def exampleField : ScoreField :=
  { tmin := 1, tmax := 3, lmin := 0, lmax := 4 }

/-- With the weights of the source a busier agent never scores more. -/
theorem busier_scores_no_more :
    scoreBid defaultWeights exampleField
        { trust := 1, cost := 2, load := 3 } ≤
      scoreBid defaultWeights exampleField
        { trust := 1, cost := 2, load := 1 } :=
  (scoreBid_monotone defaultWeights_sound exampleField
    { trust := 1, cost := 2, load := 0 }).right.right.right.left
    1 3 (by decide)

end Agentcy.Cnp
