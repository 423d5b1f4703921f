import Agentcy.Agents.CapabilityAncestry
import Agentcy.Cnp.CnpUtils
import Mathlib.Tactic.Positivity

/-!
# Capabilities that an agent holds

The names that an agent holds are trimmed, written in lower case and expanded
through the hierarchy; those that a spec requires are compared as they stand.
More names never lower a score, but a name in capitals is not recognised by
itself.
-/

namespace Agentcy.Cnp

open Agentcy.Agents
open Agentcy.Library
open Agentcy.Plans (orElse)

section Held

variable (env : ScoringEnv) (agent : Fields) (spec : TaskSpec)

/-- The names in the list of the agent, trimmed. -/
def heldNames : List String :=
  asList env.python (agent.get "capabilities")

/-- The part of the score that stands for the required capabilities. -/
def capabilityPart : ℚ :=
  6 / 10 *
    ratio spec.requiredCapabilities
      (expandCapabilities env.python env.hierarchy (heldNames env agent))
      (1 / 2)

/-- The rest of the score, but for the factor of the policy. -/
def otherParts : Except PyError ℚ := do
  let tagRatio := ratio spec.tags (asList env.python (agent.get "tags")) 0
  let policy := dictOrEmpty (agent.get "policy")
  let weight ←
    statusWeight env.python
      (orElse (policy.get "effective_status") (agent.get "status"))
  let preferred ← isPreferred env.python agent spec
  return 2 / 10 * tagRatio + 2 / 10 * weight +
    (if preferred then 1 / 10 else 0)

theorem scoreAgentForTask_eq :
    scoreAgentForTask env agent spec = (do
      let others ← otherParts env agent spec
      return clamp
        ((capabilityPart env agent spec + others) * policyFactor env agent)
        0 1) := by
  unfold scoreAgentForTask otherParts
  dsimp only
  cases statusWeight env.python
      (orElse ((dictOrEmpty (agent.get "policy")).get "effective_status")
        (agent.get "status")) with
  | error error => rfl
  | ok weight =>
      cases isPreferred env.python agent spec with
      | error error => rfl
      | ok preferred =>
          simp only [bind, Except.bind, pure, Except.pure, capabilityPart,
            heldNames, add_assoc]

/-- Among the names that the agent holds is one whose normal form is the
required name, or lies below it, within a climb. -/
def Recognised (name : String) : Prop :=
  ∃ held ∈ heldNames env agent,
    normalName env.python held = name ∨
      ∃ steps ≤ maxDepth,
        MeetsAt env.hierarchy steps (normalName env.python held) name ∧
          ∀ step, 1 ≤ step → step ≤ steps →
            ancestorAt env.hierarchy step (normalName env.python held) ≠
              some ""

/-- Every required capability is, as it is written, in the list. -/
def HoldsAll : Prop :=
  ∀ name ∈ spec.requiredCapabilities, name ∈ heldNames env agent

theorem mem_expandCapabilities_iff (name : String) :
    name ∈
        expandCapabilities env.python env.hierarchy (heldNames env agent) ↔
      Recognised env agent name := by
  rw [expandCapabilities, List.mem_flatMap]
  refine exists_congr fun held => and_congr_right fun _ => ?_
  dsimp only
  change name ∈ normalName env.python held ::
    climb env.hierarchy maxDepth (normalName env.python held)
      [normalName env.python held] ↔ _
  by_cases same : normalName env.python held = name
  · exact iff_of_true (same ▸ List.mem_cons_self) (Or.inl same)
  · rw [List.mem_cons, mem_climb_start_iff same]
    constructor
    · intro either
      rcases either with isHeld | ⟨steps, meets, within, nonempty⟩
      · exact absurd isHeld.symm same
      · exact Or.inr ⟨steps, within, meets, nonempty⟩
    · intro either
      rcases either with isHeld | ⟨steps, within, meets, nonempty⟩
      · exact absurd isHeld same
      · exact Or.inr ⟨steps, meets, within, nonempty⟩

end Held

section Ratios

variable (wanted : List String) {held more : List String}

theorem ratio_eq_one_iff {otherwise : ℚ} (notAll : otherwise ≠ 1) :
    ratio wanted held otherwise = 1 ↔
      wanted ≠ [] ∧ ∀ name ∈ wanted, name ∈ held := by
  unfold ratio
  dsimp only
  by_cases nothing : wanted.toFinset.card = 0
  · have empty : wanted = [] := by
      rwa [Finset.card_eq_zero, List.toFinset_eq_empty_iff] at nothing
    rw [if_pos nothing]
    exact iff_of_false notAll (fun both => both.1 empty)
  · have some : wanted ≠ [] := by
      rwa [Finset.card_eq_zero, List.toFinset_eq_empty_iff] at nothing
    have positive : (wanted.toFinset.card : ℚ) ≠ 0 := by
      exact_mod_cast nothing
    have subset :
        wanted.toFinset ∩ held.toFinset = wanted.toFinset ↔
          ∀ name ∈ wanted, name ∈ held := by
      rw [Finset.inter_eq_left]
      simp [Finset.subset_iff]
    rw [if_neg nothing, div_eq_one_iff_eq positive, Nat.cast_inj,
      ← subset]
    constructor
    · intro sameCard
      exact ⟨some, Finset.eq_of_subset_of_card_le Finset.inter_subset_left
        sameCard.ge⟩
    · intro both
      rw [both.2]

theorem ratio_mono
    (subset : ∀ name ∈ held, name ∈ more) (otherwise : ℚ) :
    ratio wanted held otherwise ≤ ratio wanted more otherwise := by
  unfold ratio
  dsimp only
  split
  · exact le_rfl
  · have fewer :
        (wanted.toFinset ∩ held.toFinset).card ≤
          (wanted.toFinset ∩ more.toFinset).card := by
      apply Finset.card_le_card
      apply Finset.inter_subset_inter_left
      intro name member
      rw [List.mem_toFinset] at member ⊢
      exact subset name member
    have fewerCast :
        ((wanted.toFinset ∩ held.toFinset).card : ℚ) ≤
          (wanted.toFinset ∩ more.toFinset).card := by
      exact_mod_cast fewer
    gcongr

end Ratios

/-- The agents differ in the list of capabilities only, where the second has
one more. -/
structure Enriched (agent richer : Fields) : Prop where
  others : ∀ name, name ≠ "capabilities" →
    richer.get name = agent.get name
  capabilities :
    (agent.get "capabilities" = .null ∧
        ∃ added, richer.get "capabilities" = .list [added]) ∨
      ∃ before after added,
        agent.get "capabilities" = .list (before ++ after) ∧
          richer.get "capabilities" = .list (before ++ added :: after)

section Enriching

variable {env : ScoringEnv} {agent richer : Fields}

theorem Enriched.heldNames_subset
    (enriched : Enriched agent richer) :
    ∀ name ∈ heldNames env agent, name ∈ heldNames env richer := by
  intro name member
  unfold heldNames at member ⊢
  rcases enriched.capabilities with
    ⟨absent, _⟩ | ⟨before, after, added, old, new⟩
  · rw [absent] at member
    cases member
  · rw [old] at member
    rw [new]
    simp only [asList, List.map_append, List.filter_append,
      List.mem_append, List.map_cons] at member ⊢
    rcases member with first | second
    · exact Or.inl first
    · refine Or.inr ?_
      rw [List.filter_cons]
      split
      · exact List.mem_cons_of_mem _ second
      · exact second

theorem Enriched.capabilityPart_le
    (enriched : Enriched agent richer) (spec : TaskSpec) :
    capabilityPart env agent spec ≤ capabilityPart env richer spec := by
  have expanded : ∀ name,
      name ∈ expandCapabilities env.python env.hierarchy
          (heldNames env agent) →
        name ∈ expandCapabilities env.python env.hierarchy
          (heldNames env richer) := by
    intro name member
    rw [mem_expandCapabilities_iff] at member ⊢
    obtain ⟨held, isHeld, leads⟩ := member
    exact ⟨held, enriched.heldNames_subset held isHeld, leads⟩
  have grows := ratio_mono spec.requiredCapabilities expanded (1 / 2)
  unfold capabilityPart
  gcongr

theorem Enriched.otherParts_eq
    (enriched : Enriched agent richer) (spec : TaskSpec) :
    otherParts env richer spec = otherParts env agent spec := by
  unfold otherParts isPreferred
  rw [enriched.others "tags" (by decide),
    enriched.others "policy" (by decide),
    enriched.others "status" (by decide),
    enriched.others "agent_id" (by decide)]

theorem Enriched.policyFactor_eq
    (enriched : Enriched agent richer) :
    policyFactor env richer = policyFactor env agent := by
  unfold policyFactor
  rw [enriched.others "policy" (by decide)]

theorem policyShare_nonneg (policy : Fields) (part name : String) :
    0 ≤ policyShare policy part name := by
  unfold policyShare
  split
  · exact low_le_clamp _ _ _
  · exact zero_le_one

theorem policyFactor_nonneg (env : ScoringEnv) (agent : Fields) :
    0 ≤ policyFactor env agent := by
  have low := low_le_clamp env.policyWeight 0 1
  have high := clamp_le_high env.policyWeight (zero_le_one' ℚ)
  have fresh := policyShare_nonneg (dictOrEmpty (agent.get "policy"))
    "freshness" "score"
  have decay := policyShare_nonneg (dictOrEmpty (agent.get "policy"))
    "decay" "factor"
  unfold policyFactor
  dsimp only
  have share := mul_nonneg low (mul_nonneg fresh decay)
  linarith

/-- One more capability never lowers the score. -/
theorem Enriched.score_le
    (enriched : Enriched agent richer) {spec : TaskSpec} {score : ℚ}
    (scores : scoreAgentForTask env agent spec = .ok score) :
    ∃ higher, scoreAgentForTask env richer spec = .ok higher ∧
      score ≤ higher := by
  rw [scoreAgentForTask_eq, bind_eq_ok] at scores
  obtain ⟨others, isOthers, scores⟩ := scores
  cases scores
  rw [scoreAgentForTask_eq, enriched.otherParts_eq, isOthers,
    enriched.policyFactor_eq]
  refine ⟨_, rfl, ?_⟩
  apply clamp_mono
  have part :
      capabilityPart env agent spec ≤ capabilityPart env richer spec :=
    enriched.capabilityPart_le spec
  exact mul_le_mul_of_nonneg_right (by linarith)
    (policyFactor_nonneg env agent)

/-- Nor does it lower the value. -/
theorem Enriched.capabilityValue_le
    (enriched : Enriched agent richer) {numbers : PyNumbers}
    {spec : TaskSpec} {value : ℚ}
    (values : capabilityValue env numbers agent spec = .ok value) :
    ∃ higher, capabilityValue env numbers richer spec = .ok higher ∧
      value ≤ higher := by
  unfold capabilityValue at values ⊢
  rw [enriched.others "metadata" (by decide)]
  split at values
  · rw [bind_eq_ok] at values
    obtain ⟨score, scores, values⟩ := values
    cases values
    obtain ⟨higher, scoresHigher, le⟩ := enriched.score_le scores
    rw [scoresHigher]
    exact ⟨_, rfl, clamp_mono (by linarith) _ _⟩
  · exact ⟨value, values, le_rfl⟩

end Enriching

/-- For every agent and spec: an agent that holds all that is required, as it
is written, gets the full part exactly when something is required and each
name is recognised; and one more capability in the list of an agent lowers
neither its score nor its value. -/
theorem holding_counts_iff
    (env : ScoringEnv) (numbers : PyNumbers) (agent : Fields)
    (spec : TaskSpec) :
    ((HoldsAll env agent spec → capabilityPart env agent spec = 6 / 10) ↔
      (HoldsAll env agent spec → spec.requiredCapabilities ≠ [] ∧
        ∀ name ∈ spec.requiredCapabilities,
          Recognised env agent name)) ∧
    ∀ richer, Enriched agent richer →
      (∀ score, scoreAgentForTask env agent spec = .ok score →
        ∃ higher, scoreAgentForTask env richer spec = .ok higher ∧
          score ≤ higher) ∧
      ∀ value, capabilityValue env numbers agent spec = .ok value →
        ∃ higher, capabilityValue env numbers richer spec = .ok higher ∧
          value ≤ higher := by
  constructor
  · refine forall_congr' fun _ => ?_
    have full :
        capabilityPart env agent spec = 6 / 10 ↔
          ratio spec.requiredCapabilities
            (expandCapabilities env.python env.hierarchy
              (heldNames env agent)) (1 / 2) = 1 := by
      unfold capabilityPart
      constructor
      · intro isFull
        linarith
      · intro isOne
        rw [isOne, mul_one]
    rw [full, ratio_eq_one_iff _ (by norm_num)]
    simp only [mem_expandCapabilities_iff]
  · intro richer enriched
    exact ⟨fun _ => enriched.score_le,
      fun _ => enriched.capabilityValue_le⟩

/-- An agent that holds exactly this name. -/
def holderOf (name : String) : Fields :=
  [("agent_id", .str "anna"), ("capabilities", .list [.str name])]

def lowerText (text : String) : String :=
  String.ofList (PyText.lowerChars text.toList)

def plainScoring : ScoringEnv where
  python := { plainPython with lower := lowerText }

def needsCapability (name : String) : TaskSpec where
  taskId := "t1"
  requiredCapabilities := [name]

theorem lower_case_counts :
    capabilityPart plainScoring (holderOf "sql") (needsCapability "sql") =
      6 / 10 := by
  refine
    (holding_counts_iff plainScoring ⟨fun _ => none, fun _ => none⟩
      (holderOf "sql") (needsCapability "sql")).1.mpr ?_ ?_
  · intro _
    refine ⟨by decide, ?_⟩
    intro name member
    rw [List.mem_singleton.mp member]
    exact ⟨"sql", by decide +kernel, Or.inl (by decide +kernel)⟩
  · unfold HoldsAll
    decide +kernel

/-- The agent holds the capability as the spec writes it, but in capitals. -/
theorem capitals_not_recognised :
    HoldsAll plainScoring (holderOf "SQL") (needsCapability "SQL") ∧
      capabilityPart plainScoring (holderOf "SQL")
        (needsCapability "SQL") = 0 := by
  constructor
  · unfold HoldsAll
    decide +kernel
  · decide +kernel

end Agentcy.Cnp
