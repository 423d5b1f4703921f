import Mathlib.Data.Finset.Card
import Mathlib.Tactic.Linarith
import Agentcy.Agents.CapabilityTaxonomy
import Agentcy.Cnp.CnpStore
import Agentcy.Library.Clamp
import Agentcy.Library.Ranking
import Agentcy.Plans.SystemExecutor

/-!
# How well an agent fits a task

The score of an agent for a task weighs the required capabilities that the
agent has, the tags that it shares with the task, and its status.  Documents
of agents are dicts whose fields may hold anything, so that a score may not
come about; one that does lies between zero and one.
-/

namespace Agentcy.Agents

open Agentcy.Cnp (TaskSpec)
open Agentcy.Library
open Agentcy.Plans (orElse)

/-- What the score depends on besides the agent and the task.  `policyWeight`
is the value of `AGENT_REGISTRY_POLICY_WEIGHT`. -/
structure ScoringEnv where
  python : PyBuiltins
  hierarchy : Hierarchy := .empty
  policyWeight : ℚ := 1 / 4

/-- `_as_list`. -/
def asList (python : PyBuiltins) : Json → List String
  | .null => []
  | .list items =>
      (items.map fun item => PyText.strip (item.pyStr python)).filter
        (· ≠ "")
  | value => [PyText.strip (value.pyStr python)].filter (· ≠ "")

/-- A value if it is a dict, and the empty dict otherwise. -/
def dictOrEmpty : Json → Fields
  | .dict fields => fields
  | _ => []

/-- The policy of an agent, which may also stand in its metadata. -/
def policyOf (doc : Fields) : Fields :=
  match doc.get "policy" with
  | .dict policy => policy
  | _ => dictOrEmpty ((dictOrEmpty (doc.get "metadata")).get "policy")

def normalizeAgent (python : PyBuiltins) (doc : Fields) : Fields :=
  [("agent_id",
      orElse (orElse (doc.get "agent_id") (doc.get "id"))
        (doc.get "name")),
    ("service_name", doc.get "service_name"),
    ("capabilities",
      .list ((asList python (doc.get "capabilities")).map .str)),
    ("tags", .list ((asList python (doc.get "tags")).map .str)),
    ("status", doc.get "status"),
    ("metadata", orElse (doc.get "metadata") (.dict [])),
    ("policy", .dict (policyOf doc))]

/-- `_status_weight`. -/
def statusWeight (python : PyBuiltins) (status : Json) :
    Except PyError ℚ :=
  match orElse status (.str "") with
  | .str text =>
      let status := python.lower text
      if status = "idle" then .ok 1
      else if status = "online" then .ok (3 / 4)
      else if status = "busy" then .ok (2 / 5)
      else if status = "unhealthy" ∨ status = "offline" then .ok 0
      else .ok (1 / 2)
  | _ => .error .attributeError

/-- The number behind an instance of `int` or `float`. -/
def number? : Json → Option ℚ
  | .bool value => some (if value then 1 else 0)
  | .int value => some value
  | .float value => some value
  | _ => none

/-- What a number in a section of the policy contributes. -/
def policyShare (policy : Fields) (part name : String) : ℚ :=
  match number? ((dictOrEmpty (policy.get part)).get name) with
  | some share => clamp share 0 1
  | none => 1

/-- `_policy_factor`. -/
def policyFactor (env : ScoringEnv) (agent : Fields) : ℚ :=
  let policy := dictOrEmpty (agent.get "policy")
  let factor :=
    policyShare policy "freshness" "score" *
      policyShare policy "decay" "factor"
  let weight := clamp env.policyWeight 0 1
  (1 - weight) + weight * factor

/-- The part of `wanted` that is among `held`, or `otherwise` if nothing is
wanted. -/
def ratio (wanted held : List String) (otherwise : ℚ) : ℚ :=
  let distinct := wanted.toFinset
  if distinct.card = 0 then otherwise
  else (distinct ∩ held.toFinset).card / distinct.card

/-- Whether the spec prefers the agent.  To look a list or a dict up in a set
raises. -/
def isPreferred
    (python : PyBuiltins) (agent : Fields) (spec : TaskSpec) :
    Except PyError Bool :=
  match asList python (spec.metadata.get "preferred_agents") with
  | [] => .ok false
  | preferred => do
      let key ← (agent.get "agent_id").hash
      return decide (∃ name ∈ preferred, key = .str name)

def scoreAgentForTask
    (env : ScoringEnv) (agent : Fields) (spec : TaskSpec) :
    Except PyError ℚ := do
  let capabilities :=
    expandCapabilities env.python env.hierarchy
      (asList env.python (agent.get "capabilities"))
  let requiredRatio :=
    ratio spec.requiredCapabilities capabilities (1 / 2)
  let tagRatio :=
    ratio spec.tags (asList env.python (agent.get "tags")) 0
  let policy := dictOrEmpty (agent.get "policy")
  let weight ←
    statusWeight env.python
      (orElse (policy.get "effective_status") (agent.get "status"))
  let preferred ← isPreferred env.python agent spec
  let score :=
    6 / 10 * requiredRatio + 2 / 10 * tagRatio + 2 / 10 * weight +
      (if preferred then 1 / 10 else 0)
  return clamp (score * policyFactor env agent) 0 1

/-- A limit that is falsy is no limit. -/
def rankAgentsForTask
    (env : ScoringEnv) (agents : List Fields) (spec : TaskSpec)
    (limit : Option Nat) : Except PyError (List (Fields × ℚ)) := do
  let known :=
    (agents.map (normalizeAgent env.python)).filter fun agent =>
      (agent.get "agent_id").truthy
  let scored ← known.mapM fun agent => do
    return (agent, ← scoreAgentForTask env agent spec)
  let order := ranked Prod.snd scored
  return match limit with
  | none | some 0 => order
  | some limit => order.take limit

theorem scoreAgentForTask_mem
    {env : ScoringEnv} {agent : Fields} {spec : TaskSpec} {score : ℚ}
    (scores : scoreAgentForTask env agent spec = .ok score) :
    0 ≤ score ∧ score ≤ 1 := by
  unfold scoreAgentForTask at scores
  obtain ⟨weight, _, scores⟩ := bind_eq_ok.mp scores
  obtain ⟨preferred, _, scores⟩ := bind_eq_ok.mp scores
  obtain rfl := (pure_eq_ok _ _).mp scores
  exact ⟨low_le_clamp _ _ _, clamp_le_high _ zero_le_one⟩

theorem mem_rankAgentsForTask
    {env : ScoringEnv} {agents : List Fields} {spec : TaskSpec}
    {limit : Option Nat} {order : List (Fields × ℚ)}
    (ranks : rankAgentsForTask env agents spec limit = .ok order)
    {entry : Fields × ℚ} (member : entry ∈ order) :
    scoreAgentForTask env entry.1 spec = .ok entry.2 := by
  unfold rankAgentsForTask at ranks
  obtain ⟨scored, every, ranks⟩ := bind_eq_ok.mp ranks
  obtain rfl := (pure_eq_ok _ _).mp ranks
  have inScored : entry ∈ scored := by
    apply
      (List.mem_insertionSort fun first second : Fields × ℚ =>
        second.2 ≤ first.2).mp
    cases limit with
    | none =>
        exact member
    | some limit =>
        cases limit with
        | zero =>
            exact member
        | succ limit =>
            exact List.mem_of_mem_take member
  obtain ⟨agent, _, pairs⟩ := exists_of_mem_mapM every inScored
  obtain ⟨score, scores, same⟩ := bind_eq_ok.mp pairs
  obtain rfl := (pure_eq_ok _ _).mp same
  exact scores

end Agentcy.Agents
