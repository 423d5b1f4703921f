import Agentcy.Agents.AgentUtils
import Agentcy.Pheromones.Engine

/-!
# The path seeder

Every task gets a first marker for the agent that fits it best, as strong as
the score of the agent is high, or one for the system if no agent is known.
-/

namespace Agentcy.Pheromones

open Agentcy.Agents
open Agentcy.Cnp (TaskSpec)
open Agentcy.Forwarder
open Agentcy.Library

structure SeederEnv where
  scoring : ScoringEnv
  agents : List Fields := []

/-- The agent of a seeded marker and its intensity. -/
def seedOf (env : SeederEnv) (spec : TaskSpec) :
    Except PyError (String × ℚ) := do
  let order ← rankAgentsForTask env.scoring env.agents spec (some 1)
  return match order.head? with
  | some (agent, score) =>
      ((agent.get "agent_id").pyStr env.scoring.python, score)
  | none => ("system", 1 / 2)

/-- The body of the loop; a spec comes with the id of its marker. -/
def seedSpec
    (env : SeederEnv) (username : String) (markers : Markers)
    (item : TaskSpec × String) : Except PyError Markers := do
  let (agentId, intensity) ← seedOf env item.1
  let marker ←
    validMarker
      { markerId := item.2
        taskId := item.1.taskId
        agentId := agentId
        capability := item.1.requiredCapabilities.head?
        intensity := intensity
        rationale := some "path_seed" }
  return addAffordanceMarker markers username marker

/-- One run of the seeder. -/
def runSeeder
    (env : SeederEnv) (username : String) (markers : Markers)
    (specs : List (TaskSpec × String)) : Markers × Option PyError :=
  runUntilError (seedSpec env username) markers specs

theorem seedOf_mem
    {env : SeederEnv} {spec : TaskSpec} {agentId : String} {intensity : ℚ}
    (seeds : seedOf env spec = .ok (agentId, intensity)) :
    0 ≤ intensity ∧ intensity ≤ 1 := by
  unfold seedOf at seeds
  obtain ⟨order, ranks, chosen⟩ := bind_eq_ok.mp seeds
  have pair := (pure_eq_ok _ _).mp chosen
  cases order with
  | nil =>
      obtain rfl : 1 / 2 = intensity := congrArg Prod.snd pair
      norm_num
  | cons first rest =>
      obtain rfl : first.2 = intensity := congrArg Prod.snd pair
      exact
        scoreAgentForTask_mem
          (mem_rankAgentsForTask ranks List.mem_cons_self)

end Agentcy.Pheromones
