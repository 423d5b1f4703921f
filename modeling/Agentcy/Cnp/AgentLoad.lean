import Agentcy.Library.OrderedMap
import Agentcy.Runs.EphemeralStore

/-!
# The counters of registered agents

The registry entry of an agent carries the counters of the contract net: the
tasks that were awarded to the agent, those whose outcome was reported, and its
load.  An award raises the load as far as the maximum, a reported outcome
lowers it as far as zero.
-/

namespace Agentcy.Cnp

open Agentcy.Library

/-- `metadata["cnp"]` of an agent.  A counter is absent until it is first
written. -/
structure CnpCounters where
  tasksReceived : Option Int := none
  tasksAcquired : Option Int := none
  tasksCompleted : Option Int := none
  load : Option Int := none
  maxLoad : Option Int := none

structure AgentDoc where
  cnp : CnpCounters := {}

/-- The registered agents of a user. -/
abbrev Registry := OrderedMap String AgentDoc

/-- The counters as they are read, with their defaults. -/
structure CnpState where
  tasksReceived : Int
  tasksAcquired : Int
  tasksCompleted : Int
  load : Int
  maxLoad : Int

/-- `agent_cnp_state`; `lmaxDefault` is the value of `CNP_LMAX_DEFAULT`. -/
def agentCnpState (lmaxDefault : Int) (doc : AgentDoc) : CnpState where
  tasksReceived := doc.cnp.tasksReceived.getD 0
  tasksAcquired := doc.cnp.tasksAcquired.getD 0
  tasksCompleted := doc.cnp.tasksCompleted.getD 0
  load := doc.cnp.load.getD 0
  maxLoad := doc.cnp.maxLoad.getD lmaxDefault

/-- The counters after an award. -/
def receivedTask (lmaxDefault : Int) (doc : AgentDoc) : AgentDoc :=
  let state := agentCnpState lmaxDefault doc
  { doc with
    cnp :=
      { doc.cnp with
        tasksReceived := some (state.tasksReceived + 1)
        load := some (min (state.load + 1) state.maxLoad)
        maxLoad := some state.maxLoad } }

/-- `_increment_agent_load`. -/
def incrementAgentLoad
    (lmaxDefault : Int) (registry : Registry) (agentId : String) :
    Registry :=
  match registry.get? agentId with
  | none => registry
  | some doc => registry.set agentId (receivedTask lmaxDefault doc)

/-- `update_cnp_metadata`: the counters after a reported outcome. -/
def updateCnpMetadata
    (lmaxDefault : Int) (doc : AgentDoc) (success : Bool) : AgentDoc :=
  let state := agentCnpState lmaxDefault doc
  { doc with
    cnp :=
      { tasksReceived := some state.tasksReceived
        tasksAcquired := some (state.tasksAcquired + 1)
        tasksCompleted :=
          some (state.tasksCompleted + if success then 1 else 0)
        load := some (max (state.load - 1) 0)
        maxLoad := some state.maxLoad } }

/-- The candidate at the cursor of an evaluation sequence. -/
def newCandidate? (sequence : Option Runs.EvaluationSequence) :
    Option Runs.Candidate :=
  sequence.bind fun found => found.candidates[found.currentIndex]?

/-- `handle_reassign_task`, as far as the registry goes: it reads the sequence
of the task, and raises the load of the candidate at its cursor.  The load of
the agent that failed is left as it is. -/
def handleReassignTask
    (lmaxDefault : Int) (registry : Registry)
    (sequence : Option Runs.EvaluationSequence) : Registry :=
  match newCandidate? sequence with
  | none => registry
  | some candidate =>
      incrementAgentLoad lmaxDefault registry candidate.bidderId

section

variable (lmaxDefault : Int) (registry : Registry)

theorem get?_incrementAgentLoad (agent awarded : String) :
    (incrementAgentLoad lmaxDefault registry awarded).get? agent =
      if agent = awarded then
        (registry.get? agent).map (receivedTask lmaxDefault)
      else registry.get? agent := by
  unfold incrementAgentLoad
  by_cases same : agent = awarded
  · subst same
    rw [if_pos rfl]
    cases found : registry.get? agent with
    | none =>
        exact found
    | some doc =>
        exact OrderedMap.get?_set_self registry agent _
  · rw [if_neg same]
    cases registry.get? awarded with
    | none =>
        rfl
    | some doc =>
        exact OrderedMap.get?_set_other registry _ same

end

@[simp]
theorem receivedTask_load (lmaxDefault : Int) (doc : AgentDoc) :
    (agentCnpState lmaxDefault (receivedTask lmaxDefault doc)).load =
      min ((agentCnpState lmaxDefault doc).load + 1)
        (agentCnpState lmaxDefault doc).maxLoad :=
  rfl

@[simp]
theorem receivedTask_maxLoad (lmaxDefault : Int) (doc : AgentDoc) :
    (agentCnpState lmaxDefault (receivedTask lmaxDefault doc)).maxLoad =
      (agentCnpState lmaxDefault doc).maxLoad :=
  rfl

@[simp]
theorem updateCnpMetadata_load
    (lmaxDefault : Int) (doc : AgentDoc) (success : Bool) :
    (agentCnpState lmaxDefault
        (updateCnpMetadata lmaxDefault doc success)).load =
      max ((agentCnpState lmaxDefault doc).load - 1) 0 :=
  rfl

@[simp]
theorem updateCnpMetadata_maxLoad
    (lmaxDefault : Int) (doc : AgentDoc) (success : Bool) :
    (agentCnpState lmaxDefault
        (updateCnpMetadata lmaxDefault doc success)).maxLoad =
      (agentCnpState lmaxDefault doc).maxLoad :=
  rfl

end Agentcy.Cnp
