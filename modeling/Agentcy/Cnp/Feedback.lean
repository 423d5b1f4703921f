import Agentcy.Cnp.AgentLoad
import Agentcy.Plans.SystemExecutor

/-!
# Execution feedback

Feedback entries are dicts.  Whether an entry reports a success or a failure
stands in its `success`, `status` or `outcome`.  The markers are updated by the
first of these that is there; the registry by the first that is true, so that
an entry whose `success` is `False` depends on the other two.
-/

namespace Agentcy.Cnp

open Agentcy.Library
open Agentcy.Plans (orElse ExecutionOutcome ExecutionReport)

/-- `_coerce_success`. -/
def coerceSuccess (python : PyBuiltins) : Json → Option Bool
  | .bool value => some value
  | .null => none
  | value =>
      let lowered := python.lower (PyText.strip (value.pyStr python))
      if lowered ∈
          ["success", "succeeded", "completed", "ok", "true", "passed"] then
        some true
      else if lowered ∈ ["failed", "error", "false", "no", "rejected"] then
        some false
      else none

/-- `second` if `first` is `None`. -/
def unlessNone (first second : Json) : Json :=
  match first with
  | .null => second
  | value => value

/-- The outcome that an entry reports, as `_apply_feedback` reads it: an
explicit `False` counts. -/
def reportedSuccess (python : PyBuiltins) (entry : Fields) : Option Bool :=
  coerceSuccess python
    (unlessNone (unlessNone (entry.get "success") (entry.get "status"))
      (entry.get "outcome"))

/-- The outcome that `_update_agent_registry` reads, through `or`. -/
def countedSuccess (python : PyBuiltins) (entry : Fields) : Option Bool :=
  coerceSuccess python
    (orElse (orElse (entry.get "success") (entry.get "status"))
      (entry.get "outcome"))

structure EntryIds where
  agentId : String
  taskId : String

/-- The agent and the task of an entry, if it names both. -/
def entryIds? (python : PyBuiltins) (entry : Fields) : Option EntryIds :=
  let agentId := orElse (entry.get "agent_id") (entry.get "assigned_agent")
  let taskId := entry.get "task_id"
  if agentId.truthy && taskId.truthy then
    some ⟨agentId.pyStr python, taskId.pyStr python⟩
  else none

/-- The body of the loop of `_update_agent_registry`; `specs` are the tasks
with a valid specification. -/
def countEntry
    (python : PyBuiltins) (lmaxDefault : Int) (specs : List String)
    (registry : Registry) (entry : Fields) : Registry :=
  match entryIds? python entry with
  | none => registry
  | some ids =>
      if ids.taskId ∉ specs then registry
      else
        match countedSuccess python entry, registry.get? ids.agentId with
        | some success, some doc =>
            registry.set ids.agentId
              (updateCnpMetadata lmaxDefault doc success)
        | _, _ => registry

/-- `_update_agent_registry`. -/
def updateAgentRegistry
    (python : PyBuiltins) (lmaxDefault : Int) (specs : List String)
    (registry : Registry) (feedback : List Fields) : Registry :=
  feedback.foldl (countEntry python lmaxDefault specs) registry

/-- `_feedback_from_execution_report`, for one outcome and its metadata. -/
def feedbackOf (outcome : ExecutionOutcome) (duration : Json)
    (metadata : Fields) : Fields :=
  Fields.update
    [("task_id", .str outcome.taskId), ("agent_id", outcome.agentId),
      ("success", .bool outcome.success), ("duration_seconds", duration),
      ("error", (outcome.error.map Json.str).getD .null)]
    metadata

/-- The entry is counted for the agent: it names the agent and a task with a
specification, and the outcome that is read through `or` is one. -/
def Counted (python : PyBuiltins) (specs : List String) (agent : String)
    (entry : Fields) : Prop :=
  ∃ ids, entryIds? python entry = some ids ∧ ids.agentId = agent ∧
    ids.taskId ∈ specs ∧ countedSuccess python entry ≠ none

theorem get?_countEntry_of_counted
    {python : PyBuiltins} {specs : List String} {agent : String}
    {entry : Fields} (lmaxDefault : Int) (registry : Registry)
    (counted : Counted python specs agent entry) :
    ∃ success,
      (countEntry python lmaxDefault specs registry entry).get? agent =
        (registry.get? agent).map fun doc =>
          updateCnpMetadata lmaxDefault doc success := by
  obtain ⟨ids, named, rfl, known, read⟩ := counted
  obtain ⟨success, reading⟩ := Option.ne_none_iff_exists'.mp read
  refine ⟨success, ?_⟩
  unfold countEntry
  simp only [named, not_not.mpr known, if_false, reading]
  cases found : registry.get? ids.agentId with
  | none =>
      exact found
  | some doc =>
      exact OrderedMap.get?_set_self registry ids.agentId _

theorem get?_countEntry_of_not_counted
    {python : PyBuiltins} {specs : List String} {agent : String}
    {entry : Fields} (lmaxDefault : Int) (registry : Registry)
    (passed : ¬ Counted python specs agent entry) :
    (countEntry python lmaxDefault specs registry entry).get? agent =
      registry.get? agent := by
  unfold countEntry
  split
  · rfl
  · rename_i ids named
    split
    · rfl
    · rename_i known
      split
      · rename_i success doc reading found
        apply OrderedMap.get?_set_other
        intro same
        exact passed
          ⟨ids, named, same.symm, not_not.mp known, by simp [reading]⟩
      · rfl

end Agentcy.Cnp
