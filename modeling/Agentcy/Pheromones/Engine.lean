import Agentcy.Cnp.Feedback
import Agentcy.Forwarder.Pheromones
import Agentcy.Library.Ranking

/-!
# The pheromone engine

Every run of the engine either goes over the feedback that it is given, or
lets the markers of the user decay.  An entry of the feedback raises or lowers
the intensity of the strongest marker of the agent for the task, and a
reported failure leaves its context there.
-/

namespace Agentcy.Pheromones

open Agentcy.Cnp
open Agentcy.Forwarder
open Agentcy.Library
open Agentcy.Plans (orElse)

/-- The environment of the engine.  `toFloat` is `float(value)`, without a
result where that raises. -/
structure EngineEnv where
  enabled : Bool := true
  python : PyBuiltins
  toFloat : Json → Option ℚ
  minIntensity : ℚ := 0
  maxIntensity : ℚ := 1
  decayFactor : ℚ := 9 / 10
  decayLimit : Int := 250
  successBonus : ℚ := 1 / 10
  failurePenalty : ℚ := 1 / 5
  order : QueryOrder AffordanceMarker

def errorCategoryKeywords : List (String × List String) :=
  [("timeout",
      ["timeout", "timed out", "deadline exceeded", "deadline_exceeded"]),
    ("validation",
      ["validation", "invalid", "schema", "pydantic", "value error",
        "valueerror"]),
    ("runtime",
      ["runtime", "assertion", "index error", "key error",
        "attribute error"]),
    ("connection",
      ["connection", "refused", "unreachable", "dns", "socket"]),
    ("resource",
      ["oom", "out of memory", "disk full", "quota",
        "resource exhausted"]),
    ("permission",
      ["permission", "forbidden", "unauthorized", "403", "401"])]

def contains (text keyword : String) : Bool :=
  decide (keyword.toList <:+: text.toList)

/-- `_classify_error`. -/
def classifyError (python : PyBuiltins) (error : Option String) : String :=
  match error.filter (· ≠ "") with
  | none => "unknown"
  | some error =>
      let lowered := python.lower error
      let found := errorCategoryKeywords.find? fun category =>
        category.2.any (contains lowered)
      (found.map Prod.fst).getD "unknown"

/-- `_build_failure_context`.  Failures of one kind in a row are counted. -/
def buildFailureContext
    (python : PyBuiltins) (entry : Fields) (taskType : Json)
    (existing : Option AffordanceMarker) : Option FailureContext :=
  match reportedSuccess python entry with
  | some false =>
      let errorRaw :=
        orElse
          (orElse (orElse (entry.get "error") (entry.get "error_message"))
            (entry.get "reason"))
          (.str "")
      let errorText :=
        if errorRaw.truthy then some (errorRaw.pyStr python) else none
      let category := classifyError python errorText
      let resolved :=
        orElse
          (orElse (orElse taskType (entry.get "task_type"))
            (entry.get "capability"))
          (.str "general")
      let previous :=
        match existing.bind AffordanceMarker.failureContext with
        | none => 0
        | some context =>
            if (Json.str context.taskType).pyEq resolved ∧
                context.errorCategory = some category then
              context.count
            else 0
      some
        { taskType := resolved.pyStr python
          errorCategory := some category
          count := previous + 1
          lastError :=
            errorText.map fun text =>
              String.ofList (text.toList.take 200) }
  | _ => none

/-- The strongest marker, unless it is not a valid one. -/
def selectMarker (listed : List AffordanceMarker) :
    Option AffordanceMarker :=
  let strongestFirst := ranked AffordanceMarker.intensity listed
  strongestFirst.head?.filter fun marker => decide (0 ≤ marker.intensity)

/-- A new marker is only made with an intensity that is not negative. -/
def validMarker (marker : AffordanceMarker) :
    Except PyError AffordanceMarker :=
  if 0 ≤ marker.intensity then .ok marker else .error .valueError

def optionalText : Json → Except PyError (Option String)
  | .null => .ok none
  | .str text => .ok (some text)
  | _ => .error .valueError

section Feedback

variable (env : EngineEnv) (username : String)
  (specs : OrderedMap String TaskSpec)

/-- `_coerce_float` without a default. -/
def coerceFloat : Json → Option ℚ
  | .null => none
  | value => env.toFloat value

/-- What the entry adds to the intensity. -/
def feedbackDelta (entry : Fields) : ℚ :=
  let delta := (coerceFloat env (entry.get "intensity_delta")).getD 0
  match reportedSuccess env.python entry with
  | some true => delta + env.successBonus
  | some false => delta - env.failurePenalty
  | none => delta

def feedbackIntensity
    (entry : Fields) (marker : Option AffordanceMarker) : ℚ :=
  let base :=
    match coerceFloat env (entry.get "intensity"), marker with
    | some given, _ => given
    | none, some marker => marker.intensity
    | none, none => 1 / 2
  min (max (base + feedbackDelta env entry) env.minIntensity)
    env.maxIntensity

/-- The task type of an entry, or else that of the spec of its task. -/
def resolvedTaskType (entry : Fields) (taskId : String) : Json :=
  match orElse (entry.get "task_type") (entry.get "capability") with
  | .null =>
      match (specs.get? taskId).bind fun spec =>
          spec.requiredCapabilities.head? with
      | some capability => .str capability
      | none => .null
  | value => value

/-- The marker that an entry leaves, with a new one if there was none.  Only
a new one is validated. -/
def markedByFeedback
    (entry : Fields) (ids : EntryIds) (markerId : String)
    (marker : Option AffordanceMarker) :
    Except PyError AffordanceMarker := do
  let intensity := feedbackIntensity env entry marker
  let taskType := resolvedTaskType specs entry ids.taskId
  let context := buildFailureContext env.python entry taskType marker
  match marker with
  | none =>
      let capability ←
        optionalText (unlessNone (entry.get "capability") taskType)
      validMarker
        { markerId := markerId
          taskId := ids.taskId
          agentId := ids.agentId
          capability := capability
          intensity := intensity
          rationale := some "pheromone_feedback"
          failureContext := context }
  | some marker =>
      let cleared := decide (countedSuccess env.python entry = some true)
      return {
        marker with
        intensity := intensity
        rationale := some "pheromone_feedback"
        failureContext :=
          if context.isSome then context
          else if cleared then none
          else marker.failureContext }

/-- The body of the loop of `_apply_feedback`; an entry comes with the id of
the marker that it may make. -/
def applyEntry (markers : Markers) (item : Fields × String) :
    Except PyError Markers :=
  match entryIds? env.python item.1 with
  | none => .ok markers
  | some ids => do
      let existing :=
        listAffordanceMarkers env.order markers username
          (some ids.taskId) (some ids.agentId)
      let marker ←
        markedByFeedback env specs item.1 ids item.2
          (selectMarker existing)
      return addAffordanceMarker markers username marker

/-- `_apply_feedback`: an entry that raises ends it. -/
def applyFeedback (markers : Markers) (feedback : List (Fields × String)) :
    Markers × Option PyError :=
  runUntilError (applyEntry env username specs) markers feedback

end Feedback

/-! ## Decay -/

/-- `items[:limit]`. -/
def sliceTo {α : Type} (limit : Int) (items : List α) : List α :=
  if 0 ≤ limit then items.take limit.toNat
  else items.take (items.length - limit.natAbs)

def decayedIntensity (env : EngineEnv) (marker : AffordanceMarker) : ℚ :=
  max env.minIntensity (marker.intensity * env.decayFactor)

/-- The body of the loop of `_decay_markers`. -/
def decayMarker
    (env : EngineEnv) (username : String) (markers : Markers)
    (marker : AffordanceMarker) : Markers :=
  let intensity := decayedIntensity env marker
  if marker.intensity < 0 ∨
      |intensity - marker.intensity| < 1 / 1000000 then
    markers
  else
    addAffordanceMarker markers username
      { marker with intensity := intensity }

/-- `_decay_markers`. -/
def decayMarkers
    (env : EngineEnv) (username : String) (markers : Markers) : Markers :=
  let listed := listAffordanceMarkers env.order markers username none none
  (sliceTo env.decayLimit listed).foldl (decayMarker env username) markers

/-- One run of the engine. -/
def runEngine
    (env : EngineEnv) (username : String)
    (specs : OrderedMap String TaskSpec) (markers : Markers)
    (feedback : List (Fields × String)) : Markers × Option PyError :=
  if ¬ env.enabled then (markers, none)
  else if feedback = [] then (decayMarkers env username markers, none)
  else applyFeedback env username specs markers feedback

end Agentcy.Pheromones
