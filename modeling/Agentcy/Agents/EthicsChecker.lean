import Mathlib.Data.List.DropRight
import Agentcy.Cnp.CnpStore
import Agentcy.Library.PyText
import Agentcy.Pheromones.Engine
import Agentcy.Plans.SystemExecutor

/-!
# The ethics checker

A plan is judged by rules or by a language model.  The verdict is stored with
the action that follows from it, and the system executor reads from the stored
check whether the plan may run.
-/

namespace Agentcy.Agents

open Agentcy.Cnp (RiskLevel TaskSpec)
open Agentcy.Library
open Agentcy.Pheromones (contains)
open Agentcy.Plans

inductive EthicsPolicySeverity where
  | block
  | warn
  | info
  deriving DecidableEq

/-- `EthicsPolicySeverity(text)`. -/
def severityOf : String → Except PyError EthicsPolicySeverity
  | "block" => .ok .block
  | "warn" => .ok .warn
  | "info" => .ok .info
  | _ => .error .valueError

structure EthicsRule where
  ruleId : String
  name : String
  severity : EthicsPolicySeverity := .block
  category : String := "general"
  keywords : List String := []
  enabled : Bool := true

/-- A tenant's policy, whose limit is between 0 and 10. -/
structure EthicsPolicy where
  policyId : String
  rules : List EthicsRule := []
  maxReEvaluations : Fin 11 := 2

structure EthicsPolicyConfig where
  enableCompanyRules : Bool := false
  defaultDestructiveKeywords : List String :=
    ["delete", "remove", "drop", "truncate", "destroy", "wipe"]
  defaultPiiKeywords : List String :=
    ["ssn", "social security", "credit card", "password", "secret"]
  defaultBiasKeywords : List String :=
    ["discriminate", "exclude", "blacklist", "whitelist"]
  defaultHallucinationKeywords : List String :=
    ["assume", "fabricate", "invent", "guess"]
  maxReEvaluations : Fin 11 := 2

structure PolicyViolation where
  ruleId : String
  ruleName : String
  severity : EthicsPolicySeverity
  category : String
  taskId : Option String := none
  detail : String

/-- What a check decides: `approved`, `issues`, `notes` and `violations`. -/
structure Verdict where
  approved : Bool
  issues : List String
  notes : Option String
  violations : List PolicyViolation

/-- `_load_effective_policy`, where `stored` is the active policy. -/
def effectivePolicy
    (config : EthicsPolicyConfig) (stored : Option EthicsPolicy) :
    Option EthicsPolicy :=
  if config.enableCompanyRules then stored else none

def defaultRules (config : EthicsPolicyConfig) : List EthicsRule :=
  [{ ruleId := "default_destructive"
     name := "Destructive Operations"
     category := "destructive"
     severity := .block
     keywords := config.defaultDestructiveKeywords },
    { ruleId := "default_pii"
      name := "PII Exposure"
      category := "pii"
      severity := .block
      keywords := config.defaultPiiKeywords },
    { ruleId := "default_bias"
      name := "Unfair Bias"
      category := "bias"
      severity := .warn
      keywords := config.defaultBiasKeywords },
    { ruleId := "default_hallucination"
      name := "Hallucination Risk"
      category := "hallucination"
      severity := .warn
      keywords := config.defaultHallucinationKeywords }]

/-- `_build_keyword_rules`. -/
def buildKeywordRules
    (policy : Option EthicsPolicy) (config : EthicsPolicyConfig) :
    List EthicsRule :=
  match policy with
  | some policy =>
      if policy.rules.isEmpty then defaultRules config
      else policy.rules.filter fun rule =>
        rule.enabled && !rule.keywords.isEmpty
  | none => defaultRules config

/-- A high-risk task that needs no human approval. -/
def riskyWithoutApproval (spec : TaskSpec) : Bool :=
  decide (spec.riskLevel = .high) && !spec.requiresHumanApproval

def riskViolation (spec : TaskSpec) : PolicyViolation :=
  { ruleId := "builtin_high_risk"
    ruleName := "High Risk Without Approval"
    severity := .block
    category := "safety"
    taskId := some spec.taskId
    detail := "High-risk task '" ++ spec.taskId ++
      "' lacks human approval requirement" }

/-- `fields.get(name, default)`. -/
def getOr (fields : Fields) (name : String) (default : Json) : Json :=
  (OrderedMap.lookupEntries name fields).getD default

/-- A value for a field of type `Optional[str]`. -/
def optionalText : Json → Except PyError (Option String)
  | .null => .ok none
  | .str text => .ok (some text)
  | _ => .error .valueError

section Rules

variable (python : PyBuiltins)

def taskDescription (task : Fields) : String :=
  python.lower ((getOr task "description" (.str "")).pyStr python)

/-- The first keyword of the rule in the description of the task. -/
def matchedKeyword (task : Fields) (rule : EthicsRule) : Option String :=
  rule.keywords.find? fun keyword =>
    contains (taskDescription python task) (python.lower keyword)

def keywordViolation
    (task : Fields) (rule : EthicsRule) (keyword : String) :
    Except PyError PolicyViolation := do
  let taskId := getOr task "task_id" (.str "unknown")
  return {
    ruleId := rule.ruleId
    ruleName := rule.name
    severity := rule.severity
    category := rule.category
    taskId := ← optionalText taskId
    detail := "Task '" ++ taskId.pyStr python ++ "': " ++ rule.name ++
      " (" ++ keyword ++ ")" }

/-- One violation for each rule that matches the task. -/
def taskViolations (rules : List EthicsRule) (task : Json) :
    Except PyError (List PolicyViolation) := do
  let fields ← task.fields
  let hits := rules.filterMap fun rule =>
    (matchedKeyword python fields rule).map fun keyword =>
      (rule, keyword)
  hits.mapM fun hit => keywordViolation python fields hit.1 hit.2

/-- `_stub_ethics_check`; the issues are the details of the violations. -/
def stubEthicsCheck
    (policy : Option EthicsPolicy) (config : EthicsPolicyConfig)
    (tasks : List Json) (specs : List TaskSpec) :
    Except PyError Verdict := do
  let found ←
    tasks.mapM (taskViolations python (buildKeywordRules policy config))
  let violations :=
    (specs.filter riskyWithoutApproval).map riskViolation ++ found.flatten
  let hasBlocking := violations.any fun v => decide (v.severity = .block)
  let approved := !hasBlocking
  return {
    approved
    issues := violations.map PolicyViolation.detail
    notes :=
      if approved then some "Rule-based ethics check (LLM unavailable)"
      else none
    violations }

/-- `_extract_json`: from the first opening brace to the last closing one,
which leaves text alone that starts and ends with them. -/
def extractJson (text : String) : Option String :=
  let found := List.rdropWhile (· ≠ '\x7d')
    ((PyText.strip text).toList.dropWhile (· ≠ '\x7b'))
  if found.isEmpty then none else some (String.ofList found)

/-- `PolicyViolation(...)` on an entry of the answer; an entry that raises is
left out. -/
def llmViolation : Json → Option PolicyViolation
  | .dict v => Except.toOption do
      let text (name default : String) :=
        (getOr v name (.str default)).pyStr python
      let severity ← severityOf (python.lower (text "severity" "block"))
      let taskId ← optionalText (Fields.get v "task_id")
      return {
        ruleId := text "rule_id" "llm_detected"
        ruleName := text "rule_name" "LLM Detected Issue"
        severity
        category := text "category" "general"
        taskId
        detail := text "detail" "" }
  | _ => none

/-- The dict of an answer that says whether the plan is approved. -/
def answerFields
    (loads : String → Option Json) (text : Option String) :
    Option (Bool × Fields) := do
  let text ← text
  if text = "" ∨ text = "Error" then none
  else
    match ← loads (← extractJson text) with
    | .dict data =>
        match Fields.get data "approved" with
        | .bool approved => some (approved, data)
        | _ => none
    | _ => none

def listedViolations (data : Fields) : List Json :=
  match data.get "violations" with
  | .list listed => listed
  | _ => []

/-- `_parse_llm_response`, where `loads` is `json.loads`. -/
def parseLlmResponse
    (loads : String → Option Json) (text : Option String) :
    Option Verdict := do
  let (approved, data) ← answerFields loads text
  return {
    approved
    issues :=
      match data.get "issues" with
      | .list items =>
          (items.map fun item => item.pyStr python).filter fun item =>
            PyText.strip item ≠ ""
      | _ => []
    notes :=
      match data.get "notes" with
      | .str notes => some notes
      | _ => none
    violations := (listedViolations data).filterMap (llmViolation python) }

/-! ## The action -/

inductive EthicsAction where
  | pass
  | reEvaluate
  | veto
  deriving DecidableEq

def EthicsAction.value : EthicsAction → String
  | .pass => "pass"
  | .reEvaluate => "re_evaluate"
  | .veto => "veto"

def hardBlockCategories : List String :=
  ["safety", "destructive"]

def hardBlock
    (severity : EthicsPolicySeverity) (category : String) : Bool :=
  decide (severity = .block) &&
    decide (python.lower category ∈ hardBlockCategories)

/-- `policy.max_re_evaluations`, or the limit of the configuration. -/
def maxReEvaluations
    (policy : Option EthicsPolicy) (config : EthicsPolicyConfig) : Fin 11 :=
  match policy with
  | some policy => policy.maxReEvaluations
  | none => config.maxReEvaluations

/-- `_determine_action`. -/
def determineAction
    (approved : Bool) (violations : List PolicyViolation)
    (policy : Option EthicsPolicy) (config : EthicsPolicyConfig)
    (currentReEvalCount : Int) : EthicsAction :=
  if approved then .pass
  else if !violations.any fun v => hardBlock python v.severity v.category
      then .pass
  else if currentReEvalCount < (maxReEvaluations policy config).val then
    .reEvaluate
  else .veto

end Rules

structure EthicsCheckResult where
  planId : String
  approved : Bool
  issues : List String
  notes : Option String
  policyId : Option String
  violations : List PolicyViolation
  reEvaluationCount : Int
  action : EthicsAction

/-- What happens when a provider is configured: the connector fails, the call
raises, or it returns the text of an answer, which may be missing. -/
inductive LlmCall where
  | initFails
  | raises
  | responds (text : Option String)

/-- Everything a check depends on besides the plan.  `call` is `none` where no
provider is configured, and `loads` is `json.loads`. -/
structure EthicsSetup where
  python : PyBuiltins
  loads : String → Option Json
  config : EthicsPolicyConfig := {}
  storedPolicy : Option EthicsPolicy := none
  stubMode : Bool := false
  call : Option LlmCall := none

namespace EthicsSetup

variable (setup : EthicsSetup)

def policy : Option EthicsPolicy :=
  effectivePolicy setup.config setup.storedPolicy

/-- The verdict of the rules, which only the stub mode allows. -/
def stubVerdict (tasks : List Json) (specs : List TaskSpec) :
    Option Verdict :=
  if setup.stubMode then
    (stubEthicsCheck setup.python setup.policy setup.config tasks
      specs).toOption
  else none

/-- The verdict of `run`, or `none` where it raises. -/
def verdict (tasks : List Json) (specs : List TaskSpec) :
    Option Verdict :=
  match setup.call with
  | none => setup.stubVerdict tasks specs
  | some .initFails => setup.stubVerdict tasks specs
  | some .raises => none
  | some (.responds text) =>
      match parseLlmResponse setup.python setup.loads text with
      | some verdict => some verdict
      | none => setup.stubVerdict tasks specs

/-- The check that `run` stores for a plan, if it gets that far. -/
def run (planId : String) (tasks : List Json) (specs : List TaskSpec)
    (currentReEvalCount : Int) : Option EthicsCheckResult := do
  let verdict ← setup.verdict tasks specs
  return {
    planId
    approved := verdict.approved
    issues := verdict.issues
    notes := verdict.notes
    policyId := setup.policy.map EthicsPolicy.policyId
    violations := verdict.violations
    reEvaluationCount := currentReEvalCount
    action := determineAction setup.python verdict.approved
      verdict.violations setup.policy setup.config currentReEvalCount }

end EthicsSetup

end Agentcy.Agents
