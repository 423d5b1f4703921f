import Agentcy.Agents.EthicsChecker
import Agentcy.Plans.ExecutionGates

/-!
# Verdicts, actions and the execution gate

A stored check is consistent if it approves only without a blocking violation
and if its action is `pass` exactly when the executor lets the plan run.  The
rules and the language model miss that in different ways.
-/

namespace Agentcy.Agents

open Agentcy.Cnp (RiskLevel TaskSpec)
open Agentcy.Library
open Agentcy.Plans

def EthicsPolicySeverity.value : EthicsPolicySeverity → String
  | .block => "block"
  | .warn => "warn"
  | .info => "info"

def textOrNull : Option String → Json
  | some text => .str text
  | none => .null

def PolicyViolation.doc (violation : PolicyViolation) : Json :=
  .dict
    [("rule_id", .str violation.ruleId),
      ("rule_name", .str violation.ruleName),
      ("severity", .str violation.severity.value),
      ("category", .str violation.category),
      ("task_id", textOrNull violation.taskId),
      ("detail", .str violation.detail)]

/-- The document that `save_ethics_check` writes. -/
def EthicsCheckResult.doc
    (check : EthicsCheckResult) (checkedAt : String) : Fields :=
  [("plan_id", .str check.planId),
    ("reviewer", .str "ethics_check_agent"),
    ("approved", .bool check.approved),
    ("issues", .list (check.issues.map .str)),
    ("notes", textOrNull check.notes),
    ("checked_at", .str checkedAt),
    ("policy_id", textOrNull check.policyId),
    ("violations", .list (check.violations.map PolicyViolation.doc)),
    ("re_evaluation_count", .int check.reEvaluationCount),
    ("action", .str check.action.value)]

/-- Whatever else the executor finds, it runs the plan exactly on a check
whose action is `pass`. -/
def PassesExactly (check : EthicsCheckResult) : Prop :=
  ∀ (executor : ExecutorSetup) (draft : PlanDraft)
    (pipelineRunId : Option String) (overrides : Overrides)
    (tasks checks humanApprovals : List Fields) (checkedAt : String),
    executor.ethicsRequired = true →
    latestByTimestamp executor.python checks "checked_at" =
      some (check.doc checkedAt) →
    (check.action = .pass ↔
      (executor.run draft pipelineRunId overrides tasks checks
        humanApprovals).blockReason ≠ some "ethics_rejected")

structure Consistent (check : EthicsCheckResult) : Prop where
  unblocked : check.approved = true →
    ∀ v ∈ check.violations, v.severity ≠ .block
  passes : PassesExactly check

/-- The executor reads of the latest check whether it approves. -/
theorem lets_run_iff_approved
    {check : EthicsCheckResult} {executor : ExecutorSetup}
    {draft : PlanDraft} {pipelineRunId : Option String}
    {overrides : Overrides} {tasks checks humanApprovals : List Fields}
    {checkedAt : String} (required : executor.ethicsRequired = true)
    (latest : latestByTimestamp executor.python checks "checked_at" =
      some (check.doc checkedAt)) :
    (executor.run draft pipelineRunId overrides tasks checks
        humanApprovals).blockReason ≠ some "ethics_rejected" ↔
      check.approved = true := by
  have gate : gateCloses executor.python executor.ethicsRequired checks
      "checked_at" = !check.approved := by
    rw [gateCloses, required, latest]
    rfl
  unfold ExecutorSetup.run
  rw [gate]
  cases check.approved with
  | false =>
      simp
  | true =>
      by_cases human : gateCloses executor.python executor.humanRequired
          humanApprovals "decided_at" = true
      · simp [human]
      · simp [human]

theorem passesExactly_iff
    (check : EthicsCheckResult) :
    PassesExactly check ↔
      (check.action = .pass ↔ check.approved = true) := by
  constructor
  · intro exactly
    let executor : ExecutorSetup :=
      { python :=
          { strOther := fun _ => ""
            dictOther := fun _ => .error .typeError
            upper := id
            lower := id } }
    have required : executor.ethicsRequired = true := by
      decide
    have latest : latestByTimestamp executor.python [check.doc ""]
        "checked_at" = some (check.doc "") :=
      List.argmax_singleton
    rw [exactly executor ⟨"", "", "", none, 1, [], false, none, false⟩ none
      ⟨[], []⟩ [] [check.doc ""] [] "" required latest]
    exact lets_run_iff_approved required latest
  · intro same executor draft pipelineRunId overrides tasks checks
      humanApprovals checkedAt required latest
    rw [lets_run_iff_approved required latest]
    exact same

theorem consistent_iff (check : EthicsCheckResult) :
    Consistent check ↔
      (check.approved = true → ∀ v ∈ check.violations,
          v.severity ≠ .block) ∧
        (check.action = .pass ↔ check.approved = true) := by
  rw [← passesExactly_iff]
  exact ⟨fun consistent => ⟨consistent.unblocked, consistent.passes⟩,
    fun parts => ⟨parts.1, parts.2⟩⟩

/-- The action follows the approval unless a plan is rejected for nothing
that blocks hard. -/
theorem pass_iff_approved_iff
    (python : PyBuiltins) (approved : Bool)
    (violations : List PolicyViolation) (policy : Option EthicsPolicy)
    (config : EthicsPolicyConfig) (count : Int) :
    (determineAction python approved violations policy config count =
        .pass ↔ approved = true) ↔
      (approved = false → ∃ v ∈ violations,
        hardBlock python v.severity v.category = true) := by
  unfold determineAction
  cases approved with
  | true =>
      simp
  | false =>
      cases hard : violations.any fun v =>
          hardBlock python v.severity v.category with
      | true =>
          have found := List.any_eq_true.mp hard
          by_cases again :
              count < ((maxReEvaluations policy config).val : Int)
          · simp [again, found]
          · simp [again, found]
      | false =>
          have notFound := List.any_eq_false.mp hard
          simpa using notFound

section Rules

variable {python : PyBuiltins}

/-- A rule of the kind matches the description of a task. -/
def Triggered
    (python : PyBuiltins) (rules : List EthicsRule) (tasks : List Json)
    (kind : EthicsPolicySeverity → String → Prop) : Prop :=
  ∃ task, Json.dict task ∈ tasks ∧ ∃ rule ∈ rules,
    (matchedKeyword python task rule).isSome = true ∧
      kind rule.severity rule.category

theorem keywordViolation_kind
    {task : Fields} {rule : EthicsRule} {keyword : String}
    {v : PolicyViolation}
    (made : keywordViolation python task rule keyword = .ok v) :
    v.severity = rule.severity ∧ v.category = rule.category := by
  unfold keywordViolation at made
  rw [bind_eq_ok] at made
  obtain ⟨taskId, _, made⟩ := made
  rw [pure_eq_ok] at made
  rw [← made]
  exact ⟨rfl, rfl⟩

theorem exists_taskViolation_iff
    {rules : List EthicsRule} {task : Json} {found : List PolicyViolation}
    (checked : taskViolations python rules task = .ok found)
    (kind : EthicsPolicySeverity → String → Prop) :
    (∃ v ∈ found, kind v.severity v.category) ↔
      Triggered python rules [task] kind := by
  unfold taskViolations at checked
  rw [bind_eq_ok] at checked
  obtain ⟨fields, isDict, checked⟩ := checked
  obtain rfl := Json.dict_of_fields isDict
  constructor
  · rintro ⟨v, member, isKind⟩
    obtain ⟨⟨rule, keyword⟩, hit, made⟩ :=
      exists_of_mem_mapM checked member
    obtain ⟨other, isRule, matched⟩ := List.mem_filterMap.mp hit
    obtain ⟨found, isKeyword, same⟩ := Option.map_eq_some_iff.mp matched
    cases same
    obtain ⟨severity, category⟩ := keywordViolation_kind made
    rw [severity, category] at isKind
    exact ⟨fields, List.mem_singleton_self _, rule, isRule,
      Option.isSome_of_eq_some isKeyword, isKind⟩
  · rintro ⟨task, same, rule, isRule, matched, isKind⟩
    cases List.mem_singleton.mp same
    obtain ⟨keyword, isKeyword⟩ := Option.isSome_iff_exists.mp matched
    have hit : (rule, keyword) ∈ rules.filterMap fun rule =>
        (matchedKeyword python fields rule).map fun keyword =>
          (rule, keyword) :=
      List.mem_filterMap.mpr ⟨rule, isRule, by rw [isKeyword]; rfl⟩
    obtain ⟨v, member, made⟩ := exists_result_of_mapM checked hit
    obtain ⟨severity, category⟩ := keywordViolation_kind made
    rw [← severity, ← category] at isKind
    exact ⟨v, member, isKind⟩

/-- What the rules find: a risky task counts as a blocking violation of
safety, every other one as its rule says. -/
theorem exists_stubViolation_iff
    {policy : Option EthicsPolicy} {config : EthicsPolicyConfig}
    {tasks : List Json} {specs : List TaskSpec} {verdict : Verdict}
    (checked : stubEthicsCheck python policy config tasks specs =
      .ok verdict)
    (kind : EthicsPolicySeverity → String → Prop) :
    (∃ v ∈ verdict.violations, kind v.severity v.category) ↔
      (kind .block "safety" ∧
          ∃ spec ∈ specs, riskyWithoutApproval spec = true) ∨
        Triggered python (buildKeywordRules policy config) tasks kind := by
  unfold stubEthicsCheck at checked
  rw [bind_eq_ok] at checked
  obtain ⟨found, ofTasks, checked⟩ := checked
  rw [pure_eq_ok] at checked
  rw [← checked]
  constructor
  · rintro ⟨v, member, isKind⟩
    rcases List.mem_append.mp member with risky | keyword
    · obtain ⟨spec, isRisky, rfl⟩ := List.mem_map.mp risky
      obtain ⟨isSpec, unapproved⟩ := List.mem_filter.mp isRisky
      exact .inl ⟨isKind, spec, isSpec, unapproved⟩
    · obtain ⟨ofTask, isFound, inFound⟩ := List.mem_flatten.mp keyword
      obtain ⟨task, isTask, taskChecked⟩ :=
        exists_of_mem_mapM ofTasks isFound
      obtain ⟨fields, same, triggered⟩ :=
        (exists_taskViolation_iff taskChecked kind).mp
          ⟨v, inFound, isKind⟩
      rw [← List.mem_singleton.mp same] at isTask
      exact .inr ⟨fields, isTask, triggered⟩
  · rintro (⟨isKind, spec, isSpec, unapproved⟩ |
      ⟨fields, isTask, triggered⟩)
    · exact ⟨riskViolation spec, List.mem_append_left _
        (List.mem_map_of_mem (List.mem_filter.mpr ⟨isSpec, unapproved⟩)),
        isKind⟩
    · obtain ⟨ofTask, isFound, taskChecked⟩ :=
        exists_result_of_mapM ofTasks isTask
      obtain ⟨v, inFound, isKind⟩ :=
        (exists_taskViolation_iff taskChecked kind).mpr
          ⟨fields, List.mem_singleton_self _, triggered⟩
      exact ⟨v, List.mem_append_right _
        (List.mem_flatten.mpr ⟨ofTask, isFound, inFound⟩), isKind⟩

end Rules

/-! ## Verdicts of the language model -/

section Answers

variable (python : PyBuiltins)

/-- The text of a field of an entry, or the default where it is missing. -/
def entryText (entry : Fields) (name default : String) : String :=
  (getOr entry name (.str default)).pyStr python

/-- An entry of the answer that stands for a violation of the kind: its
severity is one of the three words, and its task id a text or null. -/
def ListedAs
    (kind : EthicsPolicySeverity → String → Prop) (entry : Json) : Prop :=
  ∃ fields severity taskId, entry = .dict fields ∧
    severityOf (python.lower (entryText python fields "severity" "block")) =
        .ok severity ∧
      optionalText (Fields.get fields "task_id") = .ok taskId ∧
        kind severity (entryText python fields "category" "general")

theorem exists_llmViolation_iff
    (kind : EthicsPolicySeverity → String → Prop) (entry : Json) :
    (∃ v, llmViolation python entry = some v ∧
        kind v.severity v.category) ↔
      ListedAs python kind entry := by
  constructor
  · rintro ⟨v, made, isKind⟩
    cases entry with
    | dict fields =>
        rw [llmViolation, toOption_eq_some, bind_eq_ok] at made
        obtain ⟨severity, isSeverity, made⟩ := made
        rw [bind_eq_ok] at made
        obtain ⟨taskId, isText, made⟩ := made
        rw [pure_eq_ok] at made
        rw [← made] at isKind
        exact ⟨fields, severity, taskId, rfl, isSeverity, isText, isKind⟩
    | _ =>
        cases made
  · rintro ⟨fields, severity, taskId, rfl, isSeverity, isText, isKind⟩
    refine ⟨⟨entryText python fields "rule_id" "llm_detected",
      entryText python fields "rule_name" "LLM Detected Issue", severity,
      entryText python fields "category" "general", taskId,
      entryText python fields "detail" ""⟩, ?_, isKind⟩
    rw [llmViolation, toOption_eq_some, bind_eq_ok]
    refine ⟨severity, isSeverity, ?_⟩
    rw [bind_eq_ok]
    exact ⟨taskId, isText, rfl⟩

theorem exists_listedViolation_iff
    (kind : EthicsPolicySeverity → String → Prop) (data : Fields) :
    (∃ v ∈ (listedViolations data).filterMap (llmViolation python),
        kind v.severity v.category) ↔
      ∃ entry ∈ listedViolations data, ListedAs python kind entry := by
  simp only [List.mem_filterMap, ← exists_llmViolation_iff]
  constructor
  · rintro ⟨v, ⟨entry, member, made⟩, isKind⟩
    exact ⟨entry, member, v, made, isKind⟩
  · rintro ⟨entry, member, v, made, isKind⟩
    exact ⟨v, ⟨entry, member, made⟩, isKind⟩

end Answers

namespace EthicsSetup

variable (setup : EthicsSetup)

def isBlock (severity : EthicsPolicySeverity) (_ : String) : Prop :=
  severity = .block

def isHardBlock
    (severity : EthicsPolicySeverity) (category : String) : Prop :=
  hardBlock setup.python severity category = true

/-- The answer that the verdict is taken from, if it is not left to the
rules. -/
def answer : Option (Bool × Fields) :=
  match setup.call with
  | some (.responds text) => answerFields setup.loads text
  | _ => none

/-- An answer that approves lists no blocking violation, and one that rejects
lists one that blocks hard. -/
def AnswerSettles (approved : Bool) (data : Fields) : Prop :=
  if approved then
    ¬ ∃ entry ∈ listedViolations data, ListedAs setup.python isBlock entry
  else
    ∃ entry ∈ listedViolations data,
      ListedAs setup.python setup.isHardBlock entry

/-- Where a rule that blocks matches a task, one that blocks hard matches a
task, or a risky task does; for these the category is `safety`. -/
def RulesSettle (tasks : List Json) (specs : List TaskSpec) : Prop :=
  let rules := buildKeywordRules setup.policy setup.config
  (∃ spec ∈ specs, riskyWithoutApproval spec = true) ∨
      Triggered setup.python rules tasks isBlock →
    (setup.isHardBlock .block "safety" ∧
        ∃ spec ∈ specs, riskyWithoutApproval spec = true) ∨
      Triggered setup.python rules tasks setup.isHardBlock

def Settles (tasks : List Json) (specs : List TaskSpec) : Prop :=
  match setup.answer with
  | some (approved, data) => setup.AnswerSettles approved data
  | none => setup.RulesSettle tasks specs

variable {setup}

/-- The two halves of a consistent verdict. -/
def VerdictSettled (setup : EthicsSetup) (verdict : Verdict) : Prop :=
  (verdict.approved = true → ¬ ∃ v ∈ verdict.violations,
      isBlock v.severity v.category) ∧
    (verdict.approved = false → ∃ v ∈ verdict.violations,
      setup.isHardBlock v.severity v.category)

theorem verdictSettled_of_rules
    {tasks : List Json} {specs : List TaskSpec} {verdict : Verdict}
    (checked : setup.stubVerdict tasks specs = some verdict) :
    setup.VerdictSettled verdict ↔ setup.RulesSettle tasks specs := by
  unfold stubVerdict at checked
  split_ifs at checked
  rw [toOption_eq_some] at checked
  have blocks := exists_stubViolation_iff checked isBlock
  have hardBlocks := exists_stubViolation_iff checked setup.isHardBlock
  have rejected : verdict.approved = false ↔
      ∃ v ∈ verdict.violations, isBlock v.severity v.category := by
    unfold stubEthicsCheck at checked
    rw [bind_eq_ok] at checked
    obtain ⟨found, _, made⟩ := checked
    rw [pure_eq_ok] at made
    rw [← made]
    simp only [isBlock, Bool.not_eq_false', List.any_eq_true,
      decide_eq_true_eq]
  have approved : verdict.approved = true ↔
      ¬ ∃ v ∈ verdict.violations, isBlock v.severity v.category := by
    rw [← rejected, Bool.not_eq_false]
  unfold VerdictSettled RulesSettle
  rw [hardBlocks, rejected, approved, blocks]
  simp [isBlock]

theorem verdictSettled_of_answer
    {approved : Bool} {data : Fields} {text : Option String}
    {verdict : Verdict}
    (answered : answerFields setup.loads text = some (approved, data))
    (parsed : parseLlmResponse setup.python setup.loads text =
      some verdict) :
    setup.VerdictSettled verdict ↔ setup.AnswerSettles approved data := by
  unfold parseLlmResponse at parsed
  rw [answered] at parsed
  cases parsed
  unfold VerdictSettled AnswerSettles
  dsimp only
  rw [exists_listedViolation_iff, exists_listedViolation_iff]
  cases approved with
  | true => simp
  | false => simp

theorem verdictSettled_iff
    {tasks : List Json} {specs : List TaskSpec} {verdict : Verdict}
    (decided : setup.verdict tasks specs = some verdict) :
    setup.VerdictSettled verdict ↔ setup.Settles tasks specs := by
  unfold EthicsSetup.verdict at decided
  unfold Settles answer
  cases called : setup.call with
  | none =>
      rw [called] at decided
      exact verdictSettled_of_rules decided
  | some call =>
      rw [called] at decided
      cases call with
      | initFails =>
          exact verdictSettled_of_rules decided
      | raises =>
          cases decided
      | responds text =>
          dsimp only at decided ⊢
          cases answered : answerFields setup.loads text with
          | none =>
              rw [parseLlmResponse, answered] at decided
              exact verdictSettled_of_rules decided
          | some found =>
              obtain ⟨approved, data⟩ := found
              apply verdictSettled_of_answer answered
              rw [parseLlmResponse, answered] at decided ⊢
              exact decided

end EthicsSetup

/-- Exactly where the rules or the answer settle the plan, the stored check
approves no blocked plan and passes what the executor runs. -/
theorem consistent_iff_settles
    {setup : EthicsSetup} {planId : String} {tasks : List Json}
    {specs : List TaskSpec} {count : Int} {check : EthicsCheckResult}
    (stored : setup.run planId tasks specs count = some check) :
    Consistent check ↔ setup.Settles tasks specs := by
  unfold EthicsSetup.run at stored
  rw [Option.bind_eq_bind, Option.bind_eq_some_iff] at stored
  obtain ⟨verdict, decided, made⟩ := stored
  cases made
  rw [consistent_iff, pass_iff_approved_iff,
    ← EthicsSetup.verdictSettled_iff decided]
  unfold EthicsSetup.VerdictSettled EthicsSetup.isBlock
    EthicsSetup.isHardBlock
  simp

/-! ## Plans that are passed but do not run -/

def stubPython : PyBuiltins where
  strOther := fun _ => ""
  dictOther := fun _ => .error .typeError
  upper := id
  lower := id

/-- The rules of the configuration, without a provider. -/
def stubSetup : EthicsSetup :=
  { python := stubPython, loads := fun _ => none, stubMode := true }

def taskNamed (description : String) : Json :=
  .dict [("task_id", .str "t1"), ("description", .str description)]

/-- A provider whose answer approves and lists a blocking violation. -/
def lenientSetup : EthicsSetup :=
  { python := stubPython
    loads := fun _ => some (.dict
      [("approved", .bool true),
        ("violations", .list [.dict [("severity", .str "block")]])])
    call := some (.responds (some "\x7b\x7d")) }

/-- A task that deletes is rejected, and the action is not `pass`. -/
theorem deleting_task_is_settled :
    ∃ check,
      stubSetup.run "p1" [taskNamed "delete all"] [] 0 = some check ∧
        (Consistent check ↔
          stubSetup.Settles [taskNamed "delete all"] []) := by
  have stored : (stubSetup.run "p1" [taskNamed "delete all"] []
      0).isSome = true := by
    decide +kernel
  obtain ⟨check, isCheck⟩ := Option.isSome_iff_exists.mp stored
  exact ⟨check, isCheck, consistent_iff_settles isCheck⟩

/-- A task that exposes a password is rejected with the action `pass`, and an
answer may approve a plan in spite of the blocking violation it lists. -/
theorem rejected_plan_passes :
    (∃ check, stubSetup.run "p1" [taskNamed "log the password"] [] 0 =
        some check ∧ check.approved = false ∧ check.action = .pass ∧
          ¬ Consistent check) ∧
      ∃ check, lenientSetup.run "p1" [] [] 0 = some check ∧
        check.approved = true ∧
          (∃ v ∈ check.violations, v.severity = .block) ∧
            ¬ Consistent check := by
  constructor
  · have stored : (stubSetup.run "p1" [taskNamed "log the password"] []
        0).map (fun check => (check.approved, check.action)) =
          some (false, .pass) := by
      decide +kernel
    obtain ⟨check, isCheck, read⟩ := Option.map_eq_some_iff.mp stored
    have rejected : check.approved = false := congrArg Prod.fst read
    have passed : check.action = .pass := congrArg Prod.snd read
    refine ⟨check, isCheck, rejected, passed, ?_⟩
    rw [consistent_iff, rejected, passed]
    simp
  · have stored : (lenientSetup.run "p1" [] [] 0).map (fun check =>
        (check.approved, check.violations.map PolicyViolation.severity)) =
          some (true, [.block]) := by
      decide +kernel
    obtain ⟨check, isCheck, read⟩ := Option.map_eq_some_iff.mp stored
    have approved : check.approved = true := congrArg Prod.fst read
    have severities : check.violations.map PolicyViolation.severity =
        [.block] := congrArg Prod.snd read
    have blocked : ∃ v ∈ check.violations, v.severity = .block := by
      apply List.mem_map.mp
      rw [severities]
      exact List.mem_singleton_self _
    refine ⟨check, isCheck, approved, blocked, ?_⟩
    intro consistent
    obtain ⟨v, member, blocks⟩ := blocked
    exact consistent.unblocked approved v member blocks

end Agentcy.Agents
