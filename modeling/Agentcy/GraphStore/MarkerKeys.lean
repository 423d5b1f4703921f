import Mathlib.Data.String.Basic

/-!
# Keys of the graph marker store

The documents of all users share one collection.  A key joins the kind of the
document, the user it is written for, and what tells it from the user's other
documents of its kind; a listing asks for the keys that begin as its kind, its
user and the components it was given do.
-/

namespace Agentcy.GraphStore

/-- What the documents of a user are keyed by: the key functions of the graph
marker store, the raw keys that its callers build, and the two kinds of the
agent collection. -/
inductive MarkerKey where
  | taskSpec (taskId : String)
  | affordance (taskId markerId : String)
  | reservation (taskId markerId : String)
  | bid (taskId bidderId bidId : String)
  | plan (planId : String)
  | planRevision (planId : String) (revision : Int)
  | planSuggestion (suggestionId : String)
  | cfp (taskId cfpId : String)
  | award (taskId awardId : String)
  | evalSeq (taskId planId : String)
  | approval (planId approvalId : String)
  | approvalLatest (planId : String)
  | ethics (planId checkId : String)
  | ethicsLatest (planId : String)
  | ethicsPolicy (policyId : String)
  | ethicsPolicyActive
  | cnpCycle (cycleId : String)
  | strategy (planId strategyId : String)
  | execution (planId reportId : String)
  | executionAttempt (pipelineRunId taskId : String) (attemptNumber : Int)
  | escalation (runId noticeId : String)
  | audit (runId entryId : String)
  | decision (taskId decisionId : String)
  | banditModel (taskType : String)
  | topologyOutcome (pipelineRunId outcomeId : String)
  | topologyPerf (topologySignature : String)
  | coalitionContract (taskId coalitionId : String)
  | coalitionOutcome (coalitionId outcomeId : String)
  | coalitionSignal (signalType coalitionSignature taskSignature : String)
  | revisionCandidate (planId : String) (revision : Int)
  | policyLog (logId : String)
  | dataflow (pipelineRunId fromTask toTask : String)
  | domainKnowledge (planId : String)
  | agentRegistry (agentId : String)
  | service (serviceId : String)

inductive Collection where
  | graphMarkers
  | agents
  deriving Repr, DecidableEq

namespace MarkerKey

def collection : MarkerKey → Collection
  | .agentRegistry _ | .service _ => .agents
  | _ => .graphMarkers

/-- What stands before the user in the key. -/
def kind : MarkerKey → String
  | .taskSpec _ => "task_spec"
  | .affordance _ _ => "marker::affordance"
  | .reservation _ _ => "marker::reservation"
  | .bid _ _ _ => "bid"
  | .plan _ => "plan_draft"
  | .planRevision _ _ => "plan_revision"
  | .planSuggestion _ => "plan_suggestion"
  | .cfp _ _ => "cfp"
  | .award _ _ => "award"
  | .evalSeq _ _ => "eval_seq"
  | .approval _ _ => "human_approval"
  | .approvalLatest _ => "human_approval_latest"
  | .ethics _ _ => "ethics_check"
  | .ethicsLatest _ => "ethics_check_latest"
  | .ethicsPolicy _ => "ethics_policy"
  | .ethicsPolicyActive => "ethics_policy_active"
  | .cnpCycle _ => "cnp_cycle"
  | .strategy _ _ => "strategy"
  | .execution _ _ | .executionAttempt _ _ _ => "execution"
  | .escalation _ _ => "escalation"
  | .audit _ _ => "audit"
  | .decision _ _ => "decision"
  | .banditModel _ => "bandit_model"
  | .topologyOutcome _ _ => "topology_outcome"
  | .topologyPerf _ => "topology_perf"
  | .coalitionContract _ _ => "coalition_contract"
  | .coalitionOutcome _ _ => "coalition_outcome"
  | .coalitionSignal _ _ _ => "coalition_signal"
  | .revisionCandidate _ _ => "revision_candidate"
  | .policyLog _ => "policy_log"
  | .dataflow _ _ _ => "dataflow"
  | .domainKnowledge _ => "domain_knowledge"
  | .agentRegistry _ => "agent_registry"
  | .service _ => "service"

/-- What stands after the user in the key. -/
def components : MarkerKey → List String
  | .taskSpec taskId => [taskId]
  | .affordance taskId markerId => [taskId, markerId]
  | .reservation taskId markerId => [taskId, markerId]
  | .bid taskId bidderId bidId => [taskId, bidderId, bidId]
  | .plan planId => [planId]
  | .planRevision planId revision => [planId, toString revision]
  | .planSuggestion suggestionId => [suggestionId]
  | .cfp taskId cfpId => [taskId, cfpId]
  | .award taskId awardId => [taskId, awardId]
  | .evalSeq taskId planId => [taskId, planId]
  | .approval planId approvalId => [planId, approvalId]
  | .approvalLatest planId => [planId]
  | .ethics planId checkId => [planId, checkId]
  | .ethicsLatest planId => [planId]
  | .ethicsPolicy policyId => [policyId]
  | .ethicsPolicyActive => []
  | .cnpCycle cycleId => [cycleId]
  | .strategy planId strategyId => [planId, strategyId]
  | .execution planId reportId => [planId, reportId]
  | .executionAttempt pipelineRunId taskId attemptNumber =>
      [pipelineRunId, taskId, toString attemptNumber]
  | .escalation runId noticeId => [runId, noticeId]
  | .audit runId entryId => [runId, entryId]
  | .decision taskId decisionId => [taskId, decisionId]
  | .banditModel taskType => [taskType]
  | .topologyOutcome pipelineRunId outcomeId => [pipelineRunId, outcomeId]
  | .topologyPerf topologySignature => [topologySignature]
  | .coalitionContract taskId coalitionId => [taskId, coalitionId]
  | .coalitionOutcome coalitionId outcomeId => [coalitionId, outcomeId]
  | .coalitionSignal signalType coalitionSignature taskSignature =>
      [signalType, coalitionSignature, taskSignature]
  | .revisionCandidate planId revision => [planId, toString revision]
  | .policyLog logId => [logId]
  | .dataflow pipelineRunId fromTask toTask =>
      [pipelineRunId, fromTask, toTask]
  | .domainKnowledge planId => [planId]
  | .agentRegistry agentId => [agentId]
  | .service serviceId => [serviceId]

/-- The components, each after a separator. -/
def joined : List String → String
  | [] => ""
  | component :: rest => "::" ++ component ++ joined rest

/-- The key of the document in its collection. -/
def text (username : String) (key : MarkerKey) : String :=
  key.kind ++ "::" ++ username ++ joined key.components

end MarkerKey

example :
    (MarkerKey.bid "clean" "agent-1" "b7").text "jane" =
      "bid::jane::clean::agent-1::b7" := by
  decide

/-- `if component:`, which an empty text fails. -/
def given (component : Option String) : Option String :=
  component.filter fun text => decide (text ≠ "")

/-- The components that a listing was given, each before a separator. -/
def narrowed : List (Option String) → String
  | [] => ""
  | component :: rest =>
      (match given component with
        | none => ""
        | some text => text ++ "::") ++ narrowed rest

/-- The beginning of the keys that a listing asks for. -/
def listingPrefix
    (kind username : String) (components : List (Option String)) :
    String :=
  kind ++ "::" ++ username ++ "::" ++ narrowed components

end Agentcy.GraphStore
