import Agentcy.GraphStore.MarkerKeys
import Agentcy.Library.LikePattern
import Agentcy.Library.PyJson
import Agentcy.Library.Ranking
import Agentcy.Library.Run

/-!
# Listings of the graph marker store

The store under writes by any users, and the documents that each of its
listings returns.  The query takes the documents whose keys are like the
prefix followed by `%`, in some order, and cuts a page out of them; the caller
filters that page.
-/

namespace Agentcy.GraphStore

open Agentcy.Library

/-- A stored document, with the user of the call that wrote it last.  Nothing
in the store reads the user; it is there to say whose document it is. -/
structure Stored where
  owner : String
  document : Fields

structure GraphMarkerStore where
  markers : OrderedMap String Stored
  agents : OrderedMap String Stored

namespace GraphMarkerStore

def empty : GraphMarkerStore :=
  ⟨.empty, .empty⟩

def docs (store : GraphMarkerStore) : Collection → OrderedMap String Stored
  | .graphMarkers => store.markers
  | .agents => store.agents

def setDocs
    (store : GraphMarkerStore) (docs : OrderedMap String Stored) :
    Collection → GraphMarkerStore
  | .graphMarkers => { store with markers := docs }
  | .agents => { store with agents := docs }

end GraphMarkerStore

/-- An upsert of a document for a user, or the end of a document at a key, by
its expiry or by a delete. -/
inductive Write where
  | upsert (username : String) (key : MarkerKey) (document : Fields)
  | remove (collection : Collection) (key : String)

def GraphMarkerStore.step (store : GraphMarkerStore) :
    Write → GraphMarkerStore
  | .upsert username key document =>
      store.setDocs
        ((store.docs key.collection).set (key.text username)
          ⟨username, document⟩)
        key.collection
  | .remove collection key =>
      store.setDocs ((store.docs collection).erase key) collection

/-- The two upserts of `save_human_approval`. -/
def saveHumanApproval
    (username planId approvalId : String) (payload : Fields) : List Write :=
  [.upsert username (.approval planId approvalId) payload,
    .upsert username (.approvalLatest planId) payload]

/-- The two upserts of `save_ethics_check`. -/
def saveEthicsCheck
    (username planId checkId : String) (payload : Fields) : List Write :=
  [.upsert username (.ethics planId checkId) payload,
    .upsert username (.ethicsLatest planId) payload]

/-- The two upserts of `save_ethics_policy`. -/
def saveEthicsPolicy
    (username policyId : String) (payload : Fields) : List Write :=
  [.upsert username (.ethicsPolicy policyId) payload,
    .upsert username .ethicsPolicyActive payload]

/-- A row of a query: the key, and the document at it. -/
abbrev Row := String × Stored

/-- An order of rows, by an `ORDER BY` clause, by `sort`, or as the query
service happens to return them. -/
structure Arrangement where
  arrange : List Row → List Row
  perm : ∀ rows, (arrange rows).Perm rows

def Arrangement.asStored : Arrangement :=
  ⟨id, fun _ => .rfl⟩

/-- The text that a document has in a field. -/
def fieldText (field : String) (row : Row) : String :=
  match row.2.document.get field with
  | .str text => text
  | _ => ""

/-- `ORDER BY g.{field} DESC`, where the values of the field are texts. -/
def Arrangement.descending (field : String) : Arrangement where
  arrange := ranked (fieldText field)
  perm rows := List.perm_insertionSort _ rows

/-- The order of the query, the page that is asked for, and the order that the
caller sorts the page into. -/
structure Page where
  order : Arrangement := .asStored
  limit : Option Nat := none
  offset : Nat := 0
  resorted : Arrangement := .asStored

/-- `LIMIT {limit} OFFSET {offset}`, unless there is no limit. -/
def Page.cut (page : Page) (rows : List Row) : List Row :=
  match page.limit with
  | none => rows
  | some limit => (rows.drop page.offset).take limit

def matching
    (store : GraphMarkerStore) (collection : Collection)
    (keyPrefix : String) : List Row :=
  (store.docs collection).entries.filter fun row =>
    LikePattern.like (keyPrefix.toList ++ ['%']) row.1.toList

/-- `_list_by_prefix`. -/
def listByPrefix
    (store : GraphMarkerStore) (collection : Collection)
    (keyPrefix : String) (page : Page) : List Row × Nat :=
  let rows := matching store collection keyPrefix
  (page.cut (page.order.arrange rows), rows.length)

/-- The calls that list documents of a user, with their arguments besides the
user and the page.  `agents` is `AgentRegistryStore.list`, with what it makes of
each row in the context of all of them, and its filters. -/
inductive ListCall where
  | taskSpecs
  | affordanceMarkers
      (taskId agentId pipelineId pipelineRunId : Option String)
  | failureMarkers (agentId : String) (taskType : Option String)
  | reservationMarkers (taskId agentId : Option String)
  | bids (taskId bidderId pipelineId pipelineRunId : Option String)
  | planRevisions (planId : Option String)
  | planSuggestions (planId pipelineRunId status : Option String)
  | planDrafts (pipelineId pipelineRunId : Option String)
  | cfps (taskId status : Option String)
  | contractAwards (taskId pipelineId pipelineRunId : Option String)
  | humanApprovals (planId : Option String)
  | ethicsChecks (planId : Option String)
  | ethicsPolicies
  | cnpCycles (pipelineId status : Option String)
  | strategyPlans (planId : Option String)
  | executionReports (planId : Option String)
  | escalationNotices (pipelineRunId : Option String)
  | auditLogs (pipelineRunId : Option String)
  | decisionRecords (taskId taskType : Option String)
  | banditModels
  | topologyOutcomes (topologySignature skeletonId : Option String)
  | coalitionOutcomes (coalitionSignature taskSignature : Option String)
  | coalitionSignals (signalType : Option String)
  | agents (enrich : List Row → Row → Fields) (keep : Fields → Bool)

namespace ListCall

def collection : ListCall → Collection
  | .agents _ _ => .agents
  | _ => .graphMarkers

def kind : ListCall → String
  | .taskSpecs => "task_spec"
  | .affordanceMarkers _ _ _ _ | .failureMarkers _ _ =>
      "marker::affordance"
  | .reservationMarkers _ _ => "marker::reservation"
  | .bids _ _ _ _ => "bid"
  | .planRevisions _ => "plan_revision"
  | .planSuggestions _ _ _ => "plan_suggestion"
  | .planDrafts _ _ => "plan_draft"
  | .cfps _ _ => "cfp"
  | .contractAwards _ _ _ => "award"
  | .humanApprovals _ => "human_approval"
  | .ethicsChecks _ => "ethics_check"
  | .ethicsPolicies => "ethics_policy"
  | .cnpCycles _ _ => "cnp_cycle"
  | .strategyPlans _ => "strategy"
  | .executionReports _ => "execution"
  | .escalationNotices _ => "escalation"
  | .auditLogs _ => "audit"
  | .decisionRecords _ _ => "decision"
  | .banditModels => "bandit_model"
  | .topologyOutcomes _ _ => "topology_outcome"
  | .coalitionOutcomes _ _ => "coalition_outcome"
  | .coalitionSignals _ => "coalition_signal"
  | .agents _ _ => "agent_registry"

/-- The arguments that go into the prefix. -/
def components : ListCall → List (Option String)
  | .affordanceMarkers taskId _ _ _ => [taskId]
  | .reservationMarkers taskId _ => [taskId]
  | .bids taskId bidderId _ _ => [taskId, bidderId]
  | .planRevisions planId => [planId]
  | .cfps taskId _ => [taskId]
  | .contractAwards taskId _ _ => [taskId]
  | .humanApprovals planId => [planId]
  | .ethicsChecks planId => [planId]
  | .strategyPlans planId => [planId]
  | .executionReports planId => [planId]
  | .escalationNotices pipelineRunId => [pipelineRunId]
  | .auditLogs pipelineRunId => [pipelineRunId]
  | .decisionRecords taskId _ => [taskId]
  | .coalitionSignals signalType => [signalType]
  | _ => []

/-- The fields that the page is filtered by, each with the argument it has to
equal. -/
def filters : ListCall → List (String × Option String)
  | .affordanceMarkers _ agentId pipelineId pipelineRunId =>
      [("agent_id", agentId), ("pipeline_id", pipelineId),
        ("pipeline_run_id", pipelineRunId)]
  | .failureMarkers agentId _ => [("agent_id", some agentId)]
  | .reservationMarkers _ agentId => [("agent_id", agentId)]
  | .bids taskId bidderId pipelineId pipelineRunId =>
      [("task_id", if (given bidderId).isNone then taskId else none),
        ("bidder_id", if (given taskId).isNone then bidderId else none),
        ("pipeline_id", pipelineId), ("pipeline_run_id", pipelineRunId)]
  | .planSuggestions planId pipelineRunId status =>
      [("plan_id", planId), ("pipeline_run_id", pipelineRunId),
        ("status", status)]
  | .planDrafts pipelineId pipelineRunId =>
      [("pipeline_id", pipelineId), ("pipeline_run_id", pipelineRunId)]
  | .cfps _ status => [("status", status)]
  | .contractAwards _ pipelineId pipelineRunId =>
      [("pipeline_id", pipelineId), ("pipeline_run_id", pipelineRunId)]
  | .cnpCycles pipelineId status =>
      [("pipeline_id", pipelineId), ("status", status)]
  | .decisionRecords _ taskType => [("task_type", taskType)]
  | .topologyOutcomes topologySignature skeletonId =>
      [("topology_signature", topologySignature),
        ("skeleton_id", skeletonId)]
  | .coalitionOutcomes coalitionSignature taskSignature =>
      [("coalition_signature", coalitionSignature),
        ("task_signature", taskSignature)]
  | _ => []

/-- The key that is read when the page is empty and a plan was asked for. -/
def latest : ListCall → Option MarkerKey
  | .humanApprovals planId => (given planId).map .approvalLatest
  | .ethicsChecks planId => (given planId).map .ethicsLatest
  | _ => none

/-- Whether the filtered page is counted instead of the matching keys. -/
def recounts : ListCall → Bool
  | .bids taskId bidderId pipelineId pipelineRunId =>
      [taskId, bidderId, pipelineId, pipelineRunId].any fun wanted =>
        (given wanted).isSome
  | call => call.filters.any fun wanted => (given wanted.2).isSome

end ListCall

/-- `item.get(field) == wanted`, where a value is wanted. -/
def hasField (document : Fields) (wanted : String × Option String) : Bool :=
  match given wanted.2 with
  | none => true
  | some text => (document.get wanted.1).pyEq (.str text)

/-- Whether a marker carries a failure context, of the type if one is
given. -/
def isFailure (taskType : Option String) (document : Fields) : Bool :=
  match document.get "failure_context" with
  | .dict context =>
      !context.isEmpty && hasField context ("task_type", taskType)
  | _ => false

/-- What a call does with its page of rows. -/
def ListCall.select (call : ListCall) (rows : List Row) : List Row :=
  match call with
  | .failureMarkers _ taskType =>
      rows.filter fun row =>
        call.filters.all (hasField row.2.document) &&
          isFailure taskType row.2.document
  | .agents enrich keep =>
      let enriched := rows.map fun row =>
        (row.1, { row.2 with document := enrich rows row })
      enriched.filter fun row => keep row.2.document
  | _ =>
      rows.filter fun row => call.filters.all (hasField row.2.document)

/-- A listing for a user: the documents, and the total that goes with them. -/
def listDocs
    (store : GraphMarkerStore) (username : String) (call : ListCall)
    (page : Page) : List Row × Nat :=
  let keyPrefix := listingPrefix call.kind username call.components
  let found := listByPrefix store call.collection keyPrefix page
  let rows := page.resorted.arrange (call.select found.1)
  match rows, call.latest with
  | [], some key =>
      match store.markers.get? (key.text username) with
      | none => ([], 0)
      | some stored => ([(key.text username, stored)], 1)
  | _, _ =>
      (rows, if call.recounts then rows.length else found.2)

end Agentcy.GraphStore
