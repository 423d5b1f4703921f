import Agentcy.Topology.StepLines

/-!
# Built-in topology skeletons

`get_logistics_seeds`: four workflows, each with the rules that adapt it to a
business template.
-/

namespace Agentcy.Topology

open Agentcy.Library

/-- A skeleton with what the retrieval reads besides. -/
structure LibrarySkeleton extends TopologySkeleton where
  description : String := ""
  controlPatterns : List String := []
  enabled : Bool := true

def complianceVerify : SkeletonStep where
  stepId := "compliance_verify"
  role := "verify"
  name := "Compliance Verification"
  description :=
    "Verify decision against compliance rules and regulations."
  requiredCapabilities := ["validate", "data_read"]
  requiredTags := ["compliance", "verification"]
  coordinationMode := some "coalition_allowed"

def complianceGateRule (afterStepId : String) : MutationRule where
  ruleId := "rule_compliance_gate"
  name := "Insert compliance verification gate"
  priority := 100
  conditions :=
    [{ field := "compliance_strictness", operator := .eq,
       value := .str "strict" }]
  actions :=
    [{ actionType := .insertAfter
       targetStepId := afterStepId
       step := some complianceVerify }]

def humanApprove : SkeletonStep where
  stepId := "human_approve"
  role := "approve"
  name := "Human Approval"
  description := "Route to human operator for review and approval."
  requiredCapabilities := ["human_review"]
  requiredTags := ["approval", "human_in_the_loop"]

def humanApprovalRule (afterStepId : String) : MutationRule where
  ruleId := "rule_human_approval"
  name := "Insert human approval gate"
  priority := 90
  conditions :=
    [{ field := "human_approval_required", operator := .eq,
       value := .bool true }]
  actions :=
    [{ actionType := .insertAfter
       targetStepId := afterStepId
       step := some humanApprove }]

def emailNotify : SkeletonStep where
  stepId := "email_notify"
  role := "notify"
  name := "Email Notification"
  description := "Send status notification via email."
  requiredCapabilities := ["integration", "notification"]
  requiredTags := ["email", "notification"]
  isFinal := true

def emailNotifyRule (finalStepId : String) : MutationRule where
  ruleId := "rule_email_notify"
  name := "Append email notification"
  priority := 50
  conditions :=
    [{ field := "integration_types", operator := .isIn,
       value := .str "email" }]
  actions :=
    [{ actionType := .insertAfter
       targetStepId := finalStepId
       step := some emailNotify },
     -- Unmark the previous final step.
     { actionType := .modifyField
       targetStepId := finalStepId
       fieldPath := some "is_final"
       fieldValue := .bool false }]

def carrierAdapter : SkeletonStep where
  stepId := "carrier_adapter"
  role := "integrate"
  name := "Carrier API Adapter"
  description := "Connect to carrier API for rates, booking, or tracking."
  requiredCapabilities := ["http_request", "api_call"]
  requiredTags := ["carrier", "integration"]

def carrierApiAdapterRule (beforeStepId : String) : MutationRule where
  ruleId := "rule_carrier_adapter"
  name := "Insert carrier API adapter"
  priority := 70
  conditions :=
    [{ field := "integration_types", operator := .isIn,
       value := .str "carrier_api" }]
  actions :=
    [{ actionType := .insertBefore
       targetStepId := beforeStepId
       step := some carrierAdapter }]

section Suits

variable {ids : List String} {targetId : String}

theorem complianceGateRule_suits
    (later : String) (order : [targetId, later].Sublist ids) :
    ∃ edit : LineEdit,
      (complianceGateRule targetId).actions = edit.actions ∧
        edit.Suits ids :=
  ⟨.insertAfter targetId complianceVerify, rfl,
    .insertAfter order ⟨rfl, rfl⟩ rfl⟩

theorem humanApprovalRule_suits
    (later : String) (order : [targetId, later].Sublist ids) :
    ∃ edit : LineEdit,
      (humanApprovalRule targetId).actions = edit.actions ∧
        edit.Suits ids :=
  ⟨.insertAfter targetId humanApprove, rfl,
    .insertAfter order ⟨rfl, rfl⟩ rfl⟩

theorem emailNotifyRule_suits (isLast : ids.getLast? = some targetId) :
    ∃ edit : LineEdit,
      (emailNotifyRule targetId).actions = edit.actions ∧
        edit.Suits ids :=
  ⟨.append targetId emailNotify, rfl, .append isLast ⟨rfl, rfl⟩ rfl⟩

theorem carrierApiAdapterRule_suits
    (earlier : String) (order : [earlier, targetId].Sublist ids) :
    ∃ edit : LineEdit,
      (carrierApiAdapterRule targetId).actions = edit.actions ∧
        edit.Suits ids :=
  ⟨.insertBefore targetId carrierAdapter, rfl,
    .insertBefore order ⟨rfl, rfl⟩ rfl⟩

end Suits

def shipmentExceptionSkeleton : LibrarySkeleton where
  skeletonId := "skel_shipment_exception_v1"
  name := "Shipment Exception Handling"
  workflowClass := "shipment_exception"
  description := "Handles shipment delays, damage, or routing issues. " ++
    "Intake → classify cause → decide action → execute → verify → notify."
  steps :=
    [{ stepId := "intake"
       role := "intake"
       name := "Exception Intake"
       description := "Receive and parse shipment exception alert from " ++
         "TMS or carrier."
       requiredCapabilities := ["data_read", "parse"]
       isEntry := true },
     { stepId := "classify"
       role := "classify"
       name := "Classify Exception"
       description := "Classify exception type: delay, damage, misroute, " ++
         "customs hold, etc."
       requiredCapabilities := ["processing", "ml_inference"]
       requiredTags := ["classification"]
       dependencies := ["intake"] },
     { stepId := "decide"
       role := "decide"
       name := "Decide Action"
       description := "Determine corrective action: reroute, escalate, " ++
         "notify customer, file claim."
       requiredCapabilities := ["processing", "validate"]
       requiredTags := ["decision"]
       dependencies := ["classify"]
       coordinationMode := some "coalition_allowed" },
     { stepId := "execute"
       role := "execute"
       name := "Execute Action"
       description := "Execute the decided corrective action (API calls, " ++
         "updates, etc.)."
       requiredCapabilities := ["http_request", "data_write"]
       requiredTags := ["execution"]
       dependencies := ["decide"] },
     { stepId := "verify"
       role := "verify"
       name := "Verify Resolution"
       description := "Verify the exception has been resolved or " ++
         "escalate further."
       requiredCapabilities := ["validate", "data_read"]
       requiredTags := ["verification"]
       dependencies := ["execute"] },
     { stepId := "notify"
       role := "notify"
       name := "Notify Stakeholders"
       description := "Send resolution notification to relevant " ++
         "stakeholders."
       requiredCapabilities := ["notification"]
       requiredTags := ["notification"]
       dependencies := ["verify"]
       isFinal := true }]
  mutationRules :=
    [complianceGateRule "decide", humanApprovalRule "decide",
      emailNotifyRule "notify"]
  controlPatterns := ["verification_gate", "retry_wrapper"]

def orderFulfillmentSkeleton : LibrarySkeleton where
  skeletonId := "skel_order_fulfillment_v1"
  name := "Order Fulfillment"
  workflowClass := "order_fulfillment"
  description := "End-to-end order processing: intake → validate → " ++
    "check inventory → allocate → pick & pack → ship → confirm."
  steps :=
    [{ stepId := "intake"
       role := "intake"
       name := "Order Intake"
       description := "Receive and parse incoming order from ERP or " ++
         "e-commerce platform."
       requiredCapabilities := ["data_read", "parse"]
       isEntry := true },
     { stepId := "validate"
       role := "verify"
       name := "Validate Order"
       description := "Validate order completeness, pricing, and " ++
         "customer eligibility."
       requiredCapabilities := ["validate", "data_read"]
       requiredTags := ["validation"]
       dependencies := ["intake"] },
     { stepId := "check_inventory"
       role := "integrate"
       name := "Check Inventory"
       description := "Query WMS for stock availability at applicable " ++
         "warehouses."
       requiredCapabilities := ["db_read", "api_call"]
       requiredTags := ["inventory", "wms"]
       dependencies := ["validate"] },
     { stepId := "allocate"
       role := "decide"
       name := "Allocate Warehouse"
       description := "Select optimal warehouse and allocate inventory."
       requiredCapabilities := ["processing", "validate"]
       requiredTags := ["allocation", "decision"]
       dependencies := ["check_inventory"]
       coordinationMode := some "coalition_allowed" },
     { stepId := "pick_pack"
       role := "execute"
       name := "Pick & Pack"
       description := "Trigger pick and pack workflow at allocated " ++
         "warehouse."
       requiredCapabilities := ["data_write", "api_call"]
       requiredTags := ["warehouse", "fulfillment"]
       dependencies := ["allocate"] },
     { stepId := "ship"
       role := "execute"
       name := "Ship Order"
       description := "Book carrier and generate shipping label."
       requiredCapabilities := ["http_request", "data_write"]
       requiredTags := ["shipping", "carrier"]
       dependencies := ["pick_pack"] },
     { stepId := "confirm"
       role := "notify"
       name := "Confirm Delivery"
       description := "Send order confirmation and tracking information " ++
         "to customer."
       requiredCapabilities := ["notification", "data_write"]
       requiredTags := ["confirmation", "notification"]
       dependencies := ["ship"]
       isFinal := true }]
  mutationRules :=
    [humanApprovalRule "allocate", complianceGateRule "allocate",
      emailNotifyRule "confirm",
      { ruleId := "rule_wms_adapter"
        name := "Insert WMS adapter for inventory check"
        priority := 70
        conditions :=
          [{ field := "integration_types", operator := .isIn,
             value := .str "wms" }]
        actions :=
          [{ actionType := .modifyField
             targetStepId := "check_inventory"
             fieldPath := some "required_capabilities"
             fieldValue := .list
               [.str "db_read", .str "api_call", .str "http_request"] }] }]
  controlPatterns := ["verification_gate", "fan_out_fan_in"]

def carrierSelectionSkeleton : LibrarySkeleton where
  skeletonId := "skel_carrier_selection_v1"
  name := "Carrier Selection & Rate Optimization"
  workflowClass := "carrier_selection"
  description := "Compare carrier rates and select optimal carrier for a " ++
    "shipment: intake → collect rates → score → select → book."
  steps :=
    [{ stepId := "intake"
       role := "intake"
       name := "Shipment Specs Intake"
       description := "Receive shipment specifications: dimensions, " ++
         "weight, origin, destination, SLA."
       requiredCapabilities := ["data_read", "parse"]
       isEntry := true },
     { stepId := "collect_rates"
       role := "integrate"
       name := "Collect Carrier Rates"
       description := "Query multiple carrier APIs for rate quotes."
       requiredCapabilities := ["http_request", "api_call"]
       requiredTags := ["carrier", "rates"]
       dependencies := ["intake"] },
     { stepId := "score_carriers"
       role := "decide"
       name := "Score Carriers"
       description := "Score and rank carriers by cost, reliability, " ++
         "transit time, and SLA fit."
       requiredCapabilities := ["processing", "statistics"]
       requiredTags := ["scoring", "optimization"]
       dependencies := ["collect_rates"]
       coordinationMode := some "coalition_allowed" },
     { stepId := "select"
       role := "decide"
       name := "Select Carrier"
       description := "Select the best carrier based on scoring and " ++
         "business rules."
       requiredCapabilities := ["processing", "validate"]
       requiredTags := ["selection", "decision"]
       dependencies := ["score_carriers"] },
     { stepId := "book"
       role := "execute"
       name := "Book Shipment"
       description := "Book the shipment with the selected carrier and " ++
         "generate tracking."
       requiredCapabilities := ["http_request", "data_write"]
       requiredTags := ["booking", "carrier"]
       dependencies := ["select"]
       isFinal := true }]
  mutationRules :=
    [complianceGateRule "score_carriers",
      carrierApiAdapterRule "collect_rates", emailNotifyRule "book"]
  controlPatterns := ["retry_wrapper"]

def customsComplianceSkeleton : LibrarySkeleton where
  skeletonId := "skel_customs_compliance_v1"
  name := "Customs & Compliance Review"
  workflowClass := "customs_compliance"
  description := "Review shipment for customs compliance: extract docs → " ++
    "classify goods → compliance check → approve → submit declarations."
  steps :=
    [{ stepId := "intake"
       role := "intake"
       name := "Document Intake"
       description := "Receive shipment documentation: invoices, packing " ++
         "lists, certificates."
       requiredCapabilities := ["data_read", "parse"]
       isEntry := true },
     { stepId := "extract_docs"
       role := "classify"
       name := "Extract Document Data"
       description := "Extract structured data from shipping documents " ++
         "using OCR/NLP."
       requiredCapabilities := ["parse", "ml_inference"]
       requiredTags := ["extraction", "nlp"]
       dependencies := ["intake"] },
     { stepId := "classify_goods"
       role := "classify"
       name := "Classify Goods"
       description := "Classify goods by HS code, determine tariff " ++
         "category and restrictions."
       requiredCapabilities := ["processing", "ml_inference"]
       requiredTags := ["classification", "customs"]
       dependencies := ["extract_docs"] },
     { stepId := "compliance_check"
       role := "verify"
       name := "Compliance Check"
       description := "Check against trade regulations, sanctions lists, " ++
         "and import restrictions."
       requiredCapabilities := ["validate", "db_read"]
       requiredTags := ["compliance", "regulations"]
       dependencies := ["classify_goods"]
       coordinationMode := some "coalition_allowed" },
     { stepId := "approve"
       role := "approve"
       name := "Approve Declaration"
       description := "Review and approve customs declaration for " ++
         "submission."
       requiredCapabilities := ["validate", "human_review"]
       requiredTags := ["approval"]
       dependencies := ["compliance_check"] },
     { stepId := "submit"
       role := "execute"
       name := "Submit Declaration"
       description := "Submit customs declaration to relevant authority."
       requiredCapabilities := ["http_request", "data_write"]
       requiredTags := ["customs", "submission"]
       dependencies := ["approve"]
       isFinal := true }]
  mutationRules :=
    [complianceGateRule "compliance_check",
      humanApprovalRule "compliance_check", emailNotifyRule "submit",
      { ruleId := "rule_customs_db_adapter"
        name := "Enhance compliance check with customs DB"
        priority := 70
        conditions :=
          [{ field := "integration_types", operator := .isIn,
             value := .str "customs_db" }]
        actions :=
          [{ actionType := .modifyField
             targetStepId := "compliance_check"
             fieldPath := some "required_capabilities"
             fieldValue := .list
               [.str "validate", .str "db_read", .str "http_request"]
             }] }]
  controlPatterns := ["verification_gate", "human_approval"]

/-! ## The seeds are lines -/

/-- The steps form a line, the rules fit it, and no condition compares
numbers. -/
structure TopologySkeleton.Linear (skeleton : TopologySkeleton) :
    Prop where
  nonempty : skeleton.steps ≠ []
  line : IsLine skeleton.steps
  fits : FitsLine (stepIds skeleton.steps) skeleton.mutationRules
  unordered : ∀ rule ∈ skeleton.mutationRules,
    ∀ condition ∈ rule.conditions,
      condition.operator ≠ .gte ∧ condition.operator ≠ .lte

theorem shipmentException_linear :
    shipmentExceptionSkeleton.toTopologySkeleton.Linear where
  nonempty := List.cons_ne_nil _ _
  line := ⟨by decide, by decide⟩
  fits := by
    refine ⟨?_, by decide, by decide⟩
    intro rule member
    simp only [shipmentExceptionSkeleton, List.mem_cons,
      List.not_mem_nil, or_false] at member
    rcases member with rfl | rfl | rfl
    · exact complianceGateRule_suits "execute" (by decide)
    · exact humanApprovalRule_suits "execute" (by decide)
    · exact emailNotifyRule_suits rfl
  unordered := by decide

theorem orderFulfillment_linear :
    orderFulfillmentSkeleton.toTopologySkeleton.Linear where
  nonempty := List.cons_ne_nil _ _
  line := ⟨by decide, by decide⟩
  fits := by
    refine ⟨?_, by decide, by decide⟩
    intro rule member
    simp only [orderFulfillmentSkeleton, List.mem_cons,
      List.not_mem_nil, or_false] at member
    rcases member with rfl | rfl | rfl | rfl
    · exact humanApprovalRule_suits "pick_pack" (by decide)
    · exact complianceGateRule_suits "pick_pack" (by decide)
    · exact emailNotifyRule_suits rfl
    · exact
        ⟨.equip "check_inventory" ["db_read", "api_call", "http_request"],
          rfl, .equip (by decide) _⟩
  unordered := by decide

theorem carrierSelection_linear :
    carrierSelectionSkeleton.toTopologySkeleton.Linear where
  nonempty := List.cons_ne_nil _ _
  line := ⟨by decide, by decide⟩
  fits := by
    refine ⟨?_, by decide, by decide⟩
    intro rule member
    simp only [carrierSelectionSkeleton, List.mem_cons,
      List.not_mem_nil, or_false] at member
    rcases member with rfl | rfl | rfl
    · exact complianceGateRule_suits "select" (by decide)
    · exact carrierApiAdapterRule_suits "intake" (by decide)
    · exact emailNotifyRule_suits rfl
  unordered := by decide

theorem customsCompliance_linear :
    customsComplianceSkeleton.toTopologySkeleton.Linear where
  nonempty := List.cons_ne_nil _ _
  line := ⟨by decide, by decide⟩
  fits := by
    refine ⟨?_, by decide, by decide⟩
    intro rule member
    simp only [customsComplianceSkeleton, List.mem_cons,
      List.not_mem_nil, or_false] at member
    rcases member with rfl | rfl | rfl | rfl
    · exact complianceGateRule_suits "approve" (by decide)
    · exact humanApprovalRule_suits "approve" (by decide)
    · exact emailNotifyRule_suits rfl
    · exact
        ⟨.equip "compliance_check" ["validate", "db_read", "http_request"],
          rfl, .equip (by decide) _⟩
  unordered := by decide

def getLogisticsSeeds : List LibrarySkeleton :=
  [shipmentExceptionSkeleton, orderFulfillmentSkeleton,
    carrierSelectionSkeleton, customsComplianceSkeleton]

theorem linear_of_seed
    {seed : LibrarySkeleton} (member : seed ∈ getLogisticsSeeds) :
    seed.toTopologySkeleton.Linear := by
  simp only [getLogisticsSeeds, List.mem_cons, List.not_mem_nil,
    or_false] at member
  rcases member with rfl | rfl | rfl | rfl
  · exact shipmentException_linear
  · exact orderFulfillment_linear
  · exact carrierSelection_linear
  · exact customsCompliance_linear

/-- The rule alone brings the gate, and puts it behind a step that comes
before every step that executes. -/
structure Guards (skeleton : TopologySkeleton) (rule : MutationRule)
    (gate : SkeletonStep) : Prop where
  isRule : rule ∈ skeleton.mutationRules
  distinctIds : (skeleton.mutationRules.map MutationRule.ruleId).Nodup
  sole : ∀ other ∈ skeleton.mutationRules,
    gate.stepId ∈ stepIds (insertedSteps [other]) →
      other.ruleId = rule.ruleId
  unlisted : gate.stepId ∉ stepIds skeleton.steps
  executes : ∃ step ∈ skeleton.steps, step.role = "execute"
  inserts : ∃ targetId,
    rule.actions = (LineEdit.insertAfter targetId gate).actions ∧
      ∀ step ∈ skeleton.steps, step.role = "execute" →
        [targetId, step.stepId].Sublist (stepIds skeleton.steps)

theorem compliance_guards
    {seed : LibrarySkeleton} (member : seed ∈ getLogisticsSeeds) :
    ∃ afterStepId,
      Guards seed.toTopologySkeleton (complianceGateRule afterStepId)
        complianceVerify := by
  simp only [getLogisticsSeeds, List.mem_cons, List.not_mem_nil,
    or_false] at member
  rcases member with rfl | rfl | rfl | rfl
  · exact ⟨"decide", List.mem_cons_self, by decide, by decide, by decide,
      by decide, "decide", rfl, by decide⟩
  · exact ⟨"allocate", List.mem_cons_of_mem _ List.mem_cons_self,
      by decide, by decide, by decide, by decide, "allocate", rfl,
      by decide⟩
  · exact ⟨"score_carriers", List.mem_cons_self, by decide, by decide,
      by decide, by decide, "score_carriers", rfl, by decide⟩
  · exact ⟨"compliance_check", List.mem_cons_self, by decide, by decide,
      by decide, by decide, "compliance_check", rfl, by decide⟩

/-- The selection of carriers alone has no human gate. -/
theorem human_guards
    {seed : LibrarySkeleton} (member : seed ∈ getLogisticsSeeds) :
    (seed.skeletonId ≠ carrierSelectionSkeleton.skeletonId ∧
      ∃ afterStepId,
        Guards seed.toTopologySkeleton (humanApprovalRule afterStepId)
          humanApprove) ∨
    (seed.skeletonId = carrierSelectionSkeleton.skeletonId ∧
      humanApprove.stepId ∉ stepIds seed.steps ∧
        humanApprove.stepId ∉
          stepIds (insertedSteps seed.mutationRules)) := by
  simp only [getLogisticsSeeds, List.mem_cons, List.not_mem_nil,
    or_false] at member
  rcases member with rfl | rfl | rfl | rfl
  · exact Or.inl ⟨by decide, "decide",
      List.mem_cons_of_mem _ List.mem_cons_self, by decide, by decide,
      by decide, by decide, "decide", rfl, by decide⟩
  · exact Or.inl ⟨by decide, "allocate", List.mem_cons_self, by decide,
      by decide, by decide, by decide, "allocate", rfl, by decide⟩
  · exact Or.inr ⟨rfl, by decide, by decide⟩
  · exact Or.inl ⟨by decide, "compliance_check",
      List.mem_cons_of_mem _ List.mem_cons_self, by decide, by decide,
      by decide, by decide, "compliance_check", rfl, by decide⟩

end Agentcy.Topology
