import Agentcy.Library.IsoTime
import Agentcy.Plans.SystemExecutor
import Agentcy.Plans.ValidPlans

/-!
# What the execution gates let through

A required gate is closed by the latest record of the plan if that does not
approve, and it is open while there is no record.  The latest record is the
one with the greatest text, which is the latest in time as far as texts order
as the times do.
-/

namespace Agentcy.Plans

open Agentcy.Library

universe u

/-- Tasks are launched, or reported on. -/
def ExecutionResult.Acts (result : ExecutionResult) : Prop :=
  result.started ≠ [] ∨ result.report.outcomes ≠ []

/-- A stored check or approval with the moment that its timestamp denotes. -/
structure GateRecord (τ : Type u) where
  doc : Fields
  time : τ
  stored : doc ≠ []

def GateRecord.approves {τ : Type u} (record : GateRecord τ) : Bool :=
  (record.doc.get "approved").truthy

section Records

variable {τ : Type u} [LE τ]

/-- One of the records that no other is later than approves. -/
def LatestApproves (records : List (GateRecord τ)) : Prop :=
  ∃ latest ∈ records, (∀ other ∈ records, other.time ≤ latest.time) ∧
    latest.approves = true

/-- Either there is no record, or the latest one approves. -/
def GateIsMet (records : List (GateRecord τ)) : Prop :=
  records = [] ∨ LatestApproves records

/-- Of two records the later one has the greater text. -/
def TextsFollowTimes (python : PyBuiltins) (field : String)
    (records : List (GateRecord τ)) : Prop :=
  ∀ first ∈ records, ∀ second ∈ records,
    timestampText python field first.doc ≤
        timestampText python field second.doc →
      first.time ≤ second.time

variable {python : PyBuiltins} {field : String}
  {records : List (GateRecord τ)}

/-- What the executor takes for the latest record is the latest in time. -/
theorem latestByTimestamp_some
    (follows : TextsFollowTimes python field records) {doc : Fields}
    (found : latestByTimestamp python (records.map GateRecord.doc) field =
      some doc) :
    ∃ latest ∈ records, latest.doc = doc ∧
      ∀ other ∈ records, other.time ≤ latest.time := by
  obtain ⟨latest, among, same⟩ :=
    List.mem_map.mp (List.argmax_mem found)
  refine ⟨latest, among, same, ?_⟩
  intro other isRecord
  apply follows other isRecord latest among
  rw [same]
  exact List.le_of_mem_argmax (List.mem_map_of_mem isRecord) found

/-- A required gate that does not close is met. -/
theorem gateIsMet_of_open
    (follows : TextsFollowTimes python field records)
    (isOpen : gateCloses python true (records.map GateRecord.doc) field =
      false) :
    GateIsMet records := by
  unfold gateCloses at isOpen
  rw [Bool.true_and] at isOpen
  cases found : latestByTimestamp python (records.map GateRecord.doc)
      field with
  | none =>
      have empty : records.map GateRecord.doc = [] :=
        List.argmax_eq_none.mp found
      exact Or.inl (List.map_eq_nil_iff.mp empty)
  | some doc =>
      obtain ⟨latest, among, rfl, isLatest⟩ :=
        latestByTimestamp_some follows found
      rw [found] at isOpen
      have approves : latest.approves = true := by
        have nonempty := latest.stored
        simpa [nonempty, GateRecord.approves] using isOpen
      exact Or.inr ⟨latest, among, isLatest, approves⟩

end Records

/-- A closed gate starts nothing and reports nothing. -/
theorem open_of_acts
    {setup : ExecutorSetup} {draft : PlanDraft}
    {pipelineRunId : Option String} {overrides : Overrides}
    {tasks ethicsChecks humanApprovals : List Fields}
    (acts : (setup.run draft pipelineRunId overrides tasks ethicsChecks
      humanApprovals).Acts) :
    gateCloses setup.python setup.ethicsRequired ethicsChecks
        "checked_at" = false ∧
      gateCloses setup.python setup.humanRequired humanApprovals
        "decided_at" = false := by
  unfold ExecutorSetup.run at acts
  dsimp only at acts
  split at acts
  · rcases acts with started | reported
    · exact absurd rfl started
    · exact absurd rfl reported
  · rename_i ethicsOpen
    split at acts
    · rcases acts with started | reported
      · exact absurd rfl started
      · exact absurd rfl reported
    · rename_i humanOpen
      exact ⟨Bool.eq_false_iff.mpr ethicsOpen,
        Bool.eq_false_iff.mpr humanOpen⟩

/-- For all records of a plan, in any order: where a gate is required, the
executor acts only if there is no record or the latest one approves, provided
that the texts of the records order as their times do. -/
theorem acts_only_if_gates_met
    (setup : ExecutorSetup) (draft : PlanDraft)
    (pipelineRunId : Option String) (overrides : Overrides)
    (tasks : List Fields) {τ : Type u} [LE τ]
    (ethicsChecks humanApprovals : List (GateRecord τ))
    (checksFollow :
      TextsFollowTimes setup.python "checked_at" ethicsChecks)
    (approvalsFollow :
      TextsFollowTimes setup.python "decided_at" humanApprovals)
    (acts : (setup.run draft pipelineRunId overrides tasks
      (ethicsChecks.map GateRecord.doc)
      (humanApprovals.map GateRecord.doc)).Acts) :
    (setup.ethicsRequired = true → GateIsMet ethicsChecks) ∧
      (setup.humanRequired = true → GateIsMet humanApprovals) := by
  obtain ⟨ethicsOpen, humanOpen⟩ := open_of_acts acts
  constructor
  · intro required
    rw [required] at ethicsOpen
    exact gateIsMet_of_open checksFollow ethicsOpen
  · intro required
    rw [required] at humanOpen
    exact gateIsMet_of_open approvalsFollow humanOpen

/-- A record with the time that `_utcnow` gave it. -/
def utcRecord (field : String) (approved : Bool) (time : UtcTime) :
    GateRecord (List Nat) where
  doc := [("approved", .bool approved), (field, .str time.isoText)]
  time := time.moment
  stored := List.cons_ne_nil _ _

theorem timestampText_utcRecord
    (python : PyBuiltins) {field : String} (named : field ≠ "approved")
    (approved : Bool) (time : UtcTime) :
    timestampText python field (utcRecord field approved time).doc =
      time.isoText := by
  have stamp : (utcRecord field approved time).doc.get field =
      .str time.isoText := by
    simp [utcRecord, Fields.get, OrderedMap.lookupEntries, named.symm]
  unfold timestampText
  rw [stamp]
  by_cases empty : time.isoText = ""
  · rw [empty]
    rfl
  · simp [Json.truthy, Json.pyStr, empty]

/-- The texts of records that all have a fraction of a second order as the
times do. -/
theorem textsFollowTimes_utc
    (python : PyBuiltins) {field : String} (named : field ≠ "approved")
    {stamps : List (Bool × UtcTime)}
    (fractions : ∀ stamp ∈ stamps, stamp.2.microsecond ≠ 0) :
    TextsFollowTimes python field
      (stamps.map fun stamp => utcRecord field stamp.1 stamp.2) := by
  intro first among second isRecord before
  obtain ⟨firstStamp, isFirst, rfl⟩ := List.mem_map.mp among
  obtain ⟨secondStamp, isSecond, rfl⟩ := List.mem_map.mp isRecord
  rw [timestampText_utcRecord python named,
    timestampText_utcRecord python named] at before
  exact (UtcTime.isoText_le_iff (fractions _ isFirst)
    (fractions _ isSecond)).mp before

def oneTask : List Fields :=
  [[("task_id", .str "collect")]]

def plainSetup : ExecutorSetup where
  python := plainEnv.python
  requireHuman := some "1"

def emptyPlan : PlanDraft where
  planId := "plan-1"
  username := "alice"
  pipelineId := "pipe-1"

def atSecond (second : Fin 60) : UtcTime where
  year := 2025
  month := 1
  day := 1
  hour := 0
  minute := 0
  second := second
  microsecond := 1
  yearFits := by decide
  monthFits := by decide
  dayFits := by decide
  hourFits := by decide
  minuteFits := by decide
  secondFits := second.isLt
  microsecondFits := by decide

/-- The tasks that the executor reports on. -/
def ExecutionResult.reported (result : ExecutionResult) : List String :=
  result.report.outcomes.map ExecutionOutcome.taskId

theorem acts_of_reported
    {result : ExecutionResult} {taskIds : List String}
    (reported : result.reported = taskIds) (some_ : taskIds ≠ []) :
    result.Acts := by
  apply Or.inr
  intro none
  rw [ExecutionResult.reported, none] at reported
  exact some_ reported.symm

/-- A check that was rejected first and approved later lets the plan pass. -/
def recheckedStamps : List (Bool × UtcTime) :=
  [(true, atSecond 5), (false, atSecond 0)]

def approvalStamps : List (Bool × UtcTime) :=
  [(true, atSecond 7)]

theorem rechecked_plan_passes :
    GateIsMet (recheckedStamps.map fun stamp =>
        utcRecord "checked_at" stamp.1 stamp.2) ∧
      GateIsMet (approvalStamps.map fun stamp =>
        utcRecord "decided_at" stamp.1 stamp.2) := by
  have gates := acts_only_if_gates_met plainSetup emptyPlan none ⟨[], []⟩
    oneTask
    (recheckedStamps.map fun stamp =>
      utcRecord "checked_at" stamp.1 stamp.2)
    (approvalStamps.map fun stamp =>
      utcRecord "decided_at" stamp.1 stamp.2)
    (textsFollowTimes_utc _ (by decide) (by decide))
    (textsFollowTimes_utc _ (by decide) (by decide))
    (acts_of_reported
      (by decide +kernel : _ = ["collect"]) (by decide))
  exact ⟨gates.1 (by decide), gates.2 (by decide)⟩

/-- Without any check the executor reports on the task, although ethics checks
are required. -/
theorem acts_without_check :
    plainSetup.ethicsRequired = true ∧
      (plainSetup.run emptyPlan none ⟨[], []⟩ oneTask [] []).Acts ∧
      ¬ LatestApproves ([] : List (GateRecord (List Nat))) := by
  refine ⟨by decide, ?_, ?_⟩
  · exact acts_of_reported
      (by decide +kernel : _ = ["collect"]) (by decide)
  · rintro ⟨latest, among, _⟩
    cases among

end Agentcy.Plans
