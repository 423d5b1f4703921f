import Agentcy.Runs.EphemeralStore

/-!
# Writers of run documents besides the tracker

The launcher creates the document, the plan builder and the plan-revision
consumer note the plan in it, and the strategist loop pauses and resumes it.
Each of them reads the document as it lies in the bucket, changes its own keys
and writes the rest back as it was.
-/

namespace Agentcy.Runs

open Agentcy.Library

namespace Stores

/-- An insert of a fresh run document; a second insert is refused. -/
def createRun (stores : Stores) (key : String) (run : PipelineRun) :
    Stores :=
  match stores.readRun key with
  | none => stores.updateRun key run.modelDump
  | some _ => stores

/-- The keys `plan_id` and `plan_revision` of an existing document. -/
def recordPlan
    (stores : Stores) (key planId : String) (revision : Int) : Stores :=
  match stores.readRun key with
  | none => stores
  | some doc =>
      stores.updateRun key
        { doc with
          planId := some planId
          planRevision := some revision }

/-- The pause of an existing document, or its end. -/
def setRunPauseState
    (stores : Stores) (key : String) (paused : Bool)
    (reason suggestionId : Option String) (now : Timestamp) : Stores :=
  match stores.readRun key with
  | none => stores
  | some doc =>
      let context : OrderedMap String Json :=
        OrderedMap.empty.set "suggestion_id"
          ((suggestionId.map Json.text).getD .null)
      let run :=
        { doc.run with
          paused := paused
          pauseReason := if paused then reason else none
          pauseContext := some (if paused then context else .empty)
          pausedAt := if paused then some now else doc.run.pausedAt
          resumedAt := if paused then doc.run.resumedAt else some now }
      stores.updateRun key { doc with run := run }

def storedPlan? (stores : Stores) (key : String) : Option String :=
  (stores.readRun key).bind RunDoc.planId

theorem storedPlan?_updateRun
    (stores : Stores) (tested key : String) (doc : RunDoc) :
    (stores.updateRun key doc).storedPlan? tested =
      if tested = key then doc.planId else stores.storedPlan? tested := by
  by_cases same : tested = key
  · simp [storedPlan?, same]
  · rw [storedPlan?, readRun_updateRun_other stores doc same,
      if_neg same]
    rfl

/-- A fresh document carries no plan, and a refused insert changes none. -/
theorem storedPlan?_createRun
    (stores : Stores) (tested key : String) (run : PipelineRun) :
    (stores.createRun key run).storedPlan? tested = none ∨
      (stores.createRun key run).storedPlan? tested =
        stores.storedPlan? tested := by
  unfold createRun
  split
  · rw [storedPlan?_updateRun]
    split
    · exact Or.inl rfl
    · exact Or.inr rfl
  · exact Or.inr rfl

/-- After the note the document carries the noted plan or, when there is no
document, the plan it carried. -/
theorem storedPlan?_recordPlan
    (stores : Stores) (tested key planId : String) (revision : Int) :
    (stores.recordPlan key planId revision).storedPlan? tested =
      if tested = key ∧ (stores.readRun key).isSome then some planId
      else stores.storedPlan? tested := by
  unfold recordPlan
  cases stored : stores.readRun key with
  | none =>
      simp
  | some doc =>
      simp [storedPlan?_updateRun]

theorem storedPlan?_setRunPauseState
    (stores : Stores) (tested key : String) (paused : Bool)
    (reason suggestionId : Option String) (now : Timestamp) :
    (stores.setRunPauseState key paused reason suggestionId
      now).storedPlan? tested = stores.storedPlan? tested := by
  unfold setRunPauseState
  cases stored : stores.readRun key with
  | none =>
      rfl
  | some doc =>
      rw [storedPlan?_updateRun]
      by_cases same : tested = key
      · simp [storedPlan?, same, stored]
      · rw [if_neg same]

end Stores

end Agentcy.Runs
