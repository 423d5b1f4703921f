import Agentcy.Tracker.Reforwarding

/-!
# A write of the run document that fails

Before it writes the run document, a call for a failed task moves the cursor of
the evaluation sequence and stores a new award.  If the write then fails,
neither is taken back, and the report, when it is delivered again, meets the
next candidate.
-/

namespace Agentcy.Tracker

open Agentcy.Library
open Agentcy.Runs

/-- The stored cursors and awards are what they were. -/
structure LeavesNoTrace (before after : Stores) : Prop where
  sequences : after.sequences = before.sequences
  awards : after.awards = before.awards

theorem LeavesNoTrace.refl (stores : Stores) :
    LeavesNoTrace stores stores :=
  ⟨rfl, rfl⟩

/-- The cursor of a sequence with a next candidate moves. -/
theorem advance_sequences_ne
    {stores : Stores} {username taskId planId : String}
    {target : Candidate × Nat}
    (next : stores.nextCandidate? username taskId planId = some target) :
    (stores.advanceEvaluationSequence username taskId planId).1.sequences ≠
      stores.sequences := by
  obtain ⟨sequence, stored, moves⟩ := Option.bind_eq_some_iff.mp next
  obtain ⟨candidate, found, -⟩ := Option.map_eq_some_iff.mp moves
  intro same
  have here :=
    congrFun same (evalSeqKey username taskId planId)
  simp only [Stores.advanceEvaluationSequence, stored, found,
    Function.update_self, Option.some.injEq] at here
  have cursor := congrArg EvaluationSequence.currentIndex here
  exact absurd cursor (Nat.succ_ne_self _)

section Call

variable (env : TrackerEnv) (clock : Clock) (faults : Faults)
  (stores : Stores) (event : TaskState)

theorem tryReforwardSync_noTrace_iff
    (run : PipelineRun) (known : (run.tasks.get? event.taskId).isSome) :
    LeavesNoTrace stores
        (tryReforwardSync env faults stores run event).stores ↔
      reforwardTarget? env stores event = none := by
  obtain ⟨taskState, found⟩ := Option.isSome_iff_exists.mp known
  unfold tryReforwardSync reforwardTarget?
  cases plan : planForReforward? env stores event with
  | none =>
      exact iff_of_true (LeavesNoTrace.refl stores) rfl
  | some planId =>
      simp only [found, Option.bind_some,
        Stores.advanceEvaluationSequence_snd]
      cases next :
          stores.nextCandidate? event.username event.taskId planId with
      | none =>
          have still :
              (stores.advanceEvaluationSequence event.username event.taskId
                planId).1 = stores := by
            rw [Stores.nextCandidate?] at next
            unfold Stores.advanceEvaluationSequence
            dsimp only
            split
            · rfl
            · rename_i sequence stored
              rw [stored, Option.bind_some, Option.map_eq_none_iff] at next
              rw [next]
          exact iff_of_true ⟨congrArg Stores.sequences still,
            congrArg Stores.awards still⟩ rfl
      | some target =>
          refine iff_of_false ?_ (Option.some_ne_none target)
          intro noTrace
          apply advance_sequences_ne next
          rw [← noTrace.sequences]
          unfold reassign
          dsimp only
          split <;> rfl

theorem closeUpdate_noTrace_iff
    (admitted : Admitted) (failed : event.status = .failed) :
    LeavesNoTrace stores
        (closeUpdate env clock faults stores admitted event).stores ↔
      reforwardTarget? env stores event = none := by
  have known :
      ((putTask admitted.run event).tasks.get? event.taskId).isSome := by
    simp
  rw [← tryReforwardSync_noTrace_iff env faults stores event _ known]
  unfold closeUpdate
  dsimp only
  rw [if_pos failed]
  split <;> exact Iff.rfl

variable (tracker : TrackerState)

/-- A call whose write raises leaves what it had done to the stores by
then. -/
theorem stores_of_updateRaised
    (raised :
      (onTaskDone env clock faults tracker stores event).verdict =
        .updateRaised) :
    ∃ admitted,
      (onTaskDone env clock faults tracker stores event).stores =
        (closeUpdate env clock faults stores admitted event).stores := by
  unfold onTaskDone at raised ⊢
  dsimp only at raised ⊢
  split at raised
  · cases raised
  · rename_i fresh
    rw [if_neg fresh]
    split at raised
    · cases raised
    · rename_i doc stored
      split at raised
      · rename_i verdict rejected
        unfold acceptEvent at rejected
        dsimp only at raised
        split at rejected
        · cases rejected
          cases raised
        · split at rejected
          · cases rejected
          · cases rejected
            cases raised
      · rename_i admitted accepted
        split at raised
        · rename_i raises
          rw [if_pos raises]
          exact ⟨admitted, rfl⟩
        · cases raised

end Call

/-- A failed task whose run document cannot be written leaves the cursors and
the awards as they were exactly if no candidate was there to take it over. -/
theorem failed_persist_leaves_no_trace_iff
    (env : TrackerEnv) (clock : Clock) (faults : Faults)
    (tracker : TrackerState) (stores : Stores) (event : TaskState)
    (failed : event.status = .failed)
    (raised :
      (onTaskDone env clock faults tracker stores event).verdict =
        .updateRaised) :
    LeavesNoTrace stores
        (onTaskDone env clock faults tracker stores event).stores ↔
      reforwardTarget? env stores event = none := by
  obtain ⟨admitted, written⟩ :=
    stores_of_updateRaised env clock faults stores event tracker raised
  rw [written]
  exact
    closeUpdate_noTrace_iff env clock faults stores event admitted failed

/-- Without re-forwarding nothing is left behind. -/
theorem failed_persist_without_reforward :
    LeavesNoTrace reforwardSystem.stores
        (onTaskDone { failureReforward := false } ⟨0, 0, 0⟩
          { updateRunFails := true } {} reforwardSystem.stores
          taskFailure.event).stores ↔
      reforwardTarget? { failureReforward := false } reforwardSystem.stores
        taskFailure.event = none :=
  failed_persist_leaves_no_trace_iff { failureReforward := false }
    ⟨0, 0, 0⟩ { updateRunFails := true } {} reforwardSystem.stores
    taskFailure.event rfl (by decide +kernel)

/-- The second candidate is used up by a report whose write fails. -/
theorem failed_persist_moves_cursor :
    (onTaskDone {} ⟨0, 0, 0⟩ { updateRunFails := true } {}
        reforwardSystem.stores taskFailure.event).verdict =
        .updateRaised ∧
      ¬ LeavesNoTrace reforwardSystem.stores
        (onTaskDone {} ⟨0, 0, 0⟩ { updateRunFails := true } {}
          reforwardSystem.stores taskFailure.event).stores := by
  refine ⟨by decide +kernel, ?_⟩
  intro noTrace
  have before :
      (reforwardSystem.stores.sequences
        (evalSeqKey "alice" "t" "plan-1")).map
          EvaluationSequence.currentIndex = some 0 := by
    decide +kernel
  rw [← noTrace.sequences] at before
  exact absurd before (by decide +kernel)

end Agentcy.Tracker
