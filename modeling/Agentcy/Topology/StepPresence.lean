import Agentcy.Topology.StepNodes

/-!
# Steps that stay

A step stays in the list through every action that does not drop it, whether
or not the steps stand for a DAG, and an insertion next to a step that is there
adds the new one.
-/

namespace Agentcy.Topology

open Agentcy.Library

/-- A step with this identifier is in the list. -/
def Present (stepId : String) (steps : List StepObject) : Prop :=
  ∃ step ∈ steps, step.stepId = .str stepId

/-- The action takes the step with this identifier away, or its
identifier. -/
def Drops (stepId : String) (action : MutationAction) : Prop :=
  action.targetStepId = stepId ∧
    (action.actionType = .remove ∨
      action.actionType = .modifyField ∧
        action.fieldPath = some "step_id")

/-- None of the actions drops the step. -/
def Spares (rules : List MutationRule) (stepId : String) : Prop :=
  ∀ rule ∈ rules, ∀ action ∈ rule.actions, ¬ Drops stepId action

section Actions

@[simp]
theorem stepId_setDependencies
    (step : StepObject) (items : List Json) :
    (step.setDependencies items).stepId = step.stepId :=
  Fields.get_set_other _ _ (by decide)

/-- Only the dependencies of the step may have changed. -/
def Relinked (step result : StepObject) : Prop :=
  ∀ name, name ≠ "dependencies" →
    Fields.get result.attributes name = Fields.get step.attributes name

theorem relinked_setDependencies (step : StepObject) (items : List Json) :
    Relinked step (step.setDependencies items) :=
  fun _ other => Fields.get_set_other _ _ other

theorem Relinked.stepId_eq
    {step result : StepObject} (relinked : Relinked step result) :
    result.stepId = step.stepId :=
  relinked "step_id" (by decide)

theorem relinked_of_rewireDependent
    {targetId newId : String} {step result : StepObject}
    (rewired : rewireDependent targetId newId step = .ok result) :
    Relinked step result := by
  unfold rewireDependent at rewired
  split at rewired
  · rw [← Except.ok.inj rewired]
    exact fun _ _ => rfl
  · rw [bind_eq_ok] at rewired
    obtain ⟨depends, _, rewired⟩ := rewired
    cases depends with
    | false =>
        rw [← Except.ok.inj rewired]
        exact fun _ _ => rfl
    | true =>
        rw [if_pos rfl, bind_eq_ok] at rewired
        obtain ⟨dependencies, _, rewired⟩ := rewired
        rw [← Except.ok.inj rewired]
        exact relinked_setDependencies _ _

theorem relinked_of_rewireRemoved
    {targetId : String} {removedDeps : List Json}
    {step result : StepObject}
    (rewired : rewireRemoved targetId removedDeps step = .ok result) :
    Relinked step result := by
  unfold rewireRemoved at rewired
  rw [bind_eq_ok] at rewired
  obtain ⟨depends, _, rewired⟩ := rewired
  cases depends with
  | false =>
      rw [← Except.ok.inj rewired]
      exact fun _ _ => rfl
  | true =>
      rw [if_pos rfl, bind_eq_ok] at rewired
      obtain ⟨dependencies, _, rewired⟩ := rewired
      rw [bind_eq_ok] at rewired
      obtain ⟨distinct, _, rewired⟩ := rewired
      rw [← Except.ok.inj rewired]
      exact relinked_setDependencies _ _

theorem Present.mapM
    {stepId : String} {steps results : List StepObject}
    (present : Present stepId steps)
    {change : StepObject → Except PyError StepObject}
    (keeps : ∀ step result, change step = .ok result →
      result.stepId = step.stepId)
    (changed : steps.mapM change = .ok results) :
    Present stepId results := by
  obtain ⟨step, member, named⟩ := present
  obtain ⟨place, found⟩ := List.mem_iff_getElem?.mp member
  obtain ⟨result, isResult, changedStep⟩ :=
    getElem?_mapM_ok changed found
  exact
    ⟨result, List.mem_of_getElem? isResult,
      (keeps step result changedStep).trans named⟩

theorem Present.modify
    {stepId : String} {steps : List StepObject}
    (present : Present stepId steps) (index : Nat)
    {change : StepObject → StepObject}
    (keeps : ∀ step, steps[index]? = some step →
      step.stepId = .str stepId → (change step).stepId = step.stepId) :
    Present stepId (steps.modify index change) := by
  obtain ⟨step, member, named⟩ := present
  obtain ⟨place, found⟩ := List.mem_iff_getElem?.mp member
  by_cases here : place = index
  · subst here
    refine ⟨change step, ?_, (keeps step found named).trans named⟩
    apply List.mem_of_getElem?
    rw [List.getElem?_modify_eq, found]
    rfl
  · refine ⟨step, ?_, named⟩
    apply List.mem_of_getElem?
    rw [List.getElem?_modify_ne change steps (Ne.symm here), found]

theorem present_insertIdx_iff
    {stepId : String} {steps : List StepObject} {index : Nat}
    (inside : index ≤ steps.length) (step : StepObject) :
    Present stepId (steps.insertIdx index step) ↔
      step.stepId = .str stepId ∨ Present stepId steps := by
  unfold Present
  simp only [List.mem_insertIdx inside]
  constructor
  · rintro ⟨found, rfl | old, named⟩
    · exact Or.inl named
    · exact Or.inr ⟨found, old, named⟩
  · rintro (named | ⟨found, old, named⟩)
    · exact ⟨step, Or.inl rfl, named⟩
    · exact ⟨found, Or.inr old, named⟩

/-- The step that is found has the identifier that was looked for. -/
theorem findStepIndex_some
    {steps : List StepObject} {targetId : String} {index : Nat}
    (found : findStepIndex steps targetId = some index) :
    index < steps.length ∧
      ∀ step, steps[index]? = some step →
        ∀ stepId, step.stepId = .str stepId → stepId = targetId := by
  obtain ⟨inside, isTarget, _⟩ :=
    List.findIdx?_eq_some_iff_getElem.mp found
  refine ⟨inside, ?_⟩
  intro step here stepId named
  rw [List.getElem?_eq_getElem inside] at here
  rw [Option.some.inj here, named, pyEq_str] at isTarget
  exact of_decide_eq_true isTarget

theorem findStepIndex_of_present
    {steps : List StepObject} {targetId : String}
    (present : Present targetId steps) :
    ∃ index, findStepIndex steps targetId = some index := by
  obtain ⟨step, member, named⟩ := present
  apply Option.isSome_iff_exists.mp
  rw [findStepIndex, List.findIdx?_isSome, List.any_eq_true]
  refine ⟨step, member, ?_⟩
  rw [named, pyEq_str]
  exact decide_eq_true rfl

theorem present_insertStepAfter
    {steps later : List StepObject} {targetIdx : Nat}
    (inside : targetIdx < steps.length) {targetId : String}
    {newStep : SkeletonStep}
    (inserted :
      insertStepAfter steps targetIdx targetId newStep = .ok later)
    {stepId : String}
    (present : newStep.stepId = stepId ∨ Present stepId steps) :
    Present stepId later := by
  unfold insertStepAfter at inserted
  refine Present.mapM ?_
    (fun step result rewired =>
      (relinked_of_rewireDependent rewired).stepId_eq) inserted
  rw [present_insertIdx_iff inside]
  rcases present with new | old
  · left
    rw [← new]
    split <;> rfl
  · exact Or.inr old

theorem present_insertStepBefore
    {steps later : List StepObject} {targetIdx : Nat}
    (inside : targetIdx < steps.length) {targetId : String}
    {newStep : SkeletonStep}
    (inserted :
      insertStepBefore steps targetIdx targetId newStep = .ok later)
    {stepId : String}
    (present : newStep.stepId = stepId ∨ Present stepId steps) :
    Present stepId later := by
  have before :
      Present stepId (steps.insertIdx targetIdx newStep.toObject) := by
    rw [present_insertIdx_iff (le_of_lt inside)]
    rcases present with new | old
    · left
      rw [← new]
      rfl
    · exact Or.inr old
  unfold insertStepBefore at inserted
  dsimp only at inserted
  split at inserted
  · rw [← Except.ok.inj inserted]
    exact before
  · split at inserted
    · rw [← Except.ok.inj inserted]
      exact before
    · rw [bind_eq_ok] at inserted
      obtain ⟨dependencies, _, inserted⟩ := inserted
      rw [← Except.ok.inj inserted]
      have keeps (items : List Json) (step : StepObject) :=
        stepId_setDependencies step items
      exact
        (before.modify _ fun step _ _ => keeps _ step).modify _
          fun step _ _ => keeps _ step

theorem present_removeStep
    {steps later : List StepObject} {targetIdx : Nat} {targetId : String}
    (found : findStepIndex steps targetId = some targetIdx)
    (removed : removeStep steps targetIdx targetId = .ok later)
    {stepId : String} (other : targetId ≠ stepId)
    (present : Present stepId steps) :
    Present stepId later := by
  unfold removeStep at removed
  split at removed
  · rw [← Except.ok.inj removed]
    exact present
  · rw [bind_eq_ok] at removed
    obtain ⟨removedDeps, _, removed⟩ := removed
    rw [bind_eq_ok] at removed
    obtain ⟨rewired, changed, removed⟩ := removed
    rw [pure_eq_ok] at removed
    obtain ⟨step, member, named⟩ := present
    obtain ⟨place, here⟩ := List.mem_iff_getElem?.mp member
    obtain ⟨result, isResult, changedStep⟩ :=
      getElem?_mapM_ok changed here
    have elsewhere : place ≠ targetIdx := by
      rintro rfl
      exact other ((findStepIndex_some found).2 step here stepId named).symm
    have renamed :=
      (relinked_of_rewireRemoved changedStep).stepId_eq.trans named
    refine ⟨result, ?_, renamed⟩
    rw [← removed, List.mem_eraseIdx_iff_getElem?]
    exact ⟨place, elsewhere, isResult⟩

theorem present_modifyField
    (inherited : String → Bool)
    {steps later : List StepObject} {targetIdx : Nat} {targetId : String}
    (found : findStepIndex steps targetId = some targetIdx)
    {fieldPath : String} {fieldValue : Json}
    (modified :
      modifyField inherited steps targetIdx fieldPath fieldValue =
        .ok later)
    {stepId : String}
    (other : targetId ≠ stepId ∨ fieldPath ≠ "step_id")
    (present : Present stepId steps) :
    Present stepId later := by
  unfold modifyField at modified
  split at modified
  · rw [← Except.ok.inj modified]
    exact present
  · split at modified
    · rw [← Except.ok.inj modified]
      apply present.modify
      intro step here named
      rcases other with otherStep | otherField
      · have same := (findStepIndex_some found).2 step here stepId named
        exact absurd same.symm otherStep
      · exact Fields.get_set_other _ _ otherField.symm
    · split at modified
      · cases modified
      · rw [← Except.ok.inj modified]
        exact present

/-- A step stays in the list through every action that does not drop it. -/
theorem present_applyAction
    (inherited : String → Bool)
    {steps later : List StepObject} {action : MutationAction}
    (applied : applyAction inherited steps action = .ok later)
    {stepId : String} (spared : ¬ Drops stepId action)
    (present : Present stepId steps) :
    Present stepId later := by
  unfold applyAction at applied
  cases found : findStepIndex steps action.targetStepId with
  | none =>
      rw [found] at applied
      rw [← Except.ok.inj applied]
      exact present
  | some targetIdx =>
      have inside := (findStepIndex_some found).1
      rw [found] at applied
      dsimp only at applied
      split at applied
      · exact present_insertStepAfter inside applied (Or.inr present)
      · exact present_insertStepBefore inside applied (Or.inr present)
      · rename_i isRemove
        refine present_removeStep found applied ?_ present
        intro same
        exact spared ⟨same, Or.inl isRemove⟩
      · rename_i isModify isPath
        refine present_modifyField inherited found applied ?_ present
        rw [← not_and_or]
        rintro ⟨same, atId⟩
        exact spared ⟨same, Or.inr ⟨isModify, atId ▸ isPath⟩⟩
      · rw [← Except.ok.inj applied]
        exact present

theorem present_of_insertion
    (inherited : String → Bool)
    {steps later : List StepObject} {action : MutationAction}
    (applied : applyAction inherited steps action = .ok later)
    {gate : SkeletonStep}
    (inserts : action.actionType = .insertAfter ∨
      action.actionType = .insertBefore)
    (inserted : action.step = some gate)
    (target : Present action.targetStepId steps) :
    Present gate.stepId later := by
  obtain ⟨targetIdx, found⟩ := findStepIndex_of_present target
  have inside := (findStepIndex_some found).1
  unfold applyAction at applied
  rcases inserts with isAfter | isBefore
  · rw [found, isAfter, inserted] at applied
    exact present_insertStepAfter inside applied (Or.inl rfl)
  · rw [found, isBefore, inserted] at applied
    exact present_insertStepBefore inside applied (Or.inl rfl)

theorem applyStep_ok
    (inherited : String → Bool)
    {current : Except MutationError (List StepObject)}
    {action : MutationAction} {later : List StepObject}
    (stepped : applyStep inherited current action = .ok later) :
    ∃ steps, current = .ok steps ∧
      applyAction inherited steps action = .ok later := by
  unfold applyStep at stepped
  rw [bind_eq_ok] at stepped
  obtain ⟨steps, isOk, stepped⟩ := stepped
  refine ⟨steps, isOk, ?_⟩
  cases applied : applyAction inherited steps action with
  | error raised =>
      rw [applied] at stepped
      cases stepped
  | ok changed =>
      rw [applied] at stepped
      rw [Except.ok.inj stepped]

theorem ok_of_run
    (inherited : String → Bool)
    {current : Except MutationError (List StepObject)}
    {actions : List MutationAction} {final : List StepObject}
    (ran : run (applyStep inherited) current actions = .ok final) :
    ∃ steps, current = .ok steps := by
  induction actions generalizing current with
  | nil =>
      exact ⟨final, ran⟩
  | cons action rest inductionHypothesis =>
      obtain ⟨later, stepped⟩ := inductionHypothesis ran
      obtain ⟨steps, isOk, _⟩ := applyStep_ok inherited stepped
      exact ⟨steps, isOk⟩

theorem present_run
    (inherited : String → Bool)
    {actions : List MutationAction} {steps final : List StepObject}
    (ran : run (applyStep inherited) (.ok steps) actions = .ok final)
    {stepId : String}
    (spared : ∀ action ∈ actions, ¬ Drops stepId action)
    (present : Present stepId steps) :
    Present stepId final := by
  induction actions generalizing steps with
  | nil =>
      rw [← Except.ok.inj ran]
      exact present
  | cons action rest inductionHypothesis =>
      rw [run_cons] at ran
      obtain ⟨later, stepped⟩ := ok_of_run inherited ran
      rw [stepped] at ran
      obtain ⟨_, same, applied⟩ := applyStep_ok inherited stepped
      obtain rfl := Except.ok.inj same
      apply inductionHypothesis ran
      · intro laterAction member
        exact spared laterAction (List.mem_cons_of_mem _ member)
      · exact
          present_applyAction inherited applied
            (spared action List.mem_cons_self) present

end Actions

end Agentcy.Topology
