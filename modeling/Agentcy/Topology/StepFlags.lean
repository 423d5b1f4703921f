import Agentcy.Library.DagEnds
import Agentcy.Topology.MutationOrder

/-!
# The entry and final flags of mutated steps

A step keeps its flags apart from its dependencies.  Insertions and removals
rewire dependencies and leave all flags as they are, so that the flags stay
right only where the edit changes neither roots nor sinks.
-/

namespace Agentcy.Topology

open Agentcy.Library

inductive Flag where
  | isEntry
  | isFinal

def Flag.name : Flag → String
  | .isEntry => "is_entry"
  | .isFinal => "is_final"

/-- The flag that a new step brings. -/
def Flag.value : Flag → SkeletonStep → Bool
  | .isEntry, step => step.isEntry
  | .isFinal, step => step.isFinal

/-- A step with this identifier has the flag. -/
def Flagged (flag : Flag) (steps : List StepObject) (stepId : String) :
    Prop :=
  ∃ step ∈ steps, step.stepId = .str stepId ∧
    Fields.get step.attributes flag.name = .bool true

def mark (flag : Flag) (step : StepObject) : Json × Json :=
  (step.stepId, Fields.get step.attributes flag.name)

section Marks

variable {flag : Flag} {steps later : List StepObject}

theorem flagged_iff_mem {stepId : String} :
    Flagged flag steps stepId ↔
      (.str stepId, .bool true) ∈ steps.map (mark flag) := by
  rw [List.mem_map]
  constructor
  · rintro ⟨step, member, named, flagged⟩
    exact ⟨step, member, Prod.ext named flagged⟩
  · rintro ⟨step, member, same⟩
    exact ⟨step, member, congrArg Prod.fst same, congrArg Prod.snd same⟩

theorem Relinked.mark_eq
    {step result : StepObject} (relinked : Relinked step result) :
    mark flag result = mark flag step := by
  have other : flag.name ≠ "dependencies" := by
    cases flag <;> decide
  exact Prod.ext relinked.stepId_eq (relinked flag.name other)

theorem mark_toObject (step : SkeletonStep) :
    mark flag step.toObject =
      (.str step.stepId, .bool (flag.value step)) := by
  cases flag <;> rfl

theorem marks_of_mapM
    {change : StepObject → Except PyError StepObject}
    (relinks : ∀ step result, change step = .ok result →
      Relinked step result)
    (changed : steps.mapM change = .ok later) :
    later.map (mark flag) = steps.map (mark flag) := by
  induction steps generalizing later with
  | nil =>
      rw [← Except.ok.inj changed]
      rfl
  | cons step rest inductionHypothesis =>
      rw [List.mapM_cons, bind_eq_ok] at changed
      obtain ⟨result, changedHere, changed⟩ := changed
      rw [bind_eq_ok] at changed
      obtain ⟨results, changedRest, changed⟩ := changed
      rw [← Except.ok.inj changed, List.map_cons, List.map_cons,
        inductionHypothesis changedRest,
        (relinks step result changedHere).mark_eq]

theorem marks_modify
    (index : Nat) {change : StepObject → StepObject}
    (relinks : ∀ step, Relinked step (change step)) :
    (steps.modify index change).map (mark flag) =
      steps.map (mark flag) := by
  induction steps generalizing index with
  | nil =>
      cases index <;> rfl
  | cons step rest inductionHypothesis =>
      cases index with
      | zero =>
          rw [List.modify_zero_cons, List.map_cons, List.map_cons,
            (relinks step).mark_eq]
      | succ index =>
          rw [List.modify_succ_cons, List.map_cons, List.map_cons,
            inductionHypothesis]

theorem marks_insertStepAfter
    {targetIdx : Nat} {targetId : String} {newStep : SkeletonStep}
    (inserted :
      insertStepAfter steps targetIdx targetId newStep = .ok later) :
    later.map (mark flag) =
      (steps.map (mark flag)).insertIdx (targetIdx + 1)
        (.str newStep.stepId, .bool (flag.value newStep)) := by
  unfold insertStepAfter at inserted
  rw [marks_of_mapM (fun _ _ rewired =>
    relinked_of_rewireDependent rewired) inserted, List.map_insertIdx,
    mark_toObject]
  congr 1
  cases flag <;> split <;> rfl

theorem marks_insertStepBefore
    {targetIdx : Nat} {targetId : String} {newStep : SkeletonStep}
    (inserted :
      insertStepBefore steps targetIdx targetId newStep = .ok later) :
    later.map (mark flag) =
      (steps.map (mark flag)).insertIdx targetIdx
        (.str newStep.stepId, .bool (flag.value newStep)) := by
  have before : (steps.insertIdx targetIdx newStep.toObject).map
      (mark flag) = (steps.map (mark flag)).insertIdx targetIdx
        (.str newStep.stepId, .bool (flag.value newStep)) := by
    rw [List.map_insertIdx, mark_toObject]
  unfold insertStepBefore at inserted
  dsimp only at inserted
  split at inserted
  · rw [← Except.ok.inj inserted, before]
  · split at inserted
    · rw [← Except.ok.inj inserted, before]
    · rw [bind_eq_ok] at inserted
      obtain ⟨dependencies, _, inserted⟩ := inserted
      rw [← Except.ok.inj inserted,
        marks_modify _ fun step => relinked_setDependencies step _,
        marks_modify _ fun step => relinked_setDependencies step _,
        before]

theorem marks_removeStep
    {targetIdx : Nat} {targetId : String}
    (inside : targetIdx < steps.length)
    (removed : removeStep steps targetIdx targetId = .ok later) :
    later.map (mark flag) =
      (steps.map (mark flag)).eraseIdx targetIdx := by
  unfold removeStep at removed
  rw [List.getElem?_eq_getElem inside] at removed
  dsimp only at removed
  rw [bind_eq_ok] at removed
  obtain ⟨removedDeps, _, removed⟩ := removed
  rw [bind_eq_ok] at removed
  obtain ⟨rewired, changed, removed⟩ := removed
  rw [pure_eq_ok] at removed
  rw [← removed, ← List.eraseIdx_map,
    marks_of_mapM (fun _ _ rewired =>
      relinked_of_rewireRemoved rewired) changed]

theorem flagged_insertIdx
    {index : Nat} (inside : index ≤ steps.length) {newId : String}
    {marked : Bool}
    (marks : later.map (mark flag) =
      (steps.map (mark flag)).insertIdx index
        (.str newId, .bool marked)) :
    Flagged flag later =
      Dag.Added (Flagged flag steps) newId (marked = true) := by
  funext stepId
  apply propext
  rw [Dag.Added, flagged_iff_mem, flagged_iff_mem, marks,
    List.mem_insertIdx (by rw [List.length_map]; exact inside),
    Prod.mk.injEq, Json.str.injEq, Json.bool.injEq, or_comm,
    eq_comm (a := true)]

theorem stepIds_eq
    {nodes : List (Dag.Node String)} (depicts : DepictsAll steps nodes) :
    steps.map StepObject.stepId = (Dag.ids nodes).map Json.str := by
  induction depicts with
  | nil =>
      rfl
  | cons here _ inductionHypothesis =>
      rw [List.map_cons, here.stepId_eq, inductionHypothesis]
      rfl

/-- Identifiers are distinct, so that the flag of the removed step goes and
no other. -/
theorem flagged_eraseIdx
    {nodes : List (Dag.Node String)} (depicts : DepictsAll steps nodes)
    (distinct : (Dag.ids nodes).Nodup) {index : Nat} {targetId : String}
    (found : findStepIndex steps targetId = some index)
    (marks : later.map (mark flag) =
      (steps.map (mark flag)).eraseIdx index) :
    Flagged flag later = Dag.Without (Flagged flag steps) targetId := by
  funext stepId
  apply propext
  obtain ⟨inside, onlyTarget⟩ := findStepIndex_some found
  have distinctIds : (steps.map StepObject.stepId).Nodup := by
    rw [stepIds_eq depicts]
    exact distinct.map fun _ _ same => Json.str.inj same
  rw [Dag.Without, flagged_iff_mem, marks,
    List.mem_eraseIdx_iff_getElem?]
  constructor
  · rintro ⟨place, elsewhere, isMark⟩
    refine ⟨flagged_iff_mem.mpr (List.mem_of_getElem? isMark), ?_⟩
    rintro rfl
    rw [List.getElem?_map, Option.map_eq_some_iff] at isMark
    obtain ⟨step, isStep, same⟩ := isMark
    have atPlace : (steps.map StepObject.stepId)[place]? =
        some (.str stepId) := by
      rw [List.getElem?_map, isStep]
      exact congrArg some (congrArg Prod.fst same)
    have atIndex : (steps.map StepObject.stepId)[index]? =
        some (.str stepId) := by
      rw [findStepIndex_eq depicts] at found
      obtain ⟨front, old, back, cut, length, isTarget, _⟩ :=
        cut_of_found found
      rw [stepIds_eq depicts, cut, ← length]
      simp [Dag.ids, isTarget]
    have bound : place < (steps.map StepObject.stepId).length :=
      (List.getElem?_eq_some_iff.mp atPlace).1
    exact elsewhere
      ((List.getElem?_inj bound distinctIds).mp
        (atPlace.trans atIndex.symm))
  · rintro ⟨⟨step, member, named, flagged⟩, other⟩
    obtain ⟨place, isStep⟩ := List.mem_iff_getElem?.mp member
    refine ⟨place, ?_, ?_⟩
    · rintro rfl
      exact other (onlyTarget step isStep stepId named)
    · rw [List.getElem?_map, isStep]
      exact congrArg some (Prod.ext named flagged)

end Marks

/-! ## The exact condition of an action -/

/-- What an insertion or a removal makes of a mark on the steps. -/
def editMark (flag : Flag) (nodes : List (Dag.Node String))
    (marked : String → Prop) (action : MutationAction) : String → Prop :=
  if action.targetStepId ∈ Dag.ids nodes then
    match action.actionType, action.step with
    | .insertAfter, some newStep =>
        Dag.Added marked newStep.stepId (flag.value newStep = true)
    | .insertBefore, some newStep =>
        Dag.Added marked newStep.stepId (flag.value newStep = true)
    | .remove, _ => Dag.Without marked action.targetStepId
    | _, _ => marked
  else marked

/-- The condition under which an action keeps the flags right.  A new step
has no flag of its own and does not take the place of a root or a sink: what
it is put after, or depends on itself, has other steps behind it, and what it
is put before has dependencies.  Where a root or a sink is removed, no other
step takes its place. -/
def KeepsFlags (nodes : List (Dag.Node String)) (action : MutationAction) :
    Prop :=
  let targetId := action.targetStepId
  targetId ∈ Dag.ids nodes →
    match action.actionType, action.step with
    | .insertAfter, some newStep =>
        ¬ newStep.isEntry = true ∧ ¬ newStep.isFinal = true ∧
          ¬ Dag.Sink nodes targetId ∧
          ∀ dependency ∈ newStep.dependencies,
            ¬ Dag.Sink nodes dependency
    | .insertBefore, some newStep =>
        ¬ newStep.isEntry = true ∧ ¬ newStep.isFinal = true ∧
          ¬ Dag.Root nodes targetId
    | .remove, _ =>
        (Dag.Root nodes targetId →
          ∀ id, Dag.DependsOn nodes targetId id →
            ∃ dependency, dependency ≠ targetId ∧
              Dag.DependsOn nodes dependency id) ∧
        (Dag.Sink nodes targetId →
          ∀ id, Dag.DependsOn nodes id targetId →
            ∃ other, other ≠ targetId ∧ Dag.DependsOn nodes id other)
    | _, _ => True

section Actions

variable (inherited : String → Bool)
  {steps later : List StepObject} {nodes : List (Dag.Node String)}
  {action : MutationAction}

theorem flagged_applyAction
    (depicts : DepictsAll steps nodes) (distinct : (Dag.ids nodes).Nodup)
    (structural : action.actionType ≠ .modifyField)
    (applied : applyAction inherited steps action = .ok later)
    (flag : Flag) :
    Flagged flag later =
      editMark flag nodes (Flagged flag steps) action := by
  unfold applyAction at applied
  unfold editMark
  cases found : findStepIndex steps action.targetStepId with
  | none =>
      rw [found] at applied
      have absent : action.targetStepId ∉ Dag.ids nodes := by
        rw [← present_iff_of_depicts depicts]
        intro present
        obtain ⟨index, isFound⟩ := findStepIndex_of_present present
        rw [found] at isFound
        cases isFound
      rw [if_neg absent, ← Except.ok.inj applied]
  | some targetIdx =>
      have inside := (findStepIndex_some found).1
      have present : action.targetStepId ∈ Dag.ids nodes := by
        rw [findStepIndex_eq depicts] at found
        obtain ⟨front, old, back, cut, _, isTarget, _⟩ :=
          cut_of_found found
        rw [← isTarget, cut]
        exact Dag.id_mem
          (List.mem_append_right front List.mem_cons_self)
      rw [found] at applied
      rw [if_pos present]
      rcases action with ⟨actionType, targetId, step, fieldPath, value⟩
      cases actionType with
      | insertAfter =>
          cases step with
          | none => rw [← Except.ok.inj applied]
          | some newStep =>
              exact flagged_insertIdx inside
                (marks_insertStepAfter applied)
      | insertBefore =>
          cases step with
          | none => rw [← Except.ok.inj applied]
          | some newStep =>
              exact flagged_insertIdx (le_of_lt inside)
                (marks_insertStepBefore applied)
      | remove =>
          exact flagged_eraseIdx depicts distinct found
            (marks_removeStep inside applied)
      | modifyField =>
          exact absurd rfl structural

theorem marks_editNodes_iff
    {entry final : String → Prop} (dag : Dag.IsDag nodes)
    (structural : action.actionType ≠ .modifyField)
    (keepsDag : KeepsDag nodes action)
    (marks : Dag.Marks entry final nodes) :
    Dag.Marks (editMark .isEntry nodes entry action)
        (editMark .isFinal nodes final action)
        (editNodes nodes action) ↔
      KeepsFlags nodes action := by
  have idle : Dag.Marks entry final nodes ↔ True :=
    ⟨fun _ => trivial, fun _ => marks⟩
  rcases action with ⟨actionType, targetId, step, fieldPath, value⟩
  unfold KeepsFlags KeepsDag at *
  unfold editMark editNodes
  dsimp only at keepsDag ⊢
  by_cases present : targetId ∈ Dag.ids nodes
  · rw [if_pos present, if_pos present, if_pos present,
      forall_prop_of_true present]
    cases actionType with
    | insertAfter =>
        cases step with
        | none => exact idle
        | some newStep =>
            have fresh : newStep.node.id ∉ Dag.ids nodes :=
              (keepsDag present).1
            have closed : ∀ dependency ∈ newStep.node.dependencies,
                dependency ∈ Dag.ids nodes := fun dependency own =>
              ((keepsDag present).2 dependency own).1
            exact Dag.marks_insertAfter_iff dag present fresh closed marks
    | insertBefore =>
        cases step with
        | none => exact idle
        | some newStep =>
            have fresh : newStep.node.id ∉ Dag.ids nodes :=
              keepsDag present
            exact Dag.marks_insertBefore_iff dag.distinct present fresh
              marks
    | remove =>
        exact Dag.marks_remove_iff dag present marks
    | modifyField =>
        exact absurd rfl structural
  · rw [if_neg present, if_neg present, if_neg present]
    exact ⟨fun _ isPresent => absurd isPresent present, fun _ => marks⟩

end Actions

/-- The flags name the steps without dependencies and the steps on which none
depends. -/
structure Coherent (steps : List StepObject) : Prop where
  entries : ∀ stepId, Flagged .isEntry steps stepId ↔
    Present stepId steps ∧
      ∀ dependency, ¬ Needs steps dependency stepId
  finals : ∀ stepId, Flagged .isFinal steps stepId ↔
    Present stepId steps ∧ ∀ other, ¬ Needs steps stepId other

/-- The steps are there, stand for a DAG and have coherent flags. -/
def HoldsCoherent {ε : Type} (result : Except ε (List StepObject)) :
    Prop :=
  ∃ steps, result = .ok steps ∧ ValidSteps steps ∧ Coherent steps

/-- The condition on an insertion or a removal at the state that it finds. -/
def KeepsCoherent :
    Except MutationError (List StepObject) → MutationAction → Prop
  | .error _, _ => True
  | .ok steps, action =>
      ∀ nodes, DepictsAll steps nodes →
        KeepsDag nodes action ∧ KeepsFlags nodes action

theorem coherent_iff
    {steps : List StepObject} {nodes : List (Dag.Node String)}
    (depicts : DepictsAll steps nodes) :
    Coherent steps ↔
      Dag.Marks (Flagged .isEntry steps) (Flagged .isFinal steps)
        nodes := by
  constructor
  · intro coherent
    constructor
    · intro stepId
      rw [coherent.entries, present_iff_of_depicts depicts,
        needs_eq depicts, Dag.Root]
    · intro stepId
      rw [coherent.finals, present_iff_of_depicts depicts,
        needs_eq depicts, Dag.Sink]
  · intro marks
    constructor
    · intro stepId
      rw [marks.entries, present_iff_of_depicts depicts,
        needs_eq depicts, Dag.Root]
    · intro stepId
      rw [marks.finals, present_iff_of_depicts depicts,
        needs_eq depicts, Dag.Sink]

/-- An inserted step is new wherever the action keeps the DAG, unless the
action does nothing. -/
theorem fresh_of_keepsDag
    {nodes : List (Dag.Node String)} {action : MutationAction}
    (keeps : KeepsDag nodes action)
    (present : action.targetStepId ∈ Dag.ids nodes) :
    ∀ newStep, action.inserted? = some newStep →
      newStep.stepId ∉ Dag.ids nodes := by
  rcases action with ⟨actionType, targetId, step, fieldPath, value⟩
  intro newStep inserts
  cases actionType with
  | insertAfter =>
      obtain rfl : step = some newStep := inserts
      exact (keeps present).1
  | insertBefore =>
      obtain rfl : step = some newStep := inserts
      exact keeps present
  | remove =>
      cases inserts
  | modifyField =>
      cases inserts

section Runs

variable (inherited : String → Bool)

theorem applyStep_of_keepsDag
    {steps : List StepObject} {nodes : List (Dag.Node String)}
    (depicts : DepictsAll steps nodes) (dag : Dag.IsDag nodes)
    (coherent : Coherent steps) {action : MutationAction}
    (structural : action.actionType ≠ .modifyField)
    (keepsDag : KeepsDag nodes action) :
    HoldsCoherent (applyStep inherited (.ok steps) action) ↔
      KeepsFlags nodes action := by
  obtain ⟨next, ⟨later, applied, depictsLater⟩, permuted⟩ :=
    applyAction_edits inherited depicts dag.distinct structural
      (fresh_of_keepsDag keepsDag)
  have stepped : applyStep inherited (.ok steps) action = .ok later := by
    unfold applyStep
    rw [bind_ok rfl, applied]
    rfl
  have valid : ValidSteps later :=
    (applyAction_valid_iff inherited depicts dag action).mpr keepsDag
      later applied
  have decided : Coherent later ↔ KeepsFlags nodes action := by
    rw [coherent_iff depictsLater, Dag.marks_perm_iff permuted,
      flagged_applyAction inherited depicts dag.distinct structural
        applied,
      flagged_applyAction inherited depicts dag.distinct structural
        applied]
    exact marks_editNodes_iff dag structural keepsDag
      ((coherent_iff depicts).mp coherent)
  rw [← decided, stepped]
  constructor
  · rintro ⟨found, same, _, isCoherent⟩
    rw [Except.ok.inj same]
    exact isCoherent
  · intro isCoherent
    exact ⟨later, rfl, valid, isCoherent⟩

theorem applyStep_coherent_iff
    {current : Except MutationError (List StepObject)}
    (coherent : HoldsCoherent current) {action : MutationAction}
    (structural : action.actionType ≠ .modifyField) :
    HoldsCoherent (applyStep inherited current action) ↔
      KeepsCoherent current action := by
  obtain ⟨steps, rfl, ⟨nodes, depicts, dag⟩, isCoherent⟩ := coherent
  have decided := applyStep_of_keepsDag inherited depicts dag isCoherent
    structural
  constructor
  · intro after others depictsOthers
    obtain rfl := depicts.unique depictsOthers
    have start : ResultValid (ε := MutationError) (.ok steps) := by
      intro found same
      rw [← Except.ok.inj same]
      exact ⟨nodes, depicts, dag⟩
    have isValid :
        ResultValid (applyStep inherited (.ok steps) action) := by
      obtain ⟨later, stepped, valid, _⟩ := after
      intro found same
      rw [stepped] at same
      rw [← Except.ok.inj same]
      exact valid
    have keepsDag :=
      (applyStep_valid_iff inherited start action).mp isValid nodes
        depicts
    exact ⟨keepsDag, (decided keepsDag).mp after⟩
  · intro keeps
    obtain ⟨keepsDag, keepsFlags⟩ := keeps nodes depicts
    exact (decided keepsDag).mpr keepsFlags

variable (floats : FloatOrder) (template : BusinessTemplate)

/-- Along insertions and removals the steps are a DAG with coherent flags
throughout exactly when every action keeps both; then the engine returns such
steps. -/
theorem mutations_keep_flags_iff
    {skeleton : TopologySkeleton} (dag : skeleton.IsDag)
    (coherent : Coherent (skeleton.steps.map SkeletonStep.toObject))
    {matched : List MutationRule}
    (matching : matchingRules floats template
      (byPriority skeleton.mutationRules) = .ok matched)
    (structural : ∀ action ∈ matched.flatMap MutationRule.actions,
      action.actionType ≠ .modifyField) :
    (EveryState (applyStep inherited) HoldsCoherent
        (.ok (skeleton.steps.map SkeletonStep.toObject))
        (matched.flatMap MutationRule.actions) ↔
      EveryStep (applyStep inherited) KeepsCoherent
        (.ok (skeleton.steps.map SkeletonStep.toObject))
        (matched.flatMap MutationRule.actions)) ∧
    (EveryStep (applyStep inherited) KeepsCoherent
        (.ok (skeleton.steps.map SkeletonStep.toObject))
        (matched.flatMap MutationRule.actions) →
      ∃ final applied,
        applyMutations inherited floats template skeleton =
            .ok (final, applied) ∧
          ValidSteps final ∧ Coherent final) := by
  have start : HoldsCoherent (ε := MutationError)
      (.ok (skeleton.steps.map SkeletonStep.toObject)) :=
    ⟨_, rfl, validSteps_of_isDag dag, coherent⟩
  have allowed : EveryStep (applyStep inherited)
      (fun _ action => action.actionType ≠ .modifyField)
      (.ok (skeleton.steps.map SkeletonStep.toObject))
      (matched.flatMap MutationRule.actions) :=
    @everyStep_of_forall_mem _ _ _
      (fun action : MutationAction => action.actionType ≠ .modifyField)
      _ _ structural
  have decided :=
    everyState_iff_everyStep_of_allowed HoldsCoherent
      (fun _ good => good)
      (fun _ _ good isStructural =>
        applyStep_coherent_iff inherited good isStructural)
      (fun _ _ _ _ after => after) start allowed
  refine ⟨decided, ?_⟩
  intro every
  obtain ⟨final, ran, valid, isCoherent⟩ :=
    (everyState_iff_prefixes _ _ _ _).mp (decided.mpr every) _ []
      (List.append_nil _).symm
  exact ⟨final, _,
    applyRules_of_run inherited floats template matching ran, valid,
    isCoherent⟩

end Runs

/-! ## A step before the entry -/

def entryStep : SkeletonStep :=
  { intakeStep with isEntry := true }

def finalStep : SkeletonStep :=
  { notifyStep with isFinal := true }

def flaggedSkeleton (rules : List MutationRule) : TopologySkeleton :=
  { intakeSkeleton rules with steps := [entryStep, finalStep] }

/-- A rule that puts the verification before the intake. -/
def verifyBeforeIntake : MutationRule where
  ruleId := "guard"
  name := "guard"
  actions := [{
    actionType := .insertBefore
    targetStepId := "intake"
    step := some verifyStep }]

theorem depicts_flaggedSkeleton :
    DepictsAll ([entryStep, finalStep].map SkeletonStep.toObject)
      [⟨"intake", []⟩, ⟨"notify", ["intake"]⟩] :=
  .cons (depicts_toObject entryStep)
    (.cons (depicts_toObject finalStep) .nil)

theorem coherent_flaggedSkeleton :
    Coherent ([entryStep, finalStep].map SkeletonStep.toObject) := by
  have edges : Dag.DependsOn
      ([⟨"intake", []⟩, ⟨"notify", ["intake"]⟩] :
        List (Dag.Node String)) =
      fun dependency id => id = "notify" ∧ dependency = "intake" := by
    funext dependency id
    simp [Dag.DependsOn, eq_comm]
  have entryMarks : ([entryStep, finalStep].map
      SkeletonStep.toObject).map (mark .isEntry) =
        [(.str "intake", .bool true), (.str "notify", .bool false)] :=
    rfl
  have finalMarks : ([entryStep, finalStep].map
      SkeletonStep.toObject).map (mark .isFinal) =
        [(.str "intake", .bool false), (.str "notify", .bool true)] :=
    rfl
  rw [coherent_iff depicts_flaggedSkeleton]
  constructor
  · intro stepId
    rw [flagged_iff_mem, entryMarks, Dag.Root, edges]
    simp [Dag.ids]
    grind
  · intro stepId
    rw [flagged_iff_mem, finalMarks, Dag.Sink, edges]
    simp [Dag.ids]
    grind

/-- The verification after the intake, without flags, takes no end's place. -/
theorem inner_insertion_keeps_flags :
    ∃ final applied,
      applyMutations (fun _ => false) comparedInts plainTemplate
          (flaggedSkeleton [verifyAfterIntake "strict"]) =
            .ok (final, applied) ∧
        ValidSteps final ∧ Coherent final := by
  have matching : matchingRules comparedInts plainTemplate
      (byPriority
        (flaggedSkeleton [verifyAfterIntake "strict"]).mutationRules) =
        .ok [verifyAfterIntake "strict"] :=
    rfl
  have isDag : (flaggedSkeleton [verifyAfterIntake "strict"]).IsDag :=
    intakeSkeleton_isDag []
  refine (mutations_keep_flags_iff (fun _ => false) comparedInts
    plainTemplate isDag coherent_flaggedSkeleton matching ?_).2
      ⟨?_, trivial⟩
  · intro action member
    obtain rfl := List.mem_singleton.mp member
    decide
  · intro nodes depicts
    obtain rfl := depicts.unique depicts_flaggedSkeleton
    refine ⟨fun _ => ⟨by decide, fun dependency own => by cases own⟩,
      fun _ => ⟨by decide, by decide, ?_, fun dependency own => by
        cases own⟩⟩
    intro sink
    exact sink.2 "notify"
      ⟨⟨"notify", ["intake"]⟩, by simp, rfl, List.mem_singleton.mpr rfl⟩

def guardedSteps : List SkeletonStep :=
  [verifyStep, { entryStep with dependencies := ["verify"] }, finalStep]

/-- The intake keeps its flag behind the step that is put before it, which
has none. -/
theorem insertion_before_entry_breaks_flags :
    (flaggedSkeleton [verifyBeforeIntake]).IsDag ∧
      Coherent ((flaggedSkeleton [verifyBeforeIntake]).steps.map
        SkeletonStep.toObject) ∧
      ∃ final,
        applyMutations (fun _ => false) comparedInts plainTemplate
          (flaggedSkeleton [verifyBeforeIntake]) =
            .ok (final, ["guard"]) ∧
        ValidSteps final ∧ ¬ Coherent final := by
  have depicts : DepictsAll (guardedSteps.map SkeletonStep.toObject)
      [⟨"verify", []⟩, ⟨"intake", ["verify"]⟩, ⟨"notify", ["intake"]⟩] :=
    .cons (depicts_toObject _)
      (.cons (depicts_toObject _) (.cons (depicts_toObject _) .nil))
  have isDag : Dag.IsDag
      ([⟨"verify", []⟩, ⟨"intake", ["verify"]⟩, ⟨"notify", ["intake"]⟩] :
        List (Dag.Node String)) :=
    Dag.IsDag.of_ranked
      (fun id => if id = "notify" then 2 else if id = "intake" then 1
        else 0)
      (by decide) (by decide) (by unfold Dag.Ranked; decide)
  refine ⟨intakeSkeleton_isDag [], coherent_flaggedSkeleton,
    guardedSteps.map SkeletonStep.toObject, rfl, ⟨_, depicts, isDag⟩, ?_⟩
  intro coherent
  have isEntry : Flagged .isEntry
      (guardedSteps.map SkeletonStep.toObject) "intake" :=
    ⟨SkeletonStep.toObject { entryStep with dependencies := ["verify"] },
      List.mem_cons_of_mem _ List.mem_cons_self, rfl, rfl⟩
  have noNeeds := ((coherent.entries "intake").mp isEntry).2 "verify"
  rw [needs_eq depicts] at noNeeds
  exact noNeeds ⟨⟨"intake", ["verify"]⟩, by simp, rfl,
    List.mem_singleton.mpr rfl⟩

end Agentcy.Topology
