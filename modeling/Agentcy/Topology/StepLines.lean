import Mathlib.Data.List.Flatten
import Agentcy.Topology.TypedSteps

/-!
# Lines of steps

The steps of a skeleton form a line when each depends on the one before it
alone.  Rules that put new steps between two others, or one behind the last,
keep the line, whichever of them are applied and in whatever order.
-/

namespace Agentcy.Topology

open Agentcy.Library

def stepIds (steps : List SkeletonStep) : List String :=
  steps.map SkeletonStep.stepId

/-- Each step depends on the one before it, the first of them on `previous`;
the entry is the step without a previous one, and the last step is final. -/
def Linked (previous : Option String) : List SkeletonStep → Prop
  | [] => True
  | step :: rest =>
      step.dependencies = previous.toList ∧
        step.isEntry = previous.isNone ∧ step.isFinal = rest.isEmpty ∧
          Linked (some step.stepId) rest

instance Linked.decide :
    (previous : Option String) → (steps : List SkeletonStep) →
      Decidable (Linked previous steps)
  | _, [] => .isTrue trivial
  | previous, step :: rest =>
      have := Linked.decide (some step.stepId) rest
      inferInstanceAs (Decidable (step.dependencies = previous.toList ∧
        step.isEntry = previous.isNone ∧ step.isFinal = rest.isEmpty ∧
          Linked (some step.stepId) rest))

structure IsLine (steps : List SkeletonStep) : Prop where
  distinct : (stepIds steps).Nodup
  linked : Linked none steps

/-- The first of the steps depends on `previous` instead. -/
def reattach (previous : String) : List SkeletonStep → List SkeletonStep
  | [] => []
  | step :: rest => step.dependOn [previous] :: rest

/-- The step that is put behind another one. -/
def SkeletonStep.behind (newStep previous : SkeletonStep) : SkeletonStep :=
  newStep.dependOn [previous.stepId]

section Linked

variable {previous : Option String} {steps front back : List SkeletonStep}
  {target newStep : SkeletonStep}

@[simp]
theorem stepIds_reattach (previous : String) (steps : List SkeletonStep) :
    stepIds (reattach previous steps) = stepIds steps := by
  cases steps <;> rfl

theorem isEmpty_reattach (previous : String) (steps : List SkeletonStep) :
    (reattach previous steps).isEmpty = steps.isEmpty := by
  cases steps <;> rfl

/-- Up to a place in the line, dependencies name the steps before it. -/
theorem Linked.dependencies_mem
    (linked : Linked previous (front ++ target :: back))
    {step : SkeletonStep} (member : step ∈ front ++ [target])
    {dependency : String} (named : dependency ∈ step.dependencies) :
    some dependency = previous ∨ dependency ∈ stepIds front := by
  induction front generalizing previous with
  | nil =>
      obtain rfl := List.mem_singleton.mp member
      rw [linked.1, Option.mem_toList] at named
      exact Or.inl named.symm
  | cons first rest inductionHypothesis =>
      rcases List.mem_cons.mp member with rfl | later
      · rw [linked.1, Option.mem_toList] at named
        exact Or.inl named.symm
      · rcases inductionHypothesis linked.2.2.2 later with same | among
        · obtain rfl := Option.some.inj same
          exact Or.inr List.mem_cons_self
        · exact Or.inr (List.mem_cons_of_mem _ among)

theorem Linked.closed
    (linked : Linked previous steps) {step : SkeletonStep}
    (member : step ∈ steps) {dependency : String}
    (named : dependency ∈ step.dependencies) :
    some dependency = previous ∨ dependency ∈ stepIds steps := by
  obtain ⟨front, back, rfl⟩ := List.append_of_mem member
  have last : step ∈ front ++ [step] :=
    List.mem_append_right _ List.mem_cons_self
  rcases linked.dependencies_mem last named with same | among
  · exact Or.inl same
  · rw [stepIds, List.map_append]
    exact Or.inr (List.mem_append_left _ among)

theorem Linked.behind
    (linked : Linked previous (front ++ target :: back)) :
    Linked (some target.stepId) back := by
  induction front generalizing previous with
  | nil =>
      exact linked.2.2.2
  | cons first rest inductionHypothesis =>
      exact inductionHypothesis linked.2.2.2

theorem Linked.reattach
    {previousId : String} (linked : Linked (some previousId) back)
    (newId : String) :
    Linked (some newId) (reattach newId back) := by
  cases back with
  | nil =>
      trivial
  | cons step rest =>
      exact ⟨rfl, linked.2.1, linked.2.2.1, linked.2.2.2⟩

/-- What stands behind a step does not matter to the steps before it. -/
theorem Linked.exchange
    {rest others : List SkeletonStep}
    (linked : Linked previous (front ++ rest))
    (nonempty : rest ≠ []) (othersNonempty : others ≠ [])
    (exchanged : ∀ place, Linked place rest → Linked place others) :
    Linked previous (front ++ others) := by
  induction front generalizing previous with
  | nil =>
      exact exchanged previous linked
  | cons first later inductionHypothesis =>
      refine ⟨linked.1, linked.2.1, ?_,
        inductionHypothesis linked.2.2.2⟩
      rw [linked.2.2.1]
      cases later with
      | nil =>
          change rest.isEmpty = others.isEmpty
          rw [List.isEmpty_eq_false_iff.mpr nonempty,
            List.isEmpty_eq_false_iff.mpr othersNonempty]
      | cons second last =>
          rfl

/-- A step without a mark put between two others. -/
theorem Linked.insert
    (linked : Linked previous (front ++ target :: back))
    (inner : back ≠ []) (entry : newStep.isEntry = false)
    (final : newStep.isFinal = false) :
    Linked previous (front ++ target :: newStep.behind target ::
      Topology.reattach newStep.stepId back) := by
  apply linked.exchange (List.cons_ne_nil _ _) (List.cons_ne_nil _ _)
  intro place here
  have notLast : back.isEmpty = false := List.isEmpty_eq_false_iff.mpr inner
  refine ⟨here.1, here.2.1, ?_, rfl, entry, ?_,
    here.2.2.2.reattach newStep.stepId⟩
  · rw [here.2.2.1, notLast]
    rfl
  · rw [isEmpty_reattach, notLast]
    exact final

/-- A final step put behind the last one, which is final no longer. -/
theorem Linked.append
    (linked : Linked previous (front ++ [target]))
    (entry : newStep.isEntry = false) (final : newStep.isFinal = true) :
    Linked previous (front ++
      [{ target with isFinal := false }, newStep.behind target]) := by
  apply linked.exchange (List.cons_ne_nil _ _) (List.cons_ne_nil _ _)
  intro place here
  exact ⟨here.1, here.2.1, rfl, rfl, entry, final, trivial⟩

/-- Another step with the same place and the same marks. -/
theorem Linked.replace
    (linked : Linked previous (front ++ target :: back))
    {changed : SkeletonStep} (stepId : changed.stepId = target.stepId)
    (dependencies : changed.dependencies = target.dependencies)
    (entry : changed.isEntry = target.isEntry)
    (final : changed.isFinal = target.isFinal) :
    Linked previous (front ++ changed :: back) := by
  apply linked.exchange (List.cons_ne_nil _ _) (List.cons_ne_nil _ _)
  intro place here
  refine ⟨dependencies.trans here.1, entry.trans here.2.1,
    final.trans here.2.2.1, ?_⟩
  rw [stepId]
  exact here.2.2.2

end Linked

section Actions

variable {front back : List SkeletonStep}
  {target newStep : SkeletonStep} {targetId newId : String}

theorem findStep_split
    (others : targetId ∉ stepIds front)
    (isTarget : target.stepId = targetId) :
    findStep (front ++ target :: back) targetId = some front.length := by
  induction front with
  | nil =>
      rw [findStep, List.nil_append, List.findIdx?_cons,
        decide_eq_true isTarget]
      rfl
  | cons first rest inductionHypothesis =>
      have notFirst : first.stepId ≠ targetId := fun same =>
        others (same ▸ List.mem_cons_self)
      have notRest : targetId ∉ stepIds rest := fun among =>
        others (List.mem_cons_of_mem _ among)
      rw [findStep, List.cons_append, List.findIdx?_cons,
        decide_eq_false notFirst]
      have later := inductionHypothesis notRest
      rw [findStep] at later
      rw [later]
      rfl

theorem insertIdx_length (front back : List SkeletonStep)
    (step : SkeletonStep) :
    (front ++ back).insertIdx front.length step = front ++ step :: back := by
  induction front with
  | nil =>
      rfl
  | cons first rest inductionHypothesis =>
      rw [List.cons_append, List.length_cons, List.insertIdx_succ_cons,
        inductionHypothesis]
      rfl

theorem modify_length (front back : List SkeletonStep)
    (step : SkeletonStep) (change : SkeletonStep → SkeletonStep) :
    (front ++ step :: back).modify front.length change =
      front ++ change step :: back := by
  induction front with
  | nil =>
      rfl
  | cons first rest inductionHypothesis =>
      rw [List.cons_append, List.length_cons, List.modify_succ_cons,
        inductionHypothesis]
      rfl

theorem redirect_of_not_mem
    {step : SkeletonStep} (absent : targetId ∉ step.dependencies)
    (newId : String) : step.redirect targetId newId = step := by
  rw [SkeletonStep.redirect]
  split
  · rfl
  · have absentNode : targetId ∉ step.node.dependencies := absent
    rw [Dag.redirect_of_not_mem absentNode]
    rfl

theorem map_steps_of_fixed
    {steps : List SkeletonStep} {change : SkeletonStep → SkeletonStep}
    (fixed : ∀ step ∈ steps, change step = step) :
    steps.map change = steps :=
  (List.map_congr_left fixed).trans (List.map_id _)

theorem map_redirect_back
    (linked : Linked (some targetId) back)
    (distinct : targetId ∉ stepIds back) (fresh : newId ∉ stepIds back) :
    back.map (SkeletonStep.redirect targetId newId) =
      reattach newId back := by
  cases back with
  | nil =>
      rfl
  | cons next rest =>
      have notNext : targetId ≠ next.stepId := fun same =>
        distinct (same ▸ List.mem_cons_self)
      have notRest : targetId ∉ stepIds rest := fun among =>
        distinct (List.mem_cons_of_mem _ among)
      have other : next.stepId ≠ newId := fun same =>
        fresh (same ▸ List.mem_cons_self)
      have here : next.redirect targetId newId = next.dependOn [newId] := by
        have one : next.node.dependencies = [targetId] := linked.1
        rw [SkeletonStep.redirect, if_neg other, Dag.Node.redirect, one]
        simp
      have later :
          rest.map (SkeletonStep.redirect targetId newId) = rest := by
        apply map_steps_of_fixed
        intro step member
        apply redirect_of_not_mem
        intro named
        rcases linked.2.2.2.closed member named with same | among
        · exact notNext (Option.some.inj same)
        · exact notRest among
      rw [List.map_cons, here, later]
      rfl

/-- A new step without dependencies put behind a step of the line. -/
theorem insertAfter_split
    (line : Linked none (front ++ target :: back))
    (distinct : (stepIds (front ++ target :: back)).Nodup)
    (unlinked : newStep.dependencies = [])
    (fresh : newStep.stepId ∉ stepIds (front ++ target :: back)) :
    insertAfter (front ++ target :: back) front.length target.stepId
        newStep =
      front ++ target :: newStep.behind target ::
        reattach newStep.stepId back := by
  have linkedTo : newStep.linkedTo target.stepId =
      newStep.behind target := by
    rw [SkeletonStep.linkedTo, unlinked, if_neg List.not_mem_nil]
    rfl
  rw [stepIds, List.map_append, List.map_cons, List.nodup_append,
    List.nodup_cons] at distinct
  obtain ⟨_, ⟨notBack, _⟩, apart⟩ := distinct
  have notFront : target.stepId ∉ stepIds front := fun among =>
    apart _ among _ List.mem_cons_self rfl
  have freshBack : newStep.stepId ∉ stepIds back := by
    intro among
    apply fresh
    rw [stepIds, List.map_append]
    exact List.mem_append_right _ (List.mem_cons_of_mem _ among)
  have untouched (step : SkeletonStep) (member : step ∈ front ++ [target]) :
      step.redirect target.stepId newStep.stepId = step := by
    apply redirect_of_not_mem
    intro named
    rcases line.dependencies_mem member named with same | among
    · cases same
    · exact notFront among
  have redirectedFront :
      front.map (SkeletonStep.redirect target.stepId newStep.stepId) =
        front := by
    apply map_steps_of_fixed
    intro step member
    exact untouched step (List.mem_append_left _ member)
  have redirectedNew :
      (newStep.behind target).redirect target.stepId newStep.stepId =
        newStep.behind target :=
    if_pos rfl
  have inserted :
      (front ++ target :: back).insertIdx (front.length + 1)
          (newStep.behind target) =
        front ++ target :: newStep.behind target :: back := by
    have split := insertIdx_length (front ++ [target]) back
      (newStep.behind target)
    rwa [List.length_append, List.length_singleton,
      List.append_assoc, List.append_assoc] at split
  rw [insertAfter, linkedTo, inserted, List.map_append, List.map_cons,
    List.map_cons, redirectedFront, redirectedNew,
    untouched target (List.mem_append_right _ List.mem_cons_self),
    map_redirect_back line.behind notBack freshBack]

/-- A new step put before the first step with the identifier. -/
theorem insertBefore_split
    (others : targetId ∉ stepIds front)
    (isTarget : target.stepId = targetId)
    (fresh : newStep.stepId ≠ targetId) :
    insertBefore (front ++ target :: back) front.length targetId newStep =
      front ++ newStep.dependOn target.dependencies ::
        target.dependOn [newStep.stepId] :: back := by
  have otherNew : targetId ∉ stepIds (front ++ [newStep]) := by
    rw [stepIds, List.map_append, List.mem_append]
    rintro (among | isNew)
    · exact others among
    · exact fresh (List.mem_singleton.mp isNew).symm
  have regroup (steps : List SkeletonStep) :
      front ++ newStep :: steps = (front ++ [newStep]) ++ steps :=
    (List.append_assoc front [newStep] steps).symm
  have found : findStep ((front ++ [newStep]) ++ target :: back)
      targetId = some (front ++ [newStep]).length :=
    findStep_split otherNew isTarget
  have isAt : ((front ++ [newStep]) ++ target :: back)[
      (front ++ [newStep]).length]? = some target := by
    rw [List.getElem?_append_right (Nat.le_refl _), Nat.sub_self]
    rfl
  rw [insertBefore, insertIdx_length, regroup, found]
  dsimp only
  rw [isAt]
  dsimp only
  rw [← regroup, modify_length]
  have last := modify_length
    (front ++ [newStep.dependOn target.dependencies]) back target
    (SkeletonStep.dependOn · [newStep.stepId])
  rw [List.append_assoc, List.append_assoc, List.length_append] at last
  rw [List.length_append]
  exact last

end Actions

/-! ## What a rule does to a line -/

/-- The changes that keep a line. -/
inductive LineEdit where
  | insertAfter (targetId : String) (newStep : SkeletonStep)
  | insertBefore (targetId : String) (newStep : SkeletonStep)
  -- A new last step, and the one before it is final no longer.
  | append (targetId : String) (newStep : SkeletonStep)
  | equip (targetId : String) (capabilities : List String)

def insertion (actionType : ActionType) (targetId : String)
    (newStep : SkeletonStep) : MutationAction where
  actionType := actionType
  targetStepId := targetId
  step := some newStep

def assignment (targetId field : String) (value : Json) :
    MutationAction where
  actionType := .modifyField
  targetStepId := targetId
  fieldPath := some field
  fieldValue := value

def LineEdit.actions : LineEdit → List MutationAction
  | .insertAfter targetId newStep =>
      [insertion .insertAfter targetId newStep]
  | .insertBefore targetId newStep =>
      [insertion .insertBefore targetId newStep]
  | .append targetId newStep =>
      [insertion .insertAfter targetId newStep,
        assignment targetId "is_final" (.bool false)]
  | .equip targetId capabilities =>
      [assignment targetId "required_capabilities"
        (.list (capabilities.map Json.str))]

/-- A step without dependencies and without the mark of an entry. -/
structure SkeletonStep.Loose (step : SkeletonStep) : Prop where
  unlinked : step.dependencies = []
  noEntry : step.isEntry = false

/-- The place of an edit in the line. -/
inductive LineEdit.Placed (steps : List SkeletonStep) : LineEdit → Prop where
  | insertAfter
      {front back : List SkeletonStep} {target next newStep : SkeletonStep}
      (split : steps = front ++ target :: next :: back)
      (loose : newStep.Loose) (inner : newStep.isFinal = false)
      (fresh : newStep.stepId ∉ stepIds steps) :
      Placed steps (.insertAfter target.stepId newStep)
  | insertBefore
      {front back : List SkeletonStep}
      {previous target newStep : SkeletonStep}
      (split : steps = front ++ previous :: target :: back)
      (loose : newStep.Loose) (inner : newStep.isFinal = false)
      (fresh : newStep.stepId ∉ stepIds steps) :
      Placed steps (.insertBefore target.stepId newStep)
  | append
      {front : List SkeletonStep} {target newStep : SkeletonStep}
      (split : steps = front ++ [target])
      (loose : newStep.Loose) (last : newStep.isFinal = true)
      (fresh : newStep.stepId ∉ stepIds steps) :
      Placed steps (.append target.stepId newStep)
  | equip
      {front back : List SkeletonStep} {target : SkeletonStep}
      (split : steps = front ++ target :: back)
      (capabilities : List String) :
      Placed steps (.equip target.stepId capabilities)

/-- The identifiers of the later line: those of the earlier one, with a new
one at its place. -/
inductive LineEdit.Yields (ids : List String) :
    LineEdit → List String → Prop where
  | insertAfter {front back : List String} {targetId next : String}
      {newStep : SkeletonStep}
      (split : ids = front ++ targetId :: next :: back) :
      Yields ids (.insertAfter targetId newStep)
        (front ++ targetId :: newStep.stepId :: next :: back)
  | insertBefore {front back : List String} {targetId : String}
      {newStep : SkeletonStep}
      (split : ids = front ++ targetId :: back) :
      Yields ids (.insertBefore targetId newStep)
        (front ++ newStep.stepId :: targetId :: back)
  | append {targetId : String} {newStep : SkeletonStep} :
      Yields ids (.append targetId newStep) (ids ++ [newStep.stepId])
  | equip {targetId : String} {capabilities : List String} :
      Yields ids (.equip targetId capabilities) ids

section Edits

variable {front back steps : List SkeletonStep}
  {target next previous newStep : SkeletonStep}

theorem stepIds_split :
    stepIds (front ++ target :: back) =
      stepIds front ++ target.stepId :: stepIds back :=
  List.map_append ..

theorem not_mem_front
    (distinct : (stepIds (front ++ target :: back)).Nodup) :
    target.stepId ∉ stepIds front := by
  rw [stepIds_split, List.nodup_append] at distinct
  intro among
  exact distinct.2.2 _ among _ List.mem_cons_self rfl

theorem editSteps_insertAfter
    (line : IsLine (front ++ target :: back))
    (loose : newStep.Loose)
    (fresh : newStep.stepId ∉ stepIds (front ++ target :: back)) :
    editSteps (front ++ target :: back)
        (insertion .insertAfter target.stepId newStep) =
      front ++ target :: newStep.behind target ::
        reattach newStep.stepId back := by
  rw [editSteps, insertion]
  dsimp only
  rw [findStep_split (not_mem_front line.distinct) rfl]
  exact insertAfter_split line.linked line.distinct loose.unlinked fresh

theorem editSteps_insertBefore
    (line : IsLine (front ++ previous :: target :: back))
    (fresh :
      newStep.stepId ∉ stepIds (front ++ previous :: target :: back)) :
    editSteps (front ++ previous :: target :: back)
        (insertion .insertBefore target.stepId newStep) =
      front ++ previous :: newStep.behind previous ::
        reattach newStep.stepId (target :: back) := by
  have regroup (rest : List SkeletonStep) :
      front ++ previous :: rest = (front ++ [previous]) ++ rest :=
    (List.append_assoc front [previous] rest).symm
  have dependencies : target.dependencies = [previous.stepId] :=
    line.linked.behind.1
  have distinct := line.distinct
  rw [regroup (target :: back)] at distinct fresh
  have freshTarget : newStep.stepId ≠ target.stepId := by
    intro same
    apply fresh
    rw [stepIds_split, same]
    exact List.mem_append_right _ List.mem_cons_self
  have others := not_mem_front distinct
  rw [editSteps, insertion]
  dsimp only
  rw [regroup (target :: back), findStep_split others rfl]
  dsimp only
  rw [insertBefore_split others rfl freshTarget, dependencies]
  exact List.append_assoc ..

theorem editSteps_assign
    (distinct : (stepIds (front ++ target :: back)).Nodup)
    (field : String) (value : Json) :
    editSteps (front ++ target :: back)
        (assignment target.stepId field value) =
      front ++ target.assign field value :: back := by
  rw [editSteps, assignment]
  dsimp only
  rw [findStep_split (not_mem_front distinct) rfl]
  exact modify_length front back target _

theorem nodup_of_inserted
    {front back : List String} {id : String}
    (distinct : (front ++ back).Nodup) (fresh : id ∉ front ++ back) :
    (front ++ id :: back).Nodup :=
  List.nodup_middle.mpr (List.nodup_cons.mpr ⟨fresh, distinct⟩)

/-- What an edit leaves of a line. -/
structure LineEdit.Left (steps : List SkeletonStep) (edit : LineEdit) :
    Prop where
  line : IsLine (run editSteps steps edit.actions)
  yields : edit.Yields (stepIds steps)
    (stepIds (run editSteps steps edit.actions))

theorem left_insertAfter
    (line : IsLine (front ++ target :: next :: back))
    (loose : newStep.Loose) (inner : newStep.isFinal = false)
    (fresh :
      newStep.stepId ∉ stepIds (front ++ target :: next :: back)) :
    LineEdit.Left (front ++ target :: next :: back)
      (.insertAfter target.stepId newStep) := by
  have edited := editSteps_insertAfter line loose fresh
  have ids : stepIds (front ++ target :: newStep.behind target ::
        reattach newStep.stepId (next :: back)) =
      stepIds front ++ target.stepId :: newStep.stepId ::
        stepIds (next :: back) :=
    stepIds_split
  have distinct := line.distinct
  rw [stepIds_split] at distinct fresh
  refine ⟨⟨?_, ?_⟩, ?_⟩
  · rw [LineEdit.actions, run_cons, run_nil, edited, ids]
    have regrouped (rest : List String) :
        stepIds front ++ target.stepId :: rest =
          (stepIds front ++ [target.stepId]) ++ rest :=
      (List.append_assoc (stepIds front) [target.stepId] rest).symm
    rw [regrouped] at distinct fresh ⊢
    exact nodup_of_inserted distinct fresh
  · rw [LineEdit.actions, run_cons, run_nil, edited]
    exact line.linked.insert (List.cons_ne_nil _ _) loose.noEntry inner
  · rw [LineEdit.actions, run_cons, run_nil, edited, ids]
    exact .insertAfter stepIds_split

theorem left_insertBefore
    (line : IsLine (front ++ previous :: target :: back))
    (loose : newStep.Loose) (inner : newStep.isFinal = false)
    (fresh :
      newStep.stepId ∉ stepIds (front ++ previous :: target :: back)) :
    LineEdit.Left (front ++ previous :: target :: back)
      (.insertBefore target.stepId newStep) := by
  have edited := editSteps_insertBefore line fresh
  have regroup (rest : List String) :
      stepIds front ++ previous.stepId :: rest =
        (stepIds front ++ [previous.stepId]) ++ rest :=
    (List.append_assoc (stepIds front) [previous.stepId] rest).symm
  have ids : stepIds (front ++ previous :: newStep.behind previous ::
        reattach newStep.stepId (target :: back)) =
      (stepIds front ++ [previous.stepId]) ++ newStep.stepId ::
        target.stepId :: stepIds back := by
    rw [stepIds_split]
    exact regroup _
  have split : stepIds (front ++ previous :: target :: back) =
      (stepIds front ++ [previous.stepId]) ++
        target.stepId :: stepIds back := by
    rw [stepIds_split]
    exact regroup _
  have distinct := line.distinct
  refine ⟨⟨?_, ?_⟩, ?_⟩
  · rw [LineEdit.actions, run_cons, run_nil, edited, ids]
    rw [split] at distinct fresh
    exact nodup_of_inserted distinct fresh
  · rw [LineEdit.actions, run_cons, run_nil, edited]
    exact line.linked.insert (List.cons_ne_nil _ _) loose.noEntry inner
  · rw [LineEdit.actions, run_cons, run_nil, edited, ids]
    exact .insertBefore split

/-- The mark of the last step goes after the new step has come behind it. -/
theorem left_append
    (line : IsLine (front ++ [target]))
    (loose : newStep.Loose) (last : newStep.isFinal = true)
    (fresh : newStep.stepId ∉ stepIds (front ++ [target])) :
    LineEdit.Left (front ++ [target]) (.append target.stepId newStep) := by
  have inserted := editSteps_insertAfter line loose fresh
  have ids : stepIds (front ++ [target, newStep.behind target]) =
      stepIds (front ++ [target]) ++ [newStep.stepId] := by
    rw [stepIds_split, stepIds_split, List.append_assoc]
    rfl
  have distinct :
      (stepIds (front ++ [target, newStep.behind target])).Nodup := by
    rw [ids]
    apply nodup_of_inserted
    · rw [List.append_nil]
      exact line.distinct
    · rwa [List.append_nil]
  have unmarked :
      target.assign "is_final" (.bool false) =
        { target with isFinal := false } :=
    assign_of_setattr rfl
  have edited :
      run editSteps (front ++ [target])
          (LineEdit.append target.stepId newStep).actions =
        front ++
          [{ target with isFinal := false }, newStep.behind target] := by
    rw [LineEdit.actions, run_cons, run_cons, run_nil, inserted]
    change editSteps (front ++ [target, newStep.behind target]) _ = _
    rw [editSteps_assign distinct, unmarked]
  have sameIds : stepIds (front ++
        [{ target with isFinal := false }, newStep.behind target]) =
      stepIds (front ++ [target]) ++ [newStep.stepId] := by
    rw [← ids, stepIds_split, stepIds_split]
  refine ⟨⟨?_, ?_⟩, ?_⟩
  · rw [edited, sameIds, ← ids]
    exact distinct
  · rw [edited]
    exact line.linked.append loose.noEntry last
  · rw [edited, sameIds]
    exact .append

theorem left_equip
    (line : IsLine (front ++ target :: back))
    (capabilities : List String) :
    LineEdit.Left (front ++ target :: back)
      (.equip target.stepId capabilities) := by
  have equipped :
      target.assign "required_capabilities"
          (.list (capabilities.map Json.str)) =
        { target with requiredCapabilities := capabilities } :=
    assign_of_setattr rfl
  have edited :
      run editSteps (front ++ target :: back)
          (LineEdit.equip target.stepId capabilities).actions =
        front ++ { target with requiredCapabilities := capabilities } ::
          back := by
    rw [LineEdit.actions, run_cons, run_nil,
      editSteps_assign line.distinct, equipped]
  have sameIds : stepIds (front ++
        { target with requiredCapabilities := capabilities } :: back) =
      stepIds (front ++ target :: back) := by
    rw [stepIds_split, stepIds_split]
  refine ⟨⟨?_, ?_⟩, ?_⟩
  · rw [edited, sameIds]
    exact line.distinct
  · rw [edited]
    exact line.linked.replace rfl rfl rfl rfl
  · rw [edited, sameIds]
    exact .equip

/-- An edit at its place leaves a line. -/
theorem LineEdit.Placed.left
    {edit : LineEdit} (placed : edit.Placed steps) (line : IsLine steps) :
    edit.Left steps := by
  cases placed with
  | insertAfter split loose inner fresh =>
      subst split
      exact left_insertAfter line loose inner fresh
  | insertBefore split loose inner fresh =>
      subst split
      exact left_insertBefore line loose inner fresh
  | append split loose last fresh =>
      subst split
      exact left_append line loose last fresh
  | equip split capabilities =>
      subst split
      exact left_equip line capabilities

end Edits

/-! ## Rules that fit a line -/

/-- The steps that the rules carry. -/
def insertedSteps (rules : List MutationRule) : List SkeletonStep :=
  (rules.flatMap MutationRule.actions).filterMap MutationAction.step

def LineEdit.inserted : LineEdit → List SkeletonStep
  | .insertAfter _ newStep => [newStep]
  | .insertBefore _ newStep => [newStep]
  | .append _ newStep => [newStep]
  | .equip .. => []

/-- The edit has its place in every line that has these steps in this
order. -/
inductive LineEdit.Suits (ids : List String) : LineEdit → Prop where
  | insertAfter {targetId later : String} {newStep : SkeletonStep}
      (order : [targetId, later].Sublist ids)
      (loose : newStep.Loose) (inner : newStep.isFinal = false) :
      Suits ids (.insertAfter targetId newStep)
  | insertBefore {earlier targetId : String} {newStep : SkeletonStep}
      (order : [earlier, targetId].Sublist ids)
      (loose : newStep.Loose) (inner : newStep.isFinal = false) :
      Suits ids (.insertBefore targetId newStep)
  | append {targetId : String} {newStep : SkeletonStep}
      (isLast : ids.getLast? = some targetId)
      (loose : newStep.Loose) (last : newStep.isFinal = true) :
      Suits ids (.append targetId newStep)
  | equip {targetId : String} (present : targetId ∈ ids)
      (capabilities : List String) :
      Suits ids (.equip targetId capabilities)

/-- Every rule has its place, the new steps are new and distinct, and at most
one of them is final. -/
structure FitsLine (ids : List String) (rules : List MutationRule) :
    Prop where
  suits : ∀ rule ∈ rules, ∃ edit : LineEdit,
    rule.actions = edit.actions ∧ edit.Suits ids
  distinct : (ids ++ stepIds (insertedSteps rules)).Nodup
  oneFinal : (insertedSteps rules).countP SkeletonStep.isFinal ≤ 1

/-- Some of the rules, in another order. -/
theorem FitsLine.of_subperm
    {ids : List String} {rules chosen : List MutationRule}
    (fits : FitsLine ids rules) (among : chosen.Subperm rules) :
    FitsLine ids chosen := by
  have inserted :
      (insertedSteps chosen).Subperm (insertedSteps rules) := by
    obtain ⟨listed, same, sublist⟩ := among
    exact ⟨insertedSteps listed,
      (same.flatMap_right MutationRule.actions).filterMap _,
      (sublist.flatMap MutationRule.actions).filterMap _⟩
  have allIds :
      (ids ++ stepIds (insertedSteps chosen)).Subperm
        (ids ++ stepIds (insertedSteps rules)) := by
    obtain ⟨listed, same, sublist⟩ := inserted
    exact (List.subperm_append_left ids).mpr
      ⟨stepIds listed, same.map _, sublist.map _⟩
  refine ⟨fun rule member => fits.suits rule (among.subset member), ?_,
    (inserted.countP_le _).trans fits.oneFinal⟩
  obtain ⟨listed, same, sublist⟩ := allIds
  exact same.nodup_iff.mp (sublist.nodup fits.distinct)

/-- The line that a run has made of the steps so far. -/
structure Grown (ids : List String) (rules : List MutationRule)
    (steps : List SkeletonStep) : Prop where
  line : IsLine steps
  order : ids.Sublist (stepIds steps)
  known : ∀ id ∈ stepIds steps,
    id ∈ ids ∨ id ∈ stepIds (insertedSteps rules)
  -- Only a final step comes behind the last one.
  last : (∀ step ∈ insertedSteps rules, step.isFinal = false) →
    (stepIds steps).getLast? = ids.getLast?
  gates : ∀ rule ∈ rules, ∀ targetId newStep,
    rule.actions = (LineEdit.insertAfter targetId newStep).actions →
      ∀ later, [targetId, later].Sublist ids →
        [targetId, newStep.stepId, later].Sublist (stepIds steps)

section Growth

variable {ids : List String} {steps : List SkeletonStep}
  {edit : LineEdit}

theorem insertedSteps_append (rules others : List MutationRule) :
    insertedSteps (rules ++ others) =
      insertedSteps rules ++ insertedSteps others := by
  rw [insertedSteps, List.flatMap_append, List.filterMap_append]
  rfl

theorem insertedSteps_of_actions
    {rule : MutationRule} (acts : rule.actions = edit.actions) :
    insertedSteps [rule] = edit.inserted := by
  rw [insertedSteps, List.flatMap_singleton, acts]
  cases edit <;> rfl

/-- A step before another one splits the line in front of it. -/
theorem exists_split_of_sublist
    {first second : String}
    (order : [first, second].Sublist (stepIds steps)) :
    ∃ front target back, steps = front ++ target :: back ∧
      target.stepId = first ∧ second ∈ stepIds back := by
  induction steps with
  | nil =>
      cases order
  | cons step rest inductionHypothesis =>
      cases order with
      | cons _ later =>
          obtain ⟨front, target, back, split, facts⟩ :=
            inductionHypothesis later
          exact ⟨step :: front, target, back, by rw [split]; rfl, facts⟩
      | cons_cons _ later =>
          exact
            ⟨[], step, rest, rfl, rfl, List.singleton_sublist.mp later⟩

theorem mem_behind_of_sublist
    {front back : List String} {first second : String}
    (order : [first, second].Sublist (front ++ first :: back))
    (others : first ∉ front) : second ∈ back := by
  induction front with
  | nil =>
      cases order with
      | cons _ later =>
          exact later.subset (List.mem_cons_of_mem _ List.mem_cons_self)
      | cons_cons _ later =>
          exact List.singleton_sublist.mp later
  | cons head rest inductionHypothesis =>
      have notRest : first ∉ rest := fun among =>
        others (List.mem_cons_of_mem _ among)
      cases order with
      | cons _ later =>
          exact inductionHypothesis later notRest
      | cons_cons _ later =>
          exact absurd List.mem_cons_self others

theorem LineEdit.Yields.sublist
    {later : List String} (yields : edit.Yields ids later) :
    ids.Sublist later := by
  cases yields with
  | insertAfter split =>
      rw [split]
      exact ((List.sublist_cons_self _ _).cons_cons _).append_left _
  | insertBefore split =>
      rw [split]
      exact (List.sublist_cons_self _ _).append_left _
  | append =>
      exact List.sublist_append_left _ _
  | equip =>
      exact List.Sublist.refl _

theorem LineEdit.Yields.known
    {later : List String} (yields : edit.Yields ids later) {id : String}
    (member : id ∈ later) : id ∈ ids ∨ id ∈ stepIds edit.inserted := by
  cases yields with
  | insertAfter split =>
      rw [split]
      simp only [List.mem_append, List.mem_cons] at member ⊢
      rcases member with among | isTarget | isNew | among
      · exact Or.inl (Or.inl among)
      · exact Or.inl (Or.inr (Or.inl isTarget))
      · exact Or.inr (List.mem_singleton.mpr isNew)
      · exact Or.inl (Or.inr (Or.inr among))
  | insertBefore split =>
      rw [split]
      simp only [List.mem_append, List.mem_cons] at member ⊢
      rcases member with among | isNew | isTarget | among
      · exact Or.inl (Or.inl among)
      · exact Or.inr (List.mem_singleton.mpr isNew)
      · exact Or.inl (Or.inr (Or.inl isTarget))
      · exact Or.inl (Or.inr (Or.inr among))
  | append =>
      rcases List.mem_append.mp member with among | isNew
      · exact Or.inl among
      · exact Or.inr isNew
  | equip =>
      exact Or.inl member

theorem LineEdit.Suits.placed
    {rules : List MutationRule} (suits : edit.Suits ids)
    (grown : Grown ids rules steps)
    (fresh : ∀ newStep ∈ edit.inserted,
      newStep.stepId ∉ ids ∧
        newStep.stepId ∉ stepIds (insertedSteps rules))
    (noFinal : (∃ newStep ∈ edit.inserted, newStep.isFinal = true) →
      ∀ step ∈ insertedSteps rules, step.isFinal = false) :
    edit.Placed steps := by
  have isFresh (newStep : SkeletonStep) (member : newStep ∈ edit.inserted) :
      newStep.stepId ∉ stepIds steps := by
    intro among
    rcases grown.known _ among with known | known
    · exact (fresh newStep member).1 known
    · exact (fresh newStep member).2 known
  cases suits with
  | insertAfter order loose inner =>
      obtain ⟨front, target, back, split, rfl, behind⟩ :=
        exists_split_of_sublist (order.trans grown.order)
      cases back with
      | nil =>
          cases behind
      | cons next rest =>
          exact .insertAfter split loose inner
            (isFresh _ List.mem_cons_self)
  | insertBefore order loose inner =>
      obtain ⟨front, first, back, split, _, behind⟩ :=
        exists_split_of_sublist (order.trans grown.order)
      obtain ⟨target, among, rfl⟩ := List.mem_map.mp behind
      obtain ⟨middle, rest, isBack⟩ := List.append_of_mem among
      -- There is a step before the target, the first one at the latest.
      obtain ⟨others, previous, isFront⟩ :=
        (List.eq_nil_or_concat (front ++ first :: middle)).resolve_left
          (List.append_ne_nil_of_right_ne_nil _ (List.cons_ne_nil _ _))
      have resplit :
          steps = others ++ previous :: target :: rest := by
        calc
          steps = (front ++ first :: middle) ++ target :: rest := by
            rw [split, isBack, List.append_assoc]
            rfl
          _ = others ++ previous :: target :: rest := by
            rw [isFront, List.concat_eq_append, List.append_assoc]
            rfl
      exact .insertBefore resplit loose inner
        (isFresh _ List.mem_cons_self)
  | append isLast loose last =>
      have stillLast : (stepIds steps).getLast? = some _ :=
        (grown.last (noFinal ⟨_, List.mem_cons_self, last⟩)).trans isLast
      rcases List.eq_nil_or_concat steps with none | ⟨front, target, split⟩
      · rw [none] at stillLast
        cases stillLast
      · rw [List.concat_eq_append] at split
        rw [split, stepIds, List.map_append, List.map_singleton,
          List.getLast?_concat] at stillLast
        obtain rfl := Option.some.inj stillLast
        exact .append split loose last (isFresh _ List.mem_cons_self)
  | equip present capabilities =>
      obtain ⟨target, among, rfl⟩ :=
        List.mem_map.mp (grown.order.subset present)
      obtain ⟨front, back, split⟩ := List.append_of_mem among
      exact .equip split capabilities

theorem eq_insertAfter_of_actions
    {targetId : String} {newStep : SkeletonStep}
    (same : (LineEdit.insertAfter targetId newStep).actions =
      edit.actions) : edit = .insertAfter targetId newStep := by
  cases edit with
  | insertAfter otherId otherStep =>
      have sameAction := List.head_eq_of_cons_eq same
      rw [insertion, insertion, MutationAction.mk.injEq] at sameAction
      obtain ⟨_, rfl, sameStep, _⟩ := sameAction
      rw [Option.some.inj sameStep]
  | insertBefore otherId otherStep =>
      cases congrArg MutationAction.actionType
        (List.head_eq_of_cons_eq same)
  | append otherId otherStep =>
      cases List.tail_eq_of_cons_eq same
  | equip otherId capabilities =>
      cases congrArg MutationAction.actionType
        (List.head_eq_of_cons_eq same)

/-- Only a final step comes last. -/
theorem LineEdit.Yields.last
    {later placed : List String} (yields : edit.Yields ids later)
    (suits : edit.Suits placed)
    (noFinal : ∀ step ∈ edit.inserted, step.isFinal = false) :
    later.getLast? = ids.getLast? := by
  cases yields with
  | insertAfter split =>
      rw [split, List.getLast?_append, List.getLast?_append,
        List.getLast?_cons_cons, List.getLast?_cons_cons,
        List.getLast?_cons_cons]
  | insertBefore split =>
      rw [split, List.getLast?_append, List.getLast?_append,
        List.getLast?_cons_cons]
  | append =>
      cases suits with
      | append isLast loose last =>
          rw [noFinal _ List.mem_cons_self] at last
          cases last
  | equip =>
      rfl

/-- A step behind the target comes behind the new step. -/
theorem LineEdit.Yields.between
    {later : List String} {targetId next : String}
    {newStep : SkeletonStep}
    (yields :
      (LineEdit.insertAfter targetId newStep).Yields ids later)
    (distinct : ids.Nodup) (order : [targetId, next].Sublist ids) :
    [targetId, newStep.stepId, next].Sublist later := by
  cases yields with
  | insertAfter split =>
      rw [split] at distinct order
      rw [List.nodup_append] at distinct
      have behind := mem_behind_of_sublist order fun among =>
        distinct.2.2 _ among _ List.mem_cons_self rfl
      exact (((List.singleton_sublist.mpr behind).cons_cons _).cons_cons
        _).trans (List.sublist_append_right _ _)

/-- One rule at its place lets the line grow. -/
theorem Grown.step
    {rules : List MutationRule} {rule : MutationRule}
    (grown : Grown ids rules steps)
    (acts : rule.actions = edit.actions) (suits : edit.Suits ids)
    (fresh : ∀ newStep ∈ edit.inserted,
      newStep.stepId ∉ ids ∧
        newStep.stepId ∉ stepIds (insertedSteps rules))
    (noFinal : (∃ newStep ∈ edit.inserted, newStep.isFinal = true) →
      ∀ step ∈ insertedSteps rules, step.isFinal = false) :
    Grown ids (rules ++ [rule]) (run editSteps steps rule.actions) := by
  obtain ⟨line, yields⟩ :=
    (suits.placed grown fresh noFinal).left grown.line
  have inserted : insertedSteps (rules ++ [rule]) =
      insertedSteps rules ++ edit.inserted := by
    rw [insertedSteps_append, insertedSteps_of_actions acts]
  rw [← acts] at line yields
  refine ⟨line, grown.order.trans yields.sublist, ?_, ?_, ?_⟩
  · intro id member
    rw [inserted, stepIds, List.map_append, List.mem_append]
    rcases yields.known member with among | isNew
    · rcases grown.known id among with isOld | wasNew
      · exact Or.inl isOld
      · exact Or.inr (Or.inl wasNew)
    · exact Or.inr (Or.inr isNew)
  · intro unmarked
    rw [inserted] at unmarked
    have before := grown.last fun step member =>
      unmarked step (List.mem_append_left _ member)
    exact (yields.last suits fun step member =>
      unmarked step (List.mem_append_right _ member)).trans before
  · intro other member targetId newStep inserts later order
    rcases List.mem_append.mp member with isOld | isNew
    · exact (grown.gates other isOld targetId newStep inserts later
        order).trans yields.sublist
    · obtain rfl := List.mem_singleton.mp isNew
      obtain rfl := eq_insertAfter_of_actions (inserts.symm.trans acts)
      exact yields.between grown.line.distinct
        (order.trans grown.order)

theorem insertedSteps_split
    {done rest : List MutationRule} {rule : MutationRule}
    (acts : rule.actions = edit.actions) :
    insertedSteps (done ++ rule :: rest) =
      insertedSteps done ++ (edit.inserted ++ insertedSteps rest) := by
  rw [insertedSteps_append, ← insertedSteps_of_actions acts]
  exact congrArg _ (insertedSteps_append [rule] rest)

theorem FitsLine.fresh
    {done rest : List MutationRule} {rule : MutationRule}
    (fits : FitsLine ids (done ++ rule :: rest))
    (acts : rule.actions = edit.actions) :
    ∀ newStep ∈ edit.inserted,
      newStep.stepId ∉ ids ∧
        newStep.stepId ∉ stepIds (insertedSteps done) := by
  intro newStep member
  have distinct := fits.distinct
  rw [insertedSteps_split acts, stepIds, List.map_append,
    List.nodup_append] at distinct
  obtain ⟨_, among, apart⟩ := distinct
  have isNew : newStep.stepId ∈
      (edit.inserted ++ insertedSteps rest).map SkeletonStep.stepId :=
    List.mem_map_of_mem (List.mem_append_left _ member)
  constructor
  · intro isOld
    exact apart _ isOld _ (List.mem_append_right _ isNew) rfl
  · intro isOld
    exact (List.nodup_append.mp among).2.2 _ isOld _ isNew rfl

/-- Two final steps are one too many. -/
theorem FitsLine.noFinal
    {done rest : List MutationRule} {rule : MutationRule}
    (fits : FitsLine ids (done ++ rule :: rest))
    (acts : rule.actions = edit.actions)
    (final : ∃ newStep ∈ edit.inserted, newStep.isFinal = true) :
    ∀ step ∈ insertedSteps done, step.isFinal = false := by
  intro step member
  by_contra marked
  obtain ⟨newStep, isNew, isFinal⟩ := final
  have before :
      0 < (insertedSteps done).countP SkeletonStep.isFinal :=
    List.countP_pos_iff.mpr ⟨step, member, by simpa using marked⟩
  have here : 0 < edit.inserted.countP SkeletonStep.isFinal :=
    List.countP_pos_iff.mpr ⟨newStep, isNew, isFinal⟩
  have atMostOne := fits.oneFinal
  rw [insertedSteps_split acts, List.countP_append, List.countP_append]
    at atMostOne
  omega

theorem Grown.run
    {done rest : List MutationRule} (fits : FitsLine ids (done ++ rest))
    (grown : Grown ids done steps) :
    Grown ids (done ++ rest)
      (Library.run editSteps steps
        (rest.flatMap MutationRule.actions)) := by
  induction rest generalizing done steps with
  | nil =>
      rw [List.append_nil]
      exact grown
  | cons rule later inductionHypothesis =>
      obtain ⟨edit, acts, suits⟩ :=
        fits.suits rule (List.mem_append_right _ List.mem_cons_self)
      have stepped :=
        grown.step acts suits (fits.fresh acts) (fits.noFinal acts)
      rw [List.flatMap_cons, run_append]
      rw [List.append_cons] at fits ⊢
      exact inductionHypothesis fits stepped

/-- Rules that fit keep a line, whichever of them are applied and in whatever
order. -/
theorem grown_of_fitsLine
    {rules applied : List MutationRule} (line : IsLine steps)
    (fits : FitsLine (stepIds steps) rules)
    (among : applied.Subperm rules) :
    Grown (stepIds steps) applied
      (Library.run editSteps steps
        (applied.flatMap MutationRule.actions)) := by
  have start : Grown (stepIds steps) [] steps :=
    ⟨line, List.Sublist.refl _, fun _ member => Or.inl member,
      fun _ => rfl, fun _ member => absurd member List.not_mem_nil⟩
  have fitting : FitsLine (stepIds steps) ([] ++ applied) :=
    fits.of_subperm among
  exact start.run fitting

end Growth

end Agentcy.Topology
