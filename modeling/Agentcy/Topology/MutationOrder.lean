import Agentcy.Library.DagPaths
import Agentcy.Topology.MutationDag
import Agentcy.Topology.StepPresence

/-!
# Which order mutations keep

The actions of the engine, seen on the nodes that the steps stand for, are
edits of a DAG.  Insertions of fresh steps and removals leave the order of the
remaining steps as it was.
-/

namespace Agentcy.Topology

open Agentcy.Library

/-- The step that an insertion carries. -/
def MutationAction.inserted? (action : MutationAction) :
    Option SkeletonStep :=
  match action.actionType with
  | .insertAfter => action.step
  | .insertBefore => action.step
  | .remove => none
  | .modifyField => none

/-- What an insertion or a removal makes of the nodes. -/
def editNodes (nodes : List (Dag.Node String)) (action : MutationAction) :
    List (Dag.Node String) :=
  if action.targetStepId ∈ Dag.ids nodes then
    match action.actionType, action.step with
    | .insertAfter, some newStep =>
        Dag.insertAfter nodes action.targetStepId newStep.node
    | .insertBefore, some newStep =>
        Dag.insertBefore nodes action.targetStepId newStep.node
    | .remove, _ => Dag.remove nodes action.targetStepId
    | _, _ => nodes
  else nodes

section Edits

variable (inherited : String → Bool)
  {steps : List StepObject} {nodes : List (Dag.Node String)}

theorem present_iff_of_depicts
    (depicts : DepictsAll steps nodes) (stepId : String) :
    Present stepId steps ↔ stepId ∈ Dag.ids nodes := by
  induction depicts with
  | nil =>
      simp [Present, Dag.ids]
  | @cons step node _ _ here _ inductionHypothesis =>
      have same : step.stepId = .str stepId ↔ stepId = node.id := by
        rw [here.stepId_eq, Json.str.injEq]
        exact eq_comm
      unfold Present at inductionHypothesis ⊢
      rw [List.exists_mem_cons_iff, same, inductionHypothesis, Dag.ids,
        Dag.ids, List.map_cons, List.mem_cons]

/-- The engine edits the nodes, up to their order in the list. -/
theorem applyAction_edits
    (depicts : DepictsAll steps nodes) (distinct : (Dag.ids nodes).Nodup)
    {action : MutationAction}
    (structural : action.actionType ≠ .modifyField)
    (fresh : action.targetStepId ∈ Dag.ids nodes →
      ∀ newStep, action.inserted? = some newStep →
        newStep.stepId ∉ Dag.ids nodes) :
    ∃ final, Leaves (applyAction inherited steps action) final ∧
      final.Perm (editNodes nodes action) := by
  have idle : Leaves (.ok steps) nodes := ⟨steps, rfl, depicts⟩
  rw [applyAction, findStepIndex_eq depicts, editNodes]
  cases found : nodes.findIdx?
      fun node => decide (node.id = action.targetStepId) with
  | none =>
      have absent : action.targetStepId ∉ Dag.ids nodes := by
        intro present
        rcases List.mem_map.mp present with ⟨node, member, same⟩
        have noMatch := List.findIdx?_eq_none_iff.mp found node member
        rw [decide_eq_true same] at noMatch
        cases noMatch
      rw [if_neg absent]
      exact ⟨nodes, idle, List.Perm.refl _⟩
  | some index =>
      obtain ⟨front, old, back, cut, length, isTarget, _⟩ :=
        cut_of_found found
      have inside : index < nodes.length := by
        rw [cut, ← length, List.length_append, List.length_cons]
        omega
      have present : action.targetStepId ∈ Dag.ids nodes := by
        rw [← isTarget, cut]
        exact Dag.id_mem
          (List.mem_append_right front List.mem_cons_self)
      rw [if_pos present]
      dsimp only
      rcases action with ⟨actionType, targetId, step, fieldPath, value⟩
      cases actionType with
      | insertAfter =>
          cases step with
          | none => exact ⟨nodes, idle, List.Perm.refl _⟩
          | some newStep =>
              exact insertStepAfter_edits depicts inside targetId
                (fresh present newStep rfl)
      | insertBefore =>
          cases step with
          | none => exact ⟨nodes, idle, List.Perm.refl _⟩
          | some newStep =>
              exact insertStepBefore_edits depicts distinct found
                (fresh present newStep rfl)
      | remove =>
          exact ⟨_, removeStep_edits depicts distinct found,
            List.Perm.refl _⟩
      | modifyField =>
          exact absurd rfl structural

end Edits

/-- A removal, or an insertion of a step that names no dependencies. -/
def Splices (action : MutationAction) : Prop :=
  action.actionType ≠ .modifyField ∧
    ∀ newStep, action.inserted? = some newStep →
      newStep.dependencies = []

/-- The step that an action inserts has an identifier of its own. -/
def InsertsFresh :
    Except MutationError (List StepObject) → MutationAction → Prop
  | .error _, _ => True
  | .ok steps, action =>
      ∀ newStep, action.inserted? = some newStep →
        ¬ Present newStep.stepId steps

/-- The action inserts a step with this identifier. -/
def Inserts (action : MutationAction) (stepId : String) : Prop :=
  ∃ newStep, action.inserted? = some newStep ∧ newStep.stepId = stepId

section Order

variable {nodes : List (Dag.Node String)} {action : MutationAction}

theorem mem_ids_editNodes
    {id : String} (member : id ∈ Dag.ids (editNodes nodes action)) :
    id ∈ Dag.ids nodes ∨ Inserts action id := by
  rcases action with ⟨actionType, targetId, step, fieldPath, value⟩
  unfold editNodes at member
  dsimp only at member
  split at member
  · cases actionType with
    | insertAfter =>
        cases step with
        | none => exact Or.inl member
        | some newStep =>
            rw [Dag.ids_insertAfter] at member
            rcases List.mem_cons.mp member with rfl | old
            · exact Or.inr ⟨newStep, rfl, rfl⟩
            · exact Or.inl old
    | insertBefore =>
        cases step with
        | none => exact Or.inl member
        | some newStep =>
            rw [Dag.ids_insertBefore] at member
            rcases List.mem_cons.mp member with rfl | old
            · exact Or.inr ⟨newStep, rfl, rfl⟩
            · exact Or.inl old
    | remove =>
        rw [Dag.ids_remove] at member
        exact Or.inl (Dag.mem_ids_filter.mp member).1
    | modifyField =>
        exact Or.inl member
  · exact Or.inl member

/-- An edit keeps a DAG, and the order of the nodes that stay. -/
theorem editNodes_keeps
    (dag : Dag.IsDag nodes) (splices : Splices action)
    (fresh : ∀ newStep, action.inserted? = some newStep →
      newStep.stepId ∉ Dag.ids nodes) :
    Dag.IsDag (editNodes nodes action) ∧
      ∀ first ∈ Dag.ids nodes, ∀ last ∈ Dag.ids nodes,
        first ∈ Dag.ids (editNodes nodes action) →
        last ∈ Dag.ids (editNodes nodes action) →
        (Relation.TransGen (Dag.DependsOn (editNodes nodes action))
            first last ↔
          Relation.TransGen (Dag.DependsOn nodes) first last) := by
  have idle : Dag.IsDag nodes ∧
      ∀ first ∈ Dag.ids nodes, ∀ last ∈ Dag.ids nodes,
        first ∈ Dag.ids nodes → last ∈ Dag.ids nodes →
        (Relation.TransGen (Dag.DependsOn nodes) first last ↔
          Relation.TransGen (Dag.DependsOn nodes) first last) :=
    ⟨dag, fun _ _ _ _ _ _ => Iff.rfl⟩
  rcases action with ⟨actionType, targetId, step, fieldPath, value⟩
  unfold editNodes
  dsimp only
  split
  · rename_i present
    cases actionType with
    | insertAfter =>
        cases step with
        | none => exact idle
        | some newStep =>
            have new := fresh newStep rfl
            have plain : newStep.node.dependencies = [] :=
              splices.2 newStep rfl
            refine ⟨?_, fun first isFirst last isLast _ _ =>
              Dag.transGen_insertAfter_iff dag new plain isFirst isLast⟩
            refine (Dag.isDag_insertAfter_iff dag present _).mpr ⟨new, ?_⟩
            intro dependency among
            rw [plain] at among
            cases among
    | insertBefore =>
        cases step with
        | none => exact idle
        | some newStep =>
            have new := fresh newStep rfl
            exact ⟨(Dag.isDag_insertBefore_iff dag present _).mpr new,
              fun first isFirst last isLast _ _ =>
                Dag.transGen_insertBefore_iff dag present new isFirst
                  isLast⟩
    | remove =>
        refine ⟨Dag.isDag_remove dag present, ?_⟩
        intro first _ last _ firstStays lastStays
        rw [Dag.ids_remove] at firstStays lastStays
        exact Dag.transGen_remove_iff dag present
          (Dag.mem_ids_filter.mp firstStays).2
          (Dag.mem_ids_filter.mp lastStays).2
    | modifyField =>
        exact absurd rfl splices.1
  · exact idle

end Order

/-! ## Runs -/

section Runs

variable (inherited : String → Bool)

theorem applyStep_edits
    {steps : List StepObject} {nodes : List (Dag.Node String)}
    (depicts : DepictsAll steps nodes) (dag : Dag.IsDag nodes)
    {action : MutationAction} (splices : Splices action)
    (fresh : InsertsFresh (.ok steps) action) :
    ∃ later next, applyStep inherited (.ok steps) action = .ok later ∧
      DepictsAll later next ∧ Dag.IsDag next ∧
      (∀ id ∈ Dag.ids next, id ∈ Dag.ids nodes ∨ Inserts action id) ∧
      ∀ first ∈ Dag.ids nodes, ∀ last ∈ Dag.ids nodes,
        first ∈ Dag.ids next → last ∈ Dag.ids next →
        (Relation.TransGen (Dag.DependsOn next) first last ↔
          Relation.TransGen (Dag.DependsOn nodes) first last) := by
  have new : ∀ newStep, action.inserted? = some newStep →
      newStep.stepId ∉ Dag.ids nodes := by
    intro newStep inserts
    rw [← present_iff_of_depicts depicts]
    exact fresh newStep inserts
  obtain ⟨next, ⟨later, applied, depictsLater⟩, permuted⟩ :=
    applyAction_edits inherited depicts dag.distinct splices.1
      fun _ => new
  obtain ⟨isDag, order⟩ := editNodes_keeps dag splices new
  have sameIds : (Dag.ids next).Perm
      (Dag.ids (editNodes nodes action)) := permuted.map Dag.Node.id
  refine ⟨later, next, ?_, depictsLater,
    (Dag.isDag_perm_iff permuted).mpr isDag, ?_, ?_⟩
  · unfold applyStep
    rw [bind_ok rfl, applied]
    rfl
  · intro id member
    exact mem_ids_editNodes (sameIds.mem_iff.mp member)
  · intro first isFirst last isLast firstStays lastStays
    rw [Dag.dependsOn_of_perm permuted]
    exact order first isFirst last isLast
      (sameIds.mem_iff.mp firstStays) (sameIds.mem_iff.mp lastStays)

theorem run_edits
    {actions : List MutationAction}
    {steps : List StepObject} {nodes : List (Dag.Node String)}
    (depicts : DepictsAll steps nodes) (dag : Dag.IsDag nodes)
    (splices : ∀ action ∈ actions, Splices action)
    (fresh : EveryStep (applyStep inherited) InsertsFresh (.ok steps)
      actions) :
    ∃ final last, run (applyStep inherited) (.ok steps) actions =
        .ok final ∧
      DepictsAll final last ∧ Dag.IsDag last ∧
      (∀ id ∈ Dag.ids last, id ∈ Dag.ids nodes ∨
        ∃ action ∈ actions, Inserts action id) ∧
      ∀ before ∈ Dag.ids nodes, ∀ after ∈ Dag.ids nodes,
        before ∈ Dag.ids last → after ∈ Dag.ids last →
        (∀ action ∈ actions,
          ¬ Inserts action before ∧ ¬ Inserts action after) →
        (Relation.TransGen (Dag.DependsOn last) before after ↔
          Relation.TransGen (Dag.DependsOn nodes) before after) := by
  induction actions generalizing steps nodes with
  | nil =>
      exact ⟨steps, nodes, rfl, depicts, dag, fun _ => Or.inl,
        fun _ _ _ _ _ _ _ => Iff.rfl⟩
  | cons action rest inductionHypothesis =>
      obtain ⟨here, later⟩ := fresh
      obtain ⟨changed, next, stepped, depictsNext, nextDag, origin,
          order⟩ :=
        applyStep_edits inherited depicts dag
          (splices action List.mem_cons_self) here
      rw [stepped] at later
      obtain ⟨final, last, ran, depictsLast, lastDag, lastOrigin,
          lastOrder⟩ :=
        inductionHypothesis depictsNext nextDag
          (fun other member =>
            splices other (List.mem_cons_of_mem _ member)) later
      refine ⟨final, last, ?_, depictsLast, lastDag, ?_, ?_⟩
      · rw [run_cons, stepped, ran]
      · intro id member
        rcases lastOrigin id member with inNext | ⟨other, among, inserts⟩
        · rcases origin id inNext with old | inserts
          · exact Or.inl old
          · exact Or.inr ⟨action, List.mem_cons_self, inserts⟩
        · exact Or.inr
            ⟨other, List.mem_cons_of_mem _ among, inserts⟩
      · intro before isBefore after isAfter beforeStays afterStays
          notInserted
        -- What is in the result and was not put there by a later action
        -- is in the list after this one.
        have stays : ∀ {id}, id ∈ Dag.ids last →
            (∀ other ∈ action :: rest, ¬ Inserts other id) →
            id ∈ Dag.ids next := by
          intro id inLast never
          rcases lastOrigin id inLast with inNext | ⟨other, among, does⟩
          · exact inNext
          · exact absurd does (never other
              (List.mem_cons_of_mem _ among))
        have beforeNext := stays beforeStays fun other among =>
          (notInserted other among).1
        have afterNext := stays afterStays fun other among =>
          (notInserted other among).2
        rw [lastOrder before beforeNext after afterNext beforeStays
          afterStays fun other among =>
            notInserted other (List.mem_cons_of_mem _ among)]
        exact order before isBefore after isAfter beforeNext afterNext

variable (floats : FloatOrder) (template : BusinessTemplate)

/-- The engine returns when the conditions can be evaluated and the actions
go through. -/
theorem applyRules_of_run
    {rules matched : List MutationRule} {steps final : List StepObject}
    (matching : matchingRules floats template rules = .ok matched)
    (ran : run (applyStep inherited) (.ok steps)
      (matched.flatMap MutationRule.actions) = .ok final) :
    applyRules inherited floats template rules steps =
      .ok (final, matched.map MutationRule.ruleId) := by
  induction rules generalizing steps matched with
  | nil =>
      obtain rfl := Except.ok.inj matching
      rw [applyRules, ← Except.ok.inj ran]
      rfl
  | cons rule rest inductionHypothesis =>
      rw [matchingRules, bind_eq_ok] at matching
      obtain ⟨holds, evaluated, matching⟩ := matching
      rw [bind_eq_ok] at matching
      obtain ⟨later, matchingLater, matching⟩ := matching
      rw [applyRules, bind_ok evaluated]
      cases holds with
      | false =>
          obtain rfl := Except.ok.inj matching
          exact inductionHypothesis matchingLater ran
      | true =>
          obtain rfl := Except.ok.inj matching
          rw [if_pos rfl, List.flatMap_cons, run_append] at ran
          obtain ⟨changed, ranHere⟩ := ok_of_run inherited ran
          rw [ranHere] at ran
          rw [if_pos rfl, bind_ok ranHere,
            bind_ok (inductionHypothesis matchingLater ran)]
          rfl

end Runs

/-- A step names the other one as its dependency. -/
def Needs (steps : List StepObject) (dependency stepId : String) : Prop :=
  ∃ step ∈ steps, step.stepId = .str stepId ∧
    ∃ items, step.dependencies = .list items ∧ .str dependency ∈ items

/-- One step reaches the other through dependencies. -/
def Reaches (steps : List StepObject) : String → String → Prop :=
  Relation.TransGen (Needs steps)

/-- The step is there at the start and in the end, and was not inserted in
between. -/
structure Survives
    (start : List StepObject) (actions : List MutationAction)
    (final : List StepObject) (stepId : String) : Prop where
  original : Present stepId start
  remains : Present stepId final
  notInserted : ∀ action ∈ actions, ¬ Inserts action stepId

theorem needs_eq
    {steps : List StepObject} {nodes : List (Dag.Node String)}
    (depicts : DepictsAll steps nodes) :
    Needs steps = Dag.DependsOn nodes := by
  funext dependency stepId
  apply propext
  induction depicts with
  | nil =>
      simp [Needs, Dag.DependsOn]
  | @cons step node _ _ here _ inductionHypothesis =>
      have sameStep :
          (step.stepId = .str stepId ∧ ∃ items,
              step.dependencies = .list items ∧
                .str dependency ∈ items) ↔
            node.id = stepId ∧ dependency ∈ node.dependencies := by
        rw [here.stepId_eq, here.dependencies_eq, Json.str.injEq]
        refine and_congr_right fun _ => ?_
        constructor
        · rintro ⟨items, same, among⟩
          rw [← Json.list.inj same] at among
          obtain ⟨text, inTexts, isText⟩ := List.mem_map.mp among
          rw [← Json.str.inj isText]
          exact inTexts
        · intro among
          exact ⟨_, rfl, List.mem_map.mpr ⟨dependency, among, rfl⟩⟩
      unfold Needs Dag.DependsOn at inductionHypothesis ⊢
      rw [List.exists_mem_cons_iff, List.exists_mem_cons_iff, sameStep,
        inductionHypothesis]

theorem mutations_keep_order
    (inherited : String → Bool) (floats : FloatOrder)
    (template : BusinessTemplate)
    {skeleton : TopologySkeleton} (dag : skeleton.IsDag)
    {matched : List MutationRule}
    (matching : matchingRules floats template
      (byPriority skeleton.mutationRules) = .ok matched)
    (splices : ∀ action ∈ matched.flatMap MutationRule.actions,
      Splices action)
    (fresh : EveryStep (applyStep inherited) InsertsFresh
      (.ok (skeleton.steps.map SkeletonStep.toObject))
      (matched.flatMap MutationRule.actions)) :
    ∃ final applied,
      applyMutations inherited floats template skeleton =
          .ok (final, applied) ∧
        ∀ first second,
          Survives (skeleton.steps.map SkeletonStep.toObject)
            (matched.flatMap MutationRule.actions) final first →
          Survives (skeleton.steps.map SkeletonStep.toObject)
            (matched.flatMap MutationRule.actions) final second →
          (Reaches final first second ↔
            Reaches (skeleton.steps.map SkeletonStep.toObject)
              first second) := by
  obtain ⟨nodes, depicts, isDag⟩ := validSteps_of_isDag dag
  obtain ⟨final, last, ran, depictsLast, _, _, order⟩ :=
    run_edits inherited depicts isDag splices fresh
  refine ⟨final, _,
    applyRules_of_run inherited floats template matching ran, ?_⟩
  intro first second isFirst isSecond
  unfold Reaches
  rw [needs_eq depicts, needs_eq depictsLast]
  apply order
  · exact (present_iff_of_depicts depicts first).mp isFirst.original
  · exact (present_iff_of_depicts depicts second).mp isSecond.original
  · exact (present_iff_of_depicts depictsLast first).mp isFirst.remains
  · exact (present_iff_of_depicts depictsLast second).mp isSecond.remains
  · intro action among
    exact ⟨isFirst.notInserted action among,
      isSecond.notInserted action among⟩

def reviewStep : SkeletonStep where
  stepId := "review"
  role := "review"
  name := "Review"
  dependencies := ["intake"]

/-- The intake, the review and the notification, one after the other. -/
def reviewedSteps : List SkeletonStep :=
  [intakeStep, reviewStep, { notifyStep with dependencies := ["review"] }]

/-- A rule that puts the verification before the notification and removes
the review. -/
def verifyInsteadOfReview : MutationRule :=
  { verifyBeforeNotify with
    actions :=
      [{ actionType := .insertBefore
         targetStepId := "notify"
         step := some verifyStep },
       { actionType := .remove
         targetStepId := "review" }] }

def reviewedSkeleton : TopologySkeleton :=
  { intakeSkeleton [verifyInsteadOfReview] with steps := reviewedSteps }

theorem reviewedSkeleton_isDag : reviewedSkeleton.IsDag := by
  have nodes : Dag.IsDag
      ([⟨"intake", []⟩, ⟨"review", ["intake"]⟩, ⟨"notify", ["review"]⟩] :
        List (Dag.Node String)) :=
    Dag.IsDag.of_ranked
      (fun id => if id = "notify" then 2 else if id = "review" then 1 else 0)
      (by decide) (by decide) (by unfold Dag.Ranked; decide)
  exact nodes

/-- The notification still comes after the intake once the review between
them is gone and the verification is there. -/
theorem spliced_review_keeps_order :
    ∃ final applied,
      applyMutations (fun _ => false) comparedInts plainTemplate
          reviewedSkeleton = .ok (final, applied) ∧
        ∀ first second,
          Survives (reviewedSteps.map SkeletonStep.toObject)
            verifyInsteadOfReview.actions final first →
          Survives (reviewedSteps.map SkeletonStep.toObject)
            verifyInsteadOfReview.actions final second →
          (Reaches final first second ↔
            Reaches (reviewedSteps.map SkeletonStep.toObject)
              first second) := by
  have matching : matchingRules comparedInts plainTemplate
      (byPriority reviewedSkeleton.mutationRules) =
        .ok [verifyInsteadOfReview] :=
    rfl
  have start : DepictsAll (reviewedSteps.map SkeletonStep.toObject)
      (reviewedSteps.map SkeletonStep.node) :=
    .cons (depicts_toObject _)
      (.cons (depicts_toObject _) (.cons (depicts_toObject _) .nil))
  refine mutations_keep_order (fun _ => false) comparedInts plainTemplate
    reviewedSkeleton_isDag matching ?_ ⟨?_, ?_, trivial⟩
  · intro action member
    rcases List.mem_cons.mp member with rfl | later
    · refine ⟨by decide, ?_⟩
      intro newStep inserts
      obtain rfl := Option.some.inj inserts
      rfl
    · obtain rfl := List.mem_singleton.mp later
      exact ⟨by decide, fun _ inserts => by cases inserts⟩
  · intro newStep inserts
    obtain rfl := Option.some.inj inserts
    show ¬ Present "verify" (reviewedSteps.map SkeletonStep.toObject)
    rw [present_iff_of_depicts start]
    decide
  · intro newStep inserts
    cases inserts

end Agentcy.Topology
