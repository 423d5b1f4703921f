import Agentcy.Topology.Mutation

/-!
# Steps and the nodes they stand for

A list of step objects stands for a list of nodes when their identifiers and
dependencies have the right types.  The actions of the engine on such steps
are edits of the nodes.
-/

namespace Agentcy.Topology

open Agentcy.Library

/-- The step has a string as its identifier and a list of strings as its
dependencies, those of the node. -/
structure Depicts (step : StepObject) (node : Dag.Node String) : Prop where
  stepId_eq : step.stepId = .str node.id
  dependencies_eq :
    step.dependencies = .list (node.dependencies.map Json.str)

abbrev DepictsAll (steps : List StepObject)
    (nodes : List (Dag.Node String)) : Prop :=
  List.Forall₂ Depicts steps nodes

theorem map_str_inj {texts others : List String}
    (same : texts.map Json.str = others.map Json.str) : texts = others :=
  List.map_injective_iff.mpr (fun _ _ equal => Json.str.inj equal) same

theorem Depicts.unique
    {step : StepObject} {node other : Dag.Node String}
    (depicts : Depicts step node) (again : Depicts step other) :
    node = other := by
  have sameId : Json.str node.id = .str other.id :=
    depicts.stepId_eq.symm.trans again.stepId_eq
  have sameList : Json.list (node.dependencies.map Json.str) =
      .list (other.dependencies.map Json.str) :=
    depicts.dependencies_eq.symm.trans again.dependencies_eq
  exact Dag.Node.ext (Json.str.inj sameId)
    (map_str_inj (Json.list.inj sameList))

theorem DepictsAll.unique
    {steps : List StepObject} {nodes others : List (Dag.Node String)}
    (depicts : DepictsAll steps nodes) (again : DepictsAll steps others) :
    nodes = others := by
  induction depicts generalizing others with
  | nil =>
      cases again
      rfl
  | cons here _ inductionHypothesis =>
      cases again with
      | cons hereAgain laterAgain =>
          rw [here.unique hereAgain, inductionHypothesis laterAgain]

theorem depicts_toObject (step : SkeletonStep) :
    Depicts step.toObject step.node :=
  ⟨rfl, rfl⟩

theorem Depicts.setDependencies
    {step : StepObject} {node : Dag.Node String}
    (depicts : Depicts step node) (dependencies : List String) :
    Depicts (step.setDependencies (dependencies.map Json.str))
      ⟨node.id, dependencies⟩ := by
  constructor
  · rw [← depicts.stepId_eq]
    exact Fields.get_set_other _ _ (by decide)
  · exact Fields.get_set_self _ _ _

theorem pyEq_str (first second : String) :
    (Json.str first).pyEq (.str second) = decide (first = second) := by
  simp [Json.pyEq, Json.key?, eq_comm]

theorem Depicts.stepId_pyEq
    {step : StepObject} {node : Dag.Node String}
    (depicts : Depicts step node) (tested : String) :
    step.stepId.pyEq (.str tested) = decide (node.id = tested) := by
  rw [depicts.stepId_eq, pyEq_str]

theorem Depicts.contains
    {step : StepObject} {node : Dag.Node String}
    (depicts : Depicts step node) (tested : String) :
    Topology.contains tested step.dependencies =
      .ok (decide (tested ∈ node.dependencies)) := by
  rw [depicts.dependencies_eq, Topology.contains, Except.ok.injEq]
  induction node.dependencies with
  | nil =>
      rfl
  | cons dependency rest inductionHypothesis =>
      rw [List.map_cons, List.any_cons, inductionHypothesis, pyEq_str]
      by_cases same : dependency = tested
      · simp [same]
      · simp [same, Ne.symm same]

theorem Depicts.iterate
    {step : StepObject} {node : Dag.Node String}
    (depicts : Depicts step node) :
    step.dependencies.iterate = .ok (node.dependencies.map Json.str) := by
  rw [depicts.dependencies_eq]
  rfl

theorem forall₂_insertIdx
    {steps : List StepObject} {nodes : List (Dag.Node String)}
    (depicts : DepictsAll steps nodes) {step : StepObject}
    {node : Dag.Node String} (new : Depicts step node) (index : Nat) :
    DepictsAll (steps.insertIdx index step)
      (nodes.insertIdx index node) := by
  induction depicts generalizing index with
  | nil =>
      cases index with
      | zero => exact .cons new .nil
      | succ _ => exact .nil
  | cons here later inductionHypothesis =>
      cases index with
      | zero => exact .cons new (.cons here later)
      | succ index => exact .cons here (inductionHypothesis index)

theorem forall₂_modify
    {steps : List StepObject} {nodes : List (Dag.Node String)}
    (depicts : DepictsAll steps nodes)
    {change : StepObject → StepObject}
    {changed : Dag.Node String → Dag.Node String}
    (changes : ∀ step node, Depicts step node →
      Depicts (change step) (changed node)) (index : Nat) :
    DepictsAll (steps.modify index change)
      (nodes.modify index changed) := by
  induction depicts generalizing index with
  | nil =>
      cases index with
      | zero => exact .nil
      | succ _ => exact .nil
  | cons here later inductionHypothesis =>
      cases index with
      | zero => exact .cons (changes _ _ here) later
      | succ index => exact .cons here (inductionHypothesis index)

theorem forall₂_eraseIdx
    {steps : List StepObject} {nodes : List (Dag.Node String)}
    (depicts : DepictsAll steps nodes) (index : Nat) :
    DepictsAll (steps.eraseIdx index) (nodes.eraseIdx index) := by
  induction depicts generalizing index with
  | nil =>
      exact .nil
  | cons here later inductionHypothesis =>
      cases index with
      | zero => exact later
      | succ index => exact .cons here (inductionHypothesis index)

theorem forall₂_mapM
    {steps : List StepObject} {nodes : List (Dag.Node String)}
    (depicts : DepictsAll steps nodes)
    {change : StepObject → Except PyError StepObject}
    {changed : Dag.Node String → Dag.Node String}
    (changes : ∀ step node, Depicts step node →
      ∃ result, change step = .ok result ∧
        Depicts result (changed node)) :
    ∃ results, steps.mapM change = .ok results ∧
      DepictsAll results (nodes.map changed) := by
  induction depicts with
  | nil =>
      exact ⟨[], rfl, .nil⟩
  | cons here _ inductionHypothesis =>
      obtain ⟨result, changedHere, depictsHere⟩ := changes _ _ here
      obtain ⟨later, changedLater, depictsLater⟩ := inductionHypothesis
      refine ⟨result :: later, ?_, .cons depictsHere depictsLater⟩
      rw [List.mapM_cons, changedHere, changedLater]
      rfl

theorem findStepIndex_eq
    {steps : List StepObject} {nodes : List (Dag.Node String)}
    (depicts : DepictsAll steps nodes) (stepId : String) :
    findStepIndex steps stepId =
      nodes.findIdx? fun node => decide (node.id = stepId) := by
  rw [findStepIndex]
  induction depicts with
  | nil =>
      rfl
  | cons here _ inductionHypothesis =>
      rw [List.findIdx?_cons, List.findIdx?_cons, inductionHypothesis,
        here.stepId_pyEq]

theorem forall₂_getElem?
    {steps : List StepObject} {nodes : List (Dag.Node String)}
    (depicts : DepictsAll steps nodes) {index : Nat}
    {node : Dag.Node String} (found : nodes[index]? = some node) :
    ∃ step, steps[index]? = some step ∧ Depicts step node := by
  induction depicts generalizing index with
  | nil =>
      cases found
  | cons here _ inductionHypothesis =>
      cases index with
      | zero =>
          cases found
          exact ⟨_, rfl, here⟩
      | succ index =>
          exact inductionHypothesis found

theorem rewireDependent_depicts
    {step : StepObject} {node : Dag.Node String}
    (depicts : Depicts step node) (targetId newId : String) :
    ∃ result, rewireDependent targetId newId step = .ok result ∧
      Depicts result (if node.id = newId then node
        else node.redirect targetId newId) := by
  unfold rewireDependent
  rw [depicts.stepId_pyEq, depicts.contains, depicts.iterate]
  by_cases isNew : node.id = newId
  · rw [if_pos isNew, if_pos (decide_eq_true isNew)]
    exact ⟨step, rfl, depicts⟩
  · rw [if_neg isNew, if_neg (by simpa using isNew)]
    have redirected : (node.dependencies.map Json.str).map
        (fun dependency => if dependency.pyEq (.str targetId) then
          Json.str newId else dependency) =
        (node.redirect targetId newId).dependencies.map Json.str := by
      rw [Dag.Node.redirect, List.map_map, List.map_map]
      apply List.map_congr_left
      intro dependency _
      dsimp only [Function.comp]
      rw [pyEq_str]
      by_cases same : dependency = targetId
      · simp [same]
      · simp [same]
    by_cases named : targetId ∈ node.dependencies
    · rw [decide_eq_true named]
      refine ⟨_, rfl, ?_⟩
      rw [redirected]
      exact depicts.setDependencies _
    · rw [decide_eq_false named]
      refine ⟨step, rfl, ?_⟩
      rw [Dag.redirect_of_not_mem named]
      exact depicts

theorem distinctItems_strings (texts : List String) :
    Json.distinctItems (texts.map Json.str) =
      .ok ((Dag.keepFirst texts).map fun text =>
        (Json.Key.str text, Json.str text)) := by
  induction texts with
  | nil =>
      rfl
  | cons text rest inductionHypothesis =>
      rw [List.map_cons, Json.distinctItems, inductionHypothesis,
        Dag.keepFirst, List.map_cons]
      have kept : ((Dag.keepFirst rest).map fun text =>
            (Json.Key.str text, Json.str text)).filter
              (fun other => decide (other.1 ≠ Json.Key.str text)) =
          ((Dag.keepFirst rest).filter fun other =>
            decide (other ≠ text)).map fun text =>
              (Json.Key.str text, Json.str text) := by
        rw [List.filter_map]
        congr 1
        apply List.filter_congr
        intro other _
        simp
      rw [← kept]
      rfl

theorem rewireRemoved_depicts
    {step : StepObject} {node : Dag.Node String}
    (depicts : Depicts step node) (targetId : String)
    (removedDeps : List String) :
    ∃ result,
      rewireRemoved targetId (removedDeps.map Json.str) step =
        .ok result ∧
      Depicts result (node.bypass targetId removedDeps) := by
  unfold rewireRemoved
  rw [Dag.Node.bypass]
  have containsTarget := depicts.contains targetId
  by_cases named : targetId ∈ node.dependencies
  · rw [if_pos named]
    have filtered : (node.dependencies.map Json.str).filter
        (fun dependency => !dependency.pyEq (.str targetId)) =
        (node.dependencies.filter fun dependency =>
          decide (dependency ≠ targetId)).map Json.str := by
      rw [List.filter_map]
      congr 1
      apply List.filter_congr
      intro dependency _
      dsimp only [Function.comp]
      rw [pyEq_str]
      simp
    have distinct := distinctItems_strings
      ((node.dependencies.filter fun dependency =>
        decide (dependency ≠ targetId)) ++ removedDeps)
    rw [List.map_append, ← filtered] at distinct
    have results := depicts.setDependencies (Dag.keepFirst
      ((node.dependencies.filter fun dependency =>
        decide (dependency ≠ targetId)) ++ removedDeps))
    refine ⟨_, bind_eq_ok.mpr ⟨_, containsTarget, ?_⟩, results⟩
    rw [if_pos (decide_eq_true named)]
    refine bind_eq_ok.mpr ⟨_, depicts.iterate,
      bind_eq_ok.mpr ⟨_, distinct, ?_⟩⟩
    rw [List.map_map]
    rfl
  · rw [if_neg named]
    refine ⟨step, bind_eq_ok.mpr ⟨_, containsTarget, ?_⟩, depicts⟩
    rw [if_neg (by simpa using named)]
    rfl

/-! ## The actions on nodes -/

section Cut

variable {front back : List (Dag.Node String)} {old : Dag.Node String}

/-- The node that the search finds splits the list. -/
theorem cut_of_found
    {nodes : List (Dag.Node String)} {targetId : String} {index : Nat}
    (found : nodes.findIdx? (fun node => decide (node.id = targetId)) =
        some index) :
    ∃ front old back, nodes = front ++ old :: back ∧
      front.length = index ∧ old.id = targetId ∧
      ∀ node ∈ front, node.id ≠ targetId := by
  induction nodes generalizing index with
  | nil =>
      cases found
  | cons first rest inductionHypothesis =>
      rw [List.findIdx?_cons] at found
      by_cases here : first.id = targetId
      · rw [if_pos (decide_eq_true here)] at found
        refine ⟨[], first, rest, rfl, Option.some.inj found, here, ?_⟩
        simp
      · rw [if_neg (by simpa using here)] at found
        rcases Option.map_eq_some_iff.mp found with ⟨later, inRest, same⟩
        obtain ⟨front, old, back, cut, length, isTarget, others⟩ :=
          inductionHypothesis inRest
        refine ⟨first :: front, old, back, ?_, ?_, isTarget, ?_⟩
        · rw [cut]
          rfl
        · rw [List.length_cons, length, same]
        · intro node member
          rcases List.mem_cons.mp member with isFirst | inFront
          · rw [isFirst]
            exact here
          · exact others node inFront

theorem findIdx?_cut
    {targetId : String} (others : ∀ node ∈ front, node.id ≠ targetId)
    (isTarget : old.id = targetId) :
    (front ++ old :: back).findIdx?
      (fun node => decide (node.id = targetId)) = some front.length := by
  induction front with
  | nil =>
      rw [List.nil_append, List.findIdx?_cons,
        if_pos (decide_eq_true isTarget)]
      rfl
  | cons first front inductionHypothesis =>
      have here := others first List.mem_cons_self
      rw [List.cons_append, List.findIdx?_cons, if_neg (by simpa using here),
        inductionHypothesis fun node member =>
          others node (List.mem_cons_of_mem _ member)]
      rfl

theorem others_of_distinct
    (distinct : (Dag.ids (front ++ old :: back)).Nodup) :
    ∀ node ∈ front ++ back, node.id ≠ old.id := by
  rw [Dag.ids, List.map_append, List.map_cons, List.nodup_middle,
    ← List.map_append] at distinct
  intro node member same
  have absent := (List.nodup_cons.mp distinct).1
  rw [← same] at absent
  exact absent (List.mem_map.mpr ⟨node, member, rfl⟩)

theorem map_of_fixed
    {nodes : List (Dag.Node String)}
    {change : Dag.Node String → Dag.Node String}
    (fixed : ∀ node ∈ nodes, change node = node) :
    nodes.map change = nodes :=
  (List.map_congr_left fixed).trans (List.map_id nodes)

theorem map_cut
    {change : Dag.Node String → Dag.Node String}
    (fixed : ∀ node ∈ front ++ back, change node = node) :
    (front ++ old :: back).map change = front ++ change old :: back := by
  rw [List.map_append, List.map_cons,
    map_of_fixed fun node member =>
      fixed node (List.mem_append_left back member),
    map_of_fixed fun node member =>
      fixed node (List.mem_append_right front member)]

theorem insertIdx_cut (new : Dag.Node String)
    (rest : List (Dag.Node String)) :
    (front ++ rest).insertIdx front.length new = front ++ new :: rest := by
  induction front with
  | nil =>
      cases rest <;> rfl
  | cons first front inductionHypothesis =>
      simpa using inductionHypothesis

theorem modify_cut (change : Dag.Node String → Dag.Node String) :
    (front ++ old :: back).modify front.length change =
      front ++ change old :: back := by
  induction front with
  | nil =>
      rfl
  | cons first front inductionHypothesis =>
      simpa using inductionHypothesis

theorem eraseIdx_cut :
    (front ++ old :: back).eraseIdx front.length = front ++ back := by
  induction front with
  | nil =>
      rfl
  | cons first front inductionHypothesis =>
      simpa using inductionHypothesis

end Cut

/-- The steps stand for a DAG. -/
def ValidSteps (steps : List StepObject) : Prop :=
  ∃ nodes, DepictsAll steps nodes ∧ Dag.IsDag nodes

/-- Steps that are returned stand for a DAG. -/
def ResultValid {ε : Type} (result : Except ε (List StepObject)) : Prop :=
  ∀ steps, result = .ok steps → ValidSteps steps

/-- The action returns steps that stand for the nodes. -/
def Leaves (result : Except PyError (List StepObject))
    (nodes : List (Dag.Node String)) : Prop :=
  ∃ steps, result = .ok steps ∧ DepictsAll steps nodes

theorem Leaves.valid_iff
    {result : Except PyError (List StepObject)}
    {nodes : List (Dag.Node String)} (leaves : Leaves result nodes) :
    ResultValid result ↔ Dag.IsDag nodes := by
  rcases leaves with ⟨steps, same, depicts⟩
  constructor
  · intro valid
    rcases valid steps same with ⟨others, depictsOthers, dag⟩
    rw [depicts.unique depictsOthers]
    exact dag
  · intro dag found isResult
    rw [same] at isResult
    rw [← Except.ok.inj isResult]
    exact ⟨nodes, depicts, dag⟩

theorem depicts_linked (targetId : String) (newStep : SkeletonStep) :
    Depicts
      (if targetId ∈ newStep.dependencies then newStep
        else { newStep with
          dependencies :=
            newStep.dependencies ++ [targetId] }).toObject
      (newStep.node.following targetId) := by
  by_cases already : targetId ∈ newStep.dependencies
  · have same : newStep.node.following targetId = newStep.node :=
      Dag.Node.ext rfl (if_pos already)
    rw [if_pos already, same]
    exact depicts_toObject newStep
  · have same : newStep.node.following targetId =
        ⟨newStep.stepId, newStep.dependencies ++ [targetId]⟩ :=
      Dag.Node.ext rfl (if_neg already)
    rw [if_neg already, same]
    exact depicts_toObject _

section Leaving

variable
  {steps : List StepObject} {nodes : List (Dag.Node String)}
  {index : Nat} {targetId : String}

theorem insertStepAfter_leaves
    (depicts : DepictsAll steps nodes) (inside : index < nodes.length)
    (targetId : String) (newStep : SkeletonStep) :
    ∃ final, Leaves (insertStepAfter steps index targetId newStep) final ∧
      final.Perm (newStep.node.following targetId ::
        nodes.map fun node => if node.id = newStep.stepId then node
          else node.redirect targetId newStep.stepId) := by
  have inserted :=
    forall₂_insertIdx depicts (depicts_linked targetId newStep)
      (index + 1)
  obtain ⟨results, rewired, depictsResults⟩ :=
    forall₂_mapM inserted fun step node depicted =>
      rewireDependent_depicts depicted targetId newStep.stepId
  refine ⟨_, ⟨results, rewired, depictsResults⟩, ?_⟩
  have permuted := (List.perm_insertIdx
    (newStep.node.following targetId) nodes
    (i := index + 1) (by omega)).map fun node =>
      if node.id = newStep.stepId then node
        else node.redirect targetId newStep.stepId
  have keeps : (newStep.node.following targetId).id = newStep.stepId := rfl
  rw [List.map_cons, if_pos keeps] at permuted
  exact permuted

theorem insertStepBefore_leaves
    (depicts : DepictsAll steps nodes) (newStep : SkeletonStep)
    {foundIdx : Nat} {found : Dag.Node String}
    (isFound : (nodes.insertIdx index newStep.node).findIdx?
      (fun node => decide (node.id = targetId)) = some foundIdx)
    (isAt : (nodes.insertIdx index newStep.node)[foundIdx]? =
      some found) :
    Leaves (insertStepBefore steps index targetId newStep)
      (((nodes.insertIdx index newStep.node).modify index
          fun node => ⟨node.id, found.dependencies⟩).modify foundIdx
        fun node => ⟨node.id, [newStep.stepId]⟩) := by
  have inserted :=
    forall₂_insertIdx depicts (depicts_toObject newStep) index
  obtain ⟨targetStep, isTarget, depictsTarget⟩ :=
    forall₂_getElem? inserted isAt
  have inherited := forall₂_modify inserted
    (fun step node depicted =>
      Depicts.setDependencies depicted found.dependencies) index
  have final := forall₂_modify inherited
    (fun step node depicted =>
      Depicts.setDependencies depicted [newStep.stepId]) foundIdx
  refine ⟨_, ?_, final⟩
  rw [insertStepBefore, findStepIndex_eq inserted, isFound]
  dsimp only
  rw [isTarget]
  dsimp only
  rw [bind_eq_ok]
  exact ⟨_, depictsTarget.iterate, rfl⟩

theorem removeStep_leaves
    (depicts : DepictsAll steps nodes) (targetId : String)
    {old : Dag.Node String} (isAt : nodes[index]? = some old) :
    Leaves (removeStep steps index targetId)
      ((nodes.map (Dag.Node.bypass targetId old.dependencies)).eraseIdx
        index) := by
  obtain ⟨removed, isRemoved, depictsRemoved⟩ :=
    forall₂_getElem? depicts isAt
  obtain ⟨rewired, mapped, depictsRewired⟩ :=
    forall₂_mapM depicts fun step node depicted =>
      rewireRemoved_depicts depicted targetId old.dependencies
  refine ⟨_, ?_, forall₂_eraseIdx depictsRewired index⟩
  rw [removeStep, isRemoved]
  dsimp only
  rw [bind_eq_ok]
  refine ⟨_, depictsRemoved.iterate, ?_⟩
  rw [bind_eq_ok]
  exact ⟨rewired, mapped, rfl⟩

end Leaving

end Agentcy.Topology
