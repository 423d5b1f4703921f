import Agentcy.Topology.StepNodes

/-!
# Which mutations keep the DAG

A removal always keeps the steps a DAG.  The other actions keep it under
conditions on the action and the steps before it, which the engine does not
check.
-/

namespace Agentcy.Topology

open Agentcy.Library

theorem ids_modify
    (nodes : List (Dag.Node String)) (index : Nat)
    (dependencies : List String) :
    Dag.ids (nodes.modify index fun node => ⟨node.id, dependencies⟩) =
      Dag.ids nodes := by
  induction nodes generalizing index with
  | nil =>
      cases index <;> rfl
  | cons node rest inductionHypothesis =>
      cases index with
      | zero => rfl
      | succ index =>
          rw [List.modify_succ_cons]
          exact congrArg (node.id :: ·) (inductionHypothesis index)

theorem ids_insertIdx_perm
    {nodes : List (Dag.Node String)} {index : Nat}
    (inside : index ≤ nodes.length) (new : Dag.Node String) :
    (Dag.ids (nodes.insertIdx index new)).Perm
      (new.id :: Dag.ids nodes) :=
  (List.perm_insertIdx new nodes inside).map Dag.Node.id

theorem not_dag_of_repeated
    {nodes : List (Dag.Node String)} {ids : List String} {id : String}
    (permuted : (Dag.ids nodes).Perm (id :: ids)) (repeated : id ∈ ids) :
    ¬ Dag.IsDag nodes := by
  intro dag
  have distinct := permuted.nodup_iff.mp dag.distinct
  exact (List.nodup_cons.mp distinct).1 repeated

section Exact

variable
  {steps : List StepObject} {nodes : List (Dag.Node String)}
  {index : Nat} {targetId : String}

/-- A new step put after its target is a node put after another one. -/
theorem insertStepAfter_edits
    (depicts : DepictsAll steps nodes) (inside : index < nodes.length)
    (targetId : String) {newStep : SkeletonStep}
    (fresh : newStep.stepId ∉ Dag.ids nodes) :
    ∃ final, Leaves (insertStepAfter steps index targetId newStep) final ∧
      final.Perm (Dag.insertAfter nodes targetId newStep.node) := by
  obtain ⟨final, leaves, permuted⟩ :=
    insertStepAfter_leaves depicts inside targetId newStep
  refine ⟨final, leaves, ?_⟩
  have redirected : (nodes.map fun node =>
      if node.id = newStep.stepId then node
        else node.redirect targetId newStep.stepId) =
      nodes.map (Dag.Node.redirect targetId newStep.stepId) := by
    apply List.map_congr_left
    intro node member
    apply if_neg
    intro same
    rw [← same] at fresh
    exact fresh (Dag.id_mem member)
  rw [redirected] at permuted
  exact permuted

theorem insertStepAfter_valid_iff
    (depicts : DepictsAll steps nodes) (dag : Dag.IsDag nodes)
    (inside : index < nodes.length) (present : targetId ∈ Dag.ids nodes)
    (newStep : SkeletonStep) :
    ResultValid (insertStepAfter steps index targetId newStep) ↔
      newStep.stepId ∉ Dag.ids nodes ∧
        ∀ dependency ∈ newStep.dependencies,
          dependency ∈ Dag.ids nodes ∧ ¬ Relation.TransGen
            (Dag.DependsOn nodes) targetId dependency := by
  by_cases fresh : newStep.stepId ∉ Dag.ids nodes
  · obtain ⟨final, leaves, permuted⟩ :=
      insertStepAfter_edits depicts inside targetId fresh
    rw [leaves.valid_iff, Dag.isDag_perm_iff permuted]
    exact Dag.isDag_insertAfter_iff dag present newStep.node
  · obtain ⟨final, leaves, permuted⟩ :=
      insertStepAfter_leaves depicts inside targetId newStep
    rw [leaves.valid_iff]
    have repeated : newStep.stepId ∈ Dag.ids nodes :=
      not_not.mp fresh
    have sameIds : (nodes.map fun node =>
        if node.id = newStep.stepId then node
          else node.redirect targetId newStep.stepId).map Dag.Node.id =
        Dag.ids nodes := by
      rw [List.map_map]
      apply List.map_congr_left
      intro node _
      dsimp only [Function.comp]
      split <;> rfl
    have permutedIds := permuted.map Dag.Node.id
    rw [List.map_cons, sameIds] at permutedIds
    have notDag := not_dag_of_repeated permutedIds repeated
    exact ⟨fun isDag => absurd isDag notDag,
      fun allowed => absurd repeated allowed.1⟩

/-- A new step put before its target is a node put before another one. -/
theorem insertStepBefore_edits
    (depicts : DepictsAll steps nodes) (distinct : (Dag.ids nodes).Nodup)
    (found : nodes.findIdx? (fun node => decide (node.id = targetId)) =
      some index) {newStep : SkeletonStep}
    (fresh : newStep.stepId ∉ Dag.ids nodes) :
    ∃ final, Leaves (insertStepBefore steps index targetId newStep) final ∧
      final.Perm (Dag.insertBefore nodes targetId newStep.node) := by
  obtain ⟨front, old, back, cut, length, isTarget, inFront⟩ :=
    cut_of_found found
  have isOld : old ∈ nodes := by
    rw [cut]
    exact List.mem_append_right front List.mem_cons_self
  have inserted : nodes.insertIdx index newStep.node =
      front ++ newStep.node :: old :: back := by
    rw [cut, ← length, insertIdx_cut]
  have insertedBehind : nodes.insertIdx index newStep.node =
      (front ++ [newStep.node]) ++ old :: back := by
    rw [inserted, List.append_assoc]
    rfl
  have isOther : newStep.stepId ≠ targetId := by
    intro same
    rw [same, ← isTarget] at fresh
    exact fresh (Dag.id_mem isOld)
  have foundAgain : (nodes.insertIdx index newStep.node).findIdx?
      (fun node => decide (node.id = targetId)) =
        some (front ++ [newStep.node]).length := by
    rw [insertedBehind]
    refine findIdx?_cut ?_ isTarget
    intro node member
    rcases List.mem_append.mp member with among | isNew
    · exact inFront node among
    · rw [List.mem_singleton.mp isNew]
      exact isOther
  have isAt : (nodes.insertIdx index newStep.node)[
      (front ++ [newStep.node]).length]? = some old := by
    rw [insertedBehind, List.getElem?_append_right (le_refl _)]
    simp
  have leaves := insertStepBefore_leaves depicts newStep foundAgain isAt
  have rewired : (((nodes.insertIdx index newStep.node).modify index
        fun node => ⟨node.id, old.dependencies⟩).modify
          (front ++ [newStep.node]).length
      fun node => ⟨node.id, [newStep.stepId]⟩) =
      front ++ ⟨newStep.stepId, old.dependencies⟩ ::
        ⟨old.id, [newStep.stepId]⟩ :: back := by
    rw [inserted, ← length, modify_cut]
    let new : Dag.Node String := ⟨newStep.stepId, old.dependencies⟩
    have moved : ((front ++ [new]) ++ old :: back).modify
        (front ++ [new]).length
          (fun node => ⟨node.id, [newStep.stepId]⟩) =
        (front ++ [new]) ++ ⟨old.id, [newStep.stepId]⟩ :: back :=
      modify_cut _
    rw [List.length_append, List.length_singleton] at moved ⊢
    rw [List.append_assoc, List.append_assoc] at moved
    exact moved
  have inherits :
      Dag.dependenciesOf nodes targetId = old.dependencies := by
    rw [← isTarget]
    exact Dag.dependenciesOf_eq distinct isOld
  have assigned : nodes.map
      (Dag.Node.assign targetId [newStep.node.id]) =
      front ++ ⟨old.id, [newStep.stepId]⟩ :: back := by
    rw [cut] at distinct
    have fixed : ∀ node ∈ front ++ back,
        node.assign targetId [newStep.node.id] = node := by
      intro node member
      have isNot := others_of_distinct distinct node member
      rw [isTarget] at isNot
      exact Dag.Node.ext rfl (if_neg isNot)
    rw [cut, map_cut fixed, Dag.Node.assign, if_pos isTarget]
    rfl
  rw [rewired] at leaves
  refine ⟨_, leaves, ?_⟩
  rw [Dag.insertBefore, inherits, assigned]
  exact List.perm_middle

/-- A new step whose identifier is there already leaves it there twice. -/
theorem insertStepBefore_repeated
    (depicts : DepictsAll steps nodes)
    (found : nodes.findIdx? (fun node => decide (node.id = targetId)) =
      some index) {newStep : SkeletonStep}
    (repeated : newStep.stepId ∈ Dag.ids nodes) :
    ¬ ResultValid (insertStepBefore steps index targetId newStep) := by
  obtain ⟨front, old, back, cut, length, isTarget, _⟩ :=
    cut_of_found found
  have inside : index ≤ nodes.length := by
    rw [← length, cut, List.length_append]
    omega
  have isThere : ∃ node ∈ nodes.insertIdx index newStep.node,
      decide (node.id = targetId) = true := by
    refine ⟨old, ?_, decide_eq_true isTarget⟩
    rw [List.mem_insertIdx inside, cut]
    exact Or.inr (List.mem_append_right _ List.mem_cons_self)
  have foundAgain := List.findIdx?_eq_some_of_exists isThere
  rcases List.findIdx?_eq_some_iff_getElem.mp foundAgain with
    ⟨bound, _, _⟩
  have leaves := insertStepBefore_leaves depicts newStep foundAgain
    (List.getElem?_eq_getElem bound)
  have permuted := ids_insertIdx_perm inside newStep.node
  rw [← ids_modify _ index, ← ids_modify _ _ [newStep.stepId]]
    at permuted
  rw [leaves.valid_iff]
  exact not_dag_of_repeated permuted repeated

theorem insertStepBefore_valid_iff
    (depicts : DepictsAll steps nodes) (dag : Dag.IsDag nodes)
    (found : nodes.findIdx? (fun node => decide (node.id = targetId)) =
      some index) (present : targetId ∈ Dag.ids nodes)
    (newStep : SkeletonStep) :
    ResultValid (insertStepBefore steps index targetId newStep) ↔
      newStep.stepId ∉ Dag.ids nodes := by
  by_cases fresh : newStep.stepId ∉ Dag.ids nodes
  · obtain ⟨final, leaves, permuted⟩ :=
      insertStepBefore_edits depicts dag.distinct found fresh
    rw [leaves.valid_iff, Dag.isDag_perm_iff permuted]
    exact Dag.isDag_insertBefore_iff dag present newStep.node
  · have notValid :=
      insertStepBefore_repeated depicts found (not_not.mp fresh)
    exact ⟨fun valid => absurd valid notValid,
      fun allowed => absurd allowed fresh⟩

/-- The removal of a step is the removal of its node. -/
theorem removeStep_edits
    (depicts : DepictsAll steps nodes) (distinct : (Dag.ids nodes).Nodup)
    (found : nodes.findIdx? (fun node => decide (node.id = targetId)) =
      some index) :
    Leaves (removeStep steps index targetId)
      (Dag.remove nodes targetId) := by
  obtain ⟨front, old, back, cut, length, isTarget, _⟩ :=
    cut_of_found found
  have isOld : old ∈ nodes := by
    rw [cut]
    exact List.mem_append_right front List.mem_cons_self
  have isAt : nodes[index]? = some old := by
    rw [cut, ← length]
    simp
  have inherits :
      Dag.dependenciesOf nodes targetId = old.dependencies := by
    rw [← isTarget]
    exact Dag.dependenciesOf_eq distinct isOld
  rw [cut] at distinct
  have kept : (nodes.filter fun node => decide (node.id ≠ targetId)) =
      front ++ back := by
    have others : ∀ node ∈ front ++ back,
        decide (node.id ≠ targetId) = true := by
      intro node member
      rw [← isTarget]
      exact decide_eq_true (others_of_distinct distinct node member)
    rw [cut, List.filter_append,
      List.filter_cons_of_neg (by simp [isTarget]), ← List.filter_append]
    exact List.filter_eq_self.mpr others
  have removed :
      (nodes.map (Dag.Node.bypass targetId old.dependencies)).eraseIdx
        index = Dag.remove nodes targetId := by
    rw [Dag.remove, kept, inherits, cut, List.map_append, List.map_cons,
      ← length]
    rw [← List.length_map (Dag.Node.bypass targetId old.dependencies),
      eraseIdx_cut, List.map_append]
  have leaves := removeStep_leaves depicts targetId isAt
  rwa [removed] at leaves

theorem removeStep_valid
    (depicts : DepictsAll steps nodes) (dag : Dag.IsDag nodes)
    (found : nodes.findIdx? (fun node => decide (node.id = targetId)) =
      some index) (present : targetId ∈ Dag.ids nodes) :
    ResultValid (removeStep steps index targetId) := by
  have leaves := removeStep_edits depicts dag.distinct found
  exact leaves.valid_iff.mpr (Dag.isDag_remove dag present)

/-! ## Assignments to a field -/

theorem setattr_kept
    {step : StepObject} {node : Dag.Node String}
    (depicts : Depicts step node) {name : String} (value : Json)
    (notId : "step_id" ≠ name) (notDependencies : "dependencies" ≠ name) :
    Depicts (step.setattr name value) node := by
  constructor
  · rw [← depicts.stepId_eq]
    exact Fields.get_set_other _ _ notId
  · rw [← depicts.dependencies_eq]
    exact Fields.get_set_other _ _ notDependencies

theorem isField_of_get
    {fields : Fields} {name : String}
    (present : Fields.get fields name ≠ .null) :
    fields.any (fun field => decide (field.1 = name)) = true := by
  induction fields with
  | nil =>
      exact absurd rfl present
  | cons field rest inductionHypothesis =>
      rw [List.any_cons]
      by_cases here : field.1 = name
      · simp [here]
      · rw [Fields.get, OrderedMap.lookupEntries, if_neg here] at present
        rw [inductionHypothesis present, Bool.or_true]

theorem exists_node_of_getElem?
    (depicts : DepictsAll steps nodes) {step : StepObject}
    (isAt : steps[index]? = some step) : ∃ node, Depicts step node := by
  induction depicts generalizing index with
  | nil =>
      cases isAt
  | cons here _ inductionHypothesis =>
      cases index with
      | zero =>
          cases isAt
          exact ⟨_, here⟩
      | succ index =>
          exact inductionHypothesis isAt

/-- A step that stands for no node makes the steps no DAG. -/
theorem node_of_modified
    {ε : Type} {step : StepObject} (isAt : steps[index]? = some step)
    (change : StepObject → StepObject)
    (valid : ResultValid (ε := ε) (.ok (steps.modify index change))) :
    ∃ node, Depicts (change step) node := by
  rcases valid _ rfl with ⟨others, depicts, _⟩
  have modified : (steps.modify index change)[index]? =
      some (change step) := by
    rw [List.getElem?_modify_eq, isAt]
    rfl
  exact exists_node_of_getElem? depicts modified

section Assign

variable
  (depicts : DepictsAll steps nodes) (dag : Dag.IsDag nodes)
  (found : nodes.findIdx? (fun node => decide (node.id = targetId)) =
    some index)
  {step : StepObject} (isAt : steps[index]? = some step)

include depicts dag found isAt

theorem assign_dependencies_valid_iff (value : Json) :
    ResultValid (ε := PyError) (.ok (steps.modify index
        (StepObject.setattr · "dependencies" value))) ↔
      ∃ dependencies : List String,
        value = .list (dependencies.map Json.str) ∧
        ∀ dependency ∈ dependencies,
          dependency ∈ Dag.ids nodes ∧ dependency ≠ targetId ∧
            ¬ Relation.TransGen (Dag.DependsOn nodes) targetId
              dependency := by
  obtain ⟨front, old, back, cut, length, isTarget, inFront⟩ :=
    cut_of_found found
  have isOld : old ∈ nodes := by
    rw [cut]
    exact List.mem_append_right front List.mem_cons_self
  have present : targetId ∈ Dag.ids nodes := isTarget ▸ Dag.id_mem isOld
  have distinct := dag.distinct
  rw [cut] at distinct
  have leaves : ∀ dependencies : List String,
      Leaves (.ok (steps.modify index (StepObject.setattr · "dependencies"
          (.list (dependencies.map Json.str)))))
        (Dag.assign nodes targetId dependencies) := by
    intro dependencies
    have modified := forall₂_modify depicts
      (fun step node depicted =>
        Depicts.setDependencies depicted dependencies) index
    have fixed : ∀ node ∈ front ++ back,
        node.assign targetId dependencies = node := by
      intro node member
      have isNot := others_of_distinct distinct node member
      rw [isTarget] at isNot
      exact Dag.Node.ext rfl (if_neg isNot)
    have assigned : Dag.assign nodes targetId dependencies =
        nodes.modify index fun node => ⟨node.id, dependencies⟩ := by
      rw [Dag.assign, cut, map_cut fixed, ← length, modify_cut,
        Dag.Node.assign, if_pos isTarget]
    rw [assigned]
    exact ⟨_, rfl, modified⟩
  constructor
  · intro valid
    obtain ⟨node, depicted⟩ := node_of_modified isAt
      (StepObject.setattr · "dependencies" value) valid
    have isList := depicted.dependencies_eq
    rw [StepObject.dependencies, StepObject.setattr,
      Fields.get_set_self] at isList
    refine ⟨node.dependencies, isList, ?_⟩
    rw [isList, (leaves node.dependencies).valid_iff] at valid
    exact (Dag.isDag_assign_iff dag present _).mp valid
  · rintro ⟨dependencies, isList, allowed⟩
    rw [isList, (leaves dependencies).valid_iff]
    exact (Dag.isDag_assign_iff dag present dependencies).mpr allowed

theorem assign_stepId_valid_iff (value : Json) :
    ResultValid (ε := PyError) (.ok (steps.modify index
        (StepObject.setattr · "step_id" value))) ↔
      ∃ new : String, value = .str new ∧
        (new = targetId ∨ (new ∉ Dag.ids nodes ∧
          ∀ node ∈ nodes, targetId ∉ node.dependencies)) := by
  obtain ⟨front, old, back, cut, length, isTarget, inFront⟩ :=
    cut_of_found found
  have isOld : old ∈ nodes := by
    rw [cut]
    exact List.mem_append_right front List.mem_cons_self
  have present : targetId ∈ Dag.ids nodes := isTarget ▸ Dag.id_mem isOld
  have distinct := dag.distinct
  rw [cut] at distinct
  have leaves : ∀ new : String,
      Leaves (.ok (steps.modify index (StepObject.setattr · "step_id"
          (.str new)))) (Dag.rename nodes targetId new) := by
    intro new
    have depictsNew : ∀ step node, Depicts step node →
        Depicts (step.setattr "step_id" (.str new))
          ⟨new, node.dependencies⟩ := by
      intro step node depicted
      constructor
      · exact Fields.get_set_self _ _ _
      · rw [← depicted.dependencies_eq]
        exact Fields.get_set_other _ _ (by decide)
    have modified := forall₂_modify depicts depictsNew index
    have fixed : ∀ node ∈ front ++ back,
        (⟨if node.id = targetId then new else node.id,
          node.dependencies⟩ : Dag.Node String) = node := by
      intro node member
      have isNot := others_of_distinct distinct node member
      rw [isTarget] at isNot
      exact Dag.Node.ext (if_neg isNot) rfl
    have renamed : Dag.rename nodes targetId new =
        nodes.modify index fun node => ⟨new, node.dependencies⟩ := by
      rw [Dag.rename, cut, map_cut fixed, ← length, modify_cut,
        if_pos isTarget]
    rw [renamed]
    exact ⟨_, rfl, modified⟩
  constructor
  · intro valid
    obtain ⟨node, depicted⟩ := node_of_modified isAt
      (StepObject.setattr · "step_id" value) valid
    have isText := depicted.stepId_eq
    rw [StepObject.stepId, StepObject.setattr,
      Fields.get_set_self] at isText
    refine ⟨node.id, isText, ?_⟩
    rw [isText, (leaves node.id).valid_iff] at valid
    exact (Dag.isDag_rename_iff dag present _).mp valid
  · rintro ⟨new, isText, allowed⟩
    rw [isText, (leaves new).valid_iff]
    exact (Dag.isDag_rename_iff dag present new).mpr allowed

end Assign

end Exact

/-- The condition under which an action on the steps keeps the DAG: a new step
has a new identifier and, after its target, depends on steps that do not come
later; dependencies are assigned likewise, and a step that others depend on is
not renamed. -/
def KeepsDag (nodes : List (Dag.Node String)) (action : MutationAction) :
    Prop :=
  let targetId := action.targetStepId
  targetId ∈ Dag.ids nodes →
    match action.actionType, action.step, action.fieldPath with
    | .insertAfter, some newStep, _ =>
        newStep.stepId ∉ Dag.ids nodes ∧
          ∀ dependency ∈ newStep.dependencies,
            dependency ∈ Dag.ids nodes ∧ ¬ Relation.TransGen
              (Dag.DependsOn nodes) targetId dependency
    | .insertBefore, some newStep, _ =>
        newStep.stepId ∉ Dag.ids nodes
    | .modifyField, _, some fieldPath =>
        (fieldPath = "step_id" →
          ∃ new : String, action.fieldValue = .str new ∧
            (new = targetId ∨ (new ∉ Dag.ids nodes ∧
              ∀ node ∈ nodes, targetId ∉ node.dependencies))) ∧
        (fieldPath = "dependencies" →
          ∃ dependencies : List String,
            action.fieldValue = .list (dependencies.map Json.str) ∧
            ∀ dependency ∈ dependencies,
              dependency ∈ Dag.ids nodes ∧ dependency ≠ targetId ∧
                ¬ Relation.TransGen (Dag.DependsOn nodes) targetId
                  dependency)
    | _, _, _ => True

section Actions

variable (inherited : String → Bool)
  {steps : List StepObject} {nodes : List (Dag.Node String)}

theorem modify_self (index : Nat) :
    nodes.modify index (fun node => node) = nodes := by
  induction nodes generalizing index with
  | nil =>
      cases index <;> rfl
  | cons node rest inductionHypothesis =>
      cases index with
      | zero => rfl
      | succ index =>
          rw [List.modify_succ_cons, inductionHypothesis]

theorem modifyField_valid_iff
    (depicts : DepictsAll steps nodes) (dag : Dag.IsDag nodes)
    {index : Nat} {targetId : String}
    (found : nodes.findIdx? (fun node => decide (node.id = targetId)) =
      some index) (fieldPath : String) (value : Json) :
    ResultValid (modifyField inherited steps index fieldPath value) ↔
      (fieldPath = "step_id" →
        ∃ new : String, value = .str new ∧
          (new = targetId ∨ (new ∉ Dag.ids nodes ∧
            ∀ node ∈ nodes, targetId ∉ node.dependencies))) ∧
      (fieldPath = "dependencies" →
        ∃ dependencies : List String,
          value = .list (dependencies.map Json.str) ∧
          ∀ dependency ∈ dependencies,
            dependency ∈ Dag.ids nodes ∧ dependency ≠ targetId ∧
              ¬ Relation.TransGen (Dag.DependsOn nodes) targetId
                dependency) := by
  obtain ⟨front, old, back, cut, length, _, _⟩ := cut_of_found found
  have isNode : nodes[index]? = some old := by
    rw [cut, ← length]
    simp
  obtain ⟨step, isAt, depictsOld⟩ := forall₂_getElem? depicts isNode
  have isField : ∀ {name : String} {field : Json},
      Fields.get step.attributes name = field → field ≠ .null →
        step.attributes.any (fun field => decide (field.1 = name)) =
          true := by
    intro name field same present
    rw [← same] at present
    exact isField_of_get present
  rw [modifyField, isAt]
  dsimp only
  by_cases isId : fieldPath = "step_id"
  · rw [isId, if_pos (isField depictsOld.stepId_eq (by simp)),
      assign_stepId_valid_iff depicts dag found isAt]
    simp
  by_cases isDependencies : fieldPath = "dependencies"
  · rw [isDependencies,
      if_pos (isField depictsOld.dependencies_eq (by simp)),
      assign_dependencies_valid_iff depicts dag found isAt]
    simp
  have unconditional :
      ResultValid (modifyField inherited steps index fieldPath value) := by
    rw [modifyField, isAt]
    dsimp only
    split
    · have modified := forall₂_modify depicts
        (fun step node depicted => setattr_kept depicted value
          (Ne.symm isId) (Ne.symm isDependencies)) index
      rw [modify_self] at modified
      have leaves : Leaves (.ok (steps.modify index
          (StepObject.setattr · fieldPath value))) nodes :=
        ⟨_, rfl, modified⟩
      exact leaves.valid_iff.mpr dag
    · split
      · intro _ raised
        cases raised
      · intro _ same
        rw [← Except.ok.inj same]
        exact ⟨nodes, depicts, dag⟩
  rw [modifyField, isAt] at unconditional
  exact ⟨fun _ => ⟨fun same => absurd same isId,
    fun same => absurd same isDependencies⟩, fun _ => unconditional⟩

theorem applyAction_valid_iff
    (depicts : DepictsAll steps nodes) (dag : Dag.IsDag nodes)
    (action : MutationAction) :
    ResultValid (applyAction inherited steps action) ↔
      KeepsDag nodes action := by
  have unchanged : ResultValid (ε := PyError) (.ok steps) := by
    intro _ same
    rw [← Except.ok.inj same]
    exact ⟨nodes, depicts, dag⟩
  rw [applyAction, findStepIndex_eq depicts, KeepsDag]
  cases found : nodes.findIdx?
      fun node => decide (node.id = action.targetStepId) with
  | none =>
      have absent : action.targetStepId ∉ Dag.ids nodes := by
        intro present
        rcases List.mem_map.mp present with ⟨node, member, same⟩
        have noMatch := List.findIdx?_eq_none_iff.mp found node member
        rw [decide_eq_true same] at noMatch
        cases noMatch
      exact ⟨fun _ present => absurd present absent, fun _ => unchanged⟩
  | some index =>
      obtain ⟨front, old, back, cut, length, isTarget, _⟩ :=
        cut_of_found found
      have inside : index < nodes.length := by
        rw [cut, ← length, List.length_append, List.length_cons]
        omega
      have present : action.targetStepId ∈ Dag.ids nodes := by
        rw [← isTarget, cut]
        exact Dag.id_mem
          (List.mem_append_right front List.mem_cons_self)
      dsimp only
      rw [forall_prop_of_true present]
      have idle : ResultValid (ε := PyError) (.ok steps) ↔ True :=
        ⟨fun _ => trivial, fun _ => unchanged⟩
      rcases action with ⟨actionType, targetId, step, fieldPath, value⟩
      cases actionType with
      | insertAfter =>
          cases step with
          | none => exact idle
          | some newStep =>
              exact insertStepAfter_valid_iff depicts dag inside present
                newStep
      | insertBefore =>
          cases step with
          | none => exact idle
          | some newStep =>
              exact insertStepBefore_valid_iff depicts dag found present
                newStep
      | remove =>
          exact ⟨fun _ => trivial,
            fun _ => removeStep_valid depicts dag found present⟩
      | modifyField =>
          cases fieldPath with
          | none => exact idle
          | some fieldPath =>
              exact modifyField_valid_iff inherited depicts dag found
                fieldPath value

end Actions

/-! ## Runs of the engine -/

/-- The condition on an action at the state that it finds. -/
def KeepsState :
    Except MutationError (List StepObject) → MutationAction → Prop
  | .error _, _ => True
  | .ok steps, action =>
      ∀ nodes, DepictsAll steps nodes → KeepsDag nodes action

section Runs

variable (inherited : String → Bool)

theorem resultValid_mapError_iff
    {result : Except PyError (List StepObject)} :
    ResultValid (result.mapError MutationError.python) ↔
      ResultValid result := by
  cases result with
  | error _ =>
      exact ⟨fun _ _ raised => (by cases raised),
        fun _ _ raised => (by cases raised)⟩
  | ok steps =>
      constructor
      · intro valid found same
        rw [← Except.ok.inj same]
        exact valid steps rfl
      · intro valid found same
        rw [← Except.ok.inj same]
        exact valid steps rfl

theorem applyStep_valid_iff
    {current : Except MutationError (List StepObject)}
    (valid : ResultValid current) (action : MutationAction) :
    ResultValid (applyStep inherited current action) ↔
      KeepsState current action := by
  cases current with
  | error _ =>
      exact ⟨fun _ => trivial, fun _ _ raised => by cases raised⟩
  | ok steps =>
      rcases valid steps rfl with ⟨nodes, depicts, dag⟩
      have decided := applyAction_valid_iff inherited depicts dag action
      rw [← resultValid_mapError_iff] at decided
      refine decided.trans ⟨?_, ?_⟩
      · intro keeps others depictsOthers
        rw [← depicts.unique depictsOthers]
        exact keeps
      · intro keeps
        exact keeps nodes depicts

/-- The steps stand for a DAG between all actions exactly when every action
keeps it. -/
theorem everyState_valid_iff
    {start : Except MutationError (List StepObject)}
    (valid : ResultValid start) (actions : List MutationAction) :
    EveryState (applyStep inherited) ResultValid start actions ↔
      EveryStep (applyStep inherited) KeepsState start actions :=
  everyState_iff_everyStep ResultValid (fun _ good => good)
    (fun _ action good => applyStep_valid_iff inherited good action)
    (fun _ _ _ after => after) actions valid

theorem validSteps_of_isDag
    {skeleton : TopologySkeleton} (dag : skeleton.IsDag) :
    ValidSteps (skeleton.steps.map SkeletonStep.toObject) := by
  refine ⟨skeleton.steps.map SkeletonStep.node, ?_, dag⟩
  induction skeleton.steps with
  | nil =>
      exact .nil
  | cons step rest inductionHypothesis =>
      exact .cons (depicts_toObject step) inductionHypothesis

variable (floats : FloatOrder) (template : BusinessTemplate)

/-- The rules whose conditions hold, in the given order. -/
def matchingRules :
    List MutationRule → Except MutationError (List MutationRule)
  | [] => .ok []
  | rule :: rest => do
      let holds ← allConditions floats template rule.conditions
      let later ← matchingRules rest
      return if holds then rule :: later else later

theorem bind_ok
    {α β : Type} {first : Except MutationError α}
    {next : α → Except MutationError β} {value : α}
    (found : first = .ok value) : (first >>= next) = next value := by
  rw [found]
  rfl

/-- What the engine returns is the run of the actions of the rules that
match. -/
theorem run_of_applyRules
    {rules : List MutationRule} {steps final : List StepObject}
    {applied : List String}
    (returned : applyRules inherited floats template rules steps =
      .ok (final, applied)) :
    ∃ matched, matchingRules floats template rules = .ok matched ∧
      run (applyStep inherited) (.ok steps)
        (matched.flatMap MutationRule.actions) = .ok final ∧
      applied = matched.map MutationRule.ruleId := by
  induction rules generalizing steps final applied with
  | nil =>
      rw [applyRules, Except.ok.injEq, Prod.mk.injEq] at returned
      refine ⟨[], rfl, ?_, returned.2.symm⟩
      rw [returned.1]
      rfl
  | cons rule rest inductionHypothesis =>
      rw [applyRules, bind_eq_ok] at returned
      rcases returned with ⟨holds, evaluated, returned⟩
      rw [matchingRules, bind_ok evaluated]
      cases holds with
      | false =>
          obtain ⟨matched, found, ran, ids⟩ := inductionHypothesis returned
          refine ⟨matched, ?_, ran, ids⟩
          rw [bind_ok found]
          rfl
      | true =>
          rw [if_pos rfl, bind_eq_ok] at returned
          rcases returned with ⟨changed, ranHere, returned⟩
          rw [bind_eq_ok] at returned
          rcases returned with ⟨⟨last, later⟩, returnedLater, same⟩
          rw [pure_eq_ok, Prod.mk.injEq] at same
          obtain ⟨matched, found, ran, ids⟩ :=
            inductionHypothesis returnedLater
          refine ⟨rule :: matched, ?_, ?_, ?_⟩
          · rw [bind_ok found]
            rfl
          · rw [List.flatMap_cons, run_append, ranHere, ran, same.1]
          · rw [← same.2, ids, List.map_cons]

/-- The skeleton's rules, highest priority first. -/
def byPriority (rules : List MutationRule) : List MutationRule :=
  rules.insertionSort fun first second => second.priority ≤ first.priority

/-- Along the actions of the rules that match, the steps stand for a DAG
throughout exactly when every action keeps it; then the returned skeleton is
one too. -/
theorem mutations_keep_dag
    {skeleton : TopologySkeleton} (dag : skeleton.IsDag)
    {matched : List MutationRule}
    (matching : matchingRules floats template
      (byPriority skeleton.mutationRules) = .ok matched) :
    (EveryState (applyStep inherited) ResultValid
        (.ok (skeleton.steps.map SkeletonStep.toObject))
        (matched.flatMap MutationRule.actions) ↔
      EveryStep (applyStep inherited) KeepsState
        (.ok (skeleton.steps.map SkeletonStep.toObject))
        (matched.flatMap MutationRule.actions)) ∧
    (EveryStep (applyStep inherited) KeepsState
        (.ok (skeleton.steps.map SkeletonStep.toObject))
        (matched.flatMap MutationRule.actions) →
      ∀ final applied,
        applyMutations inherited floats template skeleton =
          .ok (final, applied) → ValidSteps final) := by
  have start : ResultValid (ε := MutationError)
      (.ok (skeleton.steps.map SkeletonStep.toObject)) := by
    intro _ same
    rw [← Except.ok.inj same]
    exact validSteps_of_isDag dag
  refine ⟨everyState_valid_iff inherited start _, ?_⟩
  intro every final applied returned
  obtain ⟨others, found, ran, _⟩ :=
    run_of_applyRules inherited floats template returned
  have sameRules : others = matched :=
    Except.ok.inj (found.symm.trans matching)
  rw [sameRules] at ran
  have kept := run_invariant ResultValid
    (fun _ action good keeps =>
      (applyStep_valid_iff inherited good action).mpr keeps) start every
  exact kept final ran

end Runs

theorem countP_le_one_of_valid
    {steps : List StepObject} (valid : ValidSteps steps)
    (stepId : String) :
    steps.countP (fun step => step.stepId.pyEq (.str stepId)) ≤ 1 := by
  rcases valid with ⟨nodes, depicts, dag⟩
  have counted : steps.countP
      (fun step => step.stepId.pyEq (.str stepId)) =
        (Dag.ids nodes).count stepId := by
    clear dag
    induction depicts with
    | nil =>
        rfl
    | cons here _ inductionHypothesis =>
        rw [List.countP_cons, inductionHypothesis, here.stepId_pyEq,
          Dag.ids, Dag.ids, List.map_cons, List.count_cons]
        simp
  rw [counted]
  exact List.nodup_iff_count_le_one.mp dag.distinct stepId

def comparedInts : FloatOrder where
  atLeast
    | .int first, .int second => .ok (decide (second ≤ first))
    | _, _ => .ok false

def intakeStep : SkeletonStep where
  stepId := "intake"
  role := "intake"
  name := "Intake"

def notifyStep : SkeletonStep where
  stepId := "notify"
  role := "notify"
  name := "Notify"
  dependencies := ["intake"]

def verifyStep : SkeletonStep where
  stepId := "verify"
  role := "verify"
  name := "Verify"

/-- A rule that puts the verification after the intake. -/
def verifyAfterIntake (ruleId : String) : MutationRule where
  ruleId := ruleId
  name := ruleId
  actions := [{
    actionType := .insertAfter
    targetStepId := "intake"
    step := some verifyStep }]

/-- A rule that puts the verification before the notification and removes
the intake. -/
def verifyBeforeNotify : MutationRule where
  ruleId := "direct"
  name := "direct"
  actions :=
    [{ actionType := .insertBefore
       targetStepId := "notify"
       step := some verifyStep },
     { actionType := .remove
       targetStepId := "intake" }]

def intakeSkeleton (rules : List MutationRule) : TopologySkeleton where
  skeletonId := "skeleton"
  name := "skeleton"
  workflowClass := "generic"
  steps := [intakeStep, notifyStep]
  mutationRules := rules

def plainTemplate : BusinessTemplate where
  templateId := "template"
  workflowClass := "generic"
  createdAt := "2025-01-01T00:00:00+00:00"

theorem intakeSkeleton_isDag (rules : List MutationRule) :
    (intakeSkeleton rules).IsDag := by
  have nodes : Dag.IsDag
      ([⟨"intake", []⟩, ⟨"notify", ["intake"]⟩] :
        List (Dag.Node String)) :=
    Dag.IsDag.of_ranked (fun id => if id = "notify" then 1 else 0)
      (by decide) (by decide) (by unfold Dag.Ranked; decide)
  exact nodes

/-- A fresh step put before the last one, and the first one removed. -/
theorem insertion_and_removal_keep_dag :
    ∃ final,
      applyMutations (fun _ => false) comparedInts plainTemplate
        (intakeSkeleton [verifyBeforeNotify]) = .ok (final, ["direct"]) ∧
      ValidSteps final := by
  have matching : matchingRules comparedInts plainTemplate
      (byPriority (intakeSkeleton [verifyBeforeNotify]).mutationRules) =
        .ok [verifyBeforeNotify] :=
    rfl
  have keepsAll := (mutations_keep_dag (fun _ => false) comparedInts
    plainTemplate (intakeSkeleton_isDag _) matching).2
  refine ⟨_, rfl, keepsAll ⟨?_, ?_, trivial⟩ _ ["direct"] rfl⟩
  · intro nodes depicts
    have start : DepictsAll
        ([intakeStep, notifyStep].map SkeletonStep.toObject)
        [intakeStep.node, notifyStep.node] :=
      .cons (depicts_toObject _) (.cons (depicts_toObject _) .nil)
    rw [depicts.unique start]
    intro _
    show "verify" ∉ Dag.ids [intakeStep.node, notifyStep.node]
    decide
  · intro _ _ _
    trivial

/-- Two matching rules insert the same step, which then occurs twice. -/
theorem repeated_insertion_breaks_dag :
    (intakeSkeleton [verifyAfterIntake "strict",
        verifyAfterIntake "critical"]).IsDag ∧
      ∃ final,
        applyMutations (fun _ => false) comparedInts plainTemplate
          (intakeSkeleton [verifyAfterIntake "strict",
            verifyAfterIntake "critical"]) =
          .ok (final, ["strict", "critical"]) ∧
        ¬ ValidSteps final := by
  refine ⟨intakeSkeleton_isDag _, _, rfl, ?_⟩
  intro valid
  have once := countP_le_one_of_valid valid "verify"
  revert once
  decide

end Agentcy.Topology
