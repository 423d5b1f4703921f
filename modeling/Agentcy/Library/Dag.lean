import Mathlib.Data.Finset.Card
import Mathlib.Data.List.Nodup
import Mathlib.Data.List.Perm.Basic
import Mathlib.Logic.Relation

/-!
# Editing a DAG

A DAG is a list of nodes that name their dependencies.  Acyclicity is witnessed
by ranks that rise along the edges.  For each edit of the list (a node put
before or after another one, a node removed, renamed, or given other
dependencies) the exact condition is proved under which the result is a DAG
again.
-/

namespace Agentcy.Library.Dag

universe u

variable {ν : Type u}

/-- A node and the nodes that it depends on. -/
@[ext]
structure Node (ν : Type u) where
  id : ν
  dependencies : List ν

def ids (nodes : List (Node ν)) : List ν :=
  nodes.map Node.id

def DependsOn (nodes : List (Node ν)) (dependency id : ν) : Prop :=
  ∃ node ∈ nodes, node.id = id ∧ dependency ∈ node.dependencies

/-- Distinct identifiers, dependencies among them, and no cycle. -/
structure IsDag (nodes : List (Node ν)) : Prop where
  distinct : (ids nodes).Nodup
  closed : ∀ node ∈ nodes, ∀ dependency ∈ node.dependencies,
    dependency ∈ ids nodes
  acyclic : ∀ id, ¬ Relation.TransGen (DependsOn nodes) id id

theorem id_mem {nodes : List (Node ν)} {node : Node ν}
    (member : node ∈ nodes) : node.id ∈ ids nodes :=
  List.mem_map.mpr ⟨node, member, rfl⟩

theorem eq_of_id_eq
    {nodes : List (Node ν)} (distinct : (ids nodes).Nodup)
    {first second : Node ν} (isFirst : first ∈ nodes)
    (isSecond : second ∈ nodes) (same : first.id = second.id) :
    first = second :=
  List.inj_on_of_nodup_map distinct isFirst isSecond same

/-- Ranks that rise from every dependency to the node that names it. -/
def Ranked (nodes : List (Node ν)) (rank : ν → Nat) : Prop :=
  ∀ node ∈ nodes, ∀ dependency ∈ node.dependencies,
    rank dependency < rank node.id

theorem Ranked.lt_of_transGen
    {nodes : List (Node ν)} {rank : ν → Nat} (ranked : Ranked nodes rank)
    {first last : ν}
    (path : Relation.TransGen (DependsOn nodes) first last) :
    rank first < rank last := by
  have single : ∀ {source target : ν},
      DependsOn nodes source target → rank source < rank target := by
    rintro source target ⟨node, member, rfl, among⟩
    exact ranked node member source among
  induction path with
  | single edge =>
      exact single edge
  | tail _ edge inductionHypothesis =>
      exact inductionHypothesis.trans (single edge)

theorem IsDag.of_ranked
    {nodes : List (Node ν)} (rank : ν → Nat)
    (distinct : (ids nodes).Nodup)
    (closed : ∀ node ∈ nodes, ∀ dependency ∈ node.dependencies,
      dependency ∈ ids nodes)
    (ranked : Ranked nodes rank) : IsDag nodes := by
  refine ⟨distinct, closed, ?_⟩
  intro id cycle
  exact Nat.lt_irrefl _ (ranked.lt_of_transGen cycle)

/-- The number of nodes below a node ranks it. -/
theorem IsDag.exists_rank
    {nodes : List (Node ν)} (dag : IsDag nodes) :
    ∃ rank, Ranked nodes rank := by
  classical
  let below : ν → Finset ν := fun id =>
    (ids nodes).toFinset.filter fun other =>
      Relation.TransGen (DependsOn nodes) other id
  refine ⟨fun id => (below id).card, ?_⟩
  intro node member dependency among
  have edge : DependsOn nodes dependency node.id :=
    ⟨node, member, rfl, among⟩
  apply Finset.card_lt_card
  rw [Finset.ssubset_iff_of_subset]
  · refine ⟨dependency, ?_, ?_⟩
    · apply Finset.mem_filter.mpr
      exact ⟨List.mem_toFinset.mpr (dag.closed node member dependency among),
        Relation.TransGen.single edge⟩
    · intro inside
      exact dag.acyclic dependency (Finset.mem_filter.mp inside).2
  · intro other inside
    have facts := Finset.mem_filter.mp inside
    apply Finset.mem_filter.mpr
    exact ⟨facts.1, facts.2.tail edge⟩

/-- A list of nodes has room above its ranks. -/
theorem exists_bound (rank : ν → Nat) (listed : List ν) :
    ∃ bound, ∀ id ∈ listed, rank id < bound := by
  induction listed with
  | nil =>
      exact ⟨0, by simp⟩
  | cons first rest inductionHypothesis =>
      obtain ⟨bound, below⟩ := inductionHypothesis
      refine ⟨max bound (rank first + 1), ?_⟩
      intro id member
      rcases List.mem_cons.mp member with same | later
      · rw [same]
        omega
      · have := below id later
        omega

/-- Ranks with everything above a node lifted over the rest. -/
theorem exists_lifted_rank
    {nodes : List (Node ν)} (dag : IsDag nodes) (target : ν) :
    ∃ (rank : ν → Nat) (height : Nat), Ranked nodes rank ∧
      (∀ id ∈ ids nodes,
        height < rank id ↔ Relation.TransGen (DependsOn nodes) target id) ∧
      ∀ id ∈ ids nodes, rank id ≠ height := by
  classical
  obtain ⟨rank, ranked⟩ := dag.exists_rank
  obtain ⟨height, below⟩ := exists_bound rank (ids nodes)
  let Above : ν → Prop := Relation.TransGen (DependsOn nodes) target
  refine ⟨fun id => rank id + if Above id then height + 1 else 0, height,
    ?_, ?_, ?_⟩
  · intro node member dependency among
    have rises := ranked node member dependency among
    by_cases above : Above dependency
    · have aboveNode : Above node.id :=
        above.tail ⟨node, member, rfl, among⟩
      simp only [if_pos above, if_pos aboveNode]
      omega
    · simp only [if_neg above]
      omega
  · intro id member
    have := below id member
    by_cases above : Above id
    · simp only [if_pos above]
      exact ⟨fun _ => above, fun _ => by omega⟩
    · simp only [if_neg above]
      exact ⟨fun lifted => by omega, fun path => absurd path above⟩
  · intro id member
    have := below id member
    by_cases above : Above id
    · simp only [if_pos above]
      omega
    · simp only [if_neg above]
      omega

theorem IsDag.perm
    {nodes others : List (Node ν)} (same : nodes.Perm others)
    (dag : IsDag nodes) : IsDag others := by
  have sameIds : (ids nodes).Perm (ids others) := same.map Node.id
  obtain ⟨rank, ranked⟩ := dag.exists_rank
  have moved : Ranked others rank := fun node member =>
    ranked node (same.mem_iff.mpr member)
  refine .of_ranked rank (sameIds.nodup_iff.mp dag.distinct) ?_ moved
  intro node member dependency among
  exact sameIds.mem_iff.mp
    (dag.closed node (same.mem_iff.mpr member) dependency among)

theorem isDag_perm_iff
    {nodes others : List (Node ν)} (same : nodes.Perm others) :
    IsDag nodes ↔ IsDag others :=
  ⟨IsDag.perm same, IsDag.perm same.symm⟩

section Edits

variable [DecidableEq ν]

/-- The dependencies of the first node with an identifier. -/
def dependenciesOf (nodes : List (Node ν)) (target : ν) : List ν :=
  match nodes.find? fun node => decide (node.id = target) with
  | none => []
  | some node => node.dependencies

/-- Equal elements once, the first of them. -/
def keepFirst : List ν → List ν
  | [] => []
  | item :: rest =>
      item :: (keepFirst rest).filter fun other => decide (other ≠ item)

def Node.redirect (target new : ν) (node : Node ν) : Node ν where
  id := node.id
  dependencies := node.dependencies.map fun dependency =>
    if dependency = target then new else dependency

/-- The node depends on `target`, besides the dependencies it has. -/
def Node.following (target : ν) (node : Node ν) : Node ν where
  id := node.id
  dependencies :=
    if target ∈ node.dependencies then node.dependencies
    else node.dependencies ++ [target]

/-- Dependencies on `target` are replaced by those that `target` had. -/
def Node.bypass (target : ν) (inherited : List ν) (node : Node ν) :
    Node ν where
  id := node.id
  dependencies :=
    if target ∈ node.dependencies then
      keepFirst ((node.dependencies.filter fun dependency =>
        decide (dependency ≠ target)) ++ inherited)
    else node.dependencies

def Node.assign (target : ν) (dependencies : List ν) (node : Node ν) :
    Node ν where
  id := node.id
  dependencies :=
    if node.id = target then dependencies else node.dependencies

/-- The new node depends on `target`, and what depended on `target` depends
on it. -/
def insertAfter (nodes : List (Node ν)) (target : ν) (new : Node ν) :
    List (Node ν) :=
  new.following target :: nodes.map (Node.redirect target new.id)

/-- The new node inherits the dependencies of `target`, which depends on it
alone. -/
def insertBefore (nodes : List (Node ν)) (target : ν) (new : Node ν) :
    List (Node ν) :=
  ⟨new.id, dependenciesOf nodes target⟩ ::
    nodes.map (Node.assign target [new.id])

def remove (nodes : List (Node ν)) (target : ν) : List (Node ν) :=
  (nodes.filter fun node => decide (node.id ≠ target)).map
    (Node.bypass target (dependenciesOf nodes target))

def assign (nodes : List (Node ν)) (target : ν) (dependencies : List ν) :
    List (Node ν) :=
  nodes.map (Node.assign target dependencies)

def rename (nodes : List (Node ν)) (target new : ν) : List (Node ν) :=
  nodes.map fun node =>
    ⟨if node.id = target then new else node.id, node.dependencies⟩

theorem mem_keepFirst {items : List ν} {tested : ν} :
    tested ∈ keepFirst items ↔ tested ∈ items := by
  induction items with
  | nil =>
      simp [keepFirst]
  | cons item rest inductionHypothesis =>
      rw [keepFirst, List.mem_cons, List.mem_cons, List.mem_filter,
        inductionHypothesis]
      by_cases same : tested = item
      · simp [same]
      · simp [same]

theorem dependenciesOf_eq
    {nodes : List (Node ν)} (distinct : (ids nodes).Nodup)
    {node : Node ν} (member : node ∈ nodes) :
    dependenciesOf nodes node.id = node.dependencies := by
  rw [dependenciesOf]
  cases found : nodes.find? fun other => decide (other.id = node.id) with
  | none =>
      have absent := List.find?_eq_none.mp found node member
      simp at absent
  | some other =>
      have isOther := List.mem_of_find?_eq_some found
      have same := List.find?_some found
      rw [eq_of_id_eq distinct isOther member (of_decide_eq_true same)]

theorem mem_dependenciesOf_iff
    {nodes : List (Node ν)} (distinct : (ids nodes).Nodup)
    {target : ν} (present : target ∈ ids nodes) (dependency : ν) :
    dependency ∈ dependenciesOf nodes target ↔
      DependsOn nodes dependency target := by
  rcases List.mem_map.mp present with ⟨node, member, rfl⟩
  rw [dependenciesOf_eq distinct member]
  constructor
  · intro among
    exact ⟨node, member, rfl, among⟩
  · rintro ⟨other, isOther, same, among⟩
    rw [eq_of_id_eq distinct member isOther same.symm]
    exact among

theorem mem_following
    {target : ν} {node : Node ν} {dependency : ν} :
    dependency ∈ (node.following target).dependencies ↔
      dependency ∈ node.dependencies ∨ dependency = target := by
  rw [Node.following]
  by_cases already : target ∈ node.dependencies
  · rw [if_pos already]
    constructor
    · exact Or.inl
    · rintro (among | rfl)
      · exact among
      · exact already
  · rw [if_neg already, List.mem_append, List.mem_singleton]

theorem mem_redirect
    {target new : ν} {node : Node ν} {dependency : ν} :
    dependency ∈ (node.redirect target new).dependencies ↔
      (dependency ∈ node.dependencies ∧ dependency ≠ target) ∨
        (dependency = new ∧ target ∈ node.dependencies) := by
  rw [Node.redirect, List.mem_map]
  constructor
  · rintro ⟨old, among, same⟩
    by_cases isTarget : old = target
    · rw [if_pos isTarget] at same
      rw [isTarget] at among
      exact Or.inr ⟨same.symm, among⟩
    · rw [if_neg isTarget] at same
      rw [← same]
      exact Or.inl ⟨among, isTarget⟩
  · rintro (⟨among, different⟩ | ⟨rfl, among⟩)
    · exact ⟨dependency, among, if_neg different⟩
    · exact ⟨target, among, if_pos rfl⟩

theorem redirect_of_not_mem
    {target : ν} {node : Node ν} (absent : target ∉ node.dependencies)
    (new : ν) : node.redirect target new = node := by
  have kept : node.dependencies.map (fun dependency =>
      if dependency = target then new else dependency) =
        node.dependencies.map id := by
    apply List.map_congr_left
    intro dependency among
    apply if_neg
    rintro rfl
    exact absent among
  rw [Node.redirect, kept, List.map_id]

theorem ids_insertAfter
    (nodes : List (Node ν)) (target : ν) (new : Node ν) :
    ids (insertAfter nodes target new) = new.id :: ids nodes := by
  simp [insertAfter, ids, Node.following, Node.redirect]

theorem ids_insertBefore
    (nodes : List (Node ν)) (target : ν) (new : Node ν) :
    ids (insertBefore nodes target new) = new.id :: ids nodes := by
  simp [insertBefore, ids, Node.assign]

theorem ids_assign
    (nodes : List (Node ν)) (target : ν) (dependencies : List ν) :
    ids (assign nodes target dependencies) = ids nodes := by
  simp [assign, ids, Node.assign]

/-! ## A node put after another one -/

theorem lt_of_insertAfter
    {nodes : List (Node ν)} {target : ν} {new : Node ν} {rank : ν → Nat}
    (ranked : Ranked (insertAfter nodes target new) rank) {id : ν}
    (path : Relation.TransGen (DependsOn nodes) target id) :
    rank new.id < rank id := by
  have moved : ∀ node ∈ nodes,
      node.redirect target new.id ∈ insertAfter nodes target new := by
    intro node member
    exact List.mem_cons_of_mem _ (List.mem_map.mpr ⟨node, member, rfl⟩)
  have fromTarget : ∀ {id : ν}, DependsOn nodes target id →
      rank new.id < rank id := by
    rintro id ⟨node, member, rfl, among⟩
    exact ranked _ (moved node member) new.id
      (mem_redirect.mpr (Or.inr ⟨rfl, among⟩))
  induction path with
  | single edge =>
      exact fromTarget edge
  | @tail source _ _ edge inductionHypothesis =>
      by_cases isTarget : source = target
      · rw [isTarget] at edge
        exact fromTarget edge
      · rcases edge with ⟨node, member, rfl, among⟩
        exact inductionHypothesis.trans (ranked _ (moved node member) source
          (mem_redirect.mpr (Or.inl ⟨among, isTarget⟩)))

theorem isDag_insertAfter_iff
    {nodes : List (Node ν)} (dag : IsDag nodes)
    {target : ν} (present : target ∈ ids nodes) (new : Node ν) :
    IsDag (insertAfter nodes target new) ↔
      new.id ∉ ids nodes ∧ ∀ dependency ∈ new.dependencies,
        dependency ∈ ids nodes ∧
          ¬ Relation.TransGen (DependsOn nodes) target dependency := by
  constructor
  · intro result
    have distinct := result.distinct
    rw [ids_insertAfter, List.nodup_cons] at distinct
    obtain ⟨rank, ranked⟩ := result.exists_rank
    refine ⟨distinct.1, ?_⟩
    intro dependency among
    have linked : dependency ∈ (new.following target).dependencies :=
      mem_following.mpr (Or.inl among)
    have lower : rank dependency < rank new.id :=
      ranked _ List.mem_cons_self dependency linked
    have inside :=
      result.closed _ List.mem_cons_self dependency linked
    rw [ids_insertAfter] at inside
    constructor
    · rcases List.mem_cons.mp inside with same | old
      · rw [same] at lower
        omega
      · exact old
    · intro path
      have higher := lt_of_insertAfter ranked path
      omega
  · rintro ⟨fresh, allowed⟩
    obtain ⟨rank, height, ranked, above, apart⟩ :=
      exists_lifted_rank dag target
    have old : ∀ {id : ν}, id ∈ ids nodes →
        (if id = new.id then height else rank id) = rank id := by
      intro id inside
      apply if_neg
      rintro rfl
      exact fresh inside
    refine IsDag.of_ranked
      (fun id => if id = new.id then height else rank id) ?_ ?_ ?_
    · rw [ids_insertAfter, List.nodup_cons]
      exact ⟨fresh, dag.distinct⟩
    · intro node member dependency among
      rw [ids_insertAfter]
      rcases List.mem_cons.mp member with isNew | moved
      · rw [isNew] at among
        rcases mem_following.mp among with preset | same
        · exact List.mem_cons_of_mem _ (allowed dependency preset).1
        · rw [same]
          exact List.mem_cons_of_mem _ present
      · rcases List.mem_map.mp moved with ⟨node, isOld, rfl⟩
        rcases mem_redirect.mp among with ⟨kept, _⟩ | ⟨same, _⟩
        · exact List.mem_cons_of_mem _
            (dag.closed node isOld dependency kept)
        · rw [same]
          exact List.mem_cons_self
    · intro node member dependency among
      rcases List.mem_cons.mp member with isNew | moved
      · rw [isNew] at among ⊢
        have below : dependency ∈ ids nodes ∧ rank dependency < height := by
          rcases mem_following.mp among with preset | same
          · obtain ⟨inside, noPath⟩ := allowed dependency preset
            have notAbove := mt (above dependency inside).mp noPath
            have different := apart dependency inside
            exact ⟨inside, by omega⟩
          · rw [same]
            have notAbove := mt (above target present).mp (dag.acyclic target)
            have different := apart target present
            exact ⟨present, by omega⟩
        dsimp only [Node.following]
        rw [old below.1, if_pos rfl]
        exact below.2
      · rcases List.mem_map.mp moved with ⟨node, isOld, rfl⟩
        have here := id_mem isOld
        dsimp only [Node.redirect]
        rw [old here]
        rcases mem_redirect.mp among with ⟨kept, _⟩ | ⟨same, onTarget⟩
        · rw [old (dag.closed node isOld dependency kept)]
          exact ranked node isOld dependency kept
        · rw [if_pos same]
          exact (above node.id here).mpr
            (Relation.TransGen.single ⟨node, isOld, rfl, onTarget⟩)

theorem isDag_insertBefore_iff
    {nodes : List (Node ν)} (dag : IsDag nodes)
    {target : ν} (present : target ∈ ids nodes) (new : Node ν) :
    IsDag (insertBefore nodes target new) ↔ new.id ∉ ids nodes := by
  constructor
  · intro result
    have distinct := result.distinct
    rw [ids_insertBefore, List.nodup_cons] at distinct
    exact distinct.1
  · intro fresh
    obtain ⟨rank, ranked⟩ := dag.exists_rank
    have inherited : ∀ dependency ∈ dependenciesOf nodes target,
        dependency ∈ ids nodes ∧ rank dependency < rank target := by
      intro dependency among
      obtain ⟨node, member, same, named⟩ :=
        (mem_dependenciesOf_iff dag.distinct present dependency).mp among
      rw [← same]
      exact ⟨dag.closed node member dependency named,
        ranked node member dependency named⟩
    -- The new node gets the even rank just below that of `target`.
    let doubled : ν → Nat := fun id =>
      if id = new.id then 2 * rank target else 2 * rank id + 1
    have old : ∀ {id : ν}, id ∈ ids nodes →
        doubled id = 2 * rank id + 1 := by
      intro id inside
      apply if_neg
      rintro rfl
      exact fresh inside
    have ofNew : doubled new.id = 2 * rank target := if_pos rfl
    refine IsDag.of_ranked doubled ?_ ?_ ?_
    · rw [ids_insertBefore, List.nodup_cons]
      exact ⟨fresh, dag.distinct⟩
    · intro node member dependency among
      rw [ids_insertBefore]
      rcases List.mem_cons.mp member with isNew | moved
      · rw [isNew] at among
        exact List.mem_cons_of_mem _ (inherited dependency among).1
      · rcases List.mem_map.mp moved with ⟨node, isOld, rfl⟩
        dsimp only [Node.assign] at among
        split at among
        · rw [List.mem_singleton.mp among]
          exact List.mem_cons_self
        · exact List.mem_cons_of_mem _
            (dag.closed node isOld dependency among)
    · intro node member dependency among
      rcases List.mem_cons.mp member with isNew | moved
      · rw [isNew] at among ⊢
        obtain ⟨inside, lower⟩ := inherited dependency among
        rw [old inside, ofNew]
        omega
      · rcases List.mem_map.mp moved with ⟨node, isOld, rfl⟩
        have here := old (id_mem isOld)
        dsimp only [Node.assign] at among ⊢
        rw [here]
        split at among
        · rename_i isTarget
          rw [List.mem_singleton.mp among, ofNew, isTarget]
          omega
        · have lower := ranked node isOld dependency among
          rw [old (dag.closed node isOld dependency among)]
          omega

theorem mem_ids_filter
    {nodes : List (Node ν)} {target id : ν} :
    id ∈ ids (nodes.filter fun node => decide (node.id ≠ target)) ↔
      id ∈ ids nodes ∧ id ≠ target := by
  rw [ids, List.mem_map]
  constructor
  · rintro ⟨node, member, rfl⟩
    obtain ⟨isOld, different⟩ := List.mem_filter.mp member
    exact ⟨id_mem isOld, of_decide_eq_true different⟩
  · rintro ⟨present, different⟩
    rcases List.mem_map.mp present with ⟨node, isOld, rfl⟩
    exact ⟨node, List.mem_filter.mpr
      ⟨isOld, decide_eq_true different⟩, rfl⟩

theorem ids_remove (nodes : List (Node ν)) (target : ν) :
    ids (remove nodes target) =
      ids (nodes.filter fun node => decide (node.id ≠ target)) := by
  simp [remove, ids, Node.bypass]

theorem mem_bypass
    {target : ν} {inherited : List ν} {node : Node ν} {dependency : ν}
    (among : dependency ∈ (node.bypass target inherited).dependencies) :
    (dependency ∈ node.dependencies ∧ dependency ≠ target) ∨
      (target ∈ node.dependencies ∧ dependency ∈ inherited) := by
  dsimp only [Node.bypass] at among
  split at among
  · rename_i onTarget
    rcases List.mem_append.mp (mem_keepFirst.mp among) with kept | joined
    · obtain ⟨named, different⟩ := List.mem_filter.mp kept
      exact Or.inl ⟨named, of_decide_eq_true different⟩
    · exact Or.inr ⟨onTarget, joined⟩
  · rename_i notOnTarget
    refine Or.inl ⟨among, ?_⟩
    rintro rfl
    exact notOnTarget among

theorem isDag_remove
    {nodes : List (Node ν)} (dag : IsDag nodes)
    {target : ν} (present : target ∈ ids nodes) :
    IsDag (remove nodes target) := by
  obtain ⟨rank, ranked⟩ := dag.exists_rank
  have inherited : ∀ dependency ∈ dependenciesOf nodes target,
      dependency ∈ ids nodes ∧ rank dependency < rank target := by
    intro dependency among
    obtain ⟨node, member, same, named⟩ :=
      (mem_dependenciesOf_iff dag.distinct present dependency).mp among
    rw [← same]
    exact ⟨dag.closed node member dependency named,
      ranked node member dependency named⟩
  refine IsDag.of_ranked rank ?_ ?_ ?_
  · rw [ids_remove]
    exact dag.distinct.sublist (List.filter_sublist.map Node.id)
  · intro node member dependency among
    rw [ids_remove, mem_ids_filter]
    rcases List.mem_map.mp member with ⟨node, kept, rfl⟩
    have isOld := (List.mem_filter.mp kept).1
    rcases mem_bypass among with ⟨named, different⟩ | ⟨_, joined⟩
    · exact ⟨dag.closed node isOld dependency named, different⟩
    · obtain ⟨inside, lower⟩ := inherited dependency joined
      refine ⟨inside, ?_⟩
      rintro rfl
      omega
  · intro node member dependency among
    rcases List.mem_map.mp member with ⟨node, kept, rfl⟩
    have isOld := (List.mem_filter.mp kept).1
    rcases mem_bypass among with ⟨named, _⟩ | ⟨onTarget, joined⟩
    · exact ranked node isOld dependency named
    · have toTarget := (inherited dependency joined).2
      have fromTarget := ranked node isOld target onTarget
      exact toTarget.trans fromTarget

/-! ## Other dependencies for a node -/

theorem lt_of_assign
    {nodes : List (Node ν)} (dag : IsDag nodes)
    {target : ν} {dependencies : List ν} {rank : ν → Nat}
    (ranked : Ranked (assign nodes target dependencies) rank) {id : ν}
    (path : Relation.TransGen (DependsOn nodes) target id) :
    rank target < rank id := by
  have kept : ∀ {source id : ν}, DependsOn nodes source id →
      id ≠ target → rank source < rank id := by
    rintro source id ⟨node, member, rfl, among⟩ different
    have moved : node.assign target dependencies ∈
        assign nodes target dependencies :=
      List.mem_map.mpr ⟨node, member, rfl⟩
    apply ranked _ moved source
    dsimp only [Node.assign]
    rw [if_neg different]
    exact among
  induction path with
  | single edge =>
      apply kept edge
      rintro rfl
      exact dag.acyclic _ (Relation.TransGen.single edge)
  | tail path edge inductionHypothesis =>
      refine inductionHypothesis.trans (kept edge ?_)
      rintro rfl
      exact dag.acyclic _ (path.tail edge)

theorem isDag_assign_iff
    {nodes : List (Node ν)} (dag : IsDag nodes)
    {target : ν} (present : target ∈ ids nodes) (dependencies : List ν) :
    IsDag (assign nodes target dependencies) ↔
      ∀ dependency ∈ dependencies,
        dependency ∈ ids nodes ∧ dependency ≠ target ∧
          ¬ Relation.TransGen (DependsOn nodes) target dependency := by
  constructor
  · intro result dependency among
    obtain ⟨rank, ranked⟩ := result.exists_rank
    rcases List.mem_map.mp present with ⟨node, member, rfl⟩
    have moved : node.assign node.id dependencies ∈
        assign nodes node.id dependencies :=
      List.mem_map.mpr ⟨node, member, rfl⟩
    have named :
        dependency ∈ (node.assign node.id dependencies).dependencies := by
      dsimp only [Node.assign]
      rw [if_pos rfl]
      exact among
    have lower : rank dependency < rank node.id :=
      ranked _ moved dependency named
    have inside := result.closed _ moved dependency named
    rw [ids_assign] at inside
    refine ⟨inside, ?_, ?_⟩
    · rintro rfl
      omega
    · intro path
      have higher := lt_of_assign dag ranked path
      omega
  · intro allowed
    obtain ⟨rank, height, ranked, above, apart⟩ :=
      exists_lifted_rank dag target
    -- The target itself moves up to just below what is above it.
    let raised : ν → Nat := fun id =>
      if id = target then height else rank id
    have old : ∀ {id : ν}, id ≠ target → raised id = rank id :=
      fun different => if_neg different
    have ofTarget : raised target = height := if_pos rfl
    refine IsDag.of_ranked raised ?_ ?_ ?_
    · rw [ids_assign]
      exact dag.distinct
    · intro node member dependency among
      rw [ids_assign]
      rcases List.mem_map.mp member with ⟨node, isOld, rfl⟩
      dsimp only [Node.assign] at among
      split at among
      · exact (allowed dependency among).1
      · exact dag.closed node isOld dependency among
    · intro node member dependency among
      rcases List.mem_map.mp member with ⟨node, isOld, rfl⟩
      have here := id_mem isOld
      dsimp only [Node.assign] at among ⊢
      split at among
      · rename_i isTarget
        obtain ⟨inside, different, noPath⟩ := allowed dependency among
        have notAbove := mt (above dependency inside).mp noPath
        have apartHere := apart dependency inside
        rw [old different, isTarget, ofTarget]
        omega
      · rename_i isOther
        rw [old isOther]
        by_cases onTarget : dependency = target
        · rw [onTarget] at among
          rw [onTarget, ofTarget]
          exact (above node.id here).mpr
            (Relation.TransGen.single ⟨node, isOld, rfl, among⟩)
        · rw [old onTarget]
          exact ranked node isOld dependency among

theorem ids_rename_of_ne
    {nodes : List (Node ν)} {target new id : ν}
    (different : id ≠ target) (isNot : id ≠ new) :
    id ∈ ids (rename nodes target new) ↔ id ∈ ids nodes := by
  rw [ids, List.mem_map, ids, List.mem_map]
  constructor
  · rintro ⟨moved, member, same⟩
    rcases List.mem_map.mp member with ⟨node, isOld, rfl⟩
    dsimp only at same
    split at same
    · exact absurd same.symm isNot
    · exact ⟨node, isOld, same⟩
  · rintro ⟨node, isOld, rfl⟩
    exact ⟨_, List.mem_map.mpr ⟨node, isOld, rfl⟩, if_neg different⟩

theorem rename_self (nodes : List (Node ν)) (target : ν) :
    rename nodes target target = nodes := by
  have kept : ∀ node : Node ν,
      (⟨if node.id = target then target else node.id,
        node.dependencies⟩ : Node ν) = node := by
    intro node
    by_cases isTarget : node.id = target
    · rw [if_pos isTarget, ← isTarget]
    · rw [if_neg isTarget]
  simp only [rename, kept, List.map_id']

theorem nodup_ids_rename
    {nodes : List (Node ν)} (distinct : (ids nodes).Nodup)
    {target new : ν} (fresh : new ∉ ids nodes) :
    (ids (rename nodes target new)).Nodup := by
  rw [ids, rename, List.map_map]
  apply List.Nodup.map_on ?_ (List.Nodup.of_map Node.id distinct)
  intro first isFirst second isSecond same
  apply eq_of_id_eq distinct isFirst isSecond
  dsimp only [Function.comp] at same
  by_cases firstIs : first.id = target
  · by_cases secondIs : second.id = target
    · rw [firstIs, secondIs]
    · rw [if_pos firstIs, if_neg secondIs] at same
      rw [same] at fresh
      exact absurd (id_mem isSecond) fresh
  · by_cases secondIs : second.id = target
    · rw [if_neg firstIs, if_pos secondIs] at same
      rw [← same] at fresh
      exact absurd (id_mem isFirst) fresh
    · rw [if_neg firstIs, if_neg secondIs] at same
      exact same

theorem isDag_rename_iff
    {nodes : List (Node ν)} (dag : IsDag nodes)
    {target : ν} (present : target ∈ ids nodes) (new : ν) :
    IsDag (rename nodes target new) ↔
      new = target ∨ (new ∉ ids nodes ∧
        ∀ node ∈ nodes, target ∉ node.dependencies) := by
  by_cases unchanged : new = target
  · rw [unchanged, rename_self]
    exact ⟨fun _ => Or.inl rfl, fun _ => dag⟩
  rcases List.mem_map.mp present with ⟨renamed, isRenamed, sameId⟩
  have moved : ∀ node ∈ nodes,
      (⟨if node.id = target then new else node.id,
        node.dependencies⟩ : Node ν) ∈ rename nodes target new :=
    fun node member => List.mem_map.mpr ⟨node, member, rfl⟩
  constructor
  · intro result
    refine Or.inr ⟨?_, ?_⟩
    · intro taken
      rcases List.mem_map.mp taken with ⟨other, isOther, sameNew⟩
      have otherKept : other.id ≠ target := by
        rw [sameNew]
        exact unchanged
      have distinct := result.distinct
      rw [ids, rename, List.map_map] at distinct
      have sameNode : other = renamed := by
        apply List.inj_on_of_nodup_map distinct isOther isRenamed
        dsimp only [Function.comp]
        rw [if_neg otherKept, if_pos sameId]
        exact sameNew
      rw [sameNode] at otherKept
      exact otherKept sameId
    · intro node member named
      have inside := result.closed _ (moved node member) target named
      rcases List.mem_map.mp inside with ⟨other, isOther, same⟩
      rcases List.mem_map.mp isOther with ⟨original, _, rfl⟩
      dsimp only at same
      split at same
      · exact unchanged same
      · rename_i notTarget
        exact notTarget same
  · rintro (same | ⟨fresh, unnamed⟩)
    · exact absurd same unchanged
    · obtain ⟨rank, ranked⟩ := dag.exists_rank
      let carried : ν → Nat := fun id =>
        if id = new then rank target else rank id
      have old : ∀ {id : ν}, id ∈ ids nodes → carried id = rank id := by
        intro id inside
        apply if_neg
        rintro rfl
        exact fresh inside
      refine IsDag.of_ranked carried ?_ ?_ ?_
      · exact nodup_ids_rename dag.distinct fresh
      · intro node member dependency among
        rcases List.mem_map.mp member with ⟨node, isOld, rfl⟩
        have inside := dag.closed node isOld dependency among
        refine (ids_rename_of_ne ?_ ?_).mpr inside
        · rintro rfl
          exact unnamed node isOld among
        · rintro rfl
          exact fresh inside
      · intro node member dependency among
        rcases List.mem_map.mp member with ⟨node, isOld, rfl⟩
        have rises := ranked node isOld dependency among
        dsimp only
        rw [old (dag.closed node isOld dependency among)]
        by_cases isTarget : node.id = target
        · rw [if_pos isTarget]
          have ofNew : carried new = rank target := if_pos rfl
          rw [ofNew, ← isTarget]
          exact rises
        · rw [if_neg isTarget, old (id_mem isOld)]
          exact rises

end Edits

end Agentcy.Library.Dag
