import Agentcy.Library.Dag

/-!
# Paths through an edited DAG

A node that is put next to another one, without dependencies of its own, lies
on paths that were there before, and a removed node is bridged.  Between the
other nodes there are paths exactly where there were paths.
-/

namespace Agentcy.Library.Dag

universe u

variable {ν : Type u}

theorem dependsOn_of_perm
    {nodes others : List (Node ν)} (same : nodes.Perm others) :
    DependsOn nodes = DependsOn others := by
  funext dependency id
  apply propext
  constructor
  · rintro ⟨node, member, rest⟩
    exact ⟨node, same.mem_iff.mp member, rest⟩
  · rintro ⟨node, member, rest⟩
    exact ⟨node, same.mem_iff.mpr member, rest⟩

theorem DependsOn.id_mem
    {nodes : List (Node ν)} {dependency id : ν}
    (edge : DependsOn nodes dependency id) : id ∈ ids nodes := by
  obtain ⟨node, member, rfl, _⟩ := edge
  exact Dag.id_mem member

theorem IsDag.dependency_mem
    {nodes : List (Node ν)} (dag : IsDag nodes) {dependency id : ν}
    (edge : DependsOn nodes dependency id) : dependency ∈ ids nodes := by
  obtain ⟨node, member, _, among⟩ := edge
  exact dag.closed node member dependency among

variable [DecidableEq ν]

theorem dependsOn_insertAfter_iff
    {nodes : List (Node ν)} {target dependency id : ν} {new : Node ν} :
    DependsOn (insertAfter nodes target new) dependency id ↔
      (id = new.id ∧
          (dependency ∈ new.dependencies ∨ dependency = target)) ∨
        (DependsOn nodes dependency id ∧ dependency ≠ target) ∨
        (dependency = new.id ∧ DependsOn nodes target id) := by
  constructor
  · rintro ⟨node, member, rfl, among⟩
    rcases List.mem_cons.mp member with rfl | moved
    · exact Or.inl ⟨rfl, mem_following.mp among⟩
    · obtain ⟨old, isOld, rfl⟩ := List.mem_map.mp moved
      rcases mem_redirect.mp among with
        ⟨kept, different⟩ | ⟨rfl, onTarget⟩
      · exact Or.inr (Or.inl ⟨⟨old, isOld, rfl, kept⟩, different⟩)
      · exact Or.inr (Or.inr ⟨rfl, old, isOld, rfl, onTarget⟩)
  · have moved : ∀ old ∈ nodes, old.redirect target new.id ∈
        insertAfter nodes target new := fun old isOld =>
      List.mem_cons_of_mem _ (List.mem_map.mpr ⟨old, isOld, rfl⟩)
    rintro (⟨rfl, own⟩ | ⟨⟨old, isOld, rfl, kept⟩, different⟩ |
      ⟨rfl, old, isOld, rfl, onTarget⟩)
    · exact ⟨_, List.mem_cons_self, rfl, mem_following.mpr own⟩
    · exact ⟨_, moved old isOld, rfl,
        mem_redirect.mpr (Or.inl ⟨kept, different⟩)⟩
    · exact ⟨_, moved old isOld, rfl,
        mem_redirect.mpr (Or.inr ⟨rfl, onTarget⟩)⟩

theorem dependsOn_insertAfter_plain_iff
    {nodes : List (Node ν)} {target dependency id : ν} {new : Node ν}
    (plain : new.dependencies = []) :
    DependsOn (insertAfter nodes target new) dependency id ↔
      (id = new.id ∧ dependency = target) ∨
        (DependsOn nodes dependency id ∧ dependency ≠ target) ∨
        (dependency = new.id ∧ DependsOn nodes target id) := by
  rw [dependsOn_insertAfter_iff, plain]
  simp

theorem dependsOn_insertBefore_iff
    {nodes : List (Node ν)} (distinct : (ids nodes).Nodup)
    {target dependency id : ν} (present : target ∈ ids nodes)
    {new : Node ν} :
    DependsOn (insertBefore nodes target new) dependency id ↔
      (id = new.id ∧ DependsOn nodes dependency target) ∨
        (DependsOn nodes dependency id ∧ id ≠ target) ∨
        (dependency = new.id ∧ id = target) := by
  have inherited := mem_dependenciesOf_iff distinct present dependency
  constructor
  · rintro ⟨node, member, rfl, among⟩
    rcases List.mem_cons.mp member with rfl | moved
    · exact Or.inl ⟨rfl, inherited.mp among⟩
    · obtain ⟨old, isOld, rfl⟩ := List.mem_map.mp moved
      dsimp only [Node.assign] at among ⊢
      split at among
      · rename_i isTarget
        exact Or.inr (Or.inr ⟨List.mem_singleton.mp among, isTarget⟩)
      · rename_i other
        exact Or.inr (Or.inl ⟨⟨old, isOld, rfl, among⟩, other⟩)
  · rintro (⟨rfl, leads⟩ | ⟨⟨old, isOld, rfl, among⟩, other⟩ |
      ⟨rfl, rfl⟩)
    · exact ⟨_, List.mem_cons_self, rfl, inherited.mpr leads⟩
    · refine ⟨old.assign target [new.id],
        List.mem_cons_of_mem _ (List.mem_map.mpr ⟨old, isOld, rfl⟩), rfl,
        ?_⟩
      dsimp only [Node.assign]
      rwa [if_neg other]
    · obtain ⟨old, isOld, isTarget⟩ := List.mem_map.mp present
      refine ⟨old.assign id [new.id],
        List.mem_cons_of_mem _ (List.mem_map.mpr ⟨old, isOld, rfl⟩),
        isTarget, ?_⟩
      dsimp only [Node.assign]
      rw [if_pos isTarget]
      exact List.mem_cons_self

theorem mem_bypass_iff
    {target : ν} {inherited : List ν} {node : Node ν} {dependency : ν} :
    dependency ∈ (node.bypass target inherited).dependencies ↔
      (dependency ∈ node.dependencies ∧ dependency ≠ target) ∨
        (target ∈ node.dependencies ∧ dependency ∈ inherited) := by
  constructor
  · exact mem_bypass
  · dsimp only [Node.bypass]
    rintro (⟨named, different⟩ | ⟨onTarget, joined⟩)
    · split
      · rw [mem_keepFirst, List.mem_append, List.mem_filter]
        exact Or.inl ⟨named, decide_eq_true different⟩
      · exact named
    · rw [if_pos onTarget, mem_keepFirst, List.mem_append]
      exact Or.inr joined

theorem dependsOn_remove_iff
    {nodes : List (Node ν)} (distinct : (ids nodes).Nodup)
    {target dependency id : ν} (present : target ∈ ids nodes) :
    DependsOn (remove nodes target) dependency id ↔
      id ≠ target ∧
        ((DependsOn nodes dependency id ∧ dependency ≠ target) ∨
          (DependsOn nodes target id ∧
            DependsOn nodes dependency target)) := by
  have inherited := mem_dependenciesOf_iff distinct present dependency
  constructor
  · rintro ⟨node, member, rfl, among⟩
    obtain ⟨old, kept, rfl⟩ := List.mem_map.mp member
    obtain ⟨isOld, other⟩ := List.mem_filter.mp kept
    refine ⟨of_decide_eq_true other, ?_⟩
    rcases mem_bypass among with ⟨named, different⟩ | ⟨onTarget, joined⟩
    · exact Or.inl ⟨⟨old, isOld, rfl, named⟩, different⟩
    · exact Or.inr ⟨⟨old, isOld, rfl, onTarget⟩, inherited.mp joined⟩
  · rintro ⟨other, edges⟩
    have moved : ∀ old ∈ nodes, old.id = id →
        old.bypass target (dependenciesOf nodes target) ∈
          remove nodes target := by
      rintro old isOld rfl
      exact List.mem_map.mpr
        ⟨old, List.mem_filter.mpr ⟨isOld, decide_eq_true other⟩, rfl⟩
    rcases edges with ⟨⟨old, isOld, same, named⟩, different⟩ |
        ⟨⟨old, isOld, same, onTarget⟩, leads⟩
    · exact ⟨_, moved old isOld same, same,
        mem_bypass_iff.mpr (Or.inl ⟨named, different⟩)⟩
    · exact ⟨_, moved old isOld same, same,
        mem_bypass_iff.mpr (Or.inr ⟨onTarget, inherited.mpr leads⟩)⟩

section Paths

variable {nodes : List (Node ν)} {target : ν} {new : Node ν}

/-- A path between two old nodes, of which one may end at the new node just
behind the target. -/
theorem path_of_insertAfter
    (dag : IsDag nodes) (fresh : new.id ∉ ids nodes)
    (plain : new.dependencies = []) {first last : ν}
    (isOld : first ∈ ids nodes)
    (path : Relation.TransGen (DependsOn (insertAfter nodes target new))
      first last) :
    (last = new.id ∧
        Relation.ReflTransGen (DependsOn nodes) first target) ∨
      (last ≠ new.id ∧
        Relation.TransGen (DependsOn nodes) first last) := by
  have notNew : ∀ {id}, DependsOn nodes target id ∨
      (∃ dependency, DependsOn nodes dependency id) → id ≠ new.id := by
    rintro id (edge | ⟨_, edge⟩) rfl
    · exact fresh edge.id_mem
    · exact fresh edge.id_mem
  induction path with
  | single edge =>
      rcases (dependsOn_insertAfter_plain_iff plain).mp edge with
        ⟨rfl, rfl⟩ | ⟨kept, _⟩ | ⟨rfl, _⟩
      · exact Or.inl ⟨rfl, .refl⟩
      · exact Or.inr ⟨notNew (Or.inr ⟨_, kept⟩), .single kept⟩
      · exact absurd isOld fresh
  | @tail middle last _ edge inductionHypothesis =>
      rcases (dependsOn_insertAfter_plain_iff plain).mp edge with
        ⟨rfl, rfl⟩ | ⟨kept, _⟩ | ⟨rfl, onTarget⟩
      · rcases inductionHypothesis with ⟨_, here⟩ | ⟨_, here⟩
        · exact Or.inl ⟨rfl, here⟩
        · exact Or.inl ⟨rfl, here.to_reflTransGen⟩
      · rcases inductionHypothesis with ⟨rfl, _⟩ | ⟨_, here⟩
        · exact absurd (dag.dependency_mem kept) fresh
        · exact Or.inr ⟨notNew (Or.inr ⟨_, kept⟩), here.tail kept⟩
      · rcases inductionHypothesis with ⟨_, here⟩ | ⟨different, _⟩
        · exact Or.inr ⟨notNew (Or.inl onTarget),
            Relation.TransGen.tail' here onTarget⟩
        · exact absurd rfl different

theorem transGen_insertAfter_iff
    (dag : IsDag nodes) (fresh : new.id ∉ ids nodes)
    (plain : new.dependencies = []) {first last : ν}
    (isFirst : first ∈ ids nodes) (isLast : last ∈ ids nodes) :
    Relation.TransGen (DependsOn (insertAfter nodes target new))
        first last ↔
      Relation.TransGen (DependsOn nodes) first last := by
  constructor
  · intro path
    rcases path_of_insertAfter dag fresh plain isFirst path with
      ⟨rfl, _⟩ | ⟨_, old⟩
    · exact absurd isLast fresh
    · exact old
  · intro path
    refine Relation.TransGen.closed ?_ _ _ path
    intro dependency id edge
    have splits := fun {dependency id} =>
      @dependsOn_insertAfter_plain_iff _ _ nodes target dependency id new
        plain
    by_cases same : dependency = target
    · subst same
      exact Relation.TransGen.head (splits.mpr (Or.inl ⟨rfl, rfl⟩))
        (.single (splits.mpr (Or.inr (Or.inr ⟨rfl, edge⟩))))
    · exact .single (splits.mpr (Or.inr (Or.inl ⟨edge, same⟩)))

theorem path_of_insertBefore
    (dag : IsDag nodes) (present : target ∈ ids nodes)
    (fresh : new.id ∉ ids nodes) {first last : ν}
    (isOld : first ∈ ids nodes)
    (path : Relation.TransGen (DependsOn (insertBefore nodes target new))
      first last) :
    (last = new.id ∧ Relation.TransGen (DependsOn nodes) first target) ∨
      (last ≠ new.id ∧
        Relation.TransGen (DependsOn nodes) first last) := by
  have splits := fun {dependency id} =>
    @dependsOn_insertBefore_iff _ _ nodes dag.distinct target dependency
      id present new
  have notNew : ∀ {id}, id ∈ ids nodes → id ≠ new.id := by
    rintro id inside rfl
    exact fresh inside
  induction path with
  | single edge =>
      rcases splits.mp edge with ⟨rfl, leads⟩ | ⟨kept, _⟩ | ⟨rfl, _⟩
      · exact Or.inl ⟨rfl, .single leads⟩
      · exact Or.inr ⟨notNew kept.id_mem, .single kept⟩
      · exact absurd isOld fresh
  | @tail middle last _ edge inductionHypothesis =>
      rcases splits.mp edge with ⟨rfl, leads⟩ | ⟨kept, _⟩ | ⟨rfl, rfl⟩
      · rcases inductionHypothesis with ⟨rfl, _⟩ | ⟨_, here⟩
        · exact absurd (dag.dependency_mem leads) fresh
        · exact Or.inl ⟨rfl, here.tail leads⟩
      · rcases inductionHypothesis with ⟨rfl, _⟩ | ⟨_, here⟩
        · exact absurd (dag.dependency_mem kept) fresh
        · exact Or.inr ⟨notNew kept.id_mem, here.tail kept⟩
      · rcases inductionHypothesis with ⟨_, here⟩ | ⟨different, _⟩
        · exact Or.inr ⟨notNew present, here⟩
        · exact absurd rfl different

theorem transGen_insertBefore_iff
    (dag : IsDag nodes) (present : target ∈ ids nodes)
    (fresh : new.id ∉ ids nodes) {first last : ν}
    (isFirst : first ∈ ids nodes) (isLast : last ∈ ids nodes) :
    Relation.TransGen (DependsOn (insertBefore nodes target new))
        first last ↔
      Relation.TransGen (DependsOn nodes) first last := by
  constructor
  · intro path
    rcases path_of_insertBefore dag present fresh isFirst path with
      ⟨rfl, _⟩ | ⟨_, old⟩
    · exact absurd isLast fresh
    · exact old
  · intro path
    refine Relation.TransGen.closed ?_ _ _ path
    intro dependency id edge
    have splits := fun {dependency id} =>
      @dependsOn_insertBefore_iff _ _ nodes dag.distinct target dependency
        id present new
    by_cases same : id = target
    · subst same
      exact Relation.TransGen.head (splits.mpr (Or.inl ⟨rfl, edge⟩))
        (.single (splits.mpr (Or.inr (Or.inr ⟨rfl, rfl⟩))))
    · exact .single (splits.mpr (Or.inr (Or.inl ⟨edge, same⟩)))

/-- A path that reaches the removed node goes on from one of its
dependencies. -/
theorem path_of_old
    (dag : IsDag nodes) (present : target ∈ ids nodes) {first last : ν}
    (other : first ≠ target)
    (path : Relation.TransGen (DependsOn nodes) first last) :
    (last = target ∧ ∃ dependency, DependsOn nodes dependency target ∧
        Relation.ReflTransGen (DependsOn (remove nodes target))
          first dependency) ∨
      (last ≠ target ∧
        Relation.TransGen (DependsOn (remove nodes target))
          first last) := by
  have splits := fun {dependency id} =>
    @dependsOn_remove_iff _ _ nodes dag.distinct target dependency id
      present
  induction path with
  | @single last edge =>
      by_cases isTarget : last = target
      · subst isTarget
        exact Or.inl ⟨rfl, first, edge, .refl⟩
      · exact Or.inr ⟨isTarget,
          .single (splits.mpr ⟨isTarget, Or.inl ⟨edge, other⟩⟩)⟩
  | @tail middle last _ edge inductionHypothesis =>
      by_cases isTarget : last = target
      · subst isTarget
        rcases inductionHypothesis with here | ⟨_, here⟩
        · exact Or.inl ⟨rfl, here.2⟩
        · exact Or.inl ⟨rfl, middle, edge, here.to_reflTransGen⟩
      · rcases inductionHypothesis with
          ⟨rfl, dependency, leads, here⟩ | ⟨different, here⟩
        · exact Or.inr ⟨isTarget, Relation.TransGen.tail' here
            (splits.mpr ⟨isTarget, Or.inr ⟨edge, leads⟩⟩)⟩
        · exact Or.inr ⟨isTarget, here.tail
            (splits.mpr ⟨isTarget, Or.inl ⟨edge, different⟩⟩)⟩

theorem transGen_remove_iff
    (dag : IsDag nodes) (present : target ∈ ids nodes) {first last : ν}
    (firstStays : first ≠ target) (lastStays : last ≠ target) :
    Relation.TransGen (DependsOn (remove nodes target)) first last ↔
      Relation.TransGen (DependsOn nodes) first last := by
  constructor
  · intro path
    refine Relation.TransGen.closed ?_ _ _ path
    intro dependency id edge
    obtain ⟨_, ⟨kept, _⟩ | ⟨onTarget, leads⟩⟩ :=
      (dependsOn_remove_iff dag.distinct present).mp edge
    · exact .single kept
    · exact .head leads (.single onTarget)
  · intro path
    rcases path_of_old dag present firstStays path with
      ⟨isTarget, _⟩ | ⟨_, kept⟩
    · exact absurd isTarget lastStays
    · exact kept

end Paths

end Agentcy.Library.Dag
