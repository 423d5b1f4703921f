import Agentcy.Library.DagPaths

/-!
# Roots and sinks of an edited DAG

A root has no dependencies and a sink has none that depend on it.  Where both
are marked, an edit of the nodes that only adds or takes away marks together
with the node keeps them right under an exact condition.
-/

namespace Agentcy.Library.Dag

universe u

variable {ν : Type u}

def Root (nodes : List (Node ν)) (id : ν) : Prop :=
  id ∈ ids nodes ∧ ∀ dependency, ¬ DependsOn nodes dependency id

def Sink (nodes : List (Node ν)) (id : ν) : Prop :=
  id ∈ ids nodes ∧ ∀ other, ¬ DependsOn nodes id other

/-- The one mark is on the roots, the other on the sinks. -/
structure Marks (entry final : ν → Prop) (nodes : List (Node ν)) :
    Prop where
  entries : ∀ id, entry id ↔ Root nodes id
  finals : ∀ id, final id ↔ Sink nodes id

theorem Marks.perm
    {entry final : ν → Prop} {nodes others : List (Node ν)}
    (marks : Marks entry final nodes) (same : nodes.Perm others) :
    Marks entry final others := by
  have sameIds : (ids nodes).Perm (ids others) := same.map Node.id
  constructor
  · intro id
    rw [marks.entries, Root, Root, dependsOn_of_perm same,
      sameIds.mem_iff]
  · intro id
    rw [marks.finals, Sink, Sink, dependsOn_of_perm same, sameIds.mem_iff]

theorem marks_perm_iff
    {entry final : ν → Prop} {nodes others : List (Node ν)}
    (same : nodes.Perm others) :
    Marks entry final nodes ↔ Marks entry final others :=
  ⟨fun marks => marks.perm same, fun marks => marks.perm same.symm⟩

/-- The marks once a new node has come, with or without the mark. -/
def Added (mark : ν → Prop) (new : ν) (marked : Prop) (id : ν) : Prop :=
  mark id ∨ (id = new ∧ marked)

theorem added_iff_everywhere
    {mark after : ν → Prop} {new : ν} {marked : Prop}
    (unmarked : ¬ mark new) :
    (∀ id, Added mark new marked id ↔ after id) ↔
      (marked ↔ after new) ∧ ∀ id, id ≠ new → (mark id ↔ after id) := by
  unfold Added
  constructor
  · intro everywhere
    constructor
    · rw [← everywhere new]
      exact ⟨fun isMarked => Or.inr ⟨rfl, isMarked⟩,
        fun added => (added.resolve_left unmarked).2⟩
    · intro id other
      rw [← everywhere id]
      exact ⟨Or.inl, fun added => added.resolve_right
        fun new => other new.1⟩
  · rintro ⟨atNew, elsewhere⟩ id
    by_cases isNew : id = new
    · subst isNew
      rw [← atNew]
      exact ⟨fun added => (added.resolve_left unmarked).2,
        fun isMarked => Or.inr ⟨rfl, isMarked⟩⟩
    · rw [← elsewhere id isNew]
      exact ⟨fun added => added.resolve_right fun new => isNew new.1,
        Or.inl⟩

variable [DecidableEq ν]
  {nodes : List (Node ν)} {target : ν} {new : Node ν}
  {entry final : ν → Prop} {newEntry newFinal : Prop}

theorem root_insertAfter_iff (fresh : new.id ∉ ids nodes) {id : ν} :
    Root (insertAfter nodes target new) id ↔ Root nodes id := by
  rw [Root, ids_insertAfter]
  constructor
  · rintro ⟨inside, noEdge⟩
    rcases List.mem_cons.mp inside with rfl | old
    · exact absurd
        (dependsOn_insertAfter_iff.mpr (Or.inl ⟨rfl, Or.inr rfl⟩))
        (noEdge target)
    · refine ⟨old, ?_⟩
      intro dependency edge
      by_cases onTarget : dependency = target
      · rw [onTarget] at edge
        exact noEdge new.id
          (dependsOn_insertAfter_iff.mpr (Or.inr (Or.inr ⟨rfl, edge⟩)))
      · exact noEdge dependency
          (dependsOn_insertAfter_iff.mpr
            (Or.inr (Or.inl ⟨edge, onTarget⟩)))
  · rintro ⟨old, noEdge⟩
    refine ⟨List.mem_cons_of_mem _ old, ?_⟩
    intro dependency edge
    rcases dependsOn_insertAfter_iff.mp edge with
      ⟨rfl, _⟩ | ⟨kept, _⟩ | ⟨_, onTarget⟩
    · exact fresh old
    · exact noEdge dependency kept
    · exact noEdge target onTarget

theorem sink_insertAfter_iff
    (dag : IsDag nodes) (present : target ∈ ids nodes)
    (fresh : new.id ∉ ids nodes)
    (closed : ∀ dependency ∈ new.dependencies, dependency ∈ ids nodes)
    {id : ν} :
    Sink (insertAfter nodes target new) id ↔
      (id = new.id ∧ Sink nodes target) ∨
        (Sink nodes id ∧ id ≠ target ∧ id ∉ new.dependencies) := by
  rw [Sink, ids_insertAfter]
  constructor
  · rintro ⟨inside, noEdge⟩
    rcases List.mem_cons.mp inside with rfl | old
    · refine Or.inl ⟨rfl, present, ?_⟩
      intro other edge
      exact noEdge other
        (dependsOn_insertAfter_iff.mpr (Or.inr (Or.inr ⟨rfl, edge⟩)))
    · have different : id ≠ target := by
        intro isTarget
        exact noEdge new.id
          (dependsOn_insertAfter_iff.mpr (Or.inl ⟨rfl, Or.inr isTarget⟩))
      refine Or.inr ⟨⟨old, ?_⟩, different, ?_⟩
      · intro other edge
        exact noEdge other
          (dependsOn_insertAfter_iff.mpr
            (Or.inr (Or.inl ⟨edge, different⟩)))
      · intro own
        exact noEdge new.id
          (dependsOn_insertAfter_iff.mpr (Or.inl ⟨rfl, Or.inl own⟩))
  · rintro (⟨rfl, _, noEdge⟩ | ⟨⟨old, noEdge⟩, different, notOwn⟩)
    · refine ⟨List.mem_cons_self, ?_⟩
      intro other edge
      rcases dependsOn_insertAfter_iff.mp edge with
        ⟨_, own | same⟩ | ⟨kept, _⟩ | ⟨_, onTarget⟩
      · exact fresh (closed new.id own)
      · rw [same] at fresh
        exact fresh present
      · exact fresh (dag.dependency_mem kept)
      · exact noEdge other onTarget
    · refine ⟨List.mem_cons_of_mem _ old, ?_⟩
      intro other edge
      rcases dependsOn_insertAfter_iff.mp edge with
        ⟨_, own | same⟩ | ⟨kept, _⟩ | ⟨rfl, _⟩
      · exact notOwn own
      · exact different same
      · exact noEdge other kept
      · exact fresh old

theorem marks_insertAfter_iff
    (dag : IsDag nodes) (present : target ∈ ids nodes)
    (fresh : new.id ∉ ids nodes)
    (closed : ∀ dependency ∈ new.dependencies, dependency ∈ ids nodes)
    (marks : Marks entry final nodes) :
    Marks (Added entry new.id newEntry) (Added final new.id newFinal)
        (insertAfter nodes target new) ↔
      ¬ newEntry ∧ ¬ newFinal ∧ ¬ Sink nodes target ∧
        ∀ dependency ∈ new.dependencies, ¬ Sink nodes dependency := by
  have notEntry : ¬ entry new.id := fun isEntry =>
    fresh ((marks.entries _).mp isEntry).1
  have notFinal : ¬ final new.id := fun isFinal =>
    fresh ((marks.finals _).mp isFinal).1
  constructor
  · intro after
    have entries := (added_iff_everywhere notEntry).mp after.entries
    have finals := (added_iff_everywhere notFinal).mp after.finals
    -- A mark on a sink in front of the new node is wrong afterwards.
    have isNoSink : ∀ id, id = target ∨ id ∈ new.dependencies →
        ¬ Sink nodes id := by
      intro id inFront sink
      have different : id ≠ new.id := by
        rintro rfl
        exact fresh sink.1
      rw [← marks.finals, finals.2 id different,
        sink_insertAfter_iff dag present fresh closed] at sink
      rcases sink with ⟨isNew, _⟩ | ⟨_, notTarget, notOwn⟩
      · exact different isNew
      · exact inFront.elim notTarget notOwn
    refine ⟨?_, ?_, isNoSink target (Or.inl rfl),
      fun dependency own => isNoSink dependency (Or.inr own)⟩
    · rw [entries.1, root_insertAfter_iff fresh]
      exact fun root => fresh root.1
    · rw [finals.1, sink_insertAfter_iff dag present fresh closed]
      rintro (⟨_, sink⟩ | ⟨sink, _⟩)
      · exact isNoSink target (Or.inl rfl) sink
      · exact fresh sink.1
  · rintro ⟨noEntry, noFinal, targetLeads, ownLead⟩
    constructor
    · rw [added_iff_everywhere notEntry]
      refine ⟨?_, fun id _ => ?_⟩
      · rw [root_insertAfter_iff fresh]
        exact ⟨fun isEntry => absurd isEntry noEntry,
          fun root => absurd root.1 fresh⟩
      · rw [root_insertAfter_iff fresh]
        exact marks.entries id
    · rw [added_iff_everywhere notFinal]
      refine ⟨?_, fun id other => ?_⟩
      · rw [sink_insertAfter_iff dag present fresh closed]
        constructor
        · intro isFinal
          exact absurd isFinal noFinal
        · rintro (⟨_, sink⟩ | ⟨sink, _⟩)
          · exact absurd sink targetLeads
          · exact absurd sink.1 fresh
      · rw [sink_insertAfter_iff dag present fresh closed, marks.finals]
        constructor
        · intro sink
          refine Or.inr ⟨sink, ?_, fun own => ownLead id own sink⟩
          rintro rfl
          exact targetLeads sink
        · rintro (⟨isNew, _⟩ | ⟨sink, _⟩)
          · exact absurd isNew other
          · exact sink

/-! ## A node put before another one -/

theorem root_insertBefore_iff
    (distinct : (ids nodes).Nodup) (present : target ∈ ids nodes)
    (fresh : new.id ∉ ids nodes) {id : ν} :
    Root (insertBefore nodes target new) id ↔
      (id = new.id ∧ Root nodes target) ∨
        (Root nodes id ∧ id ≠ target) := by
  have splits := fun {dependency id} =>
    @dependsOn_insertBefore_iff _ _ nodes distinct target dependency id
      present new
  rw [Root, ids_insertBefore]
  constructor
  · rintro ⟨inside, noEdge⟩
    rcases List.mem_cons.mp inside with rfl | old
    · refine Or.inl ⟨rfl, present, ?_⟩
      intro dependency edge
      exact noEdge dependency (splits.mpr (Or.inl ⟨rfl, edge⟩))
    · have different : id ≠ target := by
        intro isTarget
        exact noEdge new.id
          (splits.mpr (Or.inr (Or.inr ⟨rfl, isTarget⟩)))
      refine Or.inr ⟨⟨old, ?_⟩, different⟩
      intro dependency edge
      exact noEdge dependency
        (splits.mpr (Or.inr (Or.inl ⟨edge, different⟩)))
  · rintro (⟨rfl, _, noEdge⟩ | ⟨⟨old, noEdge⟩, different⟩)
    · refine ⟨List.mem_cons_self, ?_⟩
      intro dependency edge
      rcases splits.mp edge with ⟨_, leads⟩ | ⟨kept, _⟩ | ⟨_, same⟩
      · exact noEdge dependency leads
      · exact fresh kept.id_mem
      · rw [same] at fresh
        exact fresh present
    · refine ⟨List.mem_cons_of_mem _ old, ?_⟩
      intro dependency edge
      rcases splits.mp edge with ⟨rfl, _⟩ | ⟨kept, _⟩ | ⟨_, same⟩
      · exact fresh old
      · exact noEdge dependency kept
      · exact different same

theorem sink_insertBefore_iff
    (distinct : (ids nodes).Nodup) (present : target ∈ ids nodes)
    (fresh : new.id ∉ ids nodes) {id : ν} :
    Sink (insertBefore nodes target new) id ↔ Sink nodes id := by
  have splits := fun {dependency id} =>
    @dependsOn_insertBefore_iff _ _ nodes distinct target dependency id
      present new
  rw [Sink, ids_insertBefore]
  constructor
  · rintro ⟨inside, noEdge⟩
    rcases List.mem_cons.mp inside with rfl | old
    · exact absurd (splits.mpr (Or.inr (Or.inr ⟨rfl, rfl⟩)))
        (noEdge target)
    · refine ⟨old, ?_⟩
      intro other edge
      by_cases isTarget : other = target
      · rw [isTarget] at edge
        exact noEdge new.id (splits.mpr (Or.inl ⟨rfl, edge⟩))
      · exact noEdge other
          (splits.mpr (Or.inr (Or.inl ⟨edge, isTarget⟩)))
  · rintro ⟨old, noEdge⟩
    refine ⟨List.mem_cons_of_mem _ old, ?_⟩
    intro other edge
    rcases splits.mp edge with ⟨_, leads⟩ | ⟨kept, _⟩ | ⟨rfl, _⟩
    · exact noEdge target leads
    · exact noEdge other kept
    · exact fresh old

theorem marks_insertBefore_iff
    (distinct : (ids nodes).Nodup) (present : target ∈ ids nodes)
    (fresh : new.id ∉ ids nodes) (marks : Marks entry final nodes) :
    Marks (Added entry new.id newEntry) (Added final new.id newFinal)
        (insertBefore nodes target new) ↔
      ¬ newEntry ∧ ¬ newFinal ∧ ¬ Root nodes target := by
  have notEntry : ¬ entry new.id := fun isEntry =>
    fresh ((marks.entries _).mp isEntry).1
  have notFinal : ¬ final new.id := fun isFinal =>
    fresh ((marks.finals _).mp isFinal).1
  constructor
  · intro after
    have entries := (added_iff_everywhere notEntry).mp after.entries
    have finals := (added_iff_everywhere notFinal).mp after.finals
    have isNoRoot : ¬ Root nodes target := by
      intro root
      have different : target ≠ new.id := by
        intro same
        rw [same] at present
        exact fresh present
      rw [← marks.entries, entries.2 target different,
        root_insertBefore_iff distinct present fresh] at root
      rcases root with ⟨isNew, _⟩ | ⟨_, notTarget⟩
      · exact different isNew
      · exact notTarget rfl
    refine ⟨?_, ?_, isNoRoot⟩
    · rw [entries.1, root_insertBefore_iff distinct present fresh]
      rintro (⟨_, root⟩ | ⟨root, _⟩)
      · exact isNoRoot root
      · exact fresh root.1
    · rw [finals.1, sink_insertBefore_iff distinct present fresh]
      exact fun sink => fresh sink.1
  · rintro ⟨noEntry, noFinal, isNoRoot⟩
    constructor
    · rw [added_iff_everywhere notEntry]
      refine ⟨?_, fun id other => ?_⟩
      · rw [root_insertBefore_iff distinct present fresh]
        constructor
        · intro isEntry
          exact absurd isEntry noEntry
        · rintro (⟨_, root⟩ | ⟨root, _⟩)
          · exact absurd root isNoRoot
          · exact absurd root.1 fresh
      · rw [root_insertBefore_iff distinct present fresh, marks.entries]
        constructor
        · intro root
          refine Or.inr ⟨root, ?_⟩
          rintro rfl
          exact isNoRoot root
        · rintro (⟨isNew, _⟩ | ⟨root, _⟩)
          · exact absurd isNew other
          · exact root
    · rw [added_iff_everywhere notFinal]
      refine ⟨?_, fun id _ => ?_⟩
      · rw [sink_insertBefore_iff distinct present fresh]
        exact ⟨fun isFinal => absurd isFinal noFinal,
          fun sink => absurd sink.1 fresh⟩
      · rw [sink_insertBefore_iff distinct present fresh]
        exact marks.finals id

theorem root_remove_iff
    (distinct : (ids nodes).Nodup) (present : target ∈ ids nodes)
    {id : ν} :
    Root (remove nodes target) id ↔
      (id ∈ ids nodes ∧ id ≠ target) ∧
        (∀ dependency, DependsOn nodes dependency id →
          dependency = target) ∧
        (DependsOn nodes target id → Root nodes target) := by
  have splits := fun {dependency id} =>
    @dependsOn_remove_iff _ _ nodes distinct target dependency id present
  rw [Root, ids_remove, mem_ids_filter]
  refine and_congr_right ?_
  rintro ⟨_, different⟩
  constructor
  · intro noEdge
    constructor
    · intro dependency edge
      by_contra other
      exact noEdge dependency
        (splits.mpr ⟨different, Or.inl ⟨edge, other⟩⟩)
    · intro onTarget
      refine ⟨present, ?_⟩
      intro dependency edge
      exact noEdge dependency
        (splits.mpr ⟨different, Or.inr ⟨onTarget, edge⟩⟩)
  · rintro ⟨onlyTarget, bridged⟩ dependency edge
    rcases splits.mp edge with ⟨_, ⟨kept, other⟩ | ⟨onTarget, leads⟩⟩
    · exact other (onlyTarget dependency kept)
    · exact (bridged onTarget).2 dependency leads

theorem sink_remove_iff
    (dag : IsDag nodes) (present : target ∈ ids nodes) {id : ν} :
    Sink (remove nodes target) id ↔
      (id ∈ ids nodes ∧ id ≠ target) ∧
        (∀ other, DependsOn nodes id other → other = target) ∧
        (DependsOn nodes id target → Sink nodes target) := by
  have splits := fun {dependency id} =>
    @dependsOn_remove_iff _ _ nodes dag.distinct target dependency id
      present
  rw [Sink, ids_remove, mem_ids_filter]
  refine and_congr_right ?_
  rintro ⟨_, different⟩
  constructor
  · intro noEdge
    constructor
    · intro other edge
      by_contra notTarget
      exact noEdge other
        (splits.mpr ⟨notTarget, Or.inl ⟨edge, different⟩⟩)
    · intro leads
      refine ⟨present, ?_⟩
      intro other edge
      have notTarget : other ≠ target := by
        rintro rfl
        exact dag.acyclic other (.single edge)
      exact noEdge other (splits.mpr ⟨notTarget, Or.inr ⟨edge, leads⟩⟩)
  · rintro ⟨onlyTarget, bridged⟩ other edge
    rcases splits.mp edge with
      ⟨notTarget, ⟨kept, _⟩ | ⟨onTarget, leads⟩⟩
    · exact notTarget (onlyTarget other kept)
    · exact (bridged leads).2 other onTarget

/-- The marks once a node has gone. -/
def Without (mark : ν → Prop) (target id : ν) : Prop :=
  mark id ∧ id ≠ target

theorem marks_remove_iff
    (dag : IsDag nodes) (present : target ∈ ids nodes)
    (marks : Marks entry final nodes) :
    Marks (Without entry target) (Without final target)
        (remove nodes target) ↔
      (Root nodes target → ∀ id, DependsOn nodes target id →
        ∃ dependency, dependency ≠ target ∧
          DependsOn nodes dependency id) ∧
      (Sink nodes target → ∀ id, DependsOn nodes id target →
        ∃ other, other ≠ target ∧ DependsOn nodes id other) := by
  constructor
  · intro after
    constructor
    · intro root id edge
      by_contra lone
      have different : id ≠ target := by
        rintro rfl
        exact root.2 id edge
      have isRoot : Root (remove nodes target) id := by
        rw [root_remove_iff dag.distinct present]
        refine ⟨⟨edge.id_mem, different⟩, ?_, fun _ => root⟩
        intro dependency other
        by_contra notTarget
        exact lone ⟨dependency, notTarget, other⟩
      rw [← after.entries] at isRoot
      exact ((marks.entries id).mp isRoot.1).2 target edge
    · intro sink id edge
      by_contra lone
      have different : id ≠ target := by
        rintro rfl
        exact sink.2 id edge
      have isSink : Sink (remove nodes target) id := by
        rw [sink_remove_iff dag present]
        refine ⟨⟨dag.dependency_mem edge, different⟩, ?_, fun _ => sink⟩
        intro other leads
        by_contra notTarget
        exact lone ⟨other, notTarget, leads⟩
      rw [← after.finals] at isSink
      exact ((marks.finals id).mp isSink.1).2 target edge
  · rintro ⟨othersBelow, othersAbove⟩
    constructor
    · intro id
      rw [Without, marks.entries, root_remove_iff dag.distinct present]
      constructor
      · rintro ⟨⟨inside, noEdge⟩, different⟩
        exact ⟨⟨inside, different⟩,
          fun dependency edge => absurd edge (noEdge dependency),
          fun edge => absurd edge (noEdge target)⟩
      · rintro ⟨⟨inside, different⟩, onlyTarget, bridged⟩
        refine ⟨⟨inside, ?_⟩, different⟩
        intro dependency edge
        rw [onlyTarget dependency edge] at edge
        obtain ⟨other, notTarget, isEdge⟩ :=
          othersBelow (bridged edge) id edge
        exact notTarget (onlyTarget other isEdge)
    · intro id
      rw [Without, marks.finals, sink_remove_iff dag present]
      constructor
      · rintro ⟨⟨inside, noEdge⟩, different⟩
        exact ⟨⟨inside, different⟩,
          fun other edge => absurd edge (noEdge other),
          fun edge => absurd edge (noEdge target)⟩
      · rintro ⟨⟨inside, different⟩, onlyTarget, bridged⟩
        refine ⟨⟨inside, ?_⟩, different⟩
        intro other edge
        rw [onlyTarget other edge] at edge
        obtain ⟨another, notTarget, isEdge⟩ :=
          othersAbove (bridged edge) id edge
        exact notTarget (onlyTarget another isEdge)

end Agentcy.Library.Dag
