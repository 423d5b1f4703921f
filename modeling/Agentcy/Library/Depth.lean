import Mathlib.Data.List.Chain
import Mathlib.Data.List.GetD
import Agentcy.Library.Kahn

/-!
# Depths

The depth of a node is the length of the longest path that leads to it.  A
search that puts each node one level below the last of its predecessors
computes depths, whether it serves its queue in whole phases or node by node.
-/

namespace Agentcy.Library.Kahn

universe u

variable {ν : Type u}

section Paths

variable {edge : ν → ν → Prop} {start : ν → Prop}

/-- A path of so many edges leads from a start to the node. -/
inductive PathTo (edge : ν → ν → Prop) (start : ν → Prop) :
    Nat → ν → Prop
  | start {node : ν} : start node → PathTo edge start 0 node
  | step {length : Nat} {source target : ν} :
      PathTo edge start length source → edge source target →
      PathTo edge start (length + 1) target

/-- The longest path from a start to the node has so many edges. -/
def IsDepth
    (edge : ν → ν → Prop) (start : ν → Prop)
    (node : ν) (depth : Nat) : Prop :=
  PathTo edge start depth node ∧
    ∀ length, PathTo edge start length node → length ≤ depth

theorem IsDepth.unique
    {node : ν} {first second : Nat}
    (isFirst : IsDepth edge start node first)
    (isSecond : IsDepth edge start node second) :
    first = second :=
  le_antisymm (isSecond.2 first isFirst.1) (isFirst.2 second isSecond.1)

/-- An edge leads to a greater depth. -/
theorem IsDepth.lt_of_edge
    {source target : ν} {first second : Nat}
    (isFirst : IsDepth edge start source first)
    (isSecond : IsDepth edge start target second)
    (leads : edge source target) :
    first < second :=
  isSecond.2 (first + 1) (.step isFirst.1 leads)

theorem IsDepth.lt_of_transGen
    (depths : ∀ {source target}, edge source target →
      ∃ depth, IsDepth edge start target depth)
    {source target : ν} {first second : Nat}
    (isFirst : IsDepth edge start source first)
    (isSecond : IsDepth edge start target second)
    (leads : Relation.TransGen edge source target) :
    first < second := by
  induction leads generalizing second with
  | single leads =>
      exact isFirst.lt_of_edge isSecond leads
  | tail _ leads inductionHypothesis =>
      rename_i middle last path
      obtain ⟨between, isBetween⟩ :
          ∃ depth, IsDepth edge start middle depth := by
        rcases Relation.TransGen.tail'_iff.mp path with
          ⟨_, _, entering⟩
        exact depths entering
      exact (inductionHypothesis isBetween).trans
        (isBetween.lt_of_edge isSecond leads)

theorem pathTo_of_isChain
    {path : List ν} {node : ν}
    (chain : List.IsChain edge (path ++ [node])) :
    PathTo edge (fun _ => True) path.length node := by
  induction path using List.reverseRecOn generalizing node with
  | nil =>
      exact .start trivial
  | append_singleton front last inductionHypothesis =>
      rw [List.length_append, List.length_singleton]
      have joined := List.isChain_append.mp chain
      exact .step (inductionHypothesis joined.1)
        (joined.2.2 last (by simp) node (by simp))

theorem exists_isChain_of_pathTo
    {length : Nat} {node : ν}
    (path : PathTo edge start length node) :
    ∃ front : List ν, front.length = length ∧
      List.IsChain edge (front ++ [node]) := by
  induction path with
  | start _ =>
      exact ⟨[], rfl, List.IsChain.singleton _⟩
  | step _ leads inductionHypothesis =>
      rename_i source target _
      obtain ⟨front, counted, chain⟩ := inductionHypothesis
      refine ⟨front ++ [source], by simp [counted], ?_⟩
      refine chain.append (List.IsChain.singleton target) ?_
      simpa using leads

end Paths

/-- Every node of a layer but the first has a predecessor in the layer just
before, and none in its own or a later one. -/
structure Layering
    (edge : ν → ν → Prop) (start : ν → Prop)
    (member : Nat → ν → Prop) : Prop where
  first : ∀ {node}, member 0 node → start node
  earlier : ∀ {layer source target}, member layer target →
    edge source target → ∃ before < layer, member before source
  attained : ∀ {layer target}, member (layer + 1) target →
    ∃ source, edge source target ∧ member layer source

section Layers

variable {edge : ν → ν → Prop} {start : ν → Prop}
  {member : Nat → ν → Prop}

theorem Layering.pathTo
    (layering : Layering edge start member)
    {layer : Nat} {node : ν} (inside : member layer node) :
    PathTo edge start layer node := by
  induction layer generalizing node with
  | zero =>
      exact .start (layering.first inside)
  | succ layer inductionHypothesis =>
      obtain ⟨source, leads, before⟩ := layering.attained inside
      exact .step (inductionHypothesis before) leads

theorem Layering.length_le
    (layering : Layering edge start member)
    {length layer : Nat} {node : ν}
    (path : PathTo edge start length node)
    (inside : member layer node) :
    length ≤ layer := by
  induction path generalizing layer with
  | start _ =>
      exact Nat.zero_le layer
  | step _ leads inductionHypothesis =>
      obtain ⟨before, less, insideBefore⟩ := layering.earlier inside leads
      have bounded := inductionHypothesis insideBefore
      omega

/-- The number of a node's layer is its depth. -/
theorem Layering.isDepth
    (layering : Layering edge start member)
    {layer : Nat} {node : ν} (inside : member layer node) :
    IsDepth edge start node layer :=
  ⟨layering.pathTo inside,
    fun _ path => layering.length_le path inside⟩

end Layers

variable [DecidableEq ν]

theorem reached_subset
    (targets : List ν) (indegree : ν → Int) :
    reached targets indegree ⊆ targets := by
  induction targets generalizing indegree with
  | nil =>
      simp [reached]
  | cons target rest inductionHypothesis =>
      rw [reached]
      split
      · exact List.cons_subset_cons target (inductionHypothesis _)
      · exact List.subset_cons_of_subset target (inductionHypothesis _)

variable {graph : Graph ν}

omit [DecidableEq ν] in
/-- Without cycles a path meets no node twice. -/
theorem Graph.length_le_of_isChain
    (acyclic : graph.Acyclic)
    {path : List ν}
    (chain : List.IsChain graph.Edge path)
    (inside : ∀ node ∈ path, node ∈ graph.nodes) :
    path.length ≤ graph.nodes.length := by
  have ordered : path.Pairwise (Relation.TransGen graph.Edge) :=
    (chain.imp fun _ _ => Relation.TransGen.single).pairwise
  have nodup : path.Nodup := by
    apply ordered.imp
    rintro node _ leads rfl
    exact acyclic node leads
  exact (nodup.subperm inside).length_le

/-- Serving the head of the queue. -/
theorem Graph.invariant_serveNext
    {served rest : List ν} {node : ν} {indegree : ν → Int}
    (invariant : graph.Invariant
      { served := served, queue := node :: rest, indegree := indegree }) :
    graph.Invariant
      { served := served ++ [node]
        queue := (relax (graph.successors node) indegree rest).2
        indegree := (relax (graph.successors node) indegree rest).1 } :=
  @graph.invariant_serve _ _ .fifo _ node rest invariant rfl

/-- Serve all that wait, and let the nodes that get ready wait for the next
phase. -/
def servePhase
    (successors : ν → List ν) (indegree : ν → Int) (queue : List ν) :
    (ν → Int) × List ν :=
  queue.foldl
    (fun counted node => relax (successors node) counted.1 counted.2)
    (indegree, [])

def phaseLoop (successors : ν → List ν) :
    Nat → (ν → Int) → List ν → List (List ν)
  | 0, _, _ => []
  | _ + 1, _, [] => []
  | fuel + 1, indegree, node :: rest =>
      let counted := servePhase successors indegree (node :: rest)
      (node :: rest) :: phaseLoop successors fuel counted.1 counted.2

theorem relax_indegree_eq
    (targets : List ν) (indegree : ν → Int) (first second : List ν) :
    (relax targets indegree first).1 = (relax targets indegree second).1 := by
  funext node
  rw [relax_indegree, relax_indegree]

/-- A phase keeps the invariant that its single services keep. -/
theorem Graph.invariant_servePhase
    {served queue next : List ν} {indegree : ν → Int}
    (invariant : graph.Invariant
      { served := served, queue := queue ++ next, indegree := indegree }) :
    let counted := queue.foldl
      (fun counted node =>
        relax (graph.successors node) counted.1 counted.2)
      (indegree, next)
    graph.Invariant
      { served := served ++ queue
        queue := counted.2
        indegree := counted.1 } := by
  induction queue generalizing served next indegree with
  | nil =>
      simpa using invariant
  | cons node rest inductionHypothesis =>
      rw [List.cons_append] at invariant
      have stepped := graph.invariant_serveNext invariant
      rw [relax_queue, List.append_assoc, ← relax_queue,
        relax_indegree_eq _ indegree (rest ++ next) next] at stepped
      have finished := inductionHypothesis stepped
      rw [List.append_assoc, List.singleton_append] at finished
      exact finished

/-- Before each phase, the nodes of the earlier phases are served and its own
nodes wait. -/
theorem Graph.invariant_phaseLoop
    (fuel : Nat) {served queue : List ν} {indegree : ν → Int}
    (invariant : graph.Invariant
      { served := served, queue := queue, indegree := indegree })
    (enough : graph.nodes.length ≤ served.length + fuel)
    (number : Nat) :
    ∃ counters, graph.Invariant
      { served := served ++
          ((phaseLoop graph.successors fuel indegree queue).take
            number).flatten
        queue := (phaseLoop graph.successors fuel indegree queue).getD
          number []
        indegree := counters } := by
  induction fuel generalizing served queue indegree number with
  | zero =>
      have inside : served ++ queue ⊆ graph.nodes := by
        intro node among
        exact ((invariant.ready node).mp among).1
      have short : (served ++ queue).length ≤ graph.nodes.length :=
        (invariant.nodup.subperm inside).length_le
      rw [List.length_append] at short
      have empty : queue = [] := by
        apply List.eq_nil_of_length_eq_zero
        omega
      refine ⟨indegree, ?_⟩
      simpa [phaseLoop, empty] using empty ▸ invariant
  | succ fuel inductionHypothesis =>
      cases queue with
      | nil =>
          refine ⟨indegree, ?_⟩
          simpa [phaseLoop] using invariant
      | cons node rest =>
          cases number with
          | zero =>
              refine ⟨indegree, ?_⟩
              simpa [phaseLoop] using invariant
          | succ number =>
              have waiting : graph.Invariant
                  { served := served
                    queue := (node :: rest) ++ []
                    indegree := indegree } := by
                rwa [List.append_nil]
              have stepped := graph.invariant_servePhase waiting
              have shorter : graph.nodes.length ≤
                  (served ++ node :: rest).length + fuel := by
                rw [List.length_append, List.length_cons]
                omega
              obtain ⟨counters, later⟩ :=
                inductionHypothesis stepped shorter number
              refine ⟨counters, ?_⟩
              simpa [phaseLoop, servePhase] using later

theorem ne_nil_of_mem_phaseLoop
    {successors : ν → List ν} {fuel : Nat}
    {indegree : ν → Int} {queue phase : List ν}
    (member : phase ∈ phaseLoop successors fuel indegree queue) :
    phase ≠ [] := by
  induction fuel generalizing indegree queue with
  | zero =>
      cases member
  | succ fuel inductionHypothesis =>
      cases queue with
      | nil =>
          cases member
      | cons node rest =>
          rcases List.mem_cons.mp member with rfl | later
          · exact List.cons_ne_nil node rest
          · exact inductionHypothesis later

/-- The phases of a graph, from the numbers of its incoming edges. -/
def Graph.phases (graph : Graph ν) (indegree : ν → Int) :
    List (List ν) :=
  phaseLoop graph.successors graph.nodes.length indegree
    (graph.start indegree).queue

section Phases

variable {indegree : ν → Int}

theorem Graph.invariant_phases
    (counted : ∀ node, indegree node = graph.openEdges [] node)
    (number : Nat) :
    ∃ counters, graph.Invariant
      { served := ((graph.phases indegree).take number).flatten
        queue := (graph.phases indegree).getD number []
        indegree := counters } := by
  have started := graph.invariant_start counted
  obtain ⟨counters, invariant⟩ := graph.invariant_phaseLoop
    graph.nodes.length started (by simp) number
  exact ⟨counters, invariant⟩

/-- Every node is in exactly one phase. -/
theorem Graph.phases_perm
    (counted : ∀ node, indegree node = graph.openEdges [] node)
    (acyclic : graph.Acyclic) :
    (graph.phases indegree).flatten.Perm graph.nodes := by
  obtain ⟨counters, invariant⟩ :=
    graph.invariant_phases counted (graph.phases indegree).length
  rw [List.take_length, List.getD_eq_default _ _ (le_refl _)] at invariant
  have nodup := invariant.nodup
  rw [List.append_nil] at nodup
  refine (List.perm_ext_iff_of_nodup nodup graph.nodupNodes).mpr ?_
  intro node
  constructor
  · intro served
    exact ((invariant.ready node).mp (List.mem_append_left _ served)).1
  · intro member
    exact graph.served_of_acyclic invariant rfl acyclic member

theorem Graph.mem_nodes_of_mem_phase
    (counted : ∀ node, indegree node = graph.openEdges [] node)
    {number : Nat} {node : ν}
    (member : node ∈ (graph.phases indegree).getD number []) :
    node ∈ graph.nodes := by
  obtain ⟨counters, invariant⟩ := graph.invariant_phases counted number
  exact ((invariant.ready node).mp (List.mem_append_right _ member)).1

omit [DecidableEq ν] in
theorem mem_take_flatten_iff
    {phases : List (List ν)} {number : Nat} {node : ν} :
    node ∈ (phases.take number).flatten ↔
      ∃ before < number, node ∈ phases.getD before [] := by
  rw [List.mem_flatten]
  constructor
  · rintro ⟨phase, among, member⟩
    obtain ⟨before, bound, rfl⟩ := List.mem_take_iff_getElem.mp among
    refine ⟨before, by omega, ?_⟩
    rwa [List.getD_eq_getElem _ _ (by omega)]
  · rintro ⟨before, less, member⟩
    have inside : before < phases.length := by
      by_contra outside
      rw [List.getD_eq_default _ _ (not_lt.mp outside)] at member
      cases member
    rw [List.getD_eq_getElem _ _ inside] at member
    exact ⟨phases[before],
      List.mem_take_iff_getElem.mpr ⟨before, by omega, rfl⟩, member⟩

omit [DecidableEq ν] in
theorem mem_flatten_iff_getD {phases : List (List ν)} {node : ν} :
    node ∈ phases.flatten ↔ ∃ number, node ∈ phases.getD number [] := by
  rw [← List.take_length (l := phases), mem_take_flatten_iff,
    List.take_length]
  constructor
  · rintro ⟨number, _, member⟩
    exact ⟨number, member⟩
  · rintro ⟨number, member⟩
    refine ⟨number, ?_, member⟩
    by_contra outside
    rw [List.getD_eq_default _ _ (not_lt.mp outside)] at member
    cases member

theorem Graph.layering_phases
    (counted : ∀ node, indegree node = graph.openEdges [] node) :
    Layering graph.Edge (fun _ => True)
      (fun number node =>
        node ∈ (graph.phases indegree).getD number []) where
  first _ := trivial
  earlier := by
    intro number source target member leads
    obtain ⟨counters, invariant⟩ := graph.invariant_phases counted number
    have closed :=
      ((invariant.ready target).mp (List.mem_append_right _ member)).2
    exact mem_take_flatten_iff.mp
      ((graph.openEdges_eq_zero_iff _ target).mp closed source leads)
  attained := by
    intro number target member
    obtain ⟨_, before⟩ := graph.invariant_phases counted number
    obtain ⟨_, after⟩ := graph.invariant_phases counted (number + 1)
    obtain ⟨inside, closed⟩ :=
      (after.ready target).mp (List.mem_append_right _ member)
    -- The target was not ready one phase earlier, so that some predecessor
    -- was not served yet.
    have waited : graph.openEdges
        ((graph.phases indegree).take number).flatten target ≠ 0 := by
      intro zero
      have ready := (before.ready target).mpr ⟨inside, zero⟩
      have already :
          target ∈ ((graph.phases indegree).take (number + 1)).flatten := by
        rcases List.mem_append.mp ready with served | waiting
        · obtain ⟨early, less, among⟩ := mem_take_flatten_iff.mp served
          exact mem_take_flatten_iff.mpr ⟨early, by omega, among⟩
        · exact mem_take_flatten_iff.mpr ⟨number, by omega, waiting⟩
      exact (List.nodup_append.mp after.nodup).2.2
        target already target member rfl
    rw [Ne, graph.openEdges_eq_zero_iff] at waited
    push Not at waited
    obtain ⟨source, leads, unserved⟩ := waited
    refine ⟨source, leads, ?_⟩
    obtain ⟨early, less, among⟩ := mem_take_flatten_iff.mp
      ((graph.openEdges_eq_zero_iff _ target).mp closed source leads)
    have last : early = number := by
      by_contra different
      exact unserved
        (mem_take_flatten_iff.mpr ⟨early, by omega, among⟩)
    rwa [last] at among

/-- A node is in the phase of its depth. -/
theorem Graph.mem_phase_iff
    (counted : ∀ node, indegree node = graph.openEdges [] node)
    (acyclic : graph.Acyclic)
    (number : Nat) (node : ν) :
    node ∈ (graph.phases indegree).getD number [] ↔
      node ∈ graph.nodes ∧
        IsDepth graph.Edge (fun _ => True) node number := by
  have layering := graph.layering_phases counted
  constructor
  · intro member
    exact ⟨graph.mem_nodes_of_mem_phase counted member,
      layering.isDepth member⟩
  · rintro ⟨inside, isDepth⟩
    have served := (graph.phases_perm counted acyclic).mem_iff.mpr inside
    obtain ⟨found, member⟩ := mem_flatten_iff_getD.mp served
    rwa [isDepth.unique (layering.isDepth member)]

end Phases

/-! ## Serving first come, first served -/

/-- The nodes that were met so far stand by ascending levels, and each is one
level below the last of its predecessors. -/
structure Graph.Levelled
    (graph : Graph ν) (level : ν → Nat) (state : State ν) : Prop where
  rises : ∀ {source target}, target ∈ state.served ++ state.queue →
    graph.Edge source target → level source < level target
  attained : ∀ {target depth}, target ∈ state.served ++ state.queue →
    level target = depth + 1 →
    ∃ source, graph.Edge source target ∧ level source = depth
  sorted : (state.served ++ state.queue).Pairwise
    fun first second => level first ≤ level second
  near : ∀ {first node}, state.queue.head? = some first →
    node ∈ state.queue → level node ≤ level first + 1

theorem Graph.levelled_start
    {level : ν → Nat} {indegree : ν → Int}
    (counted : ∀ node, indegree node = graph.openEdges [] node)
    (zero : ∀ node ∈ (graph.start indegree).queue, level node = 0) :
    graph.Levelled level (graph.start indegree) where
  rises := by
    intro source target member leads
    have ready := ((graph.invariant_start counted).ready target).mp member
    cases (graph.openEdges_eq_zero_iff _ target).mp ready.2 source leads
  attained := by
    intro target depth member deep
    rw [zero target member] at deep
    cases deep
  sorted := by
    rw [List.pairwise_iff_forall_sublist]
    intro first second sub
    have member : first ∈ (graph.start indegree).queue :=
      sub.subset (by simp)
    rw [zero first member]
    exact Nat.zero_le _
  near := by
    intro first node _ member
    rw [zero node member]
    exact Nat.zero_le _

/-- The nodes that get ready stand one level below the node just served. -/
theorem Graph.Levelled.serve
    {level next : ν → Nat} {served rest : List ν} {node : ν}
    {indegree : ν → Int}
    (invariant : graph.Invariant
      { served := served, queue := node :: rest, indegree := indegree })
    (levelled : graph.Levelled level
      { served := served, queue := node :: rest, indegree := indegree })
    (added : ∀ other ∈ reached (graph.successors node) indegree,
      next other = level node + 1)
    (kept : ∀ other ∉ reached (graph.successors node) indegree,
      next other = level other) :
    graph.Levelled next
      { served := served ++ [node]
        queue := (relax (graph.successors node) indegree rest).2
        indegree := (relax (graph.successors node) indegree rest).1 } := by
  have stepped := graph.invariant_serveNext invariant
  rw [relax_queue] at stepped ⊢
  have regroup : (served ++ [node]) ++
      (rest ++ reached (graph.successors node) indegree) =
      (served ++ node :: rest) ++
        reached (graph.successors node) indegree := by
    simp
  have nodup := stepped.nodup
  rw [regroup] at nodup
  have old : ∀ {other}, other ∈ served ++ node :: rest →
      next other = level other := by
    intro other among
    apply kept
    intro new
    exact (List.nodup_append.mp nodup).2.2 other among other new rfl
  have here : node ∈ served ++ node :: rest := by simp
  have inside : node ∈ graph.nodes := ((invariant.ready node).mp here).1
  have sourceServed : ∀ {source target},
      target ∈ served ++ node :: rest → graph.Edge source target →
      source ∈ served := by
    intro source target among leads
    exact (graph.openEdges_eq_zero_iff _ target).mp
      ((invariant.ready target).mp among).2 source leads
  have atMost : ∀ other ∈ served ++ node :: rest,
      level other ≤ level node + 1 := by
    intro other among
    rcases List.mem_append.mp among with before | waiting
    · have ascending := (List.pairwise_append.mp levelled.sorted).2.2
        other before node List.mem_cons_self
      omega
    · exact levelled.near rfl waiting
  refine
    { rises := ?_
      attained := ?_
      sorted := ?_
      near := ?_ }
  · intro source target member leads
    rw [regroup] at member
    rcases List.mem_append.mp member with among | new
    · have before := sourceServed among leads
      rw [old among, old (List.mem_append_left _ before)]
      exact levelled.rises among leads
    · have ready := (stepped.ready target).mp
        (by rw [regroup]; exact List.mem_append_right _ new)
      have before := (graph.openEdges_eq_zero_iff _ target).mp
        ready.2 source leads
      rw [added target new]
      rcases List.mem_append.mp before with earlier | last
      · have ascending := (List.pairwise_append.mp levelled.sorted).2.2
          source earlier node List.mem_cons_self
        rw [old (List.mem_append_left _ earlier)]
        omega
      · rw [List.mem_singleton.mp last, old here]
        omega
  · intro target depth member deep
    rw [regroup] at member
    rcases List.mem_append.mp member with among | new
    · rw [old among] at deep
      obtain ⟨source, leads, attained⟩ := levelled.attained among deep
      have before := sourceServed among leads
      exact ⟨source, leads, by
        rw [old (List.mem_append_left _ before), attained]⟩
    · rw [added target new] at deep
      refine ⟨node, ⟨inside, reached_subset _ _ new⟩, ?_⟩
      rw [old here]
      omega
  · rw [regroup, List.pairwise_append]
    refine ⟨?_, ?_, ?_⟩
    · apply levelled.sorted.imp_of_mem
      intro first second firstAmong secondAmong ascending
      rw [old firstAmong, old secondAmong]
      exact ascending
    · rw [List.pairwise_iff_forall_sublist]
      intro first second sub
      rw [added first (sub.subset (by simp)),
        added second (sub.subset (by simp))]
    · intro first among second new
      rw [old among, added second new]
      exact atMost first among
  · intro first other isHead member
    have belowFirst : level node ≤ next first := by
      have waits := List.mem_of_mem_head? isHead
      rcases List.mem_append.mp waits with waiting | new
      · have ascending := (List.pairwise_append.mp levelled.sorted).2.1
        rw [List.pairwise_cons] at ascending
        rw [old (by simp [waiting])]
        exact ascending.1 first waiting
      · rw [added first new]
        omega
    rcases List.mem_append.mp member with waiting | new
    · have near := atMost other (by simp [waiting])
      rw [old (by simp [waiting])]
      omega
    · rw [added other new]
      omega

/-- Once all nodes are served, levels are depths. -/
theorem Graph.Levelled.isDepth
    {level : ν → Nat} {state : State ν}
    (invariant : graph.Invariant state)
    (levelled : graph.Levelled level state)
    (finished : state.queue = [])
    (acyclic : graph.Acyclic)
    {node : ν} (member : node ∈ graph.nodes) :
    IsDepth graph.Edge (fun root => ∀ source, ¬ graph.Edge source root)
      node (level node) := by
  have served : ∀ {other}, other ∈ graph.nodes →
      other ∈ state.served ++ state.queue := fun inside =>
    List.mem_append_left _
      (graph.served_of_acyclic invariant finished acyclic inside)
  have layering :
      Layering graph.Edge (fun root => ∀ source, ¬ graph.Edge source root)
        (fun depth other => other ∈ graph.nodes ∧ level other = depth) := by
    refine
      { first := ?_
        earlier := ?_
        attained := ?_ }
    · rintro root ⟨inside, zero⟩ source leads
      have rising := levelled.rises (served inside) leads
      omega
    · rintro depth source target ⟨inside, rfl⟩ leads
      exact ⟨level source, levelled.rises (served inside) leads,
        leads.1, rfl⟩
    · rintro depth target ⟨inside, deep⟩
      obtain ⟨source, leads, attained⟩ :=
        levelled.attained (served inside) deep
      exact ⟨source, leads, leads.1, attained⟩
  exact layering.isDepth ⟨member, rfl⟩

end Agentcy.Library.Kahn
