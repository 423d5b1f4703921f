import Agentcy.Library.Depth
import Agentcy.Library.Ranking

/-!
# Longest paths

Distances are relaxed along the edges in a topological order, each together
with the predecessor that gave it.  The distances found are depths, and walking
back from a node of greatest distance gives a longest path.
-/

namespace Agentcy.Library.Kahn

universe u

variable {ν : Type u} [DecidableEq ν]

structure Distances (ν : Type u) where
  dist : ν → Nat := fun _ => 0
  prev : ν → Option ν := fun _ => none

/-- Reach `neighbor` through `node` where that is longer. -/
def improve (node : ν) (distances : Distances ν) (neighbor : ν) :
    Distances ν :=
  if distances.dist neighbor < distances.dist node + 1 then
    { dist := Function.update distances.dist neighbor
        (distances.dist node + 1)
      prev := Function.update distances.prev neighbor (some node) }
  else distances

def measureFrom (successors : ν → List ν)
    (distances : Distances ν) (node : ν) : Distances ν :=
  (successors node).foldl (improve node) distances

def measure (successors : ν → List ν) (order : List ν) : Distances ν :=
  order.foldl (measureFrom successors) {}

/-- From a node along its predecessors. -/
def walkBack (prev : ν → Option ν) : Nat → Option ν → List ν
  | 0, _ => []
  | _ + 1, none => []
  | fuel + 1, some node => node :: walkBack prev fuel (prev node)

/-- The distances of the targets rise above that of the node, and the
predecessor changes where the distance does. -/
theorem foldl_improve
    {node : ν} {targets : List ν} (other : node ∉ targets)
    (distances : Distances ν) (tested : ν) :
    (targets.foldl (improve node) distances).dist tested =
        (if tested ∈ targets then
          max (distances.dist tested) (distances.dist node + 1)
        else distances.dist tested) ∧
      (targets.foldl (improve node) distances).prev tested =
        (if tested ∈ targets ∧
            distances.dist tested < distances.dist node + 1 then some node
        else distances.prev tested) := by
  induction targets generalizing distances with
  | nil =>
      simp
  | cons target rest inductionHypothesis =>
      obtain ⟨apart, otherRest⟩ := not_or.mp (mt List.mem_cons.mpr other)
      have later :=
        inductionHypothesis otherRest (improve node distances target)
      have sameNode :
          (improve node distances target).dist node =
            distances.dist node := by
        unfold improve
        split
        · exact Function.update_of_ne apart _ _
        · rfl
      rw [List.foldl_cons, later.1, later.2, sameNode]
      by_cases here : tested = target
      · subst here
        by_cases longer :
            distances.dist tested < distances.dist node + 1
        · have reachedNow :
              (improve node distances tested).dist tested =
                distances.dist node + 1 := by
            simp [improve, longer]
          have through :
              (improve node distances tested).prev tested = some node := by
            simp [improve, longer]
          simp [reachedNow, through, longer]
          omega
        · have unchanged : improve node distances tested = distances := by
            simp [improve, longer]
          simp [unchanged, longer]
          omega
      · have sameDist :
            (improve node distances target).dist tested =
              distances.dist tested := by
          unfold improve
          split
          · exact Function.update_of_ne here _ _
          · rfl
        have samePrev :
            (improve node distances target).prev tested =
              distances.prev tested := by
          unfold improve
          split
          · exact Function.update_of_ne here _ _
          · rfl
        simp [sameDist, samePrev, here]

omit [DecidableEq ν] in
/-- In a topological order no edge leads back. -/
theorem Ordered.not_edge_back
    {edge : ν → ν → Prop} {front back : List ν} {node target : ν}
    (ordered : Ordered edge (front ++ node :: back))
    (nodup : (front ++ node :: back).Nodup)
    (before : target ∈ front ++ [node]) :
    ¬ edge node target := by
  intro leads
  have unserved : node ∉ front := fun served =>
    (List.nodup_append.mp nodup).2.2 node served node
      List.mem_cons_self rfl
  rcases List.mem_append.mp before with earlier | last
  · obtain ⟨first, second, rfl⟩ := List.append_of_mem earlier
    apply unserved
    apply List.mem_append_left
    apply ordered first target (second ++ node :: back) _ node leads
    rw [List.append_assoc, List.cons_append]
  · rw [List.mem_singleton.mp last] at leads
    exact unserved (ordered front node back rfl node leads)

/-- Distances respect the edges from the nodes that are done, and each but
zero comes from one of them. -/
structure Measured
    (edge : ν → ν → Prop) (done : List ν)
    (distances : Distances ν) : Prop where
  rises : ∀ {source target}, source ∈ done → edge source target →
    distances.dist source < distances.dist target
  rooted : ∀ {node}, distances.prev node = none → distances.dist node = 0
  reached : ∀ {node source}, distances.prev node = some source →
    source ∈ done ∧ edge source node ∧
      distances.dist node = distances.dist source + 1

variable {graph : Graph ν}

/-- A node without edges to the nodes that are done may be relaxed next. -/
theorem Measured.relax
    {done : List ν} {node : ν} {distances : Distances ν}
    (measured : Measured graph.Edge done distances)
    (inside : node ∈ graph.nodes)
    (forward : ∀ target ∈ done ++ [node], ¬ graph.Edge node target) :
    Measured graph.Edge (done ++ [node])
      (measureFrom graph.successors distances node) := by
  have leads : ∀ {target}, target ∈ graph.successors node →
      graph.Edge node target := fun successor => ⟨inside, successor⟩
  have notSelf : node ∉ graph.successors node := fun successor =>
    forward node (by simp) (leads successor)
  have relaxed := foldl_improve notSelf distances
  have kept : ∀ {source}, source ∈ done ++ [node] →
      (measureFrom graph.successors distances node).dist source =
        distances.dist source := by
    intro source finished
    have outside : source ∉ graph.successors node := fun successor =>
      forward source finished (leads successor)
    rw [measureFrom, (relaxed source).1, if_neg outside]
  have grows : ∀ target,
      distances.dist target ≤
        (measureFrom graph.successors distances node).dist target := by
    intro target
    rw [measureFrom, (relaxed target).1]
    split
    · exact le_max_left _ _
    · exact le_rfl
  refine
    { rises := ?_
      rooted := ?_
      reached := ?_ }
  · intro source target finished edge
    rw [kept finished]
    rcases List.mem_append.mp finished with before | last
    · exact (measured.rises before edge).trans_le (grows target)
    · have same : source = node := List.mem_singleton.mp last
      subst same
      rw [measureFrom, (relaxed target).1, if_pos edge.2]
      omega
  · intro other unreached
    rw [measureFrom, (relaxed other).2] at unreached
    rw [measureFrom, (relaxed other).1]
    split at unreached
    · cases unreached
    · rename_i notLonger
      have zero := measured.rooted unreached
      have outside : other ∉ graph.successors node := by
        intro successor
        exact notLonger ⟨successor, by omega⟩
      rw [if_neg outside]
      exact zero
  · intro other source through
    rw [measureFrom, (relaxed other).2] at through
    split at through
    · rename_i longer
      cases through
      refine ⟨by simp, leads longer.1, ?_⟩
      rw [@kept node (by simp), measureFrom, (relaxed other).1,
        if_pos longer.1]
      omega
    · rename_i notLonger
      obtain ⟨finished, edge, apart⟩ := measured.reached through
      have still : source ∈ done ++ [node] :=
        List.mem_append_left _ finished
      refine ⟨still, edge, ?_⟩
      rw [@kept source still, measureFrom, (relaxed other).1]
      split
      · rename_i successor
        have bounded : ¬ distances.dist other < distances.dist node + 1 :=
          fun longer => notLonger ⟨successor, longer⟩
        omega
      · exact apart

theorem measured_foldl
    {done pending : List ν} {distances : Distances ν}
    (measured : Measured graph.Edge done distances)
    (nodup : (done ++ pending).Nodup)
    (inside : ∀ node ∈ done ++ pending, node ∈ graph.nodes)
    (ordered : Ordered graph.Edge (done ++ pending)) :
    Measured graph.Edge (done ++ pending)
      (pending.foldl (measureFrom graph.successors) distances) := by
  induction pending generalizing done distances with
  | nil =>
      simpa using measured
  | cons node rest inductionHypothesis =>
      have regroup : done ++ node :: rest = (done ++ [node]) ++ rest := by
        simp
      have forward :
          ∀ target ∈ done ++ [node], ¬ graph.Edge node target :=
        fun _ finished => ordered.not_edge_back nodup finished
      have stepped := measured.relax
        (inside node (by simp)) forward
      rw [regroup] at nodup inside ordered ⊢
      exact inductionHypothesis stepped nodup inside ordered

/-- Distances over all nodes in a topological order are depths. -/
theorem measured_measure
    {order : List ν}
    (permuted : order.Perm graph.nodes)
    (ordered : Ordered graph.Edge order) :
    Measured graph.Edge order (measure graph.successors order) := by
  have start : Measured graph.Edge [] ({} : Distances ν) := by
    refine
      { rises := ?_
        rooted := fun _ => rfl
        reached := ?_ }
    · intro source target absent
      cases absent
    · intro node source absent
      cases absent
  exact measured_foldl start (permuted.nodup_iff.mpr graph.nodupNodes)
    (fun node member => permuted.mem_iff.mp member) ordered

variable {order : List ν} {distances : Distances ν}

omit [DecidableEq ν] in
theorem Measured.isDepth
    (measured : Measured graph.Edge order distances)
    (permuted : order.Perm graph.nodes)
    {node : ν} (member : node ∈ graph.nodes) :
    IsDepth graph.Edge (fun _ => True) node (distances.dist node) := by
  have layering : Layering graph.Edge (fun _ => True)
      (fun depth other =>
        other ∈ graph.nodes ∧ distances.dist other = depth) := by
    refine
      { first := fun _ => trivial
        earlier := ?_
        attained := ?_ }
    · rintro depth source target ⟨_, rfl⟩ leads
      exact ⟨distances.dist source,
        measured.rises (permuted.mem_iff.mpr leads.1) leads, leads.1, rfl⟩
    · rintro depth target ⟨_, deep⟩
      cases through : distances.prev target with
      | none =>
          rw [measured.rooted through] at deep
          cases deep
      | some source =>
          obtain ⟨_, leads, apart⟩ := measured.reached through
          exact ⟨source, leads, leads.1, by omega⟩
  exact layering.isDepth ⟨member, rfl⟩

/-! ## Walking back -/

omit [DecidableEq ν] in
/-- The walk from a node goes down one edge at a time until distance zero. -/
theorem Measured.walk
    (measured : Measured graph.Edge order distances)
    {fuel : Nat} {node : ν} (enough : distances.dist node < fuel) :
    (walkBack distances.prev fuel (some node)).length =
        distances.dist node + 1 ∧
      List.IsChain (fun target source => graph.Edge source target)
        (walkBack distances.prev fuel (some node)) := by
  induction fuel generalizing node with
  | zero =>
      omega
  | succ fuel inductionHypothesis =>
      rw [walkBack]
      cases through : distances.prev node with
      | none =>
          rw [measured.rooted through]
          cases fuel <;> simp [walkBack]
      | some source =>
          obtain ⟨_, leads, apart⟩ := measured.reached through
          obtain ⟨counted, chain⟩ :=
            @inductionHypothesis source (by omega)
          refine ⟨by rw [List.length_cons, counted, apart], ?_⟩
          cases fuel with
          | zero =>
              omega
          | succ fuel =>
              rw [walkBack] at chain ⊢
              exact List.IsChain.cons_cons leads chain

/-- The walk back from the first node of greatest distance. -/
def criticalPath (successors : ν → List ν) (nodes order : List ν) :
    List ν :=
  let distances := measure successors order
  (walkBack distances.prev nodes.length
    (firstBest distances.dist nodes)).reverse

omit [DecidableEq ν] in
theorem Measured.mem_nodes_of_walkBack
    (measured : Measured graph.Edge order distances)
    {fuel : Nat} {start : Option ν}
    (inside : ∀ node, start = some node → node ∈ graph.nodes)
    {node : ν} (member : node ∈ walkBack distances.prev fuel start) :
    node ∈ graph.nodes := by
  induction fuel generalizing start with
  | zero =>
      cases member
  | succ fuel inductionHypothesis =>
      cases start with
      | none =>
          cases member
      | some first =>
          rcases List.mem_cons.mp member with rfl | later
          · exact inside node rfl
          · refine inductionHypothesis ?_ later
            intro source through
            exact (measured.reached through).2.1.1

omit [DecidableEq ν] in
/-- On a path between nodes all are nodes. -/
theorem Graph.mem_nodes_of_isChain
    {front : List ν} {node : ν}
    (chain : List.IsChain graph.Edge (front ++ [node]))
    (inside : node ∈ graph.nodes) :
    ∀ other ∈ front ++ [node], other ∈ graph.nodes := by
  induction front with
  | nil =>
      simpa using inside
  | cons first rest inductionHypothesis =>
      rw [List.cons_append, List.isChain_cons] at chain
      have firstInside : first ∈ graph.nodes := by
        cases rest with
        | nil =>
            exact (chain.1 node rfl).1
        | cons second _ =>
            exact (chain.1 second rfl).1
      intro other among
      rcases List.mem_cons.mp among with rfl | later
      · exact firstInside
      · exact inductionHypothesis chain.2 other later

omit [DecidableEq ν] in
/-- Depths stay below the number of nodes. -/
theorem Graph.depth_lt
    (acyclic : graph.Acyclic)
    {start : ν → Prop} {node : ν} {depth : Nat}
    (inside : node ∈ graph.nodes)
    (isDepth : IsDepth graph.Edge start node depth) :
    depth < graph.nodes.length := by
  obtain ⟨front, counted, chain⟩ := exists_isChain_of_pathTo isDepth.1
  have bounded := graph.length_le_of_isChain acyclic chain
    (graph.mem_nodes_of_isChain chain inside)
  rw [List.length_append, counted, List.length_singleton] at bounded
  exact bounded

theorem criticalPath_of_empty (empty : graph.nodes = []) :
    criticalPath graph.successors graph.nodes order = [] := by
  simp [criticalPath, empty, walkBack]

/-- The walk starts at a node of greatest depth. -/
theorem criticalPath_of_nonempty
    (permuted : order.Perm graph.nodes)
    (ordered : Ordered graph.Edge order)
    (acyclic : graph.Acyclic)
    (nonempty : graph.nodes ≠ []) :
    ∃ last ∈ graph.nodes, ∃ depth,
      IsDepth graph.Edge (fun _ => True) last depth ∧
      (∀ node ∈ graph.nodes, ∀ other,
        IsDepth graph.Edge (fun _ => True) node other → other ≤ depth) ∧
      (criticalPath graph.successors graph.nodes order).length =
        depth + 1 ∧
      List.IsChain graph.Edge
        (criticalPath graph.successors graph.nodes order) := by
  have measured := measured_measure permuted ordered
  cases chosen : firstBest (measure graph.successors order).dist
      graph.nodes with
  | none =>
      exact absurd ((firstBest_eq_none_iff _ _).mp chosen) nonempty
  | some last =>
      obtain ⟨inside, greatest⟩ := firstBest_spec _ chosen
      have isDepth := measured.isDepth permuted inside
      obtain ⟨counted, chain⟩ :=
        measured.walk (graph.depth_lt acyclic inside isDepth)
      refine ⟨last, inside, _, isDepth, ?_, ?_, ?_⟩
      · intro node member other isOther
        rw [isOther.unique (measured.isDepth permuted member)]
        exact greatest node member
      · rw [criticalPath, chosen, List.length_reverse, counted]
      · rw [criticalPath, chosen, List.isChain_reverse]
        exact chain

theorem criticalPath_isChain
    (permuted : order.Perm graph.nodes)
    (ordered : Ordered graph.Edge order)
    (acyclic : graph.Acyclic) :
    List.IsChain graph.Edge
      (criticalPath graph.successors graph.nodes order) := by
  by_cases empty : graph.nodes = []
  · rw [criticalPath_of_empty empty]
    exact List.IsChain.nil
  · obtain ⟨_, _, _, _, _, _, chain⟩ :=
      criticalPath_of_nonempty permuted ordered acyclic empty
    exact chain

theorem mem_nodes_of_mem_criticalPath
    (permuted : order.Perm graph.nodes)
    (ordered : Ordered graph.Edge order)
    {node : ν}
    (member : node ∈ criticalPath graph.successors graph.nodes order) :
    node ∈ graph.nodes := by
  rw [criticalPath, List.mem_reverse] at member
  refine (measured_measure permuted ordered).mem_nodes_of_walkBack
    ?_ member
  intro last chosen
  exact (firstBest_spec _ chosen).1

/-- No path is longer than the critical one. -/
theorem length_le_criticalPath
    (permuted : order.Perm graph.nodes)
    (ordered : Ordered graph.Edge order)
    (acyclic : graph.Acyclic)
    {path : List ν}
    (chain : List.IsChain graph.Edge path)
    (inside : ∀ node ∈ path, node ∈ graph.nodes) :
    path.length ≤
      (criticalPath graph.successors graph.nodes order).length := by
  cases path using List.reverseRecOn with
  | nil =>
      exact Nat.zero_le _
  | append_singleton front node =>
      have member : node ∈ graph.nodes := inside node (by simp)
      obtain ⟨_, _, _, _, greatest, counted, _⟩ :=
        criticalPath_of_nonempty permuted ordered acyclic
          (List.ne_nil_of_mem member)
      have isDepth :=
        (measured_measure permuted ordered).isDepth permuted member
      have walked := isDepth.2 _ (pathTo_of_isChain chain)
      have bounded := greatest node member _ isDepth
      rw [List.length_append, List.length_singleton, counted]
      omega

/-- The critical path meets one node of each phase. -/
theorem length_criticalPath
    {indegree : ν → Int}
    (counted : ∀ node, indegree node = graph.openEdges [] node)
    (permuted : order.Perm graph.nodes)
    (ordered : Ordered graph.Edge order)
    (acyclic : graph.Acyclic) :
    (criticalPath graph.successors graph.nodes order).length =
      (graph.phases indegree).length := by
  have inPhase := graph.mem_phase_iff counted acyclic
  have perm := graph.phases_perm counted acyclic
  by_cases empty : graph.nodes = []
  · rw [criticalPath_of_empty empty, List.length_nil]
    cases phases : graph.phases indegree with
    | nil =>
        rfl
    | cons phase rest =>
        have member : phase ∈ graph.phases indegree := by simp [phases]
        obtain ⟨node, among⟩ :=
          List.exists_mem_of_ne_nil _ (ne_nil_of_mem_phaseLoop member)
        have inside := perm.mem_iff.mp
          (List.mem_flatten.mpr ⟨phase, member, among⟩)
        rw [empty] at inside
        cases inside
  · obtain ⟨last, inside, depth, isDepth, greatest, measured, _⟩ :=
      criticalPath_of_nonempty permuted ordered acyclic empty
    rw [measured]
    apply le_antisymm
    · -- The last node is in the phase of its depth.
      by_contra beyond
      have member := (inPhase depth last).mpr ⟨inside, isDepth⟩
      rw [List.getD_eq_default _ _ (by omega)] at member
      cases member
    · -- The last phase has a node, whose depth is at most the greatest.
      by_contra beyond
      have bound : depth + 1 < (graph.phases indegree).length := by omega
      obtain ⟨node, among⟩ := List.exists_mem_of_ne_nil _
        (ne_nil_of_mem_phaseLoop (List.getElem_mem bound))
      rw [← List.getD_eq_getElem _ [] bound] at among
      obtain ⟨member, deeper⟩ := (inPhase (depth + 1) node).mp among
      have bounded := greatest node member _ deeper
      omega

end Agentcy.Library.Kahn
