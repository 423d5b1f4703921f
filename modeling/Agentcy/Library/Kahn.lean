import Mathlib.Data.List.Perm.Subperm
import Mathlib.Data.List.Count
import Mathlib.Algebra.BigOperators.Group.List.Basic
import Mathlib.Algebra.Order.Ring.Nat
import Mathlib.Data.Fintype.EquivFin
import Mathlib.Logic.Relation
import Mathlib.Order.WellFounded
import Mathlib.Logic.Function.Basic

/-!
# Kahn's algorithm

Nodes without open predecessors wait in a queue; taking one of them lowers the
counters of its successors, and those that reach zero join the queue.  The
order in which the queue is served is left open.  The loop runs at most once
for each node, serves predecessors first, and serves every node exactly when
the graph has no cycle.
-/

namespace Agentcy.Library.Kahn

universe u

variable {ν : Type u}

/-- A way to take one waiting node out of the queue. -/
structure Service (ν : Type u) where
  take : List ν → Option (ν × List ν)
  takeNone : ∀ {queue}, take queue = none → queue = []
  takePerm : ∀ {queue node rest}, take queue = some (node, rest) →
    queue.Perm (node :: rest)

/-- First come, first served. -/
def Service.fifo : Service ν where
  take
    | [] => none
    | node :: rest => some (node, rest)
  takeNone := by
    intro queue nothing
    cases queue with
    | nil => rfl
    | cons _ _ => cases nothing
  takePerm := by
    intro queue node rest taken
    cases queue with
    | nil => cases taken
    | cons _ _ =>
        cases taken
        exact List.Perm.refl _

/-- Last come, first served. -/
def Service.lifo : Service ν where
  take queue :=
    match queue.getLast? with
    | none => none
    | some node => some (node, queue.dropLast)
  takeNone := by
    intro queue nothing
    cases last : queue.getLast? with
    | none => exact List.getLast?_eq_none_iff.mp last
    | some node => simp [last] at nothing
  takePerm := by
    intro queue node rest taken
    cases last : queue.getLast? with
    | none => simp [last] at taken
    | some found =>
        simp only [last, Option.some.injEq, Prod.mk.injEq] at taken
        obtain ⟨rfl, rfl⟩ := taken
        obtain ⟨front, rfl⟩ := List.getLast?_eq_some_iff.mp last
        rw [List.dropLast_concat]
        exact List.perm_append_comm

/-- The nodes served so far, those that wait, and the counters. -/
structure State (ν : Type u) where
  served : List ν := []
  queue : List ν
  indegree : ν → Int

variable [DecidableEq ν]

/-- Lower the counters of `targets` one after another and queue each of them
when its counter reaches zero. -/
def relax :
    List ν → (ν → Int) → List ν → (ν → Int) × List ν
  | [], indegree, queue => (indegree, queue)
  | target :: rest, indegree, queue =>
      let lowered :=
        Function.update indegree target (indegree target - 1)
      relax rest lowered
        (if lowered target = 0 then queue ++ [target] else queue)

def loop (service : Service ν) (successors : ν → List ν) :
    Nat → State ν → State ν
  | 0, state => state
  | fuel + 1, state =>
      match service.take state.queue with
      | none => state
      | some (node, rest) =>
          let relaxed := relax (successors node) state.indegree rest
          loop service successors fuel
            { served := state.served ++ [node]
              queue := relaxed.2
              indegree := relaxed.1 }

/-- The targets whose counters reach zero, in that order. -/
def reached : List ν → (ν → Int) → List ν
  | [], _ => []
  | target :: rest, indegree =>
      let lowered :=
        Function.update indegree target (indegree target - 1)
      if lowered target = 0 then target :: reached rest lowered
      else reached rest lowered

theorem relax_queue
    (targets : List ν) (indegree : ν → Int) (queue : List ν) :
    (relax targets indegree queue).2 =
      queue ++ reached targets indegree := by
  induction targets generalizing indegree queue with
  | nil =>
      simp [relax, reached]
  | cons target rest inductionHypothesis =>
      rw [relax, reached]
      rw [inductionHypothesis]
      split
      · simp
      · rfl

theorem relax_indegree
    (targets : List ν) (indegree : ν → Int) (queue : List ν) (node : ν) :
    (relax targets indegree queue).1 node =
      indegree node - targets.count node := by
  induction targets generalizing indegree queue with
  | nil =>
      simp [relax]
  | cons target rest inductionHypothesis =>
      rw [relax]
      rw [inductionHypothesis, List.count_cons]
      by_cases same : node = target
      · subst same
        simp
        omega
      · simp [same, Ne.symm same]

/-- A counter that covers all its decrements reaches zero at most once, and
it does so exactly when the decrements use it up. -/
theorem mem_reached_iff
    {targets : List ν} {indegree : ν → Int}
    (covered : ∀ node, (targets.count node : Int) ≤ indegree node)
    (node : ν) :
    node ∈ reached targets indegree ↔
      node ∈ targets ∧ indegree node = targets.count node := by
  induction targets generalizing indegree with
  | nil =>
      simp [reached]
  | cons target rest inductionHypothesis =>
      have coveredRest : ∀ other,
          (rest.count other : Int) ≤
            Function.update indegree target (indegree target - 1)
              other := by
        intro other
        have before := covered other
        rw [List.count_cons] at before
        by_cases same : other = target
        · subst same
          simp at before ⊢
          omega
        · simp [same, Ne.symm same] at before ⊢
          exact before
      have later := inductionHypothesis coveredRest
      have here := covered target
      rw [List.count_cons_self] at here
      rw [reached]
      split
      · rename_i zero
        rw [Function.update_self] at zero
        rw [List.mem_cons, later, List.count_cons]
        by_cases same : node = target
        · subst same
          have gone : rest.count node = 0 := by omega
          simp [gone]
          omega
        · simp [same, Ne.symm same]
      · rename_i positive
        rw [Function.update_self] at positive
        rw [later, List.count_cons]
        by_cases same : node = target
        · subst same
          simp
          constructor
          · rintro ⟨_, equal⟩
            omega
          · intro equal
            refine ⟨?_, by omega⟩
            rw [← List.count_pos_iff]
            omega
        · simp [same, Ne.symm same]

theorem nodup_reached
    {targets : List ν} {indegree : ν → Int}
    (covered : ∀ node, (targets.count node : Int) ≤ indegree node) :
    (reached targets indegree).Nodup := by
  induction targets generalizing indegree with
  | nil =>
      simp [reached]
  | cons target rest inductionHypothesis =>
      have coveredRest : ∀ other,
          (rest.count other : Int) ≤
            Function.update indegree target (indegree target - 1)
              other := by
        intro other
        have before := covered other
        rw [List.count_cons] at before
        by_cases same : other = target
        · subst same
          simp at before ⊢
          omega
        · simp [same, Ne.symm same] at before ⊢
          exact before
      rw [reached]
      split
      · rename_i zero
        rw [Function.update_self] at zero
        refine
          List.nodup_cons.mpr ⟨?_, inductionHypothesis coveredRest⟩
        intro again
        have remaining := (mem_reached_iff coveredRest target).mp again
        have here := covered target
        rw [List.count_cons_self] at here
        have positive := List.count_pos_iff.mpr remaining.1
        omega
      · exact inductionHypothesis coveredRest

/-! ## The graph and its open edges -/

/-- A finite graph: distinct nodes, and edges that stay inside. -/
structure Graph (ν : Type u) where
  nodes : List ν
  successors : ν → List ν
  nodupNodes : nodes.Nodup
  closed : ∀ {node successor}, node ∈ nodes →
    successor ∈ successors node → successor ∈ nodes

variable (graph : Graph ν)

def Graph.Edge (source target : ν) : Prop :=
  source ∈ graph.nodes ∧ target ∈ graph.successors source

/-- No node can be reached from itself. -/
def Graph.Acyclic : Prop :=
  ∀ node, ¬ Relation.TransGen graph.Edge node node

/-- How many edges lead to `target` from nodes that are not served yet. -/
def Graph.openEdges (served : List ν) (target : ν) : Nat :=
  ((graph.nodes.filter (fun node => decide (node ∉ served))).map
    (fun node => (graph.successors node).count target)).sum

theorem Graph.openEdges_eq_zero_iff (served : List ν) (target : ν) :
    graph.openEdges served target = 0 ↔
      ∀ source, graph.Edge source target → source ∈ served := by
  unfold Graph.openEdges
  rw [List.sum_eq_zero_iff_forall_eq_nat]
  constructor
  · intro allZero source edge
    by_contra unserved
    have zero := allZero ((graph.successors source).count target) (by
      refine List.mem_map.mpr ⟨source, ?_, rfl⟩
      simpa [unserved] using edge.1)
    exact List.count_eq_zero.mp zero edge.2
  · intro allServed count counted
    obtain ⟨source, kept, rfl⟩ := List.mem_map.mp counted
    obtain ⟨member, unserved⟩ := List.mem_filter.mp kept
    apply List.count_eq_zero.mpr
    intro successor
    exact of_decide_eq_true unserved (allServed source ⟨member, successor⟩)

/-- Serving one more node closes its edges and no others. -/
theorem Graph.openEdges_serve
    {served : List ν} {node : ν}
    (member : node ∈ graph.nodes)
    (unserved : node ∉ served)
    (target : ν) :
    graph.openEdges served target =
      graph.openEdges (served ++ [node]) target +
        (graph.successors node).count target := by
  have split : ∀ nodes : List ν, nodes.Nodup → node ∈ nodes →
      ((nodes.filter (fun other => decide (other ∉ served))).map
        (fun other => (graph.successors other).count target)).sum =
      ((nodes.filter
        (fun other => decide (other ∉ served ++ [node]))).map
        (fun other => (graph.successors other).count target)).sum +
        (graph.successors node).count target := by
    intro nodes nodup found
    obtain ⟨front, back, rfl⟩ := List.append_of_mem found
    have apart : ∀ other ∈ front ++ back, other ≠ node := by
      intro other among same
      subst same
      have := List.nodup_middle.mp nodup
      exact (List.nodup_cons.mp this).1 among
    have same : ∀ part : List ν, (∀ other ∈ part, other ≠ node) →
        part.filter (fun other => decide (other ∉ served ++ [node])) =
          part.filter (fun other => decide (other ∉ served)) := by
      intro part different
      apply List.filter_congr
      intro other among
      simp [different other among]
    simp [List.filter_append, unserved] at *
    rw [same front (fun other among => apart other (Or.inl among)),
      same back (fun other among => apart other (Or.inr among))]
    omega
  exact split graph.nodes graph.nodupNodes member

/-- Served and waiting nodes are exactly those without open edges, each of
them once, and none of them lies on a cycle. -/
structure Graph.Invariant (state : State ν) : Prop where
  nodup : (state.served ++ state.queue).Nodup
  counters : ∀ node,
    state.indegree node = graph.openEdges state.served node
  ready : ∀ node, node ∈ state.served ++ state.queue ↔
    node ∈ graph.nodes ∧ graph.openEdges state.served node = 0
  offCycle : ∀ node, node ∈ state.served ++ state.queue →
    ¬ Relation.TransGen graph.Edge node node

omit [DecidableEq ν] in
/-- A node whose predecessors are all off the cycles is off them too. -/
theorem Graph.offCycle_of_predecessors
    {node : ν}
    (predecessors : ∀ source, graph.Edge source node →
      ¬ Relation.TransGen graph.Edge source source) :
    ¬ Relation.TransGen graph.Edge node node := by
  intro cycle
  obtain ⟨source, path, edge⟩ :=
    Relation.TransGen.tail'_iff.mp cycle
  apply predecessors source edge
  exact Relation.TransGen.head'_iff.mpr ⟨node, edge, path⟩

def Graph.start (indegree : ν → Int) : State ν where
  queue := graph.nodes.filter (fun node => indegree node == 0)
  indegree := indegree

theorem Graph.invariant_start
    {indegree : ν → Int}
    (counted : ∀ node, indegree node = graph.openEdges [] node) :
    graph.Invariant (graph.start indegree) := by
  have waiting : ∀ node, node ∈ (graph.start indegree).queue ↔
      node ∈ graph.nodes ∧ graph.openEdges [] node = 0 := by
    intro node
    simp [Graph.start, counted node]
  refine
    { nodup := graph.nodupNodes.filter _
      counters := counted
      ready := waiting
      offCycle := ?_ }
  intro node member
  obtain ⟨_, zero⟩ := (waiting node).mp member
  apply graph.offCycle_of_predecessors
  intro source edge
  have absurd := (graph.openEdges_eq_zero_iff [] node).mp zero source edge
  cases absurd

theorem Graph.invariant_serve
    {service : Service ν} {state : State ν} {node : ν} {rest : List ν}
    (invariant : graph.Invariant state)
    (taken : service.take state.queue = some (node, rest)) :
    graph.Invariant
      { served := state.served ++ [node]
        queue := (relax (graph.successors node) state.indegree rest).2
        indegree :=
          (relax (graph.successors node) state.indegree rest).1 } := by
  have permuted := service.takePerm taken
  have allPermuted :
      (state.served ++ state.queue).Perm
        ((state.served ++ [node]) ++ rest) := by
    rw [List.append_assoc]
    exact List.Perm.append_left state.served permuted
  have oldNodup := allPermuted.nodup_iff.mp invariant.nodup
  have oldReady : ∀ other, other ∈ (state.served ++ [node]) ++ rest ↔
      other ∈ graph.nodes ∧ graph.openEdges state.served other = 0 := by
    intro other
    rw [← allPermuted.mem_iff]
    exact invariant.ready other
  have member : node ∈ graph.nodes :=
    ((oldReady node).mp (by simp)).1
  have unserved : node ∉ state.served := by
    intro served
    have front := (List.nodup_append.mp oldNodup).1
    exact (List.nodup_append.mp front).2.2 node served node (by simp) rfl
  have closes := graph.openEdges_serve member unserved
  have covered : ∀ target,
      ((graph.successors node).count target : Int) ≤
        state.indegree target := by
    intro target
    rw [invariant.counters, closes target]
    omega
  have joins : ∀ other,
      other ∈ reached (graph.successors node) state.indegree ↔
        other ∈ graph.successors node ∧
          graph.openEdges (state.served ++ [node]) other = 0 := by
    intro other
    rw [mem_reached_iff covered, invariant.counters, closes other]
    constructor
    · rintro ⟨successor, equal⟩
      exact ⟨successor, by omega⟩
    · rintro ⟨successor, zero⟩
      exact ⟨successor, by omega⟩
  have newReady : ∀ other,
      other ∈ (state.served ++ [node]) ++
          (rest ++ reached (graph.successors node) state.indegree) ↔
        other ∈ graph.nodes ∧
          graph.openEdges (state.served ++ [node]) other = 0 := by
    intro other
    rw [← List.append_assoc, List.mem_append, oldReady, joins,
      closes other]
    constructor
    · rintro (⟨inside, zero⟩ | ⟨successor, zero⟩)
      · exact ⟨inside, by omega⟩
      · exact ⟨graph.closed member successor, zero⟩
    · rintro ⟨inside, zero⟩
      by_cases successor : other ∈ graph.successors node
      · exact Or.inr ⟨successor, zero⟩
      · have absent := List.count_eq_zero.mpr successor
        exact Or.inl ⟨inside, by omega⟩
  rw [relax_queue]
  refine
    { nodup := ?_
      counters := ?_
      ready := newReady
      offCycle := ?_ }
  · rw [← List.append_assoc]
    refine List.nodup_append.mpr
      ⟨oldNodup, nodup_reached covered, ?_⟩
    rintro other old again new rfl
    have zero := ((oldReady other).mp old).2
    have successor := ((joins other).mp new).1
    have positive := List.count_pos_iff.mpr successor
    have counted := closes other
    omega
  · intro other
    dsimp only
    rw [relax_indegree, invariant.counters, closes other]
    omega
  · intro other among
    apply graph.offCycle_of_predecessors
    intro source edge
    have zero := ((newReady other).mp among).2
    have earlier :=
      (graph.openEdges_eq_zero_iff _ other).mp zero source edge
    apply invariant.offCycle
    rw [allPermuted.mem_iff]
    exact List.mem_append_left rest earlier

/-- The loop keeps the invariant and, given one unit of fuel for each node
not served yet, stops with an empty queue. -/
theorem Graph.invariant_loop
    (service : Service ν) (fuel : Nat) {state : State ν}
    (invariant : graph.Invariant state)
    (enough : graph.nodes.length ≤ state.served.length + fuel) :
    graph.Invariant (loop service graph.successors fuel state) ∧
      (loop service graph.successors fuel state).queue = [] := by
  induction fuel generalizing state with
  | zero =>
      refine ⟨invariant, ?_⟩
      have inside : state.served ++ state.queue ⊆ graph.nodes := by
        intro node among
        exact ((invariant.ready node).mp among).1
      have short := (invariant.nodup.subperm inside).length_le
      rw [List.length_append] at short
      apply List.eq_nil_of_length_eq_zero
      rw [loop]
      omega
  | succ fuel inductionHypothesis =>
      rw [loop]
      cases taken : service.take state.queue with
      | none =>
          exact ⟨invariant, service.takeNone taken⟩
      | some found =>
          obtain ⟨node, rest⟩ := found
          apply inductionHypothesis
          · exact graph.invariant_serve invariant taken
          · simp only [List.length_append, List.length_singleton]
            omega

/-! ## Cycles -/

theorem Graph.served_of_acyclic
    {state : State ν}
    (invariant : graph.Invariant state)
    (finished : state.queue = [])
    (acyclic : graph.Acyclic)
    {node : ν} (member : node ∈ graph.nodes) :
    node ∈ state.served := by
  let Before : {node // node ∈ graph.nodes} →
      {node // node ∈ graph.nodes} → Prop :=
    fun source target => Relation.TransGen graph.Edge source.1 target.1
  have transitive : IsTrans _ Before :=
    ⟨fun _ _ _ first second => first.trans second⟩
  have irreflexive : Std.Irrefl Before :=
    ⟨fun node => acyclic node.1⟩
  have wellFounded : WellFounded Before :=
    Finite.wellFounded_of_trans_of_irrefl Before
  have all : ∀ node : {node // node ∈ graph.nodes},
      node.1 ∈ state.served := by
    intro node
    induction node using wellFounded.induction with
    | _ node inductionHypothesis =>
        have ready := (invariant.ready node.1).mpr ⟨node.2, by
          rw [graph.openEdges_eq_zero_iff]
          intro source edge
          exact inductionHypothesis ⟨source, edge.1⟩
            (Relation.TransGen.single edge)⟩
        rw [finished, List.append_nil] at ready
        exact ready
  exact all ⟨node, member⟩

/-- The loop serves all nodes exactly when the graph has no cycle. -/
theorem Graph.length_served_iff
    (service : Service ν) {indegree : ν → Int}
    (counted : ∀ node, indegree node = graph.openEdges [] node) :
    (loop service graph.successors graph.nodes.length
        (graph.start indegree)).served.length = graph.nodes.length ↔
      graph.Acyclic := by
  obtain ⟨invariant, finished⟩ :=
    graph.invariant_loop service graph.nodes.length
      (graph.invariant_start counted) (by simp [Graph.start])
  generalize loop service graph.successors graph.nodes.length
    (graph.start indegree) = final at invariant finished ⊢
  have nodup : final.served.Nodup := by
    have all := invariant.nodup
    rwa [finished, List.append_nil] at all
  have inside : final.served ⊆ graph.nodes := by
    intro node served
    have ready := (invariant.ready node).mp
      (List.mem_append_left final.queue served)
    exact ready.1
  have subperm := nodup.subperm inside
  constructor
  · intro full node cycle
    obtain ⟨successor, edge, _⟩ := Relation.TransGen.head'_iff.mp cycle
    have permuted := subperm.perm_of_length_le (le_of_eq full.symm)
    have served := permuted.mem_iff.mpr edge.1
    exact invariant.offCycle node
      (List.mem_append_left final.queue served) cycle
  · intro acyclic
    apply le_antisymm subperm.length_le
    apply (graph.nodupNodes.subperm ?_).length_le
    intro node member
    exact graph.served_of_acyclic invariant finished acyclic member

/-- Every node of the list comes after all its predecessors. -/
def Ordered (edge : ν → ν → Prop) (order : List ν) : Prop :=
  ∀ front node back, order = front ++ node :: back →
    ∀ source, edge source node → source ∈ front

omit [DecidableEq ν] in
theorem Ordered.serve
    {edge : ν → ν → Prop} {served : List ν} {node : ν}
    (ordered : Ordered edge served)
    (earlier : ∀ source, edge source node → source ∈ served) :
    Ordered edge (served ++ [node]) := by
  intro front other back cut source leads
  rcases List.append_eq_append_iff.mp cut with
    ⟨middle, frontEq, lastEq⟩ | ⟨middle, servedEq, restEq⟩
  · cases middle with
    | nil =>
        rw [List.nil_append, List.cons.injEq] at lastEq
        rw [← lastEq.1] at leads
        rw [frontEq]
        exact List.mem_append_left [] (earlier source leads)
    | cons head tail =>
        simp at lastEq
  · cases middle with
    | nil =>
        rw [List.nil_append, List.cons.injEq] at restEq
        rw [restEq.1] at leads
        rw [List.append_nil] at servedEq
        rw [← servedEq]
        exact earlier source leads
    | cons head tail =>
        rw [List.cons_append, List.cons.injEq] at restEq
        rw [← restEq.1] at servedEq
        exact ordered front other tail servedEq source leads

theorem Graph.ordered_loop
    (service : Service ν) (fuel : Nat) {state : State ν}
    (invariant : graph.Invariant state)
    (ordered : Ordered graph.Edge state.served) :
    Ordered graph.Edge
      (loop service graph.successors fuel state).served := by
  induction fuel generalizing state with
  | zero =>
      exact ordered
  | succ fuel inductionHypothesis =>
      rw [loop]
      cases taken : service.take state.queue with
      | none =>
          exact ordered
      | some found =>
          obtain ⟨node, rest⟩ := found
          have waiting : node ∈ state.served ++ state.queue := by
            apply List.mem_append_right
            exact (service.takePerm taken).mem_iff.mpr List.mem_cons_self
          have ready := ((invariant.ready node).mp waiting).2
          apply inductionHypothesis
          · exact graph.invariant_serve invariant taken
          · exact ordered.serve
              ((graph.openEdges_eq_zero_iff _ node).mp ready)

/-- A loop that serves as many nodes as there are serves each of them once,
and after its predecessors. -/
theorem Graph.served_of_full
    (service : Service ν) {indegree : ν → Int}
    (counted : ∀ node, indegree node = graph.openEdges [] node)
    (full : (loop service graph.successors graph.nodes.length
        (graph.start indegree)).served.length = graph.nodes.length) :
    (loop service graph.successors graph.nodes.length
        (graph.start indegree)).served.Perm graph.nodes ∧
      Ordered graph.Edge (loop service graph.successors graph.nodes.length
        (graph.start indegree)).served := by
  have started := graph.invariant_start counted
  obtain ⟨invariant, finished⟩ :=
    graph.invariant_loop service graph.nodes.length started
      (by simp [Graph.start])
  constructor
  · have nodup := invariant.nodup
    rw [finished, List.append_nil] at nodup
    apply (nodup.subperm ?_).perm_of_length_le (le_of_eq full.symm)
    intro node served
    exact ((invariant.ready node).mp (List.mem_append_left _ served)).1
  · apply graph.ordered_loop service _ started
    intro front node back cut
    cases front with
    | nil => cases cut
    | cons _ _ => cases cut

section OfEdges

/-- The targets of the edges that leave `source`, in the order of the list. -/
def outgoing (edges : List (ν × ν)) (source : ν) : List ν :=
  (edges.filter fun edge => decide (edge.1 = source)).map Prod.snd

/-- The number of edges that enter `target`. -/
def incoming (edges : List (ν × ν)) (target : ν) : Nat :=
  (edges.map Prod.snd).count target

theorem mem_outgoing_iff
    {edges : List (ν × ν)} {source target : ν} :
    target ∈ outgoing edges source ↔ (source, target) ∈ edges := by
  unfold outgoing
  constructor
  · intro member
    obtain ⟨⟨first, second⟩, kept, rfl⟩ := List.mem_map.mp member
    obtain ⟨among, same⟩ := List.mem_filter.mp kept
    have equal : first = source := of_decide_eq_true same
    rw [equal] at among
    exact among
  · intro among
    refine List.mem_map.mpr ⟨(source, target), ?_, rfl⟩
    exact List.mem_filter.mpr ⟨among, decide_eq_true rfl⟩

def Graph.ofEdges
    (nodes : List ν) (edges : List (ν × ν))
    (nodup : nodes.Nodup)
    (inside : ∀ edge ∈ edges, edge.2 ∈ nodes) : Graph ν where
  nodes := nodes
  successors := outgoing edges
  nodupNodes := nodup
  closed := by
    intro node successor _ leaves
    exact inside (node, successor) (mem_outgoing_iff.mp leaves)

/-- Each edge leaves exactly one of the nodes, so that counting the edges
into `target` node by node counts all of them. -/
theorem sum_outgoing_count
    {nodes : List ν} (nodup : nodes.Nodup) (target : ν)
    {edges : List (ν × ν)} (inside : ∀ edge ∈ edges, edge.1 ∈ nodes) :
    (nodes.map fun node => (outgoing edges node).count target).sum =
      incoming edges target := by
  induction edges with
  | nil =>
      simp [outgoing, incoming]
  | cons edge rest inductionHypothesis =>
      have restInside : ∀ other ∈ rest, other.1 ∈ nodes :=
        fun other among => inside other (List.mem_cons_of_mem _ among)
      have here := inside edge List.mem_cons_self
      have perNode : ∀ node : ν,
          (outgoing (edge :: rest) node).count target =
            (outgoing rest node).count target +
              if edge.1 = node then
                (if edge.2 = target then 1 else 0)
              else 0 := by
        intro node
        unfold outgoing
        by_cases leaves : edge.1 = node
        · simp [leaves, List.count_cons]
        · simp [leaves]
      have single : ∀ amount : Nat,
          (nodes.map fun node =>
            if edge.1 = node then amount else 0).sum = amount := by
        intro amount
        clear inductionHypothesis perNode restInside inside
        induction nodes with
        | nil =>
            cases here
        | cons node others inductionHypothesis =>
            obtain ⟨absent, nodupOthers⟩ := List.nodup_cons.mp nodup
            rw [List.map_cons, List.sum_cons]
            rcases List.mem_cons.mp here with same | later
            · have none :
                  (others.map fun other =>
                    if edge.1 = other then amount else 0).sum = 0 := by
                apply List.sum_eq_zero_iff_forall_eq_nat.mpr
                intro count counted
                obtain ⟨other, among, rfl⟩ := List.mem_map.mp counted
                apply if_neg
                rintro rfl
                exact absent (same ▸ among)
              rw [if_pos same, none, Nat.add_zero]
            · have different : edge.1 ≠ node := by
                rintro rfl
                exact absent later
              rw [if_neg different, Nat.zero_add]
              exact inductionHypothesis nodupOthers later
      simp only [perNode]
      rw [List.sum_map_add, single, inductionHypothesis restInside]
      unfold incoming
      rw [List.map_cons, List.count_cons]
      simp

theorem Graph.openEdges_ofEdges
    {nodes : List ν} {edges : List (ν × ν)}
    (nodup : nodes.Nodup)
    (inside : ∀ edge ∈ edges, edge.1 ∈ nodes ∧ edge.2 ∈ nodes)
    (target : ν) :
    (Graph.ofEdges nodes edges nodup
      (fun edge among => (inside edge among).2)).openEdges [] target =
      incoming edges target := by
  rw [← sum_outgoing_count nodup target
    (fun edge among => (inside edge among).1)]
  simp [Graph.openEdges, Graph.ofEdges]

theorem Graph.edge_ofEdges
    {nodes : List ν} {edges : List (ν × ν)}
    (nodup : nodes.Nodup)
    (inside : ∀ edge ∈ edges, edge.1 ∈ nodes ∧ edge.2 ∈ nodes) :
    (Graph.ofEdges nodes edges nodup
      (fun edge among => (inside edge among).2)).Edge =
      fun source target => (source, target) ∈ edges := by
  funext source target
  apply propext
  constructor
  · rintro ⟨_, successor⟩
    exact mem_outgoing_iff.mp successor
  · intro among
    exact ⟨(inside _ among).1, mem_outgoing_iff.mpr among⟩

/-- A graph given by its edges has no cycle exactly when the loop, started
from the numbers of incoming edges, serves all nodes. -/
theorem length_served_ofEdges_iff
    (service : Service ν)
    {nodes : List ν} {edges : List (ν × ν)}
    (nodup : nodes.Nodup)
    (inside : ∀ edge ∈ edges, edge.1 ∈ nodes ∧ edge.2 ∈ nodes) :
    (loop service (outgoing edges) nodes.length
        { queue := nodes.filter (fun node => (incoming edges node : Int) == 0)
          indegree := fun node => incoming edges node }).served.length =
        nodes.length ↔
      ∀ node,
        ¬ Relation.TransGen (fun source target => (source, target) ∈ edges)
          node node := by
  let graph := Graph.ofEdges nodes edges nodup
    (fun edge among => (inside edge among).2)
  have counted : ∀ node,
      (incoming edges node : Int) = graph.openEdges [] node := by
    intro node
    rw [Graph.openEdges_ofEdges nodup inside]
  have decided := graph.length_served_iff service counted
  rw [Graph.Acyclic, Graph.edge_ofEdges nodup inside] at decided
  exact decided

/-- On a graph given by its edges, a full service is a permutation of the
nodes in which the source of an edge comes before its target. -/
theorem served_ofEdges_of_full
    (service : Service ν)
    {nodes : List ν} {edges : List (ν × ν)}
    (nodup : nodes.Nodup)
    (inside : ∀ edge ∈ edges, edge.1 ∈ nodes ∧ edge.2 ∈ nodes)
    {served : List ν}
    (same : (loop service (outgoing edges) nodes.length
        { queue := nodes.filter (fun node => (incoming edges node : Int) == 0)
          indegree := fun node => incoming edges node }).served = served)
    (full : served.length = nodes.length) :
    served.Perm nodes ∧
      Ordered (fun source target => (source, target) ∈ edges) served := by
  let graph := Graph.ofEdges nodes edges nodup
    (fun edge among => (inside edge among).2)
  have counted : ∀ node,
      (incoming edges node : Int) = graph.openEdges [] node := by
    intro node
    rw [Graph.openEdges_ofEdges nodup inside]
  rw [← same] at full ⊢
  have facts := graph.served_of_full service counted full
  rw [Graph.edge_ofEdges nodup inside] at facts
  exact facts

end OfEdges

end Agentcy.Library.Kahn
