import Mathlib.Algebra.BigOperators.Ring.Finset
import Mathlib.Algebra.Order.BigOperators.Group.Finset
import Mathlib.Data.Finset.Lattice.Fold
import Mathlib.Logic.Relation
import Mathlib.Order.Lattice.Nat

/-!
# Tokens that nodes of a graph pass on

Nodes are started from outside, in lines: each line starts its nodes in order,
and the lines go on side by side.  Besides, a node with inputs remembers which
of them have sent it a token, and fires as soon as it has one from each of
them; then it starts over.  A firing puts a number of tokens on every edge that
leaves the node, and tokens are delivered in any order.
-/

namespace Agentcy.Library

universe u

/-- A finite graph without cycles: the lines of nodes to be started, and the
number of tokens that a firing of one node puts on the edge to another. -/
structure Network (α : Type u) [DecidableEq α] where
  nodes : Finset α
  inputs : α → Finset α
  lines : List (List α)
  copies : α → α → ℕ
  depth : α → ℕ
  known : ∀ node ∈ lines.flatten, node ∈ nodes
  closed : ∀ node ∈ nodes, inputs node ⊆ nodes
  deeper : ∀ node ∈ nodes, ∀ input ∈ inputs node, depth input < depth node
  positive : ∀ node ∈ nodes, ∀ input ∈ inputs node, 0 < copies input node

/-- What is under way: what is left of the lines, tokens on edges, the inputs
that every node has heard from since it last fired, and the firings so far. -/
structure Marking (α : Type u) where
  waiting : List (List α)
  tokens : Multiset (α × α) := 0
  arrived : α → Finset α := fun _ => ∅
  fired : List α := []

/-- The nodes to be started. -/
def Marking.pending {α : Type u} (marking : Marking α) : List α :=
  marking.waiting.flatten

namespace Network

variable {α : Type u} [DecidableEq α] (net : Network α)

/-- How often a node is started from outside. -/
def starts (node : α) : ℕ :=
  net.lines.flatten.count node

def successors (node : α) : Finset α :=
  net.nodes.filter fun other => node ∈ net.inputs other

/-- The tokens that a firing of a node puts on its edges. -/
def emitted (node : α) : Multiset (α × α) :=
  ∑ other ∈ net.successors node,
    Multiset.replicate (net.copies node other) (node, other)

def initial : Marking α where
  waiting := net.lines

def fire (marking : Marking α) (node : α) : Marking α :=
  { marking with
    tokens := marking.tokens + net.emitted node
    fired := marking.fired ++ [node] }

/-- The first node of a line is started, which leaves these lines. -/
def start (marking : Marking α) (left : List (List α)) (node : α) :
    Marking α :=
  net.fire { marking with waiting := left } node

/-- A node takes a token from one of its edges. -/
def deliver (marking : Marking α) (edge : α × α) : Marking α :=
  let here := insert edge.1 (marking.arrived edge.2)
  let left := marking.tokens.erase edge
  if net.inputs edge.2 ⊆ here then
    net.fire
      { marking with
        tokens := left
        arrived := Function.update marking.arrived edge.2 ∅ } edge.2
  else
    { marking with
      tokens := left
      arrived := Function.update marking.arrived edge.2 here }

inductive Step : Marking α → Marking α → Prop
  | start {marking : Marking α} {front back : List (List α)} {node : α}
      {rest : List α}
      (waits : marking.waiting = front ++ (node :: rest) :: back) :
      Step marking (net.start marking (front ++ rest :: back) node)
  | deliver {marking : Marking α} {edge : α × α}
      (sent : edge ∈ marking.tokens) :
      Step marking (net.deliver marking edge)

def Reachable (marking : Marking α) : Prop :=
  Relation.ReflTransGen net.Step net.initial marking

end Network

/-- Nothing is left to be started or delivered. -/
def Marking.Finished {α : Type u} (marking : Marking α) : Prop :=
  marking.pending = [] ∧ marking.tokens = 0

namespace Network

variable {α : Type u} [DecidableEq α] (net : Network α)

omit [DecidableEq α] in
theorem perm_pending
    {marking : Marking α} {front back : List (List α)} {node : α}
    {rest : List α}
    (waits : marking.waiting = front ++ (node :: rest) :: back) :
    marking.pending.Perm (node :: (front ++ rest :: back).flatten) := by
  rw [Marking.pending, waits, List.flatten_append, List.flatten_append,
    List.flatten_cons, List.flatten_cons, List.cons_append]
  exact List.perm_middle

omit [DecidableEq α] in
theorem exists_line
    {marking : Marking α} (pending : marking.pending ≠ []) :
    ∃ front node rest back,
      marking.waiting = front ++ (node :: rest) :: back := by
  obtain ⟨line, isLine, some⟩ := List.flatten_ne_nil_iff.mp pending
  obtain ⟨front, back, split⟩ := List.append_of_mem isLine
  obtain ⟨node, rest, rfl⟩ := List.exists_cons_of_ne_nil some
  exact ⟨front, node, rest, back, split⟩

theorem mem_successors_iff {node other : α} :
    other ∈ net.successors node ↔
      other ∈ net.nodes ∧ node ∈ net.inputs other := by
  rw [successors, Finset.mem_filter]

theorem count_emitted (node : α) (edge : α × α) :
    (net.emitted node).count edge =
      if edge.1 = node ∧ edge.2 ∈ net.successors node then
        net.copies edge.1 edge.2
      else 0 := by
  rw [emitted, Multiset.count_sum']
  by_cases leaves : edge.1 = node ∧ edge.2 ∈ net.successors node
  · obtain ⟨same, member⟩ := leaves
    rw [if_pos ⟨same, member⟩, Finset.sum_eq_single edge.2]
    · rw [← same, Prod.mk.eta, Multiset.count_replicate_self]
    · intro other _ different
      rw [Multiset.count_replicate, if_neg]
      intro equal
      exact different (congrArg Prod.snd equal)
    · intro absent
      exact absurd member absent
  · rw [if_neg leaves, Finset.sum_eq_zero]
    intro other member
    rw [Multiset.count_replicate, if_neg]
    intro equal
    exact leaves ⟨(congrArg Prod.fst equal).symm,
      (congrArg Prod.snd equal) ▸ member⟩

theorem mem_emitted_iff {node : α} {edge : α × α} :
    edge ∈ net.emitted node ↔
      edge.1 = node ∧ edge.2 ∈ net.successors node := by
  rw [← Multiset.count_pos, net.count_emitted]
  by_cases leaves : edge.1 = node ∧ edge.2 ∈ net.successors node
  · rw [if_pos leaves]
    obtain ⟨same, member⟩ := leaves
    obtain ⟨isNode, isInput⟩ := net.mem_successors_iff.mp member
    exact iff_of_true
      (net.positive edge.2 isNode edge.1 (same ▸ isInput)) ⟨same, member⟩
  · rw [if_neg leaves]
    exact iff_of_false (Nat.lt_irrefl 0) leaves

def height (node : α) : ℕ :=
  net.nodes.sup net.depth - net.depth node

theorem height_lt_of_successor
    {node other : α} (member : other ∈ net.successors node) :
    net.height other < net.height node := by
  obtain ⟨isNode, isInput⟩ := net.mem_successors_iff.mp member
  have deeper := net.deeper other isNode node isInput
  have bound : net.depth other ≤ net.nodes.sup net.depth :=
    Finset.le_sup isNode
  unfold height
  omega

/-- Steps that a token on an edge to the node may lead to at most, its own
delivery included. -/
def cost (node : α) : ℕ :=
  1 + ∑ other ∈ (net.successors node).attach,
    net.copies node other * cost other
termination_by net.height node
decreasing_by
  exact net.height_lt_of_successor other.2

theorem cost_eq (node : α) :
    net.cost node =
      1 + ∑ other ∈ net.successors node,
        net.copies node other * net.cost other := by
  rw [cost, Finset.sum_attach (net.successors node)
    fun other => net.copies node other * net.cost other]

/-- Steps that are left at most. -/
def potential (marking : Marking α) : ℕ :=
  (marking.pending.map net.cost).sum +
    (marking.tokens.map fun edge => net.cost edge.2).sum

theorem sum_cost_emitted (node : α) :
    ((net.emitted node).map fun edge => net.cost edge.2).sum + 1 =
      net.cost node := by
  have total : ∀ others : Finset α,
      ((∑ other ∈ others, Multiset.replicate (net.copies node other)
          (node, other)).map fun edge => net.cost edge.2).sum =
        ∑ other ∈ others, net.copies node other * net.cost other := by
    intro others
    induction others using Finset.induction_on with
    | empty =>
        rfl
    | insert other rest fresh inductionHypothesis =>
        rw [Finset.sum_insert fresh, Finset.sum_insert fresh,
          Multiset.map_add, Multiset.sum_add, inductionHypothesis,
          Multiset.map_replicate, Multiset.sum_replicate, Nat.nsmul_eq_mul]
  rw [emitted, total, net.cost_eq, Nat.add_comm]

theorem potential_fire (marking : Marking α) (node : α) :
    net.potential (net.fire marking node) + 1 =
      net.potential marking + net.cost node := by
  have emits := net.sum_cost_emitted node
  simp only [potential, Marking.pending, fire, Multiset.map_add,
    Multiset.sum_add]
  omega

theorem potential_step {marking later : Marking α}
    (step : net.Step marking later) :
    net.potential later < net.potential marking := by
  cases step with
  | @start front back node rest waits =>
      have fires := net.potential_fire
        { marking with waiting := front ++ rest :: back } node
      have taken : (marking.pending.map net.cost).sum =
          net.cost node +
            ((front ++ rest :: back).flatten.map net.cost).sum :=
        ((perm_pending waits).map net.cost).sum_eq
      simp only [potential, Marking.pending] at fires taken ⊢
      simp only [start]
      omega
  | @deliver edge sent =>
      have taken : net.cost edge.2 +
          ((marking.tokens.erase edge).map fun other =>
            net.cost other.2).sum =
            (marking.tokens.map fun other => net.cost other.2).sum :=
        Multiset.sum_map_erase (f := fun other : α × α => net.cost other.2)
          sent
      have positive : 0 < net.cost edge.2 := by
        rw [net.cost_eq]
        omega
      unfold deliver
      dsimp only
      split
      · have fires := net.potential_fire
          { marking with
            tokens := marking.tokens.erase edge
            arrived := Function.update marking.arrived edge.2 ∅ } edge.2
        simp only [potential, Marking.pending] at fires ⊢
        omega
      · simp only [potential, Marking.pending]
        omega

theorem exists_step_of_not_finished
    {marking : Marking α} (going : ¬ marking.Finished) :
    ∃ later, net.Step marking later := by
  by_cases pending : marking.pending = []
  · have tokens : marking.tokens ≠ 0 :=
      fun none => going ⟨pending, none⟩
    obtain ⟨edge, sent⟩ := Multiset.exists_mem_of_ne_zero tokens
    exact ⟨net.deliver marking edge, .deliver sent⟩
  · obtain ⟨front, node, rest, back, waits⟩ := exists_line pending
    exact ⟨net.start marking (front ++ rest :: back) node, .start waits⟩

/-- Whatever has been done so far, a run can be brought to its end. -/
theorem exists_finished (marking : Marking α) :
    ∃ last, Relation.ReflTransGen net.Step marking last ∧
      last.Finished := by
  induction bound : net.potential marking
    using Nat.strong_induction_on generalizing marking with
  | _ bound inductionHypothesis =>
      by_cases finished : marking.Finished
      · exact ⟨marking, .refl, finished⟩
      · obtain ⟨later, step⟩ := net.exists_step_of_not_finished finished
        have smaller := net.potential_step step
        obtain ⟨last, runs, ends⟩ :=
          inductionHypothesis _ (bound ▸ smaller) later rfl
        exact ⟨last, .head step runs, ends⟩

/-! ## What every reachable marking satisfies -/

def tally (heard : Finset α) (input : α) : ℕ :=
  if input ∈ heard then 1 else 0

theorem tally_of_mem {heard : Finset α} {input : α}
    (member : input ∈ heard) : tally heard input = 1 :=
  if_pos member

theorem tally_of_not_mem {heard : Finset α} {input : α}
    (absent : input ∉ heard) : tally heard input = 0 :=
  if_neg absent

theorem tally_insert_of_ne {heard : Finset α} {input other : α}
    (different : input ≠ other) :
    tally (insert other heard) input = tally heard input :=
  if_congr (Finset.mem_insert.trans (or_iff_right different)) rfl rfl

/-- What is left of the starts of a node and of the tokens from an input, and
the firings of the node, each of which has taken one of them. -/
def usedBy (marking : Marking α) (input node : α) : ℕ :=
  marking.pending.count node + marking.fired.count node +
    tally (marking.arrived node) input +
    marking.tokens.count (input, node)

structure Coherent (marking : Marking α) : Prop where
  onEdges : ∀ edge ∈ marking.tokens, edge.2 ∈ net.successors edge.1
  startsNodes : ∀ node ∈ marking.pending, node ∈ net.nodes
  firesNodes : ∀ node ∈ marking.fired, node ∈ net.nodes
  started : ∀ node ∈ net.nodes, net.starts node ≤
    marking.pending.count node + marking.fired.count node
  sources : ∀ node ∈ net.nodes, net.inputs node = ∅ →
    marking.pending.count node + marking.fired.count node =
      net.starts node
  incomplete : ∀ node ∈ net.nodes, net.inputs node ≠ ∅ →
    ¬ net.inputs node ⊆ marking.arrived node
  balanced : ∀ node ∈ net.nodes, ∀ input ∈ net.inputs node,
    usedBy marking input node ≤
      net.starts node + net.copies input node * marking.fired.count input
  remembered : ∀ node ∈ net.nodes, ∀ input ∈ net.inputs node,
    input ∈ marking.fired →
      (input, node) ∈ marking.tokens ∨ input ∈ marking.arrived node ∨
        node ∈ marking.fired

theorem count_fired_fire (marking : Marking α) (fires node : α) :
    (net.fire marking fires).fired.count node =
      marking.fired.count node + if node = fires then 1 else 0 := by
  by_cases same : node = fires
  · simp [fire, same]
  · simp [fire, same, Ne.symm same]

theorem count_tokens_fire (marking : Marking α) (fires : α)
    (input node : α) :
    (net.fire marking fires).tokens.count (input, node) =
      marking.tokens.count (input, node) +
        if input = fires ∧ node ∈ net.successors fires then
          net.copies input node
        else 0 := by
  rw [fire, Multiset.count_add, net.count_emitted]

theorem usedBy_fire (marking : Marking α) (fires input node : α) :
    usedBy (net.fire marking fires) input node =
      usedBy marking input node + (if node = fires then 1 else 0) +
        if input = fires ∧ node ∈ net.successors fires then
          net.copies input node
        else 0 := by
  have arrived :
      (net.fire marking fires).arrived = marking.arrived := rfl
  have pending :
      (net.fire marking fires).pending = marking.pending := rfl
  unfold usedBy
  rw [net.count_fired_fire, net.count_tokens_fire, arrived, pending]
  omega

/-- A node that has put a token on each of its edges has been paid for. -/
theorem balanced_fire
    {marking : Marking α} {fires : α}
    (paid : ∀ node ∈ net.nodes, ∀ input ∈ net.inputs node,
      usedBy marking input node + (if node = fires then 1 else 0) ≤
        net.starts node +
          net.copies input node * marking.fired.count input) :
    ∀ node ∈ net.nodes, ∀ input ∈ net.inputs node,
      usedBy (net.fire marking fires) input node ≤
        net.starts node + net.copies input node *
          (net.fire marking fires).fired.count input := by
  intro node isNode input isInput
  have before := paid node isNode input isInput
  rw [net.usedBy_fire, net.count_fired_fire]
  by_cases same : input = fires
  · have leaves : node ∈ net.successors fires :=
      net.mem_successors_iff.mpr ⟨isNode, same ▸ isInput⟩
    have both : input = fires ∧ node ∈ net.successors fires :=
      ⟨same, leaves⟩
    rw [if_pos both, if_pos same, Nat.mul_succ]
    omega
  · have neither : ¬ (input = fires ∧ node ∈ net.successors fires) :=
      fun both => same both.1
    rw [if_neg neither, if_neg same]
    exact before

theorem remembered_fire
    {marking : Marking α} {fires : α}
    (before : ∀ node ∈ net.nodes, ∀ input ∈ net.inputs node,
      node ≠ fires → input ∈ marking.fired →
        (input, node) ∈ marking.tokens ∨ input ∈ marking.arrived node ∨
          node ∈ marking.fired) :
    ∀ node ∈ net.nodes, ∀ input ∈ net.inputs node,
      input ∈ (net.fire marking fires).fired →
        (input, node) ∈ (net.fire marking fires).tokens ∨
          input ∈ (net.fire marking fires).arrived node ∨
            node ∈ (net.fire marking fires).fired := by
  intro node isNode input isInput fired
  by_cases own : node = fires
  · exact Or.inr (Or.inr (by simp [fire, own]))
  · rcases List.mem_append.mp fired with earlier | now
    · rcases before node isNode input isInput own earlier with
        token | heard | done
      · exact Or.inl (Multiset.mem_add.mpr (Or.inl token))
      · exact Or.inr (Or.inl heard)
      · exact Or.inr (Or.inr (List.mem_append_left _ done))
    · have same : input = fires := List.mem_singleton.mp now
      refine Or.inl (Multiset.mem_add.mpr (Or.inr ?_))
      exact net.mem_emitted_iff.mpr
        ⟨same, net.mem_successors_iff.mpr ⟨isNode, same ▸ isInput⟩⟩

theorem onEdges_fire
    {marking : Marking α} {fires : α}
    (before : ∀ edge ∈ marking.tokens,
      edge.2 ∈ net.successors edge.1) :
    ∀ edge ∈ (net.fire marking fires).tokens,
      edge.2 ∈ net.successors edge.1 := by
  intro edge member
  rcases Multiset.mem_add.mp member with earlier | now
  · exact before edge earlier
  · obtain ⟨same, leaves⟩ := net.mem_emitted_iff.mp now
    exact same ▸ leaves

theorem firesNodes_fire
    {marking : Marking α} {fires : α} (isNode : fires ∈ net.nodes)
    (before : ∀ node ∈ marking.fired, node ∈ net.nodes) :
    ∀ node ∈ (net.fire marking fires).fired, node ∈ net.nodes := by
  intro node member
  rcases List.mem_append.mp member with earlier | now
  · exact before node earlier
  · exact List.mem_singleton.mp now ▸ isNode

namespace Coherent

variable {net} {marking : Marking α}

theorem initial : net.Coherent net.initial where
  onEdges := by
    intro edge member
    exact absurd member (Multiset.notMem_zero edge)
  startsNodes := net.known
  firesNodes := by
    intro node member
    cases member
  started := by
    intro node _
    exact le_rfl
  sources := by
    intro node _ _
    rfl
  incomplete := by
    intro node _ waits covered
    exact waits (Finset.subset_empty.mp covered)
  balanced := by
    intro node _ input _
    exact le_rfl
  remembered := by
    intro node _ input _ member
    cases member

/-- A token comes from a node that has fired, and so does one that a node
remembers. -/
theorem input_fired
    (coherent : net.Coherent marking) {node input : α}
    (isNode : node ∈ net.nodes) (isInput : input ∈ net.inputs node)
    (used : (input, node) ∈ marking.tokens ∨
      input ∈ marking.arrived node) :
    input ∈ marking.fired := by
  have balanced := coherent.balanced node isNode input isInput
  have started := coherent.started node isNode
  by_contra absent
  rw [List.count_eq_zero_of_not_mem absent, Nat.mul_zero] at balanced
  unfold usedBy at balanced
  rcases used with token | heard
  · have counted := Multiset.count_pos.mpr token
    omega
  · rw [tally_of_mem heard] at balanced
    omega

theorem start
    (coherent : net.Coherent marking) {front back : List (List α)}
    {node : α} {rest : List α}
    (waits : marking.waiting = front ++ (node :: rest) :: back) :
    net.Coherent (net.start marking (front ++ rest :: back) node) := by
  have perm := perm_pending waits
  have isNode := coherent.startsNodes node
    (perm.mem_iff.mpr List.mem_cons_self)
  have taken : ∀ other, (front ++ rest :: back).flatten.count other +
      (if other = node then 1 else 0) = marking.pending.count other := by
    intro other
    rw [perm.count_eq, List.count_cons]
    exact congrArg _ (if_congr (eq_comm.trans beq_iff_eq.symm) rfl rfl)
  have kept : ∀ other,
      (net.start marking (front ++ rest :: back) node).pending.count
            other +
          (net.start marking (front ++ rest :: back) node).fired.count
            other =
        marking.pending.count other + marking.fired.count other := by
    intro other
    have split := taken other
    rw [Network.start, net.count_fired_fire]
    dsimp only [Marking.pending, fire] at split ⊢
    omega
  refine
    { onEdges := net.onEdges_fire coherent.onEdges, startsNodes := ?_
      firesNodes := net.firesNodes_fire isNode coherent.firesNodes
      started := ?_, sources := ?_, incomplete := coherent.incomplete
      balanced := net.balanced_fire ?_
      remembered := net.remembered_fire ?_ }
  · intro other member
    exact coherent.startsNodes other
      (perm.mem_iff.mpr (List.mem_cons_of_mem _ member))
  · intro other otherNode
    rw [kept other]
    exact coherent.started other otherNode
  · intro other otherNode isSource
    rw [kept other]
    exact coherent.sources other otherNode isSource
  · intro other otherNode input isInput
    have before := coherent.balanced other otherNode input isInput
    have split := taken other
    unfold usedBy at before ⊢
    dsimp only [Marking.pending] at before split ⊢
    omega
  · intro other otherNode input isInput _ fired
    exact coherent.remembered other otherNode input isInput fired

/-! ### Deliveries -/

section Deliver

variable {edge : α × α}

theorem edge_node
    (coherent : net.Coherent marking) (sent : edge ∈ marking.tokens) :
    edge.2 ∈ net.nodes ∧ edge.1 ∈ net.inputs edge.2 :=
  net.mem_successors_iff.mp (coherent.onEdges edge sent)

/-- A node without inputs is not delivered to. -/
theorem ne_of_source
    (coherent : net.Coherent marking) (sent : edge ∈ marking.tokens)
    {node : α} (isSource : net.inputs node = ∅) : node ≠ edge.2 := by
  intro same
  have isInput := (coherent.edge_node sent).2
  rw [← same, isSource] at isInput
  exact absurd isInput (Finset.notMem_empty _)

theorem count_erase_elsewhere
    {input node : α} (elsewhere : (input, node) ≠ edge) :
    (marking.tokens.erase edge).count (input, node) =
      marking.tokens.count (input, node) :=
  Multiset.count_erase_of_ne elsewhere _

/-- A token that completes the inputs of a node. -/
theorem deliver_complete
    (coherent : net.Coherent marking) (sent : edge ∈ marking.tokens)
    (complete :
      net.inputs edge.2 ⊆ insert edge.1 (marking.arrived edge.2)) :
    net.Coherent
      (net.fire
        { marking with
          tokens := marking.tokens.erase edge
          arrived := Function.update marking.arrived edge.2 ∅ }
        edge.2) := by
  obtain ⟨isNode, isInput⟩ := coherent.edge_node sent
  refine
    { onEdges := net.onEdges_fire ?_
      startsNodes := coherent.startsNodes
      firesNodes := net.firesNodes_fire isNode coherent.firesNodes
      started := ?_, sources := ?_, incomplete := ?_
      balanced := net.balanced_fire ?_
      remembered := net.remembered_fire ?_ }
  · intro other member
    exact coherent.onEdges other (Multiset.mem_of_mem_erase member)
  · intro node otherNode
    rw [net.count_fired_fire]
    exact (coherent.started node otherNode).trans
      (Nat.add_le_add_left (Nat.le_add_right _ _) _)
  · intro node otherNode isSource
    rw [net.count_fired_fire, if_neg (coherent.ne_of_source sent isSource)]
    exact coherent.sources node otherNode isSource
  · intro node otherNode waits covered
    dsimp only [fire] at covered
    by_cases same : node = edge.2
    · rw [same, Function.update_self] at covered
      exact waits (same ▸ Finset.subset_empty.mp covered)
    · rw [Function.update_of_ne same] at covered
      exact coherent.incomplete node otherNode waits covered
  · intro node otherNode input otherInput
    have before := coherent.balanced node otherNode input otherInput
    refine le_trans ?_ before
    unfold usedBy Marking.pending
    dsimp only
    by_cases same : node = edge.2
    · subst same
      rw [Function.update_self, if_pos rfl,
        tally_of_not_mem (Finset.notMem_empty input)]
      by_cases here : input = edge.1
      · subst here
        have counted : 0 < marking.tokens.count (edge.1, edge.2) :=
          Multiset.count_pos.mpr sent
        rw [Multiset.count_erase_self]
        omega
      · have heard : input ∈ marking.arrived edge.2 :=
          Finset.mem_of_mem_insert_of_ne (complete otherInput) here
        have elsewhere : (input, edge.2) ≠ edge :=
          fun equal => here (congrArg Prod.fst equal)
        rw [tally_of_mem heard, count_erase_elsewhere elsewhere]
        omega
    · have elsewhere : (input, node) ≠ edge :=
        fun equal => same (congrArg Prod.snd equal)
      rw [Function.update_of_ne same, if_neg same,
        count_erase_elsewhere elsewhere, Nat.add_zero]
  · intro node otherNode input otherInput different fired
    have elsewhere : (input, node) ≠ edge :=
      fun equal => different (congrArg Prod.snd equal)
    dsimp only
    rw [Function.update_of_ne different,
      Multiset.mem_erase_of_ne elsewhere]
    exact coherent.remembered node otherNode input otherInput fired

theorem deliver_incomplete
    (coherent : net.Coherent marking) (sent : edge ∈ marking.tokens)
    (missing :
      ¬ net.inputs edge.2 ⊆ insert edge.1 (marking.arrived edge.2)) :
    net.Coherent
      { marking with
        tokens := marking.tokens.erase edge
        arrived := Function.update marking.arrived edge.2
          (insert edge.1 (marking.arrived edge.2)) } := by
  refine
    { onEdges := ?_, startsNodes := coherent.startsNodes
      firesNodes := coherent.firesNodes, started := coherent.started
      sources := coherent.sources, incomplete := ?_, balanced := ?_
      remembered := ?_ }
  · intro other member
    exact coherent.onEdges other (Multiset.mem_of_mem_erase member)
  · intro node otherNode waits covered
    dsimp only at covered
    by_cases same : node = edge.2
    · rw [same, Function.update_self] at covered
      exact missing covered
    · rw [Function.update_of_ne same] at covered
      exact coherent.incomplete node otherNode waits covered
  · intro node otherNode input otherInput
    have before := coherent.balanced node otherNode input otherInput
    refine le_trans ?_ before
    unfold usedBy Marking.pending
    dsimp only
    by_cases same : node = edge.2
    · subst same
      rw [Function.update_self]
      by_cases here : input = edge.1
      · subst here
        have counted : 0 < marking.tokens.count (edge.1, edge.2) :=
          Multiset.count_pos.mpr sent
        rw [tally_of_mem (Finset.mem_insert_self _ _),
          Multiset.count_erase_self]
        omega
      · have elsewhere : (input, edge.2) ≠ edge :=
          fun equal => here (congrArg Prod.fst equal)
        rw [tally_insert_of_ne here, count_erase_elsewhere elsewhere]
    · have elsewhere : (input, node) ≠ edge :=
        fun equal => same (congrArg Prod.snd equal)
      rw [Function.update_of_ne same, count_erase_elsewhere elsewhere]
  · intro node otherNode input otherInput fired
    dsimp only
    by_cases own : (input, node) = edge
    · refine Or.inr (Or.inl ?_)
      rw [← own, Function.update_self]
      exact Finset.mem_insert_self _ _
    · rw [Multiset.mem_erase_of_ne own]
      rcases coherent.remembered node otherNode input otherInput fired with
        token | heard | done
      · exact Or.inl token
      · refine Or.inr (Or.inl ?_)
        by_cases same : node = edge.2
        · subst same
          rw [Function.update_self]
          exact Finset.mem_insert_of_mem heard
        · rw [Function.update_of_ne same]
          exact heard
      · exact Or.inr (Or.inr done)

end Deliver

theorem step
    (coherent : net.Coherent marking) {later : Marking α}
    (taken : net.Step marking later) : net.Coherent later := by
  cases taken with
  | start waits =>
      exact coherent.start waits
  | @deliver edge sent =>
      unfold Network.deliver
      dsimp only
      split
      · rename_i complete
        exact coherent.deliver_complete sent complete
      · rename_i missing
        exact coherent.deliver_incomplete sent missing

theorem steps
    (coherent : net.Coherent marking) {later : Marking α}
    (run : Relation.ReflTransGen net.Step marking later) :
    net.Coherent later := by
  induction run with
  | refl =>
      exact coherent
  | tail _ taken inductionHypothesis =>
      exact inductionHypothesis.step taken

theorem of_reachable (reachable : net.Reachable marking) :
    net.Coherent marking :=
  Coherent.initial.steps reachable

end Coherent

/-! ## Firing in order -/

/-- Every node has fired after all of its inputs. -/
def FiredInOrder (marking : Marking α) : Prop :=
  ∀ before node after, marking.fired = before ++ node :: after →
    net.inputs node ⊆ before.toFinset

theorem firedInOrder_fire
    {marking : Marking α} {fires : α} (before : net.FiredInOrder marking)
    (ready : net.inputs fires ⊆ marking.fired.toFinset) :
    net.FiredInOrder (net.fire marking fires) := by
  intro front node back split
  cases back using List.reverseRecOn with
  | nil =>
      obtain ⟨sameFront, sameNode⟩ := List.append_inj' split rfl
      cases sameNode
      rw [← sameFront]
      exact ready
  | append_singleton back last =>
      have regrouped : marking.fired ++ [fires] =
          (front ++ node :: back) ++ [last] := by
        rw [List.append_assoc, List.cons_append]
        exact split
      exact before front node back (List.append_inj' regrouped rfl).1

/-- Every line starts its nodes after their inputs. -/
def LinesInOrder : Prop :=
  ∀ line ∈ net.lines, ∀ before node after, line = before ++ node :: after →
    net.inputs node ⊆ before.toFinset

/-- What is left of the lines comes after nodes that have fired. -/
def LinesFired (marking : Marking α) : Prop :=
  ∀ left ∈ marking.waiting, ∃ line ∈ net.lines, ∃ done,
    line = done ++ left ∧ ∀ node ∈ done, node ∈ marking.fired

theorem LinesFired.fire
    {marking : Marking α} (lines : net.LinesFired marking) (fires : α) :
    net.LinesFired (net.fire marking fires) := by
  intro left isLeft
  obtain ⟨line, isLine, done, split, fired⟩ := lines left isLeft
  exact ⟨line, isLine, done, split, fun node member =>
    List.mem_append_left _ (fired node member)⟩

theorem LinesFired.step
    {marking later : Marking α} (lines : net.LinesFired marking)
    (taken : net.Step marking later) : net.LinesFired later := by
  cases taken with
  | @start front back node rest waits =>
      intro left isLeft
      have earlier {other : List α} (among : other ∈ marking.waiting) :=
        lines.fire net node other among
      rcases List.mem_append.mp isLeft with before | here
      · exact earlier (waits ▸ List.mem_append_left _ before)
      rcases List.mem_cons.mp here with rfl | after
      · obtain ⟨line, isLine, done, split, fired⟩ :=
          earlier (waits ▸ List.mem_append_right _ List.mem_cons_self)
        refine ⟨line, isLine, done ++ [node], ?_, ?_⟩
        · rw [split, List.append_assoc]
          rfl
        · intro other member
          rcases List.mem_append.mp member with early | now
          · exact fired other early
          · exact List.mem_append_right _ now
      · exact earlier (waits ▸ List.mem_append_right _
          (List.mem_cons_of_mem _ after))
  | @deliver edge sent =>
      unfold deliver
      dsimp only
      split
      · exact LinesFired.fire net lines edge.2
      · exact lines

theorem firedInOrder_step
    (inOrder : net.LinesInOrder)
    {marking later : Marking α} (coherent : net.Coherent marking)
    (lines : net.LinesFired marking) (ordered : net.FiredInOrder marking)
    (taken : net.Step marking later) : net.FiredInOrder later := by
  cases taken with
  | @start front back node rest waits =>
      apply net.firedInOrder_fire ordered
      obtain ⟨line, isLine, done, split, fired⟩ :=
        lines (node :: rest)
          (waits ▸ List.mem_append_right _ List.mem_cons_self)
      intro input isInput
      have earlier := inOrder line isLine done node rest split isInput
      exact List.mem_toFinset.mpr (fired input (List.mem_toFinset.mp earlier))
  | @deliver edge sent =>
      obtain ⟨isNode, isInput⟩ := coherent.edge_node sent
      unfold deliver
      dsimp only
      split
      · rename_i complete
        apply net.firedInOrder_fire ordered
        intro input otherInput
        rw [List.mem_toFinset]
        rcases Finset.mem_insert.mp (complete otherInput) with here | heard
        · subst here
          exact coherent.input_fired isNode otherInput (Or.inl sent)
        · exact coherent.input_fired isNode otherInput (Or.inr heard)
      · exact ordered

/-- A line may have started some of its nodes before anything else is
done. -/
theorem exists_begun
    {front back : List (List α)} (done left : List α)
    (isLine : net.lines = front ++ (done ++ left) :: back) :
    ∃ marking, net.Reachable marking ∧
      marking.waiting = front ++ left :: back ∧ marking.fired = done := by
  induction done using List.reverseRecOn generalizing left with
  | nil =>
      exact ⟨net.initial, .refl, isLine, rfl⟩
  | append_singleton done node inductionHypothesis =>
      obtain ⟨marking, reachable, waits, fired⟩ :=
        inductionHypothesis (node :: left) (by
          rw [isLine, List.append_assoc done [node] left]
          rfl)
      exact ⟨net.start marking (front ++ left :: back) node,
        reachable.tail (.start waits), rfl, congrArg (· ++ [node]) fired⟩

/-- Nodes fire after their inputs in every run exactly if every line starts
its nodes after theirs. -/
theorem firedInOrder_iff :
    (∀ marking, net.Reachable marking → net.FiredInOrder marking) ↔
      net.LinesInOrder := by
  constructor
  · intro ordered line isLine before node after split
    obtain ⟨front, back, whole⟩ := List.append_of_mem isLine
    obtain ⟨marking, reachable, _, fired⟩ :=
      net.exists_begun (before ++ [node]) after (by
        rw [List.append_assoc before [node] after, whole, split]
        rfl)
    exact ordered marking reachable before node [] fired
  · intro inOrder marking reachable
    have both : net.LinesFired marking ∧ net.FiredInOrder marking := by
      induction reachable with
      | refl =>
          refine ⟨fun left isLeft => ⟨left, isLeft, [], rfl, ?_⟩, ?_⟩
          · intro node none
            cases none
          · intro before node after split
            exact absurd split.symm (by simp [initial])
      | tail run taken inductionHypothesis =>
          obtain ⟨lines, ordered⟩ := inductionHypothesis
          exact ⟨lines.step net taken, net.firedInOrder_step inOrder
            (Coherent.of_reachable run) lines ordered taken⟩
    exact both.2

end Network

end Agentcy.Library
