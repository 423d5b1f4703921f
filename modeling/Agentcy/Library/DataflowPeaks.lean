import Agentcy.Library.Dataflow
import Mathlib.Data.Finset.Max

/-!
# How often a node can fire

Apart from its starts, a node takes one token from each of its inputs for
every firing, so an input bounds it by the tokens that it sends.  The least of
these bounds is attained: let all lines come to their end, let every input be
done before the node takes its first token, and deliver the tokens in rounds.
-/

namespace Agentcy.Library

universe u

namespace Network

variable {α : Type u} [DecidableEq α] (net : Network α)

/-- The most firings of a node in a run. -/
def peak (node : α) : ℕ :=
  if joins : node ∈ net.nodes ∧ (net.inputs node).Nonempty then
    net.starts node +
      (net.inputs node).attach.inf' (Finset.attach_nonempty_iff.mpr joins.2)
        fun input => net.copies input node * peak input
  else net.starts node
termination_by net.depth node
decreasing_by
  exact net.deeper node joins.1 input input.2

variable {net}

theorem peak_of_source {node : α} (isSource : net.inputs node = ∅) :
    net.peak node = net.starts node := by
  rw [peak, dif_neg]
  rintro ⟨_, some⟩
  exact some.ne_empty isSource

theorem peak_le {node input : α}
    (isNode : node ∈ net.nodes) (isInput : input ∈ net.inputs node) :
    net.peak node ≤
      net.starts node + net.copies input node * net.peak input := by
  rw [peak, dif_pos ⟨isNode, input, isInput⟩]
  apply Nat.add_le_add_left
  exact Finset.inf'_le
    (fun input : net.inputs node => net.copies input node * net.peak input)
    (Finset.mem_attach _ ⟨input, isInput⟩)

theorem exists_peak_eq {node : α} (isNode : node ∈ net.nodes)
    (joins : (net.inputs node).Nonempty) :
    ∃ input ∈ net.inputs node, net.peak node =
      net.starts node + net.copies input node * net.peak input := by
  obtain ⟨⟨input, isInput⟩, _, attained⟩ :=
    Finset.exists_mem_eq_inf' (Finset.attach_nonempty_iff.mpr joins)
      fun input : net.inputs node => net.copies input node * net.peak input
  refine ⟨input, isInput, ?_⟩
  rw [peak, dif_pos ⟨isNode, joins⟩]
  exact congrArg _ attained

theorem Coherent.count_fired_le_peak
    {marking : Marking α} (coherent : net.Coherent marking) {node : α}
    (isNode : node ∈ net.nodes) :
    marking.fired.count node ≤ net.peak node := by
  induction deep : net.depth node using Nat.strong_induction_on
    generalizing node with
  | _ deep inductionHypothesis =>
      by_cases isSource : net.inputs node = ∅
      · have counted := coherent.sources node isNode isSource
        rw [peak_of_source isSource]
        omega
      · obtain ⟨input, isInput, attained⟩ :=
          exists_peak_eq isNode (Finset.nonempty_iff_ne_empty.mpr isSource)
        have paid := coherent.balanced node isNode input isInput
        have inputBound := inductionHypothesis (net.depth input)
          (deep ▸ net.deeper node isNode input isInput)
          (net.closed node isNode isInput) rfl
        rw [attained]
        calc marking.fired.count node
            ≤ usedBy marking input node := by
              unfold usedBy
              omega
          _ ≤ net.starts node +
              net.copies input node * marking.fired.count input := paid
          _ ≤ net.starts node +
              net.copies input node * net.peak input :=
            Nat.add_le_add_left (Nat.mul_le_mul_left _ inputBound) _

/-- A node takes a token. -/
inductive StepAt (net : Network α) (node : α) : Marking α → Marking α → Prop
  | deliver {marking : Marking α} {input : α}
      (sent : (input, node) ∈ marking.tokens) :
      StepAt net node marking (net.deliver marking (input, node))

theorem StepAt.step {node : α} {marking later : Marking α}
    (taken : net.StepAt node marking later) : net.Step marking later := by
  cases taken with
  | deliver sent => exact .deliver sent

/-- A node that has taken nothing of what its inputs have sent. -/
structure Untouched (net : Network α) (marking : Marking α) (node : α) :
    Prop where
  started :
    marking.pending.count node + marking.fired.count node = net.starts node
  arrived : marking.arrived node = ∅
  sent : ∀ input ∈ net.inputs node,
    marking.tokens.count (input, node) =
      net.copies input node * marking.fired.count input

theorem sent_fire
    {marking : Marking α} {fires node : α} (isNode : node ∈ net.nodes)
    (sent : ∀ input ∈ net.inputs node,
      marking.tokens.count (input, node) =
        net.copies input node * marking.fired.count input) :
    ∀ input ∈ net.inputs node,
      (net.fire marking fires).tokens.count (input, node) =
        net.copies input node *
          (net.fire marking fires).fired.count input := by
  intro input isInput
  rw [net.count_tokens_fire, net.count_fired_fire, sent input isInput]
  by_cases same : input = fires
  · have leaves : node ∈ net.successors fires :=
      net.mem_successors_iff.mpr ⟨isNode, same ▸ isInput⟩
    rw [if_pos ⟨same, leaves⟩, if_pos same, Nat.mul_succ]
  · rw [if_neg fun both => same both.1, if_neg same, Nat.add_zero,
      Nat.add_zero]

theorem Untouched.fire
    {marking : Marking α} {fires node : α} (isNode : node ∈ net.nodes)
    (different : node ≠ fires) (untouched : net.Untouched marking node) :
    net.Untouched (net.fire marking fires) node where
  started := by
    rw [net.count_fired_fire, if_neg different]
    exact untouched.started
  arrived := untouched.arrived
  sent := sent_fire isNode untouched.sent

theorem Untouched.start
    {marking : Marking α} {front back : List (List α)} {first node : α}
    {rest : List α}
    (waits : marking.waiting = front ++ (first :: rest) :: back)
    (isNode : node ∈ net.nodes) (untouched : net.Untouched marking node) :
    net.Untouched (net.start marking (front ++ rest :: back) first)
      node where
  started := by
    have counted := (perm_pending waits).count_eq node
    have started := untouched.started
    rw [Network.start, net.count_fired_fire]
    rw [List.count_cons] at counted
    simp only [beq_iff_eq, eq_comm (a := first)] at counted
    dsimp only [Marking.pending, Network.fire] at counted started ⊢
    omega
  arrived := untouched.arrived
  sent := sent_fire isNode untouched.sent

/-- All lines can come to their end before a token is taken. -/
theorem exists_all_started
    {marking : Marking α}
    (untouched : ∀ node ∈ net.nodes, net.Untouched marking node) :
    ∃ later, Relation.ReflTransGen net.Step marking later ∧
      later.pending = [] ∧
      ∀ node ∈ net.nodes, net.Untouched later node := by
  induction size : marking.pending.length generalizing marking with
  | zero =>
      exact ⟨marking, .refl, List.eq_nil_of_length_eq_zero size, untouched⟩
  | succ count inductionHypothesis =>
      have some : marking.pending ≠ [] := by
        intro none
        rw [none] at size
        cases size
      obtain ⟨front, first, rest, back, waits⟩ := exists_line some
      have shorter : (net.start marking (front ++ rest :: back)
          first).pending.length = count := by
        have lengths := (perm_pending waits).length_eq
        rw [size, List.length_cons] at lengths
        exact (Nat.succ.inj lengths).symm
      obtain ⟨later, run, result⟩ := inductionHypothesis
        (fun node isNode => (untouched node isNode).start waits isNode)
        shorter
      exact ⟨later, run.head (.start waits), result⟩

theorem Untouched.stepAt
    {marking later : Marking α} {node other : α}
    (otherNode : other ∈ net.nodes) (different : other ≠ node)
    (taken : net.StepAt node marking later)
    (untouched : net.Untouched marking other) :
    net.Untouched later other := by
  cases taken with
  | @deliver input sent =>
      have arrivedElsewhere : ∀ heard : Finset α,
          Function.update marking.arrived node heard other = ∅ := by
        intro heard
        rw [Function.update_of_ne different]
        exact untouched.arrived
      have sentElsewhere : ∀ sender ∈ net.inputs other,
          (marking.tokens.erase (input, node)).count (sender, other) =
            net.copies sender other * marking.fired.count sender := by
        intro sender isInput
        rw [Multiset.count_erase_of_ne fun equal =>
          different (congrArg Prod.snd equal)]
        exact untouched.sent sender isInput
      unfold Network.deliver
      dsimp only
      split
      · exact Untouched.fire otherNode different
          ⟨untouched.started, arrivedElsewhere _, sentElsewhere⟩
      · exact ⟨untouched.started, arrivedElsewhere _, sentElsewhere⟩

theorem StepAt.pending
    {marking later : Marking α} {node : α}
    (taken : net.StepAt node marking later) :
    later.pending = marking.pending := by
  cases taken with
  | @deliver input sent =>
      unfold Network.deliver
      dsimp only
      split <;> rfl

theorem StepAt.count_fired
    {marking later : Marking α} {node other : α} (different : other ≠ node)
    (taken : net.StepAt node marking later) :
    later.fired.count other = marking.fired.count other := by
  cases taken with
  | @deliver input sent =>
      unfold Network.deliver
      dsimp only
      split
      · rw [net.count_fired_fire, if_neg different]
        rfl
      · rfl

/-- One token from each input that is missing: the node fires once. -/
theorem exists_round {node : α} (rest : ℕ)
    (marking : Marking α)
    (missing : ¬ net.inputs node ⊆ marking.arrived node)
    (supply : ∀ input ∈ net.inputs node,
      rest + 1 ≤ marking.tokens.count (input, node) +
        tally (marking.arrived node) input) :
    ∃ later, Relation.ReflTransGen (net.StepAt node) marking later ∧
      later.fired.count node = marking.fired.count node + 1 ∧
      later.arrived node = ∅ ∧
      ∀ input ∈ net.inputs node,
        rest ≤ later.tokens.count (input, node) := by
  induction left : (net.inputs node \ marking.arrived node).card
    using Nat.strong_induction_on generalizing marking with
  | _ size inductionHypothesis =>
      obtain ⟨input, isInput, unheard⟩ := Finset.not_subset.mp missing
      have enough := supply input isInput
      rw [tally_of_not_mem unheard, Nat.add_zero] at enough
      have sent : (input, node) ∈ marking.tokens :=
        Multiset.count_pos.mp (by omega)
      have taken : net.StepAt node marking
          (net.deliver marking (input, node)) := .deliver sent
      have kept : ∀ other ∈ net.inputs node,
          rest + 1 ≤
            (marking.tokens.erase (input, node)).count (other, node) +
              tally (insert input (marking.arrived node)) other := by
        intro other otherInput
        by_cases same : other = input
        · subst same
          rw [Multiset.count_erase_self,
            tally_of_mem (Finset.mem_insert_self _ _)]
          omega
        · rw [tally_insert_of_ne same, Multiset.count_erase_of_ne fun equal =>
            same (congrArg Prod.fst equal)]
          exact supply other otherInput
      by_cases complete :
          net.inputs node ⊆ insert input (marking.arrived node)
      · have fires : net.deliver marking (input, node) =
            net.fire
              { marking with
                tokens := marking.tokens.erase (input, node)
                arrived := Function.update marking.arrived node ∅ } node :=
          if_pos complete
        refine ⟨_, .single taken, ?_, ?_, ?_⟩
        · rw [fires, net.count_fired_fire, if_pos rfl]
        · rw [fires]
          exact Function.update_self node ∅ marking.arrived
        · intro other otherInput
          have supplied := kept other otherInput
          rw [tally_of_mem (complete otherInput)] at supplied
          rw [fires, net.count_tokens_fire]
          dsimp only
          omega
      · have waits : net.deliver marking (input, node) =
            { marking with
              tokens := marking.tokens.erase (input, node)
              arrived := Function.update marking.arrived node
                (insert input (marking.arrived node)) } :=
          if_neg complete
        have heard : (net.deliver marking (input, node)).arrived node =
            insert input (marking.arrived node) := by
          rw [waits]
          exact Function.update_self node _ marking.arrived
        have smaller : (net.inputs node \
            (net.deliver marking (input, node)).arrived node).card < size := by
          rw [heard, ← left]
          apply Finset.card_lt_card
          refine ⟨Finset.sdiff_subset_sdiff subset_rfl
            (Finset.subset_insert _ _), fun covers => ?_⟩
          have member := covers (Finset.mem_sdiff.mpr ⟨isInput, unheard⟩)
          exact (Finset.mem_sdiff.mp member).2 (Finset.mem_insert_self _ _)
        obtain ⟨later, run, once, emptied, remaining⟩ :=
          inductionHypothesis _ smaller (net.deliver marking (input, node))
            (heard ▸ complete) (by rw [heard, waits]; exact kept) rfl
        refine ⟨later, .head taken run, ?_, emptied, remaining⟩
        rw [once, waits]

theorem exists_rounds {node : α}
    (joins : (net.inputs node).Nonempty) (count : ℕ) (marking : Marking α)
    (nothing : marking.arrived node = ∅)
    (supply : ∀ input ∈ net.inputs node,
      count ≤ marking.tokens.count (input, node)) :
    ∃ later, Relation.ReflTransGen (net.StepAt node) marking later ∧
      later.fired.count node = marking.fired.count node + count := by
  induction count generalizing marking with
  | zero =>
      exact ⟨marking, .refl, rfl⟩
  | succ count inductionHypothesis =>
      obtain ⟨input, isInput⟩ := joins
      have missing : ¬ net.inputs node ⊆ marking.arrived node := by
        intro covered
        rw [nothing] at covered
        exact absurd (covered isInput) (Finset.notMem_empty input)
      obtain ⟨middle, round, once, emptied, left⟩ :=
        exists_round count marking missing fun other otherInput =>
          le_add_right (supply other otherInput)
      obtain ⟨later, more, counted⟩ :=
        inductionHypothesis middle emptied left
      refine ⟨later, round.trans more, ?_⟩
      rw [counted, once]
      omega

/-! ## A run in which every node fires as often as it can -/

section Saturated

variable {marking : Marking α} {node : α}

/-- Where all lines are at their end, every input has fired as often as it can
and the node has not been touched, it can be made to. -/
theorem exists_saturated_node
    (isNode : node ∈ net.nodes) (ended : marking.pending = [])
    (untouched : net.Untouched marking node)
    (inputs : ∀ input ∈ net.inputs node,
      marking.fired.count input = net.peak input) :
    ∃ later, Relation.ReflTransGen (net.StepAt node) marking later ∧
      later.fired.count node = net.peak node := by
  have counted := untouched.started
  rw [ended, List.count_nil, Nat.zero_add] at counted
  by_cases isSource : net.inputs node = ∅
  · exact ⟨marking, .refl, counted.trans (peak_of_source isSource).symm⟩
  · have joins := Finset.nonempty_iff_ne_empty.mpr isSource
    obtain ⟨rounds, attained⟩ : ∃ rounds,
        net.peak node = net.starts node + rounds := by
      obtain ⟨_, _, attained⟩ := exists_peak_eq isNode joins
      exact ⟨_, attained⟩
    obtain ⟨later, run, again⟩ :=
      exists_rounds joins rounds marking untouched.arrived
        fun input isInput => by
          have bound := peak_le isNode isInput
          rw [untouched.sent input isInput, inputs input isInput]
          omega
    exact ⟨later, run, by rw [again, counted, attained]⟩

theorem run_frame {later : Marking α} {other : α}
    (run : Relation.ReflTransGen (net.StepAt node) marking later)
    (different : other ≠ node) :
    later.fired.count other = marking.fired.count other ∧
      (other ∈ net.nodes → net.Untouched marking other →
        net.Untouched later other) := by
  induction run with
  | refl =>
      exact ⟨rfl, fun _ untouched => untouched⟩
  | tail _ taken inductionHypothesis =>
      obtain ⟨same, kept⟩ := inductionHypothesis
      exact ⟨(taken.count_fired different).trans same,
        fun otherNode untouched =>
          (kept otherNode untouched).stepAt otherNode different taken⟩

theorem run_pending {later : Marking α}
    (run : Relation.ReflTransGen (net.StepAt node) marking later) :
    later.pending = marking.pending := by
  induction run with
  | refl =>
      rfl
  | tail _ taken inductionHypothesis =>
      exact taken.pending.trans inductionHypothesis

end Saturated

/-- The nodes of a set that holds the inputs of its members fire as often as
they can while the others are left alone. -/
theorem exists_saturated (done : Finset α) (within : done ⊆ net.nodes)
    (holdsInputs : ∀ node ∈ done, net.inputs node ⊆ done) :
    ∃ marking, net.Reachable marking ∧ marking.pending = [] ∧
      (∀ node ∈ done, marking.fired.count node = net.peak node) ∧
      ∀ node ∈ net.nodes, node ∉ done → net.Untouched marking node := by
  induction done using Finset.strongInduction with
  | H done inductionHypothesis =>
      rcases done.eq_empty_or_nonempty with none | some
      · subst none
        have untouched : ∀ node ∈ net.nodes,
            net.Untouched net.initial node := fun node _ =>
          ⟨rfl, rfl, fun input _ => (Nat.mul_zero _).symm⟩
        obtain ⟨marking, run, ended, kept⟩ := exists_all_started untouched
        refine ⟨marking, run, ended, ?_, fun node isNode _ =>
          kept node isNode⟩
        intro node member
        exact absurd member (Finset.notMem_empty node)
      · obtain ⟨node, member, deepest⟩ :=
          Finset.exists_max_image done net.depth some
        have isNode := within member
        have inputsKept : ∀ other ∈ done,
            net.inputs other ⊆ done.erase node := by
          intro other otherMember input isInput
          refine Finset.mem_erase.mpr
            ⟨?_, holdsInputs other otherMember isInput⟩
          intro same
          have deeper :=
            net.deeper other (within otherMember) input isInput
          have bound := deepest other otherMember
          rw [same] at deeper
          omega
        obtain ⟨marking, reachable, ended, saturated, untouched⟩ :=
          inductionHypothesis (done.erase node)
            (Finset.erase_ssubset member)
            ((Finset.erase_subset _ _).trans within)
            fun other otherMember =>
              inputsKept other (Finset.mem_of_mem_erase otherMember)
        obtain ⟨later, run, counted⟩ :=
          exists_saturated_node isNode ended
            (untouched node isNode (Finset.notMem_erase node done))
            fun input isInput =>
              saturated input (inputsKept node member isInput)
        refine ⟨later, reachable.trans
          (Relation.ReflTransGen.mono (fun _ _ => StepAt.step) _ _ run),
          (run_pending run).trans ended, ?_, ?_⟩
        · intro other otherMember
          by_cases same : other = node
          · rw [same]
            exact counted
          · rw [(run_frame run same).1]
            exact saturated other (Finset.mem_erase.mpr ⟨same, otherMember⟩)
        · intro other otherNode outside
          have different : other ≠ node := fun same =>
            outside (same ▸ member)
          exact (run_frame run different).2 otherNode
            (untouched other otherNode fun inside =>
              outside (Finset.mem_of_mem_erase inside))

theorem count_fired_mono {marking later : Marking α}
    (run : Relation.ReflTransGen net.Step marking later) (node : α) :
    marking.fired.count node ≤ later.fired.count node := by
  induction run with
  | refl =>
      exact le_rfl
  | tail _ taken inductionHypothesis =>
      refine inductionHypothesis.trans ?_
      cases taken with
      | start _ =>
          rw [Network.start, net.count_fired_fire]
          exact Nat.le_add_right _ _
      | deliver _ =>
          unfold Network.deliver
          dsimp only
          split
          · rw [net.count_fired_fire]
            exact Nat.le_add_right _ _
          · exact le_rfl

/-- One run to the end makes every node fire as often as any run can. -/
theorem exists_finished_at_peak (net : Network α) :
    ∃ marking, net.Reachable marking ∧ marking.Finished ∧
      ∀ node ∈ net.nodes, marking.fired.count node = net.peak node := by
  obtain ⟨marking, reachable, _, saturated, _⟩ :=
    @exists_saturated α _ net net.nodes subset_rfl net.closed
  obtain ⟨last, run, finished⟩ := net.exists_finished marking
  have ends : net.Reachable last := reachable.trans run
  refine ⟨last, ends, finished, fun node isNode => ?_⟩
  apply le_antisymm
    ((Coherent.of_reachable ends).count_fired_le_peak isNode)
  rw [← saturated node isNode]
  exact count_fired_mono run node

end Network

end Agentcy.Library
