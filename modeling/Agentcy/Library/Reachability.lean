import Agentcy.Library.Kahn

/-!
# Search from a worklist

The search takes nodes out of a queue, visits those that are new, and puts
their successors at the end of the queue, or at another place.  With one step
more for each edge than the queue is long it visits exactly the nodes that can
be reached.
-/

namespace Agentcy.Library.Reachability

universe u

variable {ν : Type u} [DecidableEq ν]

def search (successors : ν → List ν) :
    Nat → List ν → List ν → List ν
  | 0, visited, _ => visited
  | _ + 1, visited, [] => visited
  | fuel + 1, visited, current :: queue =>
      if current ∈ visited then
        search successors fuel visited queue
      else
        search successors fuel (visited ++ [current])
          (queue ++ successors current)

/-- The search that puts the successors into the queue in its own way. -/
def searchWith
    (enqueue : List ν → List ν → List ν) (successors : ν → List ν) :
    Nat → List ν → List ν → List ν
  | 0, visited, _ => visited
  | _ + 1, visited, [] => visited
  | fuel + 1, visited, current :: queue =>
      if current ∈ visited then
        searchWith enqueue successors fuel visited queue
      else
        searchWith enqueue successors fuel (visited ++ [current])
          (enqueue queue (successors current))

theorem search_eq_searchWith
    (successors : ν → List ν) (fuel : Nat) (visited queue : List ν) :
    search successors fuel visited queue =
      searchWith (· ++ ·) successors fuel visited queue := by
  induction fuel generalizing visited queue with
  | zero => rfl
  | succ fuel inductionHypothesis =>
      cases queue with
      | nil => rfl
      | cons current queue =>
          rw [search, searchWith, inductionHypothesis,
            inductionHypothesis]

section Search

variable (edges : List (ν × ν))

/-- The target can be reached along the edges. -/
abbrev Reaches : ν → ν → Prop :=
  Relation.ReflTransGen fun source target => (source, target) ∈ edges

/-- The steps that a search still needs: one for each node in the queue, and
one for each edge that leaves a node that was not visited. -/
def remaining (visited queue : List ν) : Nat :=
  queue.length + (edges.filter fun edge => decide (edge.1 ∉ visited)).length

theorem remaining_visit
    {visited : List ν} {current : ν} (new : current ∉ visited)
    (queue : List ν) :
    remaining edges (visited ++ [current])
        (queue ++ Kahn.outgoing edges current) + 1 =
      remaining edges visited (current :: queue) := by
  have split :
      (edges.filter fun edge => decide (edge.1 ∉ visited)).length =
        (edges.filter fun edge =>
          decide (edge.1 ∉ visited ++ [current])).length +
          (Kahn.outgoing edges current).length := by
    unfold Kahn.outgoing
    rw [List.length_map]
    induction edges with
    | nil =>
        rfl
    | cons edge rest inductionHypothesis =>
        simp only [List.filter_cons, List.mem_append,
          List.mem_singleton, decide_eq_true_eq]
          at inductionHypothesis ⊢
        by_cases here : edge.1 = current
        · simp only [here, new, not_false_eq_true, if_true, or_true,
            not_true_eq_false, if_false, List.length_cons]
          omega
        · by_cases old : edge.1 ∈ visited
          · simpa [here, old] using inductionHypothesis
          · simp only [here, old, or_self, not_false_eq_true, if_true,
              if_false, List.length_cons]
            omega
  unfold remaining
  rw [List.length_append, List.length_cons, split]
  omega

/-- The successors of visited nodes are visited or in the queue. -/
def Covers (visited queue : List ν) : Prop :=
  ∀ node ∈ visited, ∀ successor, (node, successor) ∈ edges →
    successor ∈ visited ∨ successor ∈ queue

variable {edges}

omit [DecidableEq ν] in
theorem Covers.skip
    {visited queue : List ν} {current : ν} (old : current ∈ visited)
    (covers : Covers edges visited (current :: queue)) :
    Covers edges visited queue := by
  intro node isVisited successor edge
  rcases covers node isVisited successor edge with before | waiting
  · exact Or.inl before
  · rcases List.mem_cons.mp waiting with rfl | later
    · exact Or.inl old
    · exact Or.inr later

theorem Covers.visit
    {visited queue : List ν} {current : ν}
    (covers : Covers edges visited (current :: queue)) :
    Covers edges (visited ++ [current])
      (queue ++ Kahn.outgoing edges current) := by
  intro node isVisited successor edge
  rcases List.mem_append.mp isVisited with before | isCurrent
  · rcases covers node before successor edge with old | waiting
    · exact Or.inl (List.mem_append_left _ old)
    · rcases List.mem_cons.mp waiting with rfl | later
      · exact Or.inl (List.mem_append_right _ (List.mem_singleton_self _))
      · exact Or.inr (List.mem_append_left _ later)
  · rw [List.mem_singleton.mp isCurrent] at edge
    exact
      Or.inr (List.mem_append_right _ (Kahn.mem_outgoing_iff.mpr edge))

theorem remaining_perm
    {visited first second : List ν} (same : first.Perm second) :
    remaining edges visited first = remaining edges visited second := by
  rw [remaining, remaining, same.length_eq]

omit [DecidableEq ν] in
theorem Covers.perm
    {visited first second : List ν} (covers : Covers edges visited first)
    (same : first.Perm second) : Covers edges visited second := by
  intro node isVisited successor edge
  rw [← same.mem_iff]
  exact covers node isVisited successor edge

/-- What a search that has steps enough ends with. -/
structure Searched
    (edges : List (ν × ν)) (visited queue found : List ν) : Prop where
  keeps : ∀ node ∈ visited, node ∈ found
  serves : ∀ node ∈ queue, node ∈ found
  closed : ∀ node ∈ found, ∀ successor, (node, successor) ∈ edges →
    successor ∈ found
  sound : ∀ node ∈ found,
    node ∈ visited ∨ ∃ start ∈ queue, Reaches edges start node

theorem searched_searchWith
    {enqueue : List ν → List ν → List ν}
    (all : ∀ queue found, (enqueue queue found).Perm (queue ++ found))
    (fuel : Nat) {visited queue : List ν}
    (covers : Covers edges visited queue)
    (enough : remaining edges visited queue ≤ fuel) :
    Searched edges visited queue
      (searchWith enqueue (Kahn.outgoing edges) fuel visited queue) := by
  induction fuel generalizing visited queue with
  | zero =>
      have empty : queue = [] := by
        unfold remaining at enough
        exact List.eq_nil_of_length_eq_zero (by omega)
      subst empty
      refine ⟨fun _ => id, fun _ none => absurd none List.not_mem_nil, ?_,
        fun _ => Or.inl⟩
      intro node isVisited successor edge
      exact (covers node isVisited successor edge).resolve_right
        List.not_mem_nil
  | succ fuel inductionHypothesis =>
      cases queue with
      | nil =>
          refine ⟨fun _ => id, fun _ none => absurd none List.not_mem_nil,
            ?_, fun _ => Or.inl⟩
          intro node isVisited successor edge
          exact (covers node isVisited successor edge).resolve_right
            List.not_mem_nil
      | cons current queue =>
          rw [searchWith]
          by_cases old : current ∈ visited
          · rw [if_pos old]
            have fewer : remaining edges visited queue ≤ fuel := by
              unfold remaining at enough ⊢
              rw [List.length_cons] at enough
              omega
            have later := inductionHypothesis (covers.skip old) fewer
            refine ⟨later.keeps, ?_, later.closed, ?_⟩
            · intro node waiting
              rcases List.mem_cons.mp waiting with rfl | inRest
              · exact later.keeps node old
              · exact later.serves node inRest
            · intro node isFound
              rcases later.sound node isFound with
                before | ⟨start, waiting, path⟩
              · exact Or.inl before
              · exact
                  Or.inr ⟨start, List.mem_cons_of_mem _ waiting, path⟩
          · rw [if_neg old]
            have placed := all queue (Kahn.outgoing edges current)
            have step := remaining_visit edges old queue
            rw [← remaining_perm placed] at step
            have later :=
              inductionHypothesis (covers.visit.perm placed.symm)
                (by omega)
            refine ⟨?_, ?_, later.closed, ?_⟩
            · intro node before
              exact later.keeps node (List.mem_append_left _ before)
            · intro node waiting
              rcases List.mem_cons.mp waiting with rfl | inRest
              · exact
                  later.keeps node
                    (List.mem_append_right _ (List.mem_singleton_self _))
              · exact later.serves node
                  (placed.mem_iff.mpr (List.mem_append_left _ inRest))
            · intro node isFound
              rcases later.sound node isFound with
                before | ⟨start, waiting, path⟩
              · rcases List.mem_append.mp before with isOld | isCurrent
                · exact Or.inl isOld
                · rw [List.mem_singleton.mp isCurrent]
                  exact
                    Or.inr ⟨current, List.mem_cons_self,
                      Relation.ReflTransGen.refl⟩
              · rcases List.mem_append.mp (placed.mem_iff.mp waiting) with
                  inRest | follows
                · exact
                    Or.inr ⟨start, List.mem_cons_of_mem _ inRest, path⟩
                · exact
                    Or.inr ⟨current, List.mem_cons_self,
                      path.head (Kahn.mem_outgoing_iff.mp follows)⟩

theorem searched_search
    (fuel : Nat) {visited queue : List ν}
    (covers : Covers edges visited queue)
    (enough : remaining edges visited queue ≤ fuel) :
    Searched edges visited queue
      (search (Kahn.outgoing edges) fuel visited queue) := by
  rw [search_eq_searchWith]
  exact searched_searchWith (fun _ _ => List.Perm.refl _) fuel covers enough

/-- A search from the successors of a visited node visits what that node
reaches. -/
theorem mem_searchWith_successors_iff
    {enqueue : List ν → List ν → List ν}
    (all : ∀ queue found, (enqueue queue found).Perm (queue ++ found))
    (start node : ν) :
    node ∈
        searchWith enqueue (Kahn.outgoing edges) (edges.length + 1) [start]
          (Kahn.outgoing edges start) ↔
      Reaches edges start node := by
  have covers :
      Covers edges [start] (Kahn.outgoing edges start) := by
    intro node isStart successor edge
    rw [List.mem_singleton.mp isStart] at edge
    exact Or.inr (Kahn.mem_outgoing_iff.mpr edge)
  have enough :
      remaining edges [start] (Kahn.outgoing edges start) ≤
        edges.length + 1 := by
    have step := remaining_visit edges (List.not_mem_nil (a := start)) []
    have short := List.length_filter_le
      (fun edge : ν × ν => decide (edge.1 ∉ ([] : List ν))) edges
    rw [List.nil_append, List.nil_append] at step
    have before : remaining edges [] [start] ≤ edges.length + 1 := by
      rw [remaining, List.length_singleton]
      omega
    omega
  have searched := searched_searchWith all (edges.length + 1) covers enough
  constructor
  · intro isFound
    rcases searched.sound node isFound with
      isStart | ⟨first, isFirst, path⟩
    · rw [List.mem_singleton.mp isStart]
    · exact path.head (Kahn.mem_outgoing_iff.mp isFirst)
  · intro path
    induction path with
    | refl => exact searched.keeps start (List.mem_singleton_self _)
    | tail _ edge inductionHypothesis =>
        exact searched.closed _ inductionHypothesis _ edge

/-- From one node a search visits the nodes that it reaches. -/
theorem mem_search_iff (start node : ν) :
    node ∈ search (Kahn.outgoing edges) (edges.length + 1) [] [start] ↔
      Reaches edges start node := by
  have covers : Covers edges [] [start] := by
    intro _ none
    cases none
  have enough : remaining edges [] [start] ≤ edges.length + 1 := by
    unfold remaining
    have short := List.length_filter_le
      (fun edge : ν × ν => decide (edge.1 ∉ ([] : List ν))) edges
    rw [List.length_singleton]
    omega
  have searched := searched_search (edges.length + 1) covers enough
  constructor
  · intro isFound
    rcases searched.sound node isFound with none | ⟨only, isStart, path⟩
    · cases none
    · rwa [List.mem_singleton.mp isStart] at path
  · intro path
    induction path with
    | refl =>
        exact searched.serves start (List.mem_singleton_self _)
    | tail _ edge inductionHypothesis =>
        exact searched.closed _ inductionHypothesis _ edge

end Search

end Agentcy.Library.Reachability
