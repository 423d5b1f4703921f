import Agentcy.Library.Reachability
import Agentcy.Parser.BrokerEntries
import Agentcy.Parser.FrontEnd
import Mathlib.Combinatorics.SimpleGraph.Connectivity.Connected

/-!
# Connectedness

`validate_single_connected_dag` follows the dependencies from the task that is
listed first.  It accepts if this task comes before all others, which is more
than that the dependencies connect the tasks, and depends on the list.
-/

namespace Agentcy.Parser

open Agentcy.Library

/-- The search reads the graph only for the dependents of tasks. -/
theorem visitReachable_eq_search
    (successors : String → List String) (fuel : Nat)
    (taskGraph : OrderedMap String (List String))
    (visited queue : List String)
    (dependents : ∀ taskId,
      (taskGraph.get? taskId).getD [] = successors taskId) :
    (visitReachable fuel taskGraph visited queue).1 =
      Reachability.search successors fuel visited queue := by
  induction fuel generalizing taskGraph visited queue with
  | zero =>
      rfl
  | succ fuel inductionHypothesis =>
      cases queue with
      | nil =>
          rfl
      | cons current rest =>
          rw [visitReachable, Reachability.search]
          by_cases old : current ∈ visited
          · rw [if_pos old, if_pos old]
            exact inductionHypothesis _ _ _ dependents
          · rw [if_neg old, if_neg old, dependents current]
            apply inductionHypothesis
            intro taskId
            rw [OrderedMap.get?_set]
            by_cases here : taskId = current
            · rw [if_pos here, here]
              rfl
            · rw [if_neg here]
              exact dependents taskId

/-- A later task depends on the earlier one, directly or by way of others. -/
abbrev Precedes (tasks : List Task) : String → String → Prop :=
  Relation.ReflTransGen (DependsOn tasks)

/-- The dependencies without their direction. -/
def undirected (tasks : List Task) :
    SimpleGraph {id : String // id ∈ tasks.map Task.id} :=
  SimpleGraph.fromRel fun first second =>
    DependsOn tasks first.1 second.1

/-- The task that is listed first comes before all others. -/
def FirstPrecedesAll (tasks : List Task) : Prop :=
  ∃ first, tasks.head? = some first ∧
    ∀ task ∈ tasks, Precedes tasks first.id task.id

section Verdict

variable (keyOrder : SetOrder Json.Key) (order : SetOrder String)

/-- The task list passes the stages up to the check for connectedness, and
that check. -/
def AcceptedAsConnected (tasks : List Task) : Prop :=
  ∃ dag searched, frontEnd keyOrder order tasks = .ok dag ∧
    validateSingleConnectedDag dag (parseDag dag).2 = .ok searched

variable {tasks : List Task} {dag : List InferredTask}
variable {outputs : OrderedMap String (List String)}

theorem mem_visited_iff
    (infers : Infers tasks dag outputs)
    (listed : ∀ task ∈ tasks, task.Listed) (first node : String) :
    node ∈ (visitReachable ((edges dag).length + 1) (parseDag dag).2 []
        [first]).1 ↔
      Precedes tasks first node := by
  rw [visitReachable_eq_search (Kahn.outgoing (edges dag)),
    Reachability.mem_search_iff]
  · unfold Reachability.Reaches Precedes
    rw [infers.edges_eq_dependsOn listed]
  · intro taskId
    exact OrderedMap.getD_gather _ _

theorem validated_iff
    (infers : Infers tasks dag outputs)
    (listed : ∀ task ∈ tasks, task.Listed)
    (nodup : (dag.map fun task => task.id).Nodup) :
    (∃ searched,
        validateSingleConnectedDag dag (parseDag dag).2 = .ok searched) ↔
      FirstPrecedesAll tasks := by
  have ids := infers.ids
  have sameNodes := nodeIds_of_nodup nodup
  cases dag with
  | nil =>
      have none : tasks = [] := by
        rw [← infers.tasks_eq]
        rfl
      subst none
      constructor
      · rintro ⟨_, passed⟩
        cases passed
      · rintro ⟨_, isFirst, _⟩
        cases isFirst
  | cons first rest =>
      have isFirst : tasks.head? = some first.toTask := by
        rw [← infers.tasks_eq]
        rfl
      have visits := mem_visited_iff infers listed first.id
      have inside : ∀ node, Precedes tasks first.id node →
          node ∈ nodeIds (first :: rest) := by
        intro node path
        rw [sameNodes, ids]
        rcases Relation.ReflTransGen.cases_tail path with
          same | ⟨before, _, edge⟩
        · rw [same, ← ids]
          exact List.mem_map_of_mem List.mem_cons_self
        · obtain ⟨task, member, same, _⟩ := edge
          exact List.mem_map.mpr ⟨task, member, same⟩
      have passes :
          (∃ searched,
              validateSingleConnectedDag (first :: rest)
                (parseDag (first :: rest)).2 = .ok searched) ↔
            ∀ node ∈ nodeIds (first :: rest),
              Precedes tasks first.id node := by
        rw [validateSingleConnectedDag]
        dsimp only
        constructor
        · rintro ⟨_, passed⟩ node isNode
          split at passed
          · rename_i none
            rw [Bool.and_eq_true, List.isEmpty_iff, List.filter_eq_nil_iff]
              at none
            apply (visits node).mp
            have notMissing := none.1 node isNode
            rwa [decide_eq_true_eq, not_not] at notMissing
          · cases passed
        · intro all
          rw [if_pos]
          · exact ⟨_, rfl⟩
          · rw [Bool.and_eq_true, List.isEmpty_iff,
              List.filter_eq_nil_iff, List.all_eq_true]
            constructor
            · intro node isNode
              rw [decide_eq_true_eq, not_not]
              exact (visits node).mpr (all node isNode)
            · intro node isVisited
              exact
                decide_eq_true (inside node ((visits node).mp isVisited))
      rw [passes, sameNodes, ids]
      unfold FirstPrecedesAll
      rw [isFirst]
      constructor
      · intro all
        refine ⟨first.toTask, rfl, ?_⟩
        intro task member
        exact all task.id (List.mem_map_of_mem member)
      · rintro ⟨found, same, all⟩ node isNode
        obtain rfl := Option.some.inj same
        obtain ⟨task, member, rfl⟩ := List.mem_map.mp isNode
        exact all task member

theorem acceptedAsConnected_iff
    (listed : ∀ task ∈ tasks, task.Listed) (valid : ValidDag tasks) :
    AcceptedAsConnected keyOrder order tasks ↔ FirstPrecedesAll tasks := by
  have sound := frontEnd_sound_and_complete keyOrder order listed
  obtain ⟨dag, accepted⟩ := sound.1.mpr valid
  obtain ⟨outputs, inferred, passed⟩ := frontEnd_eq_ok.mp accepted
  have decided :=
    validated_iff (infers_of_ok inferred) listed
      (nodup_of_detectCyclesKahn passed)
  unfold AcceptedAsConnected
  rw [← decided]
  constructor
  · rintro ⟨other, searched, isDag, found⟩
    rw [accepted] at isDag
    obtain rfl := Except.ok.inj isDag
    exact ⟨searched, found⟩
  · rintro ⟨searched, found⟩
    exact ⟨dag, searched, accepted, found⟩

end Verdict

section Undirected

variable {tasks : List Task}

theorem ValidDag.known_id
    (valid : ValidDag tasks) {dependency taskId : String}
    (edge : DependsOn tasks dependency taskId) :
    dependency ∈ tasks.map Task.id := by
  obtain ⟨task, member, _, items, isList, among⟩ := edge
  obtain ⟨other, isOther, same⟩ :=
    valid.known task member items isList _ among
  rw [Json.str.inj same]
  exact List.mem_map_of_mem isOther

theorem reachable_of_precedes
    (valid : ValidDag tasks) {first last : String}
    (path : Precedes tasks first last)
    (isFirst : first ∈ tasks.map Task.id)
    (isLast : last ∈ tasks.map Task.id) :
    (undirected tasks).Reachable ⟨first, isFirst⟩ ⟨last, isLast⟩ := by
  induction path with
  | refl =>
      exact SimpleGraph.Reachable.refl _
  | @tail middle last _ edge inductionHypothesis =>
      have isMiddle := valid.known_id edge
      refine (inductionHypothesis isMiddle).trans ?_
      by_cases same : middle = last
      · subst same
        exact SimpleGraph.Reachable.refl _
      · apply SimpleGraph.Adj.reachable
        refine (SimpleGraph.fromRel_adj _ _ _).mpr ⟨?_, Or.inl edge⟩
        intro equal
        exact same (congrArg Subtype.val equal)

/-- What the check accepts is connected. -/
theorem connected_of_firstPrecedesAll
    (valid : ValidDag tasks) (before : FirstPrecedesAll tasks) :
    (undirected tasks).Connected := by
  obtain ⟨first, isFirst, all⟩ := before
  have member : first.id ∈ tasks.map Task.id :=
    List.mem_map_of_mem (List.mem_of_head? isFirst)
  have fromFirst (node : {id : String // id ∈ tasks.map Task.id}) :
      (undirected tasks).Reachable ⟨first.id, member⟩ node := by
    obtain ⟨task, isTask, same⟩ := List.mem_map.mp node.2
    apply reachable_of_precedes valid
    rw [← same]
    exact all task isTask
  exact
    { preconnected := fun node other =>
        (fromFirst node).symm.trans (fromFirst other)
      nonempty := ⟨⟨first.id, member⟩⟩ }

/-! ## Other orders of the list -/

theorem dependsOn_of_perm
    {others : List Task} (same : others.Perm tasks) :
    DependsOn others = DependsOn tasks := by
  funext dependency taskId
  apply propext
  unfold DependsOn
  constructor
  · rintro ⟨task, member, rest⟩
    exact ⟨task, same.mem_iff.mp member, rest⟩
  · rintro ⟨task, member, rest⟩
    exact ⟨task, same.mem_iff.mpr member, rest⟩

theorem ValidDag.perm
    (valid : ValidDag tasks) {others : List Task}
    (same : others.Perm tasks) : ValidDag others := by
  refine ⟨(same.map Task.id).nodup_iff.mpr valid.distinct, ?_, ?_⟩
  · intro task member items isList item among
    obtain ⟨other, isOther, isItem⟩ :=
      valid.known task (same.mem_iff.mp member) items isList item among
    exact ⟨other, same.mem_iff.mpr isOther, isItem⟩
  · rw [dependsOn_of_perm same]
    exact valid.acyclic

/-- A task that comes before all others. -/
def PrecedesAll (tasks : List Task) (root : Task) : Prop :=
  ∀ task ∈ tasks, Precedes tasks root.id task.id

theorem firstPrecedesAll_iff
    {others : List Task} (same : others.Perm tasks) :
    FirstPrecedesAll others ↔
      ∃ first, others.head? = some first ∧ PrecedesAll tasks first := by
  unfold FirstPrecedesAll PrecedesAll Precedes
  rw [dependsOn_of_perm same]
  constructor
  · rintro ⟨first, isFirst, all⟩
    exact ⟨first, isFirst, fun task member =>
      all task (same.mem_iff.mpr member)⟩
  · rintro ⟨first, isFirst, all⟩
    exact ⟨first, isFirst, fun task member =>
      all task (same.mem_iff.mp member)⟩

theorem exists_perm_head
    {task : Task} (member : task ∈ tasks) :
    ∃ rest, (task :: rest).Perm tasks := by
  obtain ⟨front, back, rfl⟩ := List.append_of_mem member
  exact ⟨front ++ back, List.perm_middle.symm⟩

theorem eq_of_precedes_both
    (valid : ValidDag tasks) {first second : String}
    (forth : Precedes tasks first second)
    (back : Precedes tasks second first) : first = second := by
  by_contra different
  have cycle : Relation.TransGen (DependsOn tasks) first first := by
    rcases Relation.reflTransGen_iff_eq_or_transGen.mp forth with
      same | path
    · exact absurd same.symm different
    · exact path.trans_left back
  exact valid.acyclic first cycle

theorem length_eq_one_of_invariant
    (valid : ValidDag tasks)
    (invariant : ∀ others : List Task, others.Perm tasks →
      (FirstPrecedesAll others ↔ FirstPrecedesAll tasks))
    {root : Task} (isRoot : root ∈ tasks)
    (all : PrecedesAll tasks root) : tasks.length = 1 := by
  have everyFirst : ∀ task ∈ tasks, PrecedesAll tasks task := by
    intro task member
    obtain ⟨front, rootFirst⟩ := exists_perm_head isRoot
    obtain ⟨back, taskFirst⟩ := exists_perm_head member
    have accepted :=
      (invariant _ rootFirst).mp
        ((firstPrecedesAll_iff rootFirst).mpr ⟨root, rfl, all⟩)
    obtain ⟨found, same, before⟩ :=
      (firstPrecedesAll_iff taskFirst).mp
        ((invariant _ taskFirst).mpr accepted)
    rw [Option.some.inj same]
    exact before
  have sameId : ∀ task ∈ tasks, task.id = root.id := by
    intro task member
    exact
      eq_of_precedes_both valid (everyFirst task member root isRoot)
        (all task member)
  have constant : tasks.map Task.id =
      List.replicate tasks.length root.id := by
    rw [List.eq_replicate_iff, List.length_map]
    refine ⟨rfl, ?_⟩
    intro id isId
    obtain ⟨task, member, rfl⟩ := List.mem_map.mp isId
    exact sameId task member
  have distinct := valid.distinct
  rw [constant, List.nodup_replicate] at distinct
  have nonempty := List.length_pos_of_mem isRoot
  omega

end Undirected

section Exact

variable (keyOrder : SetOrder Json.Key) (order : SetOrder String)

/-- On a DAG the check decides connectedness exactly when, if the tasks are
connected, the first one comes before all others; and it does not depend on
the order of the list exactly when no task comes before all others, or there
is only one. -/
theorem connectivity_check_exact_iff
    {tasks : List Task} (listed : ∀ task ∈ tasks, task.Listed)
    (valid : ValidDag tasks) :
    ((AcceptedAsConnected keyOrder order tasks ↔
          (undirected tasks).Connected) ↔
        ((undirected tasks).Connected → FirstPrecedesAll tasks)) ∧
      ((∀ others : List Task, others.Perm tasks →
          (AcceptedAsConnected keyOrder order others ↔
            AcceptedAsConnected keyOrder order tasks)) ↔
        ((∃ root ∈ tasks, PrecedesAll tasks root) →
          tasks.length = 1)) := by
  have accepts := acceptedAsConnected_iff keyOrder order listed valid
  have acceptsOther : ∀ others : List Task, others.Perm tasks →
      (AcceptedAsConnected keyOrder order others ↔
        FirstPrecedesAll others) := by
    intro others same
    exact
      acceptedAsConnected_iff keyOrder order
        (fun task member => listed task (same.mem_iff.mp member))
        (valid.perm same)
  rw [accepts]
  constructor
  · have connects := connected_of_firstPrecedesAll valid
    exact ⟨fun exact => exact.mpr, fun before => ⟨connects, before⟩⟩
  · constructor
    · rintro invariant ⟨root, isRoot, all⟩
      refine length_eq_one_of_invariant valid ?_ isRoot all
      intro others same
      rw [← acceptsOther others same]
      exact invariant others same
    · intro atMostOne others same
      rw [acceptsOther others same]
      by_cases rooted : ∃ root ∈ tasks, PrecedesAll tasks root
      · obtain ⟨only, isOnly⟩ :=
          List.length_eq_one_iff.mp (atMostOne rooted)
        subst isOnly
        rw [List.perm_singleton.mp same]
      · have never : ∀ {listing : List Task}, listing.Perm tasks →
            ¬ FirstPrecedesAll listing := by
          intro listing isPerm before
          obtain ⟨first, isFirst, all⟩ :=
            (firstPrecedesAll_iff isPerm).mp before
          exact
            rooted ⟨first,
              isPerm.mem_iff.mp (List.mem_of_head? isFirst), all⟩
        exact iff_of_false (never same) (never (.refl tasks))

end Exact

theorem listed_of_all
    {tasks : List Task}
    (all : tasks.all (fun task => task.dependencyList?.isSome) = true) :
    ∀ task ∈ tasks, task.Listed := by
  intro task member
  exact Option.isSome_iff_exists.mp (List.all_eq_true.mp all task member)

theorem validDag_of_isSome
    {tasks : List Task} (listed : ∀ task ∈ tasks, task.Listed)
    (accepted :
      (frontEnd .ofDedup .ofDedup tasks).toOption.isSome = true) :
    ValidDag tasks := by
  apply (frontEnd_sound_and_complete .ofDedup .ofDedup listed).1.mp
  cases parsed : frontEnd .ofDedup .ofDedup tasks with
  | error error =>
      rw [parsed] at accepted
      cases accepted
  | ok dag =>
      exact ⟨dag, rfl⟩

/-- Two tasks without dependencies, and one that depends on both. -/
def joinTasks : List Task :=
  [{ id := "a" }, { id := "b" }, dependent "c" ["a", "b"]]

theorem chain_decided :
    AcceptedAsConnected .ofDedup .ofDedup chainTasks ↔
      (undirected chainTasks).Connected := by
  have listed := @listed_of_all chainTasks (by decide)
  have valid := validDag_of_isSome listed (by decide +kernel)
  refine
    (connectivity_check_exact_iff .ofDedup .ofDedup listed valid).1.mpr ?_
  intro _
  refine ⟨{ id := "a" }, rfl, ?_⟩
  intro task member
  rcases List.mem_cons.mp member with rfl | later
  · exact Relation.ReflTransGen.refl
  · rw [List.mem_singleton.mp later]
    apply Relation.ReflTransGen.single
    exact
      ⟨dependent "b" ["a"], List.mem_of_getElem? (rfl : chainTasks[1]? = _),
        rfl, [.str "a"], rfl, List.mem_cons_self⟩

/-- The tasks are connected, but neither of the first two comes before the
other. -/
theorem join_rejected :
    (undirected joinTasks).Connected ∧
      ¬ AcceptedAsConnected .ofDedup .ofDedup joinTasks := by
  have listed := @listed_of_all joinTasks (by decide)
  have valid := validDag_of_isSome listed (by decide +kernel)
  have isLast : "c" ∈ joinTasks.map Task.id := by
    decide
  have edge : ∀ dependency ∈ ["a", "b"],
      DependsOn joinTasks dependency "c" := by
    intro dependency member
    refine
      ⟨dependent "c" ["a", "b"],
        List.mem_of_getElem? (rfl : joinTasks[2]? = _), rfl,
        [.str "a", .str "b"], rfl, ?_⟩
    exact List.mem_map_of_mem member
  have toLast (node : {id : String // id ∈ joinTasks.map Task.id}) :
      (undirected joinTasks).Reachable node ⟨"c", isLast⟩ := by
    apply reachable_of_precedes valid
    have cases : node.1 ∈ ["a", "b"] ++ ["c"] := node.2
    rcases List.mem_append.mp cases with before | last
    · exact Relation.ReflTransGen.single (edge node.1 before)
    · rw [List.mem_singleton.mp last]
  constructor
  · exact
      { preconnected := fun node other =>
          (toLast node).trans (toLast other).symm
        nonempty := ⟨⟨"c", isLast⟩⟩ }
  · rintro ⟨dag, searched, isDag, found⟩
    have rejected :
        (do
          let dag ← frontEnd .ofDedup .ofDedup joinTasks
          validateSingleConnectedDag dag
            (parseDag dag).2).toOption.isSome = false := by
      decide +kernel
    rw [isDag] at rejected
    change
      (validateSingleConnectedDag dag (parseDag dag).2).toOption.isSome =
        false at rejected
    rw [found] at rejected
    cases rejected

end Agentcy.Parser
