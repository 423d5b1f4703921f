import Agentcy.Strategist.Phases

/-!
# Proposed phases

A language model may propose other phases.  `_normalize_phases` rejects those
that leave a task out, name an unknown one or put a task before one that it
waits for, judging each task by the last phase that names it.
-/

namespace Agentcy.Strategist

open Library Plans

/-- One entry of a strategy's phases. -/
structure PhaseEntry where
  phase : Nat
  tasks : List String
  deriving DecidableEq

/-- `[str(task) for task in tasks if isinstance(task, str)]`. -/
def stringsOf (tasks : List Json) : List String :=
  tasks.filterMap fun task =>
    match task with
    | .str text => some text
    | _ => none

def isDict : Json → Bool
  | .dict _ => true
  | _ => false

def isList : Json → Bool
  | .list _ => true
  | _ => false

/-- The tasks of a phase that is given as a dict. -/
def tasksOfDict : Json → Option (List String)
  | .dict fields =>
      match Fields.get fields "tasks" with
      | .list tasks => some (stringsOf tasks)
      | _ => none
  | _ => none

def tasksOfList : Json → List String
  | .list tasks => stringsOf tasks
  | _ => []

/-- The phases as lists of names: the proposal is a list of dicts or a list of
lists. -/
def readPhases : Json → Option (List (List String))
  | .list items =>
      if items.isEmpty then none
      else if items.all isDict then items.mapM tasksOfDict
      else if items.all isList then some (items.map tasksOfList)
      else none
  | _ => none

/-- `phase_index` from the phase numbered `idx` on. -/
def phaseIndex :
    Nat → List (List String) → OrderedMap String Nat →
      OrderedMap String Nat
  | _, [], index => index
  | idx, phase :: rest, index =>
      phaseIndex (idx + 1) rest
        (phase.foldl (fun stored taskId => stored.set taskId idx) index)

def indexOf (index : OrderedMap String Nat) : Json.Key → Option Nat
  | .str taskId => index.get? taskId
  | _ => none

/-- No edge leads to the same or an earlier phase. -/
def respectsEdges (index : OrderedMap String Nat) :
    List Json → Except PyError Bool
  | [] => .ok true
  | edge :: rest => do
      let fields ← edge.fields
      let source ← (fields.get "from").hash
      match indexOf index source with
      | none => respectsEdges index rest
      | some sourcePhase =>
          let target ← (fields.get "to").hash
          match indexOf index target with
          | none => respectsEdges index rest
          | some targetPhase =>
              if targetPhase ≤ sourcePhase then .ok false
              else respectsEdges index rest

def normalizePhases (raw : Json) (taskIds edges : List Json) :
    Except PyError (Option (List PhaseEntry)) :=
  match readPhases raw with
  | none => .ok none
  | some phases => do
      let allTasks := phases.flatten.reverse.dedup.reverse
      let taskSet ← taskIds.mapM Json.hash
      if allTasks.isEmpty ||
          allTasks.any (fun taskId =>
            decide (Json.Key.str taskId ∉ taskSet)) then
        return none
      else if taskSet.any fun key =>
          decide (key ∉ allTasks.map Json.Key.str) then
        return none
      else if ← respectsEdges (phaseIndex 0 phases .empty) edges then
        return some (phases.mapIdx fun idx phase =>
          { phase := idx + 1, tasks := phase })
      else
        return none

/-- An edge of the task graph. -/
def HasDependency (edges : List Json) (source target : String) : Prop :=
  ∃ fields, .dict fields ∈ edges ∧
    Fields.get fields "from" = .str source ∧
    Fields.get fields "to" = .str target

def InPhase (phases : List PhaseEntry) (number : Nat) (taskId : String) :
    Prop :=
  ∃ entry ∈ phases, entry.phase = number ∧ taskId ∈ entry.tasks

/-- The phases partition the tasks, and dependencies lead to later phases. -/
structure ValidSchedule
    (taskIds edges : List Json) (phases : List PhaseEntry) : Prop where
  known : ∀ {number taskId}, InPhase phases number taskId →
    .str taskId ∈ taskIds
  exactlyOne : ∀ item ∈ taskIds, ∃ taskId, item = .str taskId ∧
    ∃! number, InPhase phases number taskId
  forward : ∀ {source target earlier later},
    HasDependency edges source target →
    InPhase phases earlier source → InPhase phases later target →
    earlier < later

/-- What a proposed phase names. -/
def namedBy : Json → List Json
  | .list tasks => tasks
  | .dict fields =>
      match Fields.get fields "tasks" with
      | .list tasks => tasks
      | _ => []
  | _ => []

/-- The phase at that place of the proposal names the task. -/
def Proposes (raw : Json) (place : Nat) (taskId : String) : Prop :=
  ∃ items item, raw = .list items ∧ items[place]? = some item ∧
    .str taskId ∈ namedBy item

/-- No task is in two of the proposed phases. -/
def NoTaskTwice (raw : Json) : Prop :=
  ∀ {taskId first second}, Proposes raw first taskId →
    Proposes raw second taskId → first = second

theorem mem_stringsOf_iff (tasks : List Json) (taskId : String) :
    taskId ∈ stringsOf tasks ↔ .str taskId ∈ tasks := by
  rw [stringsOf, List.mem_filterMap]
  constructor
  · rintro ⟨task, member, isText⟩
    cases task with
    | str text =>
        obtain rfl := Option.some.inj isText
        exact member
    | null => cases isText
    | bool _ => cases isText
    | int _ => cases isText
    | float _ => cases isText
    | list _ => cases isText
    | dict _ => cases isText
  · intro member
    exact ⟨.str taskId, member, rfl⟩

theorem tasksOfDict_eq
    {item : Json} {tasks : List String}
    (read : tasksOfDict item = some tasks) :
    tasks = stringsOf (namedBy item) := by
  cases item with
  | dict fields =>
      rw [tasksOfDict] at read
      rw [namedBy]
      cases given : Fields.get fields "tasks" with
      | list items =>
          rw [given] at read
          exact (Option.some.inj read).symm
      | null => rw [given] at read; cases read
      | bool _ => rw [given] at read; cases read
      | int _ => rw [given] at read; cases read
      | float _ => rw [given] at read; cases read
      | str _ => rw [given] at read; cases read
      | dict _ => rw [given] at read; cases read
  | null => cases read
  | bool _ => cases read
  | int _ => cases read
  | float _ => cases read
  | str _ => cases read
  | list _ => cases read

theorem mapM_tasksOfDict
    {items : List Json} {phases : List (List String)}
    (read : items.mapM tasksOfDict = some phases) :
    phases = items.map fun item => stringsOf (namedBy item) := by
  induction items generalizing phases with
  | nil =>
      exact (Option.some.inj read).symm
  | cons item rest inductionHypothesis =>
      rw [List.mapM_cons, Option.bind_eq_bind, Option.bind_eq_some_iff]
        at read
      obtain ⟨tasks, here, read⟩ := read
      rw [Option.bind_eq_bind, Option.bind_eq_some_iff] at read
      obtain ⟨later, readRest, whole⟩ := read
      rw [← Option.some.inj whole, List.map_cons,
        ← inductionHypothesis readRest, ← tasksOfDict_eq here]

theorem readPhases_eq
    {raw : Json} {phases : List (List String)}
    (read : readPhases raw = some phases) :
    ∃ items, raw = .list items ∧
      phases = items.map fun item => stringsOf (namedBy item) := by
  cases raw with
  | list items =>
      refine ⟨items, rfl, ?_⟩
      rw [readPhases] at read
      split at read
      · cases read
      · split at read
        · exact mapM_tasksOfDict read
        · split at read
          · rename_i lists
            rw [← Option.some.inj read]
            apply List.map_congr_left
            intro item member
            have isOne := List.all_eq_true.mp lists item member
            cases item with
            | list _ => rfl
            | null => cases isOne
            | bool _ => cases isOne
            | int _ => cases isOne
            | float _ => cases isOne
            | str _ => cases isOne
            | dict _ => cases isOne
          · cases read
  | null => cases read
  | bool _ => cases read
  | int _ => cases read
  | float _ => cases read
  | str _ => cases read
  | dict _ => cases read

theorem proposes_iff
    {raw : Json} {phases : List (List String)}
    (read : readPhases raw = some phases) (place : Nat) (taskId : String) :
    Proposes raw place taskId ↔ taskId ∈ phases.getD place [] := by
  obtain ⟨items, rfl, rfl⟩ := readPhases_eq read
  unfold Proposes
  constructor
  · rintro ⟨others, item, same, found, named⟩
    obtain rfl := Json.list.inj same
    rw [List.getD_eq_getElem?_getD, List.getElem?_map, found]
    exact (mem_stringsOf_iff _ _).mpr named
  · intro member
    rw [List.getD_eq_getElem?_getD, List.getElem?_map] at member
    cases found : items[place]? with
    | none =>
        rw [found] at member
        cases member
    | some item =>
        rw [found] at member
        exact ⟨items, item, rfl, found, (mem_stringsOf_iff _ _).mp member⟩

/-! ## The index -/

/-- The index of a task is a phase that names it. -/
theorem mem_of_phaseIndex
    {idx : Nat} {phases : List (List String)}
    {index : OrderedMap String Nat} {taskId : String} {number : Nat}
    (found : (phaseIndex idx phases index).get? taskId = some number) :
    index.get? taskId = some number ∨
      ∃ place, number = idx + place ∧
        taskId ∈ phases.getD place [] := by
  induction phases generalizing idx index with
  | nil =>
      exact Or.inl found
  | cons phase rest inductionHypothesis =>
      rw [phaseIndex] at found
      rcases inductionHypothesis found with here | ⟨place, rfl, later⟩
      · rw [OrderedMap.get?_foldl_set] at here
        split at here
        · rename_i member
          exact Or.inr
            ⟨0, (Option.some.inj here).symm, by simpa using member⟩
        · exact Or.inl here
      · exact Or.inr ⟨place + 1, by omega, by simpa using later⟩

theorem exists_phaseIndex
    {idx : Nat} {phases : List (List String)}
    {index : OrderedMap String Nat} {taskId : String}
    (named : taskId ∈ phases.flatten ∨ (index.get? taskId).isSome) :
    ∃ number, (phaseIndex idx phases index).get? taskId =
      some number := by
  induction phases generalizing idx index with
  | nil =>
      rcases named with absent | found
      · cases absent
      · exact Option.isSome_iff_exists.mp found
  | cons phase rest inductionHypothesis =>
      rw [phaseIndex]
      apply inductionHypothesis
      rw [OrderedMap.get?_foldl_set]
      by_cases here : taskId ∈ phase
      · simp [here]
      · simpa [here] using named

/-- The edges that pass lead to a greater index. -/
theorem lt_of_respectsEdges
    {index : OrderedMap String Nat} {edges : List Json}
    (respected : respectsEdges index edges = .ok true)
    {source target : String} {first second : Nat}
    (depends : HasDependency edges source target)
    (ofSource : index.get? source = some first)
    (ofTarget : index.get? target = some second) :
    first < second := by
  obtain ⟨fields, member, isSource, isTarget⟩ := depends
  induction edges with
  | nil =>
      cases member
  | cons edge rest inductionHypothesis =>
      rw [respectsEdges, bind_eq_ok] at respected
      obtain ⟨read, isDict, respected⟩ := respected
      rw [bind_eq_ok] at respected
      obtain ⟨sourceKey, hashed, respected⟩ := respected
      rcases List.mem_cons.mp member with rfl | later
      · obtain rfl := Except.ok.inj isDict
        rw [isSource] at hashed
        obtain rfl := Except.ok.inj hashed
        have sourceIndex :
            indexOf index (.str source) = some first := ofSource
        rw [sourceIndex] at respected
        dsimp only at respected
        rw [isTarget, bind_eq_ok] at respected
        obtain ⟨targetKey, hashedTarget, respected⟩ := respected
        obtain rfl := Except.ok.inj hashedTarget
        have targetIndex :
            indexOf index (.str target) = some second := ofTarget
        rw [targetIndex] at respected
        dsimp only at respected
        split at respected
        · cases respected
        · omega
      · refine inductionHypothesis ?_ later
        cases ofKey : indexOf index sourceKey with
        | none =>
            rw [ofKey] at respected
            exact respected
        | some _ =>
            rw [ofKey] at respected
            dsimp only at respected
            rw [bind_eq_ok] at respected
            obtain ⟨targetKey, _, respected⟩ := respected
            cases ofOther : indexOf index targetKey with
            | none =>
                rw [ofOther] at respected
                exact respected
            | some _ =>
                rw [ofOther] at respected
                dsimp only at respected
                split at respected
                · cases respected
                · exact respected

/-- What the check found out about an accepted proposal. -/
structure Accepted
    (raw : Json) (taskIds edges : List Json) (result : List PhaseEntry)
    (phases : List (List String)) : Prop where
  read : readPhases raw = some phases
  named : ∀ taskId, taskId ∈ phases.flatten ↔ .str taskId ∈ taskIds
  strings : ∀ item ∈ taskIds, ∃ taskId, item = .str taskId
  respected : respectsEdges (phaseIndex 0 phases .empty) edges = .ok true
  result_eq : result = phases.mapIdx fun idx phase =>
    { phase := idx + 1, tasks := phase }

section Accepting

variable
  {raw : Json} {taskIds edges : List Json} {result : List PhaseEntry}

theorem accepted_of_normalizePhases
    (accepted : normalizePhases raw taskIds edges = .ok (some result)) :
    ∃ phases, Accepted raw taskIds edges result phases := by
  unfold normalizePhases at accepted
  cases read : readPhases raw with
  | none =>
      rw [read] at accepted
      cases accepted
  | some phases =>
      rw [read] at accepted
      dsimp only at accepted
      rw [bind_eq_ok] at accepted
      obtain ⟨taskSet, hashed, accepted⟩ := accepted
      split at accepted
      · cases accepted
      · rename_i inside
        split at accepted
        · cases accepted
        · rename_i complete
          rw [bind_eq_ok] at accepted
          obtain ⟨respected, checked, accepted⟩ := accepted
          cases respected with
          | false =>
              cases accepted
          | true =>
              simp only [Bool.or_eq_true, List.any_eq_true,
                decide_eq_true_eq, List.mem_reverse, List.mem_dedup,
                not_or, not_exists, not_and, not_not] at inside complete
              have strings : ∀ item ∈ taskIds, ∃ taskId,
                  taskId ∈ phases.flatten ∧ item = .str taskId := by
                intro item member
                obtain ⟨key, inSet, isKey⟩ :=
                  exists_result_of_mapM hashed member
                obtain ⟨taskId, isTask, rfl⟩ :=
                  List.mem_map.mp (complete key inSet)
                rw [List.mem_reverse, List.mem_dedup,
                  List.mem_reverse] at isTask
                exact ⟨taskId, isTask, key_eq_str_iff.mp isKey⟩
              refine
                ⟨phases,
                  { read := read
                    named := ?_
                    strings := ?_
                    respected := checked
                    result_eq := ?_ }⟩
              · intro taskId
                constructor
                · intro isTask
                  exact (mem_hashes hashed taskId).mp
                    (inside.2 taskId isTask)
                · intro member
                  obtain ⟨found, isTask, same⟩ := strings _ member
                  rwa [Json.str.inj same]
              · intro item member
                obtain ⟨taskId, _, same⟩ := strings item member
                exact ⟨taskId, same⟩
              · exact (Option.some.inj (Except.ok.inj accepted)).symm

theorem Accepted.inPhase_iff
    {phases : List (List String)}
    (accepted : Accepted raw taskIds edges result phases)
    (number : Nat) (taskId : String) :
    InPhase result number taskId ↔
      ∃ place, number = place + 1 ∧ Proposes raw place taskId := by
  rw [accepted.result_eq]
  unfold InPhase
  constructor
  · rintro ⟨entry, member, rfl, among⟩
    obtain ⟨place, bound, rfl⟩ := List.mem_mapIdx.mp member
    refine ⟨place, rfl, (proposes_iff accepted.read _ _).mpr ?_⟩
    rwa [List.getD_eq_getElem _ _ bound]
  · rintro ⟨place, rfl, proposed⟩
    have among := (proposes_iff accepted.read _ _).mp proposed
    have bound : place < phases.length := by
      by_contra outside
      rw [List.getD_eq_default _ _ (not_lt.mp outside)] at among
      cases among
    rw [List.getD_eq_getElem _ _ bound] at among
    exact ⟨{ phase := place + 1, tasks := phases[place] },
      List.mem_mapIdx.mpr ⟨place, bound, rfl⟩, rfl, among⟩

theorem Accepted.exists_place
    {phases : List (List String)}
    (accepted : Accepted raw taskIds edges result phases)
    {taskId : String} (member : .str taskId ∈ taskIds) :
    ∃ place, Proposes raw place taskId ∧
      (phaseIndex 0 phases .empty).get? taskId = some place := by
  have named := (accepted.named taskId).mpr member
  obtain ⟨place, found⟩ :=
    @exists_phaseIndex 0 phases .empty taskId (Or.inl named)
  refine ⟨place, ?_, found⟩
  rcases mem_of_phaseIndex found with absent | ⟨_, rfl, among⟩
  · cases absent
  · rw [Nat.zero_add]
    exact (proposes_iff accepted.read _ _).mpr among

theorem Accepted.mem_taskIds
    {phases : List (List String)}
    (accepted : Accepted raw taskIds edges result phases)
    {place : Nat} {taskId : String}
    (proposed : Proposes raw place taskId) :
    .str taskId ∈ taskIds := by
  refine (accepted.named taskId).mp ?_
  exact Kahn.mem_flatten_iff_getD.mpr
    ⟨place, (proposes_iff accepted.read _ _).mp proposed⟩

/-- What passes is a schedule exactly when it has no task in two phases. -/
theorem accepted_phases_valid_iff
    (accepted : normalizePhases raw taskIds edges = .ok (some result)) :
    ValidSchedule taskIds edges result ↔ NoTaskTwice raw := by
  obtain ⟨phases, facts⟩ := accepted_of_normalizePhases accepted
  have inPhase := facts.inPhase_iff
  constructor
  · intro valid taskId first second isFirst isSecond
    obtain ⟨found, same, unique⟩ :=
      valid.exactlyOne _ (facts.mem_taskIds isFirst)
    obtain rfl := Json.str.inj same
    have firstPhase := (inPhase (first + 1) taskId).mpr
      ⟨first, rfl, isFirst⟩
    have secondPhase := (inPhase (second + 1) taskId).mpr
      ⟨second, rfl, isSecond⟩
    exact Nat.succ.inj (unique.unique firstPhase secondPhase)
  · intro once
    refine
      { known := ?_
        exactlyOne := ?_
        forward := ?_ }
    · intro number taskId member
      obtain ⟨place, _, proposed⟩ := (inPhase number taskId).mp member
      exact facts.mem_taskIds proposed
    · intro item member
      obtain ⟨taskId, rfl⟩ := facts.strings item member
      obtain ⟨place, proposed, _⟩ := facts.exists_place member
      refine ⟨taskId, rfl, place + 1,
        (inPhase _ taskId).mpr ⟨place, rfl, proposed⟩, ?_⟩
      intro number other
      obtain ⟨otherPlace, rfl, isOther⟩ :=
        (inPhase number taskId).mp other
      rw [once isOther proposed]
    · intro source target earlier later depends ofSource ofTarget
      obtain ⟨first, rfl, isFirst⟩ := (inPhase _ source).mp ofSource
      obtain ⟨second, rfl, isSecond⟩ := (inPhase _ target).mp ofTarget
      -- The last phase that names a task is its only one.
      obtain ⟨sourcePlace, sourceNamed, sourceIndex⟩ :=
        facts.exists_place (facts.mem_taskIds isFirst)
      obtain ⟨targetPlace, targetNamed, targetIndex⟩ :=
        facts.exists_place (facts.mem_taskIds isSecond)
      rw [once isFirst sourceNamed, once isSecond targetNamed]
      have ascending := lt_of_respectsEdges facts.respected depends
        sourceIndex targetIndex
      omega

end Accepting

/-! ## Two proposals for one edge -/

def oneEdge : List Json :=
  [.dict [("from", .str "a"), ("to", .str "b")]]

theorem chain_is_schedule :
    ValidSchedule [.str "a", .str "b"] oneEdge
        [{ phase := 1, tasks := ["a"] }, { phase := 2, tasks := ["b"] }] ↔
      NoTaskTwice (.list [.list [.str "a"], .list [.str "b"]]) :=
  accepted_phases_valid_iff rfl

/-- Task `b` is in the first phase, too, before the task that it waits
for. -/
theorem repeated_task_is_accepted :
    ¬ ∀ raw taskIds edges result,
      normalizePhases raw taskIds edges = .ok (some result) →
      ValidSchedule taskIds edges result := by
  intro sound
  have valid := sound
    (.list [.list [.str "b"], .list [.str "a"], .list [.str "b"]])
    [.str "a", .str "b"] oneEdge
    [{ phase := 1, tasks := ["b"] }, { phase := 2, tasks := ["a"] },
      { phase := 3, tasks := ["b"] }] rfl
  have leads : HasDependency oneEdge "a" "b" :=
    ⟨_, List.mem_cons_self, rfl, rfl⟩
  have first : InPhase
      [{ phase := 1, tasks := ["b"] }, { phase := 2, tasks := ["a"] },
        { phase := 3, tasks := ["b"] }] 1 "b" :=
    ⟨_, List.mem_cons_self, rfl, List.mem_cons_self⟩
  have second : InPhase
      [{ phase := 1, tasks := ["b"] }, { phase := 2, tasks := ["a"] },
        { phase := 3, tasks := ["b"] }] 2 "a" :=
    ⟨_, List.mem_cons_of_mem _ List.mem_cons_self, rfl,
      List.mem_cons_self⟩
  exact absurd (valid.forward leads second first) (by decide)

end Agentcy.Strategist
