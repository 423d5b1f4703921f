import Agentcy.Agents.CapabilityTaxonomy
import Agentcy.Cnp.CnpStore
import Agentcy.Library.Reachability

/-!
# Ancestors and descendants of capabilities

`expand_capabilities` climbs from a capability to its ancestors, and
`get_children` collects the descendants of one.  The climb ends after ten
steps and at an empty name; the descent does neither.
-/

namespace Agentcy.Agents

open Agentcy.Library
open Agentcy.Library.Reachability

/-- `capability.lower().strip()`. -/
def normalName (python : PyBuiltins) (capability : String) : String :=
  PyText.strip (python.lower capability)

section Descendants

variable (hierarchy : Hierarchy)

/-- The edges from parents to children. -/
def childEdges : List (String × String) :=
  hierarchy.entries.map Prod.swap

/-- `get_children`.  The queue is written with its end first; the names that
are visited are the result, but for the target. -/
def getChildren (python : PyBuiltins) (capability : String) :
    List String :=
  let target := normalName python capability
  let edges := childEdges hierarchy
  let visited :=
    searchWith (fun queue children => children ++ queue)
      (Kahn.outgoing edges) (edges.length + 1) [target]
      (Kahn.outgoing edges target)
  visited.filter fun name => decide (name ≠ target)

/-- The name that is reached from `capability` in so many steps up. -/
def ancestorAt : Nat → String → Option String
  | 0, capability => some capability
  | steps + 1, capability =>
      (hierarchy.get? capability).bind (ancestorAt steps)

/-- The climb from `low` meets `high` first after so many steps. -/
structure MeetsAt (steps : Nat) (low high : String) : Prop where
  meets : ancestorAt hierarchy steps low = some high
  first : ∀ fewer < steps, ancestorAt hierarchy fewer low ≠ some high

variable {hierarchy}

theorem ancestorAt_add (first second : Nat) (low : String) :
    ancestorAt hierarchy (first + second) low =
      (ancestorAt hierarchy first low).bind
        (ancestorAt hierarchy second) := by
  induction first generalizing low with
  | zero => simp [ancestorAt]
  | succ first inductionHypothesis =>
      rw [Nat.add_right_comm, ancestorAt, ancestorAt]
      cases hierarchy.get? low with
      | none => rfl
      | some parent => exact inductionHypothesis parent

/-- What is met at all is met a first time. -/
theorem exists_meetsAt_iff (low high : String) :
    (∃ steps, MeetsAt hierarchy steps low high) ↔
      ∃ steps, ancestorAt hierarchy steps low = some high := by
  constructor
  · intro met
    obtain ⟨steps, meetsAt⟩ := met
    exact ⟨steps, meetsAt.meets⟩
  · intro reached
    have decidable : DecidablePred fun steps =>
        ancestorAt hierarchy steps low = some high :=
      fun _ => inferInstance
    exact ⟨Nat.find reached, Nat.find_spec reached,
      fun _ fewer => Nat.find_min reached fewer⟩

theorem MeetsAt.unique
    {first second : Nat} {low high : String}
    (left : MeetsAt hierarchy first low high)
    (right : MeetsAt hierarchy second low high) : first = second := by
  rcases lt_trichotomy first second with less | same | more
  · exact absurd left.meets (right.first first less)
  · exact same
  · exact absurd right.meets (left.first second more)

/-- On the way up to the first meeting no name comes twice: from the second
time on the climb would go round without it. -/
theorem MeetsAt.distinct
    {steps : Nat} {low high : String}
    (meetsAt : MeetsAt hierarchy steps low high)
    {lower upper : Nat} (less : lower < upper) (within : upper ≤ steps) :
    ancestorAt hierarchy lower low ≠ ancestorAt hierarchy upper low := by
  intro same
  have rest :
      ancestorAt hierarchy (lower + (steps - upper)) low = some high := by
    rw [ancestorAt_add, same, ← ancestorAt_add,
      Nat.add_sub_of_le within]
    exact meetsAt.meets
  exact meetsAt.first _ (by omega) rest

theorem mem_childEdges_iff {parent child : String} :
    (parent, child) ∈ childEdges hierarchy ↔
      hierarchy.get? child = some parent := by
  rw [← OrderedMap.mem_entries_iff]
  simp [childEdges]

theorem reaches_iff (high low : String) :
    Reaches (childEdges hierarchy) high low ↔
      ∃ steps, ancestorAt hierarchy steps low = some high := by
  constructor
  · intro path
    induction path with
    | refl => exact ⟨0, rfl⟩
    | tail _ edge inductionHypothesis =>
        obtain ⟨steps, reached⟩ := inductionHypothesis
        refine ⟨steps + 1, ?_⟩
        rw [ancestorAt, mem_childEdges_iff.mp edge]
        exact reached
  · intro reached
    obtain ⟨steps, reached⟩ := reached
    induction steps generalizing low with
    | zero =>
        cases reached
        exact Relation.ReflTransGen.refl
    | succ steps inductionHypothesis =>
        obtain ⟨parent, isParent, later⟩ :=
          Option.bind_eq_some_iff.mp reached
        exact (inductionHypothesis parent later).tail
          (mem_childEdges_iff.mpr isParent)

theorem mem_getChildren_iff
    (python : PyBuiltins) (capability name : String) :
    name ∈ getChildren hierarchy python capability ↔
      name ≠ normalName python capability ∧
        ∃ steps, ancestorAt hierarchy steps name =
          some (normalName python capability) := by
  have all : ∀ queue children : List String,
      (children ++ queue).Perm (queue ++ children) :=
    fun _ _ => List.perm_append_comm
  rw [getChildren, List.mem_filter, decide_eq_true_iff,
    mem_searchWith_successors_iff all, reaches_iff]
  exact and_comm

end Descendants

section Climb

variable {hierarchy : Hierarchy}

/-- The names up to the given step are neither empty, nor visited before the
climb, nor met earlier on it. -/
def Passable
    (hierarchy : Hierarchy) (visited : List String) (steps : Nat)
    (low : String) : Prop :=
  ∀ step ≤ steps, ∀ name, ancestorAt hierarchy (step + 1) low = some name →
    name ≠ "" ∧ name ∉ visited ∧
      ∀ earlier < step, ancestorAt hierarchy (earlier + 1) low ≠ some name

/-- The first step leads to the parent, which is visited from then on. -/
theorem passable_iff_of_parent
    {visited : List String} {steps : Nat} {low parent : String}
    (isParent : hierarchy.get? low = some parent) :
    Passable hierarchy visited (steps + 1) low ↔
      (parent ≠ "" ∧ parent ∉ visited) ∧
        Passable hierarchy (parent :: visited) steps parent := by
  have up (step : Nat) :
      ancestorAt hierarchy (step + 1) low =
        ancestorAt hierarchy step parent := by
    rw [ancestorAt, isParent]
    rfl
  unfold Passable
  simp only [up]
  constructor
  · intro passable
    obtain ⟨nonempty, new, _⟩ := passable 0 (Nat.zero_le _) parent rfl
    refine ⟨⟨nonempty, new⟩, ?_⟩
    intro step within name isName
    obtain ⟨nameNonempty, nameNew, apart⟩ :=
      passable (step + 1) (by omega) name isName
    refine ⟨nameNonempty, ?_, ?_⟩
    · intro member
      rcases List.mem_cons.mp member with same | old
      · exact apart 0 (Nat.succ_pos _) (same ▸ rfl)
      · exact nameNew old
    · intro earlier less
      exact apart (earlier + 1) (by omega)
  · intro passable
    obtain ⟨⟨nonempty, new⟩, later⟩ := passable
    intro step within name isName
    cases step with
    | zero =>
        cases isName
        exact ⟨nonempty, new, fun _ none => absurd none (Nat.not_lt_zero _)⟩
    | succ step =>
        obtain ⟨nameNonempty, nameNew, apart⟩ :=
          later step (by omega) name isName
        refine ⟨nameNonempty,
          fun old => nameNew (List.mem_cons_of_mem _ old), ?_⟩
        intro earlier less
        cases earlier with
        | zero =>
            intro same
            cases same
            exact nameNew List.mem_cons_self
        | succ earlier =>
            exact apart earlier (by omega)

theorem passable_zero_iff_of_parent
    {visited : List String} {low parent : String}
    (isParent : hierarchy.get? low = some parent) :
    Passable hierarchy visited 0 low ↔
      parent ≠ "" ∧ parent ∉ visited := by
  have up : ancestorAt hierarchy 1 low = some parent := by
    rw [ancestorAt, isParent]
    rfl
  constructor
  · intro passable
    obtain ⟨nonempty, new, _⟩ := passable 0 le_rfl parent up
    exact ⟨nonempty, new⟩
  · intro fine step within name isName
    obtain rfl := Nat.le_zero.mp within
    rw [up] at isName
    cases isName
    exact ⟨fine.1, fine.2, fun _ none => absurd none (Nat.not_lt_zero _)⟩

theorem mem_climb_iff
    {depth : Nat} {low high : String} {visited : List String} :
    high ∈ climb hierarchy depth low visited ↔
      ∃ steps < depth,
        ancestorAt hierarchy (steps + 1) low = some high ∧
          Passable hierarchy visited steps low := by
  induction depth generalizing low visited with
  | zero => simp [climb]
  | succ depth inductionHypothesis =>
      rw [climb]
      cases isParent : hierarchy.get? low with
      | none =>
          simp [ancestorAt, isParent]
      | some parent =>
          have up (step : Nat) :
              ancestorAt hierarchy (step + 1) low =
                ancestorAt hierarchy step parent := by
            rw [ancestorAt, isParent]
            rfl
          by_cases stops : parent = "" ∨ parent ∈ visited
          · simp only [stops, if_true, List.not_mem_nil, false_iff]
            intro reached
            obtain ⟨steps, _, _, passable⟩ := reached
            obtain ⟨nonempty, new, _⟩ :=
              passable 0 (Nat.zero_le _) parent (by rw [up]; rfl)
            rcases stops with empty | old
            · exact nonempty empty
            · exact new old
          · simp only [stops, if_false, List.mem_cons,
              inductionHypothesis]
            have fine := not_or.mp stops
            constructor
            · intro either
              rcases either with same | ⟨steps, less, reached, passable⟩
              · exact ⟨0, Nat.succ_pos _, by rw [up, same]; rfl,
                  (passable_zero_iff_of_parent isParent).mpr fine⟩
              · exact ⟨steps + 1, by omega, by rw [up]; exact reached,
                  (passable_iff_of_parent isParent).mpr ⟨fine, passable⟩⟩
            · intro reached
              obtain ⟨steps, less, reached, passable⟩ := reached
              rw [up] at reached
              cases steps with
              | zero =>
                  cases reached
                  exact Or.inl rfl
              | succ steps =>
                  exact Or.inr ⟨steps, by omega, reached,
                    ((passable_iff_of_parent isParent).mp passable).2⟩

/-- If the way up from `low` meets `high`, it does so within the steps of a
climb, and no name on it is empty. -/
def WithinClimb (hierarchy : Hierarchy) (low high : String) : Prop :=
  ∀ steps, MeetsAt hierarchy steps low high →
    steps ≤ maxDepth ∧
      ∀ step, 1 ≤ step → step ≤ steps →
        ancestorAt hierarchy step low ≠ some ""

theorem mem_climb_start_iff
    {low high : String} (distinct : low ≠ high) :
    high ∈ climb hierarchy maxDepth low [low] ↔
      ∃ steps, MeetsAt hierarchy steps low high ∧ steps ≤ maxDepth ∧
        ∀ step, 1 ≤ step → step ≤ steps →
          ancestorAt hierarchy step low ≠ some "" := by
  rw [mem_climb_iff]
  constructor
  · intro climbed
    obtain ⟨steps, less, reached, passable⟩ := climbed
    refine ⟨steps + 1, ⟨reached, ?_⟩, less, ?_⟩
    · intro fewer lower
      cases fewer with
      | zero =>
          intro same
          exact distinct (Option.some.inj same)
      | succ fewer =>
          exact (passable steps le_rfl high reached).2.2 fewer (by omega)
    · intro step positive within empty
      obtain ⟨before, rfl⟩ := Nat.exists_eq_add_of_le' positive
      exact (passable before (by omega) "" empty).1 rfl
  · intro met
    obtain ⟨steps, meetsAt, within, nonempty⟩ := met
    cases steps with
    | zero => exact absurd (Option.some.inj meetsAt.meets) distinct
    | succ steps =>
        refine ⟨steps, within, meetsAt.meets, ?_⟩
        intro step below name isName
        refine ⟨?_, ?_, ?_⟩
        · intro empty
          exact nonempty (step + 1) (by omega) (by omega) (empty ▸ isName)
        · intro member
          rw [List.mem_singleton.mp member] at isName
          exact meetsAt.distinct (Nat.succ_pos step) (by omega)
            isName.symm
        · intro earlier less same
          exact
            meetsAt.distinct (Nat.succ_lt_succ less) (by omega)
              (same.trans isName.symm)

end Climb

/-- For every hierarchy and two distinct names in normal form, being among the
ancestors and being among the descendants agree exactly when the ancestor, if
it is one, is within a climb. -/
theorem ancestors_agree_iff
    (python : PyBuiltins) (hierarchy : Hierarchy) (low high : String)
    (lowNormal : normalName python low = low)
    (highNormal : normalName python high = high)
    (distinct : low ≠ high) :
    (high ∈ expandCapabilities python hierarchy [low] ↔
        low ∈ getChildren hierarchy python high) ↔
      WithinClimb hierarchy low high := by
  have expanded :
      high ∈ expandCapabilities python hierarchy [low] ↔
        high ∈ climb hierarchy maxDepth low [low] := by
    have key : PyText.strip (python.lower low) = low := lowNormal
    simp [expandCapabilities, key, Ne.symm distinct]
  rw [expanded, mem_climb_start_iff distinct, mem_getChildren_iff,
    highNormal, ← exists_meetsAt_iff]
  constructor
  · intro agree steps meetsAt
    obtain ⟨climbed, metClimbed, within⟩ :=
      agree.mpr ⟨distinct, steps, meetsAt⟩
    rw [meetsAt.unique metClimbed]
    exact within
  · intro within
    constructor
    · intro climbed
      obtain ⟨steps, meetsAt, _⟩ := climbed
      exact ⟨distinct, steps, meetsAt⟩
    · intro below
      obtain ⟨_, steps, meetsAt⟩ := below
      exact ⟨steps, meetsAt, within steps meetsAt⟩

/-- The names `c0`, `c1`, and so on, each below the next. -/
def chainOf (length : Nat) : Hierarchy :=
  .ofList ((List.range length).map fun level =>
    (s!"c{level}", s!"c{level + 1}"))

theorem chain_of_two_agrees :
    ("c2" ∈ expandCapabilities Cnp.plainPython (chainOf 2) ["c0"] ↔
      "c0" ∈ getChildren (chainOf 2) Cnp.plainPython "c2") := by
  refine
    (ancestors_agree_iff Cnp.plainPython (chainOf 2) "c0" "c2"
      (by decide +kernel) (by decide +kernel) (by decide)).mpr ?_
  intro steps meetsAt
  have two : MeetsAt (chainOf 2) 2 "c0" "c2" := by
    refine ⟨by decide +kernel, ?_⟩
    decide +kernel
  rw [meetsAt.unique two]
  refine ⟨by decide, ?_⟩
  intro step positive within
  have either : step = 1 ∨ step = 2 := by omega
  rcases either with rfl | rfl
  · decide +kernel
  · decide +kernel

/-- Eleven levels up, the name is a descendant but not an ancestor. -/
theorem eleventh_ancestor_missed :
    "c11" ∉ expandCapabilities Cnp.plainPython (chainOf 11) ["c0"] ∧
      "c0" ∈ getChildren (chainOf 11) Cnp.plainPython "c11" := by
  refine ⟨by decide +kernel, by decide +kernel⟩

end Agentcy.Agents
