import Mathlib.Data.Fintype.Card
import Mathlib.Data.List.Dedup
import Agentcy.Library.Run

/-!
# A shared cell under read and replace

Clients share one value.  A client reads the whole value, computes a new one
from what it read, and later replaces the cell by it; nothing checks that the
cell still holds what was read.  Which updates the final value contains is a
function of the schedule alone: it is the chain of replacements that leads
from the last one back through the values each of them had read.
-/

namespace Agentcy.Library.SharedCell

universe u v w

variable {ι : Type u} {σ : Type v} {τ : Type w}

inductive Access (ι : Type u) where
  | read (client : ι)
  | replace (client : ι)
  deriving DecidableEq

def Access.client : Access ι → ι
  | .read client => client
  | .replace client => client

/-- The cell, and what every client holds from its last read. -/
structure Cell (ι : Type u) (σ : Type v) where
  stored : σ
  held : ι → Option σ

def Cell.initial (stored : σ) : Cell ι σ where
  stored := stored
  held := fun _ => none

def Cell.map (project : σ → τ) (cell : Cell ι σ) : Cell ι τ where
  stored := project cell.stored
  held := fun client => (cell.held client).map project

variable [DecidableEq ι]

/-- A client that holds nothing has nothing to replace the cell with. -/
def Cell.step (update : ι → σ → σ) (cell : Cell ι σ) :
    Access ι → Cell ι σ
  | .read client =>
      { cell with
        held := Function.update cell.held client (some cell.stored) }
  | .replace client =>
      match cell.held client with
      | none => cell
      | some seen =>
          { stored := update client seen
            held := Function.update cell.held client none }

/-- The cell that records, instead of a value, which updates made it. -/
def record (client : ι) (chain : List ι) : List ι :=
  chain ++ [client]

def history (schedule : List (Access ι)) : Cell ι (List ι) :=
  run (Cell.step record) (Cell.initial []) schedule

/-- The clients whose updates the final value contains, in the order in
which they were applied. -/
def survivors (schedule : List (Access ι)) : List ι :=
  (history schedule).stored

def applyAll (update : ι → σ → σ) (initial : σ) (chain : List ι) : σ :=
  chain.foldl (fun value client => update client value) initial

theorem Cell.step_map
    {update : ι → σ → σ} {update' : ι → τ → τ} {project : σ → τ}
    (commutes : ∀ client value,
      project (update client value) = update' client (project value))
    (cell : Cell ι σ) (access : Access ι) :
    (cell.step update access).map project =
      (cell.map project).step update' access := by
  cases access with
  | read client =>
      simp only [Cell.step, Cell.map, Cell.mk.injEq, true_and]
      funext tested
      by_cases same : tested = client
      · simp [same]
      · simp [same]
  | replace client =>
      cases holds : cell.held client with
      | none =>
          simp [Cell.step, Cell.map, holds]
      | some seen =>
          simp only [Cell.step, Cell.map, holds, Option.map_some,
            commutes, Cell.mk.injEq, true_and]
          funext tested
          by_cases same : tested = client
          · simp [same]
          · simp [same]

/-- A homomorphism between update functions carries whole runs along. -/
theorem Cell.run_map
    {update : ι → σ → σ} {update' : ι → τ → τ} {project : σ → τ}
    (commutes : ∀ client value,
      project (update client value) = update' client (project value))
    (cell : Cell ι σ) (schedule : List (Access ι)) :
    (run (Cell.step update) cell schedule).map project =
      run (Cell.step update') (cell.map project) schedule := by
  induction schedule generalizing cell with
  | nil =>
      rfl
  | cons access rest inductionHypothesis =>
      rw [run_cons, run_cons, inductionHypothesis,
        Cell.step_map commutes]

/-- A cell is its history read through the updates: it contains the updates
of the survivors, in order, and of nobody else. -/
theorem run_eq_map_history
    (update : ι → σ → σ) (initial : σ) (schedule : List (Access ι)) :
    run (Cell.step update) (Cell.initial initial) schedule =
      (history schedule).map (applyAll update initial) := by
  have commutes : ∀ client chain,
      applyAll update initial (record client chain) =
        update client (applyAll update initial chain) := by
    intro client chain
    simp [applyAll, record]
  exact (Cell.run_map commutes (Cell.initial []) schedule).symm

theorem history_concat (schedule : List (Access ι)) (access : Access ι) :
    history (schedule ++ [access]) =
      (history schedule).step record access :=
  run_append _ _ _ _

/-- Whatever the recorded chains contain was written by a replacement. -/
theorem replace_mem_of_recorded
    {client : ι} {schedule : List (Access ι)} :
    (client ∈ (history schedule).stored →
        Access.replace client ∈ schedule) ∧
      ∀ owner chain, (history schedule).held owner = some chain →
        client ∈ chain → Access.replace client ∈ schedule := by
  induction schedule using List.reverseRecOn with
  | nil =>
      simp [history, Cell.initial]
  | append_singleton schedule access inductionHypothesis =>
      obtain ⟨inStored, inHeld⟩ := inductionHypothesis
      rw [history_concat]
      cases access with
      | read reader =>
          constructor
          · intro member
            exact List.mem_append_left _ (inStored member)
          · intro owner chain holds member
            by_cases same : owner = reader
            · subst same
              simp only [Cell.step, Function.update_self,
                Option.some.injEq] at holds
              subst holds
              exact List.mem_append_left _ (inStored member)
            · simp only [Cell.step, Function.update_of_ne same] at holds
              exact
                List.mem_append_left _ (inHeld owner chain holds member)
      | replace writer =>
          cases holdsWriter : (history schedule).held writer with
          | none =>
              simp only [Cell.step, holdsWriter]
              exact
                ⟨fun member => List.mem_append_left _ (inStored member),
                  fun owner chain holds member =>
                    List.mem_append_left _
                      (inHeld owner chain holds member)⟩
          | some seen =>
              simp only [Cell.step, holdsWriter]
              constructor
              · intro member
                rcases List.mem_append.mp member with old | new
                · exact List.mem_append_left _
                    (inHeld writer seen holdsWriter old)
                · rw [List.mem_singleton.mp new]
                  simp
              · intro owner chain holds member
                by_cases same : owner = writer
                · subst same
                  simp at holds
                · rw [Function.update_of_ne same] at holds
                  exact List.mem_append_left _
                    (inHeld owner chain holds member)

/-- Every client reads once and replaces once, in this order. -/
def Complete (schedule : List (Access ι)) : Prop :=
  ∀ client,
    schedule.filter (fun access => access.client = client) =
      [.read client, .replace client]

theorem Complete.replace_not_mem_before_read
    {schedule : List (Access ι)} (complete : Complete schedule)
    {before after : List (Access ι)} {client : ι}
    (split : schedule = before ++ Access.read client :: after) :
    Access.replace client ∉ before := by
  intro member
  have filtered := complete client
  rw [split, List.filter_append,
    List.filter_cons_of_pos (by simp [Access.client])] at filtered
  have early : Access.replace client ∈
      before.filter (fun access => access.client = client) :=
    List.mem_filter.mpr ⟨member, by simp [Access.client]⟩
  cases hb : before.filter (fun access => access.client = client) with
  | nil =>
      rw [hb] at early
      cases early
  | cons first rest =>
      rw [hb] at filtered early
      simp only [List.cons_append, List.cons.injEq] at filtered
      obtain ⟨atRead, tailEq⟩ := filtered
      cases rest with
      | nil =>
          rw [atRead] at early
          simp at early
      | cons second others =>
          have lengths := congrArg List.length tailEq
          simp at lengths

theorem Complete.nodup
    {schedule : List (Access ι)} (complete : Complete schedule) :
    schedule.Nodup := by
  rw [List.nodup_iff_count_le_one]
  intro access
  have filtered := complete access.client
  rw [← List.count_filter (p := fun tested : Access ι =>
    tested.client = access.client) (by simp), filtered]
  cases access with
  | read client =>
      simp [Access.client]
  | replace client =>
      simp [Access.client]

theorem Complete.replace_mem
    {schedule : List (Access ι)} (complete : Complete schedule)
    (client : ι) : Access.replace client ∈ schedule := by
  have member : Access.replace client ∈
      schedule.filter (fun access => access.client = client) := by
    rw [complete client]
    simp
  exact (List.mem_filter.mp member).1

theorem Complete.no_access_between
    {schedule : List (Access ι)} (complete : Complete schedule)
    {before middle after : List (Access ι)} {client : ι}
    (split :
      schedule =
        before ++
          Access.read client ::
            (middle ++ Access.replace client :: after)) :
    ∀ access ∈ middle, access.client ≠ client := by
  have nodup := complete.nodup
  rw [split] at nodup
  intro access member same
  cases access with
  | read reader =>
      have equal : reader = client := same
      subst equal
      grind
  | replace writer =>
      have equal : writer = client := same
      subst equal
      grind

/-- A replacement of a complete schedule comes after its own read, and no
other access of that client lies between the two. -/
theorem Complete.split_at_replace
    {schedule : List (Access ι)} (complete : Complete schedule)
    {before after : List (Access ι)} {client : ι}
    (split : schedule = before ++ Access.replace client :: after) :
    ∃ early middle, before = early ++ Access.read client :: middle ∧
      ∀ access ∈ middle, access.client ≠ client := by
  have filtered := complete client
  rw [split, List.filter_append,
    List.filter_cons_of_pos (by simp [Access.client])] at filtered
  have readFirst : Access.read client ∈ before := by
    cases atFront :
        before.filter (fun access => access.client = client) with
    | nil =>
        rw [atFront] at filtered
        simp at filtered
    | cons first rest =>
        rw [atFront, List.cons_append] at filtered
        have member : first ∈
            before.filter (fun access => access.client = client) := by
          simp [atFront]
        rw [(List.cons.inj filtered).1] at member
        exact (List.mem_filter.mp member).1
  obtain ⟨early, middle, before_eq⟩ := List.append_of_mem readFirst
  have splitRead :
      schedule =
        early ++
          Access.read client ::
            (middle ++ Access.replace client :: after) := by
    simpa [before_eq] using split
  exact
    ⟨early, middle, before_eq, complete.no_access_between splitRead⟩

/-! ## When every update survives -/

/-- No replacement of another client falls between a client's read and its
replacement. -/
def Undisturbed (schedule : List (Access ι)) : Prop :=
  ∀ client before middle after,
    schedule =
        before ++
          Access.read client ::
            (middle ++ Access.replace client :: after) →
      ∀ other, Access.replace other ∉ middle

section Frame

variable (update : ι → σ → σ) (cell : Cell ι σ)

theorem held_run_of_other
    {client : ι} {accesses : List (Access ι)}
    (others : ∀ access ∈ accesses, access.client ≠ client) :
    (run (Cell.step update) cell accesses).held client =
      cell.held client := by
  induction accesses generalizing cell with
  | nil =>
      rfl
  | cons access rest inductionHypothesis =>
      rw [run_cons, inductionHypothesis _ fun later member =>
        others later (List.mem_cons_of_mem _ member)]
      have different := others access List.mem_cons_self
      cases access with
      | read reader =>
          exact Function.update_of_ne (Ne.symm different) _ _
      | replace writer =>
          cases holds : cell.held writer with
          | none =>
              simp only [Cell.step, holds]
          | some seen =>
              simp only [Cell.step, holds]
              exact Function.update_of_ne (Ne.symm different) _ _

theorem stored_run_of_reads
    {accesses : List (Access ι)}
    (reads : ∀ other, Access.replace other ∉ accesses) :
    (run (Cell.step update) cell accesses).stored = cell.stored := by
  induction accesses generalizing cell with
  | nil =>
      rfl
  | cons access rest inductionHypothesis =>
      have restReads : ∀ other, Access.replace other ∉ rest :=
        fun other member =>
          reads other (List.mem_cons_of_mem _ member)
      rw [run_cons, inductionHypothesis _ restReads]
      cases access with
      | read reader =>
          rfl
      | replace writer =>
          exact absurd List.mem_cons_self (reads writer)

end Frame

/-- What a replacement writes: the chain that its client had read, and the
client itself. -/
theorem stored_after_replace
    (early : List (Access ι)) {middle : List (Access ι)} {client : ι}
    (others : ∀ access ∈ middle, access.client ≠ client) :
    (history (early ++ Access.read client :: middle ++
        [.replace client])).stored =
      (history early).stored ++ [client] := by
  have holds :
      (history (early ++ Access.read client :: middle)).held client =
        some (history early).stored := by
    rw [history, run_append, run_cons, held_run_of_other _ _ others]
    exact Function.update_self _ _ _
  rw [history_concat]
  simp [Cell.step, holds, record]

/-- Without disturbance every replaced client is in the stored chain. -/
theorem Undisturbed.replaced_mem
    {schedule : List (Access ι)} (complete : Complete schedule)
    (undisturbed : Undisturbed schedule)
    {before after : List (Access ι)} (split : schedule = before ++ after)
    {client : ι} (replaced : Access.replace client ∈ before) :
    client ∈ (history before).stored := by
  induction before using List.reverseRecOn generalizing after with
  | nil =>
      cases replaced
  | append_singleton before access inductionHypothesis =>
      have splitHere : schedule = before ++ access :: after := by
        simpa using split
      have earlier := inductionHypothesis splitHere
      cases access with
      | read reader =>
          rw [history_concat]
          exact earlier (by simpa using replaced)
      | replace writer =>
          obtain ⟨early, middle, before_eq, others⟩ :=
            complete.split_at_replace splitHere
          subst before_eq
          have splitRead :
              schedule =
                early ++ .read writer ::
                  (middle ++ .replace writer :: after) := by
            simpa using splitHere
          have sameStored :
              (history (early ++ .read writer :: middle)).stored =
                (history early).stored := by
            rw [history, run_append, run_cons,
              stored_run_of_reads _ _
                (undisturbed writer early middle after splitRead)]
            rfl
          rw [stored_after_replace early others, List.mem_append,
            ← sameStored]
          rcases List.mem_append.mp replaced with old | new
          · exact Or.inl (earlier old)
          · exact Or.inr (by simpa using new)

/-- Replacements in the order of the schedule. -/
def writers (schedule : List (Access ι)) : List ι :=
  schedule.filterMap fun access =>
    match access with
    | .read _ => none
    | .replace client => some client

/-- Chains grow by at most one client with every replacement. -/
theorem length_run_le
    (cell : Cell ι (List ι)) (bound : Nat)
    (stored : cell.stored.length ≤ bound)
    (held : ∀ client chain, cell.held client = some chain →
      chain.length ≤ bound)
    (schedule : List (Access ι)) :
    (run (Cell.step record) cell schedule).stored.length ≤
        bound + (writers schedule).length ∧
      ∀ client chain,
        (run (Cell.step record) cell schedule).held client = some chain →
          chain.length ≤ bound + (writers schedule).length := by
  induction schedule generalizing cell bound with
  | nil =>
      exact ⟨stored, held⟩
  | cons access rest inductionHypothesis =>
      cases access with
      | read reader =>
          refine inductionHypothesis _ bound stored ?_
          intro client chain holds
          by_cases same : client = reader
          · subst same
            simp only [Cell.step, Function.update_self,
              Option.some.injEq] at holds
            exact holds ▸ stored
          · simp only [Cell.step, Function.update_of_ne same] at holds
            exact held client chain holds
      | replace writer =>
          have count :
              bound + (writers (.replace writer :: rest)).length =
                bound + 1 + (writers rest).length := by
            simp [writers]
            omega
          rw [count, run_cons]
          refine inductionHypothesis _ (bound + 1) ?_ ?_
          · cases holds : cell.held writer with
            | none =>
                simp only [Cell.step, holds]
                omega
            | some seen =>
                have short := held writer seen holds
                simp only [Cell.step, holds, record,
                  List.length_append, List.length_singleton]
                omega
          · intro client chain holdsAfter
            suffices kept : cell.held client = some chain by
              have short := held client chain kept
              omega
            cases holds : cell.held writer with
            | none =>
                simpa only [Cell.step, holds] using holdsAfter
            | some seen =>
                by_cases same : client = writer
                · subst same
                  simp [Cell.step, holds] at holdsAfter
                · simpa only [Cell.step, holds,
                    Function.update_of_ne same] using holdsAfter

theorem Complete.writers_nodup
    {schedule : List (Access ι)} (complete : Complete schedule) :
    (writers schedule).Nodup := by
  refine complete.nodup.filterMap ?_
  intro first second client
  cases first with
  | read _ => simp
  | replace _ =>
      cases second with
      | read _ => simp
      | replace _ =>
          simp only [Option.mem_def, Option.some.injEq,
            Access.replace.injEq]
          intro left right
          exact left.trans right.symm

/-- A disturbed replacement leaves a chain that misses a client, and nothing
that follows can make up for it. -/
theorem Complete.length_survivors_lt
    {schedule : List (Access ι)} (complete : Complete schedule)
    {client other : ι} {before middle after : List (Access ι)}
    (split :
      schedule =
        before ++
          Access.read client ::
            (middle ++ Access.replace client :: after))
    (disturbed : Access.replace other ∈ middle) :
    (survivors schedule).length < (writers schedule).length := by
  have others := complete.no_access_between split
  have initialBound := fun accesses : List (Access ι) =>
    length_run_le (Cell.initial []) 0 (by simp [Cell.initial])
      (by simp [Cell.initial]) accesses
  have stored := stored_after_replace before others
  have positive : 0 < (writers middle).length := by
    have otherWrites : other ∈ writers middle :=
      List.mem_filterMap.mpr ⟨_, disturbed, rfl⟩
    exact List.length_pos_of_mem otherWrites
  have early := (initialBound before).1
  have held :=
    (initialBound (before ++ Access.read client :: middle)).2
  have storedBound :
      (history
          (before ++ Access.read client :: middle ++
            [Access.replace client])).stored.length ≤
        (writers (before ++ Access.read client :: middle)).length := by
    rw [stored, List.length_append, List.length_singleton]
    simp only [writers, List.filterMap_append, List.filterMap_cons,
      List.length_append] at early positive ⊢
    rw [history]
    omega
  have heldBound : ∀ owner chain,
      (history
          (before ++ Access.read client :: middle ++
            [Access.replace client])).held owner = some chain →
        chain.length ≤
          (writers (before ++ Access.read client :: middle)).length := by
    intro owner chain holds
    rw [history_concat] at holds
    cases holdsClient :
        (history (before ++ Access.read client :: middle)).held
          client with
    | none =>
        simp only [Cell.step, holdsClient] at holds
        simpa using held owner chain holds
    | some seen =>
        by_cases same : owner = client
        · subst same
          simp [Cell.step, holdsClient] at holds
        · simp only [Cell.step, holdsClient,
            Function.update_of_ne same] at holds
          simpa using held owner chain holds
  have rest := (length_run_le _ _ storedBound heldBound after).1
  have whole :
      survivors schedule =
        (run (Cell.step record)
          (history
            (before ++ Access.read client :: middle ++
              [Access.replace client]))
          after).stored := by
    rw [survivors, history, split, history, ← run_append]
    simp
  rw [whole, split]
  simp only [writers, List.filterMap_append, List.filterMap_cons,
    List.length_append, List.length_cons] at rest ⊢
  omega

/-- In a complete schedule all updates survive exactly when no client is
disturbed between its read and its replacement. -/
theorem Complete.all_survive_iff
    [Fintype ι] {schedule : List (Access ι)}
    (complete : Complete schedule) :
    (∀ client, client ∈ survivors schedule) ↔ Undisturbed schedule := by
  constructor
  · intro everyone client before middle after split other disturbed
    have short := complete.length_survivors_lt split disturbed
    have atMost : (writers schedule).length ≤ Fintype.card ι :=
      complete.writers_nodup.length_le_card
    have atLeast : Fintype.card ι ≤ (survivors schedule).length :=
      calc
        Fintype.card ι ≤ (survivors schedule).toFinset.card :=
          Finset.card_le_card fun client _ =>
            List.mem_toFinset.mpr (everyone client)
        _ ≤ (survivors schedule).length := List.toFinset_card_le _
    omega
  · intro undisturbed client
    exact
      undisturbed.replaced_mem complete (List.append_nil _).symm
        (complete.replace_mem client)

theorem Complete.length_survivors_le
    [Fintype ι] {schedule : List (Access ι)}
    (complete : Complete schedule) :
    (survivors schedule).length ≤ Fintype.card ι := by
  have bounded :=
    (length_run_le (Cell.initial []) 0 (by simp [Cell.initial])
      (by simp [Cell.initial]) schedule).1
  have atMost : (writers schedule).length ≤ Fintype.card ι :=
    complete.writers_nodup.length_le_card
  rw [Nat.zero_add] at bounded
  exact le_trans bounded atMost

/-- Updates that all survive do so once each. -/
theorem Complete.nodup_survivors
    [Fintype ι] {schedule : List (Access ι)}
    (complete : Complete schedule)
    (everyone : ∀ client, client ∈ survivors schedule) :
    (survivors schedule).Nodup := by
  have atLeast : Fintype.card ι ≤ (survivors schedule).dedup.length :=
    calc
      Fintype.card ι ≤ (survivors schedule).dedup.toFinset.card :=
        Finset.card_le_card fun client _ =>
          List.mem_toFinset.mpr (List.mem_dedup.mpr (everyone client))
      _ ≤ (survivors schedule).dedup.length := List.toFinset_card_le _
  have atMost := complete.length_survivors_le
  have same : (survivors schedule).dedup = survivors schedule :=
    (List.dedup_sublist _).eq_of_length_le (by omega)
  exact List.dedup_eq_self.mp same

/-- A disturbed update is missing for good. -/
theorem Complete.length_survivors_lt_card
    [Fintype ι] {schedule : List (Access ι)}
    (complete : Complete schedule) (disturbed : ¬ Undisturbed schedule) :
    (survivors schedule).length < Fintype.card ι := by
  have atMost := complete.length_survivors_le
  by_contra full
  apply disturbed
  intro client before middle after split other between
  have short := complete.length_survivors_lt split between
  have writersAtMost : (writers schedule).length ≤ Fintype.card ι :=
    complete.writers_nodup.length_le_card
  omega

end Agentcy.Library.SharedCell
