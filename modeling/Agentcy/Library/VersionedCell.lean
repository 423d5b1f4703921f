import Agentcy.Library.Run
import Mathlib.Data.List.Nodup
import Mathlib.Logic.Function.Basic

/-!
# A shared cell under compare-and-swap

Clients share one cell that may be empty.  A client reads the cell, decides
what to do, and replaces the cell only if nobody replaced it since; otherwise
it tries again, a bounded number of times.  A client that finds the cell empty
inserts a skeleton first and tries again.  Whatever the interleaving, the
successful replacements form one chain, in which every client acts on the
value that its predecessor left.
-/

namespace Agentcy.Library.VersionedCell

universe u v w x y

/-- What a client decides on the value that it has read. -/
inductive Attempt (σ : Type w) (ρ : Type x) where
  | finish (answer : ρ)
  | replace (value : σ) (answer : ρ)

structure Protocol
    (ι : Type u) (τ : Type v) (σ : Type w) (ρ : Type x) where
  attempt : ι → τ → σ → Attempt σ ρ
  skeleton : τ → σ
  exhausted : ρ

/-- Where a client stands, with the number of further attempts that it may
make. -/
inductive Client (σ : Type w) (ρ : Type x) where
  | ready (left : Nat)
  | inserting (left : Nat) (value : σ)
  | replacing (left version : Nat) (value : σ) (answer : ρ)
  | done (answer : ρ)

structure State (ι : Type u) (σ : Type w) (ρ : Type x) where
  version : Nat
  cell : Option σ
  clients : ι → Client σ ρ

/-- A successful replacement. -/
structure Commit (ι : Type u) (σ : Type w) (ρ : Type x) where
  client : ι
  before : σ
  after : σ
  answer : ρ

variable {ι : Type u} {τ : Type v} {σ : Type w} {ρ : Type x}

def Protocol.retry (protocol : Protocol ι τ σ ρ) : Nat → Client σ ρ
  | 0 => .done protocol.exhausted
  | left + 1 => .ready left

/-- What a client that stands ready does after reading the cell. -/
def Protocol.read (protocol : Protocol ι τ σ ρ)
    (state : State ι σ ρ) (client : ι) (input : τ) (left : Nat) :
    Client σ ρ :=
  match state.cell with
  | none => .inserting left (protocol.skeleton input)
  | some seen =>
      match protocol.attempt client input seen with
      | .finish answer => .done answer
      | .replace value answer =>
          .replacing left state.version value answer

variable [DecidableEq ι]

def State.move
    (state : State ι σ ρ) (client : ι) (next : Client σ ρ) :
    State ι σ ρ :=
  { state with clients := Function.update state.clients client next }

/-- Write the cell under a new version. -/
def State.put (state : State ι σ ρ) (value : σ) : State ι σ ρ :=
  { state with version := state.version + 1, cell := some value }

/-- One access of a client to the cell. -/
def Protocol.step (protocol : Protocol ι τ σ ρ)
    (state : State ι σ ρ) (event : ι × τ) : State ι σ ρ :=
  match state.clients event.1 with
  | .ready left =>
      state.move event.1 (protocol.read state event.1 event.2 left)
  | .inserting left value =>
      match state.cell with
      | none => (state.put value).move event.1 (protocol.retry left)
      | some _ => state.move event.1 (protocol.retry left)
  | .replacing left version value answer =>
      if version = state.version then
        (state.put value).move event.1 (.done answer)
      else
        state.move event.1 (protocol.retry left)
  | .done _ => state

omit [DecidableEq ι] in
/-- The replacement that a client makes with its next access, if it makes
one. -/
def State.commit? (state : State ι σ ρ) (client : ι) :
    Option (Commit ι σ ρ) :=
  match state.clients client, state.cell with
  | .replacing _ version value answer, some before =>
      if version = state.version then
        some ⟨client, before, value, answer⟩
      else none
  | _, _ => none

/-- The successful replacements of a run, in their order. -/
def Protocol.commits (protocol : Protocol ι τ σ ρ) :
    State ι σ ρ → List (ι × τ) → List (Commit ι σ ρ)
  | _, [] => []
  | state, event :: events =>
      (state.commit? event.1).toList ++
        protocol.commits (protocol.step state event) events

/-- An invariant of states and of the replacements so far that every access
keeps holds after every run. -/
theorem Protocol.commits_invariant
    (protocol : Protocol ι τ σ ρ)
    (Inv : State ι σ ρ → List (Commit ι σ ρ) → Prop)
    (keeps : ∀ state log event, Inv state log →
      Inv (protocol.step state event)
        (log ++ (state.commit? event.1).toList))
    {state : State ι σ ρ} (initial : Inv state [])
    (events : List (ι × τ)) :
    Inv (run protocol.step state events)
      (protocol.commits state events) := by
  have extended : ∀ log, Inv state log →
      Inv (run protocol.step state events)
        (log ++ protocol.commits state events) := by
    clear initial
    induction events generalizing state with
    | nil =>
        intro log holds
        simpa [Protocol.commits] using holds
    | cons event events inductionHypothesis =>
        intro log holds
        have later :=
          inductionHypothesis _ (keeps state log event holds)
        simpa [Protocol.commits] using later
  simpa using extended [] initial

/-- A client that is about to write the cell under its present version has
decided on the present value, and a skeleton in hand is one. -/
structure Protocol.Valid (protocol : Protocol ι τ σ ρ)
    (state : State ι σ ρ) : Prop where
  pending : ∀ client left version value answer,
    state.clients client = .replacing left version value answer →
      version ≤ state.version ∧
        (version = state.version →
          ∃ before input, state.cell = some before ∧
            protocol.attempt client input before =
              .replace value answer)
  skeletons : ∀ client left value,
    state.clients client = .inserting left value →
      ∃ input, value = protocol.skeleton input

/-- The five kinds of access, each with its effect and the replacement that it
adds to the chain. -/
inductive Protocol.Access (protocol : Protocol ι τ σ ρ)
    (state : State ι σ ρ) (client : ι) (input : τ) :
    State ι σ ρ → Option (Commit ι σ ρ) → Prop where
  | commits {left : Nat} {before value : σ} {answer : ρ}
      (pending : state.clients client =
        .replacing left state.version value answer)
      (stored : state.cell = some before) :
      protocol.Access state client input
        ((state.put value).move client (.done answer))
        (some ⟨client, before, value, answer⟩)
  | inserts {left : Nat} {value : σ}
      (holding : state.clients client = .inserting left value)
      (empty : state.cell = none) :
      protocol.Access state client input
        ((state.put value).move client (protocol.retry left)) none
  | reads {left : Nat} (ready : state.clients client = .ready left) :
      protocol.Access state client input
        (state.move client (protocol.read state client input left)) none
  | retries {left : Nat}
      (working : ∀ answer, state.clients client ≠ .done answer) :
      protocol.Access state client input
        (state.move client (protocol.retry left)) none
  | rests {answer : ρ} (finished : state.clients client = .done answer) :
      protocol.Access state client input state none

theorem Protocol.Valid.access
    {protocol : Protocol ι τ σ ρ} {state : State ι σ ρ}
    (valid : protocol.Valid state) (event : ι × τ) :
    protocol.Access state event.1 event.2 (protocol.step state event)
      (state.commit? event.1) := by
  unfold Protocol.step State.commit?
  cases position : state.clients event.1 with
  | ready left =>
      exact .reads position
  | inserting left value =>
      have working : ∀ answer, state.clients event.1 ≠ .done answer := by
        intro answer finished
        rw [position] at finished
        cases finished
      cases stored : state.cell with
      | none =>
          exact .inserts position stored
      | some before =>
          exact .retries working
  | replacing left version value answer =>
      dsimp only
      by_cases current : version = state.version
      · subst current
        obtain ⟨before, _, stored, _⟩ :=
          (valid.pending _ _ _ _ _ position).2 rfl
        rw [if_pos rfl, stored]
        dsimp only
        rw [if_pos rfl]
        exact .commits position stored
      · have working :
            ∀ other, state.clients event.1 ≠ .done other := by
          intro other finished
          rw [position] at finished
          cases finished
        rw [if_neg current]
        cases state.cell with
        | none =>
            exact .retries working
        | some before =>
            dsimp only
            rw [if_neg current]
            exact .retries working
  | done answer =>
      exact .rests position

@[simp]
theorem State.clients_move_self
    (state : State ι σ ρ) (client : ι) (next : Client σ ρ) :
    (state.move client next).clients client = next :=
  Function.update_self _ _ _

theorem State.clients_move_other
    (state : State ι σ ρ) {client other : ι} (next : Client σ ρ)
    (different : other ≠ client) :
    (state.move client next).clients other = state.clients other :=
  Function.update_of_ne different _ _

/-- A client that moves on keeps the state valid if what it holds is. -/
theorem Protocol.Valid.move
    {protocol : Protocol ι τ σ ρ} {state : State ι σ ρ}
    (valid : protocol.Valid state) (client : ι) {next : Client σ ρ}
    (pending : ∀ left version value answer,
      next = .replacing left version value answer →
        version ≤ state.version ∧
          (version = state.version →
            ∃ before input, state.cell = some before ∧
              protocol.attempt client input before =
                .replace value answer))
    (skeletons : ∀ left value, next = .inserting left value →
      ∃ input, value = protocol.skeleton input) :
    protocol.Valid (state.move client next) := by
  constructor
  · intro other left version value answer position
    by_cases same : other = client
    · subst same
      rw [State.clients_move_self] at position
      exact pending left version value answer position
    · rw [State.clients_move_other _ _ same] at position
      exact valid.pending other left version value answer position
  · intro other left value position
    by_cases same : other = client
    · subst same
      rw [State.clients_move_self] at position
      exact skeletons left value position
    · rw [State.clients_move_other _ _ same] at position
      exact valid.skeletons other left value position

omit [DecidableEq ι] in
/-- After a write nobody's version is the present one. -/
theorem Protocol.Valid.put
    {protocol : Protocol ι τ σ ρ} {state : State ι σ ρ}
    (valid : protocol.Valid state) (value : σ) :
    protocol.Valid (state.put value) := by
  constructor
  · intro client left version held answer position
    have old := (valid.pending client left version held answer position).1
    change version ≤ state.version + 1 ∧ (version = state.version + 1 → _)
    refine ⟨by omega, ?_⟩
    intro current
    omega
  · exact valid.skeletons

omit [DecidableEq ι] in
theorem Protocol.retry_ne_replacing
    (protocol : Protocol ι τ σ ρ) (left : Nat)
    {other version : Nat} {value : σ} {answer : ρ} :
    protocol.retry left ≠ .replacing other version value answer := by
  cases left with
  | zero => simp [Protocol.retry]
  | succ left => simp [Protocol.retry]

omit [DecidableEq ι] in
theorem Protocol.retry_ne_inserting
    (protocol : Protocol ι τ σ ρ) (left : Nat)
    {other : Nat} {value : σ} :
    protocol.retry left ≠ .inserting other value := by
  cases left with
  | zero => simp [Protocol.retry]
  | succ left => simp [Protocol.retry]

omit [DecidableEq ι] in
theorem Protocol.read_replacing
    (protocol : Protocol ι τ σ ρ) {state : State ι σ ρ} {client : ι}
    {input : τ} {left other version : Nat} {value : σ} {answer : ρ}
    (holds :
      protocol.read state client input left =
        .replacing other version value answer) :
    version ≤ state.version ∧
      (version = state.version →
        ∃ before input, state.cell = some before ∧
          protocol.attempt client input before =
            .replace value answer) := by
  unfold Protocol.read at holds
  cases stored : state.cell with
  | none =>
      rw [stored] at holds
      cases holds
  | some before =>
      rw [stored] at holds
      dsimp only at holds
      split at holds
      · cases holds
      · rename_i decided
        cases holds
        exact ⟨Nat.le_refl _, fun _ => ⟨before, input, rfl, decided⟩⟩

omit [DecidableEq ι] in
theorem Protocol.read_inserting
    (protocol : Protocol ι τ σ ρ) {state : State ι σ ρ} {client : ι}
    {input : τ} {left other : Nat} {value : σ}
    (holds :
      protocol.read state client input left = .inserting other value) :
    value = protocol.skeleton input := by
  unfold Protocol.read at holds
  split at holds
  · cases holds
    rfl
  · split at holds
    · cases holds
    · cases holds

theorem Protocol.Valid.step
    {protocol : Protocol ι τ σ ρ} {state : State ι σ ρ}
    (valid : protocol.Valid state) (event : ι × τ) :
    protocol.Valid (protocol.step state event) := by
  have access := valid.access event
  generalize protocol.step state event = next at access ⊢
  generalize state.commit? event.1 = made at access
  cases access with
  | commits pending stored =>
      apply (valid.put _).move
      · intro _ _ _ _ impossible
        cases impossible
      · intro _ _ impossible
        cases impossible
  | inserts holding empty =>
      apply (valid.put _).move
      · intro _ _ _ _ impossible
        exact absurd impossible (protocol.retry_ne_replacing _)
      · intro _ _ impossible
        exact absurd impossible (protocol.retry_ne_inserting _)
  | reads ready =>
      apply valid.move
      · intro left version value answer holds
        exact protocol.read_replacing holds
      · intro left value holds
        exact ⟨event.2, protocol.read_inserting holds⟩
  | retries working =>
      apply valid.move
      · intro _ _ _ _ impossible
        exact absurd impossible (protocol.retry_ne_replacing _)
      · intro _ _ impossible
        exact absurd impossible (protocol.retry_ne_inserting _)
  | rests finished =>
      exact valid

/-! ## Answers and replacements -/

section Answers

/-- The answers of `wrote` are given for replacements and for nothing else. -/
structure Protocol.Separates (protocol : Protocol ι τ σ ρ)
    (wrote : ρ → Prop) : Prop where
  finish : ∀ {client input seen answer},
    protocol.attempt client input seen = .finish answer → ¬ wrote answer
  replace : ∀ {client input seen value answer},
    protocol.attempt client input seen = .replace value answer →
      wrote answer
  exhausted : ¬ wrote protocol.exhausted

/-- Each replacement was decided on the value that it replaced, and a client
has replaced the cell, once, exactly if its answer tells so. -/
structure Protocol.Accounted (protocol : Protocol ι τ σ ρ)
    (wrote : ρ → Prop) (state : State ι σ ρ)
    (log : List (Commit ι σ ρ)) : Prop where
  valid : protocol.Valid state
  distinct : (log.map Commit.client).Nodup
  answered : ∀ commit ∈ log,
    state.clients commit.client = .done commit.answer
  decided : ∀ commit ∈ log, ∃ input,
    protocol.attempt commit.client input commit.before =
      .replace commit.after commit.answer
  complete : ∀ client answer, state.clients client = .done answer →
    wrote answer → ∃ commit ∈ log, commit.client = client

omit [DecidableEq ι] in
theorem Protocol.read_done
    {protocol : Protocol ι τ σ ρ} {wrote : ρ → Prop}
    (separates : protocol.Separates wrote)
    {state : State ι σ ρ} {client : ι} {input : τ} {left : Nat}
    {answer : ρ}
    (finished : protocol.read state client input left = .done answer) :
    ¬ wrote answer := by
  unfold Protocol.read at finished
  split at finished
  · cases finished
  · split at finished
    · rename_i decided
      cases finished
      exact separates.finish decided
    · cases finished

omit [DecidableEq ι] in
theorem Protocol.retry_done
    {protocol : Protocol ι τ σ ρ} {wrote : ρ → Prop}
    (separates : protocol.Separates wrote) {left : Nat} {answer : ρ}
    (finished : protocol.retry left = .done answer) : ¬ wrote answer := by
  cases left with
  | zero =>
      cases finished
      exact separates.exhausted
  | succ left =>
      cases finished

/-- A client that is not done and does not replace the cell moves on without
an answer that tells it did. -/
theorem Protocol.Accounted.move
    {protocol : Protocol ι τ σ ρ} {wrote : ρ → Prop}
    {state next : State ι σ ρ} {log : List (Commit ι σ ρ)}
    (accounted : protocol.Accounted wrote state log)
    {client : ι} {position : Client σ ρ}
    (valid : protocol.Valid next)
    (moved :
      next.clients = Function.update state.clients client position)
    (working : ∀ answer, state.clients client ≠ .done answer)
    (unwritten : ∀ answer, position = .done answer → ¬ wrote answer) :
    protocol.Accounted wrote next log := by
  have others : ∀ commit ∈ log, commit.client ≠ client := by
    rintro commit member rfl
    exact working _ (accounted.answered commit member)
  refine
    { valid := valid
      distinct := accounted.distinct
      answered := ?_
      decided := accounted.decided
      complete := ?_ }
  · intro commit member
    rw [moved, Function.update_of_ne (others commit member)]
    exact accounted.answered commit member
  · intro other answer finished written
    rw [moved] at finished
    by_cases same : other = client
    · rw [same, Function.update_self] at finished
      exact absurd written (unwritten answer finished)
    · rw [Function.update_of_ne same] at finished
      exact accounted.complete other answer finished written

theorem Protocol.Accounted.step
    {protocol : Protocol ι τ σ ρ} {wrote : ρ → Prop}
    (separates : protocol.Separates wrote)
    {state : State ι σ ρ} {log : List (Commit ι σ ρ)}
    (accounted : protocol.Accounted wrote state log) (event : ι × τ) :
    protocol.Accounted wrote (protocol.step state event)
      (log ++ (state.commit? event.1).toList) := by
  have valid := accounted.valid.step event
  have access := accounted.valid.access event
  generalize protocol.step state event = next at access valid ⊢
  generalize state.commit? event.1 = made at access ⊢
  cases access with
  | @commits left before value answer pending stored =>
      have others : ∀ commit ∈ log, commit.client ≠ event.1 := by
        intro commit member same
        have finished := accounted.answered commit member
        rw [same, pending] at finished
        cases finished
      obtain ⟨seen, input, present, decided⟩ :=
        (accounted.valid.pending _ _ _ _ _ pending).2 rfl
      rw [stored] at present
      cases present
      refine
        { valid := valid
          distinct := ?_
          answered := ?_
          decided := ?_
          complete := ?_ }
      · rw [Option.toList_some, List.map_append]
        refine List.nodup_append.mpr
          ⟨accounted.distinct, by simp, ?_⟩
        intro client among other last
        obtain ⟨commit, member, rfl⟩ := List.mem_map.mp among
        rw [List.map_singleton, List.mem_singleton] at last
        rw [last]
        exact others commit member
      · intro commit member
        rcases List.mem_append.mp member with old | new
        · rw [State.clients_move_other _ _ (others commit old)]
          exact accounted.answered commit old
        · rw [Option.toList_some, List.mem_singleton] at new
          subst new
          exact State.clients_move_self _ _ _
      · intro commit member
        rcases List.mem_append.mp member with old | new
        · exact accounted.decided commit old
        · rw [Option.toList_some, List.mem_singleton] at new
          subst new
          exact ⟨input, decided⟩
      · intro client given finished written
        by_cases same : client = event.1
        · exact ⟨⟨event.1, before, value, answer⟩, by simp, same.symm⟩
        · rw [State.clients_move_other _ _ same] at finished
          obtain ⟨commit, member, named⟩ :=
            accounted.complete client given finished written
          exact ⟨commit, List.mem_append_left _ member, named⟩
  | inserts holding empty =>
      rw [Option.toList_none, List.append_nil]
      apply accounted.move valid rfl
      · intro answer finished
        rw [holding] at finished
        cases finished
      · intro answer finished
        exact Protocol.retry_done separates finished
  | reads ready =>
      rw [Option.toList_none, List.append_nil]
      apply accounted.move valid rfl
      · intro answer finished
        rw [ready] at finished
        cases finished
      · intro answer finished
        exact Protocol.read_done separates finished
  | retries working =>
      rw [Option.toList_none, List.append_nil]
      apply accounted.move valid rfl working
      intro answer finished
      exact Protocol.retry_done separates finished
  | rests finished =>
      rw [Option.toList_none, List.append_nil]
      exact accounted

end Answers

section Chain

variable {ω : Type y} (observe : Option σ → ω)

/-- Each replacement starts from what the one before it left, as far as it can
be observed. -/
def Chained : ω → List (Commit ι σ ρ) → ω → Prop
  | start, [], final => final = start
  | start, commit :: rest, final =>
      observe (some commit.before) = start ∧
        Chained (observe (some commit.after)) rest final

omit [DecidableEq ι] in
theorem chained_append
    {start final : ω} {first second : List (Commit ι σ ρ)} :
    Chained observe start (first ++ second) final ↔
      ∃ middle, Chained observe start first middle ∧
        Chained observe middle second final := by
  induction first generalizing start with
  | nil =>
      simp [Chained]
  | cons commit rest inductionHypothesis =>
      simp only [List.cons_append, Chained, inductionHypothesis]
      constructor
      · rintro ⟨here, middle, front, back⟩
        exact ⟨middle, ⟨here, front⟩, back⟩
      · rintro ⟨middle, ⟨here, front⟩, back⟩
        exact ⟨here, middle, front, back⟩

/-- An access without a replacement leaves the cell alone, except that it may
put a skeleton into the empty cell. -/
theorem Protocol.Valid.cell_step
    {protocol : Protocol ι τ σ ρ} {state : State ι σ ρ}
    (valid : protocol.Valid state) (event : ι × τ)
    (unwritten : state.commit? event.1 = none) :
    (protocol.step state event).cell = state.cell ∨
      state.cell = none ∧ ∃ input,
        (protocol.step state event).cell =
          some (protocol.skeleton input) := by
  have access := valid.access event
  rw [unwritten] at access
  generalize protocol.step state event = next at access ⊢
  cases access with
  | inserts holding empty =>
      obtain ⟨input, rfl⟩ := valid.skeletons _ _ _ holding
      exact Or.inr ⟨empty, input, rfl⟩
  | reads ready =>
      exact Or.inl rfl
  | retries working =>
      exact Or.inl rfl
  | rests finished =>
      exact Or.inl rfl

variable {observe}

theorem Protocol.Valid.chained_step
    {protocol : Protocol ι τ σ ρ} {state : State ι σ ρ}
    (blank : ∀ input,
      observe (some (protocol.skeleton input)) = observe none)
    (valid : protocol.Valid state) (event : ι × τ) :
    Chained observe (observe state.cell)
      (state.commit? event.1).toList
      (observe (protocol.step state event).cell) := by
  cases made : state.commit? event.1 with
  | none =>
      rcases valid.cell_step event made with same | ⟨empty, input, inserted⟩
      · exact congrArg observe same
      · rw [Option.toList_none, Chained, inserted, empty]
        exact blank input
  | some commit =>
      have access := valid.access event
      rw [made] at access
      generalize protocol.step state event = next at access ⊢
      cases access with
      | commits pending stored =>
          exact ⟨congrArg observe stored.symm, rfl⟩

/-- The replacements of a run lead from the first content of the cell to the
last. -/
theorem Protocol.Valid.chained_commits
    {protocol : Protocol ι τ σ ρ} {state : State ι σ ρ}
    (blank : ∀ input,
      observe (some (protocol.skeleton input)) = observe none)
    (valid : protocol.Valid state) (events : List (ι × τ)) :
    Chained observe (observe state.cell)
      (protocol.commits state events)
      (observe (run protocol.step state events).cell) := by
  induction events generalizing state with
  | nil =>
      rfl
  | cons event events inductionHypothesis =>
      rw [Protocol.commits, run_cons, chained_append]
      exact
        ⟨_, valid.chained_step blank event,
          inductionHypothesis (valid.step event)⟩

end Chain

/-! ## Runs from the start -/

/-- Nobody has accessed the cell yet; each client makes up to `attempts`
attempts. -/
def State.start (attempts : Nat) (cell : Option σ) : State ι σ ρ where
  version := 0
  cell := cell
  clients := fun _ => .ready (attempts - 1)

omit [DecidableEq ι] in
theorem Protocol.valid_start
    (protocol : Protocol ι τ σ ρ) (attempts : Nat) (cell : Option σ) :
    protocol.Valid (State.start attempts cell) := by
  constructor
  · intro client left version value answer position
    cases position
  · intro client left value position
    cases position

theorem Protocol.accounted_run
    {protocol : Protocol ι τ σ ρ} {wrote : ρ → Prop}
    (separates : protocol.Separates wrote)
    (attempts : Nat) (cell : Option σ) (events : List (ι × τ)) :
    protocol.Accounted wrote
      (run protocol.step (State.start attempts cell) events)
      (protocol.commits (State.start attempts cell) events) := by
  apply protocol.commits_invariant
  · intro state log event accounted
    exact accounted.step separates event
  · refine
      { valid := protocol.valid_start attempts cell
        distinct := List.nodup_nil
        answered := by simp
        decided := by simp
        complete := ?_ }
    intro client answer position
    cases position

/-- What a client does that nobody disturbs. -/
def Protocol.alone (protocol : Protocol ι τ σ ρ)
    (client : ι) (input : τ) (cell : Option σ) : σ × ρ :=
  let present := cell.getD (protocol.skeleton input)
  match protocol.attempt client input present with
  | .finish answer => (present, answer)
  | .replace value answer => (value, answer)

/-- Two attempts are enough for an undisturbed client: one that may insert the
skeleton and one that decides. -/
theorem Protocol.run_alone
    (protocol : Protocol ι τ σ ρ) (client : ι) (input : τ)
    (attempts : Nat) (cell : Option σ) :
    let final :=
      run protocol.step (State.start (attempts + 2) cell)
        (List.replicate 4 (client, input))
    final.cell = some (protocol.alone client input cell).1 ∧
      final.clients client =
        .done (protocol.alone client input cell).2 := by
  cases cell with
  | none =>
      cases decided :
          protocol.attempt client input (protocol.skeleton input) with
      | finish answer =>
          simp [List.replicate, Protocol.step, State.start,
            Protocol.read, Protocol.retry, Protocol.alone, State.move,
            State.put, decided]
      | replace value answer =>
          simp [List.replicate, Protocol.step, State.start,
            Protocol.read, Protocol.retry, Protocol.alone, State.move,
            State.put, decided]
  | some present =>
      cases decided : protocol.attempt client input present with
      | finish answer =>
          simp [List.replicate, Protocol.step, State.start,
            Protocol.read, Protocol.alone, State.move, decided]
      | replace value answer =>
          simp [List.replicate, Protocol.step, State.start,
            Protocol.read, Protocol.alone, State.move, State.put,
            decided]

/-- The replacement of an access of the run is in the chain of the run. -/
theorem Protocol.mem_commits
    (protocol : Protocol ι τ σ ρ)
    {state : State ι σ ρ} (before : List (ι × τ)) (event : ι × τ)
    (after : List (ι × τ)) {commit : Commit ι σ ρ}
    (made :
      (run protocol.step state before).commit? event.1 = some commit) :
    commit ∈ protocol.commits state (before ++ event :: after) := by
  induction before generalizing state with
  | nil =>
      rw [List.nil_append, Protocol.commits]
      rw [run_nil] at made
      simp [made]
  | cons first rest inductionHypothesis =>
      rw [List.cons_append, Protocol.commits]
      exact List.mem_append_right _ (inductionHypothesis made)

omit [DecidableEq ι] in
theorem State.commit?_client
    {state : State ι σ ρ} {client : ι} {commit : Commit ι σ ρ}
    (made : state.commit? client = some commit) :
    commit.client = client := by
  unfold State.commit? at made
  split at made
  · split at made
    · cases made
      rfl
    · cases made
  · cases made

end Agentcy.Library.VersionedCell
