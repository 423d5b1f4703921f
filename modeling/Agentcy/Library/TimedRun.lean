import Mathlib.Algebra.Order.Group.Defs
import Mathlib.Tactic.Abel
import Agentcy.Library.Run

/-!
# Runs under a clock

The inputs of a run carry times that never decrease.  An invariant may speak
of the time up to which it holds.  A lease is a right that time takes away: a
member of a group is taken to be alive as long as its lease has not run out
and has been renewed recently.
-/

namespace Agentcy.Library

universe u v w

section Invariants

variable {σ : Type u} {ε : Type v} {τ : Type w} [Preorder τ]

/-- Whenever a clock runs, there is a time before all that it shows. -/
theorem exists_start
    {times : List τ} {now : τ}
    (ordered : (times ++ [now]).Pairwise (· ≤ ·)) :
    ∃ start, (start :: (times ++ [now])).Pairwise (· ≤ ·) := by
  cases times with
  | nil => exact ⟨now, List.pairwise_pair.mpr le_rfl⟩
  | cons first rest =>
      refine ⟨first, List.pairwise_cons.mpr ⟨?_, ordered⟩⟩
      intro time member
      rcases List.mem_cons.mp member with rfl | later
      · exact le_rfl
      · exact (List.pairwise_cons.mp ordered).1 time later

theorem timed_invariant_from
    {step : σ → ε → σ} {time : ε → τ} (Inv : τ → σ → Prop)
    (keeps : ∀ now state event,
      Inv now state → now ≤ time event →
        Inv (time event) (step state event))
    (waits : ∀ now later state, Inv now state → now ≤ later →
      Inv later state)
    {state : σ} {events : List ε} {start now : τ}
    (initial : Inv start state)
    (ordered :
      (start :: (events.map time ++ [now])).Pairwise (· ≤ ·)) :
    Inv now (run step state events) := by
  induction events generalizing state start with
  | nil =>
      exact waits start now state initial (List.pairwise_pair.mp ordered)
  | cons event rest inductionHypothesis =>
      obtain ⟨first, later⟩ := List.pairwise_cons.mp ordered
      have passes : start ≤ time event := first _ List.mem_cons_self
      exact inductionHypothesis (keeps start state event initial passes)
        later

/-- An invariant that holds at the beginning, whatever the time, holds after
every run. -/
theorem timed_invariant
    {step : σ → ε → σ} {time : ε → τ} (Inv : τ → σ → Prop)
    (keeps : ∀ now state event,
      Inv now state → now ≤ time event →
        Inv (time event) (step state event))
    (waits : ∀ now later state, Inv now state → now ≤ later →
      Inv later state)
    {state : σ} {events : List ε} {now : τ}
    (initial : ∀ start, Inv start state)
    (ordered : (events.map time ++ [now]).Pairwise (· ≤ ·)) :
    Inv now (run step state events) := by
  obtain ⟨start, isStart⟩ := exists_start ordered
  exact timed_invariant_from Inv keeps waits (initial start) isStart

end Invariants

structure Lease (τ : Type w) where
  renewed : τ
  expires : Option τ

namespace Lease

variable {τ : Type w} [AddCommGroup τ] [LinearOrder τ]
  [IsOrderedAddMonoid τ]

/-- The lease lasts, and no more time than the patience has passed since it
was renewed. -/
def AliveAt (patience : Option τ) (lease : Lease τ) (now : τ) : Prop :=
  (∀ limit ∈ lease.expires, now < limit) ∧
    ∀ span ∈ patience, now - lease.renewed < span

instance (patience : Option τ) (lease : Lease τ) (now : τ) :
    Decidable (AliveAt patience lease now) :=
  inferInstanceAs (Decidable (_ ∧ _))

variable {patience : Option τ} {lease : Lease τ} {now : τ}

/-- A lease that nobody has renewed since some time is gone once the patience
is over. -/
theorem not_aliveAt_of_patience
    {span silence : τ} (isSpan : patience = some span)
    (silent : lease.renewed ≤ silence) (later : silence + span ≤ now) :
    ¬ lease.AliveAt patience now := by
  intro alive
  have recent := alive.2 span isSpan
  rw [sub_lt_iff_lt_add'] at recent
  exact absurd (later.trans_lt recent)
    (not_lt.mpr (add_le_add_left silent span))

/-- A lease that lasts as long as a term, and a patience that is no shorter,
keep a member alive for the term. -/
theorem aliveAt_of_term
    {term : τ} (lasts : ∀ limit ∈ lease.expires, lease.renewed + term ≤ limit)
    (patient : ∀ span ∈ patience, term ≤ span)
    (within : now < lease.renewed + term) : lease.AliveAt patience now := by
  refine ⟨?_, ?_⟩
  · intro limit isLimit
    exact within.trans_le (lasts limit isLimit)
  · intro span isSpan
    rw [sub_lt_iff_lt_add']
    exact within.trans_le (add_le_add_right (patient span isSpan) _)

end Lease

end Agentcy.Library
