import Mathlib.Algebra.Order.Ring.Int

/-!
# What was computed from an earlier content

A cell is replaced again and again, each time by something that somebody
computed from a content read earlier.  The contents are ranked, and a
replacement names the rank of the content that it was computed from.  Counting
the replacements tells which of the readers still know the present content.
-/

namespace Agentcy.Library

universe u

/-- Something computed from the cell, with the number of replacements that
there had been when the cell was read. -/
structure Stamped (α : Type u) where
  value : α
  stamp : Nat

/-- After `count` replacements the content has rank `rank`: what the base
`base`, read after `stamp` replacements, tells about the present.  The ranks
that are `taken` have a successor of that base among them as soon as the base
is outdated. -/
structure ReadAt
    (count : Nat) (rank : Int) (taken : Int → Prop)
    (stamp : Nat) (base : Int) : Prop where
  past : stamp ≤ count
  current : stamp = count → base = rank
  outdated : stamp < count → taken (base + 1)

variable {count stamp : Nat} {rank base : Int} {taken : Int → Prop}

theorem ReadAt.now (count : Nat) (rank : Int) (taken : Int → Prop) :
    ReadAt count rank taken count rank where
  past := le_refl count
  current := fun _ => rfl
  outdated := fun later => absurd later (lt_irrefl count)

/-- The present content is replaced by what was computed from it. -/
theorem ReadAt.replaced
    (read : ReadAt count rank taken stamp base)
    (next : Int) {takenNext : Int → Prop}
    (grows : ∀ other, taken other → takenNext other)
    (takes : takenNext (rank + 1)) :
    ReadAt (count + 1) next takenNext stamp base where
  past := Nat.le_succ_of_le read.past
  current := fun same =>
    absurd read.past (same ▸ Nat.not_succ_le_self count)
  outdated := fun later => by
    rcases Nat.lt_or_eq_of_le (Nat.le_of_lt_succ later) with
      before | same
    · exact grows _ (read.outdated before)
    · rw [read.current same]
      exact takes

/-- What was read is outdated exactly when its successor is taken. -/
theorem ReadAt.stamp_eq_iff
    (read : ReadAt count rank taken stamp base)
    (free : ¬ taken (rank + 1)) :
    stamp = count ↔ ¬ taken (base + 1) := by
  constructor
  · intro same
    rw [read.current same]
    exact free
  · intro open_
    by_contra different
    exact open_
      (read.outdated (Nat.lt_of_le_of_ne read.past different))

end Agentcy.Library
