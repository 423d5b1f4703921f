import Mathlib.Data.List.Basic

/-!
# Slices of lists

A page of a list is a slice of it: some items are skipped, and of the rest so
many are taken.  To filter a slice is not to slice what the filter leaves,
unless all that it leaves lies in the slice; and the slices of one size, one
after the other, make up the list.
-/

namespace Agentcy.Library

variable {α : Type*}

/-- The items from `offset` on, and of them no more than `limit`, if there is
one. -/
def slice (offset : Nat) (limit : Option Nat) (items : List α) : List α :=
  match limit with
  | none => items.drop offset
  | some limit => (items.drop offset).take limit

@[simp]
theorem slice_nil (offset : Nat) (limit : Option Nat) :
    slice offset limit ([] : List α) = [] := by
  cases limit <;> simp [slice]

@[simp]
theorem slice_whole (items : List α) : slice 0 none items = items :=
  List.drop_zero

theorem slice_sublist
    (offset : Nat) (limit : Option Nat) (items : List α) :
    (slice offset limit items).Sublist items := by
  cases limit with
  | none =>
      exact List.drop_sublist offset items
  | some limit =>
      exact (List.take_sublist _ _).trans (List.drop_sublist offset items)

theorem length_slice_le
    (offset : Nat) (limit : Option Nat) (items : List α) :
    (slice offset limit items).length ≤ items.length - offset := by
  cases limit with
  | none =>
      simp [slice]
  | some limit =>
      simp only [slice, List.length_take, List.length_drop]
      omega

/-- A slice that skips something is as long as the list only if there is
nothing to skip. -/
theorem skips_nothing
    {offset : Nat} {limit : Option Nat} {items : List α}
    (whole : (slice offset limit items).length = items.length) :
    items = [] ∨ offset = 0 := by
  have short := length_slice_le offset limit items
  rw [whole] at short
  rcases items with _ | ⟨item, rest⟩
  · exact Or.inl rfl
  · rw [List.length_cons] at short
    exact Or.inr (by omega)

theorem filter_slice_sublist
    (keep : α → Bool) (offset : Nat) (limit : Option Nat) (items : List α) :
    ((slice offset limit items).filter keep).Sublist (items.filter keep) :=
  (slice_sublist offset limit items).filter keep

/-- Nothing that the filter keeps is lost by taking the first items exactly if
none of it comes later. -/
theorem filter_take_eq_iff (keep : α → Bool) (limit : Nat) (items : List α) :
    (items.take limit).filter keep = items.filter keep ↔
      ∀ item ∈ items.drop limit, keep item = false := by
  have split :
      items.filter keep =
        (items.take limit).filter keep ++ (items.drop limit).filter keep := by
    rw [← List.filter_append, List.take_append_drop]
  rw [split, List.self_eq_append_right, List.filter_eq_nil_iff]
  simp only [Bool.not_eq_true]

/-- The slices of one size, from the first one on. -/
def walk (size pages : Nat) (items : List α) : List α :=
  (List.range pages).flatMap fun page =>
    slice (page * size) (some size) items

theorem walk_eq_take (size pages : Nat) (items : List α) :
    walk size pages items = items.take (pages * size) := by
  induction pages with
  | zero =>
      simp [walk]
  | succ pages inductionHypothesis =>
      have last :
          walk size (pages + 1) items =
            walk size pages items ++
              (items.drop (pages * size)).take size := by
        simp [walk, List.range_succ, slice]
      rw [last, inductionHypothesis, Nat.succ_mul, List.take_add]

/-- Enough slices make up the list. -/
theorem walk_eq
    {size pages : Nat} {items : List α}
    (enough : items.length ≤ pages * size) :
    walk size pages items = items := by
  rw [walk_eq_take, List.take_of_length_le enough]

end Agentcy.Library
