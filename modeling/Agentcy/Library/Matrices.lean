import Mathlib.Data.Fin.Tuple.Basic
import Mathlib.LinearAlgebra.Matrix.PosDef

/-!
# Accumulated outer products

A sum of products of vectors with themselves is positive semidefinite, so that
added to the identity it is positive definite.  A matrix written out row by row
is read back from the list of its entries.
-/

namespace Agentcy.Library

open Matrix

section OuterProducts

variable {n K : Type*} [Field K]

def outerSum (vectors : List (n → K)) : Matrix n n K :=
  (vectors.map fun vector => vecMulVec vector vector).sum

theorem outerSum_perm
    {first second : List (n → K)} (permuted : first.Perm second) :
    outerSum first = outerSum second :=
  (permuted.map _).sum_eq

variable [PartialOrder K] [StarRing K] [Finite n] [TrivialStar K]
  [StarOrderedRing K]

theorem outerSum_posSemidef (vectors : List (n → K)) :
    (outerSum vectors).PosSemidef := by
  induction vectors with
  | nil =>
      exact PosSemidef.zero
  | cons vector rest inductionHypothesis =>
      have here := posSemidef_vecMulVec_self_star vector
      rw [star_trivial] at here
      exact here.add inductionHypothesis

theorem one_add_outerSum_posDef
    [DecidableEq n] (vectors : List (n → K)) :
    (1 + outerSum vectors).PosDef :=
  PosDef.one.add_posSemidef (outerSum_posSemidef vectors)

end OuterProducts

section Flat

variable {α : Type*} {d : Nat}

/-- The entries row by row. -/
def flatten (matrix : Matrix (Fin d) (Fin d) α) : List α :=
  List.ofFn fun index : Fin (d * d) => matrix index.divNat index.modNat

def reshape (d : Nat) (default : α) (entries : List α) :
    Matrix (Fin d) (Fin d) α :=
  fun row column => entries.getD (row * d + column) default

theorem length_flatten (matrix : Matrix (Fin d) (Fin d) α) :
    (flatten matrix).length = d * d :=
  List.length_ofFn

theorem reshape_flatten
    (default : α) (matrix : Matrix (Fin d) (Fin d) α) :
    reshape d default (flatten matrix) = matrix := by
  funext row column
  have inRange : row * d + column < d * d :=
    calc
      row * d + column < row * d + d := by omega
      _ = (row + 1) * d := (Nat.succ_mul _ _).symm
      _ ≤ d * d := Nat.mul_le_mul_right d row.isLt
  have ofRow : (row * d + column) / d = row := by
    rw [Nat.add_comm, Nat.add_mul_div_right _ _ column.pos,
      Nat.div_eq_of_lt column.isLt, Nat.zero_add]
  have ofColumn : (row * d + column) % d = column := by
    rw [Nat.add_comm, Nat.add_mul_mod_self_right,
      Nat.mod_eq_of_lt column.isLt]
  simp [reshape, flatten, List.getD_eq_getElem?_getD, inRange, Fin.divNat,
    Fin.modNat, ofRow, ofColumn]

/-- A vector is read back from the list of its entries. -/
theorem getD_ofFn (default : α) (vector : Fin d → α) :
    (fun index : Fin d => (List.ofFn vector).getD index default) =
      vector := by
  funext index
  simp [List.getD_eq_getElem?_getD]

end Flat

end Agentcy.Library
