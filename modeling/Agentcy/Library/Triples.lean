import Mathlib.Logic.Basic

/-!
# Sets of triples

Statements about nodes, each made of a subject, a property and an object.  A
reading follows a link from a subject and takes the names of the node that it
leads to.  Nodes that are made from names by a lossy rule may share names.
-/

namespace Agentcy.Library

universe u v w

structure Triple (ν : Type u) (π : Type v) where
  subject : ν
  property : π
  object : ν
  deriving DecidableEq

section Reading

variable {ν : Type u} {π : Type v} {α : Type w}

/-- A node linked to the subject has the given name. -/
def Reads
    (graph : List (Triple ν π)) (link name : π) (subject text : ν) : Prop :=
  ∃ node, ⟨subject, link, node⟩ ∈ graph ∧ ⟨node, name, text⟩ ∈ graph

/-- The links of a subject are those to the nodes of its items. -/
def LinksTo
    (graph : List (Triple ν π)) (link : π) (subject : ν)
    (naming : α → ν) (owned : α → Prop) : Prop :=
  ∀ node, ⟨subject, link, node⟩ ∈ graph ↔
    ∃ item, owned item ∧ node = naming item

/-- The names of the nodes are those of the labelled items. -/
def NamesOf
    (graph : List (Triple ν π)) (name : π) (naming text : α → ν)
    (labelled : α → Prop) : Prop :=
  ∀ item literal, ⟨naming item, name, literal⟩ ∈ graph ↔
    ∃ other, labelled other ∧ naming other = naming item ∧
      literal = text other

variable {graph : List (Triple ν π)} {link name : π} {subject : ν}
variable {naming text : α → ν} {owned labelled : α → Prop}

theorem reads_iff
    (links : LinksTo graph link subject naming owned)
    (names : NamesOf graph name naming text labelled) (literal : ν) :
    Reads graph link name subject literal ↔
      ∃ item other, owned item ∧ labelled other ∧
        naming other = naming item ∧ literal = text other := by
  constructor
  · intro reads
    obtain ⟨node, linked, named⟩ := reads
    obtain ⟨item, isOwned, rfl⟩ := (links node).mp linked
    obtain ⟨other, isLabelled, shared, isText⟩ :=
      (names item literal).mp named
    exact ⟨item, other, isOwned, isLabelled, shared, isText⟩
  · intro shared
    obtain ⟨item, other, isOwned, isLabelled, same, isText⟩ := shared
    exact
      ⟨naming item, (links _).mpr ⟨item, isOwned, rfl⟩,
        (names item literal).mpr ⟨other, isLabelled, same, isText⟩⟩

/-- The items are read back exactly as far as no labelled item outside shares
a node with one of them. -/
theorem reads_exactly_iff
    (links : LinksTo graph link subject naming owned)
    (names : NamesOf graph name naming text labelled)
    (apart : Function.Injective text)
    (known : ∀ item, owned item → labelled item) :
    (∀ item, Reads graph link name subject (text item) ↔ owned item) ↔
      ∀ item other, owned item → labelled other →
        naming other = naming item → owned other := by
  constructor
  · intro reads item other isOwned isLabelled shared
    exact (reads other).mp
      ((reads_iff links names _).mpr
        ⟨item, other, isOwned, isLabelled, shared, rfl⟩)
  · intro separate item
    rw [reads_iff links names]
    constructor
    · intro shared
      obtain ⟨first, other, isOwned, isLabelled, same, isText⟩ := shared
      rw [apart isText]
      exact separate first other isOwned isLabelled same
    · intro isOwned
      exact ⟨item, item, isOwned, known item isOwned, rfl, rfl⟩

end Reading

end Agentcy.Library
