import Mathlib.Order.Basic
import Agentcy.Library.Run

/-!
# Reconciling resources with stored documents

Documents are stored under keys, and each asks for resources of some kinds.
What is stored becomes true later: the key is on its way to a worker, who
provides what the document under it asks for then.  The worker may be
interrupted, also between taking a resource away and providing it anew, and
comes back to the key.  Several documents may ask for one resource.
-/

namespace Agentcy.Library

universe u v w x

variable {κ : Type u} {δ : Type v} {ρ : Type w} {τ : Type x}

/-- The stored documents, the keys on their way to the worker, those that
have reached it, and the resources there are. -/
structure Reconciliation
    (κ : Type u) (δ : Type v) (ρ : Type w) (τ : Type x) where
  stored : κ → Option δ
  underway : κ → Prop
  due : κ → Prop
  provided : ρ → Option τ

namespace Reconciliation

variable (asks : δ → ρ → τ → Prop)

/-- The documents stored now do not ask for one resource in two kinds. -/
def Agree (state : Reconciliation κ δ ρ τ) : Prop :=
  ∀ first second document other,
    state.stored first = some document →
      state.stored second = some other →
        ∀ resource kind kind', asks document resource kind →
          asks other resource kind' → kind = kind'

/-- The resource is there in this kind, or the worker has taken it away and
has a key to come back to whose document asks for it. -/
def Secured
    (state : Reconciliation κ δ ρ τ) (resource : ρ) (kind : τ) : Prop :=
  state.provided resource = some kind ∨
    state.provided resource = none ∧
      ∃ key document kind', state.due key ∧
        state.stored key = some document ∧ asks document resource kind'

/-- What is stored under the key is on its way, or everything it asks for is
secured. -/
def Reconciled (state : Reconciliation κ δ ρ τ) (key : κ) : Prop :=
  ∀ document, state.stored key = some document →
    state.underway key ∨
      ∀ resource kind, asks document resource kind →
        state.Secured asks resource kind

/-- What may happen, as far as one key is concerned. -/
inductive Move
    (key : κ) (before after : Reconciliation κ δ ρ τ) : Prop where
  /-- Documents change, but not those that the worker comes back to; a key
  with a new document is on its way. -/
  | change
      (settled : ∀ other, before.due other →
        after.stored other = before.stored other)
      (written : after.stored key = before.stored key ∨
        after.stored key = none ∨ after.underway key)
      (underway : before.underway key → after.underway key)
      (due : ∀ other, before.due other → after.due other)
      (provided : after.provided = before.provided)
  /-- The worker finds nothing under a key, and is done with it. -/
  | skip (attended : κ)
      (missing : before.stored attended = none)
      (stored : after.stored = before.stored)
      (underway : attended ≠ key → before.underway key →
        after.underway key)
      (due : ∀ other, other ≠ attended → before.due other →
        after.due other)
      (provided : after.provided = before.provided)
  /-- The worker provides all that the document under a key asks for, and is
  done with the key. -/
  | attend (attended : κ) (document : δ)
      (isStored : before.stored attended = some document)
      (stored : after.stored = before.stored)
      (underway : attended ≠ key → before.underway key →
        after.underway key)
      (due : ∀ other, other ≠ attended → before.due other →
        after.due other)
      (given : ∀ resource kind, asks document resource kind →
        after.provided resource = some kind)
      (others : ∀ resource, (∀ kind, ¬ asks document resource kind) →
        after.provided resource = before.provided resource)
  /-- The worker is interrupted, and will come back to the key. -/
  | interrupt (attended : κ) (document : δ)
      (isStored : before.stored attended = some document)
      (stored : after.stored = before.stored)
      (underway : before.underway key → after.underway key)
      (due : ∀ other, before.due other → after.due other)
      (comesBack : after.due attended)
      (touched : ∀ resource,
        after.provided resource = before.provided resource ∨
          ∃ kind, asks document resource kind ∧
            (after.provided resource = some kind ∨
              after.provided resource = none))

variable {asks}

section Moves

variable {before after : Reconciliation κ δ ρ τ} {resource : ρ} {kind : τ}

/-- What is secured stays so where the resource stays, and every key with a
document that the worker comes back to. -/
theorem Secured.mono
    (returns : ∀ other document, before.due other →
      before.stored other = some document →
        after.due other ∧ after.stored other = some document)
    (provided : after.provided resource = before.provided resource)
    (secured : before.Secured asks resource kind) :
    after.Secured asks resource kind := by
  rcases secured with
    here | ⟨missing, other, asker, asked, isDue, held, asksIt⟩
  · exact Or.inl (provided.trans here)
  · obtain ⟨stillDue, stillHeld⟩ := returns other asker isDue held
    exact
      Or.inr
        ⟨provided.trans missing, other, asker, asked, stillDue, stillHeld,
          asksIt⟩

/-- A document that agrees with the attended one stays secured. -/
theorem Secured.of_attend
    {attended : κ} {document : δ}
    (isStored : before.stored attended = some document)
    (stored : after.stored = before.stored)
    (due : ∀ other, other ≠ attended → before.due other →
      after.due other)
    (given : ∀ resource kind, asks document resource kind →
      after.provided resource = some kind)
    (others : ∀ resource, (∀ kind, ¬ asks document resource kind) →
      after.provided resource = before.provided resource)
    (agrees : ∀ kind', asks document resource kind' → kind' = kind)
    (secured : before.Secured asks resource kind) :
    after.Secured asks resource kind := by
  by_cases asked : ∃ kind', asks document resource kind'
  · obtain ⟨kind', asksIt⟩ := asked
    exact Or.inl (agrees kind' asksIt ▸ given resource kind' asksIt)
  · have unasked : ∀ kind', ¬ asks document resource kind' :=
      fun kind' asksIt => asked ⟨kind', asksIt⟩
    have same := others resource unasked
    rcases secured with
      here | ⟨missing, other, asker, kind', isDue, held, asksIt⟩
    · exact Or.inl (same.trans here)
    · have different : other ≠ attended := by
        rintro rfl
        rw [isStored] at held
        cases held
        exact unasked kind' asksIt
      exact
        Or.inr
          ⟨same.trans missing, other, asker, kind',
            due other different isDue, by rw [stored, held], asksIt⟩

theorem Secured.of_interrupt
    {attended : κ} {document : δ}
    (isStored : before.stored attended = some document)
    (stored : after.stored = before.stored)
    (due : ∀ other, before.due other → after.due other)
    (comesBack : after.due attended)
    (touched :
      after.provided resource = before.provided resource ∨
        ∃ kind', asks document resource kind' ∧
          (after.provided resource = some kind' ∨
            after.provided resource = none))
    (agrees : ∀ kind', asks document resource kind' → kind' = kind)
    (secured : before.Secured asks resource kind) :
    after.Secured asks resource kind := by
  rcases touched with same | ⟨kind', asksIt, renewed | taken⟩
  · refine secured.mono ?_ same
    intro other asker isDue held
    exact ⟨due other isDue, by rw [stored, held]⟩
  · exact Or.inl (agrees kind' asksIt ▸ renewed)
  · exact
      Or.inr
        ⟨taken, attended, document, kind', comesBack,
          by rw [stored, isStored], asksIt⟩

theorem Reconciled.move
    {key : κ} (reconciled : before.Reconciled asks key)
    (agree : before.Agree asks) (move : Move asks key before after) :
    after.Reconciled asks key := by
  intro document isStored
  cases move with
  | change settled written underway due provided =>
      rcases written with same | gone | onItsWay
      · refine
          (reconciled document (same ▸ isStored)).imp underway ?_
        intro secured resource kind asksIt
        refine
          (secured resource kind asksIt).mono ?_ (congrFun provided resource)
        intro other asker isDue held
        exact ⟨due other isDue, (settled other isDue).trans held⟩
      · rw [gone] at isStored
        cases isStored
      · exact Or.inl onItsWay
  | skip attended missing stored underway due provided =>
      have held : before.stored key = some document := stored ▸ isStored
      have different : attended ≠ key := by
        rintro rfl
        rw [missing] at held
        cases held
      refine (reconciled document held).imp (underway different) ?_
      intro secured resource kind asksIt
      refine
        (secured resource kind asksIt).mono ?_ (congrFun provided resource)
      intro other asker isDue isHeld
      have otherThan : other ≠ attended := by
        rintro rfl
        rw [missing] at isHeld
        cases isHeld
      exact ⟨due other otherThan isDue, by rw [stored, isHeld]⟩
  | attend attended given isGiven stored underway due provides others =>
      have held : before.stored key = some document := stored ▸ isStored
      by_cases same : attended = key
      · subst same
        cases isGiven.symm.trans held
        exact
          Or.inr fun resource kind asksIt =>
            Or.inl (provides resource kind asksIt)
      · refine (reconciled document held).imp (underway same) ?_
        intro secured resource kind asksIt
        refine
          (secured resource kind asksIt).of_attend isGiven stored due
            provides others ?_
        intro kind' asksOther
        exact
          agree attended key given document isGiven held resource kind'
            kind asksOther asksIt
  | interrupt attended given isGiven stored underway due comesBack touched =>
      have held : before.stored key = some document := stored ▸ isStored
      refine (reconciled document held).imp underway ?_
      intro secured resource kind asksIt
      refine
        (secured resource kind asksIt).of_interrupt isGiven stored due
          comesBack (touched resource) ?_
      intro kind' asksOther
      exact
        agree attended key given document isGiven held resource kind' kind
          asksOther asksIt

end Moves

/-! ## Whole runs -/

section Runs

universe y z

variable {σ : Type y} {ε : Type z}
variable {step : σ → ε → σ} {meets : σ → ε → Prop}

end Runs

end Reconciliation

end Agentcy.Library
