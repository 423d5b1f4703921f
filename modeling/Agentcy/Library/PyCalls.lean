import Mathlib.Data.List.Count
import Mathlib.Data.List.Basic

/-!
# Calls with a fallback on `TypeError`

A Python function that is called with arguments its signature does not take
raises a `TypeError` before its body is entered.  Code that tries several
signatures in turn reads every `TypeError` like that, also the ones out of the
body.
-/

namespace Agentcy.Library

universe u v w

variable {State : Type u} {Value : Type v} {Result : Type w}

/-- Classes of exceptions.  `cancelledError` and the ones under
`baseException` are no instances of `Exception`. -/
inductive PyException where
  | typeError
  | cancelledError
  | exception (name : String)
  | baseException (name : String)
  deriving DecidableEq

def PyException.isException : PyException → Bool
  | .typeError => true
  | .cancelledError => false
  | .exception _ => true
  | .baseException _ => false

/-- A function, as a caller with positional arguments meets it. -/
structure PyFunction
    (State : Type u) (Value : Type v) (Result : Type w) where
  /-- Whether the signature takes so many arguments. -/
  accepts : Nat → Bool
  body : List Value → State → State × Except PyException Result

/-- A state, and how often the body was entered on the way to it. -/
structure Entered (State : Type u) where
  state : State
  entries : Nat := 0

abbrev PyCall (State : Type u) (Result : Type w) :=
  Entered State → Entered State × Except PyException Result

namespace PyFunction

variable (function : PyFunction State Value Result)

def takes (arguments : List Value) : Bool :=
  function.accepts arguments.length

def call (arguments : List Value) : PyCall State Result :=
  fun before =>
    if function.takes arguments then
      let ran := function.body arguments before.state
      (⟨ran.1, before.entries + 1⟩, ran.2)
    else
      (before, .error .typeError)

theorem call_of_takes
    {arguments : List Value} (taken : function.takes arguments = true)
    (before : Entered State) :
    function.call arguments before =
      (⟨(function.body arguments before.state).1, before.entries + 1⟩,
        (function.body arguments before.state).2) := by
  rw [call, if_pos taken]

theorem call_of_not_takes
    {arguments : List Value} (refused : function.takes arguments = false)
    (before : Entered State) :
    function.call arguments before = (before, .error .typeError) := by
  rw [call, refused, if_neg Bool.false_ne_true]

end PyFunction

/-- `try: … except TypeError: …` -/
def onTypeError (first second : PyCall State Result) :
    PyCall State Result :=
  fun before =>
    let tried := first before
    match tried.2 with
    | .error .typeError => second tried.1
    | _ => tried

theorem onTypeError_of_typeError
    {first second : PyCall State Result} {before : Entered State}
    (raised : (first before).2 = .error .typeError) :
    onTypeError first second before = second (first before).1 := by
  rw [onTypeError, raised]

theorem onTypeError_of_ne
    {first second : PyCall State Result} {before : Entered State}
    (settled : (first before).2 ≠ .error .typeError) :
    onTypeError first second before = first before := by
  rw [onTypeError]
  split
  · rename_i raised
    exact absurd raised settled
  · rfl

section Chain

variable (function : PyFunction State Value Result)

/-- The function called with the first arguments, and with the next ones
after each `TypeError`. -/
def callChain (arguments : List Value) :
    List (List Value) → PyCall State Result
  | [] => function.call arguments
  | next :: rest =>
      onTypeError (function.call arguments) (callChain next rest)

theorem entries_le_callChain
    (arguments : List Value) (rest : List (List Value))
    (before : Entered State) :
    before.entries ≤
      (callChain function arguments rest before).1.entries := by
  have single : ∀ arguments (before : Entered State),
      before.entries ≤ (function.call arguments before).1.entries := by
    intro arguments before
    rw [PyFunction.call]
    split
    · exact Nat.le_succ _
    · exact Nat.le_refl _
  induction rest generalizing arguments before with
  | nil =>
      exact single arguments before
  | cons next rest inductionHypothesis =>
      rw [callChain]
      by_cases raised :
          (function.call arguments before).2 = .error .typeError
      · rw [onTypeError_of_typeError raised]
        exact Nat.le_trans (single arguments before)
          (inductionHypothesis next _)
      · rw [onTypeError_of_ne raised]
        exact single arguments before

/-- The body is not entered exactly when no arguments of the chain are
taken. -/
theorem callChain_entries_le_iff
    (arguments : List Value) (rest : List (List Value))
    (before : Entered State) :
    (callChain function arguments rest before).1.entries ≤
        before.entries ↔
      (arguments :: rest).countP function.takes = 0 := by
  induction rest generalizing arguments before with
  | nil =>
      rw [callChain, List.countP_singleton, PyFunction.call]
      split <;> simp
  | cons next rest inductionHypothesis =>
      rw [callChain, List.countP_cons]
      cases taken : function.takes arguments with
      | true =>
          have entered : (function.call arguments before).1.entries =
              before.entries + 1 := by
            rw [PyFunction.call_of_takes function taken]
          have later :
              before.entries + 1 ≤
                (onTypeError (function.call arguments)
                  (callChain function next rest) before).1.entries := by
            rw [← entered]
            by_cases raised :
                (function.call arguments before).2 = .error .typeError
            · rw [onTypeError_of_typeError raised]
              exact entries_le_callChain function next rest _
            · exact Nat.le_of_eq (by rw [onTypeError_of_ne raised])
          rw [if_pos rfl]
          omega
      | false =>
          have refused :=
            PyFunction.call_of_not_takes function taken before
          rw [onTypeError_of_typeError (by rw [refused]), refused,
            inductionHypothesis, if_neg Bool.false_ne_true, Nat.add_zero]

/-- The outcome of the body where it is entered first. -/
def firstOutcome?
    (chain : List (List Value)) (state : State) :
    Option (Except PyException Result) :=
  (chain.find? function.takes).map fun arguments =>
    (function.body arguments state).2

/-- The body is entered once at most exactly when one call of the chain at
most is taken, or the first time the body is entered it does not raise a
`TypeError`. -/
theorem callChain_entries_le_succ_iff
    (arguments : List Value) (rest : List (List Value))
    (before : Entered State) :
    (callChain function arguments rest before).1.entries ≤
        before.entries + 1 ↔
      (arguments :: rest).countP function.takes ≤ 1 ∨
        firstOutcome? function (arguments :: rest) before.state ≠
          some (.error .typeError) := by
  induction rest generalizing arguments before with
  | nil =>
      have once : (function.call arguments before).1.entries ≤
          before.entries + 1 := by
        rw [PyFunction.call]
        split
        · exact Nat.le_refl _
        · exact Nat.le_succ _
      exact iff_of_true once
        (Or.inl (List.countP_le_length (l := [arguments])))
  | cons next rest inductionHypothesis =>
      rw [callChain, firstOutcome?, List.countP_cons, List.find?_cons]
      cases taken : function.takes arguments with
      | true =>
          have entered :=
            PyFunction.call_of_takes function taken before
          rw [if_pos rfl]
          by_cases raised :
              (function.body arguments before.state).2 =
                .error .typeError
          · have again :=
              callChain_entries_le_iff function next rest
                (function.call arguments before).1
            rw [onTypeError_of_typeError (by rw [entered]; exact raised)]
            rw [entered] at again ⊢
            rw [again]
            simp [raised]
          · rw [onTypeError_of_ne (by rw [entered]; exact raised), entered]
            simp [raised]
      | false =>
          have refused :=
            PyFunction.call_of_not_takes function taken before
          rw [onTypeError_of_typeError (by rw [refused]), refused,
            inductionHypothesis, if_neg Bool.false_ne_true, Nat.add_zero]
          rfl

end Chain

end Agentcy.Library
