import Agentcy.Library.Attempts
import Agentcy.Library.PyCalls

/-!
# Operations with back-off

`with_backoff` has a wrapper for coroutines, which goes through a retrying
decorator, and one for ordinary functions.  The retrying decorator repeats a
call after an `Exception` and raises the last one when the attempts are used
up; waiting between the attempts is left out.
-/

namespace Agentcy.Couch

open Agentcy.Library

universe u

variable {Result : Type u}

/-- A function as the decorator meets it: its kind, and the outcomes of its
successive invocations. -/
structure WrappedFunction (Result : Type u) where
  isCoroutine : Bool
  outcomes : Nat → Except PyException Result

/-- Number of invocations of a call, and what it returns or raises. -/
abbrev CallEnd (Result : Type u) := Nat × Except PyException Result

/-- `async_wrapper`.  The decorator looks at the number of attempts after an
attempt, so that there is always one. -/
def asyncWrapper
    (maxAttempts : Int) (fn : WrappedFunction Result) : CallEnd Result :=
  let attempts :=
    attempt PyException.isException (invoke fn.outcomes)
      (maxAttempts - 1).toNat 0
  (attempts.state, attempts.result)

/-- `sync_wrapper`, which has no decorator that repeats. -/
def syncWrapper (fn : WrappedFunction Result) : CallEnd Result :=
  invoke fn.outcomes 0

def withBackoff
    (maxAttempts : Int) (fn : WrappedFunction Result) : CallEnd Result :=
  if fn.isCoroutine then asyncWrapper maxAttempts fn else syncWrapper fn

/-- A call ends with the first success among the allowed invocations, or with
the failure of the last one. -/
structure BacksOff
    (maxAttempts : Int) (outcomes : Nat → Except PyException Result)
    (ended : CallEnd Result) : Prop where
  firstSuccess :
    ∀ index : Nat, (index : Int) < maxAttempts →
      (∀ earlier < index, (outcomes earlier).isOk = false) →
        (outcomes index).isOk = true →
          ended = (index + 1, outcomes index)
  lastFailure :
    (∀ index : Nat, (index : Int) < maxAttempts →
      (outcomes index).isOk = false) →
        (ended.1 : Int) = maxAttempts ∧ ended.2 = outcomes (ended.1 - 1)

def anyFailure : PyException → Bool :=
  fun _ => true

theorem repeats_anyFailure (outcome : Except PyException Result) :
    repeats anyFailure outcome = !outcome.isOk := by
  cases outcome <;> rfl

section Ends

variable {outcomes : Nat → Except PyException Result} {more index : Nat}

theorem failed_before
    (stops : StopsAt anyFailure outcomes more index) :
    ∀ earlier < index, (outcomes earlier).isOk = false := by
  intro earlier bound
  have failed := stops.before earlier bound
  rw [repeats_anyFailure] at failed
  simpa using failed

theorem last_of_failed
    (stops : StopsAt anyFailure outcomes more index)
    (failed : (outcomes index).isOk = false) : index = more := by
  rcases stops.ends with last | settled
  · exact last
  · rw [repeats_anyFailure, failed] at settled
    cases settled

/-- An invocation that is reached by failures only is not after the end. -/
theorem le_of_failed_before
    (stops : StopsAt anyFailure outcomes more index)
    {other : Nat} (allowed : other ≤ more)
    (before : ∀ earlier < other, (outcomes earlier).isOk = false) :
    other ≤ index := by
  by_contra beyond
  have last := last_of_failed stops (before index (by omega))
  omega

/-- Where a call ends is determined by `BacksOff`. -/
theorem backsOff_iff_eq
    (stops : StopsAt anyFailure outcomes more index)
    (ended : CallEnd Result) :
    BacksOff (more + 1 : Nat) outcomes ended ↔
      ended = (index + 1, outcomes index) := by
  have allowed := stops.allowed
  constructor
  · intro backsOff
    cases outcome : (outcomes index).isOk with
    | true =>
        exact backsOff.firstSuccess index (by omega)
          (failed_before stops) outcome
    | false =>
        have last := last_of_failed stops outcome
        subst last
        obtain ⟨count, result⟩ := backsOff.lastFailure (by
          intro other bound
          rcases Nat.lt_or_ge other index with before | here
          · exact failed_before stops other before
          · rwa [show other = index by omega])
        have counted : ended.1 = index + 1 := by omega
        rw [counted, Nat.add_sub_cancel] at result
        exact Prod.ext counted result
  · rintro rfl
    refine ⟨?_, ?_⟩
    · intro other bound before success
      have within := le_of_failed_before stops (by omega) before
      rcases Nat.lt_or_eq_of_le within with earlier | here
      · rw [failed_before stops other earlier] at success
        cases success
      · rw [here]
    · intro failed
      have last := last_of_failed stops (failed index (by omega))
      exact ⟨by rw [last], by rw [Nat.add_sub_cancel]⟩

end Ends

/-- No invocation before the last allowed one ends the attempts early with
something else than an `Exception`. -/
def OnlyExceptions
    (maxAttempts : Int) (outcomes : Nat → Except PyException Result) :
    Prop :=
  ∀ index : Nat, (index : Int) + 1 < maxAttempts →
    (∀ earlier < index, (outcomes earlier).isOk = false) →
      ∀ failure, outcomes index = .error failure →
        failure.isException = true

theorem asyncWrapper_of_stopsAt
    {fn : WrappedFunction Result} {more index : Nat}
    (stops : StopsAt PyException.isException fn.outcomes more index) :
    asyncWrapper (more + 1 : Nat) fn = (index + 1, fn.outcomes index) := by
  have count : (((more + 1 : Nat) : Int) - 1).toNat = more := by
    omega
  rw [asyncWrapper, count, attempt_invoke stops]

/-- The wrapper for coroutines ends where any failure is repeated exactly
when the failures up to there are exceptions. -/
theorem asyncWrapper_eq_iff
    {fn : WrappedFunction Result} {more index : Nat}
    (stops : StopsAt anyFailure fn.outcomes more index) :
    asyncWrapper (more + 1 : Nat) fn = (index + 1, fn.outcomes index) ↔
      OnlyExceptions (more + 1 : Nat) fn.outcomes := by
  constructor
  · intro same other bound before failure raised
    obtain ⟨reached, reachedStops⟩ :=
      exists_stopsAt PyException.isException fn.outcomes more
    rw [asyncWrapper_of_stopsAt reachedStops] at same
    have here : reached = index := by
      simpa using congrArg Prod.fst same
    subst here
    have within := le_of_failed_before stops (by omega) before
    have different : other ≠ reached := by
      rintro rfl
      have last := last_of_failed stops (by rw [raised]; rfl)
      omega
    have again := reachedStops.before other (by omega)
    rwa [raised] at again
  · intro only
    refine asyncWrapper_of_stopsAt ⟨stops.allowed, ?_, ?_⟩
    · intro earlier bound
      have allowed := stops.allowed
      cases outcome : fn.outcomes earlier with
      | ok result =>
          have failed := failed_before stops earlier bound
          rw [outcome] at failed
          cases failed
      | error failure =>
          exact only earlier (by omega)
            (fun before less =>
              failed_before stops before (by omega)) failure outcome
    · cases outcome : fn.outcomes index with
      | ok result =>
          exact Or.inr rfl
      | error failure =>
          exact Or.inl (last_of_failed stops (by rw [outcome]; rfl))

theorem one_le_withBackoff
    (maxAttempts : Int) (fn : WrappedFunction Result) :
    1 ≤ (withBackoff maxAttempts fn).1 := by
  rw [withBackoff]
  split
  · obtain ⟨index, stops⟩ :=
      exists_stopsAt PyException.isException fn.outcomes
        (maxAttempts - 1).toNat
    rw [asyncWrapper, attempt_invoke stops]
    exact Nat.le_add_left 1 index
  · exact Nat.le_refl 1

/-- A call backs off exactly when there is an attempt, and either another one
cannot matter or the function is a coroutine and raises exceptions only. -/
theorem backsOff_iff (maxAttempts : Int) (fn : WrappedFunction Result) :
    BacksOff maxAttempts fn.outcomes (withBackoff maxAttempts fn) ↔
      1 ≤ maxAttempts ∧
        (maxAttempts = 1 ∨ (fn.outcomes 0).isOk = true ∨
          (fn.isCoroutine = true ∧
            OnlyExceptions maxAttempts fn.outcomes)) := by
  rcases Int.lt_or_le maxAttempts 1 with none | some
  · refine iff_of_false ?_ (fun meets => by omega)
    intro backsOff
    have count := (backsOff.lastFailure (by omega)).1
    have invoked := one_le_withBackoff maxAttempts fn
    omega
  · obtain ⟨more, rfl⟩ : ∃ more : Nat, maxAttempts = (more + 1 : Nat) :=
      ⟨(maxAttempts - 1).toNat, by omega⟩
    obtain ⟨index, stops⟩ := exists_stopsAt anyFailure fn.outcomes more
    have atStart : index = 0 ↔
        more = 0 ∨ (fn.outcomes 0).isOk = true := by
      have allowed := stops.allowed
      constructor
      · rintro rfl
        cases first : (fn.outcomes 0).isOk with
        | true => exact Or.inr rfl
        | false => exact Or.inl (last_of_failed stops first).symm
      · rintro (single | success)
        · omega
        · by_contra later
          rw [failed_before stops 0 (by omega)] at success
          cases success
    have oneAllowed : ((more + 1 : Nat) : Int) = 1 ↔ more = 0 := by
      omega
    rw [backsOff_iff_eq stops, and_iff_right some, oneAllowed, ← or_assoc,
      ← atStart, withBackoff]
    cases fn.isCoroutine with
    | true =>
        rw [if_pos rfl, asyncWrapper_eq_iff stops,
          and_iff_right rfl]
        refine (or_iff_right_of_imp ?_).symm
        rintro rfl other bound before failure raised
        have within := le_of_failed_before stops (by omega) before
        obtain rfl : other = 0 := by omega
        have last := last_of_failed stops (by rw [raised]; rfl)
        omega
    | false =>
        rw [if_neg Bool.false_ne_true, syncWrapper, invoke]
        constructor
        · intro same
          have count := congrArg Prod.fst same
          dsimp only at count
          exact Or.inl (by omega)
        · rintro (rfl | ⟨coroutine, _⟩)
          · rfl
          · cases coroutine

/-- An operation that fails once, for a passing reason. -/
def failsOnce (isCoroutine : Bool) : WrappedFunction String where
  isCoroutine := isCoroutine
  outcomes := fun index =>
    if index = 0 then .error (.exception "TimeoutException")
    else .ok "replaced"

/-- With three attempts allowed the coroutine returns its second outcome, and
the ordinary function raises the first one. -/
theorem ordinary_function_is_not_repeated :
    withBackoff 3 (failsOnce true) = (2, .ok "replaced") ∧
      (withBackoff 3 (failsOnce false)).1 = 1 ∧
        ¬ BacksOff 3 (failsOnce false).outcomes
          (withBackoff 3 (failsOnce false)) := by
  refine ⟨rfl, rfl, ?_⟩
  intro backsOff
  have success :=
    backsOff.firstSuccess 1 (by decide)
      (by
        intro earlier bound
        obtain rfl : earlier = 0 := by omega
        rfl)
      rfl
  cases congrArg Prod.fst success

end Agentcy.Couch
