import Mathlib.Data.Matrix.Mul
import Mathlib.Data.Rat.Sqrt
import Mathlib.Data.Rat.Star
import Agentcy.Forwarder.BanditUpdates
import Agentcy.Library.Matrices
import Agentcy.Library.Run

/-!
# The LinUCB learner

The learner of a user keeps a matrix and a vector for every task type.  Every
reward adds an outer product to the one and a multiple of the features to the
other, and the context is written to the graph store; another learner reads it
back from there.
-/

namespace Agentcy.Bandit

open Agentcy.Forwarder (BidFeatures banditModelKey)
open Agentcy.Library
open Matrix

abbrev featureDim : Nat := 6

abbrev Features (d : Nat) := Fin d → ℚ

/-- `features_to_array`. -/
def featuresToArray (features : BidFeatures) : Features featureDim :=
  ![features.trust, features.costNorm, features.loadNorm,
    features.failurePenalty, features.histSuccess, features.speed]

structure LinUCBContext (d : Nat) where
  A : Matrix (Fin d) (Fin d) ℚ := 1
  b : Features d := 0
  nUpdates : Nat := 0

structure LinUCBModelState where
  taskType : String
  d : Nat := featureDim
  aFlat : List ℚ := []
  bFlat : List ℚ := []
  nUpdates : Nat := 0

/-- The numerical functions: `numpy.linalg.solve`, which raises on a singular
matrix and solves the equation of any other, and `math.sqrt`. -/
structure Numerics where
  solve :
    ∀ {d : Nat}, Matrix (Fin d) (Fin d) ℚ → Matrix (Fin d) (Fin d) ℚ →
      Option (Matrix (Fin d) (Fin d) ℚ)
  solves :
    ∀ {d : Nat} {matrix : Matrix (Fin d) (Fin d) ℚ}
      (right : Matrix (Fin d) (Fin d) ℚ),
      IsUnit matrix →
        ∃ solution, solve matrix right = some solution ∧
          matrix * solution = right
  sqrt : ℚ → ℚ

/-- Exact solutions, and square roots where they are rational. -/
def exactNumerics : Numerics where
  solve matrix right :=
    if matrix.det = 0 then none
    else some (matrix.det⁻¹ • (matrix.adjugate * right))
  solves := by
    intro d matrix right unit
    have regular : matrix.det ≠ 0 :=
      ((isUnit_iff_isUnit_det matrix).mp unit).ne_zero
    refine ⟨_, if_neg regular, ?_⟩
    rw [mul_smul_comm, ← mul_assoc, mul_adjugate, smul_one_mul,
      smul_smul, inv_mul_cancel₀ regular, one_smul]
  sqrt := Rat.sqrt

namespace LinUCBContext

variable {d : Nat}

def fromState (state : LinUCBModelState) : LinUCBContext state.d where
  A :=
    if state.aFlat ≠ [] ∧ state.aFlat.length = state.d * state.d then
      reshape state.d 0 state.aFlat
    else 1
  b :=
    if state.bFlat ≠ [] ∧ state.bFlat.length = state.d then
      fun index => state.bFlat.getD index 0
    else 0
  nUpdates := state.nUpdates

def toState (context : LinUCBContext d) (taskType : String) :
    LinUCBModelState where
  taskType := taskType
  d := d
  aFlat := flatten context.A
  bFlat := List.ofFn context.b
  nUpdates := context.nUpdates

/-- The score of a feature vector, if the equation can be solved. -/
def predict
    (numerics : Numerics) (context : LinUCBContext d) (x : Features d)
    (alpha : ℚ) : Option ℚ := do
  let inverse ← numerics.solve context.A 1
  let theta := inverse *ᵥ context.b
  let mean := theta ⬝ᵥ x
  return mean + alpha * numerics.sqrt (max ((x ᵥ* inverse) ⬝ᵥ x) 0)

def update
    (context : LinUCBContext d) (x : Features d) (reward : ℚ) :
    LinUCBContext d where
  A := context.A + vecMulVec x x
  b := context.b + reward • x
  nUpdates := context.nUpdates + 1

end LinUCBContext

structure BanditLearner (d : Nat) where
  store : OrderedMap String LinUCBModelState := .empty
  contexts : OrderedMap String (LinUCBContext d) := .empty

namespace BanditLearner

variable {d : Nat} (username : String) (learner : BanditLearner d)

/-- The context in the store.  One of another dimension takes no feature
vector of this one. -/
def storedContext? (taskType : String) : Option (LinUCBContext d) :=
  match learner.store.get? (banditModelKey username taskType) with
  | none => some {}
  | some state =>
      if same : state.d = d then
        some (same ▸ LinUCBContext.fromState state)
      else none

def context? (taskType : String) : Option (LinUCBContext d) :=
  match learner.contexts.get? taskType with
  | some context => some context
  | none => learner.storedContext? username taskType

/-- `_load_context`. -/
def loadContext (taskType : String) : BanditLearner d :=
  match learner.context? username taskType with
  | some context =>
      { learner with contexts := learner.contexts.set taskType context }
  | none => learner

def recordReward
    (taskType : String) (x : Features d) (reward : ℚ) :
    BanditLearner d :=
  match learner.context? username taskType with
  | some context =>
      let updated := context.update x reward
      { store :=
          learner.store.set (banditModelKey username taskType)
            (updated.toState taskType)
        contexts := learner.contexts.set taskType updated }
  | none => learner

/-- A cached context is replaced by what its state is read back as. -/
def reload (taskType : String) : BanditLearner d :=
  match learner.contexts.get? taskType with
  | some context =>
      { learner with
        contexts :=
          learner.contexts.set taskType
            (LinUCBContext.fromState (context.toState taskType)) }
  | none => learner

end BanditLearner

inductive Event (d : Nat) where
  | record (taskType : String) (x : Features d) (reward : ℚ)
  -- a score is asked for
  | bias (taskType : String)
  | reload (taskType : String)
  -- a new learner on the same store
  | restart

variable {d : Nat}

def step (username : String) (learner : BanditLearner d) :
    Event d → BanditLearner d
  | .record taskType x reward =>
      learner.recordReward username taskType x reward
  | .bias taskType => learner.loadContext username taskType
  | .reload taskType => learner.reload taskType
  | .restart => { learner with contexts := .empty }

/-- The learner after a sequence of events, from an empty store on. -/
def learnerAfter (username : String) (events : List (Event d)) :
    BanditLearner d :=
  run (step username) {} events

/-- The update that an event makes to the context of a task type. -/
def Event.update? (taskType : String) :
    Event d → Option (Features d × ℚ)
  | .record updated x reward =>
      if updated = taskType then some (x, reward) else none
  | _ => none

def updatesOf (taskType : String) (events : List (Event d)) :
    List (Features d × ℚ) :=
  events.filterMap (Event.update? taskType)

/-- What the updates amount to. -/
def accumulated (updates : List (Features d × ℚ)) : LinUCBContext d where
  A := 1 + outerSum (updates.map Prod.fst)
  b := (updates.map fun update => update.2 • update.1).sum
  nUpdates := updates.length

theorem accumulated_perm
    {first second : List (Features d × ℚ)} (permuted : first.Perm second) :
    accumulated first = accumulated second := by
  unfold accumulated
  rw [outerSum_perm (permuted.map Prod.fst), (permuted.map _).sum_eq,
    permuted.length_eq]

theorem accumulated_concat
    (updates : List (Features d × ℚ)) (x : Features d) (reward : ℚ) :
    accumulated (updates ++ [(x, reward)]) =
      (accumulated updates).update x reward := by
  simp [accumulated, LinUCBContext.update, outerSum, add_assoc]

theorem accumulated_posDef (updates : List (Features d × ℚ)) :
    (accumulated updates).A.PosDef :=
  one_add_outerSum_posDef _

theorem updatesOf_concat
    (taskType : String) (events : List (Event d)) (event : Event d) :
    updatesOf taskType (events ++ [event]) =
      updatesOf taskType events ++ (event.update? taskType).toList := by
  simp [updatesOf, List.filterMap_append, List.filterMap_cons]
  cases event.update? taskType <;> rfl

/-! ## Persistence -/

/-- In dimension zero the lists are empty, and there is only one context. -/
theorem fromState_toState
    (context : LinUCBContext d) (taskType : String) :
    LinUCBContext.fromState (context.toState taskType) = context := by
  obtain ⟨A, b, nUpdates⟩ := context
  have matrix :
      (if flatten A ≠ [] ∧ (flatten A).length = d * d then
          reshape d 0 (flatten A)
        else 1) = A := by
    split
    · exact reshape_flatten 0 A
    · rename_i blank
      have none : flatten A = [] := by
        simpa [length_flatten] using blank
      have sameLength := congrArg List.length none
      rw [length_flatten, List.length_nil] at sameLength
      obtain rfl : d = 0 := by simpa using sameLength
      exact Subsingleton.elim _ _
  have vector :
      (if List.ofFn b ≠ [] ∧ (List.ofFn b).length = d then
          fun index : Fin d => (List.ofFn b).getD index 0
        else 0) = b := by
    split
    · exact getD_ofFn 0 b
    · rename_i blank
      have none : List.ofFn b = [] := by
        simpa using blank
      have sameLength := congrArg List.length none
      rw [List.length_ofFn, List.length_nil] at sameLength
      subst sameLength
      exact Subsingleton.elim _ _
  exact
    congrArg₂ (fun A b => (⟨A, b, nUpdates⟩ : LinUCBContext d)) matrix
      vector

theorem banditModelKey_inj
    {username first second : String}
    (same : banditModelKey username first =
      banditModelKey username second) : first = second := by
  have lists := congrArg String.toList same
  apply String.toList_injective
  simpa [banditModelKey, GraphStore.MarkerKey.text,
    GraphStore.MarkerKey.kind, GraphStore.MarkerKey.components,
    GraphStore.MarkerKey.joined] using lists

/-- What is in the store, or cached, is what a history says. -/
structure Follows
    (username : String) (history : String → LinUCBContext d)
    (learner : BanditLearner d) : Prop where
  stored : ∀ taskType,
    learner.storedContext? username taskType = some (history taskType)
  cached : ∀ taskType context,
    learner.contexts.get? taskType = some context →
      context = history taskType

namespace Follows

variable {username : String} {history : String → LinUCBContext d}
  {learner : BanditLearner d}

theorem context?
    (follows : Follows username history learner) (taskType : String) :
    learner.context? username taskType = some (history taskType) := by
  unfold BanditLearner.context?
  cases found : learner.contexts.get? taskType with
  | none =>
      exact follows.stored taskType
  | some context =>
      exact congrArg some (follows.cached taskType context found)

/-- Only the cache changes, and what it gets is right. -/
theorem cache
    (follows : Follows username history learner) {taskType : String}
    {context : LinUCBContext d} (right : context = history taskType) :
    Follows username history
      { learner with
        contexts := learner.contexts.set taskType context } where
  stored := follows.stored
  cached := by
    intro tested other found
    rw [OrderedMap.get?_set] at found
    split at found
    · rename_i same
      rw [← Option.some.inj found, right, same]
    · exact follows.cached tested other found

theorem recordReward
    (follows : Follows username history learner) (taskType : String)
    (x : Features d) (reward : ℚ) :
    Follows username
      (Function.update history taskType
        ((history taskType).update x reward))
      (learner.recordReward username taskType x reward) := by
  unfold BanditLearner.recordReward
  rw [follows.context? taskType]
  constructor
  · intro tested
    unfold BanditLearner.storedContext?
    dsimp only
    by_cases same : tested = taskType
    · subst same
      rw [OrderedMap.get?_set_self, Function.update_self]
      exact
        (dif_pos rfl).trans (congrArg some (fromState_toState _ tested))
    · have otherKey :
          banditModelKey username tested ≠
            banditModelKey username taskType :=
        fun sameKey => same (banditModelKey_inj sameKey)
      rw [OrderedMap.get?_set_other _ _ otherKey,
        Function.update_of_ne same]
      exact follows.stored tested
  · intro tested context found
    dsimp only at found
    rw [OrderedMap.get?_set] at found
    split at found
    · rename_i same
      rw [same, Function.update_self]
      exact (Option.some.inj found).symm
    · rename_i different
      rw [Function.update_of_ne different]
      exact follows.cached tested context found

theorem loadContext
    (follows : Follows username history learner) (taskType : String) :
    Follows username history
      (learner.loadContext username taskType) := by
  unfold BanditLearner.loadContext
  rw [follows.context? taskType]
  exact follows.cache rfl

theorem reload
    (follows : Follows username history learner) (taskType : String) :
    Follows username history (learner.reload taskType) := by
  unfold BanditLearner.reload
  cases found : learner.contexts.get? taskType with
  | none =>
      exact follows
  | some context =>
      exact
        follows.cache
          ((fromState_toState context taskType).trans
            (follows.cached taskType context found))

theorem restart (follows : Follows username history learner) :
    Follows username history { learner with contexts := .empty } where
  stored := follows.stored
  cached := by
    intro taskType context found
    cases found

end Follows

theorem follows_learnerAfter
    (username : String) (events : List (Event d)) :
    Follows username (fun taskType => accumulated (updatesOf taskType events))
      (learnerAfter username events) := by
  induction events using List.reverseRecOn with
  | nil =>
      constructor
      · intro taskType
        simp [learnerAfter, BanditLearner.storedContext?, accumulated,
          updatesOf, outerSum, OrderedMap.get?, OrderedMap.empty,
          OrderedMap.lookupEntries]
      · intro taskType context found
        cases found
  | append_singleton events event inductionHypothesis =>
      have last :
          learnerAfter username (events ++ [event]) =
            step username (learnerAfter username events) event := by
        simp [learnerAfter, run_append]
      rw [last]
      simp only [updatesOf_concat]
      cases event with
      | record updated x reward =>
          have next :=
            inductionHypothesis.recordReward updated x reward
          have history :
              (fun taskType => accumulated
                (updatesOf taskType events ++
                  ((Event.record updated x reward).update?
                    taskType).toList)) =
                Function.update
                  (fun taskType =>
                    accumulated (updatesOf taskType events))
                  updated
                  ((accumulated (updatesOf updated events)).update x
                    reward) := by
            funext taskType
            by_cases same : updated = taskType
            · subst same
              simp [Event.update?, accumulated_concat]
            · simp [Event.update?, same,
                Function.update_of_ne (Ne.symm same)]
          rw [history]
          exact next
      | bias taskType =>
          simpa [Event.update?, step] using
            inductionHypothesis.loadContext taskType
      | reload taskType =>
          simpa [Event.update?, step] using
            inductionHypothesis.reload taskType
      | restart =>
          simpa [Event.update?, step] using inductionHypothesis.restart

/-- The context of a task type, however it was accumulated and persisted. -/
theorem context_learnerAfter
    (username : String) (events : List (Event d)) (taskType : String) :
    (learnerAfter username events).context? username taskType =
      some (accumulated (updatesOf taskType events)) :=
  (follows_learnerAfter username events).context? taskType

theorem predict_isSome
    {context : LinUCBContext d} (definite : context.A.PosDef)
    (numerics : Numerics) (x : Features d) (alpha : ℚ) :
    (context.predict numerics x alpha).isSome = true := by
  obtain ⟨inverse, solved, _⟩ := numerics.solves 1 definite.isUnit
  simp [LinUCBContext.predict, solved]

/-- Events that make no update to the context of any task type. -/
def Event.Silent : Event d → Prop
  | .record _ _ _ => False
  | .bias _ | .reload _ | .restart => True

theorem updatesOf_insert
    (taskType : String) (before after : List (Event d))
    {event : Event d} (silent : event.Silent) :
    updatesOf taskType (before ++ event :: after) =
      updatesOf taskType (before ++ after) := by
  have none : event.update? taskType = none := by
    cases event with
    | record _ _ _ =>
        exact silent.elim
    | bias _ =>
        rfl
    | reload _ =>
        rfl
    | restart =>
        rfl
  simp [updatesOf, List.filterMap_append, none]

/-- After every sequence of events the context of a task type is the sum over
the updates of that type, in whatever order they came and whatever came in
between, and its matrix is positive definite. -/
theorem context_of_updates
    (username : String) (events : List (Event d)) (taskType : String) :
    ∃ context,
      (learnerAfter username events).context? username taskType =
        some context ∧
      context.A =
        1 + ((updatesOf taskType events).map fun update =>
          vecMulVec update.1 update.1).sum ∧
      context.b =
        ((updatesOf taskType events).map fun update =>
          update.2 • update.1).sum ∧
      context.A.IsSymm ∧ context.A.PosDef ∧
      (∀ (numerics : Numerics) (x : Features d) (alpha : ℚ),
        (context.predict numerics x alpha).isSome = true) ∧
      (∀ others : List (Event d),
        (updatesOf taskType others).Perm (updatesOf taskType events) →
        (learnerAfter username others).context? username taskType =
          some context) ∧
      ∀ (before after : List (Event d)) (event : Event d),
        event.Silent → events = before ++ after →
        (learnerAfter username (before ++ event :: after)).context?
            username taskType =
          some context := by
  have definite := accumulated_posDef (updatesOf taskType events)
  refine
    ⟨accumulated (updatesOf taskType events),
      context_learnerAfter username events taskType, ?_, rfl, ?_,
      definite, predict_isSome definite, ?_, ?_⟩
  · simp [accumulated, outerSum, Function.comp_def]
  · have hermitian := definite.isHermitian
    rwa [IsHermitian, conjTranspose_eq_transpose_of_trivial] at hermitian
  · intro others permuted
    rw [context_learnerAfter, accumulated_perm permuted]
  · intro before after event silent split
    rw [context_learnerAfter, updatesOf_insert taskType before after silent,
      split]

/-! ## Rewards of executions -/

/-- The events of the rewards that are recorded one after the other. -/
def rewardEvents (rewards : List (String × BidFeatures × ℚ)) :
    List (Event featureDim) :=
  rewards.map fun reward =>
    .record reward.1 (featuresToArray reward.2.1) reward.2.2

example :
    ((learnerAfter "alice"
        (rewardEvents
          [("review", { trust := 1 }, 1), ("build", { speed := 1 }, -1),
            ("review", { trust := 2, speed := 1 }, 1 / 2)])).context?
      "alice" "review").map (fun context =>
        (context.A 0 0, context.A 0 5, context.b 0)) =
      some (6, 2, 2) := by
  decide +kernel

end Agentcy.Bandit
