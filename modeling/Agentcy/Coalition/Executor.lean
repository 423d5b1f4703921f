import Agentcy.Coalition.Assembler
import Agentcy.Library.PyJson

/-!
# Coalition execution

`execute_coalition` hands the steps of an awarded contract to its members in
turn.  The overall timeout and the cap on handoffs end the loop before a step,
a failed step ends it after one, perhaps with a call to the fallback agent.
-/

namespace Agentcy.Coalition

open Agentcy.Library

section Changes

variable {α : Type} [DecidableEq α]

/-- How many items of a list differ from the item before them. -/
def changes : List α → Nat
  | first :: second :: rest =>
      (if first = second then 0 else 1) + changes (second :: rest)
  | _ => 0

theorem changes_concat
    (initial : List α) (previous next : α) :
    changes (initial ++ [previous] ++ [next]) =
      changes (initial ++ [previous]) +
        (if previous = next then 0 else 1) := by
  induction initial with
  | nil =>
      simp [changes]
  | cons head tail inductionHypothesis =>
      cases tail with
      | nil =>
          simp [changes]
      | cons second rest =>
          simp only [List.cons_append, changes] at inductionHypothesis ⊢
          omega

theorem changes_append_of_getLast?
    {items : List α} {previous : α} (next : α)
    (last : items.getLast? = some previous) :
    changes (items ++ [next]) =
      changes items + (if previous = next then 0 else 1) := by
  obtain ⟨initial, rfl⟩ := List.getLast?_eq_some_iff.mp last
  exact changes_concat initial previous next

end Changes

def CoalitionRole.value : CoalitionRole → String
  | .planner => "planner"
  | .executor => "executor"
  | .verifier => "verifier"
  | .safety => "safety"

/-- The plan of a contract; a key it lacks is `none`. -/
structure ExecutionPlan where
  steps : Option (List Json) := none
  maxHandoffs : Option Int := none

structure Fallback where
  mode : Option String := some "degrade_to_solo"
  preferredAgentId : Option String := none

structure CoalitionContract where
  coalitionId : String
  taskId : String
  members : List CoalitionMember := []
  executionPlan : ExecutionPlan := {}
  overallMs : Option Int := some 15000
  fallback : Fallback := {}

namespace CoalitionContract

variable (contract : CoalitionContract)

/-- The listed steps, or one for every member where none is listed. -/
def plannedSteps : List Json :=
  let steps := contract.executionPlan.steps.getD []
  if steps = [] then
    (List.range contract.members.length).map
      fun i => Json.str s!"step_{i}"
  else steps

def maxHandoffs : Int :=
  contract.executionPlan.maxHandoffs.getD 2

def overallTimeoutMs : Int :=
  contract.overallMs.getD 15000

def memberIds : List String :=
  contract.members.map CoalitionMember.agentId

/-- The sorted roles, for example `planner+verifier`. -/
def signature : String :=
  "+".intercalate
    ((contract.members.map fun member => member.role.value).mergeSort)

/-- The agent the contract degrades to when a step fails. -/
def soloAgent : Option String :=
  if contract.fallback.mode.getD "fail_fast" = "degrade_to_solo" then
    contract.fallback.preferredAgentId.filter (· ≠ "")
  else none

def memberAt
    (nonempty : contract.members ≠ []) (i : Nat) : CoalitionMember :=
  contract.members.get
    ⟨i % contract.members.length,
      Nat.mod_lt i (List.length_pos_of_ne_nil nonempty)⟩

/-- Step `i` goes to another agent than the step before it. -/
def HandsOver (nonempty : contract.members ≠ []) (i : Nat) : Prop :=
  0 < i ∧
    (contract.memberAt nonempty (i - 1)).agentId ≠
      (contract.memberAt nonempty i).agentId

instance (nonempty : contract.members ≠ []) :
    DecidablePred (contract.HandsOver nonempty) :=
  fun _ => inferInstanceAs (Decidable (_ ∧ _))

/-- The count of the handoffs when step `i` is reached. -/
def countHandoff
    (nonempty : contract.members ≠ []) (i : Nat) (handoffCount : Int) :
    Int :=
  if contract.HandsOver nonempty i then handoffCount + 1
  else handoffCount

end CoalitionContract

inductive CoalitionFailureState where
  | partnerTimeout
  | handoffValidationFailed
  | coalitionAborted
  | fallbackToSolo
  deriving DecidableEq

structure CoalitionOutcome where
  coalitionId : String
  coalitionSignature : String
  members : List String := []
  taskId : String
  taskSignature : String
  success : Bool
  retries : Nat := 0
  handoffFailures : Nat := 0
  latencyMs : Int := 0
  qualityScore : Rat := 0
  failureState : Option CoalitionFailureState := none

/-- One call of `run_step_fn`. -/
structure StepCall (δ : Type) where
  agentId : String
  stepName : Json
  input : δ

/-- What the calls answer, one by one, and what the clock reads. -/
structure Surroundings (ε δ : Type) where
  outcomes : Nat → Except ε δ
  clock : Nat → Rat

structure ExecutionState (δ : Type) where
  handoffCount : Int := 0
  handoffFailures : Nat := 0
  retries : Nat := 0
  currentOutput : δ
  calls : List (StepCall δ) := []

/-- The calls for the steps of the plan, the call of the fallback, and what
is reported. -/
structure CoalitionRun (δ : Type) where
  stepCalls : List (StepCall δ)
  fallbackCall : Option (StepCall δ) := none
  outcome : CoalitionOutcome

section Execution

variable {ε δ : Type}

/-- Milliseconds from the first reading of the clock to a later one. -/
def Surroundings.elapsedMs
    (surroundings : Surroundings ε δ) (reading : Nat) : Rat :=
  (surroundings.clock reading - surroundings.clock 0) * 1000

variable (contract : CoalitionContract) (surroundings : Surroundings ε δ)
  (message : δ) (taskSignature : String)

/-- The outcome every exit of the loop builds. -/
def report
    (state : ExecutionState δ) (success : Bool) (latencyMs : Int)
    (failureState : Option CoalitionFailureState) : CoalitionOutcome :=
  { coalitionId := contract.coalitionId
    coalitionSignature := contract.signature
    members := contract.memberIds
    taskId := contract.taskId
    taskSignature, success
    retries := state.retries
    handoffFailures := state.handoffFailures
    latencyMs, failureState }

/-- A step has failed: the fallback is tried where there is one.  The failed
call is number `failed`. -/
def afterFailure
    (failed : Nat) (state : ExecutionState δ) : CoalitionRun δ :=
  let aborted (reading : Nat) :=
    report contract taskSignature state false
      (truncate (surroundings.elapsedMs reading)) (some .coalitionAborted)
  match contract.soloAgent with
  | none =>
      { stepCalls := state.calls, outcome := aborted (failed + 2) }
  | some preferred =>
      let call : StepCall δ := ⟨preferred, .str "solo_fallback", message⟩
      { stepCalls := state.calls
        fallbackCall := some call
        outcome :=
          match surroundings.outcomes (failed + 1) with
          | .ok _ =>
              report contract taskSignature
                { state with retries := state.retries + 1 } true
                (truncate (surroundings.elapsedMs (failed + 2)))
                (some .fallbackToSolo)
          | .error _ => aborted (failed + 2) }

/-- The loop over the steps; `i` steps have been executed, each with one call
and one reading of the clock. -/
def executeSteps
    (nonempty : contract.members ≠ []) :
    List Json → Nat → ExecutionState δ → CoalitionRun δ
  | [], i, state =>
      { stepCalls := state.calls
        outcome :=
          { report contract taskSignature state true
              (truncate (surroundings.elapsedMs (i + 1))) none with
            qualityScore :=
              if state.handoffFailures = 0 then 1 else 8 / 10 } }
  | stepName :: rest, i, state =>
      if (contract.overallTimeoutMs : Rat) <
          surroundings.elapsedMs (i + 1) then
        { stepCalls := state.calls
          outcome :=
            report contract taskSignature state false
              (truncate (surroundings.elapsedMs (i + 1)))
              (some .partnerTimeout) }
      else
        let member := contract.memberAt nonempty i
        let handoffCount :=
          contract.countHandoff nonempty i state.handoffCount
        if contract.HandsOver nonempty i ∧
            contract.maxHandoffs < handoffCount then
          { stepCalls := state.calls
            outcome :=
              report contract taskSignature
                { state with
                  handoffFailures := state.handoffFailures + 1 }
                false (truncate (surroundings.elapsedMs (i + 2)))
                (some .handoffValidationFailed) }
        else
          let called : ExecutionState δ :=
            { state with
              handoffCount
              calls := state.calls ++
                [⟨member.agentId, stepName, state.currentOutput⟩] }
          match surroundings.outcomes i with
          | .ok result =>
              executeSteps nonempty rest (i + 1)
                { called with currentOutput := result }
          | .error _ =>
              afterFailure contract surroundings message taskSignature i
                { called with
                  handoffFailures := called.handoffFailures + 1 }

def executeCoalition : CoalitionRun δ :=
  if nonempty : contract.members = [] then
    { stepCalls := []
      outcome :=
        { coalitionId := contract.coalitionId
          coalitionSignature := "empty"
          taskId := contract.taskId
          taskSignature
          success := false
          failureState := some .coalitionAborted } }
  else
    executeSteps contract surroundings message taskSignature nonempty
      contract.plannedSteps 0 { currentOutput := message }

end Execution

/-! ## What holds of every execution -/

section Conduct

variable {ε δ : Type}

/-- The original message for the first call, the output of the call before
for every other one. -/
def Feeds (outcomes : Nat → Except ε δ) (message : δ) :
    Nat → δ → Prop
  | 0, input => input = message
  | i + 1, input => outcomes i = .ok input

def handoffs (calls : List (StepCall δ)) : Nat :=
  changes (calls.map StepCall.agentId)

variable (contract : CoalitionContract)
  (outcomes : Nat → Except ε δ) (message : δ)

/-- The calls follow the plan, the members take turns, every call works on
the output of the one before, and at most `cap` handoffs are made. -/
structure InOrder (cap : Int) (calls : List (StepCall δ)) : Prop where
  steps : calls.map StepCall.stepName <+: contract.plannedSteps
  turns : ∀ i call, calls[i]? = some call →
    (contract.members[i % contract.members.length]?).map
      CoalitionMember.agentId = some call.agentId
  inputs : ∀ i call, calls[i]? = some call →
    Feeds outcomes message i call.input
  handoffs : (handoffs calls : Int) ≤ cap

/-- The fallback follows a failed step and gets the original message. -/
structure Conducted (cap : Int) (run : CoalitionRun δ) : Prop where
  stepCalls : InOrder contract outcomes message cap run.stepCalls
  fallback : ∀ call, run.fallbackCall = some call →
    call.input = message ∧
      ∃ failed error,
        run.stepCalls.length = failed + 1 ∧
          outcomes failed = .error error

def AllStepsSucceeded (run : CoalitionRun δ) : Prop :=
  run.stepCalls.length = contract.plannedSteps.length ∧
    ∀ i < run.stepCalls.length, ∃ output, outcomes i = .ok output

def FallbackSucceeded (run : CoalitionRun δ) : Prop :=
  run.fallbackCall.isSome ∧
    ∃ output, outcomes run.stepCalls.length = .ok output

variable {contract outcomes message}

/-- The state the loop is in after `i` steps, all of which succeeded. -/
structure Progress
    (contract : CoalitionContract) (outcomes : Nat → Except ε δ)
    (message : δ) (i : Nat) (state : ExecutionState δ) : Prop where
  calls : InOrder contract outcomes message (max contract.maxHandoffs 0)
    state.calls
  length : state.calls.length = i
  current : Feeds outcomes message i state.currentOutput
  counted : state.handoffCount = handoffs state.calls
  succeeded : ∀ j < i, ∃ output, outcomes j = .ok output

theorem Progress.start :
    Progress contract outcomes message 0 { currentOutput := message } where
  calls :=
    { steps := List.nil_prefix
      turns := by simp
      inputs := by simp
      handoffs := le_max_right contract.maxHandoffs 0 }
  length := rfl
  current := rfl
  counted := rfl
  succeeded := by simp

theorem forall_getElem?_concat
    {α : Type} {property : Nat → α → Prop} {items : List α} {last : α}
    (before : ∀ i item, items[i]? = some item → property i item)
    (here : property items.length last) :
    ∀ i item, (items ++ [last])[i]? = some item → property i item := by
  intro i item found
  rcases lt_trichotomy i items.length with inside | atEnd | beyond
  · rw [List.getElem?_append_left inside] at found
    exact before i item found
  · subst atEnd
    rw [List.getElem?_concat_length] at found
    cases found
    exact here
  · have outside : (items ++ [last]).length ≤ i := by
      simp
      omega
    rw [List.getElem?_eq_none outside] at found
    cases found

theorem members_memberAt
    (nonempty : contract.members ≠ []) (i : Nat) :
    contract.members[i % contract.members.length]? =
      some (contract.memberAt nonempty i) :=
  List.getElem?_eq_getElem
    (Nat.mod_lt i (List.length_pos_of_ne_nil nonempty))

/-- The handoffs after one more call, as the loop counts them. -/
theorem Progress.handoffs_call
    {i : Nat} {state : ExecutionState δ}
    (progress : Progress contract outcomes message i state)
    (nonempty : contract.members ≠ []) (stepName : Json) (input : δ) :
    (handoffs
        (state.calls ++
          [⟨(contract.memberAt nonempty i).agentId, stepName,
            input⟩]) : Int) =
      contract.countHandoff nonempty i state.handoffCount := by
  rw [progress.counted]
  unfold CoalitionContract.countHandoff CoalitionContract.HandsOver
  cases i with
  | zero =>
      have none : state.calls = [] := List.length_eq_zero_iff.mp
        progress.length
      simp [none, handoffs, changes]
  | succ j =>
      have inside : j < state.calls.length := by
        rw [progress.length]
        exact Nat.lt_succ_self j
      have found : state.calls[j]? = some state.calls[j] :=
        List.getElem?_eq_getElem inside
      have turn := progress.calls.turns j state.calls[j] found
      rw [members_memberAt nonempty j] at turn
      have agent : (contract.memberAt nonempty j).agentId =
          state.calls[j].agentId :=
        Option.some.inj turn
      have last : (state.calls.map StepCall.agentId).getLast? =
          some (contract.memberAt nonempty j).agentId := by
        rw [List.getLast?_eq_getElem?, List.length_map, progress.length,
          Nat.add_sub_cancel, List.getElem?_map, found, agent]
        rfl
      have counted := changes_append_of_getLast?
        (contract.memberAt nonempty (j + 1)).agentId last
      unfold handoffs
      rw [List.map_append, List.map_singleton, counted]
      simp only [Nat.zero_lt_succ, Nat.add_sub_cancel, true_and]
      split_ifs with same different <;> simp_all

/-- A call the cap on handoffs lets through keeps the order. -/
theorem Progress.inOrder_call
    {i : Nat} {state : ExecutionState δ}
    (progress : Progress contract outcomes message i state)
    (nonempty : contract.members ≠ []) {stepName : Json}
    {done rest : List Json}
    (names : state.calls.map StepCall.stepName = done)
    (plan : contract.plannedSteps = done ++ stepName :: rest)
    (allowed : ¬ (contract.HandsOver nonempty i ∧
      contract.maxHandoffs <
        contract.countHandoff nonempty i state.handoffCount)) :
    InOrder contract outcomes message (max contract.maxHandoffs 0)
      (state.calls ++ [⟨(contract.memberAt nonempty i).agentId, stepName,
        state.currentOutput⟩]) where
  steps := by
    rw [plan, List.append_cons done, List.map_append, names]
    exact List.prefix_append (done ++ [stepName]) rest
  turns := by
    apply forall_getElem?_concat progress.calls.turns
    rw [progress.length, members_memberAt nonempty i]
    rfl
  inputs := by
    apply forall_getElem?_concat progress.calls.inputs
    rw [progress.length]
    exact progress.current
  handoffs := by
    rw [progress.handoffs_call nonempty]
    have before := progress.calls.handoffs
    rw [← progress.counted] at before
    unfold CoalitionContract.countHandoff at allowed ⊢
    split_ifs at allowed ⊢ with handsOver
    · have within : state.handoffCount + 1 ≤ contract.maxHandoffs :=
        not_lt.mp fun beyond => allowed ⟨handsOver, beyond⟩
      exact within.trans (le_max_left contract.maxHandoffs 0)
    · exact before

theorem conducted_of_inOrder
    {cap : Int} {calls : List (StepCall δ)} {outcome : CoalitionOutcome}
    (ordered : InOrder contract outcomes message cap calls) :
    Conducted contract outcomes message cap
      { stepCalls := calls, outcome } where
  stepCalls := ordered
  fallback := by simp

/-- The account of a run: a cap below zero lets no more through than zero,
and a coalition without members never succeeds. -/
structure Accounted (contract : CoalitionContract)
    (outcomes : Nat → Except ε δ) (message : δ)
    (run : CoalitionRun δ) : Prop where
  conducted : Conducted contract outcomes message
    (max contract.maxHandoffs 0) run
  success : run.outcome.success = true ↔
    (contract.members ≠ [] ∧ AllStepsSucceeded contract outcomes run) ∨
      FallbackSucceeded outcomes run

/-- An exit before the end of the plan, without a fallback, reports no
success. -/
theorem accounted_of_stopped
    {calls : List (StepCall δ)} {outcome : CoalitionOutcome}
    (ordered : InOrder contract outcomes message
      (max contract.maxHandoffs 0) calls)
    (stopped : ¬ AllStepsSucceeded contract outcomes
      { stepCalls := calls, outcome })
    (failed : outcome.success = false) :
    Accounted contract outcomes message { stepCalls := calls, outcome } where
  conducted := conducted_of_inOrder ordered
  success := by
    simp [stopped, failed, FallbackSucceeded]

theorem accounted_afterFailure
    {surroundings : Surroundings ε δ} {taskSignature : String}
    {failed : Nat} {state : ExecutionState δ} {error : ε}
    (ordered : InOrder contract surroundings.outcomes message
      (max contract.maxHandoffs 0) state.calls)
    (length : state.calls.length = failed + 1)
    (raised : surroundings.outcomes failed = .error error) :
    Accounted contract surroundings.outcomes message
      (afterFailure contract surroundings message taskSignature failed
        state) := by
  have unfinished (run : CoalitionRun δ)
      (sameCalls : run.stepCalls = state.calls) :
      ¬ AllStepsSucceeded contract surroundings.outcomes run := by
    rintro ⟨_, succeeded⟩
    rw [sameCalls] at succeeded
    obtain ⟨output, returned⟩ := succeeded failed (by omega)
    rw [raised] at returned
    cases returned
  unfold afterFailure
  cases contract.soloAgent with
  | none =>
      exact accounted_of_stopped ordered (unfinished _ rfl) rfl
  | some preferred =>
      constructor
      · constructor
        · exact ordered
        · intro call called
          cases called
          exact ⟨rfl, failed, error, length, raised⟩
      · cases answer : surroundings.outcomes (failed + 1) with
        | ok output =>
            have succeeded : ∃ result,
                surroundings.outcomes state.calls.length = .ok result :=
              ⟨output, by rw [length, answer]⟩
            exact iff_of_true rfl (.inr ⟨rfl, succeeded⟩)
        | error exception =>
            apply iff_of_false Bool.false_ne_true
            rintro (⟨_, planned⟩ | ⟨_, output, returned⟩)
            · exact unfinished _ rfl planned
            · dsimp only at returned
              rw [length, answer] at returned
              cases returned

theorem accounted_executeSteps
    {surroundings : Surroundings ε δ} {taskSignature : String}
    (nonempty : contract.members ≠ []) (rest : List Json) :
    ∀ (done : List Json) (i : Nat) (state : ExecutionState δ),
      Progress contract surroundings.outcomes message i state →
      state.calls.map StepCall.stepName = done →
      contract.plannedSteps = done ++ rest →
      Accounted contract surroundings.outcomes message
        (executeSteps contract surroundings message taskSignature nonempty
          rest i state) := by
  induction rest with
  | nil =>
      intro done i state progress names plan
      have complete : state.calls.length = contract.plannedSteps.length := by
        rw [plan, List.append_nil, ← names, List.length_map]
      constructor
      · exact conducted_of_inOrder progress.calls
      · have succeeded : ∀ j < state.calls.length,
            ∃ output, surroundings.outcomes j = .ok output := by
          rw [progress.length]
          exact progress.succeeded
        exact iff_of_true rfl (.inl ⟨nonempty, complete, succeeded⟩)
  | cons stepName rest inductionHypothesis =>
      intro done i state progress names plan
      have stopped (run : CoalitionRun δ)
          (sameCalls : run.stepCalls = state.calls) :
          ¬ AllStepsSucceeded contract surroundings.outcomes run := by
        rintro ⟨complete, _⟩
        rw [sameCalls, plan, ← names, List.length_append,
          List.length_map, List.length_cons] at complete
        omega
      unfold executeSteps
      by_cases late : (contract.overallTimeoutMs : Rat) <
          surroundings.elapsedMs (i + 1)
      · rw [if_pos late]
        exact accounted_of_stopped progress.calls (stopped _ rfl) rfl
      · rw [if_neg late]
        dsimp only
        split
        · exact accounted_of_stopped progress.calls (stopped _ rfl) rfl
        · rename_i allowed
          have ordered := progress.inOrder_call nonempty names plan allowed
          have length : (state.calls ++
              [StepCall.mk (contract.memberAt nonempty i).agentId stepName
                state.currentOutput]).length = i + 1 := by
            rw [List.length_append, progress.length]
            rfl
          cases answer : surroundings.outcomes i with
          | error exception =>
              exact accounted_afterFailure ordered length answer
          | ok result =>
              apply inductionHypothesis (done ++ [stepName]) (i + 1)
              · exact
                  { calls := ordered
                    length := length
                    current := answer
                    counted := (progress.handoffs_call nonempty stepName
                      state.currentOutput).symm
                    succeeded := by
                      intro j before
                      rcases Nat.lt_succ_iff_lt_or_eq.mp before with
                        earlier | rfl
                      · exact progress.succeeded j earlier
                      · exact ⟨result, answer⟩ }
              · rw [List.map_append, names]
                rfl
              · rw [plan, List.append_cons]

theorem accounted_executeCoalition
    (contract : CoalitionContract) (surroundings : Surroundings ε δ)
    (message : δ) (taskSignature : String) :
    Accounted contract surroundings.outcomes message
      (executeCoalition contract surroundings message taskSignature) := by
  unfold executeCoalition
  split_ifs with empty
  · have idle : InOrder contract surroundings.outcomes message
        (max contract.maxHandoffs 0) [] :=
      Progress.start.calls
    constructor
    · exact conducted_of_inOrder idle
    · simp [empty, FallbackSucceeded]
  · exact accounted_executeSteps empty contract.plannedSteps [] 0
      { currentOutput := message } Progress.start rfl rfl

end Conduct

/-! ## A negative cap and an empty coalition -/

def soloContract : CoalitionContract :=
  { coalitionId := "c1"
    taskId := "t1"
    members := [⟨"writer", .executor⟩]
    executionPlan :=
      { steps := some [.str "write"], maxHandoffs := some (-1) } }

def emptyContract : CoalitionContract :=
  { coalitionId := "c2", taskId := "t2" }

/-- Every call returns the number one, and the clock stands still. -/
def calm : Surroundings String Nat :=
  { outcomes := fun _ => .ok 1, clock := fun _ => 0 }

/-- With a cap of -1 the first step still runs, and a coalition without
members reports a failure though its plan has no step left. -/
theorem negative_cap_and_empty_coalition :
    (executeCoalition soloContract calm 0 "").stepCalls.length = 1 ∧
      ¬ Conducted soloContract calm.outcomes 0 soloContract.maxHandoffs
        (executeCoalition soloContract calm 0 "") ∧
      ¬ ((executeCoalition emptyContract calm 0
          "").outcome.success = true ↔
        AllStepsSucceeded emptyContract calm.outcomes
            (executeCoalition emptyContract calm 0 "") ∨
          FallbackSucceeded calm.outcomes
            (executeCoalition emptyContract calm 0 "")) := by
  refine ⟨by decide +kernel, ?_, ?_⟩
  · intro conducted
    have capped := conducted.stepCalls.handoffs
    have below : soloContract.maxHandoffs < 0 := by
      decide
    omega
  · intro same
    have reported : (executeCoalition emptyContract calm 0
        "").outcome.success = true :=
      same.mpr (.inl ⟨rfl, by simp [executeCoalition, emptyContract]⟩)
    cases reported

end Agentcy.Coalition
