import Agentcy.Cnp.Feedback
import Agentcy.Library.Run

/-!
# Conservation of the load

The load of an agent is raised by awards and by reassignments to it, and
lowered by feedback that is counted for it.  Beside the registry the state
keeps the awards that are outstanding, which no service records: an award ends
with an explicit outcome of its task, or when the task is reassigned away.  The
load follows them exactly as long as each step lowers it by what it ends.
-/

namespace Agentcy.Cnp

open Agentcy.Library

structure Award where
  agentId : String
  taskId : String
  deriving DecidableEq

structure LoadState where
  registry : Registry
  /-- The awards whose task has no explicit outcome yet and was not reassigned
  away. -/
  outstanding : List Award := []

/-- An award of a task, a reassignment with the evaluation sequence that the
handler finds, or one feedback entry, with the tasks that have a valid
specification then. -/
inductive LoadEvent where
  | award (taskId bidderId : String)
  | reassign (taskId failedAgentId : String)
      (sequence : Option Runs.EvaluationSequence)
  | feedback (specs : List String) (entry : Fields)

/-- What the services read outside the stores: the built-ins, and the value of
`CNP_LMAX_DEFAULT`. -/
structure CnpSetup where
  python : PyBuiltins
  lmaxDefault : Int := 3

/-- The task of which an entry is an explicit success or failure. -/
def explicitTask? (python : PyBuiltins) (entry : Fields) :
    Option String :=
  match entryIds? python entry, reportedSuccess python entry with
  | some ids, some _ => some ids.taskId
  | _, _ => none

variable (setup : CnpSetup)

def LoadState.step (state : LoadState) : LoadEvent → LoadState
  | .award taskId bidderId =>
      { registry :=
          incrementAgentLoad setup.lmaxDefault state.registry bidderId
        outstanding := ⟨bidderId, taskId⟩ :: state.outstanding }
  | .reassign taskId failedAgentId sequence =>
      { registry :=
          handleReassignTask setup.lmaxDefault state.registry sequence
        outstanding :=
          match newCandidate? sequence with
          | none => state.outstanding
          | some candidate =>
              ⟨candidate.bidderId, taskId⟩ ::
                state.outstanding.filter fun award =>
                  decide (award ≠ ⟨failedAgentId, taskId⟩) }
  | .feedback specs entry =>
      { registry :=
          countEntry setup.python setup.lmaxDefault specs state.registry
            entry
        outstanding :=
          match explicitTask? setup.python entry with
          | none => state.outstanding
          | some taskId =>
              state.outstanding.filter fun award =>
                decide (award.taskId ≠ taskId) }

/-- The registry that a list of feedback entries leaves is that of the entries
one by one. -/
theorem run_feedback_registry
    (specs : List String) (state : LoadState) (feedback : List Fields) :
    (run (LoadState.step setup) state
        (feedback.map (LoadEvent.feedback specs))).registry =
      updateAgentRegistry setup.python setup.lmaxDefault specs
        state.registry feedback := by
  induction feedback generalizing state with
  | nil =>
      rfl
  | cons entry rest inductionHypothesis =>
      exact inductionHypothesis _

variable (agent : String)

/-- How many awards of the agent are outstanding. -/
def LoadState.outstandingOf (state : LoadState) : Nat :=
  state.outstanding.countP fun award => decide (award.agentId = agent)

/-- How many of them are for the task. -/
def LoadState.heldFor (state : LoadState) (taskId : String) : Nat :=
  state.outstanding.countP fun award => decide (award = ⟨agent, taskId⟩)

def LoadState.counters? (state : LoadState) : Option CnpState :=
  (state.registry.get? agent).map (agentCnpState setup.lmaxDefault)

/-- The stored load is the initial one and the outstanding awards. -/
def LoadConserved (initial : Int) (state : LoadState) : Prop :=
  ∃ counters, state.counters? setup agent = some counters ∧
    counters.load = initial + state.outstandingOf agent

/-- The agent has the capacity for its awards. -/
def WithinCapacity (initial : Int) (state : LoadState) : Prop :=
  ∀ counters, state.counters? setup agent = some counters →
    initial + state.outstandingOf agent ≤ counters.maxLoad

/-- How many awards of the agent an entry ends. -/
def LoadState.ended (state : LoadState) (entry : Fields) : Nat :=
  match explicitTask? setup.python entry with
  | none => 0
  | some taskId => state.heldFor agent taskId

/-- A step that lowers the load of the agent by as much as it ends awards of
it.  A reassignment lowers nothing: the agent must not hold the task any more,
or get it back at its full load.  An entry that is counted for the agent must
end one award of it, unless there is nothing to lower, and any other entry
none. -/
def Accounted (state : LoadState) : LoadEvent → Prop
  | .award _ _ => True
  | .reassign taskId failedAgentId sequence =>
      ∀ candidate, newCandidate? sequence = some candidate →
        failedAgentId = agent →
        state.heldFor agent taskId = 0 ∨
          (state.heldFor agent taskId = 1 ∧ candidate.bidderId = agent ∧
            ∀ counters, state.counters? setup agent = some counters →
              counters.load = counters.maxLoad)
  | .feedback specs entry =>
      (Counted setup.python specs agent entry →
        ∀ counters, state.counters? setup agent = some counters →
          (0 < counters.load ∧ state.ended setup agent entry = 1) ∨
            (counters.load = 0 ∧ state.ended setup agent entry = 0)) ∧
      (¬ Counted setup.python specs agent entry →
        state.ended setup agent entry = 0)

variable {setup agent}

/-- What an award to some agent does to the load and the maximum of one. -/
theorem counters_of_increment
    {registry : Registry} (awarded : String) {before : CnpState}
    (found :
      (registry.get? agent).map (agentCnpState setup.lmaxDefault) =
        some before) :
    ∃ after,
      ((incrementAgentLoad setup.lmaxDefault registry awarded).get?
        agent).map (agentCnpState setup.lmaxDefault) = some after ∧
      after.maxLoad = before.maxLoad ∧
      after.load =
        if agent = awarded then min (before.load + 1) before.maxLoad
        else before.load := by
  obtain ⟨doc, stored, rfl⟩ := Option.map_eq_some_iff.mp found
  rw [get?_incrementAgentLoad, stored]
  split
  · exact ⟨_, rfl, rfl, rfl⟩
  · exact ⟨_, rfl, rfl, rfl⟩

theorem counters_of_counted
    {registry : Registry} {specs : List String} {entry : Fields}
    {before : CnpState}
    (counted : Counted setup.python specs agent entry)
    (found :
      (registry.get? agent).map (agentCnpState setup.lmaxDefault) =
        some before) :
    ∃ after,
      ((countEntry setup.python setup.lmaxDefault specs registry
        entry).get? agent).map (agentCnpState setup.lmaxDefault) =
          some after ∧
      after.load = max (before.load - 1) 0 := by
  obtain ⟨doc, stored, rfl⟩ := Option.map_eq_some_iff.mp found
  obtain ⟨success, lowered⟩ :=
    get?_countEntry_of_counted setup.lmaxDefault registry counted
  rw [lowered, stored]
  exact ⟨_, rfl, rfl⟩

theorem loadConserved_iff
    {initial : Int} {state : LoadState} {counters : CnpState}
    (found : state.counters? setup agent = some counters) :
    LoadConserved setup agent initial state ↔
      counters.load = initial + state.outstandingOf agent := by
  constructor
  · rintro ⟨read, same, law⟩
    rw [found] at same
    cases same
    exact law
  · intro law
    exact ⟨counters, found, law⟩

theorem countP_split
    (outstanding : List Award) (counted kept : Award → Bool) :
    outstanding.countP counted =
      (outstanding.filter kept).countP counted +
        outstanding.countP fun award => counted award && !kept award := by
  rw [List.countP_eq_countP_filter_add _ counted kept, List.countP_filter
    (p := counted) (q := fun award => !kept award)]

theorem withinCapacity_of_le
    {initial : Int} {state : LoadState} {counters : CnpState}
    (found : state.counters? setup agent = some counters)
    (room : initial + state.outstandingOf agent ≤ counters.maxLoad) :
    WithinCapacity setup agent initial state := by
  intro read same
  rw [found] at same
  cases same
  exact room

/-- The awards of an agent are those for a task and those for others. -/
theorem outstandingOf_resolved (state : LoadState) (taskId : String) :
    state.outstandingOf agent =
      (state.outstanding.filter fun award =>
          decide (award.taskId ≠ taskId)).countP
          (fun award => decide (award.agentId = agent)) +
        state.heldFor agent taskId := by
  rw [LoadState.outstandingOf,
    countP_split _ _ fun award => decide (award.taskId ≠ taskId),
    LoadState.heldFor]
  congr 1
  apply List.countP_congr
  rintro ⟨holder, task⟩ _
  simp

theorem outstandingOf_reassigned
    (agent : String) (state : LoadState) (taskId failedAgentId : String) :
    state.outstandingOf agent =
      (state.outstanding.filter fun award =>
          decide (award ≠ ⟨failedAgentId, taskId⟩)).countP
          (fun award => decide (award.agentId = agent)) +
        if failedAgentId = agent then state.heldFor agent taskId
        else 0 := by
  rw [LoadState.outstandingOf,
    countP_split _ _ fun award => decide (award ≠ ⟨failedAgentId, taskId⟩),
    LoadState.heldFor]
  congr 1
  split
  · rename_i same
    subst same
    apply List.countP_congr
    rintro ⟨holder, task⟩ _
    simp +contextual
  · rename_i different
    rw [List.countP_eq_zero]
    rintro ⟨holder, task⟩ _
    simp only [Bool.and_eq_true, decide_eq_true_eq, Bool.not_eq_true',
      decide_eq_false_iff_not, not_not, Award.mk.injEq]
    rintro ⟨rfl, rfl, -⟩
    exact different rfl

/-! ## The law as a condition on the steps -/

theorem countP_agent_cons
    (holder taskId : String) (outstanding : List Award) :
    (⟨holder, taskId⟩ :: outstanding : List Award).countP
        (fun award => decide (award.agentId = agent)) =
      outstanding.countP (fun award => decide (award.agentId = agent)) +
        if agent = holder then 1 else 0 := by
  by_cases mine : agent = holder
  · simp [mine]
  · simp [mine, Ne.symm mine]

theorem conserved_of_award
    {initial : Int} {state : LoadState} {taskId bidderId : String}
    (conserved : LoadConserved setup agent initial state)
    (capacity : WithinCapacity setup agent initial
      (state.step setup (.award taskId bidderId))) :
    LoadConserved setup agent initial
      (state.step setup (.award taskId bidderId)) := by
  obtain ⟨before, found, law⟩ := conserved
  obtain ⟨after, read, sameMax, load⟩ :=
    counters_of_increment bidderId found
  have room := capacity after read
  refine ⟨after, read, ?_⟩
  have count : (state.step setup (.award taskId bidderId)).outstandingOf
      agent = state.outstandingOf agent + if agent = bidderId then 1 else 0 :=
    countP_agent_cons bidderId taskId state.outstanding
  rw [count] at room ⊢
  by_cases mine : agent = bidderId
  · rw [if_pos mine] at load room ⊢
    omega
  · rw [if_neg mine] at load room ⊢
    omega

theorem conserved_reassign_iff
    {initial : Int} {state : LoadState} {taskId failedAgentId : String}
    {sequence : Option Runs.EvaluationSequence}
    (conserved : LoadConserved setup agent initial state)
    (within : WithinCapacity setup agent initial state)
    (capacity : WithinCapacity setup agent initial
      (state.step setup (.reassign taskId failedAgentId sequence))) :
    LoadConserved setup agent initial
        (state.step setup (.reassign taskId failedAgentId sequence)) ↔
      Accounted setup agent state
        (.reassign taskId failedAgentId sequence) := by
  obtain ⟨before, found, law⟩ := conserved
  have roomBefore := within before found
  cases new : newCandidate? sequence with
  | none =>
      -- The handler stops before it changes anything.
      have unchanged :
          state.step setup (.reassign taskId failedAgentId sequence) =
            state := by
        simp [LoadState.step, handleReassignTask, new]
      rw [unchanged]
      refine iff_of_true ⟨before, found, law⟩ ?_
      intro candidate some
      rw [new] at some
      cases some
  | some candidate =>
      obtain ⟨after, read, sameMax, load⟩ :=
        counters_of_increment candidate.bidderId found
      have stored :
          (state.step setup
            (.reassign taskId failedAgentId sequence)).counters? setup
              agent = some after := by
        simpa [LoadState.step, LoadState.counters?, handleReassignTask, new]
          using read
      have count :
          (state.step setup (.reassign taskId failedAgentId
            sequence)).outstandingOf agent =
          (state.outstanding.filter fun award =>
              decide (award ≠ ⟨failedAgentId, taskId⟩)).countP
              (fun award => decide (award.agentId = agent)) +
            if agent = candidate.bidderId then 1 else 0 := by
        rw [LoadState.outstandingOf]
        simp only [LoadState.step, new]
        exact countP_agent_cons _ _ _
      have room := capacity after stored
      have split :=
        outstandingOf_reassigned agent state taskId failedAgentId
      have condition :
          Accounted setup agent state
              (.reassign taskId failedAgentId sequence) ↔
            (failedAgentId = agent →
              state.heldFor agent taskId = 0 ∨
                (state.heldFor agent taskId = 1 ∧
                  candidate.bidderId = agent ∧
                  before.load = before.maxLoad)) := by
        simp only [Accounted, new, found, Option.some.injEq, forall_eq']
      rw [loadConserved_iff stored, count, condition]
      rw [count] at room
      by_cases failed : failedAgentId = agent
      · subst failed
        rw [if_pos rfl] at split
        by_cases mine : failedAgentId = candidate.bidderId
        · rw [if_pos mine] at load room ⊢
          simp only [mine.symm, true_and, forall_const]
          omega
        · rw [if_neg mine] at load room ⊢
          simp only [Ne.symm mine, false_and, and_false, or_false,
            forall_const]
          omega
      · rw [if_neg failed] at split
        simp only [failed, false_implies, iff_true]
        by_cases mine : agent = candidate.bidderId
        · rw [if_pos mine] at load room ⊢
          omega
        · rw [if_neg mine] at load room ⊢
          omega

theorem conserved_feedback_iff
    {initial : Int} {state : LoadState} {specs : List String}
    {entry : Fields}
    (conserved : LoadConserved setup agent initial state) :
    LoadConserved setup agent initial
        (state.step setup (.feedback specs entry)) ↔
      Accounted setup agent state (.feedback specs entry) := by
  obtain ⟨before, found, law⟩ := conserved
  have split :
      state.outstandingOf agent =
        (state.step setup (.feedback specs entry)).outstandingOf agent +
          state.ended setup agent entry := by
    simp only [LoadState.step, LoadState.ended, LoadState.outstandingOf]
    cases explicitTask? setup.python entry with
    | none =>
        rfl
    | some taskId =>
        exact outstandingOf_resolved state taskId
  by_cases counted : Counted setup.python specs agent entry
  · obtain ⟨after, read, load⟩ := counters_of_counted counted found
    have condition :
        Accounted setup agent state (.feedback specs entry) ↔
          (0 < before.load ∧ state.ended setup agent entry = 1) ∨
            (before.load = 0 ∧ state.ended setup agent entry = 0) := by
      simp only [Accounted, counted, found, Option.some.injEq, forall_eq',
        forall_const, not_true_eq_false, false_implies, and_true]
    have stored :
        (state.step setup (.feedback specs entry)).counters? setup agent =
          some after :=
      read
    rw [loadConserved_iff stored, condition]
    omega
  · have read :
        (state.step setup (.feedback specs entry)).counters? setup agent =
          some before := by
      rw [← found, LoadState.counters?, LoadState.step,
        get?_countEntry_of_not_counted setup.lmaxDefault _ counted]
      rfl
    have condition :
        Accounted setup agent state (.feedback specs entry) ↔
          state.ended setup agent entry = 0 := by
      simp only [Accounted, counted, false_implies, not_false_eq_true,
        forall_const, true_and]
    rw [loadConserved_iff read, condition]
    omega

/-- An agent with the capacity for its awards has the initial load and its
outstanding awards, throughout a run, exactly if every step of the run lowers
its load by what it ends. -/
theorem load_conserved_iff
    (setup : CnpSetup) (agent : String) (registry : Registry)
    (doc : AgentDoc) (registered : registry.get? agent = some doc)
    (events : List LoadEvent)
    (capacity :
      EveryState (LoadState.step setup)
        (WithinCapacity setup agent
          (agentCnpState setup.lmaxDefault doc).load)
        ⟨registry, []⟩ events) :
    EveryState (LoadState.step setup)
        (LoadConserved setup agent
          (agentCnpState setup.lmaxDefault doc).load)
        ⟨registry, []⟩ events ↔
      EveryStep (LoadState.step setup) (Accounted setup agent)
        ⟨registry, []⟩ events := by
  have initially :
      LoadConserved setup agent (agentCnpState setup.lmaxDefault doc).load
        ⟨registry, []⟩ := by
    refine ⟨agentCnpState setup.lmaxDefault doc, ?_, ?_⟩
    · rw [LoadState.counters?, registered, Option.map_some]
    · exact (add_zero _).symm
  have within := (everyState_iff_prefixes _ _ _ _).mp capacity [] events rfl
  refine
    everyState_iff_everyStep_of_allowed
      (fun state =>
        LoadConserved setup agent
            (agentCnpState setup.lmaxDefault doc).load state ∧
          WithinCapacity setup agent
            (agentCnpState setup.lmaxDefault doc).load state)
      (fun _ good => good.1) ?_ (fun _ _ _ allowed after => ⟨after, allowed⟩)
      ⟨initially, within⟩ (everyStep_after_of_everyState capacity)
  rintro state event ⟨conserved, room⟩ allowed
  cases event with
  | award taskId bidderId =>
      exact iff_of_true (conserved_of_award conserved allowed) trivial
  | reassign taskId failedAgentId sequence =>
      exact conserved_reassign_iff conserved room allowed
  | feedback specs entry =>
      exact conserved_feedback_iff conserved

/-- Built-ins for text in ASCII. -/
def asciiSetup : CnpSetup where
  python := ⟨fun _ => "", fun _ => .error .typeError, fun text => text,
    fun text => text⟩

def newAgent : Registry := OrderedMap.empty.set "agent-1" {}

/-- The entry that an execution report gives for a task. -/
def reportOf (success : Bool) : Fields :=
  feedbackOf ⟨"clean", .str "agent-1", success, none⟩ .null []

def awardAndReport (success : Bool) : List LoadEvent :=
  [.award "clean" "agent-1", .feedback ["clean"] (reportOf success)]

theorem awardAndReport_within (success : Bool) :
    EveryState (LoadState.step asciiSetup)
      (WithinCapacity asciiSetup "agent-1" 0) ⟨newAgent, []⟩
      (awardAndReport success) := by
  cases success <;>
    exact ⟨withinCapacity_of_le rfl (by decide),
      withinCapacity_of_le rfl (by decide),
      withinCapacity_of_le rfl (by decide)⟩

theorem reported_success_conserves_load :
    EveryState (LoadState.step asciiSetup)
        (LoadConserved asciiSetup "agent-1" 0) ⟨newAgent, []⟩
        (awardAndReport true) ↔
      EveryStep (LoadState.step asciiSetup)
        (Accounted asciiSetup "agent-1") ⟨newAgent, []⟩
        (awardAndReport true) :=
  load_conserved_iff asciiSetup "agent-1" newAgent {} rfl
    (awardAndReport true) (awardAndReport_within true)

/-- A failure of which the execution report says nothing but that it is one is
not counted: the agent keeps the load of a task that it is done with. -/
theorem reported_failure_keeps_load :
    EveryState (LoadState.step asciiSetup)
        (WithinCapacity asciiSetup "agent-1" 0) ⟨newAgent, []⟩
        (awardAndReport false) ∧
      ¬ EveryState (LoadState.step asciiSetup)
        (LoadConserved asciiSetup "agent-1" 0) ⟨newAgent, []⟩
        (awardAndReport false) := by
  refine ⟨awardAndReport_within false, ?_⟩
  rintro ⟨_, _, last⟩
  have law := (loadConserved_iff rfl).mp last
  exact absurd law (by decide)

end Agentcy.Cnp
