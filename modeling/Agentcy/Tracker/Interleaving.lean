import Agentcy.Library.SharedCell
import Agentcy.Tracker.System

/-!
# Calls of different trackers on one run

The lock around a call belongs to one tracker object, and every forwarder owns
a tracker.  Calls of different trackers on one run therefore interleave, each
with a read of the run document and a later replacement of all of it.  Seen
through the task statuses, the stored document is a shared cell.
-/

namespace Agentcy.Tracker

open Agentcy.Library
open Agentcy.Library.SharedCell
open Agentcy.Runs

universe u

/-- A call of `on_task_done`, with the state of the tracker that makes it. -/
structure Call where
  tracker : TrackerState := {}
  clock : Clock
  faults : Faults := {}
  event : TaskState

namespace Call

def readHalf (call : Call) (stores : Stores) : Option Admitted :=
  landing? call.clock call.faults call.tracker stores call.event

def writeHalf
    (env : TrackerEnv) (call : Call) (stores : Stores)
    (admitted : Admitted) : Stores :=
  let closed :=
    closeUpdate env call.clock call.faults stores admitted call.event
  closed.stores.updateRun call.event.runKey closed.run.modelDump

/-- The two halves with nothing between them are the whole call. -/
theorem onTaskDone_stores_eq_writeHalf
    (env : TrackerEnv) {call : Call} {stores : Stores}
    {admitted : Admitted}
    (reads : call.readHalf stores = some admitted) :
    (onTaskDone env call.clock call.faults call.tracker stores
      call.event).stores = call.writeHalf env stores admitted :=
  (onTaskDone_of_landing env reads).1

end Call

def Admitted.taskStatus? (admitted : Admitted) (taskId : String) :
    Option TaskStatus :=
  (admitted.run.tasks.get? taskId).map TaskState.status

theorem Call.taskStatus?_readHalf
    {call : Call} {stores : Stores} {admitted : Admitted}
    (reads : call.readHalf stores = some admitted) :
    admitted.taskStatus? =
      storedTaskStatus? stores call.event.runKey := by
  obtain ⟨_, _, doc, stored, accepted⟩ := landing?_some reads
  obtain ⟨sameRun, _, _⟩ := acceptEvent_ok accepted
  funext taskId
  simp [Admitted.taskStatus?, storedTaskStatus?, stored,
    RunDoc.taskStatus?, sameRun]

/-- A write shows what had been read, with the reported task changed. -/
theorem Call.storedTaskStatus?_writeHalf
    (env : TrackerEnv) (call : Call) (stores : Stores)
    (admitted : Admitted) :
    storedTaskStatus? (call.writeHalf env stores admitted)
        call.event.runKey =
      Function.update admitted.taskStatus? call.event.taskId
        (some call.event.status) := by
  funext taskId
  simp only [storedTaskStatus?, writeHalf,
    Stores.readRun_updateRun_self, Option.bind_some,
    RunDoc.taskStatus?, PipelineRun.modelDump, closeUpdate_tasks,
    OrderedMap.get?_set]
  by_cases same : taskId = call.event.taskId
  · simp [same]
  · simp [same, Admitted.taskStatus?]

/-- The stores, and what every call holds from its read. -/
structure Interleaved (ι : Type u) where
  stores : Stores
  admitted : ι → Option Admitted := fun _ => none

variable {ι : Type u} [DecidableEq ι]

def Interleaved.step
    (env : TrackerEnv) (calls : ι → Call) (state : Interleaved ι) :
    Access ι → Interleaved ι
  | .read caller =>
      { state with
        admitted :=
          Function.update state.admitted caller
            ((calls caller).readHalf state.stores) }
  | .replace caller =>
      match state.admitted caller with
      | none => state
      | some admitted =>
          { stores := (calls caller).writeHalf env state.stores admitted
            admitted := Function.update state.admitted caller none }

/-- Calls on one run for distinct tasks, each of which goes through when it
meets the initial document. -/
structure AcceptedCalls
    (calls : ι → Call) (key : String) (stores : Stores) : Prop where
  sameRun : ∀ caller, (calls caller).event.runKey = key
  distinctTasks :
    Function.Injective fun caller => (calls caller).event.taskId
  accepted : ∀ caller, ((calls caller).readHalf stores).isSome

/-- The change of a call to the statuses it had read. -/
def reportStatus
    (calls : ι → Call) (caller : ι)
    (statuses : String → Option TaskStatus) :
    String → Option TaskStatus :=
  Function.update statuses (calls caller).event.taskId
    (some (calls caller).event.status)

/-- The interleaved calls seen as a shared cell of task statuses. -/
def Mirrors
    (key : String) (state : Interleaved ι)
    (cell : Cell ι (String → Option TaskStatus)) : Prop :=
  storedTaskStatus? state.stores key = cell.stored ∧
    ∀ caller,
      (state.admitted caller).map Admitted.taskStatus? =
        cell.held caller

theorem applyAll_reportStatus
    {calls : ι → Call} {key : String} {stores : Stores}
    (valid : AcceptedCalls calls key stores)
    (statuses : String → Option TaskStatus)
    (chain : List ι) (caller : ι) :
    applyAll (reportStatus calls) statuses chain
        (calls caller).event.taskId =
      if caller ∈ chain then some (calls caller).event.status
      else statuses (calls caller).event.taskId := by
  induction chain using List.reverseRecOn with
  | nil =>
      rfl
  | append_singleton chain last inductionHypothesis =>
      have unfolded :
          applyAll (reportStatus calls) statuses (chain ++ [last]) =
            reportStatus calls last
              (applyAll (reportStatus calls) statuses chain) := by
        simp [applyAll]
      rw [unfolded, reportStatus]
      by_cases same : caller = last
      · simp [same]
      · have differentTask :
            (calls caller).event.taskId ≠ (calls last).event.taskId :=
          fun equal => same (valid.distinctTasks equal)
        rw [Function.update_of_ne differentTask, inductionHypothesis]
        simp [same]

section Simulation

variable (env : TrackerEnv) {calls : ι → Call} {key : String}
  {stores : Stores}

theorem mirrors_read
    (valid : AcceptedCalls calls key stores)
    {state : Interleaved ι}
    {cell : Cell ι (String → Option TaskStatus)}
    (mirrors : Mirrors key state cell) (caller : ι)
    (untouched :
      cell.stored (calls caller).event.taskId =
        storedTaskStatus? stores key (calls caller).event.taskId) :
    Mirrors key (state.step env calls (.read caller))
      (cell.step (reportStatus calls) (.read caller)) := by
  obtain ⟨sameStored, sameHeld⟩ := mirrors
  have stillAccepted : ((calls caller).readHalf state.stores).isSome := by
    have accepted := valid.accepted caller
    rw [Call.readHalf, landing?_isSome_iff] at accepted ⊢
    rwa [valid.sameRun caller, sameStored, untouched,
      ← valid.sameRun caller]
  obtain ⟨admitted, reads⟩ := Option.isSome_iff_exists.mp stillAccepted
  refine ⟨sameStored, ?_⟩
  intro tested
  by_cases same : tested = caller
  · subst same
    simp [Interleaved.step, Cell.step, reads,
      Call.taskStatus?_readHalf reads, valid.sameRun tested, sameStored]
  · simpa [Interleaved.step, Cell.step, same] using sameHeld tested

theorem mirrors_replace
    (valid : AcceptedCalls calls key stores)
    {state : Interleaved ι}
    {cell : Cell ι (String → Option TaskStatus)}
    (mirrors : Mirrors key state cell) (caller : ι) :
    Mirrors key (state.step env calls (.replace caller))
      (cell.step (reportStatus calls) (.replace caller)) := by
  obtain ⟨sameStored, sameHeld⟩ := mirrors
  have heldHere := sameHeld caller
  cases holds : state.admitted caller with
  | none =>
      rw [holds, Option.map_none] at heldHere
      simp only [Interleaved.step, Cell.step, holds, ← heldHere]
      exact ⟨sameStored, sameHeld⟩
  | some admitted =>
      rw [holds, Option.map_some] at heldHere
      simp only [Interleaved.step, Cell.step, holds, ← heldHere]
      constructor
      · have written :=
          Call.storedTaskStatus?_writeHalf env (calls caller)
            state.stores admitted
        rw [valid.sameRun caller] at written
        exact written
      · intro tested
        by_cases same : tested = caller
        · simp [same]
        · simpa [same] using sameHeld tested

/-- Every prefix of a complete schedule is a run of the shared cell. -/
theorem mirrors_run
    (valid : AcceptedCalls calls key stores)
    {schedule : List (Access ι)} (complete : Complete schedule)
    {before after : List (Access ι)}
    (split : schedule = before ++ after) :
    Mirrors key
      (run (Interleaved.step env calls) { stores := stores } before)
      (run (Cell.step (reportStatus calls))
        (Cell.initial (storedTaskStatus? stores key)) before) := by
  induction before using List.reverseRecOn generalizing after with
  | nil =>
      exact ⟨rfl, fun _ => rfl⟩
  | append_singleton before access inductionHypothesis =>
      have splitHere : schedule = before ++ access :: after := by
        simpa using split
      have mirrors := inductionHypothesis splitHere
      rw [run_append, run_append]
      cases access with
      | read caller =>
          refine mirrors_read env valid mirrors caller ?_
          -- the caller has not written yet, so its task is as it was
          have absent : caller ∉ (history before).stored := fun member =>
            complete.replace_not_mem_before_read splitHere
              (replace_mem_of_recorded.1 member)
          rw [run_eq_map_history]
          exact
            (applyAll_reportStatus valid _ _ caller).trans
              (if_neg absent)
      | replace caller =>
          exact mirrors_replace env valid mirrors caller

end Simulation

/-! ## Lost reports -/

/-- The stored document contains the status that every call reported. -/
def ReportsKept
    (calls : ι → Call) (key : String) (stores : Stores) : Prop :=
  ∀ caller,
    storedTaskStatus? stores key (calls caller).event.taskId =
      some (calls caller).event.status

/-- A report is kept exactly when its write belongs to the chain that leads
from the last write back through what each write had read, or when it only
repeats the status that was stored before. -/
theorem reportsKept_iff
    (env : TrackerEnv) (calls : ι → Call) (key : String)
    (stores : Stores) (valid : AcceptedCalls calls key stores)
    (schedule : List (Access ι)) (complete : Complete schedule) :
    ReportsKept calls key
        (run (Interleaved.step env calls) { stores := stores }
          schedule).stores ↔
      ∀ caller,
        caller ∈ survivors schedule ∨
          storedTaskStatus? stores key (calls caller).event.taskId =
            some (calls caller).event.status := by
  have final :=
    (mirrors_run env valid complete
      (List.append_nil schedule).symm).1
  rw [run_eq_map_history] at final
  refine forall_congr' fun caller => ?_
  rw [final]
  have status :=
    applyAll_reportStatus valid (storedTaskStatus? stores key)
      (survivors schedule) caller
  refine Iff.trans (Eq.congr_left status) ?_
  by_cases kept : caller ∈ survivors schedule
  · simp [kept]
  · simp [kept]

/-- When every report changes the status of its task, no report is lost
exactly when no write falls between another call's read and write. -/
theorem reportsKept_iff_undisturbed
    [Fintype ι] (env : TrackerEnv) (calls : ι → Call) (key : String)
    (stores : Stores) (valid : AcceptedCalls calls key stores)
    (schedule : List (Access ι)) (complete : Complete schedule)
    (changes : ∀ caller,
      storedTaskStatus? stores key (calls caller).event.taskId ≠
        some (calls caller).event.status) :
    ReportsKept calls key
        (run (Interleaved.step env calls) { stores := stores }
          schedule).stores ↔
      Undisturbed schedule := by
  rw [reportsKept_iff env calls key stores valid schedule complete,
    ← complete.all_survive_iff]
  exact forall_congr' fun caller => or_iff_left (changes caller)

def bothFinalStores : Stores where
  runs := fun key =>
    if key = runKey "alice" "pipe-1" "run-1" then
      some (seedInitialRun "alice" "pipe-1" "run-1"
        { taskDict := .ofList
            [("a", { isFinalTask := true }),
              ("b", { isFinalTask := true })] }
        none 0).modelDump
    else
      none

def twoCompletions (caller : Fin 2) : Call where
  clock := ⟨0, 0, 0⟩
  event :=
    { status := .completed
      pipelineRunId := "run-1"
      taskId := if caller = 0 then "a" else "b"
      username := "alice"
      pipelineId := "pipe-1" }

def overlapping : List (Access (Fin 2)) :=
  [.read 0, .read 1, .replace 0, .replace 1]

theorem twoCompletions_accepted :
    AcceptedCalls twoCompletions (runKey "alice" "pipe-1" "run-1")
      bothFinalStores where
  sameRun := by
    intro caller
    rfl
  distinctTasks := by
    intro first second
    revert first second
    decide +kernel
  accepted := by
    decide +kernel

theorem overlapping_complete : Complete overlapping := by
  intro client
  revert client
  decide +kernel

/-- The general statement at two completions whose halves overlap. -/
theorem overlapping_reportsKept_iff :
    ReportsKept twoCompletions (runKey "alice" "pipe-1" "run-1")
        (run (Interleaved.step {} twoCompletions)
          { stores := bothFinalStores } overlapping).stores ↔
      ∀ caller,
        caller ∈ survivors overlapping ∨
          storedTaskStatus? bothFinalStores
              (runKey "alice" "pipe-1" "run-1")
              (twoCompletions caller).event.taskId =
            some (twoCompletions caller).event.status :=
  reportsKept_iff {} twoCompletions _ bothFinalStores
    twoCompletions_accepted overlapping overlapping_complete

theorem overlapping_completion_lost :
    AcceptedCalls twoCompletions (runKey "alice" "pipe-1" "run-1")
        bothFinalStores ∧
      Complete overlapping ∧
      ¬ ReportsKept twoCompletions (runKey "alice" "pipe-1" "run-1")
        (run (Interleaved.step {} twoCompletions)
          { stores := bothFinalStores } overlapping).stores := by
  refine ⟨twoCompletions_accepted, overlapping_complete, ?_⟩
  intro kept
  have first := kept 0
  revert first
  decide +kernel

end Agentcy.Tracker
