import Agentcy.Library.Run
import Agentcy.Tracker.CallSpec

/-!
# Events processed one after another

Every forwarder owns a tracker, so a run is reported to by several trackers
that share the stores and nothing else.  This module is the sequential case:
one report at a time, each handled by some tracker.
-/

namespace Agentcy.Tracker

open Agentcy.Library
open Agentcy.Runs

structure System where
  trackers : Nat → TrackerState := fun _ => {}
  stores : Stores

/-- One task event on its way to the tracker that handles it. -/
structure Report where
  tracker : Nat := 0
  clock : Clock
  faults : Faults := {}
  event : TaskState

def storedStatus? (stores : Stores) (key : String) :
    Option PipelineStatus :=
  (stores.readRun key).map fun doc => doc.run.status

def storedTaskStatus? (stores : Stores) (key taskId : String) :
    Option TaskStatus :=
  (stores.readRun key).bind fun doc => doc.taskStatus? taskId

/-- Whether a call lands depends on the stored document only through the
status of the task it reports. -/
theorem landing?_isSome_iff
    (clock : Clock) (faults : Faults) (tracker : TrackerState)
    (stores : Stores) (event : TaskState) :
    (landing? clock faults tracker stores event).isSome ↔
      remembered clock tracker event = false ∧
        faults.updateRunFails = false ∧
        ∃ status,
          storedTaskStatus? stores event.runKey event.taskId =
              some status ∧
            forwardOnly status event.status := by
  constructor
  · intro reads
    obtain ⟨admitted, lands⟩ := Option.isSome_iff_exists.mp reads
    obtain ⟨fresh, written, doc, stored, accepted⟩ :=
      landing?_some lands
    obtain ⟨_, found, forward⟩ := acceptEvent_ok accepted
    refine ⟨fresh, written, admitted.prevTask.status, ?_, ?_⟩
    · simp [storedTaskStatus?, stored, RunDoc.taskStatus?, found]
    · simpa [forwardOnly] using forward
  · rintro ⟨fresh, written, status, storedTask, forward⟩
    obtain ⟨doc, stored, taskStatus⟩ :=
      Option.bind_eq_some_iff.mp storedTask
    obtain ⟨prevTask, found, sameStatus⟩ :=
      Option.map_eq_some_iff.mp taskStatus
    rw [← sameStatus] at forward
    simp [landing?, fresh, written, stored, acceptEvent, found, forward,
      Except.toOption]

section Call

variable (env : TrackerEnv) {clock : Clock} {faults : Faults}
  {tracker : TrackerState} {stores : Stores} {event : TaskState}

theorem storedStatus?_onTaskDone_of_no_landing
    (misses : landing? clock faults tracker stores event = none)
    (key : String) :
    storedStatus?
        (onTaskDone env clock faults tracker stores event).stores key =
      storedStatus? stores key := by
  rw [storedStatus?, (onTaskDone_of_no_landing env misses).2 key]
  rfl

theorem storedStatus?_onTaskDone_of_landing {admitted : Admitted}
    (lands : landing? clock faults tracker stores event = some admitted) :
    storedStatus?
        (onTaskDone env clock faults tracker stores event).stores
        event.runKey =
      some (decidedStatus env stores admitted event) := by
  rw [storedStatus?, (onTaskDone_of_landing env lands).1,
    Stores.readRun_updateRun_self]
  exact congrArg some (closeUpdate_status _ _ _ _ _ _)

theorem storedStatus?_before_landing {admitted : Admitted}
    (lands : landing? clock faults tracker stores event = some admitted) :
    storedStatus? stores event.runKey = some admitted.run.status := by
  obtain ⟨_, _, doc, stored, accepted⟩ := landing?_some lands
  simp only [storedStatus?, stored, Option.map_some,
    (acceptEvent_ok accepted).1]

theorem storedTaskStatus?_onTaskDone_of_landing {admitted : Admitted}
    (lands : landing? clock faults tracker stores event = some admitted)
    (taskId : String) :
    storedTaskStatus?
        (onTaskDone env clock faults tracker stores event).stores
        event.runKey taskId =
      if taskId = event.taskId then
        some event.status
      else
        storedTaskStatus? stores event.runKey taskId := by
  obtain ⟨_, _, doc, stored, accepted⟩ := landing?_some lands
  rw [storedTaskStatus?, (onTaskDone_of_landing env lands).1,
    Stores.readRun_updateRun_self]
  simp only [storedTaskStatus?, stored, Option.bind_some,
    RunDoc.taskStatus?, PipelineRun.modelDump, closeUpdate_tasks,
    OrderedMap.get?_set, (acceptEvent_ok accepted).1]
  by_cases same : taskId = event.taskId
  · simp [same]
  · simp [same]

/-- A landing failure is answered with a re-forward exactly when there is a
candidate to take over. -/
theorem returned_of_failed_landing {admitted : Admitted}
    (lands : landing? clock faults tracker stores event = some admitted)
    (failed : event.status = .failed) :
    (onTaskDone env clock faults tracker stores
        event).verdict.returned.isSome =
      (reforwardTarget? env stores event).isSome := by
  rw [(onTaskDone_of_landing env lands).2.1, Verdict.returned,
    closeUpdate_info, failed]
  rfl

end Call

namespace System

def respond (env : TrackerEnv) (system : System) (report : Report) :
    TrackerResult :=
  onTaskDone env report.clock report.faults
    (system.trackers report.tracker) system.stores report.event

def handle (env : TrackerEnv) (system : System) (report : Report) :
    System where
  trackers :=
    Function.update system.trackers report.tracker
      (system.respond env report).tracker
  stores := (system.respond env report).stores

def landing? (system : System) (report : Report) : Option Admitted :=
  Tracker.landing? report.clock report.faults
    (system.trackers report.tracker) system.stores report.event

theorem landing?_readRun
    {system : System} {report : Report} {admitted : Admitted}
    (lands : system.landing? report = some admitted) :
    ∃ doc, system.stores.readRun report.event.runKey = some doc ∧
      admitted.run = doc.run ∧
      doc.run.tasks.get? report.event.taskId = some admitted.prevTask ∧
      order admitted.prevTask.status ≤ order report.event.status := by
  obtain ⟨_, _, doc, stored, accepted⟩ := landing?_some lands
  exact ⟨doc, stored, acceptEvent_ok accepted⟩

theorem readRun_handle
    (env : TrackerEnv) (system : System) (report : Report)
    (key : String) :
    (system.handle env report).stores.readRun key =
      match system.landing? report with
      | none => system.stores.readRun key
      | some admitted =>
          if key = report.event.runKey then
            some (closeUpdate env report.clock report.faults system.stores
              admitted report.event).run.modelDump
          else
            system.stores.readRun key :=
  readRun_onTaskDone env key

/-- A step that does not land on a run leaves its document alone. -/
theorem readRun_handle_of_elsewhere
    (env : TrackerEnv) (system : System) (report : Report) (key : String)
    (elsewhere :
      system.landing? report = none ∨ key ≠ report.event.runKey) :
    (system.handle env report).stores.readRun key =
      system.stores.readRun key := by
  rw [readRun_handle]
  cases lands : system.landing? report with
  | none =>
      rfl
  | some admitted =>
      rcases elsewhere with missed | different
      · rw [lands] at missed
        cases missed
      · exact if_neg different

theorem readRun_handle_of_landing
    (env : TrackerEnv) {system : System} {report : Report}
    {admitted : Admitted}
    (lands : system.landing? report = some admitted) :
    (system.handle env report).stores.readRun report.event.runKey =
      some (closeUpdate env report.clock report.faults system.stores
        admitted report.event).run.modelDump := by
  rw [readRun_handle, lands]
  exact if_pos rfl

theorem storedStatus?_handle_of_landing
    (env : TrackerEnv) {system : System} {report : Report}
    {admitted : Admitted}
    (lands : system.landing? report = some admitted) :
    storedStatus? (system.handle env report).stores report.event.runKey =
      some (decidedStatus env system.stores admitted report.event) :=
  storedStatus?_onTaskDone_of_landing env lands

theorem storedStatus?_of_landing
    {system : System} {report : Report} {admitted : Admitted}
    (lands : system.landing? report = some admitted) :
    storedStatus? system.stores report.event.runKey =
      some admitted.run.status :=
  storedStatus?_before_landing lands

theorem storedTaskStatus?_handle_of_landing
    (env : TrackerEnv) {system : System} {report : Report}
    {admitted : Admitted}
    (lands : system.landing? report = some admitted) (taskId : String) :
    storedTaskStatus? (system.handle env report).stores
        report.event.runKey taskId =
      if taskId = report.event.taskId then
        some report.event.status
      else
        storedTaskStatus? system.stores report.event.runKey taskId :=
  storedTaskStatus?_onTaskDone_of_landing env lands taskId

end System

end Agentcy.Tracker
