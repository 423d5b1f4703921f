import Agentcy.Registration.DeployedPipelines

/-!
# Events of pipelines that are gone

An event whose pipeline has been deleted raises with every delivery and goes
back to the front of the queue.
-/

namespace Agentcy.Registration

open Agentcy.Library
open Agentcy.Broker
open Agentcy.PipelineStore

universe u

namespace RegistrationState

variable {ι : Type u} [DecidableEq ι] {settings : RegistrationSettings}
variable {state : RegistrationState ι} {event : PipelineRegisteredEvent}
variable {rest : List PipelineRegisteredEvent}

/-- The event is in front, and its pipeline is not stored. -/
structure Blocked
    (state : RegistrationState ι) (event : PipelineRegisteredEvent)
    (rest : List PipelineRegisteredEvent) : Prop where
  front : ∃ later, state.events = event :: (rest ++ later)
  missing : state.stored.read event.username event.pipelineId = none

def IsTopologistStep : RegistrationEvent ι → Prop
  | .ensure _ => True
  | .topologistExits => True
  | .restart => True
  | _ => False

/-- The topology consumer and what it works on are as before, but for new
events. -/
structure Untouched (state after : RegistrationState ι) : Prop where
  broker : after.broker = state.broker
  topologist : after.topologist = state.topologist
  events : ∃ more, after.events = state.events ++ more

omit [DecidableEq ι] in
theorem Untouched.of_same
    {after : RegistrationState ι} (broker : after.broker = state.broker)
    (topologist : after.topologist = state.topologist)
    (events : after.events = state.events) : Untouched state after :=
  ⟨broker, topologist, [], events.trans (List.append_nil _).symm⟩

omit [DecidableEq ι] in
theorem untouched_register {answer : RegisterAnswer} :
    Untouched state (state.register settings answer) := by
  cases running : state.registrar.running with
  | false =>
      have same : state.register settings answer = state := by
        simp only [register, running]
      rw [same]
      exact .of_same rfl rfl rfl
  | true =>
      cases waits : state.commands with
      | nil =>
          have same : state.register settings answer = state := by
            simp only [register, running, waits]
          rw [same]
          exact .of_same rfl rfl rfl
      | cons command rest =>
          simp only [register, running, waits]
          exact ⟨rfl, rfl, _, rfl⟩

theorem untouched_perform
    {step : RegistrationEvent ι} (other : ¬ IsTopologistStep step) :
    Untouched state (state.perform settings step) := by
  cases step with
  | ensure answer => exact absurd trivial other
  | topologistExits => exact absurd trivial other
  | restart => exact absurd trivial other
  | register answer => exact untouched_register
  | publish client answer =>
      simp only [perform]
      split
      · unfold publishCommand
        split <;> exact .of_same rfl rfl rfl
      · exact .of_same rfl rfl rfl
  | receive client request =>
      simp only [perform]
      split
      · split <;> exact .of_same rfl rfl rfl
      · exact .of_same rfl rfl rfl
  | insertStub client answer =>
      simp only [perform]
      split <;> exact .of_same rfl rfl rfl
  | update client answer =>
      simp only [perform]
      split <;> exact .of_same rfl rfl rfl
  | abandon client =>
      simp only [perform]
      split <;> exact .of_same rfl rfl rfl
  | send command => exact .of_same rfl rfl rfl
  | delete username pipelineId => exact .of_same rfl rfl rfl
  | registrarExits => exact .of_same rfl rfl rfl

omit [DecidableEq ι] in
/-- A delivery of an event without a pipeline ends the run of the
consumer. -/
theorem ensure_blocked
    {answer : TopologyAnswer}
    (blocked : Blocked state event rest) :
    state.ensure settings answer =
      { state with
        topologist :=
          state.topologist.step settings.supervision
            (.crashed answer.jitter) } := by
  obtain ⟨later, waits⟩ := blocked.front
  cases running : state.topologist.running with
  | false =>
      simp only [ensure, running, Supervisor.step, Bool.false_eq_true,
        if_false]
  | true =>
      have missing :
          (if answer.read then
              state.stored.read event.username event.pipelineId
            else none) = none := by
        rw [blocked.missing, ite_self]
      simp [ensure, running, waits, missing]

theorem Blocked.perform
    {step : RegistrationEvent ι} (blocked : Blocked state event rest)
    (missing : (state.perform settings step).stored.read event.username
      event.pipelineId = none) :
    (state.perform settings step).broker = state.broker ∧
      Blocked (state.perform settings step) event rest := by
  by_cases own : IsTopologistStep step
  · cases step with
    | ensure answer =>
        have result : state.perform settings (.ensure answer) =
            state.ensure settings answer :=
          rfl
        rw [result, ensure_blocked blocked]
        exact ⟨rfl, blocked.front, blocked.missing⟩
    | topologistExits => exact ⟨rfl, blocked.front, blocked.missing⟩
    | restart => exact ⟨rfl, blocked.front, blocked.missing⟩
    | _ => cases own
  · obtain ⟨broker, _, more, events⟩ :
        Untouched state (state.perform settings step) :=
      untouched_perform own
    obtain ⟨later, waits⟩ := blocked.front
    refine ⟨broker, ⟨later ++ more, ?_⟩, missing⟩
    rw [events, waits, List.cons_append, List.append_assoc]

/-- Only a new process starts the consumer again. -/
theorem stopped_perform
    {step : RegistrationEvent ι} (noRestart : step ≠ .restart)
    (stopped : state.topologist.running = false) :
    (state.perform settings step).topologist.running = false := by
  by_cases own : IsTopologistStep step
  · cases step with
    | ensure answer =>
        simp only [RegistrationState.perform, ensure, stopped]
    | topologistExits =>
        simp [RegistrationState.perform, Supervisor.step, stopped]
    | restart => exact absurd rfl noRestart
    | _ => cases own
  · obtain ⟨_, topologist, _⟩ :
        Untouched state (state.perform settings step) :=
      untouched_perform own
    rw [topologist, stopped]

theorem stopped_run
    {steps : List (RegistrationEvent ι)}
    (noRestart : RegistrationEvent.restart ∉ steps)
    (stopped : state.topologist.running = false) :
    (run (RegistrationState.perform settings) state
      steps).topologist.running = false := by
  induction steps generalizing state with
  | nil =>
      exact stopped
  | cons step steps inductionHypothesis =>
      rw [List.mem_cons, not_or] at noRestart
      exact
        inductionHypothesis noRestart.2
          (stopped_perform (Ne.symm noRestart.1) stopped)

/-- The first delivery stops a consumer that has not returned before. -/
theorem stops_of_delivery
    {steps : List (RegistrationEvent ι)}
    (blocked : Blocked state event rest)
    (missing : EveryState (RegistrationState.perform settings)
      (fun reached =>
        reached.stored.read event.username event.pipelineId = none)
      state steps)
    (firstRun : state.topologist.firstRun = true)
    (noExit : RegistrationEvent.topologistExits ∉ steps)
    (noRestart : RegistrationEvent.restart ∉ steps)
    (delivers : ∃ answer, RegistrationEvent.ensure answer ∈ steps) :
    (run (RegistrationState.perform settings) state
      steps).topologist.running = false := by
  induction steps generalizing state with
  | nil =>
      obtain ⟨answer, among⟩ := delivers
      cases among
  | cons step steps inductionHypothesis =>
      have later := missing.2
      rw [List.mem_cons, not_or] at noExit noRestart
      have next :
          (state.perform settings step).broker = state.broker ∧
            Blocked (state.perform settings step) event rest :=
        blocked.perform
          ((everyState_iff_prefixes _ _ _ _).mp later [] steps rfl)
      by_cases own : IsTopologistStep step
      · cases step with
        | ensure answer =>
            rw [run_cons]
            refine stopped_run noRestart.2 ?_
            have result : state.perform settings (.ensure answer) =
                state.ensure settings answer :=
              rfl
            rw [result, ensure_blocked blocked]
            by_cases running : state.topologist.running = true
            · simp [Supervisor.step, Supervisor.afterRun, running, firstRun]
            · simp [Supervisor.step, running]
        | topologistExits => exact absurd rfl noExit.1
        | restart => exact absurd rfl noRestart.1
        | _ => cases own
      · obtain ⟨_, topologist, _⟩ :
            Untouched state (state.perform settings step) :=
          untouched_perform own
        refine
          inductionHypothesis next.2 later (topologist ▸ firstRun) noExit.2
            noRestart.2 ?_
        obtain ⟨answer, among⟩ := delivers
        rcases List.mem_cons.mp among with rfl | inRest
        · exact absurd trivial own
        · exact ⟨answer, inRest⟩

/-- While a pipeline is gone whose event is in front of the queue, the event
stays there and no exchange is declared for the pipelines behind it, however
the store, the broker and the processes go on.  The first delivery stops the
consumer for good, unless it has returned before or its process is started
anew. -/
theorem deleted_pipeline_blocks_registrations
    (settings : RegistrationSettings) (state : RegistrationState ι)
    (event : PipelineRegisteredEvent) (rest : List PipelineRegisteredEvent)
    (steps : List (RegistrationEvent ι))
    (front : state.events = event :: rest)
    (missing : EveryState (RegistrationState.perform settings)
      (fun reached =>
        reached.stored.read event.username event.pipelineId = none)
      state steps) :
    let reached := run (RegistrationState.perform settings) state steps
    (reached.broker = state.broker ∧
      ∃ later, reached.events = event :: (rest ++ later)) ∧
        (state.topologist.firstRun = true →
          RegistrationEvent.topologistExits ∉ steps →
            RegistrationEvent.restart ∉ steps →
              (∃ answer, RegistrationEvent.ensure answer ∈ steps) →
                reached.topologist.running = false) := by
  have blocked : ∀ reached : RegistrationState ι,
      reached.events = event :: rest →
        reached.stored.read event.username event.pipelineId = none →
          Blocked reached event rest :=
    fun reached waits gone => ⟨⟨[], by rw [waits, List.append_nil]⟩, gone⟩
  have start : Blocked state event rest :=
    blocked state front
      ((everyState_iff_prefixes _ _ _ _).mp missing [] steps rfl)
  refine ⟨?_, fun firstRun noExit noRestart delivers =>
    stops_of_delivery start missing firstRun noExit noRestart delivers⟩
  clear front blocked
  induction steps generalizing state with
  | nil =>
      exact ⟨rfl, start.front⟩
  | cons step steps inductionHypothesis =>
      have later := missing.2
      obtain ⟨broker, next⟩ :
          (state.perform settings step).broker = state.broker ∧
            Blocked (state.perform settings step) event rest :=
        start.perform
          ((everyState_iff_prefixes _ _ _ _).mp later [] steps rfl)
      obtain ⟨sameBroker, waits⟩ := inductionHypothesis _ later next
      exact ⟨sameBroker.trans broker, waits⟩

/-- A pipeline that is deleted between its command and its event. -/
def deletedShop : RegistrationState Unit :=
  run (RegistrationState.perform shopSettings) (initial shopSettings {})
    (shopEvents.take 7 ++ [.delete "alice" "shop"])

def shopDelivery : List (RegistrationEvent Unit) :=
  [.ensure {}]

theorem deleted_shop_blocks :
    let reached :=
      run (RegistrationState.perform shopSettings) deletedShop shopDelivery
    reached.broker = deletedShop.broker ∧
      reached.topologist.running = false := by
  have blocked :=
    deleted_pipeline_blocks_registrations shopSettings deletedShop
      shopRequest.command.event [] shopDelivery rfl ⟨rfl, rfl⟩
  refine ⟨blocked.1.1, blocked.2 rfl ?_ ?_ ⟨{}, List.mem_cons_self⟩⟩
  · simp [shopDelivery]
  · simp [shopDelivery]

end RegistrationState

end Agentcy.Registration
