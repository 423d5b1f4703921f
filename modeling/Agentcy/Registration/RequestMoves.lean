import Agentcy.Library.Reconciliation
import Agentcy.Registration.RegistrationSystem

/-!
# Requests on their way

The registration of pipelines as a reconciliation: a stored pipeline asks for
its exchanges, and its request, its command or its event brings the topology
consumer to it.  The steps of a request are moves of this reconciliation
unless they lose a registration.
-/

namespace Agentcy.Registration

open Agentcy.Library
open Agentcy.Broker
open Agentcy.PipelineStore

universe u

def fullDocument : StoredPipeline → Option PipelineDocument
  | .stub .. => none
  | .full document => some document

/-- The pipeline document under a key that is no stub. -/
def storedDocument (stored : Collections) (key : String) :
    Option PipelineDocument :=
  (stored.pipelines key).bind fullDocument

namespace RegistrationState

variable {ι : Type u} {settings : RegistrationSettings}

/-- A request that has stored the pipeline and will publish its command. -/
def Publishes
    (stored : Collections) (request : CreateRequest) : RequestStage → Prop
  | .updating (.upsertingConfig _) => True
  | .publishing _ =>
      (stored.getFinalConfig request.username request.pipelineId).isSome
  | _ => False

/-- A command that the registrar will answer with an event. -/
def Answered
    (stored : Collections) (command : RegisterPipelineCommand) : Prop :=
  command.payloadRef.isSome ∧
    (stored.getFinalConfig command.username command.pipelineId).isSome

def Due (state : RegistrationState ι) (key : String) : Prop :=
  ∃ event ∈ state.events, event.key = key

/-- A request, a command or an event brings the topology consumer to the
key. -/
inductive Underway (state : RegistrationState ι) (key : String) : Prop where
  | request (client : ι) (request : CreateRequest) (stage : RequestStage)
      (isOpen : state.requests client = some (request, stage))
      (isKey : request.key = key)
      (publishes : Publishes state.stored request stage)
  | command (command : RegisterPipelineCommand)
      (waits : command ∈ state.commands)
      (isKey : command.key = key)
      (answered : Answered state.stored command)
  | event (due : state.Due key)

variable [DecidableEq ι]

section Staying

variable {before after : RegistrationState ι} {key : String}

/-- Configurations are never removed. -/
def KeepsConfigs (before after : Collections) : Prop :=
  ∀ username pipelineId,
    (before.getFinalConfig username pipelineId).isSome →
      (after.getFinalConfig username pipelineId).isSome

theorem KeepsConfigs.refl (stored : Collections) :
    KeepsConfigs stored stored :=
  fun _ _ isSome => isSome

theorem KeepsConfigs.trans
    {first second third : Collections}
    (before : KeepsConfigs first second)
    (after : KeepsConfigs second third) : KeepsConfigs first third :=
  fun username pipelineId isSome =>
    after username pipelineId (before username pipelineId isSome)

omit [DecidableEq ι] in
theorem Publishes.mono
    {first second : Collections} {request : CreateRequest}
    {stage : RequestStage} (configs : KeepsConfigs first second)
    (publishes : Publishes first request stage) :
    Publishes second request stage := by
  cases stage with
  | publishing failures =>
      exact configs _ _ publishes
  | updating stage =>
      cases stage <;> exact publishes
  | _ =>
      exact publishes

omit [DecidableEq ι] in
theorem Due.mono
    (events : ∀ event ∈ before.events, event ∈ after.events)
    (due : before.Due key) : after.Due key := by
  obtain ⟨event, waits, isKey⟩ := due
  exact ⟨event, events event waits, isKey⟩

omit [DecidableEq ι] in
/-- What is underway stays so when messages and configurations stay, and each
request that will publish is seen to. -/
theorem Underway.mono
    (configs : KeepsConfigs before.stored after.stored)
    (commands : ∀ command ∈ before.commands, command ∈ after.commands)
    (events : ∀ event ∈ before.events, event ∈ after.events)
    (requests : ∀ client request stage,
      before.requests client = some (request, stage) →
        request.key = key → Publishes before.stored request stage →
          after.Underway key)
    (underway : before.Underway key) : after.Underway key := by
  cases underway with
  | request client request stage isOpen isKey publishes =>
      exact requests client request stage isOpen isKey publishes
  | command command waits isKey answered =>
      exact
        .command command (commands command waits) isKey
          ⟨answered.1, configs _ _ answered.2⟩
  | event due =>
      exact .event (due.mono events)

end Staying

/-! ## The steps of a request -/

section Requests

variable {state : RegistrationState ι} {key : String} {client : ι}

end Requests
end RegistrationState

end Agentcy.Registration
