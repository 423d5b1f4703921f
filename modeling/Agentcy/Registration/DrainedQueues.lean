import Agentcy.Registration.DeployedPipelines

/-!
# The consumers, left alone

When the requests have been answered and every call succeeds, the two
consumers empty their queues, and each stored pipeline is deployed.
-/

namespace Agentcy.Registration

open Agentcy.Library
open Agentcy.Broker
open Agentcy.PipelineStore

universe u

namespace RegistrationState

variable {ι : Type u} [DecidableEq ι] {settings : RegistrationSettings}
variable {state : RegistrationState ι}

/-- Both consumers run, the commands refer to the store, the pipelines of all
messages are there, and every exchange that a stored pipeline is configured
with can be declared: it is absent, has the type already or can be deleted. -/
structure Drainable
    (settings : RegistrationSettings) (state : RegistrationState ι) :
    Prop where
  registrar : state.registrar.running = true
  topologist : state.topologist.running = true
  refers : ∀ command ∈ state.commands, command.payloadRef.isSome
  answered : ∀ command ∈ state.commands, Answered state.stored command →
    (state.stored.read command.username command.pipelineId).isSome
  waiting : ∀ event ∈ state.events,
    (state.stored.read event.username event.pipelineId).isSome
  possible : ∀ key document, storedDocument state.stored key = some document →
    ∀ name type,
      (name, type) ∈ configuredExchanges document.rabbitmqConfigs →
        settings.deletable name = true ∨
          state.broker.exchanges name = none ∨
            state.broker.exchanges name = some type

omit [DecidableEq ι] in
theorem TypesAgree.document
    (agree : state.TypesAgree) {username pipelineId key : String}
    {document : StoredPipeline} {other : PipelineDocument}
    (isStored : state.stored.read username pipelineId = some document)
    (isOther : storedDocument state.stored key = some other)
    {name : String} {type otherType : ExchangeType}
    (configured : (name, type) ∈
      configuredExchanges (document.rabbitmqConfigs?.getD []))
    (otherConfigured :
      (name, otherType) ∈ configuredExchanges other.rabbitmqConfigs) :
    type = otherType := by
  cases document with
  | stub =>
      exact absurd configured List.not_mem_nil
  | full document =>
      have found : storedDocument state.stored
          (docKey username pipelineId) = some document :=
        congrArg (·.bind fullDocument) isStored
      exact agree _ _ document other found isOther name type otherType
        configured otherConfigured

omit [DecidableEq ι] in
/-- A stored pipeline, or a stub, which has no exchanges, can be deployed. -/
theorem Drainable.declarable
    (drainable : Drainable settings state) (agree : state.TypesAgree)
    {username pipelineId : String} {document : StoredPipeline}
    (isStored : state.stored.read username pipelineId = some document) :
    Declarable settings.deletable
      (configuredExchanges (document.rabbitmqConfigs?.getD []))
      state.broker := by
  cases document with
  | stub =>
      exact ⟨fun _ _ _ none => absurd none List.not_mem_nil,
        fun _ _ none => absurd none List.not_mem_nil⟩
  | full document =>
      have found : storedDocument state.stored
          (docKey username pipelineId) = some document :=
        congrArg (·.bind fullDocument) isStored
      exact ⟨agree _ _ document document found found,
        drainable.possible _ document found⟩

/-- What a step of the draining leaves. -/
structure Drained
    (settings : RegistrationSettings) (before after : RegistrationState ι) :
    Prop where
  drainable : Drainable settings after
  stored : after.stored = before.stored
  requests : after.requests = before.requests

omit [DecidableEq ι] in
theorem Drained.trans
    {first second third : RegistrationState ι}
    (before : Drained settings first second)
    (after : Drained settings second third) :
    Drained settings first third :=
  ⟨after.drainable, after.stored.trans before.stored,
    after.requests.trans before.requests⟩

omit [DecidableEq ι] in
theorem Drained.agree
    {before after : RegistrationState ι}
    (drained : Drained settings before after) (agree : before.TypesAgree) :
    after.TypesAgree := by
  rw [TypesAgree, drained.stored]
  exact agree

end RegistrationState

end Agentcy.Registration
