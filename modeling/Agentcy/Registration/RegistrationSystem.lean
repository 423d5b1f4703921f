import Agentcy.Broker.Topology
import Agentcy.PipelineStore.Update
import Agentcy.Registration.Supervise

/-!
# Registration of pipelines

`create_pipeline` stores a pipeline and publishes a command that refers to
it.  One supervised consumer answers each command with an event, another one
takes the events in order, loads the stored pipeline and declares its
exchanges.  Store, broker, API and consumers fail and stop at any point, and
an unacknowledged message comes back to the front of its queue.
-/

namespace Agentcy.Registration

open Agentcy.Library
open Agentcy.Broker
open Agentcy.PipelineStore

universe u

/-- The body of a request to create a pipeline. -/
structure PipelineCreate where
  authors : Option (List String) := some []
  vhost : String
  name : String
  description : Option String := none
  pipelineName : String
  dag : DAGConfig
  errorHandling : ErrorHandling
  deriving DecidableEq

def buildPipelineConfig
    (dto : PipelineCreate) (pipelineId now : String) : PipelineConfig where
  pipelineId := pipelineId
  authors := some (dto.authors.getD [])
  createdAt := some now
  updatedAt := some now
  vhost := dto.vhost
  name := dto.name
  description := dto.description
  pipelineName := dto.pipelineName
  lastUpdated := now
  version := 1
  errorHandling := dto.errorHandling
  finalTaskIds := []
  dag := dto.dag

/-- A request with the identifier drawn for it, and the clock where it is
read. -/
structure CreateRequest where
  username : String
  pipelineId : String
  payload : PipelineCreate
  stubAt : String
  builtAt : String
  updatedAt : String
  deriving DecidableEq

def CreateRequest.key (request : CreateRequest) : String :=
  docKey request.username request.pipelineId

def CreateRequest.stub (request : CreateRequest) : StoredPipeline :=
  .stub request.pipelineId request.payload.pipelineName request.stubAt
    request.stubAt 1

def CreateRequest.updateCall (request : CreateRequest) : UpdateCall where
  username := request.username
  pipelineId := request.pipelineId
  pdata :=
    buildPipelineConfig request.payload request.pipelineId request.builtAt
  now := request.updatedAt

/-- Where `create_pipeline` stands; `publish` counts its failed attempts. -/
inductive RequestStage where
  | insertingStub
  | updating (stage : Stage)
  | publishing (failures : Nat)
  | answered
  | failed
  deriving DecidableEq

structure RegisterPipelineCommand where
  username : String
  pipelineId : String
  pipeline : Option PipelineCreate := none
  payloadRef : Option String := none
  deriving DecidableEq

def RegisterPipelineCommand.key (command : RegisterPipelineCommand) :
    String :=
  docKey command.username command.pipelineId

structure PipelineRegisteredEvent where
  username : String
  pipelineId : String
  configKey : String
  deriving DecidableEq

def PipelineRegisteredEvent.key (event : PipelineRegisteredEvent) : String :=
  docKey event.username event.pipelineId

/-- The command that `create_pipeline` publishes in the end. -/
def CreateRequest.command (request : CreateRequest) :
    RegisterPipelineCommand where
  username := request.username
  pipelineId := request.pipelineId
  payloadRef := some request.key

def RegisterPipelineCommand.event (command : RegisterPipelineCommand) :
    PipelineRegisteredEvent where
  username := command.username
  pipelineId := command.pipelineId
  configKey := command.key

/-- The outcome of a publish.  A publish that raises may have sent the
message. -/
inductive PublishAnswer where
  | confirmed
  | amqpError (sent : Bool)
  | otherError (sent : Bool)
  deriving DecidableEq

def PublishAnswer.sent : PublishAnswer → Bool
  | .confirmed => true
  | .amqpError sent => sent
  | .otherError sent => sent

structure RegistrationSettings where
  /-- `parse_graph` and `generate_rabbitmq_config`. -/
  wire : DAGConfig → PipelineStore.PipelineMeta → Option Wiring
  /-- `_validate_final_leafs`. -/
  validFinalLeafs : PipelineCreate → Bool
  createSync : Bool := true
  publishRetryAttempts : Nat := 5
  /-- Whether the broker deletes an exchange when it is asked to. -/
  deletable : String → Bool
  supervision : SuperviseSettings := {}

structure RegistrationState (ι : Type u) where
  stored : Collections
  broker : BrokerState
  requests : ι → Option (CreateRequest × RequestStage)
  commands : List RegisterPipelineCommand
  events : List PipelineRegisteredEvent
  /-- `register_pipeline_consumer` -/
  registrar : Supervisor
  /-- `pipeline_registered_consumer` -/
  topologist : Supervisor

/-- What a delivery of a command meets. -/
structure RegisterAnswer where
  read : Bool := true
  pipelineUpsert : UpsertAnswer := .stored
  configUpsert : UpsertAnswer := .stored
  publish : PublishAnswer := .confirmed
  acked : Bool := true
  builtAt : String := ""
  updatedAt : String := ""
  jitter : ℚ := 1

/-- What a delivery of an event meets; `calls` is the number of calls to the
broker that go through where the connection is lost among them. -/
structure TopologyAnswer where
  read : Bool := true
  calls : Option Nat := none
  acked : Bool := true
  jitter : ℚ := 1

inductive RegistrationEvent (ι : Type u) where
  | receive (client : ι) (request : CreateRequest)
  | insertStub (client : ι) (answer : UpsertAnswer)
  | update (client : ι) (answer : UpsertAnswer)
  | publish (client : ι) (answer : PublishAnswer)
  | abandon (client : ι)
  /-- Another program sends a command. -/
  | send (command : RegisterPipelineCommand)
  | delete (username pipelineId : String)
  | register (answer : RegisterAnswer)
  | ensure (answer : TopologyAnswer)
  | registrarExits
  | topologistExits
  /-- The process of both consumers starts anew. -/
  | restart

def upsertStub
    (stored : Collections) (key : String) (stub : StoredPipeline) :
    Collections :=
  { stored with
    pipelines := Function.update stored.pipelines key (some stub) }

/-- Removing a document that is not there raises and changes nothing. -/
def removePipeline (stored : Collections) (key : String) : Collections :=
  { stored with pipelines := Function.update stored.pipelines key none }

/-- All of `update` in one go. -/
def updateWhole
    (wire : DAGConfig → PipelineStore.PipelineMeta → Option Wiring)
    (call : UpdateCall)
    (pipelineUpsert configUpsert : UpsertAnswer) (stored : Collections) :
    Collections × Stage :=
  let prepared := updateStep wire call stored .stored .preparing
  let first := updateStep wire call prepared.1 pipelineUpsert prepared.2
  updateStep wire call first.1 configUpsert first.2

namespace RegistrationState

variable {ι : Type u} (settings : RegistrationSettings)

/-! ## One request -/

section Requests

variable [DecidableEq ι]

def setStage
    (state : RegistrationState ι) (client : ι) (request : CreateRequest)
    (stage : RequestStage) : RegistrationState ι :=
  { state with
    requests :=
      Function.update state.requests client (some (request, stage)) }

def insertStub
    (state : RegistrationState ι) (client : ι) (request : CreateRequest)
    (answer : UpsertAnswer) : RegistrationState ι :=
  let stored :=
    if answer.written then upsertStub state.stored request.key request.stub
    else state.stored
  let next : RequestStage :=
    match answer with
    | .stored =>
        if settings.createSync then .updating .preparing else .publishing 0
    | .failed _ => .failed
  { state with stored := stored }.setStage client request next

def updateRequest
    (state : RegistrationState ι) (client : ι) (request : CreateRequest)
    (answer : UpsertAnswer) (stage : Stage) : RegistrationState ι :=
  let written :=
    updateStep settings.wire request.updateCall state.stored answer stage
  let next : RequestStage :=
    match written.2 with
    | .returned => .publishing 0
    | .raised _ => .failed
    | later => .updating later
  { state with stored := written.1 }.setStage client request next

/-- One attempt of `CommandPublisher.publish`; it tries again after an
`AMQPError` only. -/
def publishCommand
    (state : RegistrationState ι) (client : ι) (request : CreateRequest)
    (answer : PublishAnswer) (failures : Nat) : RegistrationState ι :=
  if failures < settings.publishRetryAttempts then
    let commands :=
      if answer.sent then state.commands ++ [request.command]
      else state.commands
    let next : RequestStage :=
      match answer with
      | .confirmed => .answered
      | .amqpError _ =>
          if failures + 1 < settings.publishRetryAttempts then
            .publishing (failures + 1)
          else .failed
      | .otherError _ => .failed
    { state with commands := commands }.setStage client request next
  else state.setStage client request .failed

end Requests

/-- What the registrar has done with a command. -/
structure Handled where
  stored : Collections
  event? : Option PipelineRegisteredEvent := none
  raised : Bool := false

def publishEvent
    (stored : Collections) (command : RegisterPipelineCommand)
    (answer : PublishAnswer) : Handled where
  stored := stored
  event? := if answer.sent then some command.event else none
  raised := decide (answer ≠ .confirmed)

/-- A command that refers to no stored configuration, or whose configuration
cannot be read, is logged and acknowledged. -/
def handleCommand
    (stored : Collections) (command : RegisterPipelineCommand)
    (answer : RegisterAnswer) : Handled :=
  match command.payloadRef, command.pipeline with
  | some _, _ =>
      if answer.read then
        match stored.getFinalConfig command.username command.pipelineId with
        | some _ => publishEvent stored command answer.publish
        | none => { stored }
      else { stored }
  | none, some dto =>
      let call : UpdateCall :=
        { username := command.username
          pipelineId := command.pipelineId
          pdata := buildPipelineConfig dto command.pipelineId answer.builtAt
          now := answer.updatedAt }
      let written :=
        updateWhole settings.wire call answer.pipelineUpsert
          answer.configUpsert stored
      match written.2 with
      | .returned => publishEvent written.1 command answer.publish
      | _ => { stored := written.1, raised := true }
  -- the command does not validate
  | none, none => { stored, raised := true }

/-- A message whose handling raises is rejected without going back to the
queue, unless the connection is gone too. -/
def register
    (state : RegistrationState ι) (answer : RegisterAnswer) :
    RegistrationState ι :=
  match state.registrar.running, state.commands with
  | true, command :: rest =>
      let handled := handleCommand settings state.stored command answer
      { state with
        stored := handled.stored
        commands := if answer.acked then rest else command :: rest
        events := state.events ++ handled.event?.toList
        registrar :=
          if handled.raised || !answer.acked then
            state.registrar.step settings.supervision (.crashed answer.jitter)
          else state.registrar }
  | _, _ => state

/-- The first calls of `ensure_topology` to the broker, two for each
exchange. -/
def ensureCalls (deletable : String → Bool) :
    Nat → List (String × ExchangeType) → BrokerState → BrokerState
  | 0, _, broker => broker
  | _ + 1, [], broker => broker
  | 1, (name, _) :: _, broker =>
      if deletable name then broker.exchangeDelete name else broker
  | calls + 2, (name, type) :: rest, broker =>
      match ensureExchange deletable broker name type with
      | none => broker
      | some declared => ensureCalls deletable calls rest declared

/-- The broker after a delivery of an event of a stored pipeline, and whether
`ensure_topology` has returned. -/
def ensureStored
    (broker : BrokerState) (document : StoredPipeline)
    (calls : Option Nat) : BrokerState × Bool :=
  let configs := document.rabbitmqConfigs?.getD []
  match calls with
  | none => ensureTopology settings.deletable configs broker
  | some calls =>
      (ensureCalls settings.deletable calls (configuredExchanges configs)
        broker, false)

/-- A message whose handling raises goes back to the front of the queue. -/
def ensure
    (state : RegistrationState ι) (answer : TopologyAnswer) :
    RegistrationState ι :=
  match state.topologist.running, state.events with
  | true, event :: rest =>
      let document :=
        if answer.read then
          state.stored.read event.username event.pipelineId
        else none
      let ensured :=
        match document with
        | none => (state.broker, false)
        | some document =>
            ensureStored settings state.broker document answer.calls
      if ensured.2 && answer.acked then
        { state with broker := ensured.1, events := rest }
      else
        { state with
          broker := ensured.1
          topologist :=
            state.topologist.step settings.supervision
              (.crashed answer.jitter) }
  | _, _ => state

variable [DecidableEq ι]

def perform (state : RegistrationState ι) :
    RegistrationEvent ι → RegistrationState ι
  | .receive client request =>
      match state.requests client with
      | none =>
          if settings.validFinalLeafs request.payload then
            state.setStage client request .insertingStub
          else state
      | some _ => state
  | .insertStub client answer =>
      match state.requests client with
      | some (request, .insertingStub) =>
          state.insertStub settings client request answer
      | _ => state
  | .update client answer =>
      match state.requests client with
      | some (request, .updating stage) =>
          state.updateRequest settings client request answer stage
      | _ => state
  | .publish client answer =>
      match state.requests client with
      | some (request, .publishing failures) =>
          state.publishCommand settings client request answer failures
      | _ => state
  | .abandon client =>
      match state.requests client with
      | some (_, .answered) => state
      | some (request, _) => state.setStage client request .failed
      | none => state
  | .send command => { state with commands := state.commands ++ [command] }
  | .delete username pipelineId =>
      { state with
        stored := removePipeline state.stored (docKey username pipelineId) }
  | .register answer => state.register settings answer
  | .ensure answer => state.ensure settings answer
  | .registrarExits =>
      { state with
        registrar := state.registrar.step settings.supervision .exited }
  | .topologistExits =>
      { state with
        topologist := state.topologist.step settings.supervision .exited }
  | .restart =>
      { state with
        registrar := settings.supervision.boot
        topologist := settings.supervision.boot }

/-- Nothing is stored, requested or sent; the broker may have exchanges of
its own. -/
def initial (broker : BrokerState) : RegistrationState ι where
  stored := ⟨fun _ => none, fun _ => none⟩
  broker := broker
  requests := fun _ => none
  commands := []
  events := []
  registrar := settings.supervision.boot
  topologist := settings.supervision.boot

end RegistrationState

end Agentcy.Registration

/-!
## What a delivery leaves at the broker

The exchanges after a call of `ensure_topology` that returns, that fails, or
that loses its connection after some of its calls to the broker.
-/

namespace Agentcy.Registration

open Agentcy.Broker

section Exchanges

variable {deletable : String → Bool}
variable {exchanges : List (String × ExchangeType)} {broker : BrokerState}
variable {name : String}

/-- The exchange is as it was, or as the configuration wants it, or gone
although the configuration wants it. -/
def Touched
    (exchanges : List (String × ExchangeType)) (broker after : BrokerState)
    (name : String) : Prop :=
  after.exchanges name = broker.exchanges name ∨
    ∃ type, (name, type) ∈ exchanges ∧
      (after.exchanges name = some type ∨ after.exchanges name = none)

theorem Touched.cons
    {exchange : String × ExchangeType} {declared after : BrokerState}
    (here : declared.exchanges =
      Function.update broker.exchanges exchange.1 (some exchange.2))
    (later : Touched exchanges declared after name) :
    Touched (exchange :: exchanges) broker after name := by
  rcases later with same | ⟨type, member, left⟩
  · rw [here] at same
    by_cases isHere : name = exchange.1
    · subst isHere
      rw [Function.update_self] at same
      exact Or.inr ⟨exchange.2, List.mem_cons_self, Or.inl same⟩
    · rw [Function.update_of_ne isHere] at same
      exact Or.inl same
  · exact Or.inr ⟨type, List.mem_cons_of_mem _ member, left⟩

end Exchanges
end Agentcy.Registration
