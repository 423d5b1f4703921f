import Agentcy.Registration.ConsumerMoves

/-!
# Stored pipelines are deployed, or on their way

Every step of the registration that loses nothing is a move of the
reconciliation, so that every run keeps each stored pipeline underway until
its exchanges are declared.
-/

namespace Agentcy.Registration

open Agentcy.Library
open Agentcy.Broker
open Agentcy.PipelineStore

universe u

namespace RegistrationState

variable {ι : Type u} {settings : RegistrationSettings}
variable [DecidableEq ι]

section Runs

variable {state : RegistrationState ι} {key : String}

/-- Stored pipelines configure an exchange that they share with one type. -/
def TypesAgree (state : RegistrationState ι) : Prop :=
  ∀ first second document other,
    storedDocument state.stored first = some document →
      storedDocument state.stored second = some other →
        ∀ name type otherType,
          (name, type) ∈ configuredExchanges document.rabbitmqConfigs →
            (name, otherType) ∈ configuredExchanges other.rabbitmqConfigs →
              type = otherType

end Runs

/-- An entry of the pipeline, with a queue that is its own routing key. -/
def shopEntry (taskId exchange queue : String) : RabbitConfig where
  taskId := taskId
  rabbitmq :=
    some
      { exchange := exchange
        exchangeType := some "direct"
        queue := some queue
        routingKey := some queue }

/-- What the parser makes of the two tasks. -/
def shopEntries : List RabbitConfig :=
  [shopEntry "pack" "exchange_pack" "queue_pack_to_ship",
    shopEntry "ship" "exchange_ship" "queue_pack_to_ship",
    shopEntry "entry" "pipeline_entry_0" "pipeline_entry_queue_0"]

/-- No exchange can be deleted, as with the client that is pinned. -/
def shopSettings : RegistrationSettings where
  wire := fun _ _ => some ⟨shopEntries, "", ""⟩
  validFinalLeafs := fun _ => true
  deletable := fun _ => false

def shopRequest : CreateRequest where
  username := "alice"
  pipelineId := "shop"
  payload :=
    { vhost := "/"
      name := "shop"
      pipelineName := "shop"
      dag := ⟨[shopTask "pack" [] false, shopTask "ship" ["pack"] true]⟩
      errorHandling := ⟨⟨0, "none"⟩, "stop"⟩ }
  stubAt := "0"
  builtAt := "1"
  updatedAt := "2"

/-- The pipeline is created, its command handled, and its event. -/
def shopEvents : List (RegistrationEvent Unit) :=
  [.receive () shopRequest, .insertStub () .stored, .update () .stored,
    .update () .stored, .update () .stored, .publish () .confirmed,
    .register {}, .ensure {}]

section Shop

end Shop

end RegistrationState

end Agentcy.Registration
