import Agentcy.Registration.RequestMoves

/-!
# Deliveries to the two consumers

What a delivery of a command or of an event does to the pipelines that are
underway, and to the exchanges of the others.
-/

namespace Agentcy.Registration

open Agentcy.Library
open Agentcy.Broker
open Agentcy.PipelineStore

universe u

namespace RegistrationState

variable {ι : Type u} {settings : RegistrationSettings}
variable [DecidableEq ι]

section Registrar

variable {stored : Collections} {command : RegisterPipelineCommand}
variable {answer : RegisterAnswer} {key : String}

variable {state : RegistrationState ι}

end Registrar

/-! ## The topology consumer -/

section Topologist

variable {state : RegistrationState ι} {key : String}
variable {answer : TopologyAnswer} {event : PipelineRegisteredEvent}
variable {rest : List PipelineRegisteredEvent}

omit [DecidableEq ι] in
/-- Where nothing but the broker moves, messages stay underway. -/
theorem Underway.of_same
    {after : RegistrationState ι}
    (stored : after.stored = state.stored)
    (commands : after.commands = state.commands)
    (requests : after.requests = state.requests)
    (events : after.events = state.events)
    (underway : state.Underway key) : after.Underway key := by
  refine
    underway.mono (stored ▸ KeepsConfigs.refl state.stored)
      (fun _ waits => commands ▸ waits) (fun _ waits => events ▸ waits) ?_
  intro client request stage isOpen isKey publishes
  exact
    .request client request stage (requests ▸ isOpen) isKey
      (stored ▸ publishes)

end Topologist
end RegistrationState

end Agentcy.Registration
