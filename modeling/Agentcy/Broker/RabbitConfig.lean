import Mathlib.Data.List.Basic

/-!
# Broker entries of a pipeline configuration

Every edge of a pipeline has an entry in `rabbitmq_configs`: the task that
publishes on it, and the exchange and queue it uses.
-/

namespace Agentcy.Broker

structure Rabbit where
  exchange : String
  exchangeType : Option String := none
  queue : Option String := none
  routingKey : Option String := none
  perRun : Bool := false
  deriving DecidableEq, Repr

structure RabbitConfig where
  taskId : String
  rabbitmq : Option Rabbit
  deriving DecidableEq, Repr

/-- All outgoing edges of a task. -/
def outgoingEdges (configs : List RabbitConfig) (taskId : String) :
    List Rabbit :=
  (configs.filter fun config => config.taskId = taskId).filterMap
    RabbitConfig.rabbitmq

end Agentcy.Broker
