import Agentcy.Broker.Topology
import Agentcy.Library.DottedNames
import Mathlib.Data.List.Dedup

/-!
# Publishing on an exchange

Which queues a published message reaches: a direct exchange compares keys, a
fanout exchange ignores them, and a topic exchange matches the words of the
key against the pattern of the binding.  The publisher derives exchange, key
and type from the broker entry of an edge.
-/

namespace Agentcy.Broker

open Agentcy.Library
open PyText

/-- The words of a key or a pattern, between its dots. -/
def keyWords (key : String) : List (List Char) :=
  if key = "" then [] else key.toList.splitOn '.'

/-- A star stands for one word, a hash for any number of them. -/
def topicMatches : List (List Char) → List (List Char) → Bool
  | [], words => words.isEmpty
  | pattern :: rest, words =>
      if pattern = ['#'] then
        words.tails.any fun later => topicMatches rest later
      else
        match words with
        | [] => false
        | word :: later =>
            (pattern == ['*'] || pattern == word) &&
              topicMatches rest later

/-- Whether an exchange passes a message on to a binding.  The other types are
declared for no pipeline. -/
def accepts (type : ExchangeType) (bindingKey routingKey : String) : Bool :=
  match type with
  | .fanout => true
  | .direct => decide (bindingKey = routingKey)
  | .topic => topicMatches (keyWords bindingKey) (keyWords routingKey)
  | _ => false

/-- The queues that a message reaches, each once however many of its bindings
match. -/
def route
    (bindings : List Binding) (type : ExchangeType)
    (exchange routingKey : String) : List String :=
  ((bindings.filter fun binding =>
    decide (binding.exchange = exchange) &&
      accepts type binding.routingKey routingKey).map
    Binding.queue).dedup

theorem mem_route_iff
    {bindings : List Binding} {type : ExchangeType}
    {exchange routingKey queue : String} :
    queue ∈ route bindings type exchange routingKey ↔
      ∃ binding ∈ bindings, binding.exchange = exchange ∧
        accepts type binding.routingKey routingKey = true ∧
          binding.queue = queue := by
  simp [route, and_assoc]

theorem count_route
    (bindings : List Binding) (type : ExchangeType)
    (exchange routingKey queue : String) :
    (route bindings type exchange routingKey).count queue =
      if queue ∈ route bindings type exchange routingKey then 1 else 0 :=
  (List.nodup_dedup _).count

/-- `rb.get("routing_key") or rb.get("queue") or ""`. -/
def Rabbit.publishKey (rabbit : Rabbit) : String :=
  match rabbit.routingKey.filter (· ≠ "") with
  | some key => key
  | none => rabbit.queue.getD ""

/-- `(rb.get("exchange_type") or "direct").lower()`. -/
def Rabbit.typeName (rabbit : Rabbit) : String :=
  ((rabbit.exchangeType.filter (· ≠ "")).getD "direct").toLower

/-- The exchange, the routing key and the type for a message of a run; with
suffixes the key ends in the identifier of the run, unless it is empty. -/
def getDynamicNamesFromConfig
    (suffixed : Bool) (rabbit : Rabbit) (runId : Uuid) :
    String × String × String :=
  let routingKey := strip rabbit.publishKey
  let runKey :=
    if (rabbit.perRun || suffixed) && decide (routingKey ≠ "") &&
        !endsWith routingKey runId.tail then
      runId.dotted routingKey
    else
      routingKey
  (rabbit.exchange, runKey, rabbit.typeName)

/-- `_EX_TYPES`, with its default. -/
def busType (typeName : String) : ExchangeType :=
  match typeName with
  | "fanout" => .fanout
  | "topic" => .topic
  | "headers" => .headers
  | _ => .direct

/-- The queues reached by one publish on an edge. -/
def publishTo
    (suffixed : Bool) (bindings : List Binding) (runId : Uuid)
    (rabbit : Rabbit) : List String :=
  let names := getDynamicNamesFromConfig suffixed rabbit runId
  route bindings (busType names.2.2) names.1 names.2.1

end Agentcy.Broker
