import Agentcy.Library.PyJson
import Agentcy.Library.PyText

/-!
# The hierarchy of capabilities

A hierarchy maps a capability to a broader one.  An agent with a capability
has all broader ones too, as far as a climb of bounded length that never
visits a capability twice finds them.
-/

namespace Agentcy.Agents

open Agentcy.Library

/-- Child to parent. -/
abbrev Hierarchy := OrderedMap String String

def maxDepth : Nat := 10

/-- The parents that are met from `current` on. -/
def climb (hierarchy : Hierarchy) :
    Nat → String → List String → List String
  | 0, _, _ => []
  | depth + 1, current, visited =>
      match hierarchy.get? current with
      | none => []
      | some parent =>
          if parent = "" ∨ parent ∈ visited then []
          else parent :: climb hierarchy depth parent (parent :: visited)

def expandCapabilities
    (python : PyBuiltins) (hierarchy : Hierarchy)
    (capabilities : List String) : List String :=
  capabilities.flatMap fun capability =>
    let key := PyText.strip (python.lower capability)
    key :: climb hierarchy maxDepth key [key]

end Agentcy.Agents
