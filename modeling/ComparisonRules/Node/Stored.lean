import ComparisonRules.Error
import ComparisonRules.Node.Json

/-!
# Stored rules

A rule is stored as the JSON text of its tree of nodes, and comes back from any JSON text
that holds the nodes of a rule.
-/

namespace ComparisonRules.Rule

/-- The JSON text that stores a rule. -/
def storedText (rule : Rule) : String :=
  (Node.ofRule rule).toData.compactText

/-- The rule that a JSON text stores. -/
def ofStoredText (text : String) : Except RuleError Rule := do
  let node ← liftError .json (Json.readText Node.read text)
  liftError .decode node.toRule

end ComparisonRules.Rule
