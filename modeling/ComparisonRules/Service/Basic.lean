import ComparisonRules.Error

/-!
# The service

Three requests: compile a rule text and give it back with its stored tree, combine several
rules into one, and evaluate a stored tree on a record.
-/

namespace ComparisonRules.Service

/-- Asks to compile a rule text. -/
structure CreateRequest where
  rule : String

/-- The rule text with the tree that it was compiled to. -/
structure CreateResponse where
  rule : String
  ast : Node

/-- A rule to be combined: a text, or a tree that was compiled before. -/
inductive RuleSource where
  | text (text : String)
  | tree (node : Node)

/-- Asks to join rules under one connective, in their order. -/
structure CombineRequest where
  rules : List RuleSource
  connective : Connective

/-- The tree of the joined rules. -/
structure CombineResponse where
  combined : Node

/-- Asks to evaluate a tree on a record, and whether to say which comparisons were looked
at. -/
structure EvaluateRequest where
  ast : Node
  data : Record
  traced : Bool

/-- The result, with the trace if it was asked for. -/
structure EvaluateResponse where
  result : Bool
  trace : Option (List String)

/-- The rule of a source that stands at the given place. A blank text is a missing rule. -/
def RuleSource.toRule (index : Nat) : RuleSource → Except RuleError Rule
  | text s =>
      if Text.isBlankText s then .error (.combine (.missingOperand index))
      else liftError .compile (Rule.compile s)
  | tree node => liftError .decode node.toRule

/-- The rules of sources, the first of which stands at the given place. The first one that
is refused counts. -/
def rulesOf (index : Nat) : List RuleSource → Except RuleError (List Rule)
  | [] => .ok []
  | source :: rest => do
      let rule ← source.toRule index
      let rules ← rulesOf (index + 1) rest
      return rule :: rules

def create (request : CreateRequest) : Except RuleError CreateResponse := do
  let rule ← liftError .compile (Rule.compile request.rule)
  return ⟨request.rule, .ofRule rule⟩

def combine (request : CombineRequest) : Except RuleError CombineResponse := do
  let rules ← rulesOf 0 request.rules
  let combined ← liftError .combine (Rule.combineAll request.connective rules)
  return ⟨.ofRule combined⟩

def evaluate (request : EvaluateRequest) : Except RuleError EvaluateResponse := do
  let rule ← liftError .decode request.ast.toRule
  let evaluation ← liftError .eval (rule.evaluate request.data request.traced)
  return ⟨evaluation.matched, if request.traced then some evaluation.trace else none⟩

end ComparisonRules.Service
