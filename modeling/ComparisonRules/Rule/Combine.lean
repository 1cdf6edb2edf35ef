import ComparisonRules.Rule.Basic

/-!
# Combining rules

Rules that are already compiled are joined under one connective, from left to right.
-/

namespace ComparisonRules

/-- Why rules cannot be combined. Places are counted from zero. -/
inductive CombineError where
  | missingOperand (index : Nat)
  | tooDeep (index : Nat)
deriving DecidableEq

namespace CombineError

def index : CombineError → Nat
  | missingOperand index => index
  | tooDeep index => index

def message : CombineError → String
  | missingOperand index => "missing operand at index " ++ Nat.repr index
  | tooDeep index =>
      "rule at index " ++ Nat.repr index ++ " would nest the combined tree more than "
        ++ Nat.repr Rule.maxDepth ++ " levels deep"

end CombineError

namespace Rule

/-- Joins two rules either of which may be missing. The depth is not limited here. -/
def joinOptional (left : Option Rule) (connective : Connective) (right : Option Rule) :
    Except CombineError Rule :=
  match left, right with
  | none, _ => .error (.missingOperand 0)
  | some _, none => .error (.missingOperand 1)
  | some left, some right => .ok (join left connective right)

/-- Joins further rules to a rule of known depth, the first of them at the given place. -/
def combineOnto (connective : Connective) (combined : Rule) (depth index : Nat) :
    List Rule → Except CombineError Rule
  | [] => .ok combined
  | rule :: rest =>
      let deeper := 1 + max depth rule.depth
      if maxDepth < deeper then .error (.tooDeep index)
      else combineOnto connective (join combined connective rule) deeper (index + 1) rest

/-- Joins all rules from left to right. A single rule stays as it is, whatever its depth;
a joint that would be too deep is refused at the rule that makes it so. -/
def combineAll (connective : Connective) : List Rule → Except CombineError Rule
  | [] => .error (.missingOperand 0)
  | first :: rest => combineOnto connective first first.depth 1 rest

end Rule

end ComparisonRules
