import ComparisonRules.Record
import ComparisonRules.Rule.Basic

/-!
# Evaluating rules

A rule is evaluated on a record from left to right. When the left side of a joint settles
the result, the right side is not looked at, and nothing that is wrong there comes up.
-/

namespace ComparisonRules

/-- Why a rule has no result on a record. -/
inductive EvalError where
  | unknownField (field : String)
  | typeMismatch (field : String) (comparator : Comparator) (expected found : String)
deriving DecidableEq

def EvalError.message : EvalError → String
  | unknownField field => "unknown field '" ++ field ++ "'"
  | typeMismatch field comparator expected found =>
      "type mismatch: cannot compare " ++ found ++ " field '" ++ field ++ "' with "
        ++ expected ++ " literal using '" ++ comparator.symbol ++ "'"

/-- How two values compare: numbers by size and strings by their code points. Values of
different types do not compare at all, which is `none`. -/
def Value.compare? : Value → Value → Option (Option Ordering)
  | number a, number b => some (a.compare? b)
  | string a, string b => some (some (compare a b))
  | _, _ => none

namespace Comparison

/-- Whether a comparison holds on a record. Values of different types are unequal, and
cannot be ordered. -/
def holds (c : Comparison) (record : Record) : Except EvalError Bool :=
  match record.get? c.field with
  | none => .error (.unknownField c.field)
  | some value =>
      match value.compare? c.literal with
      | some order => .ok (c.comparator.accepts order)
      | none =>
          if c.comparator.isOrdering then
            .error (.typeMismatch c.field c.comparator c.literal.typeName value.typeName)
          else .ok (c.comparator.accepts none)

def traceLine (c : Comparison) (result : Bool) : String :=
  c.text ++ " => " ++ if result then "true" else "false"

end Comparison

/-- The result of a rule, with a line for every comparison that was looked at. -/
structure Evaluation where
  matched : Bool
  trace : List String
deriving DecidableEq

namespace Rule

/-- Evaluates a rule and keeps the whole trace. -/
def evaluateTraced (record : Record) : Rule → Except EvalError Evaluation
  | leaf c => do
      let result ← c.holds record
      return ⟨result, [c.traceLine result]⟩
  | join left connective right => do
      let first ← left.evaluateTraced record
      if connective.settledBy first.matched then return first
      let second ← right.evaluateTraced record
      return ⟨second.matched, first.trace ++ second.trace⟩

/-- Evaluates a rule on a record. The trace is empty unless it is asked for. -/
def evaluate (rule : Rule) (record : Record) (traced : Bool) : Except EvalError Evaluation := do
  let evaluation ← rule.evaluateTraced record
  return ⟨evaluation.matched, if traced then evaluation.trace else []⟩

end Rule

end ComparisonRules
