import ComparisonRules.Comparator
import ComparisonRules.Connective
import ComparisonRules.Value

/-!
# Rules

A rule is a binary tree with comparisons at its leaves and connectives inside. Its canonical
text puts parentheses around every inner joint, so that the text has one reading.
-/

namespace ComparisonRules

/-- A field compared with a literal. The field always stands on the left. -/
structure Comparison where
  field : String
  comparator : Comparator
  literal : Value
deriving DecidableEq

def Comparison.text (c : Comparison) : String :=
  c.field ++ " " ++ c.comparator.symbol ++ " " ++ c.literal.text

/-- Equality as comparisons see it: the literals are compared as values. -/
def Comparison.equals (a b : Comparison) : Bool :=
  a.field == b.field && a.comparator == b.comparator && a.literal.equals b.literal

/-- A condition on records: a comparison, or two rules joined by a connective. -/
inductive Rule where
  | leaf (comparison : Comparison)
  | join (left : Rule) (connective : Connective) (right : Rule)
deriving DecidableEq

namespace Rule

/-- The most joints that may lie above one another, and the most parentheses that may be
open at once. -/
def maxDepth : Nat := 100

/-- Number of joints above the deepest comparison. -/
def depth : Rule → Nat
  | leaf _ => 0
  | join left _ right => 1 + max left.depth right.depth

def comparisons : Rule → List Comparison
  | leaf c => [c]
  | join left _ right => left.comparisons ++ right.comparisons

def comparisonCount : Rule → Nat
  | leaf _ => 1
  | join left _ right => left.comparisonCount + right.comparisonCount

/-- The names of the fields that a rule compares, each once, in order of first use. -/
def fields : Rule → List String
  | leaf c => [c.field]
  | join left _ right =>
      let known := left.fields
      known ++ right.fields.filter fun f => !known.contains f

mutual

def text : Rule → String
  | leaf c => c.text
  | join left connective right =>
      left.operandText ++ " " ++ connective.text ++ " " ++ right.operandText

/-- The text of a rule as a side of a joint: in parentheses unless it is a comparison. -/
def operandText : Rule → String
  | leaf c => c.text
  | join left connective right =>
      "(" ++ (left.operandText ++ " " ++ connective.text ++ " " ++ right.operandText) ++ ")"

end

/-- Equality as comparisons see it: the same tree, with literals compared as values. -/
def equals : Rule → Rule → Bool
  | leaf a, leaf b => a.equals b
  | join l c r, join l' c' r' => c == c' && l.equals l' && r.equals r'
  | _, _ => false

theorem comparisonCount_eq_length (r : Rule) : r.comparisonCount = r.comparisons.length := by
  induction r with
  | leaf c => rfl
  | join left connective right hleft hright =>
      simp [comparisonCount, comparisons, hleft, hright]

theorem operandText_join (left right : Rule) (connective : Connective) :
    (join left connective right).operandText
      = "(" ++ (join left connective right).text ++ ")" := rfl

end Rule

end ComparisonRules
