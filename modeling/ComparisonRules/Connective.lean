/-!
# Connectives

Rules are joined by AND and OR. The words may be written in any case.
-/

namespace ComparisonRules

/-- How two rules are joined into one. -/
inductive Connective where
  | and
  | or
deriving DecidableEq

namespace Connective

def text : Connective → String
  | and => "AND"
  | or => "OR"

/-- The connective that a word stands for, in any ASCII case. -/
def ofWord? (word : String) : Option Connective :=
  match word.toList.map Char.toLower with
  | ['a', 'n', 'd'] => some and
  | ['o', 'r'] => some or
  | _ => none

/-- Whether the left side alone settles the result, which then is the left side's. -/
def settledBy : Connective → Bool → Bool
  | and, left => !left
  | or, left => left

def apply : Connective → Bool → Bool → Bool
  | and, left, right => left && right
  | or, left, right => left || right

theorem apply_of_settledBy {c : Connective} {left : Bool} (h : c.settledBy left = true)
    (right : Bool) : c.apply left right = left := by
  cases c <;> cases left <;> simp_all [settledBy, apply]

theorem apply_of_not_settledBy {c : Connective} {left : Bool} (h : c.settledBy left = false)
    (right : Bool) : c.apply left right = right := by
  cases c <;> cases left <;> simp_all [settledBy, apply]

end Connective

end ComparisonRules
