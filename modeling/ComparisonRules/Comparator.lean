/-!
# Comparators

The six ways in which a comparison relates the value of a field to a literal.
-/

namespace ComparisonRules

/-- How a comparison relates its field to its literal. -/
inductive Comparator where
  | greater
  | greaterOrEqual
  | less
  | lessOrEqual
  | equal
  | notEqual
deriving DecidableEq

namespace Comparator

/-- All comparators, in the order in which messages list them. -/
def all : List Comparator :=
  [greater, greaterOrEqual, less, lessOrEqual, equal, notEqual]

def symbol : Comparator → String
  | greater => ">"
  | greaterOrEqual => ">="
  | less => "<"
  | lessOrEqual => "<="
  | equal => "=="
  | notEqual => "!="

def ofSymbol? (text : String) : Option Comparator :=
  all.find? fun c => c.symbol == text

/-- The comparator that says the same with its two sides exchanged. -/
def flip : Comparator → Comparator
  | greater => less
  | greaterOrEqual => lessOrEqual
  | less => greater
  | lessOrEqual => greaterOrEqual
  | equal => equal
  | notEqual => notEqual

/-- Ordering comparators need two values of one type; the other two do not. -/
def isOrdering (c : Comparator) : Bool :=
  !(c == equal || c == notEqual)

/-- Whether the comparator holds between two values that compare as given. Values that do
not compare at all are different and nothing else. -/
def accepts : Comparator → Option Ordering → Bool
  | notEqual, none => true
  | _, none => false
  | greater, some o => o == .gt
  | greaterOrEqual, some o => o != .lt
  | less, some o => o == .lt
  | lessOrEqual, some o => o != .gt
  | equal, some o => o == .eq
  | notEqual, some o => o != .eq

theorem flip_flip (c : Comparator) : c.flip.flip = c := by
  cases c <;> rfl

theorem ofSymbol?_symbol (c : Comparator) : ofSymbol? c.symbol = some c := by
  cases c <;> decide

theorem symbol_of_ofSymbol? {c : Comparator} {text : String} (h : ofSymbol? text = some c) :
    c.symbol = text := by
  have hfound := List.find?_some h
  exact beq_iff_eq.mp hfound

end Comparator

end ComparisonRules
