import ComparisonRules.Node.Basic
import ComparisonRules.Rule.Compile

/-!
# Decoding nodes

A tree of nodes is a rule if every node has what its kind needs. The first node that lacks
something is refused, an operator before its children and the left child before the right.
An operand may also be stored as the text of a single comparison.
-/

namespace ComparisonRules

/-- What a node may lack. -/
inductive Node.Part where
  | value
  | field
  | literal
deriving DecidableEq

def Node.Part.text : Node.Part → String
  | value => "value"
  | field => "field"
  | literal => "literal"

/-- Which child of an operator. -/
inductive Node.Side where
  | left
  | right
deriving DecidableEq

def Node.Side.text : Node.Side → String
  | left => "left"
  | right => "right"

/-- Why a text is not a single comparison. -/
inductive OperandFault where
  | notARule (e : CompileError)
  | notSingle
deriving DecidableEq

def OperandFault.message : OperandFault → String
  | notARule e => e.message
  | notSingle => "expected a single comparison"

/-- Why a tree of nodes is not a rule. -/
inductive DecodeError where
  | missingChild (operator : String) (side : Node.Side)
  | unknownOperator (value : String)
  | unknownComparator (value : String)
  | missingPart (part : Node.Part)
  | unexpectedChildren
  | invalidOperandText (text : String) (fault : OperandFault)
  | unquotableLiteral (literal : String)
  | tooDeep
deriving DecidableEq

def DecodeError.message : DecodeError → String
  | missingChild operator side =>
      "operator node '" ++ operator ++ "' is missing its " ++ side.text ++ " child"
  | unknownOperator value => "unknown logical operator '" ++ value ++ "'"
  | unknownComparator value => "unknown comparator '" ++ value ++ "'"
  | missingPart part => "operand node is missing '" ++ part.text ++ "'"
  | unexpectedChildren => "operand node must not have children"
  | invalidOperandText text fault =>
      "operand '" ++ text ++ "' is not a valid comparison: " ++ fault.message
  | unquotableLiteral literal =>
      "string literal " ++ Text.quoted literal ++ " contains both quote characters"
  | tooDeep => "tree is nested more than " ++ Nat.repr Rule.maxDepth ++ " levels deep"

namespace Node

/-- A part that a node must have. -/
def require {α : Type} (part : Part) : Option α → Except DecodeError α
  | some value => .ok value
  | none => .error (.missingPart part)

def connectiveOf (value : Option String) : Except DecodeError Connective := do
  let word ← require .value value
  match Connective.ofWord? word with
  | some connective => .ok connective
  | none => .error (.unknownOperator word)

/-- The comparison that a text spells. -/
def comparisonOfText (text : String) : Except DecodeError Rule :=
  match Rule.compile text with
  | .ok (.leaf c) => .ok (.leaf c)
  | .ok (.join _ _ _) => .error (.invalidOperandText text .notSingle)
  | .error e => .error (.invalidOperandText text (.notARule e))

def comparisonOfParts (value : String) (field : Option String) (literal : Option Value) :
    Except DecodeError Rule := do
  match Comparator.ofSymbol? value with
  | none => .error (.unknownComparator value)
  | some comparator =>
      let field ← require .field field
      let literal ← require .literal literal
      match literal with
      | .string s =>
          if (Value.string s).isQuotable then .ok (.leaf ⟨field, comparator, .string s⟩)
          else .error (.unquotableLiteral s)
      | .number n => .ok (.leaf ⟨field, comparator, .number n⟩)

/-- The comparison of an operand node, given by its parts or, with neither field nor
literal, as a text. -/
def decodeOperand (value : Option String) (hasChildren : Bool) (field : Option String)
    (literal : Option Value) : Except DecodeError Rule := do
  if hasChildren then .error .unexpectedChildren
  else
    let value ← require .value value
    if field.isNone && literal.isNone && (Comparator.ofSymbol? value).isNone then
      comparisonOfText value
    else comparisonOfParts value field literal

/-- The rule that a tree of nodes stores, below the given number of operators. -/
def decodeAt (level : Nat) : Node → Except DecodeError Rule
  | ⟨.operator, value, left, right, _, _⟩ =>
      if level = Rule.maxDepth then .error .tooDeep
      else do
        let connective ← connectiveOf value
        match left, right with
        | none, _ => .error (.missingChild (value.getD "") .left)
        | some _, none => .error (.missingChild (value.getD "") .right)
        | some left, some right => do
            let leftRule ← decodeAt (level + 1) left
            let rightRule ← decodeAt (level + 1) right
            return .join leftRule connective rightRule
  | ⟨.operand, value, left, right, field, literal⟩ =>
      decodeOperand value (left.isSome || right.isSome) field literal

/-- The rule that a tree of nodes stores. -/
def toRule (node : Node) : Except DecodeError Rule :=
  node.decodeAt 0

end Node

end ComparisonRules
