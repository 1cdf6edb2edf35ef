import ComparisonRules.Comparator
import ComparisonRules.Connective
import ComparisonRules.Value

/-!
# Tokens

The pieces of a rule text that mean something, with the place where each was found. All
places are byte offsets in the UTF-8 form of the text.
-/

namespace ComparisonRules

namespace Token

/-- What a token is. -/
inductive Kind where
  | leftParen
  | rightParen
  | comparator (c : Comparator)
  | connective (c : Connective)
  | number
  | string
  | identifier
  | endOfInput
deriving DecidableEq

namespace Kind

def name : Kind → String
  | leftParen => "LeftParen"
  | rightParen => "RightParen"
  | comparator .greater => "Greater"
  | comparator .greaterOrEqual => "GreaterEqual"
  | comparator .less => "Less"
  | comparator .lessOrEqual => "LessEqual"
  | comparator .equal => "EqualEqual"
  | comparator .notEqual => "BangEqual"
  | connective .and => "And"
  | connective .or => "Or"
  | number => "Number"
  | string => "Str"
  | identifier => "Identifier"
  | endOfInput => "EOF"

def all : List Kind :=
  [leftParen, rightParen] ++ Comparator.all.map comparator
    ++ [connective .and, connective .or, number, string, identifier, endOfInput]

def ofName? (name : String) : Option Kind :=
  all.find? fun kind => kind.name == name

def isComparator : Kind → Bool
  | comparator _ => true
  | _ => false

def isConnective : Kind → Bool
  | connective _ => true
  | _ => false

def isLiteral : Kind → Bool
  | number => true
  | string => true
  | _ => false

end Kind

end Token

/-- A piece of rule text. A literal also carries the value that it stands for. -/
structure Token where
  kind : Token.Kind
  lexeme : String
  literal : Option Value
  offset : Nat
deriving DecidableEq

namespace Token

/-- The token behind the last piece of a text of the given byte length. -/
def endAt (offset : Nat) : Token :=
  ⟨.endOfInput, "", none, offset⟩

/-- Number of bytes that the token takes in the text. -/
def width (t : Token) : Nat :=
  Text.byteLength t.lexeme.toList

def description (t : Token) : String :=
  if t.kind = .endOfInput then "end of input" else "'" ++ t.lexeme ++ "'"

/-- The token with its kind and, if it has one, its value. -/
def text (t : Token) : String :=
  t.kind.name ++ " " ++ t.lexeme ++
    match t.literal with
    | none => ""
    | some value => " " ++ value.text

end Token

end ComparisonRules
