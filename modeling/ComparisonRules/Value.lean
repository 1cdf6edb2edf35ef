import ComparisonRules.Number.Layout
import ComparisonRules.Text.Quoted

/-!
# Values

A record holds numbers and strings, and a rule compares them with literals of the same two
types. A string literal has no escapes: it is written between quotes that it does not
contain, so a string with both kinds of quote has no literal.
-/

namespace ComparisonRules

/-- A value of a record field, and a literal of a rule. -/
inductive Value where
  | number (n : Number)
  | string (s : String)
deriving DecidableEq

namespace Value

/-- Name of the type of a value, for messages. -/
def typeName : Value → String
  | number _ => "number"
  | string _ => "string"

def mentions (s : String) (c : Char) : Bool :=
  s.toList.contains c

/-- Whether the value can be written as a literal, as far as its quotes are concerned. -/
def isQuotable : Value → Bool
  | number _ => true
  | string s => !(mentions s Text.singleQuote && mentions s Text.doubleQuote)

/-- The quote that a string literal is written with: single, unless the string has one. -/
def quoteFor (s : String) : Char :=
  if mentions s Text.singleQuote then Text.doubleQuote else Text.singleQuote

def text : Value → String
  | number n => n.text
  | string s => String.ofList (quoteFor s :: s.toList ++ [quoteFor s])

/-- Equality as comparisons see it: numbers by their value, strings by their text. -/
def equals : Value → Value → Bool
  | number a, number b => a.equals b
  | string a, string b => a == b
  | _, _ => false

end Value

end ComparisonRules
