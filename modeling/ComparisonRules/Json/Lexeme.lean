import ComparisonRules.Number.Layout
import ComparisonRules.Text.Quoted

/-!
# The parts of a JSON text

A JSON text is cut into marks, words, numbers and strings. Where it cannot be cut any
further the last part says so, and the rest of the text is left out. A fault is thus met
where the text is read up to it, and not before.
-/

namespace ComparisonRules.Json

/-- How a text breaks off: with something that cannot stand there, or by ending too soon. -/
inductive Break where
  | malformed
  | ended
deriving DecidableEq

/-- A number as it is written. -/
structure Numeral where
  negative : Bool
  whole : List Char
  fraction : List Char
  exponent : Int
  isWhole : Bool
deriving DecidableEq

namespace Numeral

/-- How many digits of a number count one by one. No number halfway between two binary64
numbers has more. -/
def maxDigits : Nat := 768

/-- The digits behind the point, without zeros at the end. -/
def trimmedFraction (n : Numeral) : List Char :=
  (n.fraction.reverse.dropWhile fun d => d == '0').reverse

/-- The digits from the first one that is not zero. -/
def digits (n : Numeral) : List Char :=
  (n.whole ++ n.trimmedFraction).dropWhile fun d => d == '0'

/-- The decimal that the first digits spell, with a one for all that follow them. -/
def shortened (n : Numeral) : Decimal :=
  .ofParts (n.digits.take maxDigits) ['1']
    (n.exponent - n.trimmedFraction.length + (n.digits.length - maxDigits : Nat))

/-- The decimal that the digits spell. Behind more digits than count it only matters that
something follows; zeros before the point count as something. -/
def decimal (n : Numeral) : Decimal :=
  if n.digits.length ≤ maxDigits then .ofParts n.whole n.fraction n.exponent
  else n.shortened

/-- The number written, infinite if it is too large. -/
def number (n : Numeral) : Number :=
  .signed n.negative n.decimal.magnitude

end Numeral

/-- A part of a string: a character, or a code of four hexadecimal digits that may be half
of a character. -/
inductive StringUnit where
  | char (c : Char)
  | code (n : Nat)
deriving DecidableEq

/-- A string as it is written. It may break off before its closing quote. -/
structure Quotation where
  units : List StringUnit
  unclosed : Option Break
deriving DecidableEq

namespace Quotation

/-- The codes that are the first half of a character. -/
def isLead (n : Nat) : Bool :=
  decide (0xd800 ≤ n ∧ n < 0xdc00)

/-- The codes that are the second half of a character. -/
def isTrail (n : Nat) : Bool :=
  decide (0xdc00 ≤ n ∧ n < 0xe000)

/-- The characters of the units; halves of characters must come in pairs. -/
def charsOf (unclosed : Option Break) : List StringUnit → Except Break (List Char)
  | [] => match unclosed with
      | none => .ok []
      | some b => .error b
  | .char c :: rest => do
      let cs ← charsOf unclosed rest
      return c :: cs
  | .code n :: rest =>
      if isTrail n then .error .malformed
      else if isLead n then
        match rest with
        | .code m :: behind =>
            if isTrail m then do
              let cs ← charsOf unclosed behind
              return Char.ofNat (0x10000 + (n - 0xd800) * 0x400 + (m - 0xdc00)) :: cs
            else .error .malformed
        | .char _ :: _ => .error .malformed
        | [] => .error (unclosed.getD .malformed)
      else do
        let cs ← charsOf unclosed rest
        return Char.ofNat n :: cs

def text (q : Quotation) : Except Break String := do
  let cs ← charsOf q.unclosed q.units
  return String.ofList cs

end Quotation

/-- A part of a JSON text. -/
inductive Lexeme where
  | openArray
  | closeArray
  | openObject
  | closeObject
  | comma
  | colon
  | null
  | bool (b : Bool)
  | number (n : Numeral)
  | string (q : Quotation)
  | brokenWord (b : Break)
  | brokenNumber (b : Break)
  | stray
deriving DecidableEq

end ComparisonRules.Json
