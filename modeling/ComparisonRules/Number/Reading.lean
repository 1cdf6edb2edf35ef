import ComparisonRules.Number.Decimal

/-!
# Reading numbers

A number given on its own may have a sign, a decimal point with digits on at least one side
of it, and an exponent. Infinity and what is not a number are spelled in words, in any case.
-/

namespace ComparisonRules

namespace Number

/-- Splits a leading sign off; true stands for minus. -/
def splitSign : List Char → Bool × List Char
  | '-' :: rest => (true, rest)
  | '+' :: rest => (false, rest)
  | cs => (false, cs)

/-- A power of ten written as `e` or `E`, an optional sign and digits, or nothing. -/
def exponent? : List Char → Option Int
  | [] => some 0
  | e :: rest =>
      let (negative, ds) := splitSign rest
      if (e = 'e' ∨ e = 'E') ∧ !ds.isEmpty ∧ ds.all Char.isDigit then
        some (if negative then -(Decimal.ofDigits ds : Int) else Decimal.ofDigits ds)
      else none

/-- An unsigned decimal, with an exponent or without. -/
def decimal? (cs : List Char) : Option Decimal :=
  let (whole, rest) := Decimal.splitDigits cs
  let (fraction, tail) := match rest with
    | '.' :: more => Decimal.splitDigits more
    | _ => ([], rest)
  if whole.isEmpty ∧ fraction.isEmpty then none
  else (exponent? tail).map (Decimal.ofParts whole fraction)

/-- The number that a text stands for, if it stands for one. -/
def ofText? (text : String) : Option Number :=
  let (negative, cs) := splitSign text.toList
  let word := String.ofList (cs.map Char.toLower)
  if word = "nan" then some .nan
  else if word = "inf" ∨ word = "infinity" then some (.signed negative .infinite)
  else (decimal? cs).map fun d => .signed negative d.magnitude

end Number

end ComparisonRules
