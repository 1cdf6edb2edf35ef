import ComparisonRules.Number.Shortest

/-!
# Number texts

How numbers are written. Rule text spells out every digit and never has an exponent; JSON
text has a decimal point in every number and an exponent on very large and very small ones.
Both write the shortest decimal.
-/

namespace ComparisonRules

namespace Decimal

/-- The decimal point among the digits: `point` digits stand before it, zeros filled in on
either side. Without digits behind it there is no point. -/
def spelledAt (ds : List Char) (point : Int) : List Char :=
  if point ≤ 0 then '0' :: '.' :: (List.replicate (-point).toNat '0' ++ ds)
  else if ds.length ≤ point.toNat then ds ++ List.replicate (point.toNat - ds.length) '0'
  else ds.take point.toNat ++ '.' :: ds.drop point.toNat

/-- The decimal with all digits spelled out and no exponent. -/
def spelledOut (d : Decimal) : List Char :=
  if d.significand = 0 then ['0'] else spelledAt (digits d.significand) d.top

/-- The decimal with one digit before the point and a signed power of ten. -/
def scientific (d : Decimal) : List Char :=
  let power := d.top - 1
  let fraction := (digits d.significand).drop 1
  (digits d.significand).take 1
    ++ (if fraction.isEmpty then [] else '.' :: fraction)
    ++ ['e', if power < 0 then '-' else '+']
    ++ digits power.natAbs

/-- The text of a decimal in JSON: spelled out with at least one place behind the point if
the power of its first digit is at least -5 and below 16, scientific otherwise. -/
def jsonText (d : Decimal) : List Char :=
  if d.significand = 0 then ['0', '.', '0']
  else if -5 ≤ d.top - 1 ∧ d.top - 1 < 16 then
    d.spelledOut ++ (if 0 ≤ d.exponent then ['.', '0'] else [])
  else d.scientific

end Decimal

namespace Number

/-- The sign that a number is written with; positive numbers have none. -/
def signText (negative : Bool) : List Char :=
  if negative then ['-'] else []

/-- The text of a number in rules and messages. Of two equally near shortest decimals it
shows the larger. -/
def text : Number → String
  | nan => "NaN"
  | signed negative m =>
      String.ofList (signText negative ++
        if m.isFinite then (m.shortest .up).spelledOut else ['i', 'n', 'f'])

/-- The JSON text of a number. JSON has no infinity and nothing for what is not a number,
so these are written as null. Of two equally near shortest decimals it shows the even one. -/
def jsonText : Number → List Char
  | nan => ['n', 'u', 'l', 'l']
  | signed negative m =>
      if m.isFinite then signText negative ++ (m.shortest .even).jsonText
      else ['n', 'u', 'l', 'l']

end Number

end ComparisonRules
