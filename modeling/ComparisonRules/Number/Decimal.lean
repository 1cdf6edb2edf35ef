import ComparisonRules.Number.Basic

/-!
# Decimal numbers

A decimal number is a whole significand and a power of ten. Here is its binary64 value,
correctly rounded: the nearest magnitude, and of two equally near ones the one of even rank.
-/

namespace ComparisonRules

namespace Magnitude

/-- The rank nearest to the quotient. A quotient halfway between two ranks goes to the
even one. -/
def nearestRank (numerator denominator : Nat) : Nat :=
  let scaled := numerator * unitsPerOne
  let low := rankOfUnits (scaled / denominator)
  let middle := (unitsOfRank low + unitsOfRank (low + 1)) * denominator
  if 2 * scaled < middle then low
  else if middle < 2 * scaled then low + 1
  else if low % 2 = 0 then low
  else low + 1

/-- The magnitude nearest to the quotient; what lies beyond the last finite one by half a
step or more is infinite. -/
def nearest (numerator denominator : Nat) : Magnitude :=
  ofRank (nearestRank numerator denominator)

end Magnitude

/-- The number `significand * 10 ^ exponent`. -/
structure Decimal where
  significand : Nat
  exponent : Int
deriving DecidableEq

namespace Decimal

/-- The decimal digits of a whole number, without leading zeros. -/
def digits (n : Nat) : List Char :=
  Nat.toDigits 10 n

/-- The whole number that the digits spell; leading zeros do not count. -/
def ofDigits (ds : List Char) : Nat :=
  ds.foldl (fun value d => 10 * value + (d.toNat - '0'.toNat)) 0

/-- Splits a text after its leading ASCII digits. -/
def splitDigits (cs : List Char) : List Char × List Char :=
  (cs.takeWhile Char.isDigit, cs.dropWhile Char.isDigit)

/-- The number with the given digits before and after the decimal point, times a power of
ten. -/
def ofParts (whole fraction : List Char) (exponent : Int) : Decimal :=
  ⟨ofDigits (whole ++ fraction), exponent - fraction.length⟩

@[simp] theorem splitDigits_append (cs : List Char) :
    (splitDigits cs).1 ++ (splitDigits cs).2 = cs := by
  simp [splitDigits, List.takeWhile_append_dropWhile]

/-- The number is below ten to this power, and not below the power before. -/
def top (d : Decimal) : Int :=
  d.exponent + (digits d.significand).length

/-- The same number without trailing zeros in the significand. -/
def reduced (d : Decimal) : Decimal :=
  if h : 0 < d.significand ∧ d.significand % 10 = 0 then
    reduced ⟨d.significand / 10, d.exponent + 1⟩
  else d
termination_by d.significand
decreasing_by
  omega

/-- The nearest binary64 magnitude. Numbers far beyond the finite magnitudes, or far below
the smallest one, are settled by their size alone. -/
def magnitude (d : Decimal) : Magnitude :=
  if d.significand = 0 then Magnitude.zero
  else if 400 < d.top then Magnitude.infinite
  else if d.top < -400 then Magnitude.zero
  else
    Magnitude.nearest (d.significand * Nat.pow 10 d.exponent.toNat)
      (Nat.pow 10 (-d.exponent).toNat)

end Decimal

end ComparisonRules
