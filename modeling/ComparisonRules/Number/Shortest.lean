import ComparisonRules.Number.Decimal

/-!
# Shortest decimals

The decimal written for a magnitude has the fewest digits that read back to the same
magnitude, and among those it is the nearest. At most seventeen digits are ever needed;
whatever the search gives has been read back, and the exact value stands behind it, so
nothing is written that does not read back.
-/

namespace ComparisonRules

/-- Which of two equally near decimals is written. -/
inductive TieRule where
  | up
  | even
deriving DecidableEq

namespace Magnitude

/-- A magnitude as the exact decimal `units * 5 ^ 1074 * 10 ^ -1074`. -/
def exactDecimal (m : Magnitude) : Decimal :=
  ⟨unitsOfRank m.rank * Nat.pow 5 1074, -1074⟩

/-- The magnitude over `10 ^ exponent`, as a numerator and a denominator. -/
def quotient (m : Magnitude) (exponent : Int) : Nat × Nat :=
  (unitsOfRank m.rank * Nat.pow 10 (-exponent).toNat,
    unitsPerOne * Nat.pow 10 exponent.toNat)

/-- The power of ten just above a positive finite magnitude. The power of two below it
leaves two candidates, because `30103 / 100000` is the logarithm of two to five places. -/
def top (m : Magnitude) : Int :=
  let power : Int := (unitsOfRank m.rank).log2 - 1074
  let low := power * 30103 / 100000 + 1
  let (numerator, denominator) := m.quotient low
  if numerator < denominator then low else low + 1

/-- Of the whole numbers `low` and `low + 1` around a quotient the nearer one. -/
def nearerWhole (tie : TieRule) (numerator denominator low : Nat) : Nat :=
  let twice := 2 * (numerator - low * denominator)
  if twice < denominator then low
  else if denominator < twice then low + 1
  else match tie with
    | .up => low + 1
    | .even => if low % 2 = 0 then low else low + 1

/-- The decimal on the grid of `10 ^ exponent` that reads back to the magnitude, if one of
its two neighbours there does. -/
def onGrid? (tie : TieRule) (m : Magnitude) (exponent : Int) : Option Decimal :=
  let (numerator, denominator) := m.quotient exponent
  let low := numerator / denominator
  let readsBack (n : Nat) : Bool := (Decimal.mk n exponent).magnitude == m
  match readsBack low, readsBack (low + 1) with
  | true, true => some ⟨nearerWhole tie numerator denominator low, exponent⟩
  | true, false => some ⟨low, exponent⟩
  | false, true => some ⟨low + 1, exponent⟩
  | false, false => none

/-- The shortest decimal of a finite magnitude, without trailing zeros. -/
def shortest (tie : TieRule) (m : Magnitude) : Decimal :=
  if m.rank = 0 then ⟨0, 0⟩
  else
    let grids := (List.range 17).map fun n => m.top - (n + 1 : Nat)
    ((grids.findSome? (m.onGrid? tie)).getD m.exactDecimal).reduced

end Magnitude

end ComparisonRules
