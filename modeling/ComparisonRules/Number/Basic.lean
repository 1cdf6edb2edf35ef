/-!
# Binary64 numbers

A number is either not a number or a sign with a magnitude. Magnitudes are counted by
rank: rank zero is zero, every next rank is the next larger binary64 magnitude, and the
last rank is infinity. Comparing numbers is therefore comparing ranks, and the two signed
zeros are equal because both have rank zero.
-/

namespace ComparisonRules

namespace Magnitude

/-- Number of ranks from one power of two to the next. -/
def binade : Nat := Nat.pow 2 52

/-- Number of finite magnitudes, and the rank of infinity after them. -/
def infiniteRank : Nat := 2047 * binade

end Magnitude

/-- The absolute value of a number, given by its place among all of them. -/
structure Magnitude where
  rank : Nat
  rank_le : rank ≤ Magnitude.infiniteRank
deriving DecidableEq

/-- A binary64 number. There is one value that is not a number, and zero has a sign. -/
inductive Number where
  | nan
  | signed (negative : Bool) (magnitude : Magnitude)
deriving DecidableEq

namespace Magnitude

/-- The magnitude of the given rank, or infinity if there are not that many. -/
def ofRank (rank : Nat) : Magnitude :=
  ⟨min rank infiniteRank, Nat.min_le_right _ _⟩

def zero : Magnitude := ofRank 0

def infinite : Magnitude := ofRank infiniteRank

def isFinite (m : Magnitude) : Bool :=
  decide (m.rank < infiniteRank)

/-- How many of the smallest positive magnitude make one. -/
def unitsPerOne : Nat := Nat.pow 2 1074

/-- Value of a rank in multiples of the smallest positive magnitude, which is `2 ^ -1074`.
In the first two binades the ranks count these units; above, the distance between
neighbours doubles with every binade. -/
def unitsOfRank (rank : Nat) : Nat :=
  if rank < 2 * binade then rank
  else (binade + rank % binade) * Nat.pow 2 (rank / binade - 1)

/-- The last rank whose value is at most the given number of units. -/
def rankOfUnits (units : Nat) : Nat :=
  if units < 2 * binade then units
  else
    let shift := units.log2 - 52
    shift * binade + units / Nat.pow 2 shift

@[simp] theorem rank_ofRank {rank : Nat} (h : rank ≤ infiniteRank) :
    (ofRank rank).rank = rank := by
  simp [ofRank, Nat.min_eq_left h]

@[simp] theorem ofRank_rank (m : Magnitude) : ofRank m.rank = m := by
  cases m with
  | mk rank rank_le => simp [ofRank, Nat.min_eq_left rank_le]

end Magnitude

namespace Number

def isFinite : Number → Bool
  | nan => false
  | signed _ m => m.isFinite

/-- Position of a number on the line of all numbers; both zeros stand at zero. -/
def position? : Number → Option Int
  | nan => none
  | signed false m => some m.rank
  | signed true m => some (-m.rank)

/-- How two numbers compare. What is not a number compares with nothing. -/
def compare? (a b : Number) : Option Ordering :=
  match a.position?, b.position? with
  | some p, some q => some (compare p q)
  | _, _ => none

/-- Numeric equality: the zeros are equal and what is not a number equals nothing. -/
def equals (a b : Number) : Bool :=
  a.compare? b == some .eq

@[simp] theorem nan_compare? (b : Number) : nan.compare? b = none := rfl

@[simp] theorem compare?_nan (a : Number) : a.compare? nan = none := by
  simp [compare?, position?]

end Number

end ComparisonRules
