import Criteria.Number.Binary64

/-!
# Rounding to the nearest number

A quotient of natural numbers is rounded to the nearest binary64 magnitude, and to the one with
the even rank where two are equally near. Magnitudes from half a unit above the last finite one
on round to infinity. Every reading of a number rounds once, here.
-/

namespace Criteria.Number

/-- The integer nearest to a quotient; a half goes to the even neighbour. -/
def roundHalfEven (num den : Nat) : Nat :=
  let floor := num / den
  let twice := 2 * (num % den)
  if twice < den then floor
  else if den < twice then floor + 1
  else floor + floor % 2

/-- The rank of the magnitude nearest to a quotient of units. The spacing is that of the block in
which the quotient lies; a quotient rounded up to the end of its block has the first rank of the
next. -/
def nearestRank (num den : Nat) : Nat :=
  let shift := (num / den).log2 - 52
  shift * Nat.pow 2 52 + roundHalfEven num (den * Nat.pow 2 shift)

namespace Binary64

/-- The number nearest to a quotient of units. -/
def ofUnits (negative : Bool) (num den : Nat) : Binary64 :=
  if h : nearestRank num den < rankBound then
    finite negative ⟨nearestRank num den, h⟩
  else
    infinite negative

/-- The number nearest to an integer. -/
def ofInt (value : Int) : Binary64 :=
  ofUnits (value < 0) (value.natAbs * unitsOfOne) 1

/-- The number nearest to a natural number. -/
def ofNat (value : Nat) : Binary64 :=
  ofUnits false (value * unitsOfOne) 1

end Binary64

end Criteria.Number
