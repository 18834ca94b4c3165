import Criteria.Number.Rounding

/-!
# Scaling by powers of ten

A coefficient is scaled by the arithmetic of the format, which rounds at every step: the
coefficient becomes the nearest number, so does the power of ten, and their product or quotient is
rounded once more. The result may lie next to the number that is nearest to the exact value; it is
that number where coefficient and power are numbers as they stand.

No power of ten beyond `10 ^ 308` is finite. Upwards such a power makes all but zero infinite, and
downwards it is divided out in steps of `10 ^ 308`.
-/

namespace Criteria.Number

/-- The magnitude of the number nearest to a quotient of units, in units. -/
def nearestUnits (num den : Nat) : Nat :=
  unitsOfRank (nearestRank num den)

/-- The magnitude of the number nearest to a natural number, in units. -/
def unitsOfNat (value : Nat) : Nat :=
  nearestUnits (value * unitsOfOne) 1

/-- The exponent of the greatest finite power of ten. -/
def maxPower : Nat := 308

/-- A magnitude in units, divided so many times by the greatest power. -/
def lowered : Nat → Nat → Nat
  | 0, units => units
  | steps + 1, units =>
    if units = 0 then 0
    else lowered steps (nearestUnits (units * unitsOfOne) (unitsOfNat (Nat.pow 10 maxPower)))

namespace Binary64

/-- A coefficient scaled by a power of ten. -/
def scaled (negative : Bool) (coefficient : Nat) : Int → Binary64
  | .ofNat e =>
    let power := unitsOfNat (Nat.pow 10 (min e (maxPower + 1)))
    ofUnits negative (unitsOfNat coefficient * power) unitsOfOne
  | .negSucc e =>
    let power := unitsOfNat (Nat.pow 10 (e % maxPower + 1))
    ofUnits negative (lowered (e / maxPower) (unitsOfNat coefficient) * unitsOfOne) power

end Binary64

end Criteria.Number
