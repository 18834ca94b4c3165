/-!
# Binary64 numbers

The numbers of rules and records are those of the binary64 format, held exactly. A finite
magnitude is known by its rank, its place in the increasing list of the magnitudes that the
format has: the subnormal ones come first, one unit of `2 ^ -1074` apart, and from rank `2 ^ 52`
on each block of `2 ^ 52` ranks is spaced twice as widely as the block before it.

Numbers are ordered by their place on the line of units. A value that is not a number has no place,
and is neither before nor after anything. Equality is decided on the numbers as they are held.
-/

namespace Criteria.Number

/-- The ranks of the finite magnitudes are those below this one. -/
def rankBound : Nat := 2047 * Nat.pow 2 52

/-- A binary64 number. Zero has rank 0 and, like every number, a sign of its own. -/
inductive Binary64 where
  | nan
  | infinite (negative : Bool)
  | finite (negative : Bool) (rank : Fin rankBound)
deriving DecidableEq

/-- One in units of `2 ^ -1074`. -/
def unitsOfOne : Nat := Nat.pow 2 1074

/-- The magnitude of a rank in units of `2 ^ -1074`. The rank less its shift in blocks is the
significand; where the blocks begin, at `2 ^ 52`, it is at least `2 ^ 52` itself. -/
def unitsOfRank (rank : Nat) : Nat :=
  let shift := rank / Nat.pow 2 52 - 1
  (rank - shift * Nat.pow 2 52) * Nat.pow 2 shift

namespace Binary64

/-- A magnitude in units with a sign put to it. -/
def signed (negative : Bool) (units : Nat) : Int :=
  if negative then -(units : Int) else units

/-- The place of a number on the line of units. An infinity stands where the magnitude after the
last finite one would stand. -/
def place? : Binary64 → Option Int
  | nan => none
  | infinite negative => some (signed negative (unitsOfRank rankBound))
  | finite negative rank => some (signed negative (unitsOfRank rank))

/-- The order of two numbers; none if one of them is not a number. -/
def compare? (x y : Binary64) : Option Ordering :=
  match x.place?, y.place? with
  | some a, some b => some (compare a b)
  | _, _ => none

/-- Numeric equality: a number equals itself, the two zeros are equal, and a value that is not a
number equals nothing. -/
def equals : Binary64 → Binary64 → Bool
  | infinite negative, infinite negative' => negative == negative'
  | finite negative rank, finite negative' rank' =>
    rank == rank' && (negative == negative' || rank.val == 0)
  | _, _ => false

/-- The number is neither infinite nor a value that is not a number. -/
def isFinite : Binary64 → Bool
  | finite .. => true
  | _ => false

/-- The sign of the number; a value that is not a number has none. -/
def isNegative : Binary64 → Bool
  | nan => false
  | infinite negative => negative
  | finite negative _ => negative

end Binary64

end Criteria.Number
