import Criteria.Fault
import Criteria.Record

/-!
# Evaluation

Whether a record satisfies a formula. Both sides of a join are evaluated, the left one first, so a
field that the record lacks is a fault even where the other side decides. Values of one kind are
compared as they are, and values of different kinds as numbers: a boolean is one or zero, and a
text is the number that it stands for.
-/

namespace Criteria

open Number (Binary64)

/-! ## Comparing values -/

/-- The value that a literal stands for. -/
def Literal.toValue : Literal → Value
  | number value => .number value
  | text value => .text value

namespace Value

/-- The number that a value is compared as. -/
def toNumber : Value → Binary64
  | boolean value => .ofNat value.toNat
  | number value => value
  | text value => .ofText value

/-- Equality of a number and a value. -/
def equalsNumber (number : Binary64) : Value → Bool
  | .boolean y => number.equals (.ofNat y.toNat)
  | .number y => number.equals y
  | .text y => number.equals (.ofText y)

/-- Equality of values: those of one kind are compared as they are, a number and a text by the
number that the text stands for, and a boolean as a number with whatever is no boolean. -/
def looselyEqual : Value → Value → Bool
  | number x, number y => x.equals y
  | text x, text y => x == y
  | boolean x, boolean y => x == y
  | number x, text y | text y, number x => x.equals (.ofText y)
  | boolean x, other | other, boolean x => equalsNumber (boolean x).toNumber other

/-- The order of two texts by their code points. -/
def compareText (x y : String) : Ordering :=
  if x < y then .lt else if x = y then .eq else .gt

/-- The order of values: texts by their code points, all else as numbers. It is none where a number
is missing. -/
def relate? : Value → Value → Option Ordering
  | text x, text y => some (compareText x y)
  | x, y => x.toNumber.compare? y.toNumber

end Value

/-- The relation holds between two values. -/
def Relation.holds (relation : Relation) (x y : Value) : Bool :=
  match relation with
  | eqEq | eq => x.looselyEqual y
  | ne => !x.looselyEqual y
  | gt => x.relate? y == some .gt
  | lt => x.relate? y == some .lt
  | ge => x.relate? y == some .gt || x.relate? y == some .eq
  | le => x.relate? y == some .lt || x.relate? y == some .eq

/-! ## Evaluating formulas -/

/-- What a connective makes of two truth values. -/
def Connective.apply : Connective → Bool → Bool → Bool
  | .and, x, y => x && y
  | .or, x, y => x || y

/-- Whether a record satisfies a condition. -/
def Condition.eval (condition : Condition) (record : Record) : Except Fault Bool :=
  match record.get? condition.field with
  | some value => .ok (condition.relation.holds value condition.value.toValue)
  | none => .error (.missingField condition.field)

/-- Whether a record satisfies a formula. -/
def Formula.eval (record : Record) : Formula → Except Fault Bool
  | test condition => condition.eval record
  | join connective left right => do
    let x ← left.eval record
    let y ← right.eval record
    .ok (connective.apply x y)

end Criteria
