import Criteria.Number.Rounding

/-!
# Decimals

A decimal is a sign, a coefficient and a power of ten. Digits that were read become a decimal in
its one normal form, without a zero at the end of the coefficient, and a decimal becomes the
binary64 number nearest to it.

In the other direction a number is written with the fewest digits that read back as that number,
and with the decimal nearest to it among those. `shortestDecimal` looks for it on the grids of one,
two, … seventeen digits, where only the two neighbours of the exact value can be nearest.
-/

namespace Criteria.Number

/-- The decimal `± coefficient * 10 ^ exponent`. -/
structure Decimal where
  negative : Bool
  coefficient : Nat
  exponent : Int
deriving DecidableEq

namespace Decimal

/-- The decimal in normal form with these digits: zeros at the end of the coefficient go into the
exponent, and zero has exponent 0. -/
def ofDigits (negative : Bool) (digits : List Char) (exponent : Int) : Decimal :=
  match digits.reverse.dropWhile (· == '0') with
  | [] => ⟨negative, 0, 0⟩
  | kept =>
    ⟨negative, Nat.ofDigitChars 10 kept.reverse 0, exponent + (digits.length - kept.length : Nat)⟩

/-- The digits of the coefficient. -/
def digits (d : Decimal) : List Char :=
  Nat.toDigits 10 d.coefficient

/-- An exponent past these bounds changes no reading: at the upper one every coefficient but zero
is already infinite, and at the lower one every coefficient is already nearer to zero than to the
least positive number. -/
def boundedExponent (d : Decimal) : Int :=
  max (-(d.coefficient.log2 + 400 : Nat)) (min d.exponent 400)

/-- The number nearest to a decimal. -/
def toBinary64 (d : Decimal) : Binary64 :=
  match d.boundedExponent with
  | .ofNat e => .ofUnits d.negative (d.coefficient * Nat.pow 10 e * unitsOfOne) 1
  | .negSucc e => .ofUnits d.negative (d.coefficient * unitsOfOne) (Nat.pow 10 (e + 1))

end Decimal

/-! ## The shortest decimal of a number -/

/-- Which of two equally near decimals is written. -/
inductive Tie where
  | up
  | even
deriving DecidableEq

/-- The exact value of a rank is this coefficient times `10 ^ -1074`. -/
def exactCoefficient (rank : Nat) : Nat :=
  unitsOfRank rank * Nat.pow 5 1074

/-- The two neighbours of a quotient among the integers, the nearer one first. -/
def neighbours (tie : Tie) (num den : Nat) : List Nat :=
  let floor := num / den
  let twice := 2 * (num % den)
  let upFirst : Bool :=
    match tie with
    | .up => den ≤ twice
    | .even => den < twice ∨ den = twice ∧ floor % 2 = 1
  if upFirst then [floor + 1, floor] else [floor, floor + 1]

/-- The decimal on the grid that lacks the last digits of the exact value and reads back as the
rank, if there is one: the nearer one if both neighbours on that grid do. -/
def decimalDropping? (tie : Tie) (negative : Bool) (rank : Fin rankBound) (dropped : Nat) :
    Option Decimal :=
  let grid := neighbours tie (exactCoefficient rank) (Nat.pow 10 dropped)
  let candidates := grid.map fun coefficient =>
    Decimal.ofDigits negative (Nat.toDigits 10 coefficient) ((dropped : Int) - 1074)
  candidates.find? fun candidate => candidate.toBinary64 == .finite negative rank

/-- The shortest decimal that reads back as a finite number, and of those the nearest. Seventeen
digits always suffice. -/
def shortestDecimal (tie : Tie) (negative : Bool) (rank : Fin rankBound) : Decimal :=
  let exact := Nat.toDigits 10 (exactCoefficient rank)
  match (List.range' 1 17).findSome? fun size =>
    decimalDropping? tie negative rank (exact.length - size) with
  | some decimal => decimal
  | none => Decimal.ofDigits negative exact (-1074)

end Criteria.Number
