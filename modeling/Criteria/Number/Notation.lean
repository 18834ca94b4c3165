import Criteria.Number.Decimal

/-!
# Numbers as text

There are two notations. The plain one writes every digit in its place, however many zeros that
takes, and writes no point where nothing follows it. The other is that of JSON documents: plain
with a point for exponents from -5 to 15, and with an exponent beyond.

The text of a decimal is read with an optional sign, digits before or after the point or on both
sides of it, and an optional exponent.
-/

namespace Criteria.Number

/-! ## Digits in their places -/

/-- As many zeros. -/
def zeros (count : Nat) : List Char :=
  List.replicate count '0'

/-- The digits before the point and those after it. There is always one before it. -/
def positional (digits : List Char) : Int → List Char × List Char
  | .ofNat e => (digits ++ zeros e, [])
  | .negSucc e =>
    let places := e + 1
    if places < digits.length then
      (digits.take (digits.length - places), digits.drop (digits.length - places))
    else
      (['0'], zeros (places - digits.length) ++ digits)

/-- The sign of a negative number, zero included. -/
def sign (negative : Bool) : List Char :=
  if negative then ['-'] else []

namespace Decimal

/-- The plain text of a decimal: no exponent, and no point if nothing follows it. -/
def toPlain (d : Decimal) : List Char :=
  match positional d.digits d.exponent with
  | (whole, []) => sign d.negative ++ whole
  | (whole, fraction) => sign d.negative ++ whole ++ '.' :: fraction

/-- The power of ten of the first digit. -/
def leadingExponent (d : Decimal) : Int :=
  (d.digits.length : Int) - 1 + d.exponent

/-- An exponent as JSON texts write it: always with a sign. -/
def exponentText (e : Int) : List Char :=
  'e' :: (if e < 0 then '-' else '+') :: Nat.toDigits 10 e.natAbs

/-- The text of a decimal in a JSON document. Zero and first digits between the fifth place after
the point and the sixteenth before it are written plain, with at least one digit after the point;
all else with one digit before the point and an exponent. -/
def toScientific (d : Decimal) : List Char :=
  sign d.negative ++
    if d.coefficient = 0 ∨ -5 ≤ d.leadingExponent ∧ d.leadingExponent < 16 then
      match positional d.digits d.exponent with
      | (whole, []) => whole ++ ['.', '0']
      | (whole, fraction) => whole ++ '.' :: fraction
    else
      match d.digits with
      | first :: [] => first :: exponentText d.leadingExponent
      | first :: rest => first :: '.' :: rest ++ exponentText d.leadingExponent
      | [] => []

end Decimal

namespace Binary64

/-- The plain text of a number. -/
def toPlain : Binary64 → String
  | nan => "NaN"
  | infinite negative => String.ofList (sign negative ++ "inf".toList)
  | finite negative rank => String.ofList (shortestDecimal .up negative rank).toPlain

/-- The decimal that stands for a number in a JSON document, which has none for a number that is
not finite. -/
def toDecimal? : Binary64 → Option Decimal
  | finite negative rank => some (shortestDecimal .even negative rank)
  | _ => none

end Binary64

/-! ## Reading decimals -/

/-- The ASCII digits that a text starts with, and what follows them. -/
def spanDigits (cs : List Char) : List Char × List Char :=
  (cs.takeWhile Char.isDigit, cs.dropWhile Char.isDigit)

/-- The natural number with these decimal digits. -/
def natOfDigits (digits : List Char) : Nat :=
  Nat.ofDigitChars 10 digits 0

/-- A sign that a text may start with, and what follows it. -/
def spanSign : List Char → Bool × List Char
  | '+' :: rest => (false, rest)
  | '-' :: rest => (true, rest)
  | cs => (false, cs)

/-- The digits after a point that a text may start with, and what follows them. -/
def spanFraction : List Char → List Char × List Char
  | '.' :: rest => spanDigits rest
  | cs => ([], cs)

/-- The exponent that is all of a text: nothing, or `e` or `E`, an optional sign and digits. -/
def exponent? : List Char → Option Int
  | [] => some 0
  | mark :: rest =>
    if mark = 'e' ∨ mark = 'E' then
      match spanDigits (spanSign rest).2 with
      | ([], _) => none
      | (digits, []) => some (Binary64.signed (spanSign rest).1 (natOfDigits digits))
      | _ => none
    else none

/-- The decimal that is all of a text: an optional sign, digits with at most one point at, before
or after them, and an optional exponent. -/
def Decimal.ofText? (cs : List Char) : Option Decimal :=
  let (negative, unsigned) := spanSign cs
  let (whole, afterWhole) := spanDigits unsigned
  let (fraction, afterFraction) := spanFraction afterWhole
  if whole ++ fraction = [] then none
  else (exponent? afterFraction).map fun e =>
    Decimal.ofDigits negative (whole ++ fraction) (e - fraction.length)

end Criteria.Number
