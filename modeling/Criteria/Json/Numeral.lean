import Criteria.Json
import Criteria.Number.Scaling

/-!
# Numbers in JSON texts

The grammar of numbers and what they are read as. Digits alone are an integer if a 64-bit word
holds it. Any other number is a coefficient of at most 64 bits, which the first digits make, scaled
by a power of ten.
-/

namespace Criteria.Json

open Number (Binary64 natOfDigits spanDigits spanSign)

/-! ## Grammar -/

/-- A number as it is written. There is a point iff there are digits behind it. -/
structure Numeral where
  negative : Bool
  whole : List Char
  fraction : List Char
  exponent : Option Int

/-- The digits before the point: a zero by itself, or digits that start with another one. -/
def spanWhole? (cs : List Char) : Option (List Char × List Char) :=
  match cs with
  | '0' :: rest => some (['0'], rest)
  | _ =>
    match spanDigits cs with
    | ([], _) => none
    | found => some found

/-- The digits behind a point, at least one if there is a point. -/
def spanFraction? (cs : List Char) : Option (List Char × List Char) :=
  match cs with
  | '.' :: rest =>
    match spanDigits rest with
    | ([], _) => none
    | found => some found
  | _ => some ([], cs)

/-- The exponent, if there is one; it has at least one digit. -/
def spanExponent? (cs : List Char) : Option (Option Int × List Char) :=
  match cs with
  | [] => some (none, [])
  | mark :: rest =>
    if mark = 'e' ∨ mark = 'E' then
      match spanDigits (spanSign rest).2 with
      | ([], _) => none
      | (digits, rest') =>
        some (some (Binary64.signed (spanSign rest).1 (natOfDigits digits)), rest')
    else some (none, cs)

/-- The number that a text starts with, and what follows it. -/
def Numeral.span? (cs : List Char) : Option (Numeral × List Char) := do
  let (negative, unsigned) :=
    match cs with
    | '-' :: rest => (true, rest)
    | _ => (false, cs)
  let (whole, rest) ← spanWhole? unsigned
  let (fraction, rest) ← spanFraction? rest
  let (exponent, rest) ← spanExponent? rest
  some (⟨negative, whole, fraction, exponent⟩, rest)

/-! ## Meaning -/

/-- A coefficient with digits put behind it one by one, until 64 bits do not hold the next one;
that digit and those after it are left over. -/
def appendDigits (coefficient : Nat) : List Char → Nat × List Char
  | [] => (coefficient, [])
  | digit :: digits =>
    let next := Nat.ofDigitChars 10 [digit] coefficient
    if next < Nat.pow 2 64 then appendDigits next digits else (coefficient, digit :: digits)

namespace Numeral

/-- The integer that is written with digits alone, if it is one of a 64-bit word, signed or not.
Zero has no sign as an integer, so a negative zero is none. -/
def integer? (n : Numeral) : Option Int :=
  let value := Binary64.signed n.negative (natOfDigits n.whole)
  if n.fraction = [] ∧ n.exponent = none ∧ ¬(n.negative ∧ value = 0) ∧
      -(Nat.pow 2 63 : Int) ≤ value ∧ value < (Nat.pow 2 64 : Int) then
    some value
  else none

/-- The number, rounded by scaling. Digits before the point that are left over count as places,
those behind it do not count at all. -/
def real (n : Numeral) : Binary64 :=
  let (coefficient, places) := appendDigits 0 n.whole
  let (coefficient, ignored) := appendDigits coefficient n.fraction
  let exponent := n.exponent.getD 0 + places.length - n.fraction.length + ignored.length
  .scaled n.negative coefficient exponent

/-- The number as a JSON value. -/
def toJson (n : Numeral) : Json :=
  match n.integer? with
  | some value => .integer value
  | none => .real n.real

end Numeral

end Criteria.Json
