import Criteria.Json
import Criteria.Json.Quoted

/-!
# JSON texts: writing

A value is written without blanks, its members in the order in which it holds them. JSON has no
number that is not finite, so such a number is written as null. A text that is none is written as an
empty one.
-/

namespace Criteria.Json

open Number (Binary64 sign)

/-- The text of an integer. -/
def integerText (value : Int) : List Char :=
  sign (value < 0) ++ Nat.toDigits 10 value.natAbs

/-- The text of a number. -/
def realText (value : Binary64) : List Char :=
  match value.toDecimal? with
  | some decimal => decimal.toScientific
  | none => "null".toList

mutual

/-- The text of a value. -/
def write : Json → List Char
  | null => "null".toList
  | boolean true => "true".toList
  | boolean false => "false".toList
  | integer value => integerText value
  | real value => realText value
  | text value => Quoted.write (value.getD "").toList
  | array [] => ['[', ']']
  | array (item :: items) => '[' :: item.write ++ writeItems items
  | object [] => ['{', '}']
  | object ((name, value) :: members) =>
    '{' :: Quoted.write (name.getD "").toList ++ ':' :: value.write ++ writeMembers members

/-- The text of the items behind the first, to the end of the array. -/
def writeItems : List Json → List Char
  | [] => [']']
  | item :: items => ',' :: item.write ++ writeItems items

/-- The text of the members behind the first, to the end of the object. -/
def writeMembers : List (Option String × Json) → List Char
  | [] => ['}']
  | (name, value) :: members =>
    ',' :: Quoted.write (name.getD "").toList ++ ':' :: value.write ++ writeMembers members

end

/-- The text of a value. -/
def toText (json : Json) : String :=
  String.ofList json.write

end Criteria.Json
