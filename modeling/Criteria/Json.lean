import Criteria.Entries
import Criteria.Number.Notation

/-!
# JSON values

A JSON value as its text gives it. Integers are kept apart from the other numbers, which are those
of the binary64 format; a number beyond its range is infinite. A text whose escapes leave half of a
surrogate pair by itself denotes no text at all, and an object keeps all of its members in the order
in which they are written. What of this a reader refuses is for the reader to say.
-/

namespace Criteria

open Number (Binary64)

/-- A JSON value. A text is none where its escapes denote no text. -/
inductive Json where
  | null
  | boolean (value : Bool)
  | integer (value : Int)
  | real (value : Binary64)
  | text (value : Option String)
  | array (items : List Json)
  | object (members : List (Option String × Json))

namespace Json

/-- A text as a JSON value. -/
def ofString (text : String) : Json :=
  .text (some text)

/-- An object with these members. -/
def ofMembers (members : List (String × Json)) : Json :=
  .object (members.map fun member => (some member.1, member.2))

/-- A number as a JSON value; a number that is not finite becomes null. -/
def ofNumber (number : Binary64) : Json :=
  if number.isFinite then .real number else .null

/-! ## Depth -/

mutual

/-- How deep arrays and objects nest. -/
def depth : Json → Nat
  | array items => 1 + depthOfItems items
  | object members => 1 + depthOfMembers members
  | _ => 0

/-- The greatest depth among items. -/
def depthOfItems : List Json → Nat
  | [] => 0
  | item :: items => max item.depth (depthOfItems items)

/-- The greatest depth among members. -/
def depthOfMembers : List (Option String × Json) → Nat
  | [] => 0
  | (_, value) :: members => max value.depth (depthOfMembers members)

end

/-! ## Objects as maps -/

mutual

/-- The value with its objects held as maps: members in order of their names, and of a name that
occurs twice the last one alone. -/
def settle : Json → Json
  | array items => array (settleItems items)
  | object members => ofMembers (Entries.ofList (settleMembers members))
  | json => json

/-- The settled items. -/
def settleItems : List Json → List Json
  | [] => []
  | item :: items => item.settle :: settleItems items

/-- The settled members, without those whose name denotes no text. -/
def settleMembers : List (Option String × Json) → List (String × Json)
  | [] => []
  | (some name, value) :: members => (name, value.settle) :: settleMembers members
  | (none, _) :: members => settleMembers members

end

/-! ## Reading parts of a value -/

/-- The text, if the value is one. -/
def text? : Json → Option String
  | .text value => value
  | _ => none

/-- The number, if the value is one that is finite. -/
def number? (json : Json) : Option Binary64 :=
  let number? : Option Binary64 :=
    match json with
    | .integer value => some (.ofInt value)
    | .real value => some value
    | _ => none
  number?.filter Binary64.isFinite

/-- The members, if the value is an object and all their names denote texts. -/
def members? : Json → Option (List (String × Json))
  | .object members => members.mapM fun member => member.1.map fun name => (name, member.2)
  | _ => none

/-- The value of the member with a name. The result is none if there are several, and `some none`
if there is none. -/
def uniqueMember? (members : List (String × Json)) (name : String) : Option (Option Json) :=
  match members.filter (·.1 = name) with
  | [] => some none
  | [member] => some (some member.2)
  | _ => none

/-- The parts of a structure that has parts with these names: an object, in which members with
other names do not count, or an array in the order of the names, which may stop early. -/
def parts? (names : List String) : Json → Option (List (Option Json))
  | .array items =>
    if items.length ≤ names.length then
      some (items.map some ++ List.replicate (names.length - items.length) none)
    else none
  | json => do
    let members ← json.members?
    names.mapM (uniqueMember? members)

/-- A part that may be missing or null; both mean that there is none. -/
def optionalPart? {α : Type} (read : Json → Option α) : Option Json → Option (Option α)
  | none => some none
  | some .null => some none
  | some json => (read json).map some

/-- A part that may be missing but not null, and has a value in that case. -/
def partWithDefault? {α : Type} (default : α) (read : Json → Option α) :
    Option Json → Option α
  | none => some default
  | some json => read json

end Json

end Criteria
