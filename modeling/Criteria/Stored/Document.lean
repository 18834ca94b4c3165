import Criteria.Evaluation
import Criteria.Json.Printer
import Criteria.Json.Reader
import Criteria.Stored

/-!
# Documents

Formulas and records as JSON documents. A document of nodes is read whole before any node is
checked, and a text of one may hold no more than `maxNesting` levels; parts that the document has no
use for are not looked at. A record is an object of booleans, numbers and texts.
-/

namespace Criteria

/-! ## Nodes -/

/-- The number of levels of arrays and objects that the text of a document may have. -/
def Json.maxNesting : Nat := 127

namespace Literal

/-- A literal as a JSON value. -/
def toJson : Literal → Json
  | number value => .ofNumber value
  | text value => .ofString value

/-- The literal that a JSON value is. -/
def ofJson? (json : Json) : Option Literal :=
  match json.number?, json.text? with
  | some value, _ => some (number value)
  | none, some value => some (text value)
  | none, none => none

end Literal

namespace StoredContent

/-- The content of a node as a JSON value. -/
def toJson (content : StoredContent) : Json :=
  .ofMembers [("field", .ofString content.field), ("operator", .ofString content.operator),
    ("value", content.value.toJson)]

/-- The content of a node, with at least one level left for it. An operator that is missing is
empty. -/
def ofJson? (levels : Nat) (json : Json) : Option StoredContent :=
  match levels, json.parts? ["field", "operator", "value"] with
  | _ + 1, some [some field, operator, some value] => do
    let field ← field.text?
    let operator ← Json.partWithDefault? "" Json.text? operator
    let value ← Literal.ofJson? value
    some ⟨field, operator, value⟩
  | _, _ => none

end StoredContent

namespace StoredNode

/-- The members of a side; there are none for a side that is missing. -/
def sideMember (name : String) (side : Option Json) : List (String × Json) :=
  side.toList.map fun json => (name, json)

/-- The content as a JSON value; null if there is none. -/
def contentJson : Option StoredContent → Json
  | some content => content.toJson
  | none => .null

/-- A node as a JSON value. -/
def toJson : StoredNode → Json
  | node kind left right content =>
    let left :=
      match left with
      | some left => some left.toJson
      | none => none
    let right :=
      match right with
      | some right => some right.toJson
      | none => none
    .ofMembers ([("type", .ofString kind)] ++ sideMember "left" left ++ sideMember "right" right ++
      [("value", contentJson content)])

/-- The node that a JSON value of at most so many levels is. -/
def ofJson? : Nat → Json → Option StoredNode
  | 0, _ => none
  | levels + 1, json => do
    match ← json.parts? ["type", "left", "right", "value"] with
    | [some kind, left, right, content] =>
      let kind ← kind.text?
      let left ← Json.optionalPart? (ofJson? levels) left
      let right ← Json.optionalPart? (ofJson? levels) right
      let content ← Json.optionalPart? (StoredContent.ofJson? levels) content
      some (node kind left right content)
    | _ => none

/-- The node that a text is the document of. -/
def ofText? (text : String) : Option StoredNode := do
  let json ← Json.ofText? text
  ofJson? Json.maxNesting json

end StoredNode

/-! ## Formulas -/

namespace Formula

/-- The document of a formula. -/
def toJson (formula : Formula) : Json :=
  (StoredNode.ofFormula formula).toJson

/-- The text of the document of a formula. -/
def toText (formula : Formula) : String :=
  formula.toJson.toText

/-- The formula of a document, which has to be an object. -/
def ofJson (json : Json) : Except Fault Formula :=
  match json with
  | .object _ =>
    match StoredNode.ofJson? json.depth json with
    | some node => node.toFormula
    | none => .error (.invalidInput .malformedDocument)
  | _ => .error (.invalidInput .notAnObject)

/-- The formula that a text is the document of. -/
def ofText? (text : String) : Option Formula := do
  let node ← StoredNode.ofText? text
  node.toFormula.toOption

end Formula

/-! ## Records -/

namespace Value

/-- A value as a JSON value. -/
def toJson : Value → Json
  | boolean value => .boolean value
  | number value => .ofNumber value
  | text value => .ofString value

/-- The value that a JSON value is. -/
def ofJson? : Json → Option Value
  | .boolean value => some (boolean value)
  | json => (Literal.ofJson? json).map Literal.toValue

end Value

namespace Record

/-- A record as an object. -/
def toJson (record : Record) : Json :=
  .ofMembers (record.entries.map fun entry => (entry.1, entry.2.toJson))

/-- The value of a member of a record. -/
def valueOfMember (member : String × Json) : Except Fault (String × Value) :=
  match Value.ofJson? member.2 with
  | some value => .ok (member.1, value)
  | none => .error (.invalidInput (.notScalar member.1))

/-- The record that an object is. Of the members that hold no value the first in order of their
names is reported. -/
def ofJson (json : Json) : Except Fault Record :=
  match json.members? with
  | some members => do
    let entries ← (Entries.ofList members).mapM valueOfMember
    .ok (ofList entries)
  | none => .error (.invalidInput .recordNotAnObject)

end Record

/-- Whether the record of a document satisfies the formula of another. The formula is read first. -/
def evaluateDocuments (formula record : Json) : Except Fault Bool := do
  let formula ← Formula.ofJson formula
  let record ← Record.ofJson record
  formula.eval record

end Criteria
