import Criteria.Json.Numeral
import Criteria.Json.Quoted

/-!
# JSON texts: reading

The grammar of JSON, strictly: no comments, no trailing commas, no leading zeros, no control
characters in texts, and nothing but blanks around the value. Reading goes down one level with
every array, object, item and member; a text of some length holds no more levels than it has
characters, and `Json.ofText?` allows that many.
-/

namespace Criteria.Json

/-- The four blanks of JSON. -/
def isBlank (c : Char) : Bool :=
  c = ' ' || c = '\t' || c = '\n' || c = '\r'

/-- A text without the blanks at its start. -/
def skipBlanks (cs : List Char) : List Char :=
  cs.dropWhile isBlank

/-- The name of a member and the colon behind it, and what follows them. -/
def spanName? (cs : List Char) : Option (Option String × List Char) :=
  match skipBlanks cs with
  | '"' :: rest =>
    match Quoted.span? rest with
    | some (name, rest) =>
      match skipBlanks rest with
      | ':' :: rest => some (name, rest)
      | _ => none
    | none => none
  | _ => none

mutual

/-- The value that a text starts with, and what follows it, with at most so many levels. -/
def spanValue? : Nat → List Char → Option (Json × List Char)
  | 0, _ => none
  | levels + 1, cs =>
    match skipBlanks cs with
    | 'n' :: 'u' :: 'l' :: 'l' :: rest => some (.null, rest)
    | 't' :: 'r' :: 'u' :: 'e' :: rest => some (.boolean true, rest)
    | 'f' :: 'a' :: 'l' :: 's' :: 'e' :: rest => some (.boolean false, rest)
    | '"' :: rest => (Quoted.span? rest).map fun (found, rest) => (.text found, rest)
    | '[' :: rest =>
      match skipBlanks rest with
      | ']' :: rest => some (.array [], rest)
      | _ => (spanItems? levels rest).map fun (items, rest) => (.array items, rest)
    | '{' :: rest =>
      match skipBlanks rest with
      | '}' :: rest => some (.object [], rest)
      | _ => (spanMembers? levels rest).map fun (members, rest) => (.object members, rest)
    | cs => (Numeral.span? cs).map fun (found, rest) => (found.toJson, rest)

/-- At least one item, to the end of the array, and what follows it. -/
def spanItems? : Nat → List Char → Option (List Json × List Char)
  | 0, _ => none
  | levels + 1, cs => do
    let (item, rest) ← spanValue? levels cs
    match skipBlanks rest with
    | ',' :: rest => do
      let (items, rest) ← spanItems? levels rest
      some (item :: items, rest)
    | ']' :: rest => some ([item], rest)
    | _ => none

/-- At least one member, to the end of the object, and what follows it. -/
def spanMembers? : Nat → List Char → Option (List (Option String × Json) × List Char)
  | 0, _ => none
  | levels + 1, cs => do
    let (name, rest) ← spanName? cs
    let (value, rest) ← spanValue? levels rest
    match skipBlanks rest with
    | ',' :: rest => do
      let (members, rest) ← spanMembers? levels rest
      some ((name, value) :: members, rest)
    | '}' :: rest => some ([(name, value)], rest)
    | _ => none

end

/-- The value that is all of a text but for the blanks around it. -/
def ofText? (text : String) : Option Json :=
  match spanValue? (text.length + 1) text.toList with
  | some (json, rest) => if skipBlanks rest = [] then some json else none
  | none => none

end Criteria.Json
