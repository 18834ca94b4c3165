import Criteria.Fault
import Criteria.Json.Printer
import Criteria.Json.Reader
import Criteria.Policy

/-!
# Settings

The settings of a session, as the text of a JSON object. What the text leaves out has its default.
Limits are unsigned 64-bit integers, written as such; those on nesting and height are at least one.
-/

namespace Criteria

/-- The settings of a session. -/
structure Settings where
  mode : Mode := .lenient
  maxNesting : UInt64 := 64
  maxHeight : UInt64 := 100
  capacity : UInt64 := 2048
deriving DecidableEq

namespace Settings

/-- The policy that the settings ask for. -/
def policy (settings : Settings) : Policy :=
  ⟨settings.mode, settings.maxNesting.toNat, settings.maxHeight.toNat⟩

/-! ## Writing -/

/-- The word for a mode. -/
def modeWord : Mode → String
  | .lenient => "lenient"
  | .strict => "strict"

/-- A limit as a JSON value. -/
def limitJson (limit : UInt64) : Json :=
  .integer limit.toNat

/-- The settings as an object. -/
def toJson (settings : Settings) : Json :=
  .ofMembers [("mode", .ofString (modeWord settings.mode)),
    ("max_depth", limitJson settings.maxNesting), ("max_tree_depth", limitJson settings.maxHeight),
    ("cache_capacity", limitJson settings.capacity)]

/-! ## Reading -/

/-- The mode that a word stands for. -/
def modeOfWord? (text : String) : Option Mode :=
  [Mode.lenient, .strict].find? fun mode => modeWord mode = text

/-- The mode that a JSON value stands for: a word, or an object whose only member has the word for
its name and is null. -/
def modeOfJson? : Json → Option Mode
  | .text (some text) => modeOfWord? text
  | .object [(some text, .null)] => modeOfWord? text
  | _ => none

/-- The limit that a JSON value is. -/
def limitOfJson? : Json → Option UInt64
  | .integer (.ofNat value) => if value < Nat.pow 2 64 then some (.ofNat value) else none
  | _ => none

/-- The settings that a JSON value stands for. -/
def ofJson? (json : Json) : Option Settings := do
  let default : Settings := {}
  match ← json.parts? ["mode", "max_depth", "max_tree_depth", "cache_capacity"] with
  | [mode, maxNesting, maxHeight, capacity] =>
    let mode ← Json.partWithDefault? default.mode modeOfJson? mode
    let maxNesting ← Json.partWithDefault? default.maxNesting limitOfJson? maxNesting
    let maxHeight ← Json.partWithDefault? default.maxHeight limitOfJson? maxHeight
    let capacity ← Json.partWithDefault? default.capacity limitOfJson? capacity
    some ⟨mode, maxNesting, maxHeight, capacity⟩
  | _ => none

/-- The settings that a text stands for. -/
def ofText (text : String) : Except Fault Settings :=
  match (Json.ofText? text).bind ofJson? with
  | none => .error (.invalidInput .malformedSettings)
  | some settings =>
    if settings.maxNesting = 0 ∨ settings.maxHeight = 0 then
      .error (.invalidInput .zeroLimit)
    else .ok settings

end Settings

end Criteria
