import Criteria.Number.Notation

/-!
# Formulas

A condition compares the field of a record with a literal, and a formula joins conditions by AND
and OR. A formula is written with parentheses around every join, so that its text says how it is
built.
-/

namespace Criteria

open Number (Binary64)

/-! ## Conditions -/

/-- How the value of a field has to relate to a literal. There are two spellings of equality. -/
inductive Relation where
  | eqEq
  | eq
  | ne
  | gt
  | lt
  | ge
  | le
deriving DecidableEq

namespace Relation

/-- The spelling of a relation in rules and documents. -/
def symbol : Relation → String
  | eqEq => "=="
  | eq => "="
  | ne => "!="
  | gt => ">"
  | lt => "<"
  | ge => ">="
  | le => "<="

/-- Every relation, in the order in which they are declared. -/
def all : List Relation :=
  [eqEq, eq, ne, gt, lt, ge, le]

/-- The relation with this spelling. -/
def ofSymbol? (text : String) : Option Relation :=
  all.find? fun relation => relation.symbol = text

theorem ofSymbol?_symbol (relation : Relation) : ofSymbol? relation.symbol = some relation := by
  cases relation <;> decide

end Relation

/-- What joins two formulas. -/
inductive Connective where
  | and
  | or
deriving DecidableEq

namespace Connective

/-- The spelling of a connective in rules and documents. -/
def word : Connective → String
  | .and => "AND"
  | .or => "OR"

/-- The connective with this spelling. -/
def ofWord? (text : String) : Option Connective :=
  [Connective.and, .or].find? fun connective => connective.word = text

theorem ofWord?_word (connective : Connective) : ofWord? connective.word = some connective := by
  cases connective <;> decide

end Connective

/-- What the value of a field is compared with. -/
inductive Literal where
  | number (value : Binary64)
  | text (value : String)
deriving DecidableEq

/-- The text of a literal: a text stands between single quotes, as it is. -/
def Literal.render : Literal → String
  | .number value => value.toPlain
  | .text value => "'" ++ value ++ "'"

/-- The comparison of a field with a literal. -/
structure Condition where
  field : String
  relation : Relation
  value : Literal
deriving DecidableEq

/-- The text of a condition. -/
def Condition.render (condition : Condition) : String :=
  condition.field ++ " " ++ condition.relation.symbol ++ " " ++ condition.value.render

/-! ## Joins of conditions -/

/-- A condition, or two formulas joined by a connective. -/
inductive Formula where
  | test (condition : Condition)
  | join (connective : Connective) (left right : Formula)
deriving DecidableEq

namespace Formula

/-- The number of levels of a formula; a condition alone has one. -/
def height : Formula → Nat
  | test _ => 1
  | join _ left right => 1 + max left.height right.height

/-- The conditions of a formula from left to right. -/
def conditions : Formula → List Condition
  | test condition => [condition]
  | join _ left right => left.conditions ++ right.conditions

/-- The number of conditions of a formula. -/
def size : Formula → Nat
  | test _ => 1
  | join _ left right => left.size + right.size

/-- The formula is a condition alone. -/
def isTest : Formula → Bool
  | test _ => true
  | join .. => false

/-- The text of a formula: every join stands between parentheses. -/
def render : Formula → String
  | test condition => condition.render
  | join connective left right =>
    "(" ++ left.render ++ " " ++ connective.word ++ " " ++ right.render ++ ")"

theorem height_pos (formula : Formula) : 0 < formula.height := by
  cases formula with
  | test condition => exact Nat.one_pos
  | join connective left right => exact Nat.add_pos_left Nat.one_pos _

theorem size_pos (formula : Formula) : 0 < formula.size := by
  induction formula with
  | test condition => exact Nat.one_pos
  | join connective left right ihLeft _ => exact Nat.add_pos_left ihLeft _

theorem length_conditions (formula : Formula) : formula.conditions.length = formula.size := by
  induction formula with
  | test condition => rfl
  | join connective left right ihLeft ihRight => simp [conditions, size, ihLeft, ihRight]

end Formula

end Criteria
