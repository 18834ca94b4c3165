import Criteria.Formula

/-!
# Faults

Everything that can go wrong with a rule, a document or a record, by its cause. A fault has a code
for programs and a message for people; the two are the only places where causes become words.
-/

namespace Criteria

/-- What makes a document, a record or a text of settings unusable. -/
inductive Defect where
  | notAnObject
  | malformedDocument
  | missingValue (kind : String)
  | emptyField
  | missingLeft (connective : Connective)
  | missingRight (connective : Connective)
  | unknownKind (kind : String)
  | recordNotAnObject
  | notScalar (field : String)
  | malformedSettings
  | zeroLimit
deriving DecidableEq

/-- The words for a defect. -/
def Defect.description : Defect → String
  | notAnObject => "AST must be an object"
  | malformedDocument => "malformed AST document"
  | missingValue kind => kind ++ " value is undefined"
  | emptyField => "operand field is empty"
  | missingLeft connective => connective.word ++ " node is missing its left child"
  | missingRight connective => connective.word ++ " node is missing its right child"
  | unknownKind kind => "unknown AST node type: " ++ kind
  | recordNotAnObject => "data must be an object"
  | notScalar field => "field '" ++ field ++ "' is not a scalar value"
  | malformedSettings => "engine config"
  | zeroLimit => "engine config: max_depth and max_tree_depth must be at least 1"

/-- What can go wrong. -/
inductive Fault where
  /-- A rule with nothing in it. -/
  | emptyRule
  /-- A text that is not a condition. -/
  | invalidCondition (text : String)
  /-- A rule that ends inside parentheses or behind a connective. -/
  | unexpectedEnd
  /-- Parentheses, or a whole rule, without a condition. -/
  | emptyExpression
  /-- A connective with nothing before it to join. -/
  | danglingConnective (connective : Connective)
  /-- Text that a strict reading cannot use. -/
  | unexpectedText (text : String)
  /-- Parentheses or a formula beyond the limit. -/
  | tooDeep (limit : Nat)
  /-- A combination of no rules at all. -/
  | noRules
  /-- A document, a record or settings that cannot be used. -/
  | invalidInput (defect : Defect)
  /-- A field that the record lacks. -/
  | missingField (field : String)
  /-- A spelling that is neither that of a relation nor that of a connective. -/
  | unknownOperator (symbol : String)
deriving DecidableEq

namespace Fault

/-- The code of a fault. -/
def code : Fault → String
  | emptyRule => "empty_rule"
  | invalidCondition _ => "invalid_condition"
  | unexpectedEnd => "unexpected_end_of_input"
  | emptyExpression => "empty_expression"
  | danglingConnective _ => "dangling_operator"
  | unexpectedText _ => "unexpected_token"
  | tooDeep _ => "nesting_too_deep"
  | noRules => "no_rules_provided"
  | invalidInput _ => "invalid_input"
  | missingField _ => "missing_field"
  | unknownOperator _ => "unknown_operator"

/-- The message of a fault. -/
def message : Fault → String
  | emptyRule => "Invalid rule string: empty or contains no tokens"
  | invalidCondition text => "Invalid condition format: " ++ text
  | unexpectedEnd => "Unexpected end of tokens"
  | emptyExpression => "Invalid rule string, unable to create AST"
  | danglingConnective connective => "Unexpected logical operator: " ++ connective.word
  | unexpectedText text => "Unexpected token: " ++ text
  | tooDeep limit => "Rule nested deeper than " ++ toString limit ++ " levels"
  | noRules => "No rules provided for combination"
  | invalidInput defect => "Invalid AST or data provided: " ++ defect.description
  | missingField field => "Field '" ++ field ++ "' is not present in data"
  | unknownOperator symbol => "Unknown operator: " ++ symbol

end Fault

end Criteria
