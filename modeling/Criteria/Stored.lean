import Criteria.Fault

/-!
# Stored formulas

A formula is stored as a tree of nodes in which every part is text or missing. What comes from
storage need not be a formula: a kind may be unknown, a side may be missing, a name may be empty.
`StoredNode.toFormula` checks the nodes that make up the formula, a node before the nodes below it
and the left side before the right, and reports the first defect. The sides of a test are not
looked at.
-/

namespace Criteria

/-- What a node holds beside its sides: of a test the field, the relation and the literal; of a
join the connective, in the place of the field. -/
structure StoredContent where
  field : String
  operator : String
  value : Literal
deriving DecidableEq

/-- A node as it is stored. -/
inductive StoredNode where
  | node (kind : String) (left right : Option StoredNode) (content : Option StoredContent)

namespace StoredNode

/-- The kind of a test. -/
def testKind : String := "operand"

/-- The kind of a join. -/
def joinKind : String := "operator"

/-- The number of levels that a stored formula may have. -/
def maxLevels : Nat := 100

/-- The nodes of a formula. -/
def ofFormula : Formula → StoredNode
  | .test condition =>
    node testKind none none
      (some ⟨condition.field, condition.relation.symbol, condition.value⟩)
  | .join connective left right =>
    node joinKind (some (ofFormula left)) (some (ofFormula right))
      (some ⟨connective.word, "", .text ""⟩)

/-- The condition that a test holds. -/
def conditionOf (content : StoredContent) : Except Fault Condition :=
  if content.field = "" then .error (.invalidInput .emptyField)
  else
    match Relation.ofSymbol? content.operator with
    | some relation => .ok ⟨content.field, relation, content.value⟩
    | none => .error (.unknownOperator content.operator)

/-- The formula of a node that has at most so many levels below and with it. -/
def toFormulaWithin : Nat → StoredNode → Except Fault Formula
  | 0, _ => .error (.tooDeep maxLevels)
  | levels + 1, node kind left right content =>
    match content with
    | none => .error (.invalidInput (.missingValue kind))
    | some content =>
      if kind = testKind then (conditionOf content).map .test
      else if kind = joinKind then
        match Connective.ofWord? content.field, left, right with
        | none, _, _ => .error (.unknownOperator content.field)
        | some connective, none, _ => .error (.invalidInput (.missingLeft connective))
        | some connective, some _, none => .error (.invalidInput (.missingRight connective))
        | some connective, some left, some right => do
          let left ← toFormulaWithin levels left
          let right ← toFormulaWithin levels right
          .ok (.join connective left right)
      else .error (.invalidInput (.unknownKind kind))

/-- The formula of a node. -/
def toFormula (node : StoredNode) : Except Fault Formula :=
  toFormulaWithin maxLevels node

end StoredNode

end Criteria
