import Criteria.Lexeme
import Criteria.Policy

/-!
# Formulas from lexemes

Parentheses divide the lexemes of a rule into levels. A level is read from left to right: it is
empty, or holds a complete formula, or a formula and the connective behind it that waits for a
right side. `readLevel` reads a level with the levels that are still open around it on a stack,
innermost first, so that it goes through the lexemes once.

The height of a formula is carried beside it, so that a join is held to the limit of the policy
without measuring the formula anew.
-/

namespace Criteria

/-- What has been read of a level. The numbers are heights. -/
inductive Level where
  | empty
  | complete (formula : Formula) (height : Nat)
  | waiting (connective : Connective) (left : Formula) (leftHeight : Nat)
deriving DecidableEq

/-- The join of two formulas, given with their heights, and its height. -/
def Formula.joinWithin (policy : Policy) (connective : Connective) (left right : Formula × Nat) :
    Except Fault (Formula × Nat) :=
  let height := 1 + max left.2 right.2
  if policy.maxHeight < height then .error (.tooDeep policy.maxHeight)
  else .ok (.join connective left.1 right.1, height)

namespace Level

/-- The formula of a level that ends. -/
def close : Level → Except Fault (Formula × Nat)
  | empty => .error .emptyExpression
  | waiting .. => .error .unexpectedEnd
  | complete formula height => .ok (formula, height)

/-- The level after a join. -/
def ofJoin (policy : Policy) (connective : Connective) (left right : Formula × Nat) :
    Except Fault Level :=
  (Formula.joinWithin policy connective left right).map fun joined => complete joined.1 joined.2

/-- A connective goes behind a complete formula. -/
def addConnective (connective : Connective) : Level → Except Fault Level
  | complete formula height => .ok (waiting connective formula height)
  | empty | waiting .. => .error (.danglingConnective connective)

/-- A condition is the first formula of its level, or the right side of a join. A complete level
has no place for it: a lenient reading drops it. -/
def addCondition (policy : Policy) (text : String) (level : Level) : Except Fault Level := do
  let condition ← Condition.ofText text
  match level with
  | empty => .ok (complete (.test condition) 1)
  | waiting connective left leftHeight =>
    ofJoin policy connective (left, leftHeight) (.test condition, 1)
  | complete .. => if policy.isStrict then .error (.unexpectedText text) else .ok level

/-- A group between parentheses is the first formula of its level, or the right side of a join. In
a complete level a lenient reading puts it in the place of the right side of the join that is
there, or drops it if there is only a condition. -/
def addGroup (policy : Policy) (group : Formula × Nat) (level : Level) : Except Fault Level :=
  match level with
  | empty => .ok (complete group.1 group.2)
  | waiting connective left leftHeight => ofJoin policy connective (left, leftHeight) group
  | complete formula _ =>
    if policy.isStrict then .error (.unexpectedText Lexeme.opening.text)
    else
      match formula with
      | .join connective left _ => ofJoin policy connective (left, left.height) group
      | .test _ => .ok level

end Level

/-- Reads a level at a depth to its end, given what has been read of it: the formula of the level,
its height, and the lexemes behind the parenthesis that ends it. The levels in `around` were
entered on the way and are waiting for the groups inside them. At depth 0 there is no parenthesis
to end the level; a lenient reading stops at one all the same. -/
def readLevel (policy : Policy) (depth : Nat) :
    List Level → Level → List Lexeme → Except Fault (Formula × Nat × List Lexeme)
  | around, level, [] => do
    if 0 < depth + around.length then .error .unexpectedEnd
    let (formula, height) ← level.close
    .ok (formula, height, [])
  | around, level, .opening :: rest =>
    if policy.maxNesting ≤ depth + around.length then .error (.tooDeep policy.maxNesting)
    else readLevel policy depth (level :: around) .empty rest
  | [], level, .closing :: rest => do
    if depth = 0 ∧ policy.isStrict then .error (.unexpectedText Lexeme.closing.text)
    let (formula, height) ← level.close
    .ok (formula, height, rest)
  | outer :: around, level, .closing :: rest => do
    let group ← level.close
    let outer ← outer.addGroup policy group
    readLevel policy depth around outer rest
  | around, level, .connective connective :: rest => do
    let level ← level.addConnective connective
    readLevel policy depth around level rest
  | around, level, .condition text :: rest => do
    let level ← level.addCondition policy text
    readLevel policy depth around level rest

/-- The formula of the lexemes of a rule. -/
def Formula.ofLexemes (policy : Policy) (lexemes : List Lexeme) : Except Fault Formula :=
  (readLevel policy 0 [] .empty lexemes).map (·.1)

end Criteria
