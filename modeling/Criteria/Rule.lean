import Criteria.Formula.Level
import Criteria.Lexeme.Scan

/-!
# Rules

A rule is compiled by scanning it and building a formula of its lexemes. Several rules are combined
by compiling each and joining the formulas from the left, all with the same connective.
-/

namespace Criteria

/-- The formula of a rule. -/
def Rule.compile (policy : Policy) (rule : String) : Except Fault Formula := do
  let occurrences ← Lexeme.scan policy.mode rule
  Formula.ofLexemes policy (occurrences.map (·.lexeme))

/-- The formulas joined from the left; one formula alone stays what it is, however high. -/
def Formula.combine (policy : Policy) (connective : Connective) :
    List Formula → Except Fault Formula
  | [] => .error .noRules
  | first :: rest =>
    (rest.foldlM (fun joined next => joinWithin policy connective joined (next, next.height))
      (first, first.height)).map (·.1)

/-- The rules combined into one formula. They are compiled in order, and the first fault counts. -/
def Rule.combine (policy : Policy) (connective : Connective) (rules : List String) :
    Except Fault Formula :=
  if rules = [] then .error .noRules
  else do
    let formulas ← rules.mapM (compile policy)
    Formula.combine policy connective formulas

end Criteria
