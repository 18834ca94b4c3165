import Criteria.RuleBook
import Criteria.Settings

/-!
# Sessions

A session answers requests under one policy. It keeps the rules that it has evaluated in a rule
book; answers do not depend on what is in the book.
-/

namespace Criteria

/-- What a session can be asked for. -/
inductive Request where
  | compile (rule : String)
  | combine (rules : List String) (connective : Option Connective)
  | evaluate (formula : Formula) (record : Record)
  | evaluateRule (rule : String) (record : Record)
  | clear

/-- What a session answers. -/
inductive Answer where
  | formula (result : Except Fault Formula)
  | verdict (result : Except Fault Bool)
  | done

/-- A session. -/
structure Session where
  policy : Policy
  book : RuleBook

namespace Session

/-- A new session. -/
def ofSettings (settings : Settings) : Session where
  policy := settings.policy
  book := { policy := settings.policy, capacity := settings.capacity.toNat }

/-- The answer to a request, and the session afterwards. Rules are combined by AND unless the
request says otherwise. -/
def answer (session : Session) : Request → Answer × Session
  | .compile rule => (.formula (Rule.compile session.policy rule), session)
  | .combine rules connective =>
    (.formula (Rule.combine session.policy (connective.getD .and) rules), session)
  | .evaluate formula record => (.verdict (formula.eval record), session)
  | .evaluateRule rule record =>
    let (result, book) := session.book.check rule record
    (.verdict result, { session with book })
  | .clear => (.done, { session with book := session.book.clear })

end Session

end Criteria
