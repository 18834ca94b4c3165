import Criteria.Evaluation
import Criteria.Rule

/-!
# Rule books

A rule book keeps the formulas of rules that were asked for, so that a rule is compiled once. It
takes in rules in the order in which they are first asked for until it is full, and forgets none
before it is cleared. Every compilation gives a new edition of its rule, with a number of its own;
asked again for a rule that it keeps, the book gives the same edition.
-/

namespace Criteria

/-- A compiled rule. Two editions are the same iff their numbers are. -/
structure Edition where
  number : Nat
  formula : Formula
deriving DecidableEq

/-- A rule book: the rules that it keeps, the first one first, and the number of the next
edition. -/
structure RuleBook where
  policy : Policy := {}
  capacity : Nat := 2048
  entries : List (String × Edition) := []
  nextNumber : Nat := 0

namespace RuleBook

/-- The edition of a rule that the book keeps. -/
def find? (book : RuleBook) (rule : String) : Option Edition :=
  book.entries.lookup rule

/-- The number of rules that the book keeps. -/
def size (book : RuleBook) : Nat :=
  book.entries.length

/-- The book keeps no rule. -/
def isEmpty (book : RuleBook) : Bool :=
  book.entries.isEmpty

/-- The book with a new edition, which it keeps unless it is full. -/
def add (book : RuleBook) (rule : String) (formula : Formula) : RuleBook :=
  let edition : Edition := ⟨book.nextNumber, formula⟩
  if book.size < book.capacity then
    { book with
      entries := book.entries ++ [(rule, edition)]
      nextNumber := book.nextNumber + 1 }
  else { book with nextNumber := book.nextNumber + 1 }

/-- The edition of a rule, and the book afterwards. A rule that does not compile leaves the book as
it is. -/
def get (book : RuleBook) (rule : String) : Except Fault Edition × RuleBook :=
  match book.find? rule with
  | some edition => (.ok edition, book)
  | none =>
    match Rule.compile book.policy rule with
    | .error fault => (.error fault, book)
    | .ok formula => (.ok ⟨book.nextNumber, formula⟩, book.add rule formula)

/-- Whether a record satisfies a rule, and the book afterwards. -/
def check (book : RuleBook) (rule : String) (record : Record) : Except Fault Bool × RuleBook :=
  let (found, book) := book.get rule
  (found.bind fun edition => edition.formula.eval record, book)

/-- The book without its rules. Editions given out before are not given out again. -/
def clear (book : RuleBook) : RuleBook :=
  { book with entries := [] }

end RuleBook

end Criteria
