import Criteria.Proofs.Comparisons
import Criteria.Proofs.Integers
import Criteria.Proofs.Rendering

/-!
# Texts and the rules that quote them

What stands between the marks of a literal is equal to itself as the text of a field, whatever it is
(`Spelling.relate?_literal`). Digits are the case with an argument in it: the literal is a number,
the text in the field is not, and the two readers of the digits have to find the same number. They
do, as both find the nearest one. So a record satisfies the conditions that allow equality with the
text in its field, and no others (`text_satisfies_conditions_that_quote_it`).
-/

namespace Criteria

open Number (Binary64 natOfDigits)

/-- A literal is equal to the text that it quotes. -/
theorem Spelling.relate?_literal {spelling : Spelling} {text : String}
    (h : spelling.body = text.toList) :
    (Value.text text).relate? spelling.literal.toValue = some .eq := by
  have htext : String.ofList spelling.body = text := by rw [h, String.ofList_toList]
  by_cases hdigits : spelling.body ≠ [] ∧ ∀ c ∈ spelling.body, c.isDigit = true
  · -- the literal is a number, and the text in the field is read as the same number
    have hread : Binary64.ofText text = .ofNat (natOfDigits spelling.body) := by
      rw [← htext]
      exact Binary64.ofText_digits hdigits.1 hdigits.2
    rw [literal_of_digits hdigits.1 hdigits.2]
    show (Binary64.ofText text).compare? (.ofNat (natOfDigits spelling.body)) = some .eq
    rw [hread]
    exact Binary64.compare?_self (Binary64.isNearest_ofNat _).ne_nan
  · rw [literal_of_not_digits hdigits, htext]
    exact congrArg some (Value.compareText_eq_eq_iff.mpr rfl)

/-- The text of a field satisfies the rules that quote it. A comparison of a field with a text in
quotes compiles to one condition, whatever else the text may be to a rule; and of the records whose
field holds the text it is true if the relation allows equality, and otherwise false. -/
theorem text_satisfies_conditions_that_quote_it (policy : Policy) (phrase : Phrase)
    (h : phrase.WellFormed)
    (hkeyword : ∀ connective : Connective, phrase.field ≠ connective.word.toList)
    (quote : Quote) (text : String) (hquoted : phrase.spelling = .quoted quote text.toList) :
    Rule.compile policy (String.ofList phrase.source) = .ok (.test phrase.condition) ∧
    ∀ record : Record, record.get? (String.ofList phrase.field) = some (.text text) →
      (Formula.test phrase.condition).eval record =
        .ok (decide (phrase.relation ∈ [Relation.eqEq, .eq, .ge, .le])) := by
  refine ⟨Rule.compile_source policy h hkeyword, ?_⟩
  intro record hvalue
  have hbody : phrase.spelling.body = text.toList := by rw [hquoted, Spelling.body]
  rw [Phrase.eval_condition hvalue, Spelling.relate?_literal hbody, Relation.admits_some_eq]

/-- A field whose name starts with a keyword, and a text with a keyword, a parenthesis, the other
quotation mark and a line break. -/
theorem text_with_keyword_satisfies_rule :
    let text := "AND (it's\n>= 1"
    let condition : Condition := ⟨"ORder", .ge, .text text⟩
    Rule.compile {} "ORder >= \"AND (it's\n>= 1\"" = .ok (.test condition) ∧
      (Formula.test condition).eval (Record.ofList [("ORder", .text text)]) = .ok true := by
  intro text condition
  let phrase : Phrase := ⟨"ORder".toList, [' '], .ge, [' '], .quoted .double text.toList⟩
  have hphrase : phrase.WellFormed := by
    refine ⟨by decide, ?_, ?_, ?_⟩
    · exact List.forall_mem_singleton.mpr isBlank_space
    · exact List.forall_mem_singleton.mpr isBlank_space
    · show '"' ∉ text.toList
      decide
  have hkeyword : ∀ connective : Connective, phrase.field ≠ connective.word.toList := by
    intro connective
    cases connective <;> decide
  obtain ⟨hcompile, heval⟩ :=
    text_satisfies_conditions_that_quote_it {} phrase hphrase hkeyword .double text rfl
  have hsource : String.ofList phrase.source = "ORder >= \"AND (it's\n>= 1\"" := by decide
  have hcondition : phrase.condition = condition := by decide
  rw [hsource, hcondition] at hcompile
  rw [hcondition] at heval
  exact ⟨hcompile, heval _ (by decide)⟩

/-- Digits in quotes are a number, and a text of the same digits is equal to it. -/
example :
    Formula.eval (Record.ofList [("code", .text "007")])
      (.test ⟨"code", .eqEq, (Spelling.quoted .single "007".toList).literal⟩) = .ok true := by
  decide +kernel

end Criteria
