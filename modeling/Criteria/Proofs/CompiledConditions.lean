import Criteria.Proofs.Integers
import Criteria.Proofs.Invariants
import Criteria.Proofs.Refusals
import Criteria.Proofs.Rendering

/-!
# The conditions of compiled rules

Whatever text a rule is made of, and whatever a reading leaves out of it, the conditions of its
formula are well-formed: their fields have names that are no keywords, their numbers are numbers and
have no sign, and their texts are no numbers and could stand between quotation marks
(`conditions_of_rules_are_wellFormed`). A scan takes nothing else for a condition, and what a
reading makes of conditions has no others. This is also all that can be said, but for the numbers
being those of digits (`Condition.occurs_iff`).
-/

namespace Criteria

open Number (Binary64 natOfDigits all_isDigit_toDigits)

/-! ## Well-formed conditions -/

/-- A number has no sign, and a text is no number and lacks one of the quotation marks. -/
def Literal.WellFormed : Literal → Prop
  | number value => value.isNegative = false ∧ value ≠ .nan
  | text value => ¬ (value.toList ≠ [] ∧ ∀ c ∈ value.toList, c.isDigit = true) ∧
      ¬ (Quote.single.mark ∈ value.toList ∧ Quote.double.mark ∈ value.toList)

/-- The field has a name that is no keyword, and the literal is well-formed. -/
structure Condition.WellFormed (condition : Condition) : Prop where
  field : isName condition.field.toList = true
  field_ne : ∀ connective : Connective, condition.field ≠ connective.word
  value : condition.value.WellFormed

/-- What is written as a literal means a well-formed one. -/
theorem Spelling.WellFormed.literal {spelling : Spelling} (h : spelling.WellFormed) :
    spelling.literal.WellFormed := by
  by_cases hdigits : spelling.body ≠ [] ∧ ∀ c ∈ spelling.body, c.isDigit = true
  · have hnearest := Binary64.isNearest_ofNat (natOfDigits spelling.body)
    rw [Spelling.literal_of_digits hdigits.1 hdigits.2]
    exact ⟨hnearest.isNegative_eq, hnearest.ne_nan⟩
  · rw [Spelling.literal_of_not_digits hdigits, Literal.WellFormed, String.toList_ofList]
    refine ⟨hdigits, ?_⟩
    rintro ⟨hsingle, hdouble⟩
    cases spelling with
    | quoted quote body =>
      cases quote with
      | single => exact h hsingle
      | double => exact h hdouble
    | digits body => exact hdigits h

theorem Phrase.WellFormed.condition {phrase : Phrase} (h : phrase.WellFormed)
    (hkeyword : ∀ connective : Connective, phrase.field ≠ connective.word.toList) :
    phrase.condition.WellFormed where
  field := by
    rw [Phrase.condition, String.toList_ofList]
    exact h.field
  field_ne := by
    intro connective hfield
    rw [Phrase.condition, ← String.toList_inj, String.toList_ofList] at hfield
    exact hkeyword connective hfield
  value := h.spelling.literal

/-! ## Conditions of formulas -/

/-- The conditions in the formula of a rule, or of rules that are combined, are well-formed. -/
theorem Policy.Makes.wellFormed {policy : Policy} {formula : Formula} (h : policy.Makes formula) :
    ∀ condition ∈ formula.conditions, condition.WellFormed := by
  refine h.keeps_scanned (policy.keeps_conditions ?_) id fun hscan text hmem =>
    Lexeme.exists_phrase_of_scan hscan hmem
  rintro _ condition ⟨phrase, hphrase, hkeyword, rfl⟩ hread
  obtain rfl := Except.ok.inj ((Condition.ofText_source hphrase).symm.trans hread)
  exact hphrase.condition hkeyword

/-- The conditions of compiled rules are well-formed, and those of combined rules are too, whatever
the policy. -/
theorem conditions_of_rules_are_wellFormed (policy : Policy) :
    (∀ rule formula, Rule.compile policy rule = .ok formula →
      ∀ condition ∈ formula.conditions, condition.WellFormed) ∧
    (∀ connective rules formula, Rule.combine policy connective rules = .ok formula →
      ∀ condition ∈ formula.conditions, condition.WellFormed) := by
  constructor
  · intro rule formula h
    exact Policy.Makes.wellFormed (.inl ⟨rule, h⟩)
  · intro connective rules formula h
    exact Policy.Makes.wellFormed (.inr ⟨connective, rules, h⟩)

/-- A keyword that goes on as a name is one, also behind a letter that no name has. The last
condition is left out, as no connective stands before it. -/
theorem conditions_of_rule_near_keywords :
    let formula := Formula.join .or (.test ⟨"ANDa", .eq, .text "it's"⟩)
      (.test ⟨"ORb", .ge, .number (.ofNat 7)⟩)
    Rule.compile {} "ANDa = \"it's\" OR éORb >= '007' AND_c > 1" = .ok formula ∧
      ∀ condition ∈ formula.conditions, condition.WellFormed := by
  intro formula
  have hcompile : Rule.compile {} "ANDa = \"it's\" OR éORb >= '007' AND_c > 1" = .ok formula := by
    decide +kernel
  exact ⟨hcompile, (conditions_of_rules_are_wellFormed {}).1 _ formula hcompile⟩

/-! ## All well-formed conditions -/

/-- A text that lacks one of the marks can stand between two of them. -/
theorem exists_quote_of_not_both {body : List Char}
    (h : ¬ (Quote.single.mark ∈ body ∧ Quote.double.mark ∈ body)) :
    ∃ quote : Quote, quote.mark ∉ body := by
  by_cases hsingle : Quote.single.mark ∈ body
  · exact ⟨.double, fun hdouble => h ⟨hsingle, hdouble⟩⟩
  · exact ⟨.single, hsingle⟩

/-- A well-formed literal can be written, unless it is a number that no digits mean. -/
theorem Literal.WellFormed.exists_spelling {literal : Literal} (h : literal.WellFormed)
    (hdigits : ∀ value, literal = .number value → ∃ n, value = .ofNat n) :
    ∃ spelling : Spelling, spelling.WellFormed ∧ spelling.literal = literal := by
  cases literal with
  | number value =>
    obtain ⟨n, rfl⟩ := hdigits value rfl
    refine ⟨.digits (Nat.toDigits 10 n), ⟨Nat.toDigits_ne_nil, all_isDigit_toDigits n⟩, ?_⟩
    have hliteral : (Spelling.digits (Nat.toDigits 10 n)).literal =
        .number (.ofNat (natOfDigits (Nat.toDigits 10 n))) :=
      Spelling.literal_of_digits Nat.toDigits_ne_nil (all_isDigit_toDigits n)
    rw [hliteral, natOfDigits, Nat.ofDigitChars_ten_toDigits]
  | text value =>
    obtain ⟨hother, hmarks⟩ := h
    obtain ⟨quote, hquote⟩ := exists_quote_of_not_both hmarks
    refine ⟨.quoted quote value.toList, hquote, ?_⟩
    have hliteral : (Spelling.quoted quote value.toList).literal =
        .text (String.ofList value.toList) :=
      Spelling.literal_of_not_digits hother
    rw [hliteral, String.ofList_toList]

/-- The conditions that occur in formulas of rules are the well-formed ones with numbers that digits
mean. Each of them is also a rule by itself. -/
theorem Condition.occurs_iff (policy : Policy) (condition : Condition) :
    (∃ formula, policy.Makes formula ∧ condition ∈ formula.conditions) ↔
      condition.WellFormed ∧ ∀ value, condition.value = .number value → ∃ n, value = .ofNat n := by
  constructor
  · rintro ⟨formula, hmakes, hmem⟩
    exact ⟨hmakes.wellFormed condition hmem, hmakes.exists_ofNat condition hmem⟩
  · rintro ⟨h, hdigits⟩
    obtain ⟨spelling, hspelling, hliteral⟩ := h.value.exists_spelling hdigits
    let phrase : Phrase := ⟨condition.field.toList, [], condition.relation, [], spelling⟩
    have hphrase : phrase.WellFormed :=
      ⟨h.field, List.forall_mem_nil _, List.forall_mem_nil _, hspelling⟩
    have hkeyword : ∀ connective : Connective, phrase.field ≠ connective.word.toList := by
      intro connective hfield
      exact h.field_ne connective (String.toList_inj.mp hfield)
    have hcondition : phrase.condition = condition := by
      rw [Phrase.condition, String.ofList_toList, hliteral]
    refine ⟨.test condition, .inl ⟨String.ofList phrase.source, ?_⟩, List.mem_singleton_self _⟩
    rw [Rule.compile_source policy hphrase hkeyword, hcondition]

end Criteria
