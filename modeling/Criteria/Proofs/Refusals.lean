import Criteria.Proofs.Scans

/-!
# What rules are refused for

Whatever a scan takes for a condition is read as one (`Lexeme.exists_condition_of_scan`), so no rule
is refused for a condition that is none. That leaves the faults of `Policy.RefusesRule`: a rule is
empty, breaks off, has a connective in the wrong place or goes beyond a limit, and a strict reading
also refuses text that it cannot use. Several rules are refused for the same, and for not being any
rules at all.
-/

namespace Criteria

open Outcome

variable {policy : Policy} {connective : Connective}

/-! ## Scans -/

/-- What a scan takes for a condition is written as one, and its name is no keyword. -/
theorem Lexeme.exists_phrase_of_scan {mode : Mode} {rule : String}
    {occurrences : List Occurrence} (hscan : scan mode rule = .ok occurrences) {text : String}
    (hmem : .condition text ∈ occurrences.map (·.lexeme)) :
    ∃ phrase : Phrase, phrase.WellFormed ∧
      (∀ connective : Connective, phrase.field ≠ connective.word.toList) ∧
      text = String.ofList phrase.source := by
  obtain ⟨occurrence, hoccurrence, hlexeme⟩ := List.mem_map.mp hmem
  have hfound := IsScanFrom.iff_eq_occurrencesFrom_pieces.mpr (eq_occurrencesFrom_of_scan hscan)
  obtain ⟨-, front, back, -, hfits, -⟩ := hfound.stand occurrence hoccurrence
  rw [hlexeme] at hfits
  obtain ⟨phrase, hphrase, htext, -, hstart⟩ := hfits
  exact ⟨phrase, hphrase, (startsNoKeyword_source_iff hphrase).mp hstart, htext⟩

/-- What a scan takes for a condition is one. -/
theorem Lexeme.exists_condition_of_scan {mode : Mode} {rule : String}
    {occurrences : List Occurrence} (hscan : scan mode rule = .ok occurrences) {text : String}
    (hmem : .condition text ∈ occurrences.map (·.lexeme)) :
    ∃ condition, Condition.ofText text = .ok condition := by
  obtain ⟨phrase, hphrase, -, rfl⟩ := exists_phrase_of_scan hscan hmem
  exact ⟨phrase.condition, Condition.ofText_source hphrase⟩

theorem Lexeme.scan_failsOnly (policy : Policy) (rule : String) :
    FailsOnly policy.RefusesRule (scan policy.mode rule) := by
  have hlenient : FailsOnly policy.RefusesRule (scan .lenient rule) := by
    refine (scan_lenient_failsOnly rule).mono ?_
    rintro _ rfl
    trivial
  cases hmode : policy.mode with
  | lenient => exact hlenient
  | strict =>
    rcases scan_refines rule with ⟨_, ⟨text, rfl⟩, hfault⟩ | hequal
    · rw [hfault]
      exact failsOnly_error hmode
    · rw [hequal]
      exact hlenient

/-! ## Rules -/

theorem Rule.compile_failsOnly (policy : Policy) (rule : String) :
    FailsOnly policy.RefusesRule (compile policy rule) := by
  refine (Lexeme.scan_failsOnly policy rule).bind fun occurrences hscan =>
    (Formula.ofLexemes_failsOnly policy _).mono ?_
  rintro fault (hrefused | ⟨text, hmem, -, hnone⟩)
  · exact hrefused
  · obtain ⟨condition, hread⟩ := Lexeme.exists_condition_of_scan hscan hmem
    exact absurd hread (hnone condition)

theorem Formula.combine_failsOnly (first : Formula) (rest : List Formula) :
    FailsOnly policy.RefusesRule (combine policy connective (first :: rest)) :=
  (failsOnly_foldlM (fun _ _ => joinWithin_failsOnly policy connective _ _) rest _).map _

/-- If there is a rule at all, rules are refused together for what a rule is refused for. -/
theorem Rule.combine_failsOnly (rule : String) (rest : List String) :
    FailsOnly policy.RefusesRule (combine policy connective (rule :: rest)) := by
  rw [combine, if_neg (List.cons_ne_nil rule rest)]
  refine (failsOnly_mapM (compile_failsOnly policy) _).bind fun formulas hformulas => ?_
  rw [List.mapM_cons] at hformulas
  obtain ⟨first, -, hformulas⟩ := bind_eq_ok_iff.mp hformulas
  obtain ⟨others, -, hformulas⟩ := bind_eq_ok_iff.mp hformulas
  obtain rfl := Except.ok.inj hformulas
  exact Formula.combine_failsOnly first others

/-- Whatever a scan takes for a condition is read as one. So a rule is refused with the faults of
rules only, and rules are combined or refused with these faults too, or for being no rules. -/
theorem refusals_are_confined (policy : Policy) :
    (∀ mode rule occurrences text, Lexeme.scan mode rule = .ok occurrences →
      .condition text ∈ occurrences.map (·.lexeme) →
      ∃ condition, Condition.ofText text = .ok condition) ∧
    (∀ rule fault, Rule.compile policy rule = .error fault → policy.RefusesRule fault) ∧
    (∀ connective rules fault, Rule.combine policy connective rules = .error fault →
      policy.RefusesRule fault ∨ fault = .noRules) ∧
    (∀ connective rules, Rule.combine policy connective rules = .error .noRules ↔ rules = []) := by
  refine ⟨?_, Rule.compile_failsOnly policy, ?_, ?_⟩
  · intro mode rule occurrences text hscan hmem
    exact Lexeme.exists_condition_of_scan hscan hmem
  · intro connective rules fault hfault
    cases rules with
    | nil => exact .inr (Except.error.inj hfault).symm
    | cons rule rest => exact .inl (Rule.combine_failsOnly rule rest fault hfault)
  · intro connective rules
    constructor
    · intro hfault
      cases rules with
      | nil => rfl
      | cons rule rest => exact (Rule.combine_failsOnly rule rest _ hfault).elim
    · rintro rfl
      rfl

end Criteria
