import Mathlib.Control.Monad.Basic
import Criteria.Proofs.Reading

/-!
# Limits cut off and do nothing else

A policy has a limit for the nesting of parentheses and one for the height of formulas. Two policies
of the same mode of which the one has no lower limit than the other read step by step alike, until
the narrower one refuses what is beyond a limit of its own: the reading under the narrower policy
refines that under the wider one (`Policy.Within.readLevel_refines`). So a rule that the narrower
policy does not refuse for a limit is to the wider one just the same, whether it is read or refused.
-/

namespace Criteria

open Outcome

/-- The fault is that of parentheses or of a formula beyond a limit. -/
def Fault.IsTooDeep (fault : Fault) : Prop :=
  ∃ limit, fault = .tooDeep limit

theorem Fault.isTooDeep_limit (limit : Nat) : (Fault.tooDeep limit).IsTooDeep :=
  ⟨limit, rfl⟩

namespace Policy

/-- The policy has the mode of the other and no higher limit. -/
structure Within (policy policy' : Policy) : Prop where
  mode_eq : policy.mode = policy'.mode
  nesting_le : policy.maxNesting ≤ policy'.maxNesting
  height_le : policy.maxHeight ≤ policy'.maxHeight

namespace Within

variable {policy policy' : Policy} (h : policy.Within policy')

include h

theorem isStrict_eq : policy.isStrict = policy'.isStrict := by
  rw [isStrict, isStrict, h.mode_eq]

/-! ## Joins and levels -/

theorem joinWithin_refines (connective : Connective) (left right : Formula × Nat) :
    Refines Fault.IsTooDeep (Formula.joinWithin policy connective left right)
      (Formula.joinWithin policy' connective left right) := by
  simp only [Formula.joinWithin]
  split
  · exact .of_refused (Fault.isTooDeep_limit _) _
  · next hheight =>
    rw [if_neg fun hhigher => hheight (Nat.lt_of_le_of_lt h.height_le hhigher)]
    exact .refl _

theorem ofJoin_refines (connective : Connective) (left right : Formula × Nat) :
    Refines Fault.IsTooDeep (Level.ofJoin policy connective left right)
      (Level.ofJoin policy' connective left right) :=
  (h.joinWithin_refines connective left right).map _

theorem addGroup_refines (level : Level) (group : Formula × Nat) :
    Refines Fault.IsTooDeep (level.addGroup policy group) (level.addGroup policy' group) := by
  cases level with
  | empty => exact .refl _
  | waiting connective left leftHeight => exact h.ofJoin_refines connective _ _
  | complete formula height =>
    simp only [Level.addGroup, h.isStrict_eq]
    split
    · exact .refl _
    · cases formula with
      | test condition => exact .refl _
      | join connective left right => exact h.ofJoin_refines connective _ _

theorem addCondition_refines (level : Level) (text : String) :
    Refines Fault.IsTooDeep (level.addCondition policy text)
      (level.addCondition policy' text) := by
  refine (Refines.refl (Condition.ofText text)).bind fun condition => ?_
  cases level with
  | empty => exact .refl _
  | waiting connective left leftHeight => exact h.ofJoin_refines connective _ _
  | complete formula height =>
    simp only [h.isStrict_eq]
    exact .refl _

/-! ## Readings, rules and combinations -/

theorem readLevel_refines (depth : Nat) (lexemes : List Lexeme) (around : List Level)
    (level : Level) :
    Refines Fault.IsTooDeep (readLevel policy depth around level lexemes)
      (readLevel policy' depth around level lexemes) :=
  Criteria.readLevel_refines policy policy' depth
    (.inr ⟨h.nesting_le, Fault.isTooDeep_limit _⟩) (.inl h.isStrict_eq) h.addGroup_refines
    h.addCondition_refines lexemes around level

theorem compile_refines (rule : String) :
    Refines Fault.IsTooDeep (Rule.compile policy rule) (Rule.compile policy' rule) := by
  rw [Rule.compile, Rule.compile, h.mode_eq]
  refine (Refines.refl _).bind fun occurrences => ?_
  exact (h.readLevel_refines 0 _ [] .empty).map _

theorem combineFormulas_refines (connective : Connective) (formulas : List Formula) :
    Refines Fault.IsTooDeep (Formula.combine policy connective formulas)
      (Formula.combine policy' connective formulas) := by
  cases formulas with
  | nil => exact .refl _
  | cons first rest =>
    refine Refines.map ?_ _
    exact .foldlM (fun joined next => h.joinWithin_refines connective joined _) rest _

theorem combine_refines (connective : Connective) (rules : List String) :
    Refines Fault.IsTooDeep (Rule.combine policy connective rules)
      (Rule.combine policy' connective rules) := by
  simp only [Rule.combine]
  split
  · exact .refl _
  · exact (Refines.mapM h.compile_refines rules).bind fun formulas =>
      h.combineFormulas_refines connective formulas

end Within

end Policy

/-- Where a policy does not refuse a rule for a limit, or rules combined by a connective, a policy of
the same mode without a lower limit answers the same, be it a formula or another fault. -/
theorem raised_limits_change_no_answer {policy policy' : Policy} (h : policy.Within policy') :
    (∀ rule, (∀ limit, Rule.compile policy rule ≠ .error (.tooDeep limit)) →
      Rule.compile policy' rule = Rule.compile policy rule) ∧
    (∀ connective rules,
      (∀ limit, Rule.combine policy connective rules ≠ .error (.tooDeep limit)) →
      Rule.combine policy' connective rules = Rule.combine policy connective rules) := by
  constructor
  · intro rule hrule
    refine ((h.compile_refines rule).eq_of_not ?_).symm
    rintro _ ⟨limit, rfl⟩
    exact hrule limit
  · intro connective rules hrules
    refine ((h.combine_refines connective rules).eq_of_not ?_).symm
    rintro _ ⟨limit, rfl⟩
    exact hrules limit

/-- One open parenthesis and two levels are enough for a formula whose right side is replaced, for a
rule that breaks off, and for two rules together; more of either changes nothing. -/
theorem raised_limits_of_replaced_side :
    Policy.Within ⟨.lenient, 1, 2⟩ ⟨.lenient, 64, 100⟩ ∧
    Rule.compile ⟨.lenient, 1, 2⟩ "a = 'x' AND b = 'y' (c = 'z')" =
      .ok (.join .and (.test ⟨"a", .eq, .text "x"⟩) (.test ⟨"c", .eq, .text "z"⟩)) ∧
    Rule.compile ⟨.lenient, 64, 100⟩ "a = 'x' AND b = 'y' (c = 'z')" =
      .ok (.join .and (.test ⟨"a", .eq, .text "x"⟩) (.test ⟨"c", .eq, .text "z"⟩)) ∧
    Rule.compile ⟨.lenient, 64, 100⟩ "a = 'x' AND (b = 'y' OR" = .error .unexpectedEnd ∧
    Rule.combine ⟨.lenient, 64, 100⟩ .or ["(a = 'x')", "b = 'y' c"] =
      .ok (.join .or (.test ⟨"a", .eq, .text "x"⟩) (.test ⟨"b", .eq, .text "y"⟩)) := by
  have hwithin : Policy.Within ⟨.lenient, 1, 2⟩ ⟨.lenient, 64, 100⟩ :=
    ⟨rfl, Nat.le_add_right 1 63, Nat.le_add_right 2 98⟩
  have hreplaced : Rule.compile ⟨.lenient, 1, 2⟩ "a = 'x' AND b = 'y' (c = 'z')" =
      .ok (.join .and (.test ⟨"a", .eq, .text "x"⟩) (.test ⟨"c", .eq, .text "z"⟩)) := by
    decide +kernel
  have hbroken : Rule.compile ⟨.lenient, 1, 2⟩ "a = 'x' AND (b = 'y' OR" =
      .error .unexpectedEnd := by
    decide +kernel
  have hcombined : Rule.combine ⟨.lenient, 1, 2⟩ .or ["(a = 'x')", "b = 'y' c"] =
      .ok (.join .or (.test ⟨"a", .eq, .text "x"⟩) (.test ⟨"b", .eq, .text "y"⟩)) := by
    decide +kernel
  refine ⟨hwithin, hreplaced, ?_, ?_, ?_⟩
  · rw [(raised_limits_change_no_answer hwithin).1 _ (by simp [hreplaced]), hreplaced]
  · rw [(raised_limits_change_no_answer hwithin).1 _ (by simp [hbroken]), hbroken]
  · rw [(raised_limits_change_no_answer hwithin).2 _ _ (by simp [hcombined]), hcombined]

end Criteria
